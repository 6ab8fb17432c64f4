import QaPlatform.Runtime.TriggerRaces

/-!
# One run for a correlation id

Between its INSERTs and its COMMIT a call is the only one that holds its key, and no
committed row has it. So the row that a COMMIT adds is the first of its key, and
whoever returns a run with that key returns this one.

A run or an intent that a call has inserted belongs to the tables for those who insert and not
for those who read; `InsertedRow` has both. A statement either moves its call on or commits it
(`CallStep`), and what others do in between leaves the keys (`Sound.sameRuns`). At the end the
statements of a call that nobody gets in the way of are put together again: they do what
`trigger_provider` does in one piece, which is the function that the rest of the development is
about.
-/

namespace QaPlatform.Runtime

open Pipeline

namespace TriggerRace

variable {safety : RuntimeSafetyConfig} {s s' : TriggerRace} {t : TriggerTx}
  {p : PreparedTrigger}

/-! ## Steps of a call -/

/-- What a statement of a call does. -/
inductive CallStep (safety : RuntimeSafetyConfig) (s : TriggerRace) (t : TriggerTx) :
    TriggerRace → Prop
  | idle : CallStep safety s t s
  | prepared (p : PreparedTrigger) (hphase : t.phase = .begun)
      (hp : s.store.prepareTrigger safety t.connectionId t.payload t.generated = .ok p) :
      CallStep safety s t (s.setPhase t (.prepared p))
  | found (p : PreparedTrigger) (previous : RunGraph) (hphase : t.phase = .prepared p)
      (hfind : s.store.findTriggered p t.payload.correlationId = some previous)
      (hsame : previous.run.requestFingerprint = p.fingerprint) :
      CallStep safety s t (s.setPhase t (.returned p previous.run))
  | looked (p : PreparedTrigger) (hphase : t.phase = .prepared p) :
      CallStep safety s t (s.setPhase t (.looked p))
  | runInserted (p : PreparedTrigger) (hphase : t.phase = .looked p)
      (hfresh : ∀ g ∈ s.store.graphs.rows, g.runKey ≠ p.key)
      (hfree : ∀ t' ∈ s.calls.rows, ∀ p', t'.phase.pendingRun = some p' → p'.key ≠ p.key) :
      CallStep safety s t (s.setPhase t (.runInserted p))
  | intentInserted (p : PreparedTrigger) (hphase : t.phase = .runInserted p) :
      CallStep safety s t (s.setPhase t (.intentInserted p))
  | committed (p : PreparedTrigger) (hphase : t.phase = .intentInserted p) :
      CallStep safety s t (s.commit t p)
  | ended (phase : TriggerPhase) (hphase : phase.working = none)
      (hopen : ∀ p run, t.phase ≠ .returned p run) : CallStep safety s t (s.setPhase t phase)

theorem callStep_readConnection (hphase : t.phase = .begun) :
    CallStep safety s t (s.readConnection safety t) := by
  unfold readConnection
  split
  · next p hp => exact .prepared p hphase hp
  · exact .ended _ rfl (by simp [hphase])

theorem callStep_findPrevious (hphase : t.phase = .prepared p) :
    CallStep safety s t (s.findPrevious t p) := by
  unfold findPrevious
  split
  · next previous hfind =>
    split
    · exact .ended _ rfl (by simp [hphase])
    · next hsame => exact .found p previous hphase hfind (not_not.mp hsame)
  · exact .looked p hphase

theorem callStep_insertRun (hphase : t.phase = .looked p) :
    CallStep safety s t (s.insertRun t p) := by
  unfold insertRun
  split
  · exact .ended _ rfl (by simp [hphase])
  next hinsert =>
  split
  · exact .idle
  next hfree =>
  refine .runInserted p hphase (fun g hg hkey => ?_) fun t' ht' p' hp' hkey => ?_
  · exact hinsert (.inl (List.any_eq_true.mpr ⟨g, hg, decide_eq_true hkey⟩))
  · exact hfree (List.any_eq_true.mpr ⟨t', ht', by simp [hp', hkey]⟩)

theorem callStep_insertIntent (hphase : t.phase = .runInserted p) :
    CallStep safety s t (s.insertIntent t p) := by
  unfold insertIntent
  split
  · exact .ended _ rfl (by simp [hphase])
  · split
    · exact .idle
    · exact .intentInserted p hphase

theorem callStep_execute (safety : RuntimeSafetyConfig) (s : TriggerRace) (t : TriggerTx)
    (statement : TriggerStatement) : CallStep safety s t (s.execute safety t statement) := by
  cases statement with
  | readConnection =>
    simp only [execute]
    split
    · next hphase => exact callStep_readConnection hphase
    · exact .idle
  | findPrevious =>
    simp only [execute]
    split
    · next hphase => exact callStep_findPrevious hphase
    · exact .idle
  | insertRun =>
    simp only [execute]
    split
    · next hphase => exact callStep_insertRun hphase
    · exact .idle
  | insertIntent =>
    simp only [execute]
    split
    · next hphase => exact callStep_insertIntent hphase
    · exact .idle
  | commit =>
    simp only [execute]
    split
    · next p hphase => exact .committed p hphase
    · exact .idle
  | crash =>
    simp only [execute]
    split
    · exact .idle
    · exact .idle
    · next hnot _ => exact .ended .aborted rfl hnot

/-! ## Invariants -/

/-- What a call works with was read off its connection and its payload. -/
structure Prepared (t : TriggerTx) (p : PreparedTrigger) : Prop where
  connectionId : p.connection.id = t.connectionId
  correlationId : p.request.correlationId = t.correlationId
  fingerprint : jsonFingerprint (requestJson p.request) = .ok p.fingerprint

/-- No two runs have one key, and what the calls have read is so. -/
structure Sound (s : TriggerRace) : Prop where
  unique : ∀ k k' g g', s.store.graphs.get? k = some g → s.store.graphs.get? k' = some g' →
    g.runKey = g'.runKey → k = k'
  intentKey : ∀ k g, s.store.graphs.get? k = some g → g.intentKey = g.runKey
  /-- An uncommitted key is held by one call. -/
  pending : ∀ i j t t' p p', s.calls.get? i = some t → s.calls.get? j = some t' →
    t.phase.pendingRun = some p → t'.phase.pendingRun = some p' → p.key = p'.key → i = j
  /-- An uncommitted key is not committed yet. -/
  fresh : ∀ i t p, s.calls.get? i = some t → t.phase.pendingRun = some p →
    ∀ k g, s.store.graphs.get? k = some g → g.runKey ≠ p.key
  prepared : ∀ i t p, s.calls.get? i = some t → t.phase.working = some p → Prepared t p
  returned : ∀ i t p run, s.calls.get? i = some t → t.phase = .returned p run →
    ∃ g, s.store.graphs.get? run.id = some g ∧ g.runKey = p.key
      ∧ g.run.requestFingerprint = p.fingerprint

theorem sound_empty : Sound empty where
  unique := by simp [empty, ProviderSystem.empty, ProviderStore.empty]
  intentKey := by simp [empty, ProviderSystem.empty, ProviderStore.empty]
  pending := by simp [empty]
  fresh := by simp [empty]
  prepared := by simp [empty]
  returned := by simp [empty]

/-- Other transactions leave a sound state. -/
theorem Sound.sameRuns (h : s.Sound) (hcalls : s'.calls = s.calls)
    (hsame : s.store.SameRuns s'.store) : s'.Sound where
  unique := by
    intro k k' g g' hg hg' hkey
    obtain ⟨g₀, hg₀, htrigger⟩ := hsame.backward hg
    obtain ⟨g₀', hg₀', htrigger'⟩ := hsame.backward hg'
    exact h.unique k k' g₀ g₀' hg₀ hg₀'
      (htrigger.runKey.symm.trans (hkey.trans htrigger'.runKey))
  intentKey := by
    intro k g hg
    obtain ⟨g₀, hg₀, htrigger⟩ := hsame.backward hg
    rw [htrigger.intentKey, htrigger.runKey]
    exact h.intentKey k g₀ hg₀
  pending := hcalls ▸ h.pending
  fresh := by
    intro i t p ht hp k g hg
    obtain ⟨g₀, hg₀, htrigger⟩ := hsame.backward hg
    rw [htrigger.runKey]
    exact h.fresh i t p (hcalls ▸ ht) hp k g₀ hg₀
  prepared := hcalls ▸ h.prepared
  returned := by
    intro i t p run ht hphase
    obtain ⟨g, hg, hkey, hfingerprint⟩ := h.returned i t p run (hcalls ▸ ht) hphase
    obtain ⟨g', hg', htrigger⟩ := hsame.forward hg
    exact ⟨g', hg', htrigger.runKey.trans hkey, htrigger.requestFingerprint.trans hfingerprint⟩

/-- The calls after one of them has got on. -/
theorem get?_setPhase {phase : TriggerPhase} {i : Uuid} {t' : TriggerTx}
    (ht : s.calls.get? t.id = some t) (h : (s.setPhase t phase).calls.get? i = some t') :
    (i = t.id ∧ t' = { t with phase }) ∨ (i ≠ t.id ∧ s.calls.get? i = some t') := by
  by_cases hi : t.id = i
  · subst hi
    have hself : (s.setPhase t phase).calls.get? t.id = some { t with phase } :=
      Table.get?_put_self ht rfl
    exact .inl ⟨rfl, Option.some.inj (h.symm.trans hself)⟩
  · have hother : (s.setPhase t phase).calls.get? i = s.calls.get? i := Table.get?_put_of_ne hi
    exact .inr ⟨Ne.symm hi, hother.symm.trans h⟩

/-- A call may go on when it holds no key that it did not hold, or a free one. -/
theorem Sound.setPhase (h : s.Sound) (ht : s.calls.get? t.id = some t) {phase : TriggerPhase}
    (hpending : ∀ p, phase.pendingRun = some p → t.phase.pendingRun = some p
      ∨ ((∀ g ∈ s.store.graphs.rows, g.runKey ≠ p.key)
        ∧ ∀ t' ∈ s.calls.rows, ∀ p', t'.phase.pendingRun = some p' → p'.key ≠ p.key))
    (hprepared : ∀ p, phase.working = some p → Prepared t p)
    (hreturned : ∀ p run, phase = .returned p run → ∃ g, s.store.graphs.get? run.id = some g
      ∧ g.runKey = p.key ∧ g.run.requestFingerprint = p.fingerprint) :
    (s.setPhase t phase).Sound where
  unique := h.unique
  intentKey := h.intentKey
  pending := by
    -- the call that got on against one that did not
    have hmixed : ∀ j t' p p', s.calls.get? j = some t' → phase.pendingRun = some p →
        t'.phase.pendingRun = some p' → p.key = p'.key → t.id = j := by
      intro j t' p p' ht' hp hp' hkey
      rcases hpending p hp with hold | ⟨-, hfree⟩
      · exact h.pending t.id j t t' p p' ht ht' hold hp' hkey
      · exact absurd hkey.symm (hfree t' (Table.mem_of_get? ht') p' hp')
    intro i j t₁ t₂ p₁ p₂ ht₁ ht₂ hp₁ hp₂ hkey
    rcases get?_setPhase ht ht₁ with ⟨rfl, rfl⟩ | ⟨-, hold₁⟩
    · rcases get?_setPhase ht ht₂ with ⟨rfl, rfl⟩ | ⟨-, hold₂⟩
      · rfl
      · exact hmixed j t₂ p₁ p₂ hold₂ hp₁ hp₂ hkey
    · rcases get?_setPhase ht ht₂ with ⟨rfl, rfl⟩ | ⟨-, hold₂⟩
      · exact (hmixed i t₁ p₂ p₁ hold₁ hp₂ hp₁ hkey.symm).symm
      · exact h.pending i j t₁ t₂ p₁ p₂ hold₁ hold₂ hp₁ hp₂ hkey
  fresh := by
    intro i t' p ht' hp k g hg
    rcases get?_setPhase ht ht' with ⟨rfl, rfl⟩ | ⟨-, hold⟩
    · rcases hpending p hp with hheld | ⟨hfresh, -⟩
      · exact h.fresh t.id t p ht hheld k g hg
      · exact hfresh g (Table.mem_of_get? hg)
    · exact h.fresh i t' p hold hp k g hg
  prepared := by
    intro i t' p ht' hp
    rcases get?_setPhase ht ht' with ⟨rfl, rfl⟩ | ⟨-, hold⟩
    · have hwas := hprepared p hp
      exact ⟨hwas.connectionId, hwas.correlationId, hwas.fingerprint⟩
    · exact h.prepared i t' p hold hp
  returned := by
    intro i t' p run ht' hphase
    rcases get?_setPhase ht ht' with ⟨rfl, rfl⟩ | ⟨-, hold⟩
    · exact hreturned p run hphase
    · exact h.returned i t' p run hold hphase

/-- The COMMIT adds the first row of its key. -/
theorem Sound.commit (h : s.Sound) (ht : s.calls.get? t.id = some t)
    (hphase : t.phase = .intentInserted p) : (s.commit t p).Sound := by
  have hheld : t.phase.pendingRun = some p := by rw [hphase]; rfl
  -- the store has the new row, under the next number, and what it had
  have hget : ∀ k g, (s.commit t p).store.graphs.get? k = some g →
      (k = s.store.graphs.next ∧ g = rowsOf t p s.store.graphs.next)
        ∨ s.store.graphs.get? k = some g := by
    intro k g hg
    have hadd : (if s.store.graphs.next = k then some (rowsOf t p s.store.graphs.next)
        else s.store.graphs.get? k) = some g :=
      (Table.get?_add s.store.graphs (rowsOf t p) (fun _ => rfl) k).symm.trans hg
    split at hadd
    · next hk => exact .inl ⟨hk.symm, (Option.some.inj hadd).symm⟩
    · exact .inr hadd
  have hkept : ∀ k g, s.store.graphs.get? k = some g →
      (s.commit t p).store.graphs.get? k = some g := by
    intro k g hg
    refine (Table.get?_add s.store.graphs (rowsOf t p) (fun _ => rfl) k).trans ?_
    rw [if_neg (Nat.ne_of_gt (Table.lt_next_of_get? hg)), hg]
  -- the call itself has returned and holds no key any more
  have hcalls : ∀ i t', (s.commit t p).calls.get? i = some t' →
      (i = t.id ∧ t'.phase = .returned p (rowsOf t p s.store.graphs.next).run
        ∧ ∀ p, Prepared t p → Prepared t' p) ∨ (i ≠ t.id ∧ s.calls.get? i = some t') := by
    intro i t' ht'
    rcases get?_setPhase (s := s) ht ht' with ⟨hi, rfl⟩ | hold
    · exact .inl ⟨hi, rfl, fun p hp => ⟨hp.connectionId, hp.correlationId, hp.fingerprint⟩⟩
    · exact .inr hold
  constructor
  · intro k k' g g' hg hg' hkey
    rcases hget k g hg with ⟨rfl, rfl⟩ | hold
    · rcases hget k' g' hg' with ⟨rfl, rfl⟩ | hold'
      · rfl
      -- the key was held, so no committed row had it
      · exact absurd hkey.symm (h.fresh t.id t p ht hheld k' g' hold')
    · rcases hget k' g' hg' with ⟨rfl, rfl⟩ | hold'
      · exact absurd hkey (h.fresh t.id t p ht hheld k g hold)
      · exact h.unique k k' g g' hold hold' hkey
  · intro k g hg
    rcases hget k g hg with ⟨rfl, rfl⟩ | hold
    · rfl
    · exact h.intentKey k g hold
  · intro i j t₁ t₂ p₁ p₂ ht₁ ht₂ hp₁ hp₂ hkey
    rcases hcalls i t₁ ht₁ with ⟨-, hreturned, -⟩ | ⟨-, hold₁⟩
    · rw [hreturned] at hp₁
      simp [TriggerPhase.pendingRun] at hp₁
    rcases hcalls j t₂ ht₂ with ⟨-, hreturned, -⟩ | ⟨-, hold₂⟩
    · rw [hreturned] at hp₂
      simp [TriggerPhase.pendingRun] at hp₂
    exact h.pending i j t₁ t₂ p₁ p₂ hold₁ hold₂ hp₁ hp₂ hkey
  · intro i t' p' ht' hp' k g hg
    rcases hcalls i t' ht' with ⟨-, hreturned, -⟩ | ⟨hne, hold⟩
    · rw [hreturned] at hp'
      simp [TriggerPhase.pendingRun] at hp'
    rcases hget k g hg with ⟨rfl, rfl⟩ | holdg
    -- another call that holds the key would be this call
    · exact fun hkey => hne (h.pending i t.id t' t p' p hold ht hp' hheld hkey.symm)
    · exact h.fresh i t' p' hold hp' k g holdg
  · intro i t' p' ht' hp'
    rcases hcalls i t' ht' with ⟨-, hreturned, hprepared⟩ | ⟨-, hold⟩
    · rw [hreturned] at hp'
      obtain rfl := Option.some.inj hp'
      exact hprepared p (h.prepared t.id t p ht (by rw [hphase]; rfl))
    · exact h.prepared i t' p' hold hp'
  · intro i t' p' run ht' hphase'
    rcases hcalls i t' ht' with ⟨-, hreturned, -⟩ | ⟨-, hold⟩
    · rw [hreturned] at hphase'
      cases hphase'
      exact ⟨rowsOf t p s.store.graphs.next,
        (Table.get?_add s.store.graphs (rowsOf t p) (fun _ => rfl) _).trans (if_pos rfl), rfl, rfl⟩
    · obtain ⟨g, hg, hg'⟩ := h.returned i t' p' run hold hphase'
      exact ⟨g, hkept _ g hg, hg'⟩

/-- The connection is as it was read, and the request is built of it and the payload. -/
theorem prepareTrigger_ok {store : ProviderStore} {connectionId : Uuid}
    {payload : ProviderTriggerPayload} {generated : String}
    (h : store.prepareTrigger safety connectionId payload generated = .ok p) :
    store.connections.get? connectionId = some p.connection
      ∧ p.request = ⟨p.connection.definitionRef, payload.ref, payload.triggerVariables,
        payload.correlationId.getD generated⟩
      ∧ jsonFingerprint (requestJson p.request) = .ok p.fingerprint := by
  unfold ProviderStore.prepareTrigger at h
  rw [bind_eq_ok] at h
  obtain ⟨c, hc, h⟩ := h
  rw [ProviderStore.requireConnection_eq_ok] at hc
  rw [refuse_bind_eq_ok, bind_eq_ok] at h
  obtain ⟨-, -, -, h⟩ := h
  have hbuilt : ∃ fingerprint, jsonFingerprint (requestJson ⟨c.definitionRef, payload.ref,
        payload.triggerVariables, payload.correlationId.getD generated⟩) = .ok fingerprint
      ∧ p = ⟨c, ⟨c.definitionRef, payload.ref, payload.triggerVariables,
        payload.correlationId.getD generated⟩, fingerprint⟩ := by
    -- the CI Lab's contract builds nothing
    dsimp only at h
    split at h
    · rw [bind_eq_ok] at h
      obtain ⟨-, -, h⟩ := h
      rw [refuse_bind_eq_ok, bind_eq_ok] at h
      obtain ⟨-, fingerprint, hfingerprint, h⟩ := h
      rw [pure_eq_ok] at h
      exact ⟨fingerprint, hfingerprint, h.symm⟩
    · rw [refuse_bind_eq_ok, bind_eq_ok] at h
      obtain ⟨-, fingerprint, hfingerprint, h⟩ := h
      rw [pure_eq_ok] at h
      exact ⟨fingerprint, hfingerprint, h.symm⟩
  obtain ⟨fingerprint, hfingerprint, rfl⟩ := hbuilt
  exact ⟨hc, rfl, hfingerprint⟩

/-- What is prepared names the connection and the correlation id of its call. -/
theorem prepared_of_prepareTrigger
    (h : s.store.prepareTrigger safety t.connectionId t.payload t.generated = .ok p) :
    Prepared t p := by
  obtain ⟨hc, hrequest, hfingerprint⟩ := prepareTrigger_ok h
  refine ⟨Table.key_of_get? hc, ?_, hfingerprint⟩
  rw [hrequest]
  rfl

theorem Sound.callStep (h : s.Sound) (ht : s.calls.get? t.id = some t)
    (hstep : CallStep safety s t s') : s'.Sound := by
  have hprepared : ∀ p, t.phase.working = some p → Prepared t p :=
    fun p hp => h.prepared t.id t p ht hp
  cases hstep with
  | idle => exact h
  | prepared p hphase hp =>
    refine h.setPhase ht (by simp [TriggerPhase.pendingRun]) (fun p' hp' => ?_) (by simp)
    obtain rfl := Option.some.inj hp'
    exact prepared_of_prepareTrigger hp
  | found p previous hphase hfind hsame =>
    have hp := hprepared p (by rw [hphase]; rfl)
    refine h.setPhase ht (by simp [TriggerPhase.pendingRun]) (fun p' hp' => ?_) fun p' run hp' => ?_
    · obtain rfl := Option.some.inj hp'
      exact hp
    · cases hp'
      obtain ⟨requested, hrequested, hfound⟩ := Option.bind_eq_some_iff.mp hfind
      have hmatch := List.find?_some hfound
      have hkey := of_decide_eq_true hmatch
      refine ⟨previous, Table.get?_key (List.mem_of_find?_eq_some hfound), ?_, hsame⟩
      have hcorrelation : p.request.correlationId = requested := by
        rw [hp.correlationId, TriggerTx.correlationId, hrequested]
        rfl
      exact Prod.ext hkey.1 (hkey.2.trans hcorrelation.symm)
  | looked p hphase =>
    refine h.setPhase ht (by simp [TriggerPhase.pendingRun]) (fun p' hp' => ?_) (by simp)
    exact hprepared p' (by rw [hphase]; exact hp')
  | runInserted p hphase hfresh hfree =>
    refine h.setPhase ht (fun p' hp' => ?_) (fun p' hp' => ?_) (by simp)
    · obtain rfl := Option.some.inj hp'
      exact .inr ⟨hfresh, hfree⟩
    · exact hprepared p' (by rw [hphase]; exact hp')
  | intentInserted p hphase =>
    refine h.setPhase ht (fun p' hp' => ?_) (fun p' hp' => ?_) (by simp)
    · exact .inl (by rw [hphase]; exact hp')
    · exact hprepared p' (by rw [hphase]; exact hp')
  | committed p hphase => exact h.commit ht hphase
  | ended phase hphase hopen =>
    have hnone : phase.pendingRun = none := by
      cases phase with
      | begun | raised | aborted | prepared | looked | returned => rfl
      | runInserted | intentInserted => simp [TriggerPhase.working] at hphase
    refine h.setPhase ht (by simp [hnone]) (by simp [hphase]) fun p run hreturned => ?_
    rw [hreturned] at hphase
    simp [TriggerPhase.working] at hphase

theorem others_sameRuns (safety : RuntimeSafetyConfig) (s : TriggerRace) (e : ProviderEvent) :
    (s.others safety e).calls = s.calls ∧ s.store.SameRuns (s.others safety e).store := by
  by_cases htrigger : ∃ connectionId payload actor generated now,
      e = .triggerProvider connectionId payload actor generated now
  · obtain ⟨connectionId, payload, actor, generated, now, rfl⟩ := htrigger
    exact ⟨rfl, .refl _⟩
  have hsame := s.system.sameRuns_step safety (e := e)
    fun connectionId payload actor generated now he =>
      htrigger ⟨connectionId, payload, actor, generated, now, he⟩
  unfold others
  split
  · exact ⟨rfl, .refl _⟩
  · split
    · exact ⟨rfl, .refl _⟩
    · exact ⟨rfl, hsame⟩
  · exact ⟨rfl, hsame⟩

theorem Sound.step (h : s.Sound) (e : TriggerRaceEvent) : (s.step safety e).Sound := by
  cases e with
  -- a call that starts has read nothing and holds no key
  | start connectionId payload actor generated now =>
    have hcalls :
      ∀ i t', (s.step safety (.start connectionId payload actor generated now)).calls.get? i
        = some t' → t'.phase = .begun ∨ s.calls.get? i = some t' := by
      intro i t' ht'
      have hadd := (Table.get?_add s.calls (fun id =>
        ⟨id, connectionId, payload, actor, generated, now, .begun⟩) (fun _ => rfl) i).symm.trans ht'
      split at hadd
      · exact .inl (Option.some.inj hadd ▸ rfl)
      · exact .inr hadd
    constructor
    · exact h.unique
    · exact h.intentKey
    · intro i j t₁ t₂ p₁ p₂ ht₁ ht₂ hp₁ hp₂ hkey
      rcases hcalls i t₁ ht₁ with hbegun | hold₁
      · simp [hbegun, TriggerPhase.pendingRun] at hp₁
      rcases hcalls j t₂ ht₂ with hbegun | hold₂
      · simp [hbegun, TriggerPhase.pendingRun] at hp₂
      exact h.pending i j t₁ t₂ p₁ p₂ hold₁ hold₂ hp₁ hp₂ hkey
    · intro i t' p ht' hp
      rcases hcalls i t' ht' with hbegun | hold
      · simp [hbegun, TriggerPhase.pendingRun] at hp
      · exact h.fresh i t' p hold hp
    · intro i t' p ht' hp
      rcases hcalls i t' ht' with hbegun | hold
      · simp [hbegun, TriggerPhase.working] at hp
      · exact h.prepared i t' p hold hp
    · intro i t' p run ht' hphase
      rcases hcalls i t' ht' with hbegun | hold
      · simp [hbegun] at hphase
      · exact h.returned i t' p run hold hphase
  | call id statement =>
    unfold TriggerRace.step
    dsimp only
    cases ht : s.calls.get? id with
    | none => exact h
    | some t =>
      have hid : t.id = id := Table.key_of_get? ht
      exact h.callStep (hid ▸ ht) (callStep_execute safety s t statement)
  | other e =>
    obtain ⟨hcalls, hsame⟩ := others_sameRuns safety s e
    exact h.sameRuns hcalls hsame
  | edit edited => exact h.sameRuns rfl (.refl s.store)
  | cancel runId read now =>
    unfold TriggerRace.step
    dsimp only
    cases hg : s.store.graphs.get? runId with
    | none => exact h
    | some g =>
      have hid : (DispatchRace.overwrite g read now).run.id = g.run.id := rfl
      have htrigger : g.SameTrigger (DispatchRace.overwrite g read now) := ⟨rfl, rfl, rfl⟩
      exact h.sameRuns rfl (.of_put hg hid htrigger)

theorem sound_run (safety : RuntimeSafetyConfig) (es : List TriggerRaceEvent) :
    (Transition.run (step safety) empty es).Sound :=
  Transition.invariant_run (fun _ e h => h.step e) sound_empty es

/-! ## Calls that are over -/

theorem get?_execute_other {i : Uuid} (hi : t.id ≠ i) (statement : TriggerStatement) :
    (s.execute safety t statement).calls.get? i = s.calls.get? i := by
  have hstep := callStep_execute safety s t statement
  generalize s.execute safety t statement = s' at hstep
  cases hstep with
  | idle => rfl
  | prepared => exact Table.get?_put_of_ne hi
  | found => exact Table.get?_put_of_ne hi
  | looked => exact Table.get?_put_of_ne hi
  | runInserted => exact Table.get?_put_of_ne hi
  | intentInserted => exact Table.get?_put_of_ne hi
  | committed => exact Table.get?_put_of_ne hi
  | ended => exact Table.get?_put_of_ne hi

/-- A call that has returned is over. -/
theorem execute_returned {run : ProviderRunRecord} (h : t.phase = .returned p run)
    (statement : TriggerStatement) : s.execute safety t statement = s := by
  cases statement with
  | readConnection | findPrevious | insertRun | insertIntent | commit | crash =>
    simp only [execute, h]

theorem returned_step {i : Uuid} {run : ProviderRunRecord} (ht : s.calls.get? i = some t)
    (hphase : t.phase = .returned p run) (e : TriggerRaceEvent) :
    (s.step safety e).calls.get? i = some t := by
  cases e with
  | start => exact Table.get?_add_old ht
  | call id statement =>
    unfold step
    dsimp only
    cases hid : s.calls.get? id with
    | none => exact ht
    | some t' =>
      have hkey : t'.id = id := Table.key_of_get? hid
      by_cases hi : id = i
      · subst hi
        obtain rfl := Option.some.inj (hid.symm.trans ht)
        show (s.execute safety t' statement).calls.get? id = some t'
        rw [execute_returned hphase]
        exact ht
      · show (s.execute safety t' statement).calls.get? i = some t
        rw [get?_execute_other (by rw [hkey]; exact hi)]
        exact ht
  | other e =>
    show (s.others safety e).calls.get? i = some t
    rw [(others_sameRuns safety s e).1]
    exact ht
  | edit => exact ht
  | cancel runId read now =>
    unfold step
    dsimp only
    split
    · exact ht
    · exact ht

theorem returned_run (safety : RuntimeSafetyConfig) {i : Uuid} {run : ProviderRunRecord}
    (ht : s.calls.get? i = some t)
    (hphase : t.phase = .returned p run) (es : List TriggerRaceEvent) :
    (Transition.run (step safety) s es).calls.get? i = some t :=
  Transition.invariant_run (I := fun s : TriggerRace => s.calls.get? i = some t)
    (fun _ e h => returned_step h hphase e) ht es

/-- A statement that changes the tables is the COMMIT of a call that returns. -/
theorem execute_system (safety : RuntimeSafetyConfig) (ht : s.calls.get? t.id = some t)
    (statement : TriggerStatement) :
    (s.execute safety t statement).system = s.system
      ∨ ∃ p run t', (s.execute safety t statement).calls.get? t.id = some t'
        ∧ t'.phase = .returned p run := by
  have hstep := callStep_execute safety s t statement
  generalize s.execute safety t statement = s' at hstep
  cases hstep with
  | committed p hphase =>
    exact .inr ⟨p, _, { t with phase := .returned p (rowsOf t p s.store.graphs.next).run },
      Table.get?_put_self ht rfl, rfl⟩
  | idle => exact .inl rfl
  | prepared => exact .inl rfl
  | found => exact .inl rfl
  | looked => exact .inl rfl
  | runInserted => exact .inl rfl
  | intentInserted => exact .inl rfl
  | ended => exact .inl rfl

theorem sameRuns_step_keys {k : Uuid} {g : RunGraph} (hg : s.store.graphs.get? k = some g)
    (e : TriggerRaceEvent) :
    ∃ g', (s.step safety e).store.graphs.get? k = some g' ∧ g'.runKey = g.runKey := by
  cases e with
  | start => exact ⟨g, hg, rfl⟩
  | edit => exact ⟨g, hg, rfl⟩
  | other e =>
    obtain ⟨g', hg', htrigger⟩ := (others_sameRuns safety s e).2.forward hg
    exact ⟨g', hg', htrigger.runKey⟩
  | cancel runId read now =>
    unfold step
    dsimp only
    cases hrun : s.store.graphs.get? runId with
    | none => exact ⟨g, hg, rfl⟩
    | some g₀ =>
      have hid : (DispatchRace.overwrite g₀ read now).run.id = g₀.run.id := rfl
      have hsame : g₀.SameTrigger (DispatchRace.overwrite g₀ read now) := ⟨rfl, rfl, rfl⟩
      have hput : s.store.SameRuns ⟨s.store.connections,
        s.store.graphs.put (DispatchRace.overwrite g₀ read now), s.store.receipts⟩ :=
        .of_put hrun hid hsame
      obtain ⟨g', hg', htrigger⟩ := hput.forward hg
      exact ⟨g', hg', htrigger.runKey⟩
  | call id statement =>
    unfold step
    dsimp only
    cases ht : s.calls.get? id with
    | none => exact ⟨g, hg, rfl⟩
    | some t =>
      have hstep := callStep_execute safety s t statement
      generalize hs' : s.execute safety t statement = s' at hstep
      show ∃ g', (s.execute safety t statement).store.graphs.get? k = some g' ∧ _
      rw [hs']
      cases hstep with
      | committed p hphase =>
        refine ⟨g, ?_, rfl⟩
        refine (Table.get?_add s.store.graphs (rowsOf t p) (fun _ => rfl) k).trans ?_
        rw [if_neg (Nat.ne_of_gt (Table.lt_next_of_get? hg)), hg]
      | idle => exact ⟨g, hg, rfl⟩
      | prepared => exact ⟨g, hg, rfl⟩
      | found => exact ⟨g, hg, rfl⟩
      | looked => exact ⟨g, hg, rfl⟩
      | runInserted => exact ⟨g, hg, rfl⟩
      | intentInserted => exact ⟨g, hg, rfl⟩
      | ended => exact ⟨g, hg, rfl⟩

/-- A run is never taken away again. -/
theorem run_keys (safety : RuntimeSafetyConfig) {k : Uuid} {g : RunGraph}
    (hg : s.store.graphs.get? k = some g)
    (es : List TriggerRaceEvent) :
    ∃ g', (Transition.run (step safety) s es).store.graphs.get? k = some g'
      ∧ g'.runKey = g.runKey := by
  refine Transition.invariant_run
    (I := fun s : TriggerRace => ∃ g', s.store.graphs.get? k = some g' ∧ g'.runKey = g.runKey)
    (fun s e h => ?_) ⟨g, hg, rfl⟩ es
  obtain ⟨g₁, hg₁, hkey₁⟩ := h
  obtain ⟨g₂, hg₂, hkey₂⟩ := sameRuns_step_keys hg₁ e
  exact ⟨g₂, hg₂, hkey₂.trans hkey₁⟩

/-! ## Idempotency -/

/-- A row of one of the two tables: committed, or inserted by a call that has not
committed it. -/
inductive InsertedRow where
  | committed (id : Uuid)
  | pending (call : Uuid)

/-- The row is a run with the key. -/
def RunRow (s : TriggerRace) (key : Uuid × String) : InsertedRow → Prop
  | .committed id => ∃ g, s.store.graphs.get? id = some g ∧ g.runKey = key
  | .pending call => ∃ t p, s.calls.get? call = some t ∧ t.phase.pendingRun = some p ∧ p.key = key

/-- The row is an intent with the key. -/
def IntentRow (s : TriggerRace) (key : Uuid × String) : InsertedRow → Prop
  | .committed id => ∃ g, s.store.graphs.get? id = some g ∧ g.intentKey = key
  | .pending call =>
    ∃ t p, s.calls.get? call = some t ∧ t.phase.pendingIntent = some p ∧ p.key = key

theorem pendingRun_of_pendingIntent {phase : TriggerPhase} (h : phase.pendingIntent = some p) :
    phase.pendingRun = some p := by
  cases phase with
  | intentInserted p' => exact h
  | begun | prepared | looked | runInserted | returned | raised | aborted =>
    simp [TriggerPhase.pendingIntent] at h

theorem Sound.oneRun (h : s.Sound) {key : Uuid × String} {x y : InsertedRow}
    (hx : s.RunRow key x) (hy : s.RunRow key y) : x = y := by
  cases x with
  | committed k =>
    obtain ⟨g, hg, hkey⟩ := hx
    cases y with
    | committed k' =>
      obtain ⟨g', hg', hkey'⟩ := hy
      rw [h.unique k k' g g' hg hg' (hkey.trans hkey'.symm)]
    | pending j =>
      obtain ⟨t, p, ht, hp, hkey'⟩ := hy
      exact absurd (hkey.trans hkey'.symm) (h.fresh j t p ht hp k g hg)
  | pending i =>
    obtain ⟨t, p, ht, hp, hkey⟩ := hx
    cases y with
    | committed k' =>
      obtain ⟨g', hg', hkey'⟩ := hy
      exact absurd (hkey'.trans hkey.symm) (h.fresh i t p ht hp k' g' hg')
    | pending j =>
      obtain ⟨t', p', ht', hp', hkey'⟩ := hy
      rw [h.pending i j t t' p p' ht ht' hp hp' (hkey.trans hkey'.symm)]

theorem Sound.runRow_of_intentRow (h : s.Sound) {key : Uuid × String} {x : InsertedRow}
    (hx : s.IntentRow key x) : s.RunRow key x := by
  cases x with
  | committed k =>
    obtain ⟨g, hg, hkey⟩ := hx
    exact ⟨g, hg, (h.intentKey k g hg).symm.trans hkey⟩
  | pending i =>
    obtain ⟨t, p, ht, hp, hkey⟩ := hx
    exact ⟨t, p, ht, pendingRun_of_pendingIntent hp, hkey⟩

/-- What the calls with a connection and a correlation id have made of it after `es`. -/
structure Idempotent (safety : RuntimeSafetyConfig) (es : List TriggerRaceEvent)
    (connectionId : Uuid) (correlationId : String) : Prop where
  oneRun : ∀ x y, (Transition.run (step safety) empty es).RunRow (connectionId, correlationId) x →
    (Transition.run (step safety) empty es).RunRow (connectionId, correlationId) y → x = y
  oneIntent : ∀ x y,
    (Transition.run (step safety) empty es).IntentRow (connectionId, correlationId) x →
    (Transition.run (step safety) empty es).IntentRow (connectionId, correlationId) y → x = y
  /-- The run is the same one as at any time before. -/
  stays : ∀ before after k k', es = before ++ after →
    (Transition.run (step safety) empty before).RunRow (connectionId, correlationId)
      (.committed k) →
    (Transition.run (step safety) empty es).RunRow (connectionId, correlationId)
      (.committed k') → k' = k
  /-- A call that returns a run returns this one, which has the fingerprint of its request. -/
  returned : ∀ i t p run, (Transition.run (step safety) empty es).calls.get? i = some t →
    t.connectionId = connectionId → t.correlationId = correlationId →
    t.phase = .returned p run →
    jsonFingerprint (requestJson p.request) = .ok p.fingerprint
      ∧ ∃ g, (Transition.run (step safety) empty es).store.graphs.get? run.id = some g
        ∧ g.runKey = (connectionId, correlationId) ∧ g.run.requestFingerprint = p.fingerprint
  /-- A call that has not returned a run has added no row. -/
  raised : ∀ before i statement after, es = before ++ .call i statement :: after →
    (∀ t, (Transition.run (step safety) empty es).calls.get? i = some t →
      ∀ p run, t.phase ≠ .returned p run) →
    (Transition.run (step safety) empty (before ++ [.call i statement])).system
      = (Transition.run (step safety) empty before).system

theorem triggers_idempotent (safety : RuntimeSafetyConfig) (es : List TriggerRaceEvent)
    (connectionId : Uuid) (correlationId : String) :
    Idempotent safety es connectionId correlationId where
  oneRun x y hx hy := (sound_run safety es).oneRun hx hy
  oneIntent x y hx hy :=
    (sound_run safety es).oneRun ((sound_run safety es).runRow_of_intentRow hx)
      ((sound_run safety es).runRow_of_intentRow hy)
  stays := by
    intro before after k k' hes hk hk'
    obtain ⟨g, hg, hkey⟩ := hk
    obtain ⟨g', hg', hkey'⟩ := run_keys safety hg after
    rw [← Transition.run_append, ← hes] at hg'
    have hsame := (sound_run safety es).oneRun (x := .committed k) (y := .committed k')
      ⟨g', hg', hkey'.trans hkey⟩ hk'
    injection hsame with hsame
    exact hsame.symm
  returned := by
    intro i t p run ht hconnection hcorrelation hphase
    have hp := (sound_run safety es).prepared i t p ht (by rw [hphase]; rfl)
    obtain ⟨g, hg, hkey, hfingerprint⟩ := (sound_run safety es).returned i t p run ht hphase
    refine ⟨hp.fingerprint, g, hg, hkey.trans ?_, hfingerprint⟩
    exact Prod.ext (hp.connectionId.trans hconnection) (hp.correlationId.trans hcorrelation)
  raised := by
    intro before i statement after hes hnot
    rw [Transition.run_append]
    generalize hs : Transition.run (step safety) empty before = s
    show (s.step safety (.call i statement)).system = s.system
    unfold step
    dsimp only
    cases ht : s.calls.get? i with
    | none => rfl
    | some t =>
      have hid : t.id = i := Table.key_of_get? ht
      rcases execute_system safety (hid.symm ▸ ht) statement with
        hsame | ⟨p, run, t', ht', hphase⟩
      · exact hsame
      -- what returns has returned at the end
      · have hstep : (s.step safety (.call i statement)).calls.get? i = some t' := by
          unfold step
          dsimp only
          rw [ht]
          exact hid ▸ ht'
        have hend := returned_run safety hstep hphase after
        refine absurd hphase (hnot t' ?_ p run)
        rw [hes, Transition.run_append, hs]
        exact hend

/-! ## A call on its own -/

/-- `trigger_provider` after its request is built, in one piece. -/
def recordPrepared (s : ProviderStore) (p : PreparedTrigger) (requested : Option String)
    (actor : Option RunGraph.Actor) (now : Instant) : Except DomainError ProviderStore :=
  match s.findTriggered p requested with
  | some previous => do
    refuse (previous.run.requestFingerprint ≠ p.fingerprint)
      (.conflict "correlation_id 已用于不同的触发参数")
    return s
  | none => do
    refuse (s.graphs.rows.any fun g => g.run.connectionId = p.connection.id
      ∧ g.run.correlationId = p.request.correlationId) .integrity
    return { s with
      graphs := s.graphs.add
        (ProviderStore.triggeredGraph p.connection p.request p.fingerprint actor now) }

theorem triggerProvider_eq (s : ProviderStore) (connectionId : Uuid)
    (payload : ProviderTriggerPayload) (actor : Option RunGraph.Actor) (generated : String)
    (now : Instant) :
    s.triggerProvider safety connectionId payload actor generated now
      = s.prepareTrigger safety connectionId payload generated >>= fun p =>
        recordPrepared s p payload.correlationId actor now := by
  unfold ProviderStore.triggerProvider ProviderStore.prepareTrigger ProviderStore.recordTrigger
    recordPrepared ProviderStore.findTriggered
  simp only [bind_assoc]
  refine bind_congr fun c => bind_congr fun _ => bind_congr fun _ => ?_
  cases hfound : payload.correlationId.bind fun correlationId => s.graphs.rows.find? fun g =>
      g.run.connectionId = c.id ∧ g.run.correlationId = correlationId with
  | none =>
    split
    · simp only [bind_assoc, pure_bind, hfound]
    · simp only [bind_assoc, pure_bind, hfound]
  | some previous =>
    split
    · simp only [bind_assoc, pure_bind, hfound]
    · simp only [bind_assoc, pure_bind, hfound]

/-- All the statements of a call, one after the other. -/
def wholeCall : List TriggerStatement :=
  [.readConnection, .findPrevious, .insertRun, .insertIntent, .commit]

/-- The statements in a row, with nothing in between. -/
def executeAll (safety : RuntimeSafetyConfig) (s : TriggerRace) (i : Uuid)
    (statements : List TriggerStatement) : TriggerRace :=
  Transition.run (step safety) s (statements.map (.call i))

theorem executeAll_cons {i : Uuid} (ht : s.calls.get? i = some t) (statement : TriggerStatement)
    (statements : List TriggerStatement) :
    executeAll safety s i (statement :: statements)
      = executeAll safety (s.execute safety t statement) i statements := by
  show Transition.run (step safety) (s.step safety (.call i statement)) _ = _
  have hstep : s.step safety (.call i statement) = s.execute safety t statement := by
    unfold step
    dsimp only
    rw [ht]
  rw [hstep]
  rfl

/-- A call that is over does nothing more. -/
theorem executeAll_over {i : Uuid} (ht : s.calls.get? i = some t)
    (hover : ∀ statement, statement ≠ .crash → s.execute safety t statement = s)
    {statements : List TriggerStatement} (hcrash : .crash ∉ statements) :
    executeAll safety s i statements = s := by
  induction statements with
  | nil => rfl
  | cons statement statements ih =>
    rw [executeAll_cons ht, hover statement fun he => hcrash (by simp [he])]
    exact ih fun hmem => hcrash (List.mem_cons_of_mem _ hmem)

theorem execute_ended {error : DomainError} (h : t.phase = .raised error)
    (statement : TriggerStatement) : s.execute safety t statement = s := by
  cases statement with
  | readConnection | findPrevious | insertRun | insertIntent | commit | crash =>
    simp only [execute, h]

theorem get?_setPhase_self {phase : TriggerPhase} (ht : s.calls.get? t.id = some t) :
    (s.setPhase t phase).calls.get? t.id = some { t with phase } :=
  Table.get?_put_self ht rfl

theorem mem_setPhase {phase : TriggerPhase} {t' : TriggerTx}
    (h : t' ∈ (s.setPhase t phase).calls.rows) :
    t' = { t with phase } ∨ t' ∈ s.calls.rows := by
  obtain ⟨x, hx, hsame⟩ := List.mem_map.mp h
  split at hsame
  · exact .inl hsame.symm
  · exact .inr (hsame ▸ hx)

theorem findPrevious_found {previous : RunGraph}
    (h : s.store.findTriggered p t.payload.correlationId = some previous) :
    s.findPrevious t p
      = if previous.run.requestFingerprint ≠ p.fingerprint then
          s.setPhase t (.raised (.conflict "correlation_id 已用于不同的触发参数"))
        else s.setPhase t (.returned p previous.run) := by
  unfold findPrevious
  rw [h]

theorem findPrevious_new (h : s.store.findTriggered p t.payload.correlationId = none) :
    s.findPrevious t p = s.setPhase t (.looked p) := by
  unfold findPrevious
  rw [h]

/-- The last three statements of a call, when nobody else has inserted anything. -/
theorem executeAll_inserts (h : s.Sound) (ht : s.calls.get? t.id = some t)
    (hphase : t.phase = .looked p) (hquiet : ∀ t' ∈ s.calls.rows, t'.phase.pendingRun = none)
    (hconnection : s.store.connections.get? p.connection.id = some p.connection) :
    (executeAll safety s t.id [.insertRun, .insertIntent, .commit]).system
      = if s.store.graphs.rows.any (·.runKey = p.key) then s.system
        else (s.setStore { s.store with graphs := s.store.graphs.add (rowsOf t p) }).system := by
  rw [executeAll_cons ht]
  simp only [execute, hphase, insertRun, hconnection, Option.isNone_some, Bool.false_eq_true,
    or_false]
  by_cases htaken : s.store.graphs.rows.any (·.runKey = p.key)
  · rw [if_pos htaken, if_pos htaken]
    rw [executeAll_over (get?_setPhase_self ht) (fun statement _ => execute_ended rfl statement)
      (by simp)]
    rfl
  have hnone : ¬ s.calls.rows.any (·.phase.pendingRun.any (·.key = p.key)) := by
    intro hany
    obtain ⟨t', ht', hkey⟩ := List.any_eq_true.mp hany
    simp [hquiet t' ht'] at hkey
  rw [if_neg htaken, if_neg hnone, if_neg htaken]
  have ht₁ : (s.setPhase t (.runInserted p)).calls.get? t.id
      = some { t with phase := .runInserted p } := get?_setPhase_self ht
  rw [executeAll_cons ht₁]
  simp only [execute, insertIntent]
  have hfree : ¬ (s.setPhase t (.runInserted p)).store.graphs.rows.any (·.intentKey = p.key) := by
    intro hany
    obtain ⟨g, hg, hkey⟩ := List.any_eq_true.mp hany
    have hsame := h.intentKey _ g (Table.get?_key hg)
    exact htaken (List.any_eq_true.mpr ⟨g, hg, decide_eq_true
      (hsame.symm.trans (of_decide_eq_true hkey))⟩)
  have hnone₁ : ¬ (s.setPhase t (.runInserted p)).calls.rows.any
      (·.phase.pendingIntent.any (·.key = p.key)) := by
    intro hany
    obtain ⟨t', ht', hkey⟩ := List.any_eq_true.mp hany
    rcases mem_setPhase ht' with rfl | hold
    · simp [TriggerPhase.pendingIntent] at hkey
    · cases hpending : t'.phase.pendingIntent with
      | none => simp [hpending] at hkey
      | some p' =>
        have hrun := pendingRun_of_pendingIntent hpending
        simp [hquiet t' hold] at hrun
  rw [if_neg hfree, if_neg hnone₁]
  have ht₂ : ((s.setPhase t (.runInserted p)).setPhase { t with phase := .runInserted p }
      (.intentInserted p)).calls.get? t.id = some { t with phase := .intentInserted p } :=
    get?_setPhase_self ht₁
  rw [executeAll_cons ht₂]
  rfl

/-- A call that nobody gets in the way of does what `trigger_provider` does in one
piece. -/
theorem executeAll_wholeCall (h : s.Sound) (ht : s.calls.get? t.id = some t)
    (hbegun : t.phase = .begun) (hquiet : ∀ t' ∈ s.calls.rows, t'.phase.pendingRun = none) :
    (executeAll safety s t.id wholeCall).system = ProviderSystem.step safety s.system
      (.triggerProvider t.connectionId t.payload t.actor t.generated t.now) := by
  show _ = s.system.commit (s.store.triggerProvider safety t.connectionId t.payload t.actor
    t.generated t.now)
  rw [triggerProvider_eq]
  unfold wholeCall
  rw [executeAll_cons ht]
  simp only [execute, hbegun, readConnection]
  cases hp : s.store.prepareTrigger safety t.connectionId t.payload t.generated with
  | error error =>
    dsimp only
    rw [executeAll_over (get?_setPhase_self ht) (fun statement _ => execute_ended rfl statement)
      (by simp)]
    rfl
  | ok p =>
    dsimp only
    obtain ⟨hconnection, hrequest, -⟩ := prepareTrigger_ok hp
    show _ = s.system.commit (recordPrepared s.store p t.payload.correlationId t.actor t.now)
    have ht₁ : (s.setPhase t (.prepared p)).calls.get? t.id
        = some { t with phase := .prepared p } := get?_setPhase_self ht
    rw [executeAll_cons ht₁]
    simp only [execute]
    unfold recordPrepared
    cases hfind : s.store.findTriggered p t.payload.correlationId with
    | some previous =>
      rw [findPrevious_found (s := s.setPhase t (.prepared p))
        (t := { t with phase := .prepared p }) hfind]
      dsimp only
      by_cases hother : previous.run.requestFingerprint ≠ p.fingerprint
      · rw [if_pos hother]
        simp only [refuse, if_pos hother]
        rw [executeAll_over (get?_setPhase_self ht₁)
          (fun statement _ => execute_ended rfl statement) (by simp)]
        rfl
      · rw [if_neg hother]
        simp only [refuse, if_neg hother]
        rw [executeAll_over (get?_setPhase_self ht₁)
          (fun statement _ => execute_returned rfl statement) (by simp)]
        rfl
    -- nothing is found, so the rest is the two inserts, which meet no insert of others
    | none =>
      rw [findPrevious_new (s := s.setPhase t (.prepared p))
        (t := { t with phase := .prepared p }) hfind]
      have ht₂ : ((s.setPhase t (.prepared p)).setPhase { t with phase := .prepared p }
          (.looked p)).calls.get? t.id = some { t with phase := .looked p } :=
        get?_setPhase_self ht₁
      have hprepared : (s.setPhase t (.prepared p)).Sound :=
        h.callStep ht (.prepared p hbegun hp)
      have hlooked : CallStep safety (s.setPhase t (.prepared p)) { t with phase := .prepared p }
          ((s.setPhase t (.prepared p)).setPhase { t with phase := .prepared p } (.looked p)) :=
        .looked p rfl
      have hsound := hprepared.callStep ht₁ hlooked
      have hquiet₂ : ∀ t' ∈ ((s.setPhase t (.prepared p)).setPhase { t with phase := .prepared p }
          (.looked p)).calls.rows, t'.phase.pendingRun = none := by
        intro t' ht'
        rcases mem_setPhase ht' with rfl | hold
        · rfl
        rcases mem_setPhase hold with rfl | hold
        · rfl
        exact hquiet t' hold
      have hid : p.connection.id = t.connectionId := Table.key_of_get? hconnection
      rw [executeAll_inserts (t := { t with phase := .looked p }) hsound ht₂ rfl hquiet₂
        (hid ▸ hconnection)]
      have hkey : s.store.graphs.rows.any (·.runKey = p.key)
          = s.store.graphs.rows.any fun g => g.run.connectionId = p.connection.id
            ∧ g.run.correlationId = p.request.correlationId := by
        simp only [RunGraph.runKey, PreparedTrigger.key, Prod.mk.injEq]
      dsimp only
      rw [← hkey]
      -- both sides look the key up among the committed rows
      show (if s.store.graphs.rows.any (·.runKey = p.key) then _ else _) = _
      by_cases htaken : s.store.graphs.rows.any (·.runKey = p.key)
      · rw [if_pos htaken]
        simp only [refuse, if_pos htaken]
        rfl
      · rw [if_neg htaken]
        simp only [refuse, if_neg htaken]
        rfl

end TriggerRace

end QaPlatform.Runtime
