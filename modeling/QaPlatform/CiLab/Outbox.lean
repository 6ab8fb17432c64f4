import Mathlib.Data.List.Nodup
import QaPlatform.Base.Transition
import QaPlatform.CiLab.Steps

/-!
# The order of CI Lab's deliveries

A run's deliveries are numbered from 1 as they are added, and one is claimed only when
all before it are delivered. A delivered row is not rewritten, so what a claim has seen
of the rows before it stays true: the delivered ones are always the first ones.

`Ordered` is the invariant: the deliveries of a run have the numbers from 1 on, and none is
claimed before those under it are delivered. Rewriting a row keeps what the row says and follows
`RowMove`; a round adds a delivery with the next number. The rest is read off: one claim of a
run at a time, settlements by the holder only, delivered rows for good, and a row whose last
attempt has run out is a dead letter with the next claim (`RanOut`).
-/

namespace QaPlatform.CiLab.CiLabStore

open QaPlatform.Transition

variable {setup : Setup} {registry : DefinitionRegistry} {s s' s₁ : CiLabStore} {now t : Instant}
  {run : RunRecord} {gate : Option QualityGateRecord} {call : Call}

/-! ## Rewritten rows -/

section
variable {r r' : WebhookDeliveryRecord}

/-- What a delivery says does not change. -/
theorem RowMove.keeps (h : RowMove s now r call r') :
    r'.id = r.id ∧ r'.runId = r.runId ∧ r'.sequence = r.sequence ∧ r'.occurredAt = r.occurredAt
      ∧ r'.normalizedStatus = r.normalizedStatus ∧ r'.message = r.message := by
  cases h
  all_goals exact ⟨rfl, rfl, rfl, rfl, rfl, rfl⟩

theorem RowMove.not_delivered (h : RowMove s now r call r') : r.status ≠ .delivered := by
  intro hdelivered
  cases h with
  | claimed h | corrupted h =>
    rcases h.1 with ⟨hs | hs, -⟩ | ⟨hs, -⟩
    all_goals simp [hs] at hdelivered
  | completed _ h | failed _ h _ => simp [h.1] at hdelivered
  | expired h => simp [h.1] at hdelivered
  | retried h => simp [h] at hdelivered

/-- A row is claimed or delivered after the ones before it, or was claimed already. -/
theorem RowMove.preceded (h : RowMove s now r call r')
    (hr : r'.status = .claimed ∨ r'.status = .delivered) :
    r.status = .claimed ∨ ∀ lower ∈ s.deliveries.rows, lower.runId = r.runId →
      lower.sequence < r.sequence → lower.status = .delivered := by
  cases h with
  | claimed h => exact .inr h.2.2
  | corrupted h | expired h | retried h => exact absurd hr (by rintro (hs | hs) <;> cases hs)
  | completed _ h => exact .inl h.1
  | failed _ h _ => exact .inl h.1

theorem RowMove.attempts (h : RowMove s now r call r') (hr : r.attempts ≤ r.maxAttempts) :
    r'.attempts ≤ r'.maxAttempts := by
  cases h with
  | claimed h => exact h.2.1
  | retried h => exact Nat.zero_le _
  | corrupted _ | completed _ _ | failed _ _ _ | expired _ => exact hr

/-- A row that is to be tried has an attempt left. -/
theorem RowMove.spare (h : RowMove s now r call r')
    (hr : r'.status = .pending ∨ r'.status = .retryWait) : r'.attempts < r'.maxAttempts := by
  cases h with
  | claimed h | corrupted h | expired h | completed _ h =>
    exact absurd hr (by rintro (hs | hs) <;> cases hs)
  | @failed _ _ _ shouldRetry _ _ hretry =>
    cases shouldRetry with
    | true => exact hretry rfl
    | false => exact absurd hr (by rintro (hs | hs) <;> cases hs)
  | retried h => exact (by decide : 0 < webhookDefaultMaxAttempts)

/-- A dead letter stays one until somebody asks for a retry. -/
theorem RowMove.not_dead (h : RowMove s now r call r') (hcall : call ≠ .retryWebhookDelivery r.id) :
    r.status ≠ .deadLetter := by
  intro hdead
  cases h with
  | claimed h | corrupted h =>
    rcases h.1 with ⟨hs | hs, -⟩ | ⟨hs, -⟩
    all_goals simp [hs] at hdead
  | completed _ h | failed _ h _ => simp [h.1] at hdead
  | expired h => simp [h.1] at hdead
  | retried h => exact hcall rfl

/-- A row whose last attempt ran out can only become a dead letter. -/
theorem RowMove.exhausted (h : RowMove s now r call r') (hr : r.Exhausted t) (ht : t ≤ now) :
    r'.status = .deadLetter := by
  obtain ⟨hclaimed, hover, hattempts⟩ := hr
  cases h with
  | claimed h | corrupted h => exact absurd h.2.1 (by omega)
  | completed _ h | failed _ h _ =>
    obtain ⟨-, -, -, hlease, -⟩ := h
    cases he : r.leaseExpiresAt with
    | none => simp [he] at hlease
    | some expiresAt =>
      have hle : expiresAt ≤ t := by simpa [he] using hover
      have hlt : now < expiresAt := by simpa [he] using hlease
      have hlate : expiresAt ≤ now := Int.le_trans hle ht
      exact absurd hlt (Int.not_lt.mpr hlate)
  | expired h => rfl
  | retried h => simp [hclaimed] at h

end

/-! ## Rewritten outboxes -/

theorem map_filter_map {α β : Type} {l : List α} {f : α → α} {p : α → Bool} {g : α → β}
    (h : ∀ x ∈ l, p (f x) = p x ∧ g (f x) = g x) :
    ((l.map f).filter p).map g = (l.filter p).map g := by
  induction l with
  | nil => rfl
  | cons x l ih =>
    obtain ⟨hp, hg⟩ := h x List.mem_cons_self
    have hrest := ih fun y hy => h y (List.mem_cons_of_mem x hy)
    by_cases hx : p x = true
    · simp [hp, hx, hg, hrest]
    · simp [hp, hx, hrest]

/-- What each run's deliveries say, in order, does not change. -/
theorem Rewrites.map_deliveriesOf {β : Type} {g : WebhookDeliveryRecord → β}
    (h : Rewrites now call s s')
    (hg : ∀ {r r'}, RowMove s now r call r' → g r' = g r) (k : Uuid) :
    (s'.deliveriesOf k).map g = (s.deliveriesOf k).map g := by
  obtain ⟨f, hrows, hf⟩ := h.rows
  unfold deliveriesOf
  rw [hrows]
  refine map_filter_map fun r hr => ?_
  rcases hf r hr with hsame | hmove
  · rw [hsame]
    exact ⟨rfl, rfl⟩
  · rw [hmove.keeps.2.1]
    exact ⟨rfl, hg hmove⟩

/-- A row after a rewriting comes from one before. -/
theorem Rewrites.row (h : Rewrites now call s s') {r' : WebhookDeliveryRecord}
    (hr' : r' ∈ s'.deliveries.rows) :
    ∃ r ∈ s.deliveries.rows, r' = r ∨ RowMove s now r call r' := by
  obtain ⟨f, hrows, hf⟩ := h.rows
  rw [hrows] at hr'
  obtain ⟨r, hr, rfl⟩ := List.mem_map.mp hr'
  exact ⟨r, hr, hf r hr⟩

/-- What becomes of a row. -/
theorem Rewrites.becomes (h : Rewrites now call s s') {k : Uuid} {r : WebhookDeliveryRecord}
    (hr : s.deliveries.get? k = some r) :
    ∃ r', s'.deliveries.get? k = some r' ∧ (r' = r ∨ RowMove s now r call r') := by
  obtain ⟨f, hrows, hf⟩ := h.rows
  have hmem := Table.mem_of_get? hr
  have hkey : r.id = k := Table.key_of_get? hr
  refine ⟨f r, Table.get?_eq_some.mpr ⟨?_, ?_⟩, hf r hmem⟩
  · rw [hrows]
    exact List.mem_map_of_mem hmem
  · rcases hf r hmem with hsame | hmove
    · rw [hsame]
      exact hkey
    · exact hmove.keeps.1.trans hkey

/-! ## Emitted deliveries -/

theorem mem_deliveriesOf {k : Uuid} {r : WebhookDeliveryRecord} :
    r ∈ s.deliveriesOf k ↔ r ∈ s.deliveries.rows ∧ r.runId = k := by
  unfold deliveriesOf
  simp

theorem deliveriesOf_withDelivery (subscription : SubscriptionRecord) (k : Uuid) :
    (s.withDelivery setup subscription run gate now).deliveriesOf k
      = s.deliveriesOf k ++ if run.id = k then
          [newDelivery setup subscription run (publicRunStatus run gate)
            ((s.latestDelivery run.id).elim 1 (·.sequence + 1))
            (occurredAt run gate (s.latestDelivery run.id) now) now s.deliveries.next] else [] := by
  show (s.deliveries.rows ++ [_]).filter _ = _
  rw [List.filter_append]
  by_cases hk : run.id = k
  · simp [deliveriesOf, newDelivery, hk]
  · simp [deliveriesOf, newDelivery, hk]

theorem mem_withDelivery {subscription : SubscriptionRecord} {r : WebhookDeliveryRecord}
    (h : r ∈ (s.withDelivery setup subscription run gate now).deliveries.rows) :
    r ∈ s.deliveries.rows ∨ r = newDelivery setup subscription run (publicRunStatus run gate)
      ((s.latestDelivery run.id).elim 1 (·.sequence + 1))
      (occurredAt run gate (s.latestDelivery run.id) now) now s.deliveries.next :=
  (List.mem_append.mp h).imp id List.mem_singleton.mp

/-- Nothing but the subscriptions and the deliveries says what is emitted. -/
theorem Written.deliveries {emittedAt : Instant}
    (h : Written setup registry s now call s₁ run gate emittedAt) :
    s₁.deliveries = s.deliveries := by
  cases h
  all_goals rfl

/-- A round adds a delivery, or leaves them all alone. -/
theorem Round.deliveries (h : Round setup registry now call s s') :
    s'.deliveries = s.deliveries
      ∨ ∃ (s₁ : CiLabStore) (subscription : SubscriptionRecord) (run : RunRecord)
          (gate : Option QualityGateRecord) (emittedAt : Instant), s₁.deliveries = s.deliveries
          ∧ s'.deliveries = (s₁.withDelivery setup subscription run gate emittedAt).deliveries := by
  obtain ⟨s₁, run, gate, emittedAt, emitted, hwritten, hemitted⟩ := h
  rcases enqueue_ok hemitted with ⟨rfl, -⟩ | ⟨subscription, -, -, rfl⟩
  · exact .inl hwritten.deliveries
  · exact .inr ⟨s₁, subscription, run, gate, emittedAt, hwritten.deliveries, rfl⟩

/-- A round leaves the rows that there are alone. -/
theorem Round.keeps (h : Round setup registry now call s s') {k : Uuid} {r : WebhookDeliveryRecord}
    (hr : s.deliveries.get? k = some r) : s'.deliveries.get? k = some r := by
  rcases h.deliveries with hsame | ⟨s₁, subscription, run, gate, emittedAt, hold, hnew⟩
  · rw [hsame]
    exact hr
  · rw [hnew]
    obtain ⟨hmem, hkey⟩ := Table.get?_eq_some.mp hr
    rw [← hold] at hmem
    exact Table.get?_eq_some.mpr ⟨List.mem_append_left _ hmem, hkey⟩

/-! ## The order -/

/-- The numbers of a run's deliveries are 1 to n, in the order in which they were added. -/
def Numbered (s : CiLabStore) : Prop :=
  ∀ k, (s.deliveriesOf k).map (·.sequence) = List.range' 1 (s.deliveriesOf k).length

/-- The deliveries of a run are numbered, and none is claimed before those under it are delivered.
-/
structure Ordered (s : CiLabStore) : Prop where
  numbered : s.Numbered
  preceded : ∀ r ∈ s.deliveries.rows, r.status = .claimed ∨ r.status = .delivered →
    ∀ lower ∈ s.deliveries.rows, lower.runId = r.runId → lower.sequence < r.sequence →
      lower.status = .delivered
  attempts : ∀ r ∈ s.deliveries.rows, r.attempts ≤ r.maxAttempts
  spare : ∀ r ∈ s.deliveries.rows, r.status = .pending ∨ r.status = .retryWait →
    r.attempts < r.maxAttempts

/-- The numbers of a run's deliveries tell where they are. -/
theorem Numbered.sequence (h : s.Numbered) {k : Uuid} {i : Nat} {r : WebhookDeliveryRecord}
    (hr : (s.deliveriesOf k)[i]? = some r) : r.sequence = i + 1 := by
  obtain ⟨hi, hget⟩ := List.getElem?_eq_some_iff.mp hr
  have hnumber : ((s.deliveriesOf k).map (·.sequence))[i]? = some r.sequence := by
    rw [List.getElem?_map, hr]
    rfl
  rw [h k, List.getElem?_range' hi] at hnumber
  have := Option.some.inj hnumber
  omega

theorem Numbered.exists_index (h : s.Numbered) {k : Uuid} {r : WebhookDeliveryRecord}
    (hr : r ∈ s.deliveriesOf k) :
    (s.deliveriesOf k)[r.sequence - 1]? = some r ∧ 1 ≤ r.sequence
      ∧ r.sequence ≤ (s.deliveriesOf k).length := by
  obtain ⟨i, hi⟩ := List.mem_iff_getElem?.mp hr
  have hsequence := h.sequence hi
  obtain ⟨hlt, -⟩ := List.getElem?_eq_some_iff.mp hi
  refine ⟨?_, by omega, by omega⟩
  rw [hsequence]
  exact hi

/-- The latest delivery is the last one. -/
theorem Numbered.latestDelivery (h : s.Numbered) (k : Uuid) :
    s.latestDelivery k = (s.deliveriesOf k).getLast? := by
  cases hlast : s.latestDelivery k with
  | none =>
    have hnil : s.deliveriesOf k = [] := firstBy_eq_none.mp hlast
    rw [hnil]
    rfl
  | some r =>
    obtain ⟨hget, hpos, hle⟩ := h.exists_index (mem_of_firstBy hlast)
    have hne : s.deliveriesOf k ≠ [] := List.ne_nil_of_mem (mem_of_firstBy hlast)
    have hbest := firstBy_le hlast (List.getLast_mem hne)
    have hnumber : ((s.deliveriesOf k).getLast hne).sequence = (s.deliveriesOf k).length - 1 + 1 :=
      h.sequence (by rw [← List.getLast?_eq_getElem?, List.getLast?_eq_some_getLast hne])
    have hend : r.sequence - 1 = (s.deliveriesOf k).length - 1 := by
      simp only [columnsLe, hnumber, decide_eq_true_eq, and_true] at hbest
      omega
    rw [List.getLast?_eq_getElem?, ← hend, hget]

/-- The next number is one more than there are. -/
theorem Numbered.next (h : s.Numbered) (k : Uuid) :
    (s.latestDelivery k).elim 1 (·.sequence + 1) = (s.deliveriesOf k).length + 1 := by
  rw [h.latestDelivery k]
  cases hlast : (s.deliveriesOf k).getLast? with
  | none =>
    rw [List.getLast?_eq_none_iff.mp hlast]
    rfl
  | some r =>
    have hr := List.mem_of_getLast? hlast
    rw [List.getLast?_eq_getElem?] at hlast
    have hnumber := h.sequence hlast
    have hpos := List.length_pos_of_mem hr
    show r.sequence + 1 = _
    omega

theorem Numbered.withDelivery (h : s.Numbered) (subscription : SubscriptionRecord) :
    (s.withDelivery setup subscription run gate now).Numbered := by
  intro k
  rw [deliveriesOf_withDelivery]
  by_cases hk : run.id = k
  · subst hk
    rw [if_pos rfl, List.map_append, List.length_append, h run.id, List.length_singleton,
      List.range'_concat]
    congr 1
    show [(s.latestDelivery run.id).elim 1 (·.sequence + 1)] = _
    rw [h.next]
    congr 1
    omega
  · rw [if_neg hk, List.append_nil]
    exact h k

theorem empty_ordered : empty.Ordered where
  numbered _ := rfl
  preceded r hr := by cases hr
  attempts r hr := by cases hr
  spare r hr := by cases hr

theorem Ordered.withDelivery (h : s.Ordered) (subscription : SubscriptionRecord) :
    (s.withDelivery setup subscription run gate now).Ordered where
  numbered := h.numbered.withDelivery subscription
  preceded r hr hstatus lower hlower hrun hlt := by
    rcases mem_withDelivery hr with hold | rfl
    · rcases mem_withDelivery hlower with hlower | rfl
      · exact h.preceded r hold hstatus lower hlower hrun hlt
      · -- the new number is above the numbers of the run
        have hrun' : run.id = r.runId := hrun
        obtain ⟨-, -, hle⟩ := h.numbered.exists_index (mem_deliveriesOf.mpr ⟨hold, hrun'.symm⟩)
        have hnew : (s.latestDelivery run.id).elim 1 (·.sequence + 1) < r.sequence := hlt
        rw [h.numbered.next] at hnew
        omega
    · rcases hstatus with hstatus | hstatus
      all_goals cases hstatus
  attempts r hr := by
    rcases mem_withDelivery hr with hold | rfl
    · exact h.attempts r hold
    · exact Nat.zero_le _
  spare r hr hopen := by
    rcases mem_withDelivery hr with hold | rfl
    · exact h.spare r hold hopen
    · exact (by decide : 0 < webhookDefaultMaxAttempts)

/-- The order is about the deliveries only. -/
theorem Ordered.of_deliveries (h : s.Ordered) (hs : s'.deliveries = s.deliveries) : s'.Ordered where
  numbered k := by
    have hk : s'.deliveriesOf k = s.deliveriesOf k := by
      unfold deliveriesOf
      rw [hs]
    rw [hk]
    exact h.numbered k
  preceded := hs ▸ h.preceded
  attempts := hs ▸ h.attempts
  spare := hs ▸ h.spare

theorem Ordered.rewrites (h : s.Ordered) (hs : Rewrites now call s s') : s'.Ordered where
  numbered k := by
    have hlength := congrArg List.length
      (hs.map_deliveriesOf (g := fun r => r.sequence) (fun hmove => hmove.keeps.2.2.1) k)
    simp only [List.length_map] at hlength
    rw [hlength, hs.map_deliveriesOf (fun hmove => hmove.keeps.2.2.1) k]
    exact h.numbered k
  preceded r' hr' hstatus lower' hlower' hrun hlt := by
    obtain ⟨r, hr, hfrom⟩ := hs.row hr'
    obtain ⟨lower, hlower, hlowerFrom⟩ := hs.row hlower'
    have hsame : r'.runId = r.runId ∧ r'.sequence = r.sequence := by
      rcases hfrom with rfl | hmove
      · exact ⟨rfl, rfl⟩
      · exact ⟨hmove.keeps.2.1, hmove.keeps.2.2.1⟩
    have hlowerSame : lower'.runId = lower.runId ∧ lower'.sequence = lower.sequence := by
      rcases hlowerFrom with rfl | hmove
      · exact ⟨rfl, rfl⟩
      · exact ⟨hmove.keeps.2.1, hmove.keeps.2.2.1⟩
    rw [hsame.1, hlowerSame.1] at hrun
    rw [hsame.2, hlowerSame.2] at hlt
    have hdelivered : lower.status = .delivered := by
      rcases hfrom with rfl | hmove
      · exact h.preceded r' hr hstatus lower hlower hrun hlt
      · rcases hmove.preceded hstatus with hclaimed | hlowers
        · exact h.preceded r hr (.inl hclaimed) lower hlower hrun hlt
        · exact hlowers lower hlower hrun hlt
    -- a delivered row is not rewritten
    rcases hlowerFrom with rfl | hmove
    · exact hdelivered
    · exact absurd hdelivered hmove.not_delivered
  attempts r' hr' := by
    obtain ⟨r, hr, rfl | hmove⟩ := hs.row hr'
    · exact h.attempts _ hr
    · exact hmove.attempts (h.attempts r hr)
  spare r' hr' hopen := by
    obtain ⟨r, hr, rfl | hmove⟩ := hs.row hr'
    · exact h.spare _ hr hopen
    · exact hmove.spare hopen

theorem Ordered.part (h : s.Ordered) (hs : Step setup registry now call s s') : s'.Ordered := by
  cases hs with
  | round hround =>
    rcases hround.deliveries with hsame | ⟨s₁, subscription, run, gate, emittedAt, hold, hnew⟩
    · exact h.of_deliveries hsame
    · exact ((h.of_deliveries hold).withDelivery subscription).of_deliveries hnew
  | rewrites hrewrites => exact h.rewrites hrewrites

/-! ## What the order gives -/

/-- What holds of an element holds of those before it: it holds of the first ones. -/
theorem exists_prefix {α : Type} {l : List α} {p : α → Prop}
    (h : ∀ {i j : Nat} {x y : α}, l[i]? = some x → l[j]? = some y → i < j → p y → p x) :
    ∃ n ≤ l.length, ∀ (i : Nat) (x : α), l[i]? = some x → (p x ↔ i < n) := by
  induction l with
  | nil => exact ⟨0, Nat.le_refl 0, fun i x hx => by simp at hx⟩
  | cons a l ih =>
    by_cases ha : p a
    · obtain ⟨n, hle, hn⟩ := ih fun {i j x y} hx hy hij hp =>
        h (i := i + 1) (j := j + 1) (by simpa using hx) (by simpa using hy) (by omega) hp
      refine ⟨n + 1, Nat.succ_le_succ hle, fun i x hx => ?_⟩
      cases i with
      | zero =>
        obtain rfl : a = x := by simpa using hx
        exact ⟨fun _ => Nat.succ_pos n, fun _ => ha⟩
      | succ i => exact (hn i x (by simpa using hx)).trans (by omega)
    · refine ⟨0, Nat.zero_le _, fun i x hx => ⟨fun hp => ?_, fun hlt => by omega⟩⟩
      cases i with
      | zero =>
        obtain rfl : a = x := by simpa using hx
        exact absurd hp ha
      | succ i => exact absurd (h (i := 0) (j := i + 1) rfl hx (Nat.succ_pos i) hp) ha

/-- The delivered ones of a run are the first ones. -/
theorem Ordered.delivered_prefix (h : s.Ordered) (k : Uuid) :
    ∃ n ≤ (s.deliveriesOf k).length,
      ∀ r ∈ s.deliveriesOf k, r.status = .delivered ↔ r.sequence ≤ n := by
  obtain ⟨n, hle, hn⟩ := exists_prefix (l := s.deliveriesOf k) (p := (·.status = .delivered))
    fun {i j x y} hx hy hij hp => by
      obtain ⟨hxmem, hxrun⟩ := mem_deliveriesOf.mp (List.mem_of_getElem? hx)
      obtain ⟨hymem, hyrun⟩ := mem_deliveriesOf.mp (List.mem_of_getElem? hy)
      have hxnumber := h.numbered.sequence hx
      have hynumber := h.numbered.sequence hy
      exact h.preceded y hymem (.inr hp) x hxmem (hxrun.trans hyrun.symm) (by omega)
  refine ⟨n, hle, fun r hr => ?_⟩
  obtain ⟨hget, hpos, -⟩ := h.numbered.exists_index hr
  rw [hn _ r hget]
  omega

/-- A run has at most one delivery under claim. -/
theorem Ordered.claimed_unique (h : s.Ordered) {r r' : WebhookDeliveryRecord}
    (hr : r ∈ s.deliveries.rows) (hr' : r' ∈ s.deliveries.rows) (hrun : r.runId = r'.runId)
    (hclaimed : r.status = .claimed) (hclaimed' : r'.status = .claimed) : r = r' := by
  obtain ⟨hget, hpos, -⟩ := h.numbered.exists_index (mem_deliveriesOf.mpr ⟨hr, hrun⟩)
  obtain ⟨hget', hpos', -⟩ := h.numbered.exists_index (mem_deliveriesOf.mpr ⟨hr', rfl⟩)
  rcases Nat.lt_trichotomy r.sequence r'.sequence with hlt | heq | hgt
  · have hdelivered := h.preceded r' hr' (.inl hclaimed') r hr hrun hlt
    simp [hclaimed] at hdelivered
  · rw [heq] at hget
    exact Option.some.inj (hget.symm.trans hget')
  · have hdelivered := h.preceded r hr (.inl hclaimed) r' hr' hrun.symm hgt
    simp [hclaimed'] at hdelivered

/-- A delivered row stays as it is. -/
theorem step_delivered (e : Event) {k : Uuid} {r : WebhookDeliveryRecord}
    (hr : s.deliveries.get? k = some r) (hdelivered : r.status = .delivered) :
    (s.step setup e).deliveries.get? k = some r := by
  refine step_invariant (I := fun s => s.deliveries.get? k = some r) (fun {a b} ha hs => ?_) hr
  cases hs with
  | round hround => exact hround.keeps ha
  | rewrites hrewrites =>
    obtain ⟨r', hr', rfl | hmove⟩ := hrewrites.becomes ha
    · exact hr'
    · exact absurd hdelivered hmove.not_delivered

/-! ## Settlements -/

/-- The call settles a claim. -/
def Settles (call : Call) (claimed : ClaimedWebhookDelivery) : Prop :=
  call = .completeWebhookDelivery claimed
    ∨ ∃ errorCode retryable, call = .failWebhookDelivery claimed errorCode retryable

/-- The delivery is held by the claim. -/
def Held (s : CiLabStore) (claimed : ClaimedWebhookDelivery) (now : Instant) : Prop :=
  ∃ r, s.deliveries.get? claimed.id = some r ∧ r.HeldBy claimed now

/-- A settlement succeeds only by the holder. -/
theorem Settles.held {claimed : ClaimedWebhookDelivery} (hcall : Settles call claimed)
    (h : s.call setup registry now call = .ok s') : s.Held claimed now := by
  rcases hcall with rfl | ⟨errorCode, retryable, rfl⟩
  · obtain ⟨x, hx, -⟩ := map_eq_ok.mp h
    obtain ⟨r, hr, -⟩ := bind_eq_ok.mp hx
    exact ⟨r, requireWebhookDeliveryLease_eq_ok.mp hr⟩
  · obtain ⟨x, hx, -⟩ := map_eq_ok.mp h
    obtain ⟨-, hx⟩ := refuse_bind_eq_ok.mp hx
    obtain ⟨r, hr, -⟩ := bind_eq_ok.mp hx
    exact ⟨r, requireWebhookDeliveryLease_eq_ok.mp hr⟩

/-! ## Claims that ran out -/

/-- The delivery is a dead letter. -/
def Dead (s : CiLabStore) (k : Uuid) : Prop :=
  ∃ r, s.deliveries.get? k = some r ∧ r.status = .deadLetter

theorem Dead.not_claimable {k : Uuid} (h : s.Dead k) (now : Instant) :
    ∀ r, s.deliveries.get? k = some r → ¬ s.ClaimableDelivery now r := by
  obtain ⟨d, hd, hdead⟩ := h
  intro r hr hclaimable
  obtain rfl := Option.some.inj (hd.symm.trans hr)
  rcases hclaimable.1 with ⟨hs | hs, -⟩ | ⟨hs, -⟩
  all_goals simp [hs] at hdead

theorem Dead.part {k : Uuid} (h : s.Dead k) (hcall : call ≠ .retryWebhookDelivery k)
    (hs : Step setup registry now call s s') : s'.Dead k := by
  obtain ⟨r, hr, hdead⟩ := h
  have hid : r.id = k := Table.key_of_get? hr
  cases hs with
  | round hround => exact ⟨r, hround.keeps hr, hdead⟩
  | rewrites hrewrites =>
    obtain ⟨r', hr', rfl | hmove⟩ := hrewrites.becomes hr
    · exact ⟨r', hr', hdead⟩
    · exact absurd hdead (hmove.not_dead (hid.symm ▸ hcall))

theorem Dead.parts {k : Uuid} (h : s.Dead k) (hcall : call ≠ .retryWebhookDelivery k)
    (hs : Relation.ReflTransGen (Step setup registry now call) s s') : s'.Dead k := by
  induction hs with
  | refl => exact h
  | tail _ hlast ih => exact ih.part hcall hlast

theorem Dead.step {k : Uuid} (h : s.Dead k) {e : Event} (hcall : e.call ≠ .retryWebhookDelivery k) :
    (s.step setup e).Dead k :=
  step_invariant (I := fun s => s.Dead k) (fun hdead hs => hdead.part hcall hs) h

/-- The row is as it was when its last attempt ran out, or it is a dead letter. -/
def RanOut (s : CiLabStore) (r : WebhookDeliveryRecord) : Prop :=
  s.deliveries.get? r.id = some r ∨ s.Dead r.id

theorem RanOut.step {r : WebhookDeliveryRecord} (h : s.RanOut r) (hr : r.Exhausted t) {e : Event}
    (ht : t ≤ e.now) (hcall : e.call ≠ .retryWebhookDelivery r.id) :
    (s.step setup e).RanOut r := by
  refine step_invariant (I := fun s => s.RanOut r) (fun {a b} ha hs => ?_) h
  rcases ha with hrow | hdead
  · cases hs with
    | round hround => exact .inl (hround.keeps hrow)
    | rewrites hrewrites =>
      obtain ⟨r', hr', rfl | hmove⟩ := hrewrites.becomes hrow
      · exact .inl hr'
      · exact .inr ⟨r', hr', hmove.exhausted hr ht⟩
  · exact .inr (hdead.part hcall hs)

/-- The call is a claim that is let in. -/
def Claims (call : Call) : Prop :=
  ∃ workerId leaseSeconds leaseToken, ClaimAccepted workerId leaseSeconds
    ∧ call = .claimWebhookDelivery workerId leaseSeconds leaseToken

theorem expireExhausted_dead {k : Uuid} {r : WebhookDeliveryRecord}
    (hr : s.deliveries.get? k = some r) (hover : r.Exhausted now) :
    (s.expireExhausted now).Dead k := by
  obtain ⟨hmem, hkey⟩ := Table.get?_eq_some.mp hr
  have hnew : r.deadLettered "lease_expired" now ∈ (s.expireExhausted now).deliveries.rows :=
    List.mem_map.mpr ⟨r, hmem, if_pos hover⟩
  exact ⟨_, Table.get?_eq_some.mpr ⟨hnew, hkey⟩, rfl⟩

/-- What has run out stays so. -/
theorem exhausted_later {r : WebhookDeliveryRecord} (h : r.Exhausted t) (ht : t ≤ now) :
    r.Exhausted now := by
  obtain ⟨hclaimed, hover, hattempts⟩ := h
  refine ⟨hclaimed, ?_, hattempts⟩
  cases he : r.leaseExpiresAt with
  | none => simp [he] at hover
  | some expiresAt =>
    have hle : expiresAt ≤ t := by simpa [he] using hover
    have hlate : expiresAt ≤ now := Int.le_trans hle ht
    simpa using hlate

/-- The next claim makes it a dead letter. -/
theorem RanOut.claims {r : WebhookDeliveryRecord} (h : s.RanOut r) (hr : r.Exhausted t) {e : Event}
    (ht : t ≤ e.now) (hcall : Claims e.call) : (s.step setup e).Dead r.id := by
  obtain ⟨workerId, leaseSeconds, leaseToken, haccepted, hclaim⟩ := hcall
  rcases h with hrow | hdead
  · have hok : s.call setup e.registry e.now e.call = .ok ((s.expireExhausted e.now).claimCandidate
        (strip workerId) leaseToken leaseSeconds e.now).1 := by
      rw [hclaim]
      exact map_eq_ok.mpr ⟨_, claimWebhookDelivery_eq_ok.mpr ⟨haccepted, rfl⟩, rfl⟩
    have hsteps : Relation.ReflTransGen (Step setup e.registry e.now
          (.claimWebhookDelivery workerId leaseSeconds leaseToken)) (s.expireExhausted e.now)
        (s.step setup e) := by
      rw [step_ok hok]
      exact claimCandidate_steps workerId leaseToken leaseSeconds
    exact (expireExhausted_dead hrow (exhausted_later hr ht)).parts (by simp) hsteps
  · exact hdead.step (by simp [hclaim])

theorem run_ordered (setup : Setup) (es : List Event) :
    (Transition.run (step setup) empty es).Ordered :=
  invariant_run (fun _ _ h => step_invariant (fun h hs => h.part hs) h) empty_ordered es

/-! ## Runs -/

/-- A row that ran out, over a run. -/
theorem run_ranOut {r : WebhookDeliveryRecord} (h : s.RanOut r) (hr : r.Exhausted t)
    {es : List Event} (ht : ∀ e ∈ es, t ≤ e.now)
    (hcall : ∀ e ∈ es, e.call ≠ .retryWebhookDelivery r.id) :
    (Transition.run (step setup) s es).RanOut r
      ∧ (s.Dead r.id ∨ (∃ e ∈ es, Claims e.call) →
        (Transition.run (step setup) s es).Dead r.id) := by
  induction es generalizing s with
  | nil =>
    refine ⟨h, fun hdead => ?_⟩
    rcases hdead with hdead | ⟨e, he, -⟩
    · exact hdead
    · cases he
  | cons e es ih =>
    have hnow := ht e List.mem_cons_self
    have hne := hcall e List.mem_cons_self
    have hstep : (s.step setup e).RanOut r := h.step hr hnow hne
    obtain ⟨hrest, hdead⟩ := ih hstep (fun e he => ht e (List.mem_cons_of_mem _ he))
      (fun e he => hcall e (List.mem_cons_of_mem _ he))
    refine ⟨hrest, fun hcause => hdead ?_⟩
    rcases hcause with hold | ⟨e', he', hclaims⟩
    · exact .inl (hold.step hne)
    · rcases List.mem_cons.mp he' with rfl | he'
      · exact .inl (h.claims hr hnow hclaims)
      · exact .inr ⟨e', he', hclaims⟩

/-- CI Lab's outbox over any run: numbers without a gap, delivered in order, one claim of a
run at a time, delivered rows for good, settlements by the holder only, and an exhausted
claim swept by the next one. -/
theorem outbox_in_order (setup : Setup) (es : List Event) :
    let s := Transition.run (step setup) empty es
    (∀ k, (s.deliveriesOf k).map (·.sequence) = List.range' 1 (s.deliveriesOf k).length)
    ∧ (∀ k, ∃ n ≤ (s.deliveriesOf k).length,
        ∀ r ∈ s.deliveriesOf k, r.status = .delivered ↔ r.sequence ≤ n)
    ∧ (∀ r ∈ s.deliveries.rows, ∀ r' ∈ s.deliveries.rows, r.runId = r'.runId →
        r.status = .claimed → r'.status = .claimed → r = r')
    ∧ (∀ r ∈ s.deliveries.rows, r.attempts ≤ r.maxAttempts)
    ∧ (∀ e, ∀ r ∈ s.deliveries.rows, r.status = .delivered →
        (s.step setup e).deliveries.get? r.id = some r)
    ∧ (∀ e claimed, Settles e.call claimed →
        (∀ r, s.deliveries.get? claimed.id = some r →
          r.status ≠ .claimed ∨ r.leaseOwner ≠ some claimed.workerId
            ∨ r.leaseTokenHash ≠ some (tokenHash claimed.leaseToken)
            ∨ r.leaseExpiresAt.all (· ≤ e.now) ∨ r.version ≠ claimed.version) →
        (∃ error, s.call setup e.registry e.now e.call = .error error) ∧ s.step setup e = s)
    ∧ ∀ r ∈ s.deliveries.rows, ∀ t, r.status = .claimed → r.leaseExpiresAt.any (· ≤ t) →
        r.maxAttempts ≤ r.attempts → ∀ es', (∀ e ∈ es', t ≤ e.now) →
        (∀ e ∈ es', e.call ≠ .retryWebhookDelivery r.id) →
        let later := Transition.run (step setup) s es'
        (later.deliveries.get? r.id = some r ∨ later.Dead r.id)
          ∧ ((∃ e ∈ es', Claims e.call) → later.Dead r.id)
          ∧ (later.Dead r.id → ∀ now d, later.deliveries.get? r.id = some d →
              ¬ later.ClaimableDelivery now d) := by
  have h := run_ordered setup es
  refine ⟨h.numbered, h.delivered_prefix, ?_, h.attempts, ?_, ?_, ?_⟩
  · intro r hr r' hr' hrun hclaimed hclaimed'
    exact h.claimed_unique hr hr' hrun hclaimed hclaimed'
  · intro e r hr hdelivered
    exact step_delivered e (Table.get?_key hr) hdelivered
  · intro e claimed hsettles hstale
    cases hcall : (Transition.run (step setup) empty es).call setup e.registry e.now e.call with
    | error error => exact ⟨⟨error, rfl⟩, step_error hcall⟩
    | ok s' =>
      obtain ⟨r, hr, hclaimed, howner, htoken, hlease, hversion⟩ := hsettles.held hcall
      rcases hstale r hr with hother | hother | hother | hover | hother
      · exact absurd hclaimed hother
      · exact absurd howner hother
      · exact absurd htoken hother
      · obtain ⟨expiresAt, hexpiresAt⟩ : ∃ expiresAt, r.leaseExpiresAt = some expiresAt := by
          cases hlast : r.leaseExpiresAt with
          | none => simp [hlast] at hlease
          | some expiresAt => exact ⟨expiresAt, rfl⟩
        have hlate : expiresAt ≤ e.now := by simpa [hexpiresAt] using hover
        have hearly : e.now < expiresAt := by simpa [hexpiresAt] using hlease
        exact absurd hearly (Int.not_lt.mpr hlate)
      · exact absurd hversion hother
  · intro r hr t hclaimed hlease hattempts es' ht hcall
    have hover : r.Exhausted t := ⟨hclaimed, hlease, hattempts⟩
    have hrow : (Transition.run (step setup) empty es).RanOut r := .inl (Table.get?_key hr)
    obtain ⟨hranOut, hdead⟩ := run_ranOut hrow hover ht hcall
    exact ⟨hranOut, fun hclaims => hdead (.inr hclaims), fun hdead => hdead.not_claimable⟩

end QaPlatform.CiLab.CiLabStore

