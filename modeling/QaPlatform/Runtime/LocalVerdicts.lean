import QaPlatform.Runtime.DispatchRaces
import QaPlatform.Runtime.ProviderCoherence

/-!
# Local verdicts

A run that ends with a verdict of the platform's own (`cancelled_before_dispatch`
or `trigger_failed`) should have no counterpart at the provider. A verdict is
final: once it is written nobody can claim the intent any more. So it is right
when all attempts up to it were refused, and that is what the code does not ask
for.

`Certain` is about the step that writes a verdict: every attempt up to it has been refused, was
given up before its call, or will be turned away by the comparison of versions. The invariant
says what an attempt can rely on between its statements, which is what it has locked or what
outlasts the steps of others, and that a verdict has its ground. In the counterexample the
provider accepts, its answer is lost, and the run is cancelled before the next attempt.
-/

namespace QaPlatform.Runtime

open Pipeline

namespace RacePhase

/-- The claim's transaction is open. -/
def Claiming (phase : RacePhase) : Prop :=
  phase = .intentLocked ∨ phase = .runLocked ∨ ∃ connection, phase = .connectionRead connection

/-- The settlement's transaction is open. -/
def Settling (phase : RacePhase) : Prop :=
  ∃ trigger outcome, phase = .settlesIntent trigger outcome ∨ phase = .settlesRun trigger outcome

/-- The connection that the attempt goes by. -/
def connection? : RacePhase → Option ProviderConnectionRecord
  | .connectionRead connection => some connection
  | .claimed trigger | .checked trigger => some trigger.connection
  | .answered trigger _ | .settlesIntent trigger _ | .settlesRun trigger _ =>
    some trigger.connection
  | .intentLocked | .runLocked | .closed => none

/-- What the provider has answered, once it has. -/
def outcome? : RacePhase → Option TriggerOutcome
  | .answered _ outcome | .settlesIntent _ outcome | .settlesRun _ outcome => some outcome
  | _ => none

/-- The claim is committed and the provider is yet to be called. -/
def BeforeCall : RacePhase → Prop
  | .claimed trigger | .checked trigger => trigger.connection.kind ≠ .local
  | _ => False

instance (phase : RacePhase) : Decidable phase.BeforeCall := by
  cases phase <;> unfold BeforeCall <;> infer_instance

end RacePhase

namespace DispatchRace

variable {s : DispatchRace}

/-! ## When a verdict is right -/

/-- A version of the connection is past for good: an edit counts from what it has read, so that one
under way must not lead back to it. -/
def Outdated (s : DispatchRace) (version : Nat) : Prop :=
  version < s.connection.version ∧ ∀ read ∈ s.edits, version ≤ read.version

instance (s : DispatchRace) (version : Nat) : Decidable (s.Outdated version) := by
  unfold Outdated
  infer_instance

/-- The comparison of versions will turn the attempt away. -/
def Stale (s : DispatchRace) : RacePhase → Prop
  | .claimed trigger => s.Outdated trigger.connection.version
  | _ => False

instance (s : DispatchRace) (phase : RacePhase) : Decidable (s.Stale phase) := by
  cases phase <;> unfold Stale <;> infer_instance

/-- The provider has not accepted the attempt and will not: it is not before its call, or it will
not come to it. -/
def Refused (s : DispatchRace) (a : RaceAttempt) : Prop :=
  a.accepted = false ∧ (a.phase.BeforeCall → s.Stale a.phase)

instance (s : DispatchRace) (a : RaceAttempt) : Decidable (s.Refused a) := by
  unfold Refused
  infer_instance

theorem Outdated.readConnection {version : Nat} (h : s.Outdated version) :
    Outdated { s with edits := s.edits ++ [s.connection] } version := by
  refine ⟨h.1, fun read hread => ?_⟩
  rcases List.mem_append.mp hread with hold | hnew
  · exact h.2 read hold
  · obtain rfl := List.mem_singleton.mp hnew
    exact Nat.le_of_lt h.1

theorem Outdated.commitEdit {version pending : Nat} (h : s.Outdated version)
    {read : ProviderConnectionRecord} (hread : s.edits[pending]? = some read)
    (edited : ProviderConnectionRecord) : (s.commitEdit read edited pending).Outdated version :=
  ⟨Nat.lt_succ_of_le (h.2 read (List.mem_of_getElem? hread)),
    fun other hother => h.2 other (List.mem_of_mem_eraseIdx hother)⟩

/-- What outdates no version less leaves an attempt refused. -/
theorem Refused.mono {s' : DispatchRace} {a : RaceAttempt} (h : s.Refused a)
    (hmono : ∀ version, s.Outdated version → s'.Outdated version) : s'.Refused a := by
  refine ⟨h.1, fun hcall => ?_⟩
  have hstale := h.2 hcall
  generalize a.phase = phase at hstale ⊢
  cases phase with
  | claimed trigger => exact hmono _ hstale
  | intentLocked | runLocked | connectionRead | checked | answered | settlesIntent | settlesRun
  | closed => exact hstale

/-- The attempt's settlement ends the intent for good. -/
def Rejects (g : RunGraph) : RacePhase → Prop
  | .settlesRun claimed (.failure _ false) =>
    (g.intent.status = .claimed ∧ g.intent.leaseTokenHash = some (tokenHash claimed.leaseToken))
      ∧ ¬ RunGraph.CalledBack g.run
  | _ => False

instance (g : RunGraph) (phase : RacePhase) : Decidable (Rejects g phase) := by
  unfold Rejects
  split <;> infer_instance

/-- The cancel is about to write over both rows. -/
def Cancels (s : DispatchRace) (c : CancelRequest) : Prop :=
  s.locks.Held .run (.cancel c.id) ∧ s.locks.Held .intent (.cancel c.id)
    ∧ match c.phase with
      | .writing _ => True
      | _ => False

instance (s : DispatchRace) (c : CancelRequest) : Decidable (s.Cancels c) := by
  unfold Cancels
  cases c.phase <;> infer_instance

/-- Where the event writes a verdict, every attempt has been refused: none was
accepted with its answer lost or not settled yet, and none that lost its lease,
or claimed behind the back of a cancel, is yet to call with a version that may
still be current. -/
def Certain (s : DispatchRace) : RaceEvent → Prop
  | .attempt id (.settleCommit _) =>
    ∀ a ∈ s.attempts.get? id, Rejects s.graph a.phase → ∀ b ∈ s.attempts.rows, s.Refused b
  | .cancel id (.commit _) =>
    ∀ c ∈ s.cancels.get? id, s.Cancels c → ∀ b ∈ s.attempts.rows, s.Refused b
  | _ => True

instance (s : DispatchRace) (e : RaceEvent) : Decidable (s.Certain e) := by
  unfold Certain
  split <;> infer_instance

/-- A local verdict is backed: no attempt was accepted. -/
def Backed (s : DispatchRace) : Prop :=
  VerdictText s.graph.run.rawStatus → ∀ a ∈ s.attempts.rows, a.accepted = false

instance (s : DispatchRace) : Decidable s.Backed := by
  unfold Backed
  infer_instance

/-! ## The invariant -/

/-- The intent is beyond any claim. -/
def Ended (intent : ProviderTriggerIntentRecord) : Prop :=
  intent.status = .failed ∨ intent.status = .cancelled

theorem Ended.not_claimable {intent : ProviderTriggerIntentRecord} (h : Ended intent)
    (now : Instant) : ¬ RunGraph.Claimable intent now := by
  intro hc
  rcases h with h | h
  · simp [RunGraph.Claimable, h] at hc
  · simp [RunGraph.Claimable, h] at hc

/-- What an attempt can rely on. -/
structure Sound (s : DispatchRace) (a : RaceAttempt) : Prop where
  kind : ∀ c ∈ a.phase.connection?, c.kind = s.connection.kind
  answer : ∀ run, a.phase.outcome? = some (.run run) → ¬ VerdictText run.rawStatus
  /-- What the claim has seen of the locked intent is still so. -/
  claiming : a.phase.Claiming →
    s.locks.Held .intent (.attempt a.id) ∧ RunGraph.Claimable s.graph.intent a.now
  settling : a.phase.Settling → s.locks.Held .intent (.attempt a.id)
  /-- The local simulator is no provider. -/
  called : s.connection.kind = .local → a.accepted = false

/-- What a cancel that went to the provider can rely on. -/
def Answerable (c : CancelRequest) : Prop :=
  (∀ version run, c.phase = .asking version run → ¬ VerdictText run.rawStatus)
    ∧ (∀ version run, c.phase = .answered version run → ¬ VerdictText run.rawStatus)
    ∧ ∀ version run, c.phase = .runLocked version run → ¬ VerdictText run.rawStatus

/-- The attempts and the cancellations are sound, and a verdict of the platform has its ground. -/
structure Inv (s : DispatchRace) : Prop where
  attempts : ∀ a ∈ s.attempts.rows, Sound s a
  cancels : ∀ c ∈ s.cancels.rows, Answerable c
  verdict : VerdictText s.graph.run.rawStatus →
    Ended s.graph.intent ∧ ∀ a ∈ s.attempts.rows, s.Refused a

theorem Inv.backed (h : s.Inv) : s.Backed := fun hv a ha => ((h.verdict hv).2 a ha).1

/-- What an attempt relies on outlasts a step that leaves it its lock. -/
theorem Sound.frame {s' : DispatchRace} {a : RaceAttempt} (h : Sound s a)
    (hkind : s'.connection.kind = s.connection.kind)
    (hlock : s.locks.Held .intent (.attempt a.id) →
      s'.locks.Held .intent (.attempt a.id) ∧ s'.graph.intent = s.graph.intent) : Sound s' a where
  kind := by
    rw [hkind]
    exact h.kind
  answer := h.answer
  claiming hphase := by
    obtain ⟨hheld, hclaimable⟩ := h.claiming hphase
    obtain ⟨hheld', hsame⟩ := hlock hheld
    exact ⟨hheld', hsame ▸ hclaimable⟩
  settling hphase := (hlock (h.settling hphase)).1
  called := by
    rw [hkind]
    exact h.called

/-- An attempt outside of any transaction relies on no lock. -/
theorem Sound.of_idle {a : RaceAttempt}
    (hkind : ∀ c ∈ a.phase.connection?, c.kind = s.connection.kind)
    (hanswer : ∀ run, a.phase.outcome? = some (.run run) → ¬ VerdictText run.rawStatus)
    (hclaiming : ¬ a.phase.Claiming) (hsettling : ¬ a.phase.Settling)
    (hcalled : s.connection.kind = .local → a.accepted = false) : Sound s a :=
  ⟨hkind, hanswer, fun h => absurd h hclaiming, fun h => absurd h hsettling, hcalled⟩

/-- The rule for a step of one attempt: the others keep their locks, and with them
the intent as they have seen it. -/
theorem Inv.putAttempt (h : s.Inv) {a a' : RaceAttempt} (hid : a'.id = a.id) {graph : RunGraph}
    {locks : RowLocks RaceRow RaceTx}
    (hothers : ∀ b ∈ s.attempts.rows, b.id ≠ a.id → s.locks.Held .intent (.attempt b.id) →
      locks.Held .intent (.attempt b.id) ∧ graph.intent = s.graph.intent)
    (hsound : Sound { s with graph, locks } a')
    (hverdict : VerdictText graph.run.rawStatus →
      Ended graph.intent ∧ s.Refused a' ∧ ∀ b ∈ s.attempts.rows, b.id ≠ a.id → s.Refused b) :
    Inv { s with graph, locks, attempts := s.attempts.put a' } where
  attempts := by
    intro b hb
    rcases Table.mem_put hb with rfl | ⟨hold, hne⟩
    · exact hsound.frame rfl (fun hheld => ⟨hheld, rfl⟩)
    · have hne' : b.id ≠ a.id := hid ▸ hne
      exact (h.attempts b hold).frame rfl (hothers b hold hne')
  cancels := h.cancels
  verdict := by
    intro hv
    obtain ⟨hended, hnew, hrest⟩ := hverdict hv
    refine ⟨hended, fun b hb => ?_⟩
    rcases Table.mem_put hb with rfl | ⟨hold, hne⟩
    · exact hnew
    · exact hrest b hold (hid ▸ hne)

/-- A step that leaves the rows alone. -/
theorem Inv.advance (h : s.Inv) {a a' : RaceAttempt} (ha : s.attempts.get? a.id = some a)
    (hid : a'.id = a.id) {locks : RowLocks RaceRow RaceTx}
    (hlocks : ∀ tx, tx ≠ .attempt a.id → s.locks.Held .intent tx → locks.Held .intent tx)
    (hsound : Sound { s with locks } a') (hrefused : s.Refused a → s.Refused a') :
    Inv { s with locks, attempts := s.attempts.put a' } := by
  refine h.putAttempt hid (fun b _ hne hheld => ⟨hlocks _ ?_ hheld, rfl⟩) hsound ?_
  · simpa using hne
  · intro hv
    obtain ⟨hended, hall⟩ := h.verdict hv
    exact ⟨hended, hrefused (hall a (Table.mem_of_get? ha)), fun b hb _ => hall b hb⟩

theorem Inv.setAttempt (h : s.Inv) {a a' : RaceAttempt} (ha : s.attempts.get? a.id = some a)
    (hid : a'.id = a.id) (hsound : Sound s a') (hrefused : s.Refused a → s.Refused a') :
    (s.setAttempt a').Inv :=
  h.advance ha hid (fun _ _ hheld => hheld) hsound hrefused

theorem Inv.lockFor (h : s.Inv) {a : RaceAttempt} (ha : s.attempts.get? a.id = some a)
    {row : RaceRow} {phase : RacePhase}
    (hsound : s.locks.Available row (.attempt a.id) →
      Sound { s with locks := s.locks.take row (.attempt a.id) } { a with phase })
    (hphase : ¬ phase.BeforeCall) : (s.lockFor a row phase).Inv := by
  unfold DispatchRace.lockFor
  split
  · next havailable =>
    have hid : { a with phase }.id = a.id := rfl
    exact h.advance ha hid (fun _ _ hheld => hheld.take havailable) (hsound havailable)
      (fun hrefused => ⟨hrefused.1, fun hcall => absurd hcall hphase⟩)
  · exact h

/-- The end of an attempt's transaction: what it has written, it wrote under the
intent's lock. -/
theorem Inv.releaseFor (h : s.Inv) {a : RaceAttempt} {phase : RacePhase} {graph : RunGraph}
    (hwrites : s.locks.Held .intent (.attempt a.id) ∨ graph.intent = s.graph.intent)
    (hsound : Sound { s with graph, locks := s.locks.release (.attempt a.id) } { a with phase })
    (hverdict : VerdictText graph.run.rawStatus → Ended graph.intent ∧ s.Refused { a with phase }
      ∧ ∀ b ∈ s.attempts.rows, b.id ≠ a.id → s.Refused b) : (s.releaseFor a phase graph).Inv := by
  have hid : { a with phase }.id = a.id := rfl
  refine h.putAttempt hid (fun b _ hne hheld => ?_) hsound hverdict
  have htx : RaceTx.attempt b.id ≠ .attempt a.id := by simpa using hne
  refine ⟨hheld.release htx, ?_⟩
  rcases hwrites with hmine | hsame
  · exact absurd (hheld.unique hmine) htx
  · exact hsame

/-! ## Dispatch attempts -/

theorem Inv.claimIntent (h : s.Inv) (workerId leaseToken : String) (leaseSeconds : Int)
    (now : Instant) : (s.claimIntent workerId leaseToken leaseSeconds now).Inv := by
  unfold DispatchRace.claimIntent
  split
  · next hcan =>
    obtain ⟨-, hfree, hclaimable⟩ := hcan
    have havailable : s.locks.Available .intent (.attempt s.attempts.next) := by
      intro tx htx
      simp [hfree] at htx
    refine ⟨fun b hb => ?_, h.cancels, fun hv => ?_⟩
    · rcases Table.mem_add hb with hold | rfl
      · exact (h.attempts b hold).frame rfl (fun hheld => ⟨hheld.take havailable, rfl⟩)
      · exact {
          kind := by simp [RacePhase.connection?]
          answer := by simp [RacePhase.outcome?]
          claiming := fun _ => ⟨RowLocks.held_take, hclaimable⟩
          settling := fun _ => RowLocks.held_take
          called := fun _ => rfl }
    · exact absurd hclaimable ((h.verdict hv).1.not_claimable now)
  · exact h

theorem Inv.claimCommit (h : s.Inv) {a : RaceAttempt} (ha : s.attempts.get? a.id = some a)
    {connection : ProviderConnectionRecord} (hp : a.phase = .connectionRead connection) :
    (s.claimCommit a connection).Inv := by
  have hsound := h.attempts a (Table.mem_of_get? ha)
  obtain ⟨hheld, hclaimable⟩ := hsound.claiming (.inr (.inr ⟨connection, hp⟩))
  refine h.releaseFor (.inl hheld) (.of_idle ?_ ?_ ?_ ?_ hsound.called) (fun hv => ?_)
  · have hkind := hsound.kind connection (by simp [hp, RacePhase.connection?])
    simpa [RacePhase.connection?, claimedTrigger] using hkind
  · simp [RacePhase.outcome?]
  · simp [RacePhase.Claiming]
  · simp [RacePhase.Settling]
  · -- nobody claims under a verdict, and the claim does not write one
    exact absurd hclaimable ((h.verdict hv).1.not_claimable a.now)

theorem Inv.callTrigger (h : s.Inv) {a : RaceAttempt} (ha : s.attempts.get? a.id = some a)
    {claimed : ProviderStore.ClaimedProviderTrigger} (hp : a.phase = .checked claimed)
    (result : CallResult) (generated : String) :
    (s.callTrigger a claimed result generated).Inv := by
  have hsound := h.attempts a (Table.mem_of_get? ha)
  have hkind : claimed.connection.kind = s.connection.kind :=
    hsound.kind claimed.connection (by simp [hp, RacePhase.connection?])
  have hanswered (outcome : TriggerOutcome) (accepted : Bool)
      (hrun : ∀ run, outcome = .run run → ¬ VerdictText run.rawStatus)
      (hlocal : s.connection.kind = .local → accepted = false)
      (hrefused : s.Refused a → accepted = false) :
      (s.setAttempt { a with phase := .answered claimed outcome, accepted }).Inv := by
    refine h.setAttempt ha rfl (.of_idle ?_ ?_ ?_ ?_ hlocal) (fun hr => ⟨hrefused hr, by
      simp [RacePhase.BeforeCall]⟩)
    · simpa [RacePhase.connection?] using hkind
    · simpa [RacePhase.outcome?] using hrun
    · simp [RacePhase.Claiming]
    · simp [RacePhase.Settling]
  unfold DispatchRace.callTrigger
  dsimp only
  split
  · next hlocal =>
    refine hanswered _ _ ?_ hsound.called And.left
    rintro run ⟨⟩
    simp [localTriggered, VerdictText]
  · next hremote =>
    have hremote' : s.connection.kind ≠ .local := hkind ▸ hremote
    -- whoever may be accepted has not been refused
    have hnot : ¬ s.Refused a := by
      rintro ⟨-, hcall⟩
      rw [hp] at hcall
      exact hcall hremote
    cases result with
    | unavailable => exact hanswered _ _ (by simp) hsound.called And.left
    | rejected error => exact hanswered _ _ (by simp [errorOutcome]) hsound.called And.left
    | accepted run =>
      dsimp only
      split
      · next hreported =>
        refine hanswered _ _ ?_ (fun hl => absurd hl hremote') (fun hr => absurd hr hnot)
        rintro run ⟨⟩
        exact hreported.2
      · exact h
    | unread error =>
      exact hanswered _ _ (by simp [errorOutcome]) (fun hl => absurd hl hremote')
        (fun hr => absurd hr hnot)
    | lost accepted =>
      refine h.setAttempt ha rfl (.of_idle ?_ ?_ ?_ ?_ (fun hl => absurd hl hremote'))
        (fun hr => absurd hr hnot)
      · simp [RacePhase.connection?]
      · simp [RacePhase.outcome?]
      · simp [RacePhase.Claiming]
      · simp [RacePhase.Settling]

/-- A snapshot leaves the raw status or brings the provider's. -/
theorem snapshot_rawStatus (record : ProviderRunRecord) (run : ProviderRun)
    (source : SnapshotSource) (now : Instant) :
    (record.applyProviderRunSnapshot run source now).rawStatus = record.rawStatus
    ∨ (record.applyProviderRunSnapshot run source now).rawStatus = run.rawStatus := by
  rcases record.applyProviderRunSnapshot_cases run source now with
    ⟨-, h | h⟩ | ⟨-, -, -, h⟩ | ⟨-, -, h⟩
  · exact .inl (by rw [h])
  · exact .inl (by rw [h]; rfl)
  · exact .inl (by rw [h]; rfl)
  · exact .inr (by rw [h])

/-- A settlement is refused, or writes no verdict of its own, or rejects. -/
theorem settle_cases (g : RunGraph) (claimed : ProviderStore.ClaimedProviderTrigger)
    (now : Instant) {outcome : TriggerOutcome}
    (houtcome : ∀ run, outcome = .run run → ¬ VerdictText run.rawStatus) :
    g.move (settleMove claimed now outcome) = g
    ∨ (g.intent.status = .claimed
      ∧ (VerdictText (g.move (settleMove claimed now outcome)).run.rawStatus →
        VerdictText g.run.rawStatus))
    ∨ (Rejects g (.settlesRun claimed outcome)
      ∧ (g.move (settleMove claimed now outcome)).intent.status = .failed) := by
  cases outcome with
  | run run =>
    rcases g.move_finalize claimed.leaseToken run now with ⟨h, -⟩ | ⟨hclaimed, -, h⟩
    · exact .inl h
    · refine .inr (.inl ⟨hclaimed, fun hv => ?_⟩)
      simp only [settleMove, h] at hv
      rcases RunGraph.finalizeRun_cases g.run run now with ⟨-, _, he⟩ | ⟨-, he⟩
      · rw [he] at hv
        exact hv
      · rw [he] at hv
        rcases snapshot_rawStatus _ run .dispatch now with hraw | hraw
        · rw [hraw] at hv
          exact hv
        · rw [hraw] at hv
          exact absurd hv (houtcome run rfl)
  | failure errorCode retryable =>
    cases h : g.settleFailure claimed.leaseToken errorCode retryable now with
    | error e => exact .inl (by simp [settleMove, RunGraph.move, h, Except.toOption])
    | ok g' =>
      have hmove : g.move (settleMove claimed now (.failure errorCode retryable)) = g' := by
        simp [settleMove, RunGraph.move, h, Except.toOption]
      obtain ⟨hlease, hg'⟩ := RunGraph.settleFailure_eq_ok.mp h
      rw [hmove, hg']
      by_cases hback : RunGraph.CalledBack g.run
      · simp only [if_pos hback]
        exact .inr (.inl ⟨hlease.1, id⟩)
      · simp only [if_neg hback]
        cases retryable with
        | true =>
          refine .inr (.inl ⟨hlease.1, fun hv => ?_⟩)
          simp [RunGraph.failRun, VerdictText] at hv
        | false => exact .inr (.inr ⟨⟨hlease, hback⟩, rfl⟩)

theorem Inv.settleCommit (h : s.Inv) {a : RaceAttempt} (ha : s.attempts.get? a.id = some a)
    {claimed : ProviderStore.ClaimedProviderTrigger} {outcome : TriggerOutcome}
    (hp : a.phase = .settlesRun claimed outcome) (now : Instant)
    (hcertain : Rejects s.graph a.phase → ∀ b ∈ s.attempts.rows, s.Refused b) :
    (s.releaseFor a .closed (s.graph.move (settleMove claimed now outcome))).Inv := by
  have hsound := h.attempts a (Table.mem_of_get? ha)
  have hheld := hsound.settling ⟨claimed, outcome, .inr hp⟩
  have hclosed (graph : RunGraph) : Sound
      { s with graph, locks := s.locks.release (.attempt a.id) } { a with phase := .closed } :=
    .of_idle (by simp [RacePhase.connection?]) (by simp [RacePhase.outcome?])
      (by simp [RacePhase.Claiming]) (by simp [RacePhase.Settling]) hsound.called
  have hends (hr : s.Refused a) : s.Refused { a with phase := .closed } :=
    ⟨hr.1, by simp [RacePhase.BeforeCall]⟩
  refine h.releaseFor (.inl hheld) (hclosed _) (fun hv => ?_)
  have hrun (run : ProviderRun) (hrun : outcome = .run run) : ¬ VerdictText run.rawStatus :=
    hsound.answer run (by simp [hp, RacePhase.outcome?, hrun])
  rcases settle_cases s.graph claimed now hrun with hsame | ⟨hclaimed, hold⟩ | ⟨hrejects, hfailed⟩
  · rw [hsame] at hv ⊢
    obtain ⟨hended, hall⟩ := h.verdict hv
    exact ⟨hended, hends (hall a (Table.mem_of_get? ha)), fun b hb _ => hall b hb⟩
  · -- a claimed intent has no verdict yet
    rcases (h.verdict (hold hv)).1 with he | he
    · simp [hclaimed] at he
    · simp [hclaimed] at he
  · have hall := hcertain (hp ▸ hrejects)
    exact ⟨.inl hfailed, hends (hall a (Table.mem_of_get? ha)), fun b hb _ => hall b hb⟩

theorem Inv.crashAttempt (h : s.Inv) {a : RaceAttempt} (ha : s.attempts.get? a.id = some a) :
    (s.releaseFor a .closed s.graph).Inv := by
  have hsound := h.attempts a (Table.mem_of_get? ha)
  refine h.releaseFor (.inr rfl) (.of_idle ?_ ?_ ?_ ?_ hsound.called) (fun hv => ?_)
  · simp [RacePhase.connection?]
  · simp [RacePhase.outcome?]
  · simp [RacePhase.Claiming]
  · simp [RacePhase.Settling]
  · obtain ⟨hended, hall⟩ := h.verdict hv
    refine ⟨hended, ⟨(hall a (Table.mem_of_get? ha)).1, ?_⟩, fun b hb _ => hall b hb⟩
    simp [RacePhase.BeforeCall]

theorem Inv.attemptStep (h : s.Inv) {a : RaceAttempt} (ha : s.attempts.get? a.id = some a)
    {statement : AttemptStatement} (hcertain : s.Certain (.attempt a.id statement)) :
    (s.attemptStep a statement).Inv := by
  have hsound := h.attempts a (Table.mem_of_get? ha)
  cases statement with
  | claimRun =>
    simp only [DispatchRace.attemptStep]
    split
    · next hp =>
      obtain ⟨hheld, hclaimable⟩ := hsound.claiming (.inl hp)
      refine h.lockFor ha (fun havailable => ?_) (by simp [RacePhase.BeforeCall])
      exact {
        kind := by simp [RacePhase.connection?]
        answer := by simp [RacePhase.outcome?]
        claiming := fun _ => ⟨hheld.take havailable, hclaimable⟩
        settling := fun _ => hheld.take havailable
        called := hsound.called }
    · exact h
  | claimConnection =>
    simp only [DispatchRace.attemptStep]
    split
    · next hp =>
      obtain ⟨hheld, hclaimable⟩ := hsound.claiming (.inr (.inl hp))
      refine h.setAttempt ha rfl ?_ (fun hr => ⟨hr.1, by simp [RacePhase.BeforeCall]⟩)
      exact {
        kind := by simp [RacePhase.connection?]
        answer := by simp [RacePhase.outcome?]
        claiming := fun _ => ⟨hheld, hclaimable⟩
        settling := fun _ => hheld
        called := hsound.called }
    · exact h
  | claimCommit =>
    simp only [DispatchRace.attemptStep]
    split
    · next connection hp => exact h.claimCommit ha hp
    · exact h
  | checkVersion =>
    simp only [DispatchRace.attemptStep]
    split
    · next claimed hp =>
      have hkind := hsound.kind claimed.connection (by simp [hp, RacePhase.connection?])
      unfold DispatchRace.checkVersion
      split
      -- the versions differ: the attempt is rejected and does not call
      · refine h.setAttempt ha rfl (.of_idle ?_ ?_ ?_ ?_ hsound.called)
          (fun hr => ⟨hr.1, by simp [RacePhase.BeforeCall]⟩)
        · simpa [RacePhase.connection?] using hkind
        · simp [RacePhase.outcome?]
        · simp [RacePhase.Claiming]
        · simp [RacePhase.Settling]
      · next hsame =>
        have hcurrent : claimed.connection.version = s.connection.version := not_not.mp hsame
        refine h.setAttempt ha rfl (.of_idle ?_ ?_ ?_ ?_ hsound.called) (fun hr => ⟨hr.1, ?_⟩)
        · simpa [RacePhase.connection?] using hkind
        · simp [RacePhase.outcome?]
        · simp [RacePhase.Claiming]
        · simp [RacePhase.Settling]
        · -- an attempt with the current version is not turned away
          intro hcall
          have hstale : s.Stale a.phase := hr.2 (by rwa [hp])
          rw [hp] at hstale
          exact absurd hstale.1 (by omega)
    · exact h
  | callTrigger result generated =>
    simp only [DispatchRace.attemptStep]
    split
    · next claimed hp => exact h.callTrigger ha hp result generated
    · exact h
  | settleIntent =>
    simp only [DispatchRace.attemptStep]
    split
    · next claimed outcome hp =>
      have hkind := hsound.kind claimed.connection (by simp [hp, RacePhase.connection?])
      have hanswer := hsound.answer
      refine h.lockFor ha (fun _ => ?_) (by simp [RacePhase.BeforeCall])
      exact {
        kind := by simpa [RacePhase.connection?] using hkind
        answer := by simpa [hp, RacePhase.outcome?] using hanswer
        claiming := by simp [RacePhase.Claiming]
        -- from here on the intent is as the settlement has read it
        settling := fun _ => RowLocks.held_take
        called := hsound.called }
    · exact h
  | settleRun =>
    simp only [DispatchRace.attemptStep]
    split
    · next claimed outcome hp =>
      have hkind := hsound.kind claimed.connection (by simp [hp, RacePhase.connection?])
      have hanswer := hsound.answer
      have hheld := hsound.settling ⟨claimed, outcome, .inl hp⟩
      refine h.lockFor ha (fun havailable => ?_) (by simp [RacePhase.BeforeCall])
      exact {
        kind := by simpa [RacePhase.connection?] using hkind
        answer := by simpa [hp, RacePhase.outcome?] using hanswer
        claiming := by simp [RacePhase.Claiming]
        settling := fun _ => hheld.take havailable
        called := hsound.called }
    · exact h
  | settleCommit now =>
    simp only [DispatchRace.attemptStep]
    split
    · next claimed outcome hp => exact h.settleCommit ha hp now (hcertain a ha)
    · exact h
  | crash => exact h.crashAttempt ha

/-! ## Cancels -/

/-- The rule for a step of a cancel: dispatchers keep their locks, and with them
the intent as they have seen it. -/
theorem Inv.putCancel (h : s.Inv) {c : CancelRequest} (hc : Answerable c) {graph : RunGraph}
    {locks : RowLocks RaceRow RaceTx}
    (hlocks : ∀ id, s.locks.Held .intent (.attempt id) →
      locks.Held .intent (.attempt id) ∧ graph.intent = s.graph.intent)
    (hverdict : VerdictText graph.run.rawStatus →
      Ended graph.intent ∧ ∀ a ∈ s.attempts.rows, s.Refused a) :
    Inv { s with graph, locks, cancels := s.cancels.put c } where
  attempts a ha := (h.attempts a ha).frame rfl (hlocks a.id)
  cancels c' hc' := by
    rcases Table.mem_put hc' with rfl | ⟨hold, -⟩
    · exact hc
    · exact h.cancels c' hold
  verdict := hverdict

theorem Inv.setCancel (h : s.Inv) {c : CancelRequest} (hc : Answerable c) : (s.setCancel c).Inv :=
  h.putCancel hc (fun _ hheld => ⟨hheld, rfl⟩) h.verdict

theorem Inv.update (h : s.Inv) (c : CancelRequest) (row : RaceRow) : (s.update c row).Inv := by
  unfold DispatchRace.update
  split
  · next havailable =>
    exact {
      attempts := fun a ha => (h.attempts a ha).frame rfl
        (fun hheld => ⟨hheld.take havailable, rfl⟩)
      cancels := h.cancels
      verdict := h.verdict }
  · exact h

theorem Inv.closeCancel (h : s.Inv) (c : CancelRequest) {graph : RunGraph}
    (hintent : graph.intent = s.graph.intent)
    (hraw : VerdictText graph.run.rawStatus → VerdictText s.graph.run.rawStatus) :
    (s.closeCancel c graph).Inv := by
  refine h.putCancel (by simp [Answerable]) (fun id hheld => ⟨hheld.release (by simp), hintent⟩) ?_
  intro hv
  rw [hintent]
  exact h.verdict (hraw hv)

/-- The cancel's writes go over whatever the rows have become since it read them. -/
theorem Inv.cancelCommit (h : s.Inv) {c : CancelRequest} {read : ProviderRunRecord}
    (hp : c.phase = .writing read) (now : Instant)
    (hcertain : s.Cancels c → ∀ b ∈ s.attempts.rows, s.Refused b) :
    (s.cancelCommit c read now).Inv := by
  unfold DispatchRace.cancelCommit
  split
  · next hheld =>
    have hcancels : s.Cancels c := by
      refine ⟨hheld.1, hheld.2, ?_⟩
      rw [hp]
      trivial
    refine h.putCancel (by simp [Answerable]) (fun id hother => ?_)
      (fun _ => ⟨.inr rfl, hcertain hcancels⟩)
    have htx := hother.unique hheld.2
    simp at htx
  · exact h

theorem Inv.cancelRun (h : s.Inv) : s.cancelRun.Inv where
  attempts a ha := (h.attempts a ha).frame rfl (fun hheld => ⟨hheld, rfl⟩)
  cancels c hc := by
    rcases Table.mem_add hc with hold | rfl
    · exact h.cancels c hold
    · unfold Answerable
      dsimp only
      split
      · refine ⟨?_, by simp, by simp⟩
        rintro version run ⟨⟩
        simp [ProviderStore.localAnswer, VerdictText]
      · split
        · simp
        · simp
  verdict := h.verdict

theorem Inv.cancelAnswer (h : s.Inv) {c : CancelRequest} (hc : Answerable c) {version : Nat}
    {localAnswer : ProviderRun} (hp : c.phase = .asking version localAnswer) (run : ProviderRun) :
    (s.cancelAnswer c version localAnswer run).Inv := by
  have hanswered (answer : ProviderRun) (hplain : ¬ VerdictText answer.rawStatus) :
      Answerable { c with phase := .answered version answer } := by
    refine ⟨by simp, ?_, by simp⟩
    rintro _ _ ⟨⟩
    exact hplain
  unfold DispatchRace.cancelAnswer
  split
  · exact h.setCancel (hanswered localAnswer (hc.1 version localAnswer hp))
  · split
    · next hreported => exact h.setCancel (hanswered run hreported.2)
    · exact h

theorem Inv.cancelLock (h : s.Inv) {c : CancelRequest} (hc : Answerable c) {version : Nat}
    {run : ProviderRun} (hp : c.phase = .answered version run) :
    (s.cancelLock c version run).Inv := by
  unfold DispatchRace.cancelLock
  split
  · next havailable =>
    refine h.putCancel ⟨by simp, by simp, ?_⟩ (fun id hheld => ⟨hheld.take havailable, rfl⟩)
      h.verdict
    rintro _ _ ⟨⟩
    exact hc.2.1 version run hp
  · exact h

/-- The provider's answer to a cancel brings no verdict of the platform. -/
theorem commitRefresh_rawStatus {g : RunGraph} {run : ProviderRun}
    (hplain : ¬ VerdictText run.rawStatus) (version : Nat) (now : Instant)
    (hv : VerdictText (g.commitRefresh version run now).run.rawStatus) :
    VerdictText g.run.rawStatus := by
  unfold RunGraph.commitRefresh at hv
  split at hv
  · exact hv
  · rcases snapshot_rawStatus g.run run .poll now with hraw | hraw
    · exact hraw ▸ hv
    · exact absurd (hraw ▸ hv) hplain

theorem Inv.cancelStep (h : s.Inv) {c : CancelRequest} (hmem : s.cancels.get? c.id = some c)
    {statement : CancelStatement} (hcertain : s.Certain (.cancel c.id statement)) :
    (s.cancelStep c statement).Inv := by
  have hc := h.cancels c (Table.mem_of_get? hmem)
  cases statement with
  | readIntent =>
    simp only [DispatchRace.cancelStep]
    split
    · refine h.setCancel ?_
      unfold Answerable
      dsimp only
      split
      · simp
      · simp
    · exact h
  | updateRun =>
    simp only [DispatchRace.cancelStep]
    split
    · exact h.update c .run
    · exact h
  | updateIntent =>
    simp only [DispatchRace.cancelStep]
    split
    · exact h.update c .intent
    · exact h
  | commit now =>
    simp only [DispatchRace.cancelStep]
    split
    -- the commit alone asks that the refusal is certain
    · next read hp => exact h.cancelCommit hp now (hcertain c hmem)
    · exact h
  | answer run =>
    simp only [DispatchRace.cancelStep]
    split
    · next version localAnswer hp => exact h.cancelAnswer hc hp run
    · exact h
  | lockRun =>
    simp only [DispatchRace.cancelStep]
    split
    · next version run hp => exact h.cancelLock hc hp
    · exact h
  | apply now =>
    simp only [DispatchRace.cancelStep]
    split
    · next version run hp =>
      refine h.closeCancel c ?_ (commitRefresh_rawStatus (hc.2.2 version run hp) version now)
      unfold RunGraph.commitRefresh
      split
      · rfl
      · rfl
    · exact h
  | crash => exact h.closeCancel c rfl id

/-! ## Whole runs -/

theorem Inv.step (h : s.Inv) {e : RaceEvent} (hcertain : s.Certain e) :
    (DispatchRace.step s e).Inv := by
  cases e with
  | claimIntent workerId leaseToken leaseSeconds now =>
    exact h.claimIntent workerId leaseToken leaseSeconds now
  | attempt id statement =>
    simp only [DispatchRace.step]
    split
    · next a ha =>
      obtain rfl : a.id = id := Table.key_of_get? ha
      exact h.attemptStep ha hcertain
    · exact h
  | cancelRun => exact h.cancelRun
  | cancel id statement =>
    simp only [DispatchRace.step]
    split
    · next c hc =>
      obtain rfl : c.id = id := Table.key_of_get? hc
      exact h.cancelStep hc hcertain
    · exact h
  | readConnection =>
    refine ⟨fun a ha => (h.attempts a ha).frame rfl (fun hheld => ⟨hheld, rfl⟩), h.cancels,
      fun hv => ?_⟩
    obtain ⟨hended, hall⟩ := h.verdict hv
    exact ⟨hended, fun a ha => (hall a ha).mono fun _ hold => hold.readConnection⟩
  | commitEdit pending edited =>
    simp only [DispatchRace.step]
    split
    · next read hread =>
      refine ⟨fun a ha => (h.attempts a ha).frame rfl (fun hheld => ⟨hheld, rfl⟩), h.cancels,
        fun hv => ?_⟩
      obtain ⟨hended, hall⟩ := h.verdict hv
      exact ⟨hended, fun a ha => (hall a ha).mono fun _ hold => hold.commitEdit hread edited⟩
    · exact h

theorem start_inv (c : ProviderConnectionRecord) (request : ProviderTriggerRequest)
    (fingerprint : Digest Json) (actor : Option RunGraph.Actor) (now : Instant) :
    (start c request fingerprint actor now).Inv where
  attempts := by simp [start, Table.empty]
  cancels := by simp [start, Table.empty]
  verdict := by
    intro hv
    simp [start, ProviderStore.triggeredGraph, VerdictText] at hv

/-- Where verdicts are written over refused attempts only, a verdict is backed in
every state. -/
theorem localVerdict_backed (c : ProviderConnectionRecord) (request : ProviderTriggerRequest)
    (fingerprint : Digest Json) (actor : Option RunGraph.Actor) (now : Instant)
    (es : List RaceEvent)
    (h : Transition.Along Certain step (start c request fingerprint actor now) es) :
    (Transition.run step (start c request fingerprint actor now) es).Backed :=
  (Transition.invariant_along (fun _ _ hinv hok => hinv.step hok)
    (start_inv c request fingerprint actor now) h).backed

/-- An edit of the connection outdates a first attempt before it calls; its lease expires, and the
CI Lab refuses the second attempt for good. -/
def rejectedOnce : List RaceEvent :=
  lessonClaim 0 "first" 2 ++ [.readConnection, .commitEdit 0 lessonRace.connection]
    ++ lessonClaim 1 "second" (seconds 40) ++ lessonCall 1 (.rejected (.configuration "rejected"))
    ++ lessonSettle 1 (seconds 41)

theorem localVerdict_backed_rejectedOnce :
    VerdictText (Transition.run step lessonRace rejectedOnce).graph.run.rawStatus
      ∧ (Transition.run step lessonRace rejectedOnce).Backed :=
  ⟨by decide, localVerdict_backed _ _ _ _ _ _ (by decide)⟩

/-- The CI Lab accepts a trigger, its dispatcher sees a timeout and leaves the
intent to be retried, and then the run is cancelled. -/
def timeoutThenCancel : List RaceEvent :=
  lessonClaim 0 "first" 2 ++ lessonCall 0 (.unread (.transport "timeout")) ++ lessonSettle 0 3
    ++ lessonRead 0 ++ lessonWrite 0 4

theorem localVerdict_unbacked :
    ¬ ∀ (c : ProviderConnectionRecord) (request : ProviderTriggerRequest)
      (fingerprint : Digest Json) (actor : Option RunGraph.Actor) (now : Instant)
      (es : List RaceEvent),
      (Transition.run step (start c request fingerprint actor now) es).Backed := by
  intro h
  have hbacked : (Transition.run step lessonRace timeoutThenCancel).Backed := h _ _ _ _ _ _
  exact absurd hbacked (by decide)

/-- A claim commits between the reads of a cancel and its writes. -/
example : ¬ (Transition.run step lessonRace (lessonRead 0 ++ lessonClaim 0 "first" 2
    ++ lessonWrite 0 3 ++ lessonCall 0 lessonAccepted)).Backed := by
  decide

/-- An expired lease is taken over while its holder is yet to call. -/
example : ¬ (Transition.run step lessonRace (lessonClaim 0 "first" 2
    ++ lessonClaim 1 "second" (seconds 40) ++ lessonCall 1 (.rejected (.configuration "rejected"))
    ++ lessonSettle 1 (seconds 41) ++ lessonCall 0 lessonAccepted)).Backed := by
  decide

end DispatchRace

end QaPlatform.Runtime
