import QaPlatform.Base.Transition
import QaPlatform.Runtime.ScheduleSteps

/-!
# Schedulers side by side

Any number of scheduler processes over one store, their transactions interleaved
with edits, manual fires and everything that happens to tasks. What a process
knows between T1 and T2 is its snapshot and its plan. A T2 whose claim is not the
row's any more finds no row; what has fired for an instant stays, and nothing
fires for it again.
-/

namespace QaPlatform.Runtime

open TaskStore (Call)

/-- How far a process has come with a claim. -/
inductive ScheduleProgress where
  | claimed
  | planned (plan : CronDuePlan)
  | ended

/-- A claim, and how far its dispatch has come. -/
structure ScheduleDispatch where
  claim : ClaimedSchedule
  progress : ScheduleProgress

/-- The store, and the claims that have been made. -/
structure SchedulerSystem where
  store : ScheduleStore
  /-- One entry for each claim, oldest first. -/
  dispatches : List ScheduleDispatch

/-- A transaction, or a plan made outside SQL. -/
inductive SchedulerEvent where
  | queue (now : Instant) (call : Call)
  | createSchedule (now : Instant) (payload : ScheduleCreate)
  | updateSchedule (now : Instant) (scheduleId : Uuid) (payload : SchedulePatch)
  | deleteSchedule (scheduleId : Uuid)
  | runScheduleNow (now : Instant) (scheduleId : Uuid)
  | claim (now : Instant) (schedulerId : String) (leaseSeconds : Int)
      (fallbackNow : Option Instant) (excludedIds : List Uuid) (claimToken : String)
      (skipped : List Uuid)
  | plan (p : Nat)
  | finalize (p : Nat) (now cutoff : Instant)
  /-- Planning raises or is cancelled, and the claim is given up. -/
  | abandon (p : Nat)

namespace SchedulerSystem

/-- Nothing is stored, and nothing has been claimed. -/
def empty : SchedulerSystem := ⟨⟨⟨.empty, .empty⟩, .empty, .empty⟩, []⟩

/-- The system after a transaction that may have raised. -/
def commit (s : SchedulerSystem) (x : Except DomainError ScheduleStore) : SchedulerSystem :=
  { s with store := x.toOption.getD s.store }

/-- The progress of a dispatch is set. -/
def advance (s : SchedulerSystem) (p : Nat) (d : ScheduleDispatch) (progress : ScheduleProgress) :
    SchedulerSystem :=
  { s with dispatches := s.dispatches.set p { d with progress } }

/-- The claim is planned; when there is no plan it stays where it is. -/
def planDispatch (setup : Setup) (s : SchedulerSystem) (p : Nat) (d : ScheduleDispatch) :
    SchedulerSystem :=
  match d.progress, d.claim.duePlan setup.zones with
  | .claimed, .ok plan => s.advance p d (.planned plan)
  | _, _ => s

/-- T2 of a claim that has been planned. -/
def finalizeDispatch (setup : Setup) (s : SchedulerSystem) (p : Nat) (d : ScheduleDispatch)
    (now cutoff : Instant) : SchedulerSystem :=
  match d.progress with
  | .planned plan =>
    (s.commit ((s.store.finalizeScheduleClaim setup d.claim plan now cutoff).map (·.1))).advance p d
      .ended
  | .claimed | .ended => s

/-- The claim is released, as it is when planning has raised. -/
def abandonDispatch (s : SchedulerSystem) (p : Nat) (d : ScheduleDispatch) : SchedulerSystem :=
  match d.progress with
  | .claimed => (s.commit (.ok (s.store.releaseScheduleClaim d.claim))).advance p d .ended
  | .planned _ | .ended => s

/-- What a process does with the dispatch `p`, if there is one. -/
def withDispatch (s : SchedulerSystem) (p : Nat) (f : ScheduleDispatch → SchedulerSystem) :
    SchedulerSystem :=
  (s.dispatches[p]?).elim s f

theorem withDispatch_cases {s : SchedulerSystem} {p : Nat} {f : ScheduleDispatch → SchedulerSystem}
    {P : SchedulerSystem → Prop} (hs : P s)
    (hf : ∀ d, s.dispatches[p]? = some d → P (f d)) : P (s.withDispatch p f) := by
  unfold withDispatch
  cases hd : s.dispatches[p]? with
  | none => exact hs
  | some d => exact hf d hd

/-- T1, and the dispatch of what it claims. -/
def claimDispatch (setup : Setup) (s : SchedulerSystem) (now : Instant) (schedulerId : String)
    (leaseSeconds : Int) (fallbackNow : Option Instant) (excludedIds : List Uuid)
    (claimToken : String) (skipped : List Uuid) : SchedulerSystem :=
  let claimed := s.store.claimDueSchedule setup schedulerId leaseSeconds fallbackNow excludedIds
    claimToken now skipped
  ⟨claimed.1, s.dispatches ++ (claimed.2.map (ScheduleDispatch.mk · .claimed)).toList⟩

/-- One event. A transaction that raises leaves the store as it is. -/
def step (setup : Setup) (s : SchedulerSystem) : SchedulerEvent → SchedulerSystem
  | .queue now call =>
    s.commit ((s.store.queue.call setup.taskTypes setup.render now call).map
      fun queue => { s.store with queue })
  | .createSchedule now payload => s.commit ((s.store.createSchedule setup payload now).map (·.1))
  | .updateSchedule now scheduleId payload =>
    s.commit ((s.store.updateSchedule setup scheduleId payload now).map (·.1))
  | .deleteSchedule scheduleId => s.commit (s.store.deleteSchedule scheduleId)
  | .runScheduleNow now scheduleId =>
    s.commit ((s.store.runScheduleNow setup scheduleId now).map (·.1))
  | .claim now schedulerId leaseSeconds fallbackNow excludedIds claimToken skipped =>
    s.claimDispatch setup now schedulerId leaseSeconds fallbackNow excludedIds claimToken skipped
  | .plan p => s.withDispatch p (s.planDispatch setup p)
  | .finalize p now cutoff => s.withDispatch p fun d => s.finalizeDispatch setup p d now cutoff
  | .abandon p => s.withDispatch p (s.abandonDispatch p)

/-- `secrets` does not return a token twice. -/
def Fresh (s : SchedulerSystem) : SchedulerEvent → Prop
  | .claim _ _ _ _ _ claimToken _ => ∀ d ∈ s.dispatches, d.claim.claimToken ≠ claimToken
  | _ => True

end SchedulerSystem

end QaPlatform.Runtime
