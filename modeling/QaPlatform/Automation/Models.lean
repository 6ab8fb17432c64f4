import Mathlib.Init

/-! The status values of `app/automation/models.py`. -/

namespace QaPlatform.Automation

/-- `TaskStatus`. -/
inductive TaskStatus where
  | queued
  | running
  | retryWait
  | succeeded
  | failed
  | cancelled
  | deadLetter
deriving DecidableEq, Repr

/-- `DeviceStatus`. -/
inductive DeviceStatus where
  | offline
  | idle
  | reserved
  | busy
  | maintenance
deriving DecidableEq, Repr

/-- `DeviceLeaseStatus`. -/
inductive DeviceLeaseStatus where
  | active
  | released
  | expired
deriving DecidableEq, Repr

/-- `MisfirePolicy`: what becomes of the instants that were missed. -/
inductive MisfirePolicy where
  | skip
  | fireOnce
  | catchUpLimited
deriving DecidableEq, Repr

/-- `OverlapPolicy`: what a fire does while a task of its schedule is active. -/
inductive OverlapPolicy where
  | forbid
  | allow
  | replace
deriving DecidableEq, Repr

/-- `ScheduleFireStatus`. -/
inductive ScheduleFireStatus where
  | enqueued
  | skippedMisfire
  | skippedOverlap
deriving DecidableEq, Repr

end QaPlatform.Automation
