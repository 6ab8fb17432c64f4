import QaPlatform.Pipeline.Providers

/-!
# Trees of statuses

What the statuses of a run, its stages and their jobs may be together. `Family` is about a node
and its children on either of the two levels; a tree is coherent when every node is in order with
its children. What a run ends with, a failure or a cancellation, is passed on to what is active.
-/

namespace QaPlatform.Pipeline

namespace PipelineStatus

/-- The statuses of a child of a node. -/
def fits : PipelineStatus → PipelineStatus → Bool
  | .queued, child => child = .queued
  | .running, child => child = .queued ∨ child = .running ∨ child = .succeeded
  | .succeeded, child => child = .succeeded
  | .failed, child => child.Terminal
  | .cancelled, child => child = .succeeded ∨ child = .cancelled

/-- An active node is cancelled. -/
def cancelled? (status : PipelineStatus) : PipelineStatus :=
  if status.Terminal then status else .cancelled

/-- The status is that of a node that is not over. -/
def Active (status : PipelineStatus) : Prop := status = .queued ∨ status = .running

instance (status : PipelineStatus) : Decidable status.Active := by
  unfold Active
  infer_instance

/-- What a node ends with when not all of its children succeed. -/
def Broken (status : PipelineStatus) : Prop := status = .failed ∨ status = .cancelled

/-- What counting its children makes of a node. -/
def counted (status : PipelineStatus) (children : List PipelineStatus) : PipelineStatus :=
  if ∀ child ∈ children, child = .succeeded then .succeeded else status

variable {parent child status : PipelineStatus}

theorem not_terminal_iff : ¬ status.Terminal ↔ status.Active := by
  cases status <;> decide

theorem active_or_terminal (status : PipelineStatus) : status.Active ∨ status.Terminal := by
  cases status <;> decide

@[simp] theorem cancelled?_of_terminal (h : status.Terminal) :
    status.cancelled? = status := if_pos h

theorem cancelled?_of_active (h : status.Active) : status.cancelled? = .cancelled :=
  if_neg (not_terminal_iff.mpr h)

@[simp] theorem cancelled?_eq_succeeded : status.cancelled? = .succeeded ↔ status = .succeeded := by
  cases status <;> decide

theorem terminal_of_fits (h : parent.fits child = true) (hparent : parent.Terminal) :
    child.Terminal := by
  revert h hparent
  cases parent <;> cases child <;> decide

theorem fits_running_of_active (hparent : parent.Active) (h : parent.fits child = true) :
    running.fits child = true := by
  revert h hparent
  cases parent <;> cases child <;> decide

theorem fits_cancelled?_of_active (hstatus : status.Broken) (hparent : parent.Active)
    (h : parent.fits child = true) : status.fits child.cancelled? = true := by
  rcases hstatus with rfl | rfl
  all_goals
    revert h hparent
    cases parent <;> cases child <;> decide

theorem Broken.fits_self (h : status.Broken) : status.fits status = true := by
  rcases h with rfl | rfl <;> decide

theorem Broken.terminal (h : status.Broken) : status.Terminal := by
  rcases h with rfl | rfl <;> decide

theorem Broken.ne_succeeded (h : status.Broken) : status ≠ .succeeded := by
  rcases h with rfl | rfl <;> decide

theorem Active.ne_succeeded (h : status.Active) : status ≠ .succeeded := by
  rcases h with rfl | rfl <;> decide

end PipelineStatus

open PipelineStatus

/-- A node and its children. -/
structure Family (parent : PipelineStatus) (children : List PipelineStatus) : Prop where
  fits : ∀ child ∈ children, parent.fits child = true
  unfinished : parent ≠ .succeeded → ∃ child ∈ children, child ≠ .succeeded

namespace Family

variable {parent status : PipelineStatus} {children : List PipelineStatus} {i : Nat}

theorem succeeded_iff (h : Family parent children) :
    parent = .succeeded ↔ ∀ child ∈ children, child = .succeeded := by
  constructor
  · rintro rfl child hchild
    simpa [PipelineStatus.fits] using h.fits child hchild
  · intro hall
    refine Decidable.byContradiction fun hparent => ?_
    obtain ⟨child, hchild, hne⟩ := h.unfinished hparent
    exact hne (hall child hchild)

theorem terminal (h : Family parent children) (hparent : parent.Terminal) :
    ∀ child ∈ children, child.Terminal :=
  fun child hchild => terminal_of_fits (h.fits child hchild) hparent

/-- An active node is running. -/
theorem begin (h : Family parent children) (hparent : parent.Active) :
    Family .running children where
  fits child hchild := fits_running_of_active hparent (h.fits child hchild)
  unfinished _ := h.unfinished hparent.ne_succeeded

/-- A child of a running node is active. -/
theorem set_active (h : Family .running children) (hi : i < children.length)
    (hstatus : status.Active) : Family .running (children.set i status) where
  fits child hchild := by
    rcases List.mem_or_eq_of_mem_set hchild with hold | rfl
    · exact h.fits child hold
    · rcases hstatus with rfl | rfl <;> decide
  unfinished _ := ⟨status, List.mem_set hi status, hstatus.ne_succeeded⟩

/-- A running node after its children have been counted. -/
theorem count (h : ∀ child ∈ children, running.fits child = true) :
    Family (running.counted children) children := by
  unfold counted
  split
  · next hall =>
    refine ⟨fun child hchild => ?_, fun hne => absurd rfl hne⟩
    rw [hall child hchild]
    rfl
  · next hnot => exact ⟨h, fun _ => by simpa using hnot⟩

theorem counted_eq (h : Family parent children) : parent.counted children = parent := by
  unfold counted
  split
  · next hall => exact (h.succeeded_iff.mpr hall).symm
  · rfl

/-- A node is broken and its children end. -/
theorem ended (hfits : ∀ child ∈ children, status.fits child.cancelled? = true)
    (hunfinished : ∃ child ∈ children, child ≠ .succeeded) :
    Family status (children.map cancelled?) where
  fits child hchild := by
    obtain ⟨old, hold, rfl⟩ := List.mem_map.mp hchild
    exact hfits old hold
  unfinished _ := by
    obtain ⟨child, hchild, hne⟩ := hunfinished
    exact ⟨child.cancelled?, List.mem_map_of_mem hchild, by simpa using hne⟩

/-- An active node is broken. -/
theorem break_ (h : Family parent children) (hparent : parent.Active) (hstatus : status.Broken) :
    Family status (children.map cancelled?) :=
  ended (fun child hchild => fits_cancelled?_of_active hstatus hparent (h.fits child hchild))
    (h.unfinished hparent.ne_succeeded)

/-- An active node is broken with one of its children. -/
theorem break_at (h : Family parent children) (hparent : parent.Active) (hstatus : status.Broken)
    (hi : i < children.length) : Family status ((children.set i status).map cancelled?) := by
  refine ended ?_ ⟨status, List.mem_set hi status, hstatus.ne_succeeded⟩
  intro child hchild
  rcases List.mem_or_eq_of_mem_set hchild with hold | rfl
  · exact fits_cancelled?_of_active hstatus hparent (h.fits child hold)
  · rw [cancelled?_of_terminal hstatus.terminal]
    exact hstatus.fits_self

/-- Nothing is left to cancel. -/
theorem map_cancelled? (h : Family parent children) (hparent : parent.Terminal) :
    children.map cancelled? = children := by
  have hsame : children.map cancelled? = children.map id := by
    apply List.map_congr_left
    intro child hchild
    exact cancelled?_of_terminal (h.terminal hparent child hchild)
  rw [hsame, List.map_id]

/-- What is left of an active node that is cancelled, or of one that has ended. -/
theorem cancel (h : Family parent children) :
    Family parent.cancelled? (children.map cancelled?) := by
  rcases active_or_terminal parent with hactive | hterminal
  · rw [cancelled?_of_active hactive]
    exact h.break_ hactive (.inr rfl)
  · rw [cancelled?_of_terminal hterminal, h.map_cancelled? hterminal]
    exact h

end Family

/-! ## Two levels -/

/-- The status of a stage and those of its jobs. -/
abbrev StageShape := PipelineStatus × List PipelineStatus

/-- The status of a run and the shapes of its stages. -/
abbrev RunShape := PipelineStatus × List StageShape

/-- Whatever is not over is cancelled. -/
def cancelStage (stage : StageShape) : StageShape := (stage.1.cancelled?, stage.2.map cancelled?)

/-- Every node fits its children, from the run to the jobs. -/
structure Coherent (run : RunShape) : Prop where
  stages : Family run.1 (run.2.map Prod.fst)
  jobs : ∀ stage ∈ run.2, Family stage.1 stage.2

namespace Coherent

variable {status : PipelineStatus} {run : RunShape} {stage : StageShape} {i : Nat}

/-- The status of a stage with its run. -/
theorem fits (h : Coherent run) (hi : run.2[i]? = some stage) : run.1.fits stage.1 = true :=
  h.stages.fits _ (List.mem_map_of_mem (List.mem_of_getElem? hi))

theorem family (h : Coherent run) (hi : run.2[i]? = some stage) : Family stage.1 stage.2 :=
  h.jobs stage (List.mem_of_getElem? hi)

theorem jobs_set (h : Coherent run) (hstage : Family stage.1 stage.2) :
    ∀ other ∈ run.2.set i stage, Family other.1 other.2 := by
  intro other hother
  rcases List.mem_or_eq_of_mem_set hother with hold | rfl
  · exact h.jobs other hold
  · exact hstage

theorem begin (h : Coherent run) (hrun : run.1.Active) : Coherent (.running, run.2) :=
  ⟨h.stages.begin hrun, h.jobs⟩

/-- A stage of a running run is active. -/
theorem set_active {stages : List StageShape} (h : Coherent (.running, stages))
    (hi : i < stages.length) (hstage : Family stage.1 stage.2) (hactive : stage.1.Active) :
    Coherent (.running, stages.set i stage) where
  stages := by
    rw [List.map_set]
    exact h.stages.set_active (by rwa [List.length_map]) hactive
  jobs := h.jobs_set hstage

/-- A running run after its stages have been counted, with one of them set. -/
theorem count {stages : List StageShape} (h : Coherent (.running, stages))
    (hstage : Family stage.1 stage.2) (hfits : running.fits stage.1 = true) :
    Coherent (running.counted ((stages.set i stage).map Prod.fst), stages.set i stage) where
  stages := by
    apply Family.count
    intro other hother
    rw [List.map_set] at hother
    rcases List.mem_or_eq_of_mem_set hother with hold | rfl
    · exact h.stages.fits other hold
    · exact hfits
  jobs := h.jobs_set hstage

/-- An active run is broken. -/
theorem break_ (h : Coherent run) (hrun : run.1.Active) (hstatus : status.Broken) :
    Coherent (status, run.2.map cancelStage) where
  stages := by
    have hmap : (run.2.map cancelStage).map Prod.fst = (run.2.map Prod.fst).map cancelled? := by
      rw [List.map_map, List.map_map]
      rfl
    rw [hmap]
    exact h.stages.break_ hrun hstatus
  jobs := by
    intro other hother
    obtain ⟨old, hold, rfl⟩ := List.mem_map.mp hother
    exact (h.jobs old hold).cancel

/-- Nothing is left to cancel. -/
theorem map_cancelStage (h : Coherent run) (hrun : run.1.Terminal) :
    run.2.map cancelStage = run.2 := by
  have hsame : run.2.map cancelStage = run.2.map id := by
    apply List.map_congr_left
    intro stage hstage
    have hterminal := h.stages.terminal hrun stage.1 (List.mem_map_of_mem hstage)
    exact Prod.ext (cancelled?_of_terminal hterminal)
      ((h.jobs stage hstage).map_cancelled? hterminal)
  rw [hsame, List.map_id]

/-- An active run is broken, or it was before. -/
theorem broken (h : Coherent run) (hstatus : status.Broken) (hrun : run.1.Active ∨ run.1 = status) :
    Coherent (status, run.2.map cancelStage) := by
  rcases hrun with hactive | rfl
  · exact h.break_ hactive hstatus
  · rw [h.map_cancelStage hstatus.terminal]
    exact h

/-- An active run is broken with one of its stages. -/
theorem break_at (h : Coherent run) (hrun : run.1.Active) (hstatus : status.Broken)
    (hi : i < run.2.length) {children : List PipelineStatus} (hstage : Family status children) :
    Coherent (status, (run.2.set i (status, children)).map cancelStage) where
  stages := by
    have hmap : ((run.2.set i (status, children)).map cancelStage).map Prod.fst
        = ((run.2.map Prod.fst).set i status).map cancelled? := by
      simp only [List.map_set, List.map_map]
      rfl
    rw [hmap]
    exact h.stages.break_at hrun hstatus (by rwa [List.length_map])
  jobs := by
    intro other hother
    obtain ⟨old, hold, rfl⟩ := List.mem_map.mp hother
    exact (h.jobs_set hstage old hold).cancel

end Coherent

end QaPlatform.Pipeline
