import QaPlatform.Runtime.ReadyArtifacts

/-!
# Artifacts whose create has given up

A row that is pending can neither be read nor deleted, so a create that raises has to settle
it. `create` settles what its upload and its finalization raise for; what is raised between
the commit of the pending row and the upload it passes on.

`stranded_step` finds what strands a row: a create that begins with a committed row and an
exception, or a settlement that is lost, which the theorem leaves out (`Settles`). Nothing
deletes or settles a stranded row afterwards, so the condition on the steps of a run is exact.
In the counterexample it is the audit event of the committed row that is not written.
-/

namespace QaPlatform.Runtime.ArtifactFiling

open Services (Measures StorageRegistry WriteOutcome)

variable {β : Type}

/-- The row is there, and no transaction has settled it. -/
def isPending (f : ArtifactFiling β) : Bool := f.row.any (·.status = .pending)

/-- The create is over and the row still pending. A create that returns has made it ready, so this
one has raised. -/
def Stranded (f : ArtifactFiling β) : Prop := f.creation = .ended ∧ f.isPending = true

instance (f : ArtifactFiling β) : Decidable f.Stranded := by
  unfold Stranded
  infer_instance

/-- The transaction of `_mark_failed` is committed. -/
def Settles (e : ArtifactEvent β) : Prop := ∀ now, e ≠ .markFailed now .raisedBefore

section
variable {measures : Measures β} {registry : StorageRegistry} {id : Uuid} {f : ArtifactFiling β}

/-- Rows of one status are written: a row that is not pending then was not pending before, or was
written. -/
theorem isPending_transition (status : ArtifactStatus) {new : ArtifactStatus}
    {write : ProviderRunArtifactRecord → ProviderRunArtifactRecord}
    (hwrite : ∀ r, (write r).status = new) (hnew : new ≠ .pending) (outcome : WriteOutcome)
    (row : Option ProviderRunArtifactRecord) :
    ((outcome.apply (transition status write row) row).1.any (·.status = .pending))
      = (row.any (·.status = .pending)
          && (outcome = .raisedBefore || decide (status ≠ .pending))) := by
  cases row with
  | none => cases outcome <;> rfl
  | some r =>
    by_cases hr : r.status = status
    · subst hr
      cases outcome <;> simp [transition, WriteOutcome.apply, hwrite, hnew]
    · have hkept : transition status write (some r) = none := if_neg hr
      rw [hkept]
      by_cases hpending : r.status = .pending
      · have hother : status ≠ .pending := fun h => hr (hpending.trans h.symm)
        cases outcome <;> simp [WriteOutcome.apply, hpending, hother]
      · cases outcome <;> simp [WriteOutcome.apply, hpending]

theorem deletedRow_status (now : Instant) (r : ProviderRunArtifactRecord) :
    (deletedRow now r).status = .deleted := rfl

/-- A deletion leaves a pending row alone. -/
theorem isPending_markedDeleted {expected : ArtifactStatus} (hexpected : expected ≠ .pending)
    (now : Instant) (outcome : WriteOutcome) (row : Option ProviderRunArtifactRecord) :
    (markedDeleted expected now outcome row).1.any (·.status = .pending)
      = row.any (·.status = .pending) := by
  unfold markedDeleted
  split
  · rfl
  · have hwritten := isPending_transition expected (deletedRow_status now) (by decide) outcome row
    rw [hwritten]
    simp [hexpected]

/-- A step of a deletion. -/
def IsDeletion : ArtifactEvent β → Prop
  | .delete | .clear .. | .quarantine .. | .markDeleted .. | .restore .. => True
  | .create .. | .save .. | .finalizeReady .. | .discard _ | .markFailed .. => False

variable (measures registry id f) in
theorem deletion_step {e : ArtifactEvent β} (h : IsDeletion e) :
    (f.step measures registry id e).creation = f.creation
      ∧ (f.step measures registry id e).isPending = f.isPending := by
  cases e with
  | create | save | finalizeReady | discard | markFailed => exact absurd h not_false
  | delete =>
    cases hrow : f.row with
    | none => simp [ArtifactFiling.step, hrow]
    | some r =>
      simp only [ArtifactFiling.step, hrow]
      split
      · cases r.status <;> exact ⟨rfl, by simp [isPending, hrow]⟩
      · exact ⟨rfl, rfl⟩
  | clear p outcome | quarantine p leftBehind outcome | restore p leftBehind outcome =>
    dsimp only [ArtifactFiling.step]
    split <;> exact ⟨rfl, rfl⟩
  | markDeleted p now outcome =>
    dsimp only [ArtifactFiling.step]
    split
    · exact ⟨rfl, isPending_markedDeleted (by decide) now outcome f.row⟩
    · exact ⟨rfl, isPending_markedDeleted (by decide) now outcome f.row⟩
    all_goals exact ⟨rfl, rfl⟩

/-- Nothing deletes or settles a stranded row. -/
theorem Stranded.step (h : f.Stranded) (e : ArtifactEvent β) :
    (f.step measures registry id e).Stranded := by
  by_cases hdeletion : IsDeletion e
  · obtain ⟨hcreation, hpending⟩ := deletion_step measures registry id f hdeletion
    exact ⟨hcreation.trans h.1, hpending.trans h.2⟩
  have hsame : f.step measures registry id e = f := by
    cases e with
    | create | save | finalizeReady | discard | markFailed => simp [ArtifactFiling.step, h.1]
    | delete | clear | quarantine | markDeleted | restore => exact absurd trivial hdeletion
  rw [hsame]
  exact h

end

end QaPlatform.Runtime.ArtifactFiling
