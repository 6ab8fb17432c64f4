import QaPlatform.Base.Transition
import QaPlatform.Services.AttachmentStorage

/-!
# Artifacts of provider runs

`ProviderRunArtifactService.create` and `ProviderRunArtifactService.delete`
(`app/runtime/artifacts.py`). A row is pending until its object is stored, and deleted after
its object is in the trash. A compensation that fails leaves what it would have undone. A
transaction that finds no run raises before it takes effect, as one does that is cancelled.
-/

namespace QaPlatform.Runtime

open Services
  (Measures StorageKey StorageRegistry StoredObjects StoredUpload UploadLabel WriteOutcome)

/-- `ArtifactStatus`. -/
inductive ArtifactStatus where
  | pending
  | ready
  | failed
  | deleted
  deriving DecidableEq

/-- The row of an artifact. -/
structure ProviderRunArtifactRecord where
  id : Uuid
  status : ArtifactStatus
  originalFilename : String
  storageBackend : String
  storageNamespace : String
  storageKey : StorageKey
  mediaType : Option String
  /-- Zero until the content is final. -/
  sizeBytes : Nat
  sha256 : Option String
  errorCode : Option String
  updatedAt : Instant
  readyAt : Option Instant
  failedAt : Option Instant
  deletedAt : Option Instant
  deriving DecidableEq

/-- What a create raises, as far as `_safe_error_code` tells it apart. -/
inductive CreateError where
  | storageUnavailable
  | storageIntegrity
  | businessValidation
  | other
  deriving DecidableEq

/-- `_safe_error_code`. -/
def safeErrorCode (error : CreateError) (phase : String) : String :=
  match error with
  | .storageUnavailable => "storage_unavailable"
  | .storageIntegrity => "storage_integrity"
  | .businessValidation => "artifact_rejected"
  | .other => phase ++ "_failed"

/-- Where the creation of an artifact is. -/
inductive ArtifactCreation where
  | absent
  | saving
  | finalizing (stored : StoredUpload)
  | discarding (errorCode : String)
  | failing (errorCode : String)
  | ended
  deriving DecidableEq

/-- Where a deletion is. -/
inductive ArtifactDeletion where
  /-- It has found the row failed. -/
  | clearing
  | cleared
  /-- It has found the row ready. -/
  | quarantining
  | quarantined
  | restoring
  | ended
  /-- Its quarantine has raised, or its restore. -/
  | raised
  deriving DecidableEq

/-- An artifact identifier: its row, what the storage has under it, and the operations on it. -/
structure ArtifactFiling (β : Type) where
  row : Option ProviderRunArtifactRecord
  objects : StoredObjects β
  creation : ArtifactCreation
  deletions : List ArtifactDeletion
  deriving DecidableEq

/-- A statement of a creation or of a deletion, and how the database or the storage answers it. -/
inductive ArtifactEvent (β : Type) where
  /-- `_create_pending`, and whether `_audit_created` returns. -/
  | create (filename : String) (now : Instant) (outcome : WriteOutcome) (audited : Bool)
  | save (label : UploadLabel) (content : β) (outcome : WriteOutcome) (error : CreateError)
  | finalizeReady (now : Instant) (outcome : WriteOutcome) (error : CreateError)
  /-- `_best_effort_discard`. -/
  | discard (outcome : WriteOutcome)
  /-- `_best_effort_fail`. -/
  | markFailed (now : Instant) (outcome : WriteOutcome)
  | delete
  /-- The discard of what a failed artifact may have. -/
  | clear (p : Nat) (outcome : WriteOutcome)
  | quarantine (p : Nat) (leftBehind : Bool) (outcome : WriteOutcome)
  | markDeleted (p : Nat) (now : Instant) (outcome : WriteOutcome)
  | restore (p : Nat) (leftBehind : Bool) (outcome : WriteOutcome)
  deriving DecidableEq

namespace ArtifactFiling

variable {β : Type}

/-- Before anything has been filed. -/
def empty : ArtifactFiling β := ⟨none, .empty, .absent, []⟩

/-- The row that `_create_pending` adds. -/
def pendingRow (registry : StorageRegistry) (id : Uuid) (filename : String) (now : Instant) :
    ProviderRunArtifactRecord where
  id
  status := .pending
  originalFilename := filename
  storageBackend := registry.writeBackend
  storageNamespace := registry.writeNamespace
  storageKey := ⟨id⟩
  mediaType := none
  sizeBytes := 0
  sha256 := none
  errorCode := none
  updatedAt := now
  readyAt := none
  failedAt := none
  deletedAt := none

/-- The row that `_finalize_ready` writes. -/
def readyRow (stored : StoredUpload) (now : Instant) (r : ProviderRunArtifactRecord) :
    ProviderRunArtifactRecord :=
  { r with
    status := .ready
    originalFilename := stored.originalFilename
    mediaType := some stored.mediaType
    sizeBytes := stored.sizeBytes
    sha256 := some stored.sha256
    errorCode := none
    updatedAt := now
    readyAt := some now
    failedAt := none }

/-- The row of an artifact whose upload has failed. -/
def failedRow (errorCode : String) (now : Instant) (r : ProviderRunArtifactRecord) :
    ProviderRunArtifactRecord :=
  { r with status := .failed, errorCode := some errorCode, updatedAt := now, failedAt := some now }

/-- The row of an artifact that has been deleted. -/
def deletedRow (now : Instant) (r : ProviderRunArtifactRecord) : ProviderRunArtifactRecord :=
  { r with status := .deleted, updatedAt := now, deletedAt := some now }

/-- The write of a transition that only rows of one status make. -/
def transition (status : ArtifactStatus)
    (write : ProviderRunArtifactRecord → ProviderRunArtifactRecord)
    (row : Option ProviderRunArtifactRecord) : Option (Option ProviderRunArtifactRecord) :=
  match row with
  | none => none
  | some r => if r.status = status then some (some (write r)) else none

/-- `_mark_deleted`, and whether it returns. -/
def markedDeleted (expected : ArtifactStatus) (now : Instant) (outcome : WriteOutcome)
    (row : Option ProviderRunArtifactRecord) : Option ProviderRunArtifactRecord × Bool :=
  if row.any (·.status = .deleted) then (row, outcome = .done)
  else outcome.apply (transition expected (deletedRow now) row) row

/-- The creation after its row has been added, or not. -/
def started (registry : StorageRegistry) (id : Uuid) (f : ArtifactFiling β) (filename : String)
    (now : Instant) (outcome : WriteOutcome) (audited : Bool) : ArtifactFiling β :=
  let (row, returned) := outcome.apply (some (some (pendingRow registry id filename now))) f.row
  { f with row, creation := if returned ∧ audited then .saving else .ended }

/-- The creation after the storage has answered the save. -/
def saved (measures : Measures β) (id : Uuid) (f : ArtifactFiling β) (label : UploadLabel)
    (content : β) (outcome : WriteOutcome) (error : CreateError) : ArtifactFiling β :=
  let (objects, returned) := outcome.apply (some (f.objects.save content)) f.objects
  let stored := measures.storedUpload id label content
  { f with
    objects
    creation :=
      if returned = false then .discarding (safeErrorCode error "upload")
      else if stored.storageKey ≠ ⟨id⟩ then .discarding "storage_contract_mismatch"
      else .finalizing stored }

/-- The creation after the transaction that makes its row ready. -/
def finalized (f : ArtifactFiling β) (stored : StoredUpload) (now : Instant)
    (outcome : WriteOutcome) (error : CreateError) : ArtifactFiling β :=
  if stored.sizeBytes = 0 then
    { f with creation := .discarding (safeErrorCode .storageIntegrity "finalize") }
  else
    let (row, returned) := outcome.apply (transition .pending (readyRow stored now) f.row) f.row
    { f with
      row
      creation := if returned then .ended else .discarding (safeErrorCode error "finalize") }

/-- The deletion after the storage has answered its quarantine. -/
def quarantineDone (f : ArtifactFiling β) (p : Nat) (leftBehind : Bool) (outcome : WriteOutcome) :
    ArtifactFiling β :=
  let (objects, returned) := outcome.apply (f.objects.quarantine leftBehind) f.objects
  { f with objects, deletions := f.deletions.set p (if returned then .quarantined else .raised) }

/-- The deletion after the storage has put the object back, or not. -/
def restoreDone (f : ArtifactFiling β) (p : Nat) (leftBehind : Bool) (outcome : WriteOutcome) :
    ArtifactFiling β :=
  let (objects, returned) := outcome.apply (f.objects.restore leftBehind) f.objects
  { f with objects, deletions := f.deletions.set p (if returned then .ended else .raised) }

/-- One statement; one that is not due changes nothing. -/
def step (measures : Measures β) (registry : StorageRegistry) (id : Uuid) (f : ArtifactFiling β) :
    ArtifactEvent β → ArtifactFiling β
  | .create filename now outcome audited =>
    if f.creation = .absent then f.started registry id filename now outcome audited else f
  | .save label content outcome error =>
    if f.creation = .saving then f.saved measures id label content outcome error else f
  | .finalizeReady now outcome error =>
    match f.creation with
    | .finalizing stored => f.finalized stored now outcome error
    | .absent | .saving | .discarding _ | .failing _ | .ended => f
  | .discard outcome =>
    match f.creation with
    | .discarding errorCode =>
      { f with
        objects := (outcome.apply (some f.objects.discard) f.objects).1
        creation := .failing errorCode }
    | .absent | .saving | .finalizing _ | .failing _ | .ended => f
  | .markFailed now outcome =>
    match f.creation with
    | .failing errorCode =>
      { f with
        row := (outcome.apply (transition .pending (failedRow errorCode now) f.row) f.row).1
        creation := .ended }
    | .absent | .saving | .finalizing _ | .discarding _ | .ended => f
  | .delete =>
    match f.row with
    | none => f
    | some r =>
      if registry.hasStorage r.storageBackend r.storageNamespace then
        match r.status with
        | .failed => { f with deletions := f.deletions ++ [.clearing] }
        | .ready => { f with deletions := f.deletions ++ [.quarantining] }
        | .pending | .deleted => f
      else f
  | .clear p outcome =>
    if f.deletions[p]? = some .clearing then
      let (objects, returned) := outcome.apply (some f.objects.discard) f.objects
      { f with objects, deletions := f.deletions.set p (if returned then .cleared else .ended) }
    else f
  | .quarantine p leftBehind outcome =>
    if f.deletions[p]? = some .quarantining then f.quarantineDone p leftBehind outcome else f
  | .markDeleted p now outcome =>
    match f.deletions[p]? with
    | some .cleared =>
      { f with
        row := (markedDeleted .failed now outcome f.row).1
        deletions := f.deletions.set p .ended }
    | some .quarantined =>
      let (row, returned) := markedDeleted .ready now outcome f.row
      { f with row, deletions := f.deletions.set p (if returned then .ended else .restoring) }
    | some .clearing | some .quarantining | some .restoring | some .ended | some .raised | none => f
  | .restore p leftBehind outcome =>
    if f.deletions[p]? = some .restoring then f.restoreDone p leftBehind outcome else f

end ArtifactFiling

end QaPlatform.Runtime
