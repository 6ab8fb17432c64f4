import QaPlatform.Services.Models

/-!
# The attachment storage

The port of `app/services/attachment_storage.py`: what a storage keeps of one attachment
identifier, from which it makes its keys. A call takes effect as a whole or not at all; one
that raises may have taken effect.
-/

namespace QaPlatform.Services

/-- `f"\x7bid.hex[:2]\x7d/\x7bid.hex\x7d"`. -/
structure StorageKey where
  attachmentId : Uuid
  deriving DecidableEq

/-- `StoredUpload`. -/
structure StoredUpload where
  originalFilename : String
  storageKey : StorageKey
  mediaType : String
  sizeBytes : Nat
  sha256 : String
  isImage : Bool
  deriving DecidableEq

/-- What is measured of contents. -/
structure Measures (β : Type) where
  sizeBytes : β → Nat
  sha256 : β → String

/-- A name and a type as a storage has validated them. -/
structure UploadLabel where
  originalFilename : String
  mediaType : String
  isImage : Bool
  deriving DecidableEq

/-- What `save` returns for a content. -/
def Measures.storedUpload {β : Type} (measures : Measures β) (id : Uuid) (label : UploadLabel)
    (content : β) : StoredUpload where
  originalFilename := label.originalFilename
  storageKey := ⟨id⟩
  mediaType := label.mediaType
  sizeBytes := measures.sizeBytes content
  sha256 := measures.sha256 content
  isImage := label.isImage

/-- The storages by their names with their namespaces, and the one that is written to. -/
structure StorageRegistry where
  storages : String → Option String
  writeBackend : String

/-- `namespace` of the storage that is written to. -/
def StorageRegistry.writeNamespace (registry : StorageRegistry) : String :=
  (registry.storages registry.writeBackend).getD ""

/-- `_storage_for` finds the storage. -/
def StorageRegistry.hasStorage (registry : StorageRegistry)
    (storageBackend storageNamespace : String) : Bool :=
  registry.storages storageBackend == some storageNamespace

/-- The object at the key of an attachment, and the one in the trash. -/
structure StoredObjects (β : Type) where
  original : Option β
  quarantined : Option β
  deriving DecidableEq

/-- The state after a call, and whether it has returned. `none` is the effect of a call that the
state refuses. -/
def WriteOutcome.apply {σ : Type} (outcome : WriteOutcome) (effect : Option σ) (s : σ) : σ × Bool :=
  match outcome, effect with
  | .raisedBefore, _ | .raisedAfter, none | .done, none => (s, false)
  | .raisedAfter, some s' => (s', false)
  | .done, some s' => (s', true)

namespace StoredObjects

variable {β : Type}

/-- Nothing is stored under either key. -/
def empty : StoredObjects β := ⟨none, none⟩

/-- The object is put under its key. -/
def save (content : β) (o : StoredObjects β) : StoredObjects β :=
  { o with original := some content }

/-- The object is removed from its key. -/
def discard (o : StoredObjects β) : StoredObjects β := { o with original := none }

/-- The object is moved to the trash; a copy may be left where it was. -/
def quarantine (leftBehind : Bool) (o : StoredObjects β) : Option (StoredObjects β) :=
  o.original.map fun content => ⟨if leftBehind then some content else none, some content⟩

/-- The object is moved back; a copy may be left in the trash. -/
def restore (leftBehind : Bool) (o : StoredObjects β) : Option (StoredObjects β) :=
  o.quarantined.map fun content => ⟨some content, if leftBehind then some content else none⟩

/-- No other content is kept. -/
def Only (content : β) (o : StoredObjects β) : Prop :=
  (∀ c ∈ o.original, c = content) ∧ ∀ c ∈ o.quarantined, c = content

section
variable {o o' : StoredObjects β} {content : β} {leftBehind : Bool}

theorem Only.discard (h : Only content o) : Only content o.discard :=
  ⟨fun _ hc => (nomatch hc), h.2⟩

theorem Only.quarantine (h : Only content o) (hq : o.quarantine leftBehind = some o') :
    Only content o' ∧ o.original = some content ∧ o'.quarantined = some content
      ∧ (leftBehind = true → o'.original = some content) := by
  obtain ⟨c, hc, rfl⟩ := Option.map_eq_some_iff.mp hq
  obtain rfl := h.1 c hc
  refine ⟨⟨fun c' hc' => ?_, fun c' hc' => ?_⟩, hc, rfl, fun hleft => if_pos hleft⟩
  · dsimp only at hc'
    split at hc'
    · exact (Option.some.inj hc').symm
    · cases hc'
  · exact (Option.some.inj hc').symm

theorem Only.restore (h : Only content o) (hr : o.restore leftBehind = some o') :
    Only content o' ∧ o'.original = some content := by
  obtain ⟨c, hc, rfl⟩ := Option.map_eq_some_iff.mp hr
  obtain rfl := h.2 c hc
  refine ⟨⟨fun c' hc' => (Option.some.inj hc').symm, fun c' hc' => ?_⟩, rfl⟩
  dsimp only at hc'
  split at hc'
  · exact (Option.some.inj hc').symm
  · cases hc'

theorem Only.original_eq (h : Only content o) (hsome : o.original.isSome = true) :
    o.original = some content := by
  obtain ⟨c, hc⟩ := Option.isSome_iff_exists.mp hsome
  rw [hc, h.1 c hc]

end

end StoredObjects

/-- A call leaves the state alone or has taken its effect. -/
theorem WriteOutcome.apply_cases {σ : Type} (outcome : WriteOutcome) (effect : Option σ) (s : σ) :
    outcome.apply effect s = (s, false)
      ∨ (∃ s', effect = some s' ∧ outcome = .raisedAfter ∧ outcome.apply effect s = (s', false))
      ∨ ∃ s', effect = some s' ∧ outcome = .done ∧ outcome.apply effect s = (s', true) := by
  cases effect with
  | none => cases outcome <;> exact .inl rfl
  | some s' =>
    cases outcome with
    | done => exact .inr (.inr ⟨s', rfl, rfl, rfl⟩)
    | raisedBefore => exact .inl rfl
    | raisedAfter => exact .inr (.inl ⟨s', rfl, rfl, rfl⟩)

end QaPlatform.Services
