import QaPlatform.Base.Slots
import QaPlatform.Base.Transition
import QaPlatform.Services.AttachmentStorage

/-!
# Attachments

`AttachmentService.create` and `AttachmentService.delete` (`app/services/attachments.py`).
The operations of different attachments share the business lock and nothing else. What
happens under the lock is one step, and what a target says to an operation is an argument.

Along careful steps `Kept` holds of an identifier: what is recorded in its row is under its key,
or in the hands of a deletion that will bring it back. A step is not careful when it takes the
object from its key and ends, as a creation does that discards the object of a row that has been
committed although the call raised. This is the counterexample, and with `Careful` the theorem
holds over all interleavings.
-/

namespace QaPlatform.Services

/-- `Attachment`, with the fields that its service reads. -/
structure Attachment where
  id : Uuid
  uploaderId : Uuid
  uploaderName : String
  originalFilename : String
  storageBackend : String
  storageNamespace : String
  storageKey : StorageKey
  mediaType : String
  sizeBytes : Nat
  sha256 : String
  isImage : Bool
  deletedAt : Option Instant
  deletedById : Option Uuid
  deriving DecidableEq

/-- A principal, and whether it has the permission `ATTACHMENT_MODERATE`. -/
structure AttachmentPrincipal where
  userId : Uuid
  displayName : String
  moderates : Bool
  deriving DecidableEq

/-- Where the creation of an attachment is. -/
inductive Creation where
  | absent
  /-- The target is valid and the identifier drawn. -/
  | saving
  | saved (stored : StoredUpload)
  /-- It has raised before `created` is set. -/
  | discarding
  | ended
  deriving DecidableEq

/-- Where a deletion is. -/
inductive Deletion where
  | validated (attachment : Attachment)
  /-- The object is in the trash. -/
  | quarantined (attachment : Attachment)
  /-- It has raised before `saved` is set. -/
  | restoring
  | ended
  deriving DecidableEq

/-- An attachment identifier: its row, what the storage has under it, and the operations on it. -/
structure Filing (β : Type) where
  row : Option Attachment
  objects : StoredObjects β
  creation : Creation
  deletions : List Deletion
  deriving DecidableEq

/-- A statement of a creation or of a deletion, and how the database or the storage answers it. -/
inductive FilingEvent (β : Type) where
  | create
  /-- `storage.save`. -/
  | save (label : UploadLabel) (content : β) (outcome : WriteOutcome)
  /-- `attachments.create`, if the target is still valid. -/
  | record (principal : AttachmentPrincipal) (resolves : Bool) (outcome : WriteOutcome)
  /-- `storage.discard`. -/
  | discard
  | delete (principal : AttachmentPrincipal) (resolves : Bool)
  | quarantine (p : Nat) (leftBehind : Bool) (outcome : WriteOutcome)
  /-- `attachments.update`, if the attachment may still be deleted. -/
  | markDeleted (p : Nat) (principal : AttachmentPrincipal) (resolves : Bool) (now : Instant)
      (outcome : WriteOutcome)
  /-- `storage.restore`. -/
  | restore (p : Nat) (leftBehind : Bool)
  deriving DecidableEq

namespace Filing

variable {β : Type}

/-- Before anything has been filed. -/
def empty : Filing β := ⟨none, .empty, .absent, []⟩

/-- The row that a creation adds. -/
def newAttachment (registry : StorageRegistry) (id : Uuid) (principal : AttachmentPrincipal)
    (stored : StoredUpload) : Attachment where
  id
  uploaderId := principal.userId
  uploaderName := principal.displayName
  originalFilename := stored.originalFilename
  storageBackend := registry.writeBackend
  storageNamespace := registry.writeNamespace
  storageKey := stored.storageKey
  mediaType := stored.mediaType
  sizeBytes := stored.sizeBytes
  sha256 := stored.sha256
  isImage := stored.isImage
  deletedAt := none
  deletedById := none

/-- `_validate_delete`. -/
def validateDelete (attachment : Attachment) (principal : AttachmentPrincipal) (resolves : Bool) :
    Bool :=
  resolves && (attachment.uploaderId == principal.userId || principal.moderates)

/-- Two rows are stored in one place. -/
def sameRouting (a b : Attachment) : Bool :=
  a.storageBackend == b.storageBackend && a.storageNamespace == b.storageNamespace
    && a.storageKey == b.storageKey

/-- The row of an attachment that has been deleted. -/
def markedDeleted (principal : AttachmentPrincipal) (now : Instant) (a : Attachment) : Attachment :=
  { a with deletedAt := some now, deletedById := some principal.userId }

/-- The row is written; the creation goes on unless the call raises. -/
def recorded (registry : StorageRegistry) (id : Uuid) (f : Filing β) (stored : StoredUpload)
    (principal : AttachmentPrincipal) (outcome : WriteOutcome) : Filing β :=
  let (row, returned) := outcome.apply
    (some (some (newAttachment registry id principal stored))) f.row
  { f with row, creation := if returned then .ended else .discarding }

/-- The deletion after the storage has answered its quarantine. -/
def quarantineDone (f : Filing β) (p : Nat) (attachment : Attachment) (leftBehind : Bool)
    (outcome : WriteOutcome) : Filing β :=
  let (objects, returned) := outcome.apply (f.objects.quarantine leftBehind) f.objects
  { f with
    objects
    deletions := f.deletions.set p (if returned then .quarantined attachment else .ended) }

/-- What a deletion does under the lock when it has quarantined the object. -/
def deletionDone (f : Filing β) (p : Nat) (attachment : Attachment)
    (principal : AttachmentPrincipal) (resolves : Bool) (now : Instant) (outcome : WriteOutcome) :
    Filing β :=
  match f.row with
  | none => { f with deletions := f.deletions.set p .restoring }
  | some current =>
    if validateDelete current principal resolves = false then
      { f with deletions := f.deletions.set p .restoring }
    else if current.deletedAt.isSome then { f with deletions := f.deletions.set p .ended }
    else if sameRouting current attachment = false then
      { f with deletions := f.deletions.set p .restoring }
    else
      let (row, returned) := outcome.apply (some (some (markedDeleted principal now current))) f.row
      { f with row, deletions := f.deletions.set p (if returned then .ended else .restoring) }

/-- One statement; one that is not due changes nothing. -/
def step (measures : Measures β) (registry : StorageRegistry) (id : Uuid) (f : Filing β) :
    FilingEvent β → Filing β
  | .create => if f.creation = .absent then { f with creation := .saving } else f
  | .save label content outcome =>
    if f.creation = .saving then
      let (objects, returned) := outcome.apply (some (f.objects.save content)) f.objects
      { f with
        objects
        creation := if returned then .saved (measures.storedUpload id label content) else .ended }
    else f
  | .record principal resolves outcome =>
    match f.creation with
    | .saved stored =>
      if resolves then f.recorded registry id stored principal outcome
      else { f with creation := .discarding }
    | .absent | .saving | .discarding | .ended => f
  | .discard =>
    if f.creation = .discarding
      then { f with objects := f.objects.discard, creation := .ended } else f
  | .delete principal resolves =>
    match f.row with
    | none => f
    | some attachment =>
      if validateDelete attachment principal resolves ∧ attachment.deletedAt = none
          ∧ registry.hasStorage attachment.storageBackend attachment.storageNamespace then
        { f with deletions := f.deletions ++ [.validated attachment] }
      else f
  | .quarantine p leftBehind outcome =>
    match f.deletions[p]? with
    | some (.validated attachment) => f.quarantineDone p attachment leftBehind outcome
    | some (.quarantined _) | some .restoring | some .ended | none => f
  | .markDeleted p principal resolves now outcome =>
    match f.deletions[p]? with
    | some (.quarantined attachment) => f.deletionDone p attachment principal resolves now outcome
    | some (.validated _) | some .restoring | some .ended | none => f
  | .restore p leftBehind =>
    match f.deletions[p]? with
    | some .restoring =>
      { f with
        objects := (f.objects.restore leftBehind).getD f.objects
        deletions := f.deletions.set p .ended }
    | some (.validated _) | some (.quarantined _) | some .ended | none => f

/-! ## Live attachments -/

/-- No operation is in progress. -/
def Idle (f : Filing β) : Prop :=
  (f.creation = .absent ∨ f.creation = .ended) ∧ ∀ d ∈ f.deletions, d = .ended

/-- The content is the one that a row records. -/
def Recorded (measures : Measures β) (attachment : Attachment) (content : β) : Prop :=
  measures.sizeBytes content = attachment.sizeBytes ∧ measures.sha256 content = attachment.sha256

/-- The row is there, and it is not marked as deleted. -/
def Live (f : Filing β) : Prop :=
  ∃ attachment, f.row = some attachment ∧ attachment.deletedAt = none

/-- The deletion can still put the object back. -/
def holdsReceipt : Deletion → Bool
  | .quarantined _ | .restoring => true
  | .validated _ | .ended => false

/-- No step takes the object of a live attachment from its key and ends: a creation that discards,
a deletion whose quarantine raises. -/
def Careful (f : Filing β) (e : FilingEvent β) : Prop :=
  f.Live → f.objects.original.isSome = true →
    (e = .discard → f.creation ≠ .discarding)
    ∧ ∀ p attachment, e = .quarantine p false .raisedAfter →
      f.deletions[p]? ≠ some (.validated attachment)

/-- What holds of an identifier along careful steps. -/
structure Kept (measures : Measures β) (id : Uuid) (f : Filing β) : Prop where
  /-- What the storage has is what the row records. -/
  row : ∀ attachment, f.row = some attachment → attachment.storageKey = ⟨id⟩
    ∧ ∃ content, Recorded measures attachment content ∧ f.objects.Only content
  /-- Nothing is deleted that is not recorded. -/
  unrecorded : f.row = none → f.objects.quarantined = none ∧ f.deletions = []
  early : f.creation = .absent ∨ f.creation = .saving → f.row = none
  saved : ∀ stored, f.creation = .saved stored → f.row = none ∧ stored.storageKey = ⟨id⟩
    ∧ ∃ content, f.objects.original = some content
      ∧ measures.sizeBytes content = stored.sizeBytes ∧ measures.sha256 content = stored.sha256
  /-- The object of a live attachment is at its key, or a deletion is to bring it back. -/
  live : f.Live → f.objects.original.isSome = true
    ∨ f.objects.quarantined.isSome = true ∧ ∃ d ∈ f.deletions, holdsReceipt d = true

section
variable {measures : Measures β} {registry : StorageRegistry} {id : Uuid} {f : Filing β}

/-- What is deleted has been recorded. -/
theorem Kept.recorded_of_deletion (h : Kept measures id f) {p : Nat} {d : Deletion}
    (hp : f.deletions[p]? = some d) : ∃ attachment, f.row = some attachment := by
  cases hrow : f.row with
  | none =>
    rw [(h.unrecorded hrow).2] at hp
    cases hp
  | some attachment => exact ⟨attachment, rfl⟩

/-- A deletion is moved on, and nothing else happens. -/
theorem Kept.set (h : Kept measures id f) {p : Nat} {old new : Deletion}
    (hp : f.deletions[p]? = some old)
    (hkeeps : f.Live → holdsReceipt old = true → holdsReceipt new = true) :
    Kept measures id { f with deletions := f.deletions.set p new } := by
  obtain ⟨attachment, hrow⟩ := h.recorded_of_deletion hp
  refine { h with unrecorded := fun hnone => ?_, live := fun hlive => ?_ }
  · exact absurd (hrow.symm.trans hnone) (fun h => nomatch h)
  · exact (h.live hlive).imp_right fun hheld => ⟨hheld.1, exists_mem_set hp (hkeeps hlive) hheld.2⟩

theorem Kept.save (h : Kept measures id f) (hsaving : f.creation = .saving) (label : UploadLabel)
    (content : β) (outcome : WriteOutcome) :
    Kept measures id (f.step measures registry id (.save label content outcome)) := by
  have hnone := h.early (.inr hsaving)
  have hempty := h.unrecorded hnone
  have hdead : ∀ {objects : StoredObjects β} {creation : Creation},
      ¬ Live { f with objects, creation } := by
    rintro objects creation ⟨attachment, hrow, -⟩
    exact absurd (hnone.symm.trans hrow) (fun h => nomatch h)
  have hrow : ∀ {P : Attachment → Prop}, ∀ attachment, f.row = some attachment → P attachment :=
    fun _ hrow => absurd (hnone.symm.trans hrow) (fun h => nomatch h)
  dsimp only [Filing.step]
  rw [if_pos hsaving]
  rcases outcome.apply_cases (some (f.objects.save content)) f.objects with heq | ⟨o', ho', -, heq⟩
    | ⟨o', ho', -, heq⟩
  · rw [heq]
    refine ⟨hrow, h.unrecorded, fun _ => hnone, fun _ h => (nomatch h),
      fun hlive => absurd hlive hdead⟩
  · rw [heq]
    obtain rfl := Option.some.inj ho'
    refine ⟨hrow, fun _ => hempty, fun _ => hnone, fun _ h => (nomatch h),
      fun hlive => absurd hlive hdead⟩
  · rw [heq]
    obtain rfl := Option.some.inj ho'
    refine ⟨hrow, fun _ => hempty, fun _ => hnone, fun stored hstored => ?_,
      fun hlive => absurd hlive hdead⟩
    obtain rfl := Creation.saved.inj hstored
    exact ⟨hnone, rfl, content, rfl, rfl, rfl⟩

theorem Kept.recorded (h : Kept measures id f) {stored : StoredUpload}
    (hsaved : f.creation = .saved stored) (principal : AttachmentPrincipal)
    (outcome : WriteOutcome) :
    Kept measures id (f.recorded registry id stored principal outcome) := by
  obtain ⟨hnone, hkey, content, hcontent, hsize, hsha⟩ := h.saved stored hsaved
  have hempty := h.unrecorded hnone
  -- the row, as soon as it is written
  have hwritten : ∀ creation, (creation = .discarding ∨ creation = .ended) →
      Kept measures id
        { f with row := some (newAttachment registry id principal stored), creation } := by
    intro creation hcreation
    refine ⟨fun attachment hrow => ?_, fun hrow => (nomatch hrow), fun hearly => ?_,
      fun stored hstored => ?_, fun _ => .inl (by rw [hcontent]; rfl)⟩
    · obtain rfl := Option.some.inj hrow
      refine ⟨hkey, content, ⟨hsize, hsha⟩, fun c hc => ?_, fun c hc => ?_⟩
      · exact Option.some.inj (hc.symm.trans hcontent)
      · exact absurd (hc.symm.trans hempty.1) (fun h => nomatch h)
    · rcases hcreation with rfl | rfl <;> rcases hearly with hearly | hearly <;> cases hearly
    · rcases hcreation with rfl | rfl <;> cases hstored
  unfold Filing.recorded
  rcases outcome.apply_cases (some (some (newAttachment registry id principal stored))) f.row with
    heq | ⟨row, hrow, -, heq⟩ | ⟨row, hrow, -, heq⟩
  · rw [heq]
    exact ⟨h.row, h.unrecorded, fun _ => hnone, fun _ h => (nomatch h), h.live⟩
  · rw [heq]
    obtain rfl := Option.some.inj hrow
    exact hwritten .discarding (.inl rfl)
  · rw [heq]
    obtain rfl := Option.some.inj hrow
    exact hwritten .ended (.inr rfl)

theorem Kept.discard (h : Kept measures id f) (hdiscarding : f.creation = .discarding)
    (hcareful : f.Careful .discard) :
    Kept measures id { f with objects := f.objects.discard, creation := .ended } := by
  refine ⟨fun attachment hrow => ?_, h.unrecorded, fun hearly => ?_, fun _ h => (nomatch h),
    fun hlive => ?_⟩
  · obtain ⟨hkey, content, hrecorded, honly⟩ := h.row attachment hrow
    exact ⟨hkey, content, hrecorded, honly.discard⟩
  · rcases hearly with hearly | hearly <;> cases hearly
  · rcases h.live hlive with hthere | hheld
    · exact absurd hdiscarding ((hcareful hlive hthere).1 rfl)
    · exact .inr hheld

theorem Kept.quarantineDone (h : Kept measures id f) {p : Nat} {attachment : Attachment}
    (hp : f.deletions[p]? = some (.validated attachment)) (leftBehind : Bool)
    (outcome : WriteOutcome) (hcareful : f.Careful (.quarantine p leftBehind outcome)) :
    Kept measures id (f.quarantineDone p attachment leftBehind outcome) := by
  obtain ⟨recorded, hrow⟩ := h.recorded_of_deletion hp
  obtain ⟨hkey, content, hrecorded, honly⟩ := h.row recorded hrow
  have hmoved : ∀ o' d, f.objects.quarantine leftBehind = some o' →
      (f.Live → o'.original.isSome = true ∨ holdsReceipt d = true) →
      Kept measures id { f with objects := o', deletions := f.deletions.set p d } := by
    intro o' d ho' hlive
    obtain ⟨honly', horiginal, hquarantined, -⟩ := honly.quarantine ho'
    refine ⟨fun attachment' hrow' => ?_, fun hnone => ?_, h.early, fun stored hstored => ?_,
      fun hlive' => ?_⟩
    · obtain rfl := Option.some.inj (hrow.symm.trans hrow')
      exact ⟨hkey, content, hrecorded, honly'⟩
    · exact absurd (hrow.symm.trans hnone) (fun h => nomatch h)
    · exact absurd (hrow.symm.trans (h.saved stored hstored).1) (fun h => nomatch h)
    · refine (hlive hlive').imp_right fun hholds => ⟨?_, d, mem_set_self hp, hholds⟩
      rw [hquarantined]
      rfl
  unfold Filing.quarantineDone
  rcases outcome.apply_cases (f.objects.quarantine leftBehind) f.objects with heq
    | ⟨o', ho', hraised, heq⟩ | ⟨o', ho', -, heq⟩
  · rw [heq]
    exact h.set hp fun _ hholds => nomatch hholds
  · rw [heq]
    refine hmoved o' .ended ho' fun hlive => .inl ?_
    obtain ⟨-, horiginal, -, hleft⟩ := honly.quarantine ho'
    have hthere : f.objects.original.isSome = true := by
      rw [horiginal]
      rfl
    -- the object of a live attachment is left behind
    cases leftBehind with
    | true =>
      rw [hleft rfl]
      rfl
    | false => exact absurd hp ((hcareful hlive hthere).2 p attachment (by rw [hraised]))
  · rw [heq]
    exact hmoved o' (.quarantined attachment) ho' fun _ => .inr rfl

theorem Kept.deletionDone (h : Kept measures id f) {p : Nat} {attachment : Attachment}
    (hp : f.deletions[p]? = some (.quarantined attachment)) (principal : AttachmentPrincipal)
    (resolves : Bool) (now : Instant) (outcome : WriteOutcome) :
    Kept measures id (f.deletionDone p attachment principal resolves now outcome) := by
  have hrestores : Kept measures id { f with deletions := f.deletions.set p .restoring } :=
    h.set hp fun _ _ => rfl
  unfold Filing.deletionDone
  split
  · exact hrestores
  · next current hrow =>
    have hmarked : ∀ d, Kept measures id
        { f with
          row := some (markedDeleted principal now current)
          deletions := f.deletions.set p d } := by
      intro d
      refine ⟨fun attachment' hrow' => ?_, fun hnone => (nomatch hnone), fun hearly => ?_,
        fun stored hstored => ?_, fun hlive => ?_⟩
      · obtain rfl := Option.some.inj hrow'
        exact h.row current hrow
      · exact absurd (hrow.symm.trans (h.early hearly)) (fun h => nomatch h)
      · exact absurd (hrow.symm.trans (h.saved stored hstored).1) (fun h => nomatch h)
      · obtain ⟨attachment', hrow', hlive⟩ := hlive
        obtain rfl := Option.some.inj hrow'
        cases hlive
    split
    · exact hrestores
    · split
      · next hdeleted =>
        refine h.set hp fun hlive _ => ?_
        obtain ⟨attachment', hrow', hlive⟩ := hlive
        obtain rfl := Option.some.inj (hrow.symm.trans hrow')
        rw [hlive] at hdeleted
        cases hdeleted
      · split
        · exact hrestores
        · rcases outcome.apply_cases (some (some (markedDeleted principal now current))) f.row with
            heq | ⟨row, hrow', -, heq⟩ | ⟨row, hrow', -, heq⟩
          · rw [heq]
            exact hrestores
          · rw [heq]
            obtain rfl := Option.some.inj hrow'
            exact hmarked .restoring
          · rw [heq]
            obtain rfl := Option.some.inj hrow'
            exact hmarked .ended

theorem Kept.restored (h : Kept measures id f) {p : Nat} (hp : f.deletions[p]? = some .restoring)
    (leftBehind : Bool) :
    Kept measures id
      { f with
        objects := (f.objects.restore leftBehind).getD f.objects
        deletions := f.deletions.set p .ended } := by
  obtain ⟨current, hrow⟩ := h.recorded_of_deletion hp
  obtain ⟨hkey, content, hrecorded, honly⟩ := h.row current hrow
  have hnever : ∀ {P : Prop}, f.row = none → P := fun hnone =>
    absurd (hrow.symm.trans hnone) (fun h => nomatch h)
  cases hrestore : f.objects.restore leftBehind with
  | none =>
    -- nothing is in the trash, so the object is at its key
    have hempty : f.objects.quarantined = none := Option.map_eq_none_iff.mp hrestore
    refine ⟨h.row, hnever, h.early, h.saved, fun hlive => ?_⟩
    rcases h.live hlive with hthere | ⟨hheld, -⟩
    · exact .inl hthere
    · rw [hempty] at hheld
      cases hheld
  | some o' =>
    obtain ⟨honly', horiginal⟩ := honly.restore hrestore
    refine ⟨fun attachment' hrow' => ?_, hnever, h.early, fun stored hstored => ?_,
      fun _ => .inl ?_⟩
    · obtain rfl := Option.some.inj (hrow.symm.trans hrow')
      exact ⟨hkey, content, hrecorded, honly'⟩
    · exact hnever (h.saved stored hstored).1
    · show o'.original.isSome = true
      rw [horiginal]
      rfl

theorem Kept.step (h : Kept measures id f) {e : FilingEvent β} (hcareful : f.Careful e) :
    Kept measures id (f.step measures registry id e) := by
  cases e with
  | create =>
    show Kept measures id (ite _ _ _)
    split
    · next habsent =>
      exact ⟨h.row, h.unrecorded, fun _ => h.early (.inl habsent), fun _ h => (nomatch h), h.live⟩
    · exact h
  | save label content outcome =>
    by_cases hsaving : f.creation = .saving
    · exact h.save hsaving label content outcome
    · dsimp only [Filing.step]
      rw [if_neg hsaving]
      exact h
  | record principal resolves outcome =>
    dsimp only [Filing.step]
    split
    · next stored hsaved =>
      split
      · exact h.recorded hsaved principal outcome
      -- the row is not written, and what is stored belongs to no row
      · have hnone := (h.saved stored hsaved).1
        exact ⟨h.row, h.unrecorded, fun _ => hnone, fun _ h => (nomatch h), h.live⟩
    all_goals exact h
  | discard =>
    show Kept measures id (ite _ _ _)
    split
    · next hdiscarding => exact h.discard hdiscarding hcareful
    · exact h
  | delete principal resolves =>
    dsimp only [Filing.step]
    split
    · exact h
    · next attachment hrow =>
      split
      · refine { h with unrecorded := fun hnone => ?_, live := fun hlive => ?_ }
        · exact absurd (hrow.symm.trans hnone) (fun h => nomatch h)
        -- a deletion that has begun holds nothing yet
        · refine (h.live hlive).imp_right fun ⟨hthere, d, hd, hholds⟩ => ⟨hthere, d, ?_, hholds⟩
          exact List.mem_append_left _ hd
      · exact h
  | quarantine p leftBehind outcome =>
    dsimp only [Filing.step]
    split
    · next hp => exact h.quarantineDone hp leftBehind outcome hcareful
    all_goals exact h
  | markDeleted p principal resolves now outcome =>
    dsimp only [Filing.step]
    split
    · next hp => exact h.deletionDone hp principal resolves now outcome
    all_goals exact h
  | restore p leftBehind =>
    dsimp only [Filing.step]
    split
    · next hp => exact h.restored hp leftBehind
    all_goals exact h

theorem Kept.empty (measures : Measures β) (id : Uuid) : Kept measures id Filing.empty := by
  refine ⟨fun _ h => (nomatch h), fun _ => ⟨rfl, rfl⟩, fun _ => rfl, fun _ h => (nomatch h), ?_⟩
  rintro ⟨_, h, -⟩
  cases h

/-- Once its operations are over, no deletion is to bring the object back. -/
theorem Kept.idle (h : Kept measures id f) (hidle : f.Idle) {attachment : Attachment}
    (hrow : f.row = some attachment) (hlive : attachment.deletedAt = none) :
    attachment.storageKey = ⟨id⟩
      ∧ ∃ content, f.objects.original = some content ∧ Recorded measures attachment content := by
  obtain ⟨hkey, content, hrecorded, honly⟩ := h.row attachment hrow
  refine ⟨hkey, content, honly.original_eq ?_, hrecorded⟩
  rcases h.live ⟨attachment, hrow, hlive⟩ with hthere | ⟨-, d, hd, hholds⟩
  · exact hthere
  · rw [hidle.2 d hd] at hholds
    cases hholds

end

/-- The object at a key of the storage. -/
def blobAt (s : Uuid → Filing β) (key : StorageKey) : Option β :=
  (s key.attachmentId).objects.original

/-- The attachments after the steps of their operations, in any order. -/
def runAll (measures : Measures β) (registry : StorageRegistry) (es : List (Uuid × FilingEvent β)) :
    Uuid → Filing β :=
  Transition.run (Transition.family (step measures registry)) (fun _ => empty) es

/-- Along careful steps a live attachment whose operations are over has its blob. -/
theorem live_attachment_has_blob (measures : Measures β) (registry : StorageRegistry)
    (es : List (Uuid × FilingEvent β))
    (hcareful : Transition.Along (fun (s : Uuid → Filing β) e => Careful (s e.1) e.2)
      (Transition.family (step measures registry)) (fun _ => empty) es) :
    let s := runAll measures registry es
    ∀ id attachment, (s id).Idle → (s id).row = some attachment → attachment.deletedAt = none →
      ∃ content, blobAt s attachment.storageKey = some content
        ∧ Recorded measures attachment content := by
  intro s id attachment hidle hrow hlive
  have hkept : Kept measures id (s id) :=
    Transition.family_invariant_along (fun _ _ _ h hok => h.step hok) (.empty measures) hcareful id
  obtain ⟨hkey, hcontent⟩ := hkept.idle hidle hrow hlive
  unfold blobAt
  rw [hkey]
  exact hcontent

/-- A text and its length, in one local storage. -/
def textMeasures : Measures String := ⟨String.length, fun content => content⟩

/-- A registry with the local file system alone. -/
def localStorage : StorageRegistry :=
  ⟨fun backend => if backend = "local_filesystem" then some "" else none, "local_filesystem"⟩

/-- A tester, who is no admin. -/
def uploader : AttachmentPrincipal := ⟨7, "tester", false⟩

/-- The label of a text file. -/
def textLabel : UploadLabel := ⟨"run.log", "text/plain", false⟩

/-- A deletion fails and brings the object back. -/
def deletionUndone : List (Uuid × FilingEvent String) :=
  [(1, .create), (1, .save textLabel "passed" .done), (1, .record uploader true .done),
    (1, .delete uploader true), (1, .quarantine 0 false .done),
    (1, .markDeleted 0 uploader true 5 .raisedBefore), (1, .restore 0 false)]

theorem live_attachment_has_blob_undone :
    ∃ attachment, (runAll textMeasures localStorage deletionUndone 1).row = some attachment
      ∧ ∃ content, blobAt (runAll textMeasures localStorage deletionUndone) attachment.storageKey
          = some content ∧ Recorded textMeasures attachment content := by
  refine ⟨newAttachment localStorage 1 uploader (textMeasures.storedUpload 1 textLabel "passed"),
    by decide, ?_⟩
  refine live_attachment_has_blob textMeasures localStorage deletionUndone ?_ 1 _ ?_ (by decide) rfl
  · have hok : ∀ f : Filing String, ∀ e : FilingEvent String,
        e ≠ .discard → (∀ p, e ≠ .quarantine p false .raisedAfter) → Careful f e :=
      fun _ _ hdiscard hquarantine _ _ =>
        ⟨fun h => absurd h hdiscard, fun p _ h => absurd h (hquarantine p)⟩
    refine ⟨hok _ _ ?_ ?_, hok _ _ ?_ ?_, hok _ _ ?_ ?_, hok _ _ ?_ ?_, hok _ _ ?_ ?_,
      hok _ _ ?_ ?_,
      hok _ _ ?_ ?_, trivial⟩
    all_goals simp
  · exact ⟨.inr (by decide), by decide⟩

/-- The row is committed, its creation raises and discards the object. -/
def creationDiscarded : List (Uuid × FilingEvent String) :=
  [(1, .create), (1, .save textLabel "passed" .done), (1, .record uploader true .raisedAfter),
    (1, .discard)]

theorem live_attachment_without_blob :
    ¬ ∀ (measures : Measures String) (registry : StorageRegistry)
        (es : List (Uuid × FilingEvent String)),
      (∀ id, (runAll measures registry es id).Idle) → ∀ id attachment,
        (runAll measures registry es id).row = some attachment → attachment.deletedAt = none →
        ∃ content, blobAt (runAll measures registry es) attachment.storageKey = some content
          ∧ Recorded measures attachment content := by
  intro hkept
  have hidle : ∀ id, (runAll textMeasures localStorage creationDiscarded id).Idle := by
    intro id
    by_cases hid : id = 1
    · subst hid
      exact ⟨.inr (by decide), by decide⟩
    · have hother : runAll textMeasures localStorage creationDiscarded id = empty := by
        simp [runAll, creationDiscarded, Transition.family, hid]
      rw [hother]
      exact ⟨.inl rfl, fun _ h => nomatch h⟩
  obtain ⟨content, hcontent, -⟩ := hkept textMeasures localStorage creationDiscarded hidle 1
    (newAttachment localStorage 1 uploader (textMeasures.storedUpload 1 textLabel "passed"))
    (by decide) rfl
  have hgone : blobAt (runAll textMeasures localStorage creationDiscarded)
      (newAttachment localStorage 1 uploader
        (textMeasures.storedUpload 1 textLabel "passed")).storageKey = none := by decide
  rw [hgone] at hcontent
  cases hcontent

end Filing

end QaPlatform.Services
