import QaPlatform.Base.Hex
import QaPlatform.Base.Transition
import QaPlatform.Services.AttachmentStorage

/-!
# Moving objects in an S3 store

`S3AttachmentStorage.quarantine` and `S3AttachmentStorage.restore`
(`app/services/s3_attachment_storage.py`), request by request. Both copy an object, look at the
copy and delete the one they have copied. A request may raise whether or not it has taken
effect, and one that is made to clean up may do so unnoticed.

A move is taken apart into its requests, and each of them may take effect and still raise. The
invariant is about the phase: up to the last request the object is at its source, from the copy
on it is at its target too, and only after the copy has been looked at is the source deleted. So
whatever fails and wherever the move ends, one of the two keys has the object.
-/

namespace QaPlatform.Services

/-- A character of `[0-9a-f]`. -/
def isLowerHex (c : Char) : Bool := ('0' ≤ c ∧ c ≤ '9') ∨ ('a' ≤ c ∧ c ≤ 'f')

/-- `_STORAGE_KEY`. -/
def isStorageKey (value : String) : Bool :=
  match value.toList with
  | a :: b :: '/' :: rest =>
    isLowerHex a && isLowerHex b && rest.length == 32 && rest.all isLowerHex
  | _ => false

/-- `_QUARANTINE_KEY`. -/
def isQuarantineKey (value : String) : Bool :=
  match value.toList with
  | '.' :: 't' :: 'r' :: 'a' :: 's' :: 'h' :: '/' :: rest =>
    rest.length == 32 && rest.all isLowerHex
  | _ => false

/-- The key in the trash of an attachment. -/
def quarantineKey (attachmentId : Uuid) : String :=
  String.ofList ('.' :: 't' :: 'r' :: 'a' :: 's' :: 'h' :: '/' :: Hex.digits 32 attachmentId)

/-- What `quarantine` hands back. -/
structure QuarantineReceipt where
  backendName : String
  namespaceName : String
  originalKey : String
  quarantineKey : String
deriving DecidableEq

/-- What is read of the answer to a HEAD request: its length, if it is a number, and the digest
among the metadata, if it is a text. -/
structure HeadResponse where
  contentLength : Option Int
  sha256 : Option String

/-- The settings; `casefold` is that of Python. -/
structure S3AttachmentStorage where
  backendName : String
  namespaceName : String
  maxBytes : Int
  casefold : String → String

namespace S3AttachmentStorage

/-- `validate_sha256`. -/
def validateSha256 (storage : S3AttachmentStorage) (value : String) : Option String :=
  let normalized := storage.casefold value
  if normalized.length = 64 ∧ normalized.toList.all isLowerHex then some normalized else none

/-- `_verified_object_metadata`; it raises where there is nothing. -/
def verifiedObjectMetadata (storage : S3AttachmentStorage) (expected : Option (Int × String))
    (response : HeadResponse) : Option (Int × String) := do
  let size ← response.contentLength
  guard (0 ≤ size ∧ size ≤ storage.maxBytes)
  guard (∀ e ∈ expected, size = e.1)
  let digest ← response.sha256.bind storage.validateSha256
  match expected with
  | none => return (size, digest)
  | some e =>
    let trusted ← storage.validateSha256 e.2
    guard (digest = trusted)
    return (size, digest)

end S3AttachmentStorage

/-- Where a move is. -/
inductive S3MovePhase where
  /-- It has no client yet. -/
  | connecting
  | inspecting
  | copying (size : Int) (digest : String)
  | verifying (size : Int) (digest : String)
  /-- It deletes the copy and raises. -/
  | compensating
  /-- The copy is verified and the source deleted. -/
  | removing
  | returned
  | raised
deriving DecidableEq

/-- The objects of the bucket by their keys, with their metadata, and a move in it. -/
structure S3Move (β : Type) where
  objects : String → Option β
  source : String
  target : String
  phase : S3MovePhase

/-- How the request that is awaited ends. -/
inductive S3Answer where
  | connected (available : Bool)
  /-- A HEAD request returns or raises. -/
  | head (response : Option HeadResponse)
  | write (outcome : WriteOutcome)

namespace S3Move

variable {β : Type}

/-- `copy_object`. -/
def copied (m : S3Move β) : Option (String → Option β) :=
  (m.objects m.source).map fun object => Function.update m.objects m.target (some object)

/-- `delete_object`. -/
def deleted (m : S3Move β) (key : String) : String → Option β := Function.update m.objects key none

/-- One answer of the service; an answer that the move does not wait for changes nothing. -/
def step (storage : S3AttachmentStorage) (m : S3Move β) : S3Answer → S3Move β
  | .connected available =>
    if m.phase = .connecting then { m with phase := if available then .inspecting else .raised }
      else m
  | .head response =>
    match m.phase with
    | .inspecting =>
      match response.bind (storage.verifiedObjectMetadata none) with
      | some (size, digest) => { m with phase := .copying size digest }
      | none => { m with phase := .raised }
    | .verifying size digest =>
      match response.bind (storage.verifiedObjectMetadata (some (size, digest))) with
      | some _ => { m with phase := .removing }
      | none => { m with phase := .compensating }
    | .connecting | .copying .. | .compensating | .removing | .returned | .raised => m
  | .write outcome =>
    match m.phase with
    | .copying size digest =>
      let (objects, returned) := outcome.apply m.copied m.objects
      { m with objects, phase := if returned then .verifying size digest else .compensating }
    | .compensating =>
      { m with
        objects := (outcome.apply (some (m.deleted m.target)) m.objects).1
        phase := .raised }
    | .removing =>
      { m with
        objects := (outcome.apply (some (m.deleted m.source)) m.objects).1
        phase := .returned }
    | .connecting | .inspecting | .verifying .. | .returned | .raised => m

end S3Move

namespace S3AttachmentStorage

variable {β : Type}

/-- The start of `quarantine`; a key that is refused raises. -/
def quarantine (objects : String → Option β) (storageKey : String) (attachmentId : Uuid) :
    S3Move β where
  objects
  source := storageKey
  target := quarantineKey attachmentId
  phase := if isStorageKey storageKey then .connecting else .raised

/-- The start of `restore`. -/
def restore (storage : S3AttachmentStorage) (objects : String → Option β)
    (receipt : QuarantineReceipt) : S3Move β where
  objects
  source := receipt.quarantineKey
  target := receipt.originalKey
  phase :=
    if receipt.backendName = storage.backendName ∧ receipt.namespaceName = storage.namespaceName
        ∧ isStorageKey receipt.originalKey ∧ isQuarantineKey receipt.quarantineKey
    then .connecting else .raised

end S3AttachmentStorage

namespace S3Move

variable {β : Type} {storage : S3AttachmentStorage} {m : S3Move β} {object : β}

/-- What the move makes of an object: it is where it was until a verified copy is where it goes. -/
def Safe (object : β) (m : S3Move β) : Prop :=
  match m.phase with
  | .connecting | .inspecting | .copying .. | .compensating =>
    m.source ≠ m.target ∧ m.objects m.source = some object
  | .verifying .. | .removing =>
    m.source ≠ m.target ∧ m.objects m.source = some object ∧ m.objects m.target = some object
  | .returned =>
    m.objects m.target = some object
      ∧ (m.objects m.source = none ∨ m.objects m.source = some object)
  | .raised => m.objects m.source = some object

/-- At every moment there is a copy. -/
theorem Safe.somewhere (h : Safe object m) :
    m.objects m.source = some object ∨ m.objects m.target = some object := by
  unfold Safe at h
  split at h
  · exact .inl h.2
  · exact .inl h.2
  · exact .inl h.2
  · exact .inl h.2
  · exact .inl h.2.1
  · exact .inl h.2.1
  · exact .inr h.1
  · exact .inl h

theorem safe_of_connecting (hphase : m.phase = .connecting) (hne : m.source ≠ m.target)
    (h : m.objects m.source = some object) : Safe object m := by
  simp only [Safe, hphase]
  exact ⟨hne, h⟩

theorem safe_of_raised (hphase : m.phase = .raised) (h : m.objects m.source = some object) :
    Safe object m := by
  simpa only [Safe, hphase] using h

theorem Safe.of_returned (h : Safe object m) (hphase : m.phase = .returned) :
    m.objects m.target = some object
      ∧ (m.objects m.source = none ∨ m.objects m.source = some object) := by
  simpa only [Safe, hphase] using h

@[simp] theorem step_source (a : S3Answer) : (m.step storage a).source = m.source := by
  cases a with
  | connected available =>
    dsimp only [step]
    split <;> rfl
  | head response =>
    dsimp only [step]
    split
    · split <;> rfl
    · split <;> rfl
    all_goals rfl
  | write outcome =>
    dsimp only [step]
    split <;> rfl

@[simp] theorem step_target (a : S3Answer) : (m.step storage a).target = m.target := by
  cases a with
  | connected available =>
    dsimp only [step]
    split <;> rfl
  | head response =>
    dsimp only [step]
    split
    · split <;> rfl
    · split <;> rfl
    all_goals rfl
  | write outcome =>
    dsimp only [step]
    split <;> rfl

theorem safe_copy {size : Int} {digest : String} (hphase : m.phase = .copying size digest)
    (h : Safe object m) (outcome : WriteOutcome) :
    Safe object (m.step storage (.write outcome)) := by
  obtain ⟨hne, hsource⟩ : m.source ≠ m.target ∧ m.objects m.source = some object := by
    simpa only [Safe, hphase] using h
  have hcopied : m.copied = some (Function.update m.objects m.target (some object)) := by
    rw [copied, hsource, Option.map_some]
  have hkept : Function.update m.objects m.target (some object) m.source = some object := by
    rw [Function.update_of_ne hne, hsource]
  cases outcome with
  | done =>
    simp only [step, hphase, hcopied, WriteOutcome.apply, if_true, Safe]
    exact ⟨hne, hkept, Function.update_self ..⟩
  | raisedBefore =>
    simp only [step, hphase, WriteOutcome.apply, Bool.false_eq_true, if_false, Safe]
    exact ⟨hne, hsource⟩
  | raisedAfter =>
    simp only [step, hphase, hcopied, WriteOutcome.apply, Bool.false_eq_true, if_false, Safe]
    exact ⟨hne, hkept⟩

/-- Cleaning up deletes the copy, and the source is still there. -/
theorem safe_compensate (hphase : m.phase = .compensating) (h : Safe object m)
    (outcome : WriteOutcome) : Safe object (m.step storage (.write outcome)) := by
  obtain ⟨hne, hsource⟩ : m.source ≠ m.target ∧ m.objects m.source = some object := by
    simpa only [Safe, hphase] using h
  have hkept : m.deleted m.target m.source = some object := by
    rw [deleted, Function.update_of_ne hne, hsource]
  cases outcome with
  | raisedBefore => simpa only [step, hphase, WriteOutcome.apply, Safe] using hsource
  | done | raisedAfter => simpa only [step, hphase, WriteOutcome.apply, Safe] using hkept

/-- The source is deleted when its copy is verified. -/
theorem safe_remove (hphase : m.phase = .removing) (h : Safe object m) (outcome : WriteOutcome) :
    Safe object (m.step storage (.write outcome)) := by
  obtain ⟨hne, hsource, htarget⟩ : m.source ≠ m.target ∧ m.objects m.source = some object
      ∧ m.objects m.target = some object := by
    simpa only [Safe, hphase] using h
  have hkept : m.deleted m.source m.target = some object := by
    rw [deleted, Function.update_of_ne (Ne.symm hne), htarget]
  have hgone : m.deleted m.source m.source = none := Function.update_self ..
  cases outcome with
  | raisedBefore =>
    simp only [step, hphase, WriteOutcome.apply, Safe]
    exact ⟨htarget, .inr hsource⟩
  | done | raisedAfter =>
    simp only [step, hphase, WriteOutcome.apply, Safe]
    exact ⟨hkept, .inl hgone⟩

theorem Safe.step (h : Safe object m) (a : S3Answer) : Safe object (m.step storage a) := by
  cases a with
  | connected available =>
    by_cases hphase : m.phase = .connecting
    · have hsafe : m.source ≠ m.target ∧ m.objects m.source = some object := by
        simpa only [Safe, hphase] using h
      cases available with
      | true => simpa only [S3Move.step, hphase, if_true, Safe] using hsafe
      | false =>
        simp only [S3Move.step, hphase, if_true, Bool.false_eq_true, if_false, Safe]
        exact hsafe.2
    · have hsame : m.step storage (.connected available) = m := if_neg hphase
      rw [hsame]
      exact h
  | head response =>
    cases hphase : m.phase with
    | inspecting =>
      have hsafe : m.source ≠ m.target ∧ m.objects m.source = some object := by
        simpa only [Safe, hphase] using h
      simp only [S3Move.step, hphase]
      split
      · exact hsafe
      · exact hsafe.2
    | verifying size digest =>
      have hsafe : m.source ≠ m.target ∧ m.objects m.source = some object
          ∧ m.objects m.target = some object := by
        simpa only [Safe, hphase] using h
      simp only [S3Move.step, hphase]
      split
      · exact hsafe
      · exact ⟨hsafe.1, hsafe.2.1⟩
    | connecting | copying | compensating | removing | returned | raised =>
      simpa only [S3Move.step, hphase] using h
  | write outcome =>
    cases hphase : m.phase with
    | copying size digest => exact safe_copy hphase h outcome
    | compensating => exact safe_compensate hphase h outcome
    | removing => exact safe_remove hphase h outcome
    | connecting | inspecting | verifying | returned | raised =>
      simpa only [S3Move.step, hphase] using h

variable (storage) in
/-- A run of a move, its keys and what it makes of the object. -/
theorem Safe.run (h : Safe object m) (as : List S3Answer) :
    Safe object (Transition.run (S3Move.step storage) m as)
      ∧ (Transition.run (S3Move.step storage) m as).source = m.source
      ∧ (Transition.run (S3Move.step storage) m as).target = m.target :=
  Transition.invariant_run (I := fun m' => Safe object m' ∧ m'.source = m.source
    ∧ m'.target = m.target)
    (fun _ a h => ⟨h.1.step a, (step_source a).trans h.2.1, (step_target a).trans h.2.2⟩)
    ⟨h, rfl, rfl⟩ as

end S3Move

/-! ## The two moves -/

namespace S3AttachmentStorage

variable {β : Type}

/-- A storage key begins with a digit, a quarantine key with a full stop. -/
theorem storageKey_ne_quarantineKey {a b : String} (ha : isStorageKey a = true)
    (hb : b.toList.head? = some '.') : a ≠ b := by
  rintro rfl
  unfold isStorageKey at ha
  split at ha
  · next x y rest hlist =>
    rw [hlist, List.head?_cons, Option.some.injEq] at hb
    subst hb
    exact absurd ha (by simp [isLowerHex])
  · cases ha

theorem head_of_isQuarantineKey {b : String} (hb : isQuarantineKey b = true) :
    b.toList.head? = some '.' := by
  unfold isQuarantineKey at hb
  split at hb
  · next hlist => rw [hlist, List.head?_cons]
  · cases hb

theorem safe_quarantine {objects : String → Option β} {object : β} {storageKey : String}
    (h : objects storageKey = some object) (attachmentId : Uuid) :
    (quarantine objects storageKey attachmentId).Safe object := by
  by_cases hkey : isStorageKey storageKey = true
  · have hne : storageKey ≠ quarantineKey attachmentId :=
      storageKey_ne_quarantineKey hkey (by simp [quarantineKey])
    exact S3Move.safe_of_connecting (if_pos hkey) hne h
  · exact S3Move.safe_of_raised (if_neg hkey) h

theorem safe_restore (storage : S3AttachmentStorage) {objects : String → Option β} {object : β}
    {receipt : QuarantineReceipt} (h : objects receipt.quarantineKey = some object) :
    (storage.restore objects receipt).Safe object := by
  by_cases hvalid : receipt.backendName = storage.backendName
      ∧ receipt.namespaceName = storage.namespaceName ∧ isStorageKey receipt.originalKey
      ∧ isQuarantineKey receipt.quarantineKey
  · have hne : receipt.originalKey ≠ receipt.quarantineKey :=
      storageKey_ne_quarantineKey hvalid.2.2.1 (head_of_isQuarantineKey hvalid.2.2.2)
    exact S3Move.safe_of_connecting (if_pos hvalid) (Ne.symm hne) h
  · exact S3Move.safe_of_raised (if_neg hvalid) h

/-- Whatever becomes of its requests, at every moment of a quarantine or a restore and after it
the object is at its own key or at the quarantine key. -/
theorem bytes_kept (storage : S3AttachmentStorage) (objects : String → Option β) (object : β) :
    (∀ storageKey attachmentId, objects storageKey = some object → ∀ answers,
      let m := Transition.run (S3Move.step storage)
        (quarantine objects storageKey attachmentId) answers
      m.objects storageKey = some object ∨ m.objects (quarantineKey attachmentId) = some object)
    ∧ ∀ receipt : QuarantineReceipt, objects receipt.quarantineKey = some object → ∀ answers,
      let m := Transition.run (S3Move.step storage) (storage.restore objects receipt) answers
      m.objects receipt.originalKey = some object
        ∨ m.objects receipt.quarantineKey = some object := by
  constructor
  · intro storageKey attachmentId h answers
    obtain ⟨hsafe, hsource, htarget⟩ := (safe_quarantine h attachmentId).run storage answers
    have hsomewhere := hsafe.somewhere
    rw [hsource, htarget] at hsomewhere
    exact hsomewhere
  · intro receipt h answers
    obtain ⟨hsafe, hsource, htarget⟩ := (safe_restore storage h).run storage answers
    have hsomewhere := hsafe.somewhere
    rw [hsource, htarget] at hsomewhere
    exact hsomewhere.symm

/-- A bucket with one object. -/
def bucket : String → Option String :=
  fun key => if key = "ab/ab000000000000000000000000000000" then some "report" else none

/-- The copy is made and its request times out, and cleaning up is cancelled. -/
def copyTimesOut : List S3Answer :=
  [.connected true, .head (some ⟨some 6, some (String.ofList (List.replicate 64 'a'))⟩),
    .write .raisedAfter, .write .raisedAfter]

theorem bytes_kept_copyTimesOut :
    let m := Transition.run (S3Move.step ⟨"s3_local_container", "qa", 1024, id⟩)
      (quarantine bucket "ab/ab000000000000000000000000000000" 7) copyTimesOut
    m.objects "ab/ab000000000000000000000000000000" = some "report"
      ∨ m.objects (quarantineKey 7) = some "report" :=
  (bytes_kept ⟨"s3_local_container", "qa", 1024, id⟩ bucket "report").1 _ 7 (by decide) copyTimesOut

/-! ## What the storage port promises -/

/-- What is at two keys. -/
def storedObjects (objects : String → Option β) (originalKey isolatedKey : String) :
    StoredObjects β :=
  ⟨objects originalKey, objects isolatedKey⟩

/-- A quarantine that returns is one of the port, which may leave the object where it was. -/
theorem quarantine_returns (storage : S3AttachmentStorage) {objects : String → Option β}
    {object : β} {storageKey : String} (h : objects storageKey = some object) (attachmentId : Uuid)
    (answers : List S3Answer) :
    let m := Transition.run (S3Move.step storage)
      (quarantine objects storageKey attachmentId) answers
    m.phase = .returned → ∃ leftBehind,
      (storedObjects objects storageKey (quarantineKey attachmentId)).quarantine leftBehind
        = some (storedObjects m.objects storageKey (quarantineKey attachmentId)) := by
  intro m hreturned
  obtain ⟨hsafe, hsource, htarget⟩ := (safe_quarantine h attachmentId).run storage answers
  obtain ⟨hmoved, hrest⟩ := hsafe.of_returned hreturned
  rw [htarget] at hmoved
  rw [hsource] at hrest
  have hmoved : m.objects (quarantineKey attachmentId) = some object := hmoved
  rcases hrest with hgone | hleft
  · have hgone : m.objects storageKey = none := hgone
    exact ⟨false, by simp [storedObjects, StoredObjects.quarantine, h, hgone, hmoved]⟩
  · have hleft : m.objects storageKey = some object := hleft
    exact ⟨true, by simp [storedObjects, StoredObjects.quarantine, h, hleft, hmoved]⟩

/-- So is a restore that returns. -/
theorem restore_returns (storage : S3AttachmentStorage) {objects : String → Option β} {object : β}
    {receipt : QuarantineReceipt} (h : objects receipt.quarantineKey = some object)
    (answers : List S3Answer) :
    let m := Transition.run (S3Move.step storage) (storage.restore objects receipt) answers
    m.phase = .returned → ∃ leftBehind,
      (storedObjects objects receipt.originalKey receipt.quarantineKey).restore leftBehind
        = some (storedObjects m.objects receipt.originalKey receipt.quarantineKey) := by
  intro m hreturned
  obtain ⟨hsafe, hsource, htarget⟩ := (safe_restore storage h).run storage answers
  obtain ⟨hmoved, hrest⟩ := hsafe.of_returned hreturned
  rw [htarget] at hmoved
  rw [hsource] at hrest
  have hmoved : m.objects receipt.originalKey = some object := hmoved
  rcases hrest with hgone | hleft
  · have hgone : m.objects receipt.quarantineKey = none := hgone
    exact ⟨false, by simp [storedObjects, StoredObjects.restore, h, hgone, hmoved]⟩
  · have hleft : m.objects receipt.quarantineKey = some object := hleft
    exact ⟨true, by simp [storedObjects, StoredObjects.restore, h, hleft, hmoved]⟩

end S3AttachmentStorage

end QaPlatform.Services
