import QaPlatform.Base.Slots
import QaPlatform.Runtime.Artifacts

/-!
# Ready artifacts

What a ready row records is stored: at its key, or in the trash where a deletion has left
it. An object in the trash is what a deletion in progress, or one whose compensation has
failed, leaves to a later reconciliation.

`Kept` is what holds of one identifier, with its row, its object, the operation that creates it
and the deletions of it. It is kept by careful steps, which are all but the one that discards
the object of a ready row. An identifier's steps do not touch another's, so the theorem is about
any number of artifacts whose operations interleave.
-/

namespace QaPlatform.Runtime.ArtifactFiling

open Services (Measures StorageKey StorageRegistry StoredObjects StoredUpload UploadLabel
  WriteOutcome)

variable {β : Type}

/-- The content is the one that a row records. -/
def Recorded (measures : Measures β) (r : ProviderRunArtifactRecord) (content : β) : Prop :=
  measures.sizeBytes content = r.sizeBytes ∧ r.sha256 = some (measures.sha256 content)

/-- The artifact is offered for download. -/
def Ready (f : ArtifactFiling β) : Prop := ∃ r, f.row = some r ∧ r.status = .ready

/-- It has moved the object to the trash and not brought it back, or may have. -/
def mayHold : ArtifactDeletion → Bool
  | .quarantined | .restoring | .raised => true
  | .clearing | .cleared | .quarantining | .ended => false

/-- No create discards the object of a row that is ready. -/
def Careful (f : ArtifactFiling β) (e : ArtifactEvent β) : Prop :=
  f.Ready → ∀ errorCode outcome, f.creation = .discarding errorCode → e = .discard outcome →
    outcome = .raisedBefore

/-- What holds of an identifier along careful steps. -/
structure Kept (measures : Measures β) (id : Uuid) (f : ArtifactFiling β) : Prop where
  key : ∀ r, f.row = some r → r.storageKey = ⟨id⟩
  absent : f.creation = .absent → f.row = none
  pending : f.creation = .saving ∨ (∃ stored, f.creation = .finalizing stored) →
    ∃ r, f.row = some r ∧ r.status = .pending
  /-- Nothing is deleted before it is ready or has failed. -/
  untouched : (∀ r, f.row = some r → r.status = .pending) →
    f.objects.quarantined = none ∧ f.deletions = []
  finalizing : ∀ stored, f.creation = .finalizing stored → ∃ content,
    f.objects.original = some content
      ∧ measures.sizeBytes content = stored.sizeBytes ∧ measures.sha256 content = stored.sha256
  /-- Only what has failed is cleared. -/
  clearing : .clearing ∈ f.deletions → ¬ f.Ready
  ready : ∀ r, f.row = some r → r.status = .ready → ∃ content,
    Recorded measures r content ∧ f.objects.Only content
      ∧ (f.objects.original.isSome = true
        ∨ f.objects.quarantined.isSome = true
          ∧ ∃ d ∈ f.deletions, mayHold d = true)

section
variable {measures : Measures β} {registry : StorageRegistry} {id : Uuid} {f : ArtifactFiling β}
  {p : Nat} {old new : ArtifactDeletion}

/-- Something is deleted of a row that is not pending. -/
theorem Kept.row_of_deletion (h : Kept measures id f) (hp : f.deletions[p]? = some old) :
    ∃ r, f.row = some r ∧ r.status ≠ .pending := by
  by_contra hnone
  push Not at hnone
  rw [(h.untouched hnone).2] at hp
  cases hp

theorem Kept.not_pending (h : Kept measures id f) (hp : f.deletions[p]? = some old) :
    ¬ ∀ r, f.row = some r → r.status = .pending := by
  obtain ⟨r, hrow, hstatus⟩ := h.row_of_deletion hp
  exact fun hall => hstatus (hall r hrow)

/-- Neither being saved nor about to be final is something of which anything is deleted. -/
theorem Kept.not_creating (h : Kept measures id f) (hp : f.deletions[p]? = some old) :
    ¬ (f.creation = .saving ∨ ∃ stored, f.creation = .finalizing stored) := by
  intro hcreation
  obtain ⟨r, hrow, hstatus⟩ := h.pending hcreation
  exact h.not_pending hp fun r' hrow' => Option.some.inj (hrow.symm.trans hrow') ▸ hstatus

/-- A deletion is moved on and its call has changed the objects. -/
theorem Kept.moveObjects (h : Kept measures id f) (hp : f.deletions[p]? = some old)
    (hclearing : new ≠ .clearing) {objects : StoredObjects β}
    (hready : ∀ r, f.row = some r → r.status = .ready → ∀ content, f.objects.Only content →
      (f.objects.original.isSome = true ∨ f.objects.quarantined.isSome = true
        ∧ ∃ d ∈ f.deletions, mayHold d = true) →
      objects.Only content ∧ (objects.original.isSome = true ∨ objects.quarantined.isSome = true
        ∧ ∃ d ∈ f.deletions.set p new, mayHold d = true)) :
    Kept measures id { f with objects, deletions := f.deletions.set p new } := by
  refine ⟨h.key, h.absent, h.pending, fun hall => absurd hall (h.not_pending hp),
    fun stored hstored => ?_, fun hmem => ?_, fun r hrow hstatus => ?_⟩
  · exact absurd (.inr ⟨stored, hstored⟩) (h.not_creating hp)
  · exact h.clearing (mem_of_mem_set hclearing.symm hmem)
  · obtain ⟨content, hrecorded, honly, hthere⟩ := h.ready r hrow hstatus
    exact ⟨content, hrecorded, hready r hrow hstatus content honly hthere⟩

/-- A deletion has raised, and the objects are as they were. -/
theorem Kept.raise (h : Kept measures id f) (hp : f.deletions[p]? = some old) :
    Kept measures id { f with deletions := f.deletions.set p .raised } := by
  have hne : ArtifactDeletion.raised ≠ .clearing := by decide
  refine h.moveObjects hp hne fun r hrow hstatus content honly hthere => ⟨honly, ?_⟩
  exact hthere.imp_right fun ⟨hin, hheld⟩ => ⟨hin, exists_mem_set hp (fun _ => rfl) hheld⟩

/-- Nothing has been deleted and nothing is ready yet. -/
theorem Kept.ofUntouched (hpending : ∀ r, f.row = some r → r.status = .pending)
    (hquarantined : f.objects.quarantined = none) (hdeletions : f.deletions = [])
    (key : ∀ r, f.row = some r → r.storageKey = ⟨id⟩) (absent : f.creation = .absent → f.row = none)
    (pending : f.creation = .saving ∨ (∃ stored, f.creation = .finalizing stored) →
      ∃ r, f.row = some r ∧ r.status = .pending)
    (finalizing : ∀ stored, f.creation = .finalizing stored → ∃ content,
      f.objects.original = some content
        ∧ measures.sizeBytes content = stored.sizeBytes ∧ measures.sha256 content = stored.sha256) :
    Kept measures id f := by
  refine ⟨key, absent, pending, fun _ => ⟨hquarantined, hdeletions⟩, finalizing, fun hmem => ?_,
    fun r hrow hstatus => ?_⟩
  · rw [hdeletions] at hmem
    cases hmem
  · exact absurd ((hpending r hrow).symm.trans hstatus) (by decide)

theorem Kept.started (h : Kept measures id f) (habsent : f.creation = .absent) (filename : String)
    (now : Instant) (outcome : WriteOutcome) (audited : Bool) :
    Kept measures id (f.started registry id filename now outcome audited) := by
  have hnone := h.absent habsent
  have hvacuous : ∀ {P : ProviderRunArtifactRecord → Prop}, ∀ r, f.row = some r → P r :=
    fun _ hrow => nomatch hnone.symm.trans hrow
  obtain ⟨hquarantined, hdeletions⟩ := h.untouched hvacuous
  have hwritten : ∀ creation, creation = .saving ∨ creation = .ended → Kept measures id
      { f with row := some (pendingRow registry id filename now), creation } := by
    intro creation hcreation
    refine .ofUntouched (fun r hrow => ?_) hquarantined hdeletions (fun r hrow => ?_)
      (fun habsent => ?_) (fun _ => ⟨_, rfl, rfl⟩) (fun stored hstored => ?_)
    · obtain rfl := Option.some.inj hrow
      rfl
    · obtain rfl := Option.some.inj hrow
      rfl
    · rcases hcreation with rfl | rfl <;> cases habsent
    · rcases hcreation with rfl | rfl <;> cases hstored
  unfold ArtifactFiling.started
  rcases outcome.apply_cases (some (some (pendingRow registry id filename now))) f.row with heq
    | ⟨row, hrow, -, heq⟩ | ⟨row, hrow, -, heq⟩
  · rw [heq]
    refine .ofUntouched hvacuous hquarantined hdeletions hvacuous (fun _ => hnone)
      (fun hcreation => ?_)
      (fun _ hstored => nomatch hstored)
    rcases hcreation with hcreation | ⟨_, hcreation⟩ <;> cases hcreation
  · rw [heq]
    obtain rfl := Option.some.inj hrow
    exact hwritten .ended (.inr rfl)
  · rw [heq]
    obtain rfl := Option.some.inj hrow
    cases audited with
    | true => exact hwritten .saving (.inl rfl)
    | false => exact hwritten .ended (.inr rfl)

theorem Kept.saved (h : Kept measures id f) (hsaving : f.creation = .saving) (label : UploadLabel)
    (content : β) (outcome : WriteOutcome) (error : CreateError) :
    Kept measures id (f.saved measures id label content outcome error) := by
  obtain ⟨r, hrow, hstatus⟩ := h.pending (.inl hsaving)
  have hpending : ∀ r', f.row = some r' → r'.status = .pending := by
    intro r' hrow'
    obtain rfl := Option.some.inj (hrow.symm.trans hrow')
    exact hstatus
  obtain ⟨hquarantined, hdeletions⟩ := h.untouched hpending
  have hdiscards : ∀ original errorCode, Kept measures id
      { f with objects := { f.objects with original }, creation := .discarding errorCode } := by
    intro original errorCode
    refine .ofUntouched hpending hquarantined hdeletions h.key (fun h => nomatch h) (fun h => ?_)
      (fun _ h => nomatch h)
    rcases h with h | ⟨_, h⟩ <;> cases h
  have hstored : Kept measures id
      { f with
        objects := f.objects.save content
        creation := .finalizing (measures.storedUpload id label content) } := by
    refine .ofUntouched hpending hquarantined hdeletions h.key (fun h => nomatch h)
      (fun _ => ⟨r, hrow, hstatus⟩) (fun stored hstored => ?_)
    obtain rfl := ArtifactCreation.finalizing.inj hstored
    exact ⟨content, rfl, rfl, rfl⟩
  unfold ArtifactFiling.saved
  rcases outcome.apply_cases (some (f.objects.save content)) f.objects with heq
    | ⟨o', ho', -, heq⟩ | ⟨o', ho', -, heq⟩
  · rw [heq]
    exact hdiscards f.objects.original _
  · rw [heq]
    obtain rfl := Option.some.inj ho'
    exact hdiscards (some content) _
  · rw [heq]
    obtain rfl := Option.some.inj ho'
    have hkey : ¬ (measures.storedUpload id label content).storageKey ≠ ⟨id⟩ := fun h => h rfl
    dsimp only
    rw [if_neg (by decide), if_neg hkey]
    exact hstored

theorem Kept.finalized (h : Kept measures id f) {stored : StoredUpload}
    (hfinalizing : f.creation = .finalizing stored) (now : Instant) (outcome : WriteOutcome)
    (error : CreateError) : Kept measures id (f.finalized stored now outcome error) := by
  obtain ⟨r, hrow, hstatus⟩ := h.pending (.inr ⟨stored, hfinalizing⟩)
  have hpending : ∀ r', f.row = some r' → r'.status = .pending := by
    intro r' hrow'
    obtain rfl := Option.some.inj (hrow.symm.trans hrow')
    exact hstatus
  obtain ⟨hquarantined, hdeletions⟩ := h.untouched hpending
  obtain ⟨content, hcontent, hsize, hsha⟩ := h.finalizing stored hfinalizing
  have hdiscards : ∀ errorCode, Kept measures id { f with creation := .discarding errorCode } := by
    intro errorCode
    refine .ofUntouched hpending hquarantined hdeletions h.key (fun h => nomatch h) (fun h => ?_)
      (fun _ h => nomatch h)
    rcases h with h | ⟨_, h⟩ <;> cases h
  -- the row, as soon as it is ready
  have hready : ∀ creation, creation = .ended ∨ (∃ errorCode, creation = .discarding errorCode) →
      Kept measures id { f with row := some (readyRow stored now r), creation } := by
    intro creation hcreation
    refine ⟨fun r' hrow' => ?_, fun habsent => ?_, fun hcreating => ?_, fun hall => ?_,
      fun stored' hstored' => ?_, fun hmem => ?_, fun r' hrow' _ => ?_⟩
    · obtain rfl := Option.some.inj hrow'
      exact h.key r hrow
    · rcases hcreation with rfl | ⟨_, rfl⟩ <;> cases habsent
    · rcases hcreation with rfl | ⟨_, rfl⟩ <;> rcases hcreating with h | ⟨_, h⟩ <;> cases h
    · exact absurd (hall _ rfl) (fun h => nomatch h)
    · rcases hcreation with rfl | ⟨_, rfl⟩ <;> cases hstored'
    · exact absurd (hdeletions ▸ hmem) List.not_mem_nil
    · obtain rfl := Option.some.inj hrow'
      refine ⟨content, ⟨hsize, congrArg some hsha.symm⟩, ⟨fun c hc => ?_, fun c hc => ?_⟩, .inl ?_⟩
      · exact Option.some.inj (hc.symm.trans hcontent)
      · exact nomatch hc.symm.trans hquarantined
      · show f.objects.original.isSome = true
        rw [hcontent]
        rfl
  have htransition : transition .pending (readyRow stored now) f.row
      = some (some (readyRow stored now r)) := by
    unfold transition
    rw [hrow]
    exact if_pos hstatus
  unfold ArtifactFiling.finalized
  split
  · exact hdiscards _
  · rw [htransition]
    rcases outcome.apply_cases (some (some (readyRow stored now r))) f.row with heq
      | ⟨row, hrow', -, heq⟩ | ⟨row, hrow', -, heq⟩
    · rw [heq]
      exact hdiscards _
    · rw [heq]
      obtain rfl := Option.some.inj hrow'
      exact hready _ (.inr ⟨_, rfl⟩)
    · rw [heq]
      obtain rfl := Option.some.inj hrow'
      exact hready .ended (.inl rfl)

theorem Kept.discarded (h : Kept measures id f) {errorCode : String}
    (hdiscarding : f.creation = .discarding errorCode) (outcome : WriteOutcome)
    (hcareful : f.Careful (.discard outcome)) :
    Kept measures id
      { f with
        objects := (outcome.apply (some f.objects.discard) f.objects).1
        creation := .failing errorCode } := by
  have hcreating : ∀ {P : Prop}, (ArtifactCreation.failing errorCode = .saving
      ∨ ∃ stored, ArtifactCreation.failing errorCode = .finalizing stored) → P := by
    rintro P (h | ⟨_, h⟩) <;> cases h
  have hdone : outcome ≠ .raisedBefore → Kept measures id
      { f with objects := f.objects.discard, creation := .failing errorCode } := by
    intro houtcome
    have hunready : ¬ f.Ready := fun hready =>
      houtcome (hcareful hready errorCode outcome hdiscarding rfl)
    refine ⟨h.key, fun h => (nomatch h), hcreating, h.untouched, fun _ h => (nomatch h), h.clearing,
      fun r hrow hstatus => absurd ⟨r, hrow, hstatus⟩ hunready⟩
  cases outcome with
  | raisedBefore =>
    exact ⟨h.key, fun h => (nomatch h), hcreating, h.untouched, fun _ h => (nomatch h), h.clearing,
      h.ready⟩
  | raisedAfter => exact hdone (by decide)
  | done => exact hdone (by decide)

theorem Kept.markedFailed (h : Kept measures id f) {errorCode : String} (now : Instant)
    (outcome : WriteOutcome) :
    Kept measures id
      { f with
        row := (outcome.apply (transition .pending (failedRow errorCode now) f.row) f.row).1
        creation := .ended } := by
  have hcreating : ∀ {P : Prop}, (ArtifactCreation.ended = .saving
      ∨ ∃ stored, ArtifactCreation.ended = .finalizing stored) → P := by
    rintro P (h | ⟨_, h⟩) <;> cases h
  have hsame : Kept measures id { f with creation := .ended } :=
    ⟨h.key, fun h => (nomatch h), hcreating, h.untouched, fun _ h => (nomatch h),
      h.clearing, h.ready⟩
  have hfailed : ∀ row, transition .pending (failedRow errorCode now) f.row = some row →
      Kept measures id { f with row, creation := .ended } := by
    intro row hrow
    unfold transition at hrow
    split at hrow
    · cases hrow
    · next r hr =>
      split at hrow
      · obtain rfl := Option.some.inj hrow
        refine ⟨fun r' hr' => ?_, fun h => (nomatch h), hcreating, fun hall => ?_,
          fun _ h => (nomatch h), fun _ => ?_, fun r' hr' hstatus => ?_⟩
        · obtain rfl := Option.some.inj hr'
          exact h.key r hr
        · exact absurd (hall _ rfl) (fun h => nomatch h)
        · rintro ⟨r', hr', hstatus⟩
          obtain rfl := Option.some.inj hr'
          cases hstatus
        · obtain rfl := Option.some.inj hr'
          cases hstatus
      · cases hrow
  rcases outcome.apply_cases (transition .pending (failedRow errorCode now) f.row) f.row with heq
    | ⟨row, hrow, -, heq⟩ | ⟨row, hrow, -, heq⟩
  · rw [heq]
    exact hsame
  · rw [heq]
    exact hfailed row hrow
  · rw [heq]
    exact hfailed row hrow

theorem Kept.deleted (h : Kept measures id f) :
    Kept measures id (f.step measures registry id .delete) := by
  dsimp only [ArtifactFiling.step]
  split
  · exact h
  · next r hrow =>
    have happended : ∀ d, r.status ≠ .pending → (d = .clearing → r.status ≠ .ready) →
        Kept measures id { f with deletions := f.deletions ++ [d] } := by
      intro d hpending hclearing
      refine ⟨h.key, h.absent, h.pending, fun hall => absurd (hall r hrow) hpending, h.finalizing,
        fun hmem => ?_, fun r' hrow' hstatus => ?_⟩
      · rcases List.mem_append.mp hmem with hold | hnew
        · exact h.clearing hold
        · rintro ⟨r', hrow', hstatus⟩
          obtain rfl := Option.some.inj (hrow.symm.trans hrow')
          exact hclearing (List.mem_singleton.mp hnew).symm hstatus
      · obtain ⟨content, hrecorded, honly, hthere⟩ := h.ready r' hrow' hstatus
        refine ⟨content, hrecorded, honly, hthere.imp_right fun ⟨hin, x, hx, hholds⟩ => ?_⟩
        exact ⟨hin, x, List.mem_append_left _ hx, hholds⟩
    split
    · split
      · next hfailed =>
        refine happended .clearing ?_ (fun _ => ?_)
        · rw [hfailed]
          decide
        · rw [hfailed]
          decide
      · next hready =>
        refine happended .quarantining ?_ (fun h => nomatch h)
        rw [hready]
        decide
      · exact h
      · exact h
    · exact h

theorem Kept.cleared (h : Kept measures id f) (hp : f.deletions[p]? = some .clearing)
    (outcome : WriteOutcome) :
    Kept measures id (f.step measures registry id (.clear p outcome)) := by
  have hunready : ¬ f.Ready := h.clearing (List.mem_of_getElem? hp)
  have hmoved : ∀ objects new, new ≠ ArtifactDeletion.clearing →
      Kept measures id { f with objects, deletions := f.deletions.set p new } := by
    intro objects new hnew
    exact h.moveObjects hp hnew fun r hrow hstatus => absurd ⟨r, hrow, hstatus⟩ hunready
  dsimp only [ArtifactFiling.step]
  rw [if_pos hp]
  exact hmoved _ _ (by split <;> decide)

theorem Kept.quarantined (h : Kept measures id f) (hp : f.deletions[p]? = some .quarantining)
    (leftBehind : Bool) (outcome : WriteOutcome) :
    Kept measures id (f.quarantineDone p leftBehind outcome) := by
  have hmoved : ∀ o' new, new ≠ ArtifactDeletion.clearing →
      mayHold new = true → f.objects.quarantine leftBehind = some o' →
      Kept measures id { f with objects := o', deletions := f.deletions.set p new } := by
    intro o' new hnew hholds ho'
    refine h.moveObjects hp hnew fun r hrow hstatus content honly _ => ?_
    obtain ⟨honly', -, hquarantined, -⟩ := honly.quarantine ho'
    refine ⟨honly', .inr ⟨?_, new, mem_set_self hp, hholds⟩⟩
    rw [hquarantined]
    rfl
  have hstays : Kept measures id { f with deletions := f.deletions.set p .raised } := h.raise hp
  unfold ArtifactFiling.quarantineDone
  rcases outcome.apply_cases (f.objects.quarantine leftBehind) f.objects with heq
    | ⟨o', ho', -, heq⟩ | ⟨o', ho', -, heq⟩
  · rw [heq]
    exact hstays
  · rw [heq]
    exact hmoved o' .raised (fun h => nomatch h) rfl ho'
  · rw [heq]
    exact hmoved o' .quarantined (fun h => nomatch h) rfl ho'

theorem Kept.restored (h : Kept measures id f) (hp : f.deletions[p]? = some .restoring)
    (leftBehind : Bool) (outcome : WriteOutcome) :
    Kept measures id (f.restoreDone p leftBehind outcome) := by
  have hmoved : ∀ o' new, new ≠ ArtifactDeletion.clearing →
      f.objects.restore leftBehind = some o' →
      Kept measures id { f with objects := o', deletions := f.deletions.set p new } := by
    intro o' new hnew ho'
    refine h.moveObjects hp hnew fun r hrow hstatus content honly _ => ?_
    obtain ⟨honly', horiginal⟩ := honly.restore ho'
    refine ⟨honly', .inl ?_⟩
    rw [horiginal]
    rfl
  have hstays : Kept measures id { f with deletions := f.deletions.set p .raised } := h.raise hp
  unfold ArtifactFiling.restoreDone
  rcases outcome.apply_cases (f.objects.restore leftBehind) f.objects with heq
    | ⟨o', ho', -, heq⟩ | ⟨o', ho', -, heq⟩
  · rw [heq]
    exact hstays
  · rw [heq]
    exact hmoved o' .raised (fun h => nomatch h) ho'
  · rw [heq]
    exact hmoved o' .ended (fun h => nomatch h) ho'

/-- `_mark_deleted` returns without a write only for a deleted row. -/
theorem markedDeleted_cases (expected : ArtifactStatus) (now : Instant) (outcome : WriteOutcome)
    (row : Option ProviderRunArtifactRecord) :
    (∃ r, row = some r ∧ (markedDeleted expected now outcome row).1 = some (deletedRow now r))
      ∨ (markedDeleted expected now outcome row).1 = row
        ∧ ((markedDeleted expected now outcome row).2 = true →
          ∃ r, row = some r ∧ r.status = .deleted) := by
  have hwrites : ∀ r row', transition expected (deletedRow now) (some r) = some row' →
      row' = some (deletedRow now r) := by
    intro r row' hrow'
    dsimp only [transition] at hrow'
    split at hrow'
    · exact (Option.some.inj hrow').symm
    · cases hrow'
  cases row with
  | none => cases outcome <;> exact .inr ⟨rfl, fun h => nomatch h⟩
  | some r =>
    unfold markedDeleted
    split
    · next hdeleted => exact .inr ⟨rfl, fun _ => ⟨r, rfl, of_decide_eq_true hdeleted⟩⟩
    · rcases outcome.apply_cases (transition expected (deletedRow now) (some r)) (some r) with heq
        | ⟨row, hrow, -, heq⟩ | ⟨row, hrow, -, heq⟩
      · rw [heq]
        exact .inr ⟨rfl, fun h => nomatch h⟩
      · rw [heq, hwrites r row hrow]
        exact .inl ⟨r, rfl, rfl⟩
      · rw [heq, hwrites r row hrow]
        exact .inl ⟨r, rfl, rfl⟩

/-- A deletion is moved on after `_mark_deleted`. It goes on holding the object of a row that it has
found neither deleted nor to be deleted. -/
theorem Kept.markedDeleted (h : Kept measures id f) (hp : f.deletions[p]? = some old)
    (hnew : new ≠ .clearing) (expected : ArtifactStatus) (now : Instant) (outcome : WriteOutcome)
    (hkeeps : mayHold old = true →
      (ArtifactFiling.markedDeleted expected now outcome f.row).2 = false →
      mayHold new = true) :
    Kept measures id
      { f with
        row := (ArtifactFiling.markedDeleted expected now outcome f.row).1
        deletions := f.deletions.set p new } := by
  have hclearing : .clearing ∈ f.deletions.set p new → ¬ f.Ready :=
    fun hmem => h.clearing (mem_of_mem_set hnew.symm hmem)
  rcases markedDeleted_cases expected now outcome f.row with ⟨r, hrow, heq⟩ | ⟨heq, hreturned⟩
  · rw [heq]
    refine ⟨fun r' hr' => ?_, fun habsent => ?_,
      fun hcreating => absurd hcreating (h.not_creating hp),
      fun hall => ?_, fun stored hstored => absurd (.inr ⟨stored, hstored⟩) (h.not_creating hp),
      fun _ => ?_, fun r' hr' hstatus => ?_⟩
    · obtain rfl := Option.some.inj hr'
      exact h.key r hrow
    · exact nomatch hrow.symm.trans (h.absent habsent)
    · exact absurd (hall _ rfl) (fun h => nomatch h)
    · rintro ⟨r', hr', hstatus⟩
      obtain rfl := Option.some.inj hr'
      cases hstatus
    · obtain rfl := Option.some.inj hr'
      cases hstatus
  · rw [heq]
    refine ⟨h.key, h.absent, h.pending, fun hall => absurd hall (h.not_pending hp),
      h.finalizing, hclearing, fun r hrow hstatus => ?_⟩
    obtain ⟨content, hrecorded, honly, hthere⟩ := h.ready r hrow hstatus
    refine ⟨content, hrecorded, honly, hthere.imp_right fun ⟨hin, hheld⟩ =>
      ⟨hin, exists_mem_set hp (fun hold => hkeeps hold ?_) hheld⟩⟩
    -- a ready row is not what it returns for
    by_contra hdone
    obtain ⟨r', hrow', hdeleted⟩ := hreturned (Bool.not_eq_false _ ▸ hdone)
    obtain rfl := Option.some.inj (hrow.symm.trans hrow')
    exact absurd (hstatus.symm.trans hdeleted) (by decide)

theorem Kept.step (h : Kept measures id f) {e : ArtifactEvent β} (hcareful : f.Careful e) :
    Kept measures id (f.step measures registry id e) := by
  cases e with
  | create filename now outcome audited =>
    show Kept measures id (ite _ _ _)
    split
    · next habsent => exact h.started habsent filename now outcome audited
    · exact h
  | save label content outcome error =>
    show Kept measures id (ite _ _ _)
    split
    · next hsaving => exact h.saved hsaving label content outcome error
    · exact h
  | finalizeReady now outcome error =>
    dsimp only [ArtifactFiling.step]
    split
    · next hfinalizing => exact h.finalized hfinalizing now outcome error
    all_goals exact h
  | discard outcome =>
    dsimp only [ArtifactFiling.step]
    split
    · next hdiscarding => exact h.discarded hdiscarding outcome hcareful
    all_goals exact h
  | markFailed now outcome =>
    dsimp only [ArtifactFiling.step]
    split
    · exact h.markedFailed now outcome
    all_goals exact h
  | delete => exact h.deleted
  | clear p outcome =>
    by_cases hp : f.deletions[p]? = some .clearing
    · exact h.cleared hp outcome
    · dsimp only [ArtifactFiling.step]
      rw [if_neg hp]
      exact h
  | quarantine p leftBehind outcome =>
    show Kept measures id (ite _ _ _)
    split
    · next hp => exact h.quarantined hp leftBehind outcome
    · exact h
  | markDeleted p now outcome =>
    dsimp only [ArtifactFiling.step]
    split
    -- a failed artifact is not offered, so its object is not asked for
    · next hp => exact h.markedDeleted hp (by decide) .failed now outcome (fun hold => nomatch hold)
    · next hp =>
      refine h.markedDeleted hp ?_ .ready now outcome fun _ hraised => ?_
      · split <;> decide
      · rw [hraised]
        rfl
    all_goals exact h
  | restore p leftBehind outcome =>
    show Kept measures id (ite _ _ _)
    split
    · next hp => exact h.restored hp leftBehind outcome
    · exact h

theorem Kept.empty (measures : Measures β) (id : Uuid) :
    Kept measures id ArtifactFiling.empty := by
  refine .ofUntouched (fun _ h => (nomatch h)) rfl rfl (fun _ h => (nomatch h)) (fun _ => rfl)
    (fun hcreating => ?_) (fun _ h => (nomatch h))
  rcases hcreating with h | ⟨_, h⟩ <;> cases h

end

/-- The artifacts after the steps of their operations, in any order. -/
def runAll (measures : Measures β) (registry : StorageRegistry)
    (es : List (Uuid × ArtifactEvent β)) : Uuid → ArtifactFiling β :=
  Transition.run (Transition.family (step measures registry)) (fun _ => empty) es

/-- A text and its length, in one local storage. -/
def textMeasures : Measures String := ⟨String.length, fun content => content⟩

/-- A registry with the local file system alone. -/
def localStorage : StorageRegistry :=
  ⟨fun backend => if backend = "local_filesystem" then some "" else none, "local_filesystem"⟩

end QaPlatform.Runtime.ArtifactFiling
