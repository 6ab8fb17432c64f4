import QaPlatform.CiLab.TriggerRequests
import QaPlatform.Runtime.JsonTexts

/-!
# The Learning CI contract is the CI Lab's own

`trigger_provider` checks a trigger of a Learning CI connection before it is stored. What
passes is accepted on the other side: the adapter sends it, and the CI Lab's middleware,
validation and key pattern let it through as the request that it was.

The stages are proved one by one and put together: the request model is built, the adapter
encodes the body, the middleware bounds it, the validation reads it back, and the service finds
no fault with the input. No stage checks more of the request than the ones before it. The bound
on the body is one on bytes, so the texts that are sent are measured: the variables are as long
as their canonical text.
-/

namespace QaPlatform

open JsonText (Doc Members)

/-! ## Uuids -/

namespace CiLab

theorem readHyphenated_groups {a b c d e : List Char} (ha : a.length = 8) (hb : b.length = 4)
    (hc : c.length = 4) (hd : d.length = 4) (he : e.length = 12) :
    readHyphenated (a ++ '-' :: (b ++ '-' :: (c ++ '-' :: (d ++ '-' :: e))))
      = Hex.read (a ++ (b ++ (c ++ (d ++ e)))) := by
  unfold readHyphenated
  rw [if_pos (by simp [ha, hb, hc, hd, he])]
  simp (disch := omega) [List.drop_append, List.drop_eq_nil_of_le, ha, hb, hc, hd]

theorem readUuid_uuidText {id : Uuid} (h : id < 2 ^ 128) :
    readUuid (uuidText id).toList = some id := by
  have hgroups (value : Nat) : Hex.digits 8 (value / 16 ^ 24) ++ (Hex.digits 4 (value / 16 ^ 20)
      ++ (Hex.digits 4 (value / 16 ^ 16) ++ (Hex.digits 4 (value / 16 ^ 12)
      ++ Hex.digits 12 value))) = Hex.digits 32 value := by
    rw [Hex.digits_append 4 12, Hex.digits_append 4 16, Hex.digits_append 4 20,
      Hex.digits_append 8 24]
  have hlength : (uuidText id).toList.length = 36 := by
    rw [String.length_toList, length_uuidText]
  have hurn : (uuidText id).toList.take 9 ≠ "urn:uuid:".toList := by
    intro h
    have hcolon : ':' ∈ (uuidText id).toList := by
      refine List.mem_of_mem_take ?_ (i := 9)
      rw [h]
      decide
    have hclass := mem_uuidText hcolon
    revert hclass
    decide
  unfold readUuid
  rw [if_neg (by omega), if_neg (by omega), if_neg hurn]
  unfold uuidText
  rw [String.toList_ofList, readHyphenated_groups, hgroups]
  · exact Hex.read_digits (by omega)
  all_goals exact Hex.length_digits _ _

end CiLab

/-! ## The canonical text of variables -/

namespace Runtime

open Pipeline.LearningCi (members text texts)

/-- The members of a dictionary of texts, each behind a comma. -/
def textMembers (entries : List (String × String)) : Members :=
  members (entries.map fun (key, value) => (key, text value))

theorem renderMembers_cons (key value : String) (entries : List (String × String)) :
    JsonText.renderMembers (textMembers ((key, value) :: entries))
      = ',' :: ((jsonString key ++ ":" ++ jsonString value).toList
          ++ JsonText.renderMembers (textMembers entries)) := by
  have hcolon : ":".toList = [':'] := rfl
  simp only [textMembers, members, text, List.map_cons, JsonText.renderMembers, JsonText.render,
    String.toList_append, toList_jsonString, hcolon, List.append_assoc, List.cons_append,
    List.nil_append]

/-- Members behind commas, but for the first one, are members between commas. -/
theorem tail_renderMembers_texts (entries : List (String × String)) :
    (JsonText.renderMembers (textMembers entries)).tail
      = [','].intercalate ((entries.map fun (key, value) =>
          jsonString key ++ ":" ++ jsonString value).map String.toList) := by
  induction entries with
  | nil => rfl
  | cons entry entries ih =>
    obtain ⟨key, value⟩ := entry
    rw [renderMembers_cons, List.tail_cons, List.map_cons, List.map_cons]
    cases entries with
    | nil => simp [textMembers, members, JsonText.renderMembers]
    | cons next entries =>
      obtain ⟨key', value'⟩ := next
      rw [List.intercalate_cons_of_ne_nil (by simp), ← ih, renderMembers_cons]
      simp

theorem toList_jsonStrings (entries : List (String × String)) :
    (jsonStrings entries).toList
      = JsonText.render (texts (entries.mergeSort fun a b => a.1 ≤ b.1)) := by
  have hopen : "\x7b".toList = ['\x7b'] := rfl
  have hclose : "\x7d".toList = ['\x7d'] := rfl
  have hcomma : ",".toList = [','] := rfl
  have hmembers := tail_renderMembers_texts (entries.mergeSort fun a b => a.1 ≤ b.1)
  unfold textMembers at hmembers
  simp only [jsonStrings, texts, JsonText.render, String.toList_append, String.toList_intercalate,
    hopen, hclose, hcomma, hmembers, List.cons_append, List.nil_append]

/-- The variables as they are sent are as long as their canonical text. -/
theorem bytes_texts (entries : List (String × String)) :
    JsonText.bytes (JsonText.render (texts entries)) = (jsonStrings entries).utf8ByteSize := by
  have hcanonical : jsonStrings entries
      = String.ofList (JsonText.render (texts (entries.mergeSort fun a b => a.1 ≤ b.1))) := by
    rw [← toList_jsonStrings, String.ofList_toList]
  rw [hcanonical, JsonText.utf8ByteSize_ofList]
  refine JsonText.bytes_object_perm ?_
  exact ((List.mergeSort_perm entries _).symm.map _).map _

/-! ## What the contract promises -/

/-- A payload that `validate_learning_ci_contract` passes as well. -/
structure CheckedTrigger (casefold : String → String) extends AcceptedTrigger casefold where
  contract : toProviderTriggerPayload.validateLearningCiContract = .ok ()

theorem contract_ok {payload : ProviderTriggerPayload}
    (h : payload.validateLearningCiContract = .ok ()) :
    (∀ ref, payload.ref = some ref → safeText ['.', '_', '-'] 128 ref)
      ∧ (∀ correlationId, payload.correlationId = some correlationId →
          safeText ['.', '_', ':', '-'] 200 correlationId)
      ∧ payload.triggerVariables.length ≤ 32
      ∧ (∀ entry ∈ payload.triggerVariables, validateVariable entry = .ok ())
      ∧ (jsonStrings payload.triggerVariables).utf8ByteSize ≤ 8192 := by
  unfold ProviderTriggerPayload.validateLearningCiContract at h
  rw [refuse_bind_eq_ok, refuse_bind_eq_ok, refuse_bind_eq_ok, then_eq_ok, forM_eq_ok,
    refuse_eq_ok] at h
  obtain ⟨href, hcorrelation, hcount, hvariables, hsize⟩ := h
  refine ⟨?_, ?_, Nat.not_lt.mp hcount, hvariables, Nat.not_lt.mp hsize⟩
  · intro ref hgiven
    simpa [hgiven] using href
  · intro correlationId hgiven
    simpa [hgiven] using hcorrelation

end Runtime

/-! ## The patterns of both sides -/

namespace CiLab

open QaPlatform.Runtime (checkLength checkLength_eq_ok checkOption checkOption_eq_ok safeText
  safeText_iff variableNameValid)

theorem isAlnum_eq : isAlnum = Char.isAlphanum := by
  funext c
  rw [Bool.eq_iff_iff, Ascii.isAlphanum_iff]
  simp only [isAlnum, decide_eq_true_eq]
  exact Iff.rfl

theorem isUpper_eq : isUpper = Char.isUpper := by
  funext c
  rw [Bool.eq_iff_iff, Ascii.isUpper_iff]
  simp only [isUpper, decide_eq_true_eq]
  exact Iff.rfl

theorem fullmatch_of {first rest : Char → Bool} {n : Nat} {value : String}
    (hfirst : value.toList.head?.any first) (hlength : value.length ≤ n + 1)
    (hrest : ∀ c ∈ value.toList, rest c) : fullmatch first rest n value := by
  unfold fullmatch
  rw [← String.length_toList] at hlength
  cases htext : value.toList with
  | nil => simp [htext] at hfirst
  | cons c text =>
    rw [htext] at hfirst hrest hlength
    simp only [List.length_cons] at hlength
    simp only [decide_eq_true_eq, List.all_eq_true]
    exact ⟨by simpa using hfirst, by omega, fun d hd => hrest d (List.mem_cons_of_mem _ hd)⟩

theorem isRef_of_safeText {value : String} (h : safeText ['.', '_', '-'] 128 value) :
    isRef value := by
  obtain ⟨hstart, hlength, hsafe⟩ := safeText_iff.mp h
  refine fullmatch_of (isAlnum_eq ▸ hstart) hlength ?_
  intro c hc
  have hclass := hsafe c hc
  simpa [isAlnum_eq] using hclass

theorem isIdempotencyKey_of_safeText {value : String}
    (h : safeText ['.', '_', ':', '-'] 200 value) : isIdempotencyKey value := by
  obtain ⟨hstart, hlength, hsafe⟩ := safeText_iff.mp h
  refine fullmatch_of (isAlnum_eq ▸ hstart) hlength ?_
  intro c hc
  have hclass := hsafe c hc
  simpa [isAlnum_eq] using hclass

theorem isVariableName_of {value : String} (h : variableNameValid value) :
    isVariableName value := by
  simp only [variableNameValid, decide_eq_true_eq, List.all_eq_true] at h
  obtain ⟨hstart, hlength, hsafe⟩ := h
  refine fullmatch_of (isUpper_eq ▸ hstart) hlength ?_
  intro c hc
  have hclass := hsafe c hc
  have hdigit : c.isDigit ↔ '0' ≤ c ∧ c ≤ '9' := Ascii.isDigit_iff
  simpa [isUpper_eq, hdigit, or_assoc] using hclass

/-- The two loop bodies differ in the way that they spell the pattern of a name. -/
theorem validateVariable_of {entry : String × String}
    (h : Runtime.validateVariable entry = .ok ()) : validateVariable entry = .ok () := by
  unfold Runtime.validateVariable at h
  unfold validateVariable
  simp only [refuse_bind_eq_ok, not_not] at h ⊢
  exact ⟨isVariableName_of h.1, h.2⟩

theorem validateVariables_of {payload : Runtime.ProviderTriggerPayload}
    (h : payload.validateLearningCiContract = .ok ()) :
    validateVariables payload.triggerVariables = .ok () := by
  obtain ⟨-, -, hcount, hvariables, hsize⟩ := Runtime.contract_ok h
  unfold validateVariables
  rw [refuse_bind_eq_ok, then_eq_ok, forM_eq_ok, refuse_eq_ok]
  exact ⟨Nat.not_lt.mpr hcount, fun entry hentry => validateVariable_of (hvariables entry hentry),
    Nat.not_lt.mpr hsize⟩

/-! ## The body -/

open Pipeline.LearningCi (members text texts optionalText)

theorem field_members (entries : List (String × Doc)) (name : String) :
    field (members entries) name = entries.lookup name := by
  unfold field members
  induction entries with
  | nil => rfl
  | cons entry entries ih =>
    obtain ⟨key, value⟩ := entry
    rw [List.map_cons, List.lookup_cons, List.lookup_cons, ih]
    by_cases hkey : name = key
    · subst hkey
      rw [beq_self_eq_true, beq_self_eq_true]
    · have htext : name.toList ≠ key.toList := fun h => hkey (String.toList_injective h)
      rw [beq_false_of_ne hkey, beq_false_of_ne htext]

theorem keys_members (entries : List (String × Doc)) :
    (members entries).map Prod.fst = (entries.map Prod.fst).map String.toList := by
  simp [members, Function.comp_def]

theorem nodup_members {entries : List (String × Doc)} (h : (entries.map Prod.fst).Nodup) :
    ((members entries).map Prod.fst).Nodup := by
  rw [keys_members]
  exact h.map fun _ _ => String.toList_injective

/-- A body that was sent is read as the dictionary that it was. -/
theorem loads_sent {entries : List (String × Doc)} (h : (entries.map Prod.fst).Nodup) :
    loads (String.ofList (JsonText.render (.object (members entries))))
    = some (members entries) := by
  unfold loads
  rw [String.toList_ofList, JsonText.parse_render]
  exact congrArg some (JsonText.asDict_of_nodup (nodup_members h))

theorem textField_optionalText (value : Option String) :
    textField (some (optionalText value)) = .ok value := by
  cases value with
  | none => rfl
  | some value => simp [optionalText, text, textField]

theorem mapM_textEntry (entries : List (String × String)) :
    (members (entries.map fun (key, value) => (key, text value))).mapM textEntry
      = .ok entries := by
  induction entries with
  | nil => rfl
  | cons entry entries ih =>
    obtain ⟨key, value⟩ := entry
    simp only [members, List.map_cons] at ih ⊢
    rw [List.mapM_cons, ih]
    simp only [textEntry, text, String.ofList_toList]
    rfl

theorem textsField_texts {entries : List (String × String)} (h : (entries.map Prod.fst).Nodup) :
    textsField (some (texts entries)) = .ok entries := by
  have hkeys : ((entries.map fun (key, value) => (key, text value)).map Prod.fst).Nodup := by
    simpa [Function.comp_def] using h
  simp only [textsField, texts]
  rw [JsonText.asDict_of_nodup (nodup_members hkeys), mapM_textEntry]

theorem uuidField_uuidText {id : Uuid} (h : id < 2 ^ 128) :
    uuidField (some (text (uuidText id))) = .ok (some id) := by
  simp only [uuidField, text]
  rw [readUuid_uuidText h]
  rfl

/-- The request that a payload amounts to for the CI Lab. -/
def expectedRequest (payload : Runtime.ProviderTriggerPayload) (correlationId : String)
    (webhook : Option (Fin (2 ^ 128))) : TriggerRunRequest where
  ref := payload.ref
  triggerVariables := payload.triggerVariables
  webhookConnectionId := webhook.map Fin.val
  correlationId := webhook.map fun _ => correlationId
  paired := by cases webhook <;> rfl

/-- The fields of the body. -/
def sentFields (payload : Runtime.ProviderTriggerPayload) (correlationId : String)
    (webhook : Option (Fin (2 ^ 128))) : List (String × Doc) :=
  [("ref", optionalText payload.ref), ("variables", texts payload.triggerVariables)]
    ++ webhook.elim [] fun id =>
      [("webhook_connection_id", text (uuidText id.val)), ("correlation_id", text correlationId)]

section
variable (payload : Runtime.ProviderTriggerPayload) (correlationId : String)
  (webhook : Option (Fin (2 ^ 128)))

theorem lookup_ref : (sentFields payload correlationId webhook).lookup "ref"
    = some (optionalText payload.ref) := rfl

theorem lookup_variables : (sentFields payload correlationId webhook).lookup "variables"
    = some (texts payload.triggerVariables) := rfl

theorem lookup_webhookConnectionId :
    (sentFields payload correlationId webhook).lookup "webhook_connection_id"
      = webhook.map fun id => text (uuidText id.val) := by
  cases webhook with
  | none => rfl
  | some id => rfl

theorem lookup_correlationId :
    (sentFields payload correlationId webhook).lookup "correlation_id"
      = webhook.map fun _ => text correlationId := by
  cases webhook with
  | none => rfl
  | some id => rfl

theorem sentFields_keys : ∀ key ∈ (sentFields payload correlationId webhook).map Prod.fst,
    key ∈ triggerFields := by
  cases webhook with
  | none => simp [sentFields, triggerFields]
  | some id => simp [sentFields, triggerFields]

theorem sentFields_nodup : ((sentFields payload correlationId webhook).map Prod.fst).Nodup := by
  cases webhook with
  | none => simp [sentFields]
  | some id => simp [sentFields]

theorem sentFields_extra : ∀ member ∈ members (sentFields payload correlationId webhook),
    String.ofList member.1 ∈ triggerFields := by
  intro member hmember
  obtain ⟨entry, hentry, rfl⟩ := List.mem_map.mp hmember
  rw [String.ofList_toList]
  exact sentFields_keys payload correlationId webhook _ (List.mem_map_of_mem hentry)

end

theorem validate_sent {casefold : String → String} (payload : Runtime.CheckedTrigger casefold)
    {correlationId : String} (hcorrelation : safeText ['.', '_', ':', '-'] 200 correlationId)
    (webhook : Option (Fin (2 ^ 128))) :
    TriggerRunRequest.validate
        (members (sentFields payload.toProviderTriggerPayload correlationId webhook))
      = .ok (expectedRequest payload.toProviderTriggerPayload correlationId webhook) := by
  obtain ⟨href, -⟩ := Runtime.contract_ok payload.contract
  have hrefLength : checkOption (checkLength 0 128) payload.ref = .ok () :=
    checkOption_eq_ok.mpr fun ref hgiven =>
      checkLength_eq_ok.mpr ⟨Nat.zero_le _, (safeText_iff.mp (href ref hgiven)).2.1⟩
  have hrefSafe : checkOption validateRef payload.ref = .ok () := by
    refine checkOption_eq_ok.mpr fun ref hgiven => ?_
    unfold validateRef
    rw [refuse_eq_ok, not_not]
    exact isRef_of_safeText (href ref hgiven)
  have hlength : checkLength 0 200 correlationId = .ok () :=
    checkLength_eq_ok.mpr ⟨Nat.zero_le _, (safeText_iff.mp hcorrelation).2.1⟩
  have hsafe : validateCorrelationId correlationId = .ok () := by
    unfold validateCorrelationId
    rw [refuse_eq_ok, not_not]
    exact isIdempotencyKey_of_safeText hcorrelation
  unfold TriggerRunRequest.validate
  rw [refuse_bind_of_not (not_not.mpr (sentFields_extra _ _ _))]
  simp only [field_members, lookup_ref, lookup_variables, lookup_webhookConnectionId,
    lookup_correlationId, textField_optionalText, textsField_texts payload.distinct, ok_bind,
    hrefLength, hrefSafe, validateVariables_of payload.contract]
  cases webhook with
  | none =>
    rfl
  | some id =>
    rw [Option.map_some, uuidField_uuidText id.isLt, ok_bind]
    have hfield : textField (some (text correlationId)) = .ok (some correlationId) :=
      textField_optionalText (some correlationId)
    have hlength' : checkOption (checkLength 0 200) (some correlationId) = .ok () := hlength
    have hsafe' : checkOption validateCorrelationId (some correlationId) = .ok () := hsafe
    rw [Option.map_some, hfield, ok_bind, hlength', ok_bind, hsafe', ok_bind]
    rfl

/-! ## The size of the body -/

theorem isPlain_of_isAlphanum {c : Char} (hc : c.isAlphanum) : JsonText.IsPlain c := by
  have hrange := Ascii.isAlphanum_iff.mp hc
  refine ⟨by omega, by omega, ?_, ?_⟩
  · rintro rfl
    revert hrange
    decide
  · rintro rfl
    revert hrange
    decide

/-- A safe text is sent as it is, between quotes. -/
theorem bytes_safeText {extra : List Char} (hextra : ∀ c ∈ extra, JsonText.IsPlain c)
    {maxLength : Nat} {value : String} (h : safeText extra maxLength value) :
    JsonText.bytes (JsonText.render (text value)) ≤ maxLength + 2 := by
  obtain ⟨-, hlength, hsafe⟩ := safeText_iff.mp h
  have hplain : ∀ c ∈ value.toList, JsonText.IsPlain c := by
    intro c hc
    obtain hclass | hclass := hsafe c hc
    · exact isPlain_of_isAlphanum hclass
    · exact hextra c hclass
  simp only [text, JsonText.render]
  rw [JsonText.bytes_renderText hplain, String.length_toList]
  omega

theorem plain_extra : ∀ c ∈ ['.', '_', ':', '-'], JsonText.IsPlain c := by
  intro c hc
  simp only [List.mem_cons, List.not_mem_nil, or_false] at hc
  obtain rfl | rfl | rfl | rfl := hc
  all_goals exact ⟨by decide, by decide, by decide, by decide⟩

theorem bytes_uuidText (id : Uuid) :
    JsonText.bytes (JsonText.render (text (uuidText id))) = 38 := by
  have hplain : ∀ c ∈ (uuidText id).toList, JsonText.IsPlain c := by
    intro c hc
    obtain hclass | rfl := mem_uuidText hc
    · exact isPlain_of_isAlphanum hclass
    · exact plain_extra _ (by simp)
  simp only [text, JsonText.render]
  rw [JsonText.bytes_renderText hplain, String.length_toList, length_uuidText]

theorem sent_size {casefold : String → String} (payload : Runtime.CheckedTrigger casefold)
    {correlationId : String} (hcorrelation : safeText ['.', '_', ':', '-'] 200 correlationId)
    (webhook : Option (Fin (2 ^ 128))) :
    JsonText.bytes (JsonText.render (.object (members
      (sentFields payload.toProviderTriggerPayload correlationId webhook))))
      ≤ maxRequestBodyBytes := by
  obtain ⟨href, -, -, -, hvariables⟩ := Runtime.contract_ok payload.contract
  rw [← Runtime.bytes_texts] at hvariables
  have hid := bytes_safeText plain_extra hcorrelation
  have href' : JsonText.bytes (JsonText.render (optionalText payload.ref)) ≤ 130 := by
    cases hgiven : payload.ref with
    | none => decide
    | some ref =>
      exact bytes_safeText (fun c hc => plain_extra c (by revert hc; simp; tauto)) (href ref hgiven)
  have hrefKey : JsonText.bytes (JsonText.renderText "ref".toList) = 5 := rfl
  have hvariablesKey : JsonText.bytes (JsonText.renderText "variables".toList) = 11 := rfl
  have hconnectionKey :
    JsonText.bytes (JsonText.renderText "webhook_connection_id".toList) = 23 := rfl
  have hcorrelationKey : JsonText.bytes (JsonText.renderText "correlation_id".toList) = 16 := rfl
  refine (JsonText.bytes_object_le _).trans ?_
  unfold maxRequestBodyBytes
  cases webhook with
  | none =>
    simp only [sentFields, members, Option.elim_none, List.append_nil, List.map_cons, List.map_nil,
      JsonText.bytes_renderMembers_cons, JsonText.bytes_renderMembers_nil, hrefKey, hvariablesKey]
    omega
  | some id =>
    have huuid := bytes_uuidText id.val
    simp only [sentFields, members, Option.elim_some, List.cons_append, List.nil_append,
      List.map_cons, List.map_nil, JsonText.bytes_renderMembers_cons,
      JsonText.bytes_renderMembers_nil, hrefKey, hvariablesKey, hconnectionKey, hcorrelationKey,
      huuid]
    omega

/-! ## The service behind -/

/-- The service finds fault with what the caller sent. -/
def CiLabError.FaultsInput (e : CiLabError) : Prop := ∃ message, e = .validation message

theorem enqueueWebhookIfChanged_raises (setup : Setup) (s : CiLabStore) (run : RunRecord)
    (gate : Option QualityGateRecord) (now : Instant) :
    Raises (fun e => ¬ e.FaultsInput) (s.enqueueWebhookIfChanged setup run gate now) := by
  unfold CiLabStore.enqueueWebhookIfChanged
  split
  · exact .pure
  · dsimp only
    split
    · exact .pure
    · exact .bind (.refuse (by simp [CiLabError.FaultsInput])) fun _ _ =>
        .bind (.refuse (by simp [CiLabError.FaultsInput])) fun _ _ => .pure

theorem refreshRecord_raises (setup : Setup) (registry : DefinitionRegistry) (s : CiLabStore)
    (record : RunRecord) (now : Instant) :
    Raises (fun e => ¬ e.FaultsInput) (s.refreshRecord setup registry record now) := by
  refine .bind ?_ fun _ _ => .pure
  exact .bind (.demand (by simp [CiLabError.FaultsInput])) fun _ _ =>
    .bind (.refuse (by simp [CiLabError.FaultsInput])) fun _ _ => .pure

theorem insertRow_raises {ρ : Type} [Keyed ρ] (t : Table ρ) (row : Option ρ) :
    Raises (fun e => ¬ e.FaultsInput) (CiLabStore.insertRow t row) := by
  cases row with
  | none => exact .pure
  | some row => exact .demand (by simp [CiLabError.FaultsInput])

theorem trigger_raises {setup : Setup} {registry : DefinitionRegistry} {s : CiLabStore}
    {definitionKey idempotencyKey : String} {request : TriggerRunRequest} {now : Instant}
    (hkey : isIdempotencyKey idempotencyKey)
    (hcorrelation : ∀ correlationId, request.correlationId = some correlationId →
      correlationId = idempotencyKey) :
    Raises (fun e => ¬ e.FaultsInput)
      (s.trigger setup registry definitionKey request idempotencyKey now) := by
  have hemit (s : CiLabStore) (run : RunRecord) (gate : Option QualityGateRecord)
      (definition : PipelineDefinition) (emittedAt : Instant) (replayed : Bool) :
      Raises (fun e => ¬ e.FaultsInput)
        (s.emitAndView setup run gate definition emittedAt now replayed) :=
    .bind (enqueueWebhookIfChanged_raises _ _ _ _ _) fun _ _ => .pure
  have hmatches : ¬ request.correlationId.any (· ≠ idempotencyKey) := by
    rw [Option.any_eq_true]
    rintro ⟨correlationId, hgiven, hother⟩
    exact of_decide_eq_true hother (hcorrelation correlationId hgiven)
  unfold CiLabStore.trigger
  refine .bind (.demand (by simp [CiLabError.FaultsInput])) fun definition _ => ?_
  rw [refuse_bind_of_not (by simp [hkey]), refuse_bind_of_not hmatches]
  dsimp only
  split
  · exact .bind (.refuse (by simp [CiLabError.FaultsInput])) fun _ _ =>
      .bind (refreshRecord_raises _ _ _ _ _) fun _ _ => hemit _ _ _ _ _ _
  · exact .bind (insertRow_raises _ _) fun _ _ => .bind (insertRow_raises _ _) fun _ _ =>
      hemit _ _ _ _ _ _

end CiLab

namespace Runtime

open Pipeline Pipeline.LearningCi

theorem generated_safe (drawn : Uuid) :
    safeText ['.', '_', ':', '-'] 200 (generatedCorrelationId drawn) := by
  have hfront : "qa-".toList = ['q', 'a', '-'] := rfl
  refine safeText_iff.mpr ⟨?_, by rw [length_generated]; decide, ?_⟩
  · rw [generatedCorrelationId, String.toList_append, hfront]
    rfl
  · intro c hc
    rw [generatedCorrelationId, String.toList_append, hfront, List.mem_append] at hc
    obtain hc | hc := hc
    · simp only [List.mem_cons, List.not_mem_nil, or_false] at hc
      obtain rfl | rfl | rfl := hc
      all_goals decide
    · exact .inl (mem_uuidHex hc)

/-- The correlation id of what is sent, given or generated, is a safe text. -/
theorem correlationId_safe {casefold : String → String} (payload : CheckedTrigger casefold)
    (drawn : Uuid) :
    safeText ['.', '_', ':', '-'] 200
      (payload.correlationId.getD (generatedCorrelationId drawn)) := by
  obtain ⟨-, hcorrelation, -⟩ := contract_ok payload.contract
  cases hgiven : payload.correlationId with
  | none => exact generated_safe drawn
  | some correlationId => exact hcorrelation correlationId hgiven

/-- `_build_provider` for a Learning CI connection; the webhook goes to the connection whose
id is given. -/
def learningCiAdapter (c : ProviderConnectionRecord)
    (webhook : Option (Fin (2 ^ 128))) : Adapter where
  definitionId := c.definitionRef
  webhookConnectionId := webhook.map fun id => uuidText id.val

theorem triggerBody_eq (c : ProviderConnectionRecord) (payload : ProviderTriggerPayload)
    (webhook : Option (Fin (2 ^ 128))) (drawn : Uuid) :
    triggerBody (learningCiAdapter c webhook) (requestedTrigger c payload drawn)
      = .object (members (CiLab.sentFields payload
          (payload.correlationId.getD (generatedCorrelationId drawn)) webhook)) := by
  cases webhook with
  | none => rfl
  | some id => rfl

theorem trigger_sent {casefold : String → String} (payload : CheckedTrigger casefold)
    (c : ProviderConnectionRecord) (webhook : Option (Fin (2 ^ 128))) (drawn : Uuid) :
    (learningCiAdapter c webhook).trigger
        (requestedTrigger c payload.toProviderTriggerPayload drawn)
      = .ok (post c.definitionRef (payload.correlationId.getD (generatedCorrelationId drawn))
          (.object (members (CiLab.sentFields payload.toProviderTriggerPayload
            (payload.correlationId.getD (generatedCorrelationId drawn)) webhook)))) := by
  have hkey : ¬ ¬ idempotencyKeyValid
      (requestedTrigger c payload.toProviderTriggerPayload drawn).correlationId :=
    not_not.mpr (correlationId_safe payload drawn)
  have hdefinition : ¬ (requestedTrigger c payload.toProviderTriggerPayload drawn).definitionRef
      ≠ (learningCiAdapter c webhook).definitionId := not_not.mpr rfl
  unfold Adapter.trigger
  rw [triggerBody_eq, refuse_bind_of_not hdefinition, refuse_bind_of_not hkey]
  rfl

theorem received_sent {casefold : String → String} (payload : CheckedTrigger casefold)
    (definition : String) {correlationId : String}
    (hsafe : safeText ['.', '_', ':', '-'] 200 correlationId) (webhook : Option (Fin (2 ^ 128))) :
    CiLab.receiveTrigger (post definition correlationId (.object (members
        (CiLab.sentFields payload.toProviderTriggerPayload correlationId webhook))))
      = .ok (CiLab.expectedRequest payload.toProviderTriggerPayload correlationId webhook) := by
  obtain ⟨hstart, hlong, -⟩ := safeText_iff.mp hsafe
  have hshort : 1 ≤ correlationId.length := by
    rw [← String.length_toList]
    cases htext : correlationId.toList with
    | nil => simp [htext] at hstart
    | cons c text => simp
  have hsize := CiLab.sent_size payload hsafe webhook
  rw [← JsonText.utf8ByteSize_ofList] at hsize
  have hkey : checkLength 1 200 correlationId = .ok () := checkLength_eq_ok.mpr ⟨hshort, hlong⟩
  unfold CiLab.receiveTrigger post
  dsimp only
  rw [refuse_bind_of_not (by omega), refuse_bind_of_not (by omega), hkey,
    CiLab.loads_sent (CiLab.sentFields_nodup _ _ _)]
  show (CiLab.TriggerRunRequest.validate _).mapError _ = _
  rw [CiLab.validate_sent payload hsafe webhook]
  rfl

/-- The precheck is sound: what it lets through, the adapter sends, and the CI Lab takes as
the request that it was; its service finds no fault with the input either. -/
theorem precheck_sound {casefold : String → String} (payload : CheckedTrigger casefold)
    (c : ProviderConnectionRecord) (webhook : Option (Fin (2 ^ 128))) (drawn : Uuid) :
    ∃ call request,
      (learningCiAdapter c webhook).trigger
          (requestedTrigger c payload.toProviderTriggerPayload drawn) = .ok call
        ∧ CiLab.receiveTrigger call = .ok request
        ∧ request.ref = payload.ref ∧ request.triggerVariables = payload.triggerVariables
        ∧ request.webhookConnectionId = webhook.map Fin.val
        ∧ request.correlationId = webhook.map (fun _ => call.idempotencyKey)
        ∧ call.definition = c.definitionRef
        ∧ call.idempotencyKey = payload.correlationId.getD (generatedCorrelationId drawn)
        ∧ ∀ (setup : CiLab.Setup) (registry : CiLab.DefinitionRegistry) (s : CiLab.CiLabStore)
            (now : Instant), Raises (fun e => ¬ e.FaultsInput)
              (s.trigger setup registry call.definition request call.idempotencyKey now) := by
  have hsafe := correlationId_safe payload drawn
  refine ⟨_, _, trigger_sent payload c webhook drawn,
    received_sent payload _ hsafe webhook, rfl, rfl,
    rfl, rfl, rfl, rfl, ?_⟩
  intro setup registry s now
  refine CiLab.trigger_raises (CiLab.isIdempotencyKey_of_safeText hsafe) ?_
  intro correlationId hgiven
  obtain ⟨_, -, rfl⟩ := Option.map_eq_some_iff.mp hgiven
  rfl

/-- A payload that is checked: its variable needs escapes and more than a byte a character. -/
example : CheckedTrigger (String.map Char.toLower) where
  ref := some "release-1.2"
  triggerVariables := [("GREETING", "\"你好\" \\ qa")]
  correlationId := none
  accepted := by decide +kernel
  distinct := by decide
  contract := by decide +kernel

end Runtime

end QaPlatform
