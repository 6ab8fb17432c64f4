import Mathlib.Data.List.Nodup
import QaPlatform.Runtime.WebhookSecurity

/-!
# What the verifier accepts

A request is verified exactly if it carries the three security headers once each, is in time
and is signed for what it says. The worker's signatures are such, and two messages are the same
only for the same timestamp, event and digest.

The proof goes through the parts of a verification: the size of the body, the headers, the time
and the signature. For the headers, the loop gathers what comes once each
(`parseWebhookHeaders_ok`). For the time, the double that the source compares is in the window
exactly if the clock's second is (`timestampOf_window`). For the signature, what is written from
32 bytes is read back to them, and no line of a message can be taken for a part of another
(`message_inj`).
-/

namespace QaPlatform.Runtime.WebhookSecurity

/-! ## Bodies -/

theorem collectBoundedBody_single (body : Bytes) :
    collectBoundedBody [body] = if body.length ≤ maxWebhookBodyBytes then .ok body
      else .error (.rejected "webhook_body_too_large") := by
  have happend : collectBoundedBody [body]
      = (RawBodyBuffer.append ⟨[], 0⟩ body).map RawBodyBuffer.finish := by
    cases h : RawBodyBuffer.append ⟨[], 0⟩ body <;> simp [collectBoundedBody, h, bind, Except.bind,
      Except.map, pure, Except.pure]
  rw [happend, RawBodyBuffer.append]
  by_cases hlength : body.length ≤ maxWebhookBodyBytes
  · rw [if_pos hlength, if_neg (by simpa using hlength)]
    split
    · next hempty =>
      subst hempty
      rfl
    · simp [Except.map, RawBodyBuffer.finish]
  · rw [if_neg hlength, if_pos (by simpa using hlength)]
    rfl

theorem collectBoundedBody_ok {body collected : Bytes} :
    collectBoundedBody [body] = .ok collected
      ↔ body.length ≤ maxWebhookBodyBytes ∧ collected = body := by
  rw [collectBoundedBody_single]
  split
  · next h => simp [h, eq_comm]
  · next h => simp [h]

/-! ## Headers -/

/-- The values of a header, under whatever cases of its name. -/
def valuesOf (name : Bytes) (rawHeaders : List (Bytes × Bytes)) : List Bytes :=
  (rawHeaders.filter (·.1.map lowerByte = name)).map (·.2)

/-- The security headers, under their normalized names. -/
def securityHeaders (rawHeaders : List (Bytes × Bytes)) : Selected :=
  (rawHeaders.map fun item => (item.1.map lowerByte, item.2)).filter (requiredHeaders.contains ·.1)

theorem securityHeaders_cons (item : Bytes × Bytes) (rawHeaders : List (Bytes × Bytes)) :
    securityHeaders (item :: rawHeaders) = if item.1.map lowerByte ∈ requiredHeaders
      then (item.1.map lowerByte, item.2) :: securityHeaders rawHeaders
      else securityHeaders rawHeaders := by
  simp only [securityHeaders, List.map_cons, List.filter_cons, List.contains_iff_mem]

/-- The loop gathers the security headers, unless one comes twice. -/
theorem foldlM_selectHeader {selected result : Selected} {rawHeaders : List (Bytes × Bytes)}
    (hselected : (selected.map (·.1)).Nodup) :
    rawHeaders.foldlM selectHeader selected = .ok result
      ↔ ((selected ++ securityHeaders rawHeaders).map (·.1)).Nodup
        ∧ result = selected ++ securityHeaders rawHeaders := by
  induction rawHeaders generalizing selected with
  | nil =>
    have hnil : ([] : List (Bytes × Bytes)).foldlM selectHeader selected = .ok selected := rfl
    rw [hnil, Except.ok.injEq]
    simp [securityHeaders, hselected, eq_comm]
  | cons item rawHeaders ih =>
    rw [List.foldlM_cons, securityHeaders_cons, selectHeader]
    by_cases hrequired : item.1.map lowerByte ∈ requiredHeaders
    · rw [if_pos hrequired, if_neg (not_not_intro hrequired)]
      by_cases htwice : item.1.map lowerByte ∈ selected.map (·.1)
      · rw [if_pos htwice, error_bind]
        refine iff_of_false (fun h => by cases h) fun ⟨hnodup, _⟩ => ?_
        rw [List.map_append, List.map_cons, List.nodup_append] at hnodup
        exact hnodup.2.2 _ htwice _ List.mem_cons_self rfl
      · rw [if_neg htwice, ok_bind, ih, List.append_assoc, List.singleton_append]
        rw [List.map_append, List.map_singleton, List.nodup_append]
        refine ⟨hselected, List.nodup_singleton _, fun a ha b hb => ?_⟩
        rw [List.mem_singleton.mp hb]
        rintro rfl
        exact htwice ha
    · rw [if_neg hrequired, if_pos hrequired, ok_bind, ih hselected]

theorem mem_requiredHeaders_of_security {rawHeaders : List (Bytes × Bytes)} {item : Bytes × Bytes}
    (h : item ∈ securityHeaders rawHeaders) : item.1 ∈ requiredHeaders :=
  List.contains_iff_mem.mp (List.mem_filter.mp h).2

theorem valuesOf_eq {name : Bytes} (hname : name ∈ requiredHeaders)
    (rawHeaders : List (Bytes × Bytes)) :
    valuesOf name rawHeaders = ((securityHeaders rawHeaders).filter (·.1 = name)).map (·.2) := by
  induction rawHeaders with
  | nil => rfl
  | cons item rawHeaders ih =>
    rw [securityHeaders_cons]
    unfold valuesOf at ih ⊢
    by_cases hitem : item.1.map lowerByte = name
    · have hrequired : item.1.map lowerByte ∈ requiredHeaders := hitem ▸ hname
      rw [if_pos hrequired, List.filter_cons_of_pos (by simpa using hitem), List.map_cons, ih,
        List.filter_cons_of_pos (by simpa using hitem), List.map_cons]
    · rw [List.filter_cons_of_neg (by simpa using hitem), ih]
      split
      · rw [List.filter_cons_of_neg (by simpa using hitem)]
      · rfl

/-- The security headers come once each exactly if each of them has one value. -/
theorem nodup_iff (rawHeaders : List (Bytes × Bytes)) :
    ((securityHeaders rawHeaders).map (·.1)).Nodup
      ↔ ∀ name ∈ requiredHeaders, (valuesOf name rawHeaders).length ≤ 1 := by
  rw [List.nodup_iff_count_le_one]
  have hcount : ∀ name ∈ requiredHeaders, ((securityHeaders rawHeaders).map (·.1)).count name
      = (valuesOf name rawHeaders).length := by
    intro name hname
    rw [valuesOf_eq hname, List.length_map, ← List.countP_eq_length_filter, List.count,
      List.countP_map]
    exact List.countP_congr fun item _ => by simp
  constructor
  · intro h name hname
    rw [← hcount name hname]
    exact h name
  · intro h name
    by_cases hname : name ∈ requiredHeaders
    · rw [hcount name hname]
      exact h name hname
    · rw [List.count_eq_zero.mpr]
      · omega
      · rintro hmem
        obtain ⟨item, hitem, rfl⟩ := List.mem_map.mp hmem
        exact hname (mem_requiredHeaders_of_security hitem)

theorem lookup_eq_head? (name : Bytes) (selected : Selected) :
    selected.lookup name = ((selected.filter (·.1 = name)).map (·.2)).head? := by
  induction selected with
  | nil => rfl
  | cons item selected ih =>
    obtain ⟨key, value⟩ := item
    by_cases h : key = name
    · subst h
      simp
    · have hne : (name == key) = false := by simpa using Ne.symm h
      rw [List.lookup_cons, hne, List.filter_cons_of_neg (by simpa using h), ih]

theorem lookup_security {name : Bytes} (hname : name ∈ requiredHeaders)
    (rawHeaders : List (Bytes × Bytes)) :
    (securityHeaders rawHeaders).lookup name = (valuesOf name rawHeaders).head? := by
  rw [lookup_eq_head?, valuesOf_eq hname]

/-- A list of at most one element has the element as its head. -/
theorem head?_eq_some_iff {xs : List Bytes} (h : xs.length ≤ 1) {x : Bytes} :
    xs.head? = some x ↔ xs = [x] := by
  match xs, h with
  | [], _ => simp
  | [y], _ => simp

/-- What three headers say. -/
structure Carries (rawHeaders : List (Bytes × Bytes)) (headers : ParsedWebhookHeaders) : Prop where
  eventId : ∃ value, valuesOf eventIdHeader rawHeaders = [value]
    ∧ decodeAscii value = .ok headers.eventId ∧ matchesEventId headers.eventId
  timestamp : ∃ value text, valuesOf timestampHeader rawHeaders = [value]
    ∧ decodeAscii value = .ok text ∧ matchesTimestamp text
    ∧ headers.timestamp = Nat.ofDigitChars 10 text.toList 0
  signature : ∃ value text group, valuesOf signatureHeader rawHeaders = [value]
    ∧ decodeAscii value = .ok text ∧ signatureGroup text = some group
    ∧ headers.signature = fromHex group

theorem parseEventId_ok {value eventId : String} :
    parseEventId value = .ok eventId ↔ eventId = value ∧ matchesEventId value := by
  unfold parseEventId
  split
  · next h => simp [h, eq_comm]
  · next h => simp [h]

theorem parseTimestamp_ok {value : String} {timestamp : Int} :
    parseTimestamp value = .ok timestamp
      ↔ matchesTimestamp value ∧ timestamp = Nat.ofDigitChars 10 value.toList 0 := by
  unfold parseTimestamp
  split
  · next h => simp [h, eq_comm]
  · next h => simp [h]

theorem parseSignature_ok {value : String} {signature : Bytes} :
    parseSignature value = .ok signature
      ↔ ∃ group, signatureGroup value = some group ∧ signature = fromHex group := by
  rw [parseSignature, demand_eq_ok, Option.map_eq_some_iff]
  simp only [eq_comm]

/-- Headers are parsed exactly if they are the three headers, well formed. -/
theorem parseWebhookHeaders_ok {rawHeaders : List (Bytes × Bytes)}
    {headers : ParsedWebhookHeaders} :
    parseWebhookHeaders rawHeaders = .ok headers ↔ Carries rawHeaders headers := by
  -- the selection refuses a required header that is given twice and keeps the others
  have hselect : ∀ selected, rawHeaders.foldlM selectHeader [] = .ok selected
      ↔ (∀ name ∈ requiredHeaders, (valuesOf name rawHeaders).length ≤ 1)
        ∧ selected = securityHeaders rawHeaders := by
    intro selected
    rw [foldlM_selectHeader (by simp), List.nil_append, nodup_iff]
  have hevent : eventIdHeader ∈ requiredHeaders := by simp [requiredHeaders]
  have htime : timestampHeader ∈ requiredHeaders := by simp [requiredHeaders]
  have hsign : signatureHeader ∈ requiredHeaders := by simp [requiredHeaders]
  constructor
  · intro h
    obtain ⟨selected, hselected, h⟩ := bind_eq_ok.mp h
    obtain ⟨honce, rfl⟩ := (hselect selected).mp hselected
    obtain ⟨eventValue, hevent', h⟩ := bind_eq_ok.mp h
    obtain ⟨timeValue, htime', h⟩ := bind_eq_ok.mp h
    obtain ⟨signValue, hsign', h⟩ := bind_eq_ok.mp h
    obtain ⟨eventId, hparse, h⟩ := bind_eq_ok.mp h
    obtain ⟨timestamp, hparse', h⟩ := bind_eq_ok.mp h
    obtain ⟨signature, hparse'', h⟩ := bind_eq_ok.mp h
    obtain rfl := Except.ok.inj h
    -- a header given at most once is the one that lookup finds
    rw [demand_eq_ok, lookup_security hevent, head?_eq_some_iff (honce _ hevent)] at hevent'
    rw [demand_eq_ok, lookup_security htime, head?_eq_some_iff (honce _ htime)] at htime'
    rw [demand_eq_ok, lookup_security hsign, head?_eq_some_iff (honce _ hsign)] at hsign'
    obtain ⟨eventText, hdecode, hparse⟩ := bind_eq_ok.mp hparse
    obtain ⟨rfl, hmatch⟩ := parseEventId_ok.mp hparse
    obtain ⟨timeText, hdecode', hparse'⟩ := bind_eq_ok.mp hparse'
    obtain ⟨hmatch', htimestamp⟩ := parseTimestamp_ok.mp hparse'
    obtain ⟨signText, hdecode'', hparse''⟩ := bind_eq_ok.mp hparse''
    obtain ⟨group, hgroup, hsignature⟩ := parseSignature_ok.mp hparse''
    exact ⟨⟨eventValue, hevent', hdecode, hmatch⟩,
      ⟨timeValue, timeText, htime', hdecode', hmatch', htimestamp⟩,
      ⟨signValue, signText, group, hsign', hdecode'', hgroup, hsignature⟩⟩
  · rintro ⟨⟨eventValue, hevent', hdecode, hmatch⟩,
      ⟨timeValue, timeText, htime', hdecode', hmatch', htimestamp⟩,
      ⟨signValue, signText, group, hsign', hdecode'', hgroup, hsignature⟩⟩
    have honce : ∀ name ∈ requiredHeaders, (valuesOf name rawHeaders).length ≤ 1 := by
      intro name hname
      simp only [requiredHeaders, List.mem_cons, List.not_mem_nil, or_false] at hname
      rcases hname with rfl | rfl | rfl
      · rw [hevent', List.length_singleton]
      · rw [htime', List.length_singleton]
      · rw [hsign', List.length_singleton]
    rw [parseWebhookHeaders, (hselect _).mpr ⟨honce, rfl⟩, ok_bind, lookup_security hevent, hevent',
      lookup_security htime, htime', lookup_security hsign, hsign']
    refine bind_eq_ok.mpr
      ⟨eventValue, rfl, bind_eq_ok.mpr ⟨timeValue, rfl, bind_eq_ok.mpr ⟨signValue, rfl, ?_⟩⟩⟩
    refine bind_eq_ok.mpr
      ⟨headers.eventId, bind_eq_ok.mpr ⟨_, hdecode, parseEventId_ok.mpr ⟨rfl, hmatch⟩⟩, ?_⟩
    refine bind_eq_ok.mpr ⟨headers.timestamp,
      bind_eq_ok.mpr ⟨_, hdecode', parseTimestamp_ok.mpr ⟨hmatch', htimestamp⟩⟩, ?_⟩
    exact bind_eq_ok.mpr ⟨headers.signature,
      bind_eq_ok.mpr ⟨_, hdecode'', parseSignature_ok.mpr ⟨group, hgroup, hsignature⟩⟩, rfl⟩

/-! ## Texts -/

/-- The characters of a text are ASCII. -/
def AsciiText (text : String) : Prop := ∀ c ∈ text.toList, c.toNat < 128

theorem toNat_encoded {c : Char} (h : c.toNat < 128) : (UInt8.ofNat c.toNat).toNat = c.toNat :=
  UInt8.toNat_ofNat_of_lt (Nat.lt_trans h (by decide))

theorem decodeAscii_encodeAscii {text : String} (h : AsciiText text) :
    decodeAscii (encodeAscii text) = .ok text := by
  have hall : (encodeAscii text).all (· < 128) = true := by
    simp only [encodeAscii, List.all_map, List.all_eq_true, Function.comp_apply, decide_eq_true_eq]
    intro c hc
    rw [UInt8.lt_iff_toNat_lt, toNat_encoded (h c hc)]
    exact h c hc
  have hchars : (encodeAscii text).map (fun b => Char.ofNat b.toNat) = text.toList := by
    rw [encodeAscii, List.map_map]
    refine (List.map_congr_left fun c hc => ?_).trans (List.map_id _)
    rw [Function.comp_apply, toNat_encoded (h c hc), Char.ofNat_toNat]
    rfl
  rw [decodeAscii, if_pos hall, hchars, String.ofList_toList]

/-- Texts that are encoded to the same bytes are the same. -/
theorem encodeAscii_inj {a b : String} (ha : AsciiText a) (hb : AsciiText b)
    (h : encodeAscii a = encodeAscii b) : a = b := by
  have hdecoded := decodeAscii_encodeAscii ha
  rw [h, decodeAscii_encodeAscii hb] at hdecoded
  exact (Except.ok.inj hdecoded).symm

theorem AsciiText.append {a b : String} (ha : AsciiText a) (hb : AsciiText b) :
    AsciiText (a ++ b) := by
  intro c hc
  rw [String.toList_append, List.mem_append] at hc
  exact hc.elim (ha c) (hb c)

/-! ## Event ids, timestamps and signatures -/

theorem isEventIdChar_of_alphanum {c : Char} (h : c.isAlphanum = true) :
    isEventIdChar c = true := by
  simp [isEventIdChar, h]

theorem isEventIdChar_of_matches {eventId : String} (h : matchesEventId eventId = true) :
    ∀ c ∈ eventId.toList, isEventIdChar c = true := by
  unfold matchesEventId at h
  split at h
  · cases h
  · next first rest hlist =>
    obtain ⟨hfirst, -, hrest⟩ := of_decide_eq_true h
    intro c hc
    rw [hlist] at hc
    rcases List.mem_cons.mp hc with rfl | hc
    · exact isEventIdChar_of_alphanum hfirst
    · exact List.all_eq_true.mp hrest c hc

theorem isEventIdChar_ascii {c : Char} (h : isEventIdChar c = true) : c.toNat < 128 ∧ c ≠ '\n' := by
  simp only [isEventIdChar, Bool.decide_or, Bool.or_eq_true, decide_eq_true_eq,
    Ascii.isAlphanum_iff] at h
  rcases h with h | rfl | rfl | rfl | rfl
  · refine ⟨by omega, ?_⟩
    rintro rfl
    exact absurd h (by decide)
  all_goals decide

theorem asciiText_eventId {eventId : String} (h : matchesEventId eventId = true) :
    AsciiText eventId :=
  fun c hc => (isEventIdChar_ascii (isEventIdChar_of_matches h c hc)).1

theorem ofDigitChars_lt {digits : List Char} (h : ∀ c ∈ digits, c.isDigit = true) :
    Nat.ofDigitChars 10 digits 0 < 10 ^ digits.length := by
  induction digits with
  | nil => simp
  | cons c digits ih =>
    have hc := Ascii.isDigit_iff.mp (h c List.mem_cons_self)
    have hrest := ih fun d hd => h d (List.mem_cons_of_mem _ hd)
    have hvalue : c.toNat - '0'.toNat ≤ 9 := by
      have hzero : '0'.toNat = 48 := rfl
      omega
    rw [Nat.ofDigitChars_cons, Nat.ofDigitChars_eq_ofDigitChars_zero,
      List.length_cons, Nat.pow_succ]
    have hmul : 10 ^ digits.length * (10 * 0 + (c.toNat - '0'.toNat)) ≤ 10 ^ digits.length * 9 :=
      Nat.mul_le_mul_left _ (by omega)
    omega

/-- What ten digits without a leading zero are worth. -/
theorem timestamp_bounds {text : String} (h : matchesTimestamp text = true) :
    1000000000 ≤ Nat.ofDigitChars 10 text.toList 0
      ∧ Nat.ofDigitChars 10 text.toList 0 ≤ 9999999999 := by
  unfold matchesTimestamp at h
  split at h
  · cases h
  · next first rest hlist =>
    obtain ⟨hdigit, hnonzero, hlength, hrest⟩ := of_decide_eq_true h
    have hfirst := Ascii.isDigit_iff.mp hdigit
    have hne : first.toNat ≠ 48 := fun heq => hnonzero (Char.toNat_inj.mp heq)
    have hlow := ofDigitChars_lt (List.all_eq_true.mp hrest)
    rw [hlength] at hlow
    rw [hlist, Nat.ofDigitChars_cons, Nat.ofDigitChars_eq_ofDigitChars_zero, hlength]
    have hzero : '0'.toNat = 48 := rfl
    omega

/-- A number of ten digits is written with them. -/
theorem matchesTimestamp_toString {n : Nat} (hlow : 1000000000 ≤ n) (hhigh : n ≤ 9999999999) :
    matchesTimestamp (toString n) = true ∧ (toString n).toList.length = 10 := by
  have hlist : (toString n).toList = Nat.toDigits 10 n := by
    rw [Nat.toString_eq_ofList_toDigits, String.toList_ofList]
  have hdigits : ∀ c ∈ Nat.toDigits 10 n, c.isDigit = true :=
    fun c hc => Nat.isDigit_of_mem_toDigits (by decide) (by decide) hc
  have hvalue := @Nat.ofDigitChars_ten_toDigits n
  have hmost : (Nat.toDigits 10 n).length ≤ 10 :=
    (Nat.length_toDigits_le_iff (by decide) (by decide)).mpr (by omega)
  have hleast : ¬ (Nat.toDigits 10 n).length ≤ 9 := fun h => by
    have := (Nat.length_toDigits_le_iff (by decide) (by decide)).mp h
    omega
  have hlength : (Nat.toDigits 10 n).length = 10 := by omega
  refine ⟨?_, hlist ▸ hlength⟩
  unfold matchesTimestamp
  rw [hlist]
  cases hcases : Nat.toDigits 10 n with
  | nil =>
    rw [hcases] at hlength
    cases hlength
  | cons first rest =>
    rw [hcases] at hdigits hvalue hlength
    have hrest : ∀ c ∈ rest, c.isDigit = true := fun c hc => hdigits c (List.mem_cons_of_mem _ hc)
    have hrestlength : rest.length = 9 := by simpa using hlength
    refine decide_eq_true ⟨hdigits first List.mem_cons_self, ?_, hrestlength,
      List.all_eq_true.mpr hrest⟩
    -- with a leading zero the number would have fewer digits
    rintro rfl
    have hless := ofDigitChars_lt hrest
    rw [hrestlength] at hless
    rw [Nat.ofDigitChars_cons] at hvalue
    simp only [Nat.mul_zero, Nat.sub_self, Nat.add_zero] at hvalue
    omega

theorem asciiText_toString (n : Nat) : AsciiText (toString n) := by
  intro c hc
  rw [Nat.toString_eq_ofList_toDigits, String.toList_ofList] at hc
  have hdigit := Ascii.isDigit_iff.mp (Nat.isDigit_of_mem_toDigits (by decide) (by decide) hc)
  omega

theorem isLowerHex_of_mem_digits {width value : Nat} {c : Char} (hc : c ∈ Hex.digits width value) :
    isLowerHex c = true ∧ c.toNat < 128 := by
  induction width generalizing value with
  | zero => cases hc
  | succ width ih =>
    rw [Hex.digits, List.mem_append, List.mem_singleton] at hc
    rcases hc with hc | rfl
    · exact ih hc
    · have hd : value % 16 < 16 := Nat.mod_lt _ (by decide)
      generalize value % 16 = d at hd
      interval_cases d <;> decide

theorem mem_hex {value : Bytes} {c : Char} (hc : c ∈ (hex value).toList) :
    isLowerHex c = true ∧ c.toNat < 128 := by
  rw [hex, String.toList_ofList] at hc
  obtain ⟨b, -, hc⟩ := List.mem_flatMap.mp hc
  exact isLowerHex_of_mem_digits hc

theorem length_hex (value : Bytes) : (hex value).toList.length = 2 * value.length := by
  rw [hex, String.toList_ofList]
  induction value with
  | nil => rfl
  | cons b value ih =>
    rw [List.flatMap_cons, List.length_append, ih, Hex.length_digits, List.length_cons]
    omega

theorem fromHex_hex (value : Bytes) : fromHex (hex value).toList = value := by
  rw [hex, String.toList_ofList]
  induction value with
  | nil => rfl
  | cons b value ih =>
    have hread : Hex.read (Hex.digits 2 b.toNat) = some b.toNat := Hex.read_digits b.toNat_lt
    rw [List.flatMap_cons]
    cases hdigits : Hex.digits 2 b.toNat with
    | nil => cases (hdigits ▸ Hex.length_digits 2 b.toNat : ([] : List Char).length = 2)
    | cons high tail =>
      cases tail with
      | nil => cases (hdigits ▸ Hex.length_digits 2 b.toNat : [high].length = 2)
      | cons low rest =>
        have hlength : (high :: low :: rest).length = 2 := hdigits ▸ Hex.length_digits 2 b.toNat
        obtain rfl : rest = [] := List.length_eq_zero_iff.mp (by simpa using hlength)
        rw [hdigits] at hread
        rw [List.cons_append, List.cons_append, List.nil_append, fromHex, hread, ih,
          Option.getD_some, UInt8.ofNat_toNat]

theorem toList_signature (value : Bytes) :
    ("v1=" ++ hex value).toList = 'v' :: '1' :: '=' :: (hex value).toList := by
  rw [String.toList_append]
  rfl

/-- A signature that is written from 32 bytes is read back to them. -/
theorem signatureGroup_hex (digest : HashBytes) :
    signatureGroup ("v1=" ++ hex digest.bytes) = some (hex digest.bytes).toList := by
  have hlength : (hex digest.bytes).toList.length = 64 := by
    rw [length_hex, digest.length_eq]
  have hall : (hex digest.bytes).toList.all isLowerHex = true :=
    List.all_eq_true.mpr fun c hc => (mem_hex hc).1
  unfold signatureGroup
  rw [toList_signature]
  exact if_pos ⟨hlength, hall⟩

/-! ## Messages -/

/-- A timestamp that is ten digits. -/
def InRange (timestamp : Int) : Prop := 1000000000 ≤ timestamp ∧ timestamp ≤ 9999999999

theorem toString_of_inRange {timestamp : Int} (h : InRange timestamp) :
    ∃ n : Nat, timestamp = n ∧ 1000000000 ≤ n ∧ n ≤ 9999999999
    ∧ toString timestamp = toString n := by
  obtain ⟨n, rfl⟩ := Int.eq_ofNat_of_zero_le (by have := h.1; omega : 0 ≤ timestamp)
  exact ⟨n, rfl, by have := h.1; omega, by have := h.2; omega, rfl⟩

theorem matches_of_inRange {timestamp : Int} (h : InRange timestamp) :
    matchesTimestamp (toString timestamp) = true := by
  obtain ⟨n, -, hlow, hhigh, htext⟩ := toString_of_inRange h
  rw [htext]
  exact (matchesTimestamp_toString hlow hhigh).1

theorem number_of_inRange {timestamp : Int} (h : InRange timestamp) :
    timestamp = Nat.ofDigitChars 10 (toString timestamp).toList 0 := by
  obtain ⟨n, rfl, -, -, htext⟩ := toString_of_inRange h
  rw [htext, Nat.toString_eq_ofList_toDigits, String.toList_ofList, Nat.ofDigitChars_ten_toDigits]

theorem length_of_inRange {timestamp : Int} (h : InRange timestamp) :
    (toString timestamp).toList.length = 10 := by
  obtain ⟨n, -, hlow, hhigh, htext⟩ := toString_of_inRange h
  rw [htext]
  exact (matchesTimestamp_toString hlow hhigh).2

theorem ascii_of_inRange {timestamp : Int} (h : InRange timestamp) :
    AsciiText (toString timestamp) := by
  obtain ⟨n, -, -, -, htext⟩ := toString_of_inRange h
  rw [htext]
  exact asciiText_toString n

theorem inRange_of_toString {timestamp : Int} (h : matchesTimestamp (toString timestamp) = true) :
    InRange timestamp := by
  cases timestamp with
  | ofNat n =>
    have hbounds := timestamp_bounds h
    have htext : toString (Int.ofNat n) = toString n := rfl
    rw [htext, Nat.toString_eq_ofList_toDigits, String.toList_ofList,
      Nat.ofDigitChars_ten_toDigits] at hbounds
    exact ⟨by have := hbounds.1; simp only [Int.ofNat_eq_natCast]; omega,
      by have := hbounds.2; simp only [Int.ofNat_eq_natCast]; omega⟩
  | negSucc n =>
    have htext : toString (Int.negSucc n) = "-" ++ toString (n + 1) := rfl
    unfold matchesTimestamp at h
    rw [htext, String.toList_append] at h
    exact absurd (of_decide_eq_true h).1 (by decide)

/-- The message of what is parsed. -/
def message (h : Hashing) (timestamp : Int) (eventId : String) (rawBody : Bytes) : Bytes :=
  encodeAscii (messageText timestamp eventId (hex (h.sha256 rawBody).bytes))

/-- The canonical message is written for what the parsers let through. -/
theorem canonicalWebhookMessage_ok {h : Hashing} {timestamp : Int} {eventId : String}
    {rawBody m : Bytes} :
    canonicalWebhookMessage h timestamp eventId rawBody = .ok m
      ↔ matchesEventId eventId = true ∧ InRange timestamp ∧ rawBody.length ≤ maxWebhookBodyBytes
        ∧ m = message h timestamp eventId rawBody := by
  constructor
  · intro hm
    obtain ⟨_, hparsed, hrest⟩ := bind_eq_ok.mp hm
    obtain ⟨_, htime, hrest'⟩ := bind_eq_ok.mp hrest
    obtain ⟨_, hbody, hwritten⟩ := bind_eq_ok.mp hrest'
    obtain ⟨rfl, hevent⟩ := parseEventId_ok.mp hparsed
    obtain ⟨hmatches, rfl⟩ := parseTimestamp_ok.mp htime
    obtain ⟨hlength, rfl⟩ := collectBoundedBody_ok.mp hbody
    have hrange := inRange_of_toString hmatches
    rw [← number_of_inRange hrange] at hwritten
    exact ⟨hevent, hrange, hlength, (Except.ok.inj hwritten).symm⟩
  · rintro ⟨hevent, hrange, hlength, rfl⟩
    refine bind_eq_ok.mpr ⟨eventId, parseEventId_ok.mpr ⟨rfl, hevent⟩, ?_⟩
    refine bind_eq_ok.mpr ⟨timestamp,
      parseTimestamp_ok.mpr ⟨matches_of_inRange hrange, number_of_inRange hrange⟩, ?_⟩
    exact bind_eq_ok.mpr ⟨rawBody, collectBoundedBody_ok.mpr ⟨hlength, rfl⟩, rfl⟩

theorem toString_inj {a b : Int} (ha : InRange a) (hb : InRange b)
    (h : toString a = toString b) : a = b := by
  rw [number_of_inRange ha, number_of_inRange hb, h]

theorem hashBytes_eq {a b : HashBytes}
    (h : (hex a.bytes).toList = (hex b.bytes).toList) : a = b := by
  have hbytes : a.bytes = b.bytes := by rw [← fromHex_hex a.bytes, h, fromHex_hex]
  cases a
  cases b
  cases hbytes
  rfl

/-- Nothing can be cut from one line of a message and put into another. -/
theorem message_inj {h : Hashing} {timestamp timestamp' : Int} {eventId eventId' : String}
    {rawBody rawBody' : Bytes} (htime : InRange timestamp) (htime' : InRange timestamp')
    (hevent : matchesEventId eventId = true) (hevent' : matchesEventId eventId' = true)
    (heq : message h timestamp eventId rawBody = message h timestamp' eventId' rawBody') :
    timestamp = timestamp' ∧ eventId = eventId' ∧ h.sha256 rawBody = h.sha256 rawBody' := by
  have hascii : ∀ {timestamp : Int} {eventId : String} (rawBody : Bytes), InRange timestamp →
      matchesEventId eventId = true →
        AsciiText (messageText timestamp eventId (hex (h.sha256 rawBody).bytes)) := by
    intro timestamp eventId rawBody htime hevent
    have hversion : AsciiText "v1\n" := by simp [AsciiText]
    have hline : AsciiText "\n" := by simp [AsciiText]
    exact (((hversion.append (ascii_of_inRange htime)).append hline).append
      (asciiText_eventId hevent)).append hline |>.append fun c hc => (mem_hex hc).2
  have htext := congrArg String.toList
    (encodeAscii_inj (hascii rawBody htime hevent) (hascii rawBody' htime' hevent') heq)
  simp only [messageText, String.toList_append, List.append_assoc] at htext
  have hafter := List.append_cancel_left htext
  -- the timestamps are ten digits each, the digests sixty-four
  obtain ⟨hfirst, hafter⟩ := List.append_inj hafter
    ((length_of_inRange htime).trans (length_of_inRange htime').symm)
  have hafter := List.append_cancel_left hafter
  rw [← List.append_assoc, ← List.append_assoc] at hafter
  obtain ⟨hmiddle, hdigest⟩ := List.append_inj' hafter (by
    rw [length_hex, length_hex, HashBytes.length_eq, HashBytes.length_eq])
  exact ⟨toString_inj htime htime' (String.toList_inj.mp hfirst),
    String.toList_inj.mp (List.append_cancel_right hmiddle), hashBytes_eq hdigest⟩

/-! ## The window -/

/-- For the timestamps that can be signed, what the double is truncated to is in the window exactly
if the clock's second is. -/
theorem timestampOf_window {timestamp : Int} (h : InRange timestamp) (now : Int) :
    (timestampOf now - timestamp).natAbs ≤ timestampWindowSeconds
      ↔ (now / 1000000 - timestamp).natAbs ≤ timestampWindowSeconds := by
  have hlow := h.1
  have hhigh := h.2
  unfold timestampOf timestampWindowSeconds
  by_cases hnow : 0 ≤ now
  · rw [if_pos hnow]
    obtain ⟨micros, rfl⟩ := Int.eq_ofNat_of_zero_le hnow
    rw [Int.natAbs_natCast]
    by_cases hfar : micros / 1000000 < 2 ^ 34
    · rw [Doubles.wholePart_eq hfar]
      exact Iff.rfl
    · have hle := Doubles.le_wholePart micros
      have hcast : ((micros : Int) / 1000000) = ((micros / 1000000 : Nat) : Int) := by omega
      rw [hcast]
      generalize Doubles.wholePart micros = whole at hle
      generalize micros / 1000000 = floor at hfar hle
      omega
  · rw [if_neg hnow]
    generalize Doubles.wholePart (Int.natAbs now) = whole
    have hpast : now < 0 := Int.not_le.mp hnow
    omega

/-! ## Verification -/

/-- Headers that are parsed have a timestamp of ten digits. -/
theorem Carries.inRange {rawHeaders : List (Bytes × Bytes)} {headers : ParsedWebhookHeaders}
    (h : Carries rawHeaders headers) : InRange headers.timestamp := by
  obtain ⟨_, _, -, -, hmatches, hnumber⟩ := h.timestamp
  obtain ⟨hlow, hhigh⟩ := timestamp_bounds hmatches
  rw [hnumber]
  exact ⟨by omega, by omega⟩

theorem Carries.matchesEventId {rawHeaders : List (Bytes × Bytes)} {headers : ParsedWebhookHeaders}
    (h : Carries rawHeaders headers) : matchesEventId headers.eventId = true := by
  obtain ⟨_, -, -, hmatches⟩ := h.eventId
  exact hmatches

section
variable {h : Hashing} {verifier : WebhookVerifier} {clock : ClockReading} {rawBody : Bytes}
  {rawHeaders : List (Bytes × Bytes)} {verified : VerifiedWebhook}

/-- What is verified: a body of the size, the headers, the time and the signature. -/
theorem verify_ok : verifier.verify h clock rawBody rawHeaders = .ok verified
    ↔ rawBody.length ≤ maxWebhookBodyBytes ∧ ∃ headers, Carries rawHeaders headers
      ∧ (∃ now, clock = .aware now
        ∧ (now / 1000000 - headers.timestamp).natAbs ≤ timestampWindowSeconds)
      ∧ headers.signature
        = (h.hmac verifier.secret (message h headers.timestamp headers.eventId rawBody)).bytes
      ∧ verified = ⟨headers.eventId, headers.timestamp, hex (h.sha256 rawBody).bytes⟩ := by
  constructor
  · intro hverified
    obtain ⟨_, hbody, hrest⟩ := bind_eq_ok.mp hverified
    obtain ⟨hlength, rfl⟩ := collectBoundedBody_ok.mp hbody
    obtain ⟨headers, hparsed, hchecked⟩ := bind_eq_ok.mp hrest
    have hcarries := parseWebhookHeaders_ok.mp hparsed
    cases clock with
    | naive => cases hchecked
    | aware now =>
      obtain ⟨hwindow, hsigned⟩ := refuse_bind_eq_ok.mp hchecked
      obtain ⟨_, hmessage, hcompared⟩ := bind_eq_ok.mp hsigned
      obtain ⟨-, -, -, rfl⟩ := canonicalWebhookMessage_ok.mp hmessage
      obtain ⟨hsame, hreturned⟩ := refuse_bind_eq_ok.mp hcompared
      exact ⟨hlength, headers, hcarries,
        ⟨now, rfl, (timestampOf_window hcarries.inRange now).mp (Nat.not_lt.mp hwindow)⟩,
        (not_not.mp hsame).symm, (Except.ok.inj hreturned).symm⟩
  · rintro ⟨hlength, headers, hcarries, ⟨now, rfl, hwindow⟩, hsignature, rfl⟩
    have hwindow := (timestampOf_window hcarries.inRange now).mpr hwindow
    refine bind_eq_ok.mpr ⟨rawBody, collectBoundedBody_ok.mpr ⟨hlength, rfl⟩, ?_⟩
    refine bind_eq_ok.mpr ⟨headers, parseWebhookHeaders_ok.mpr hcarries, ?_⟩
    refine refuse_bind_eq_ok.mpr ⟨Nat.not_lt.mpr hwindow, ?_⟩
    refine bind_eq_ok.mpr ⟨_, canonicalWebhookMessage_ok.mpr
      ⟨hcarries.matchesEventId, hcarries.inRange, hlength, rfl⟩, ?_⟩
    exact refuse_bind_eq_ok.mpr ⟨not_not_intro hsignature.symm, rfl⟩

theorem signDelivery_ok {secret : Bytes} {timestamp : Int} {eventId signature : String} :
    signDelivery h secret timestamp eventId rawBody = .ok signature
      ↔ (32 ≤ secret.length ∧ secret.length ≤ 512) ∧ matchesEventId eventId = true
      ∧ InRange timestamp
        ∧ signature = "v1=" ++ hex (h.hmac secret (message h timestamp eventId rawBody)).bytes := by
  unfold signDelivery
  rw [refuse_bind_eq_ok, refuse_bind_eq_ok, refuse_bind_eq_ok, not_not, not_not, not_not]
  refine and_congr_right fun _ => and_congr_right fun _ => and_congr_right fun _ => ?_
  exact ⟨fun heq => (Except.ok.inj heq).symm, fun heq => congrArg Except.ok heq.symm⟩

/-- The three headers that a worker sends carry what it signed. -/
theorem carries_of_signed {timestamp : Int} {eventId : String} {digest : HashBytes}
    (hevent : matchesEventId eventId = true) (htime : InRange timestamp)
    (heventValue : valuesOf eventIdHeader rawHeaders = [encodeAscii eventId])
    (htimeValue : valuesOf timestampHeader rawHeaders = [encodeAscii (toString timestamp)])
    (hsignValue : valuesOf signatureHeader rawHeaders = [encodeAscii ("v1=" ++ hex digest.bytes)]) :
    Carries rawHeaders ⟨eventId, timestamp, digest.bytes⟩ := by
  have hsigntext : AsciiText ("v1=" ++ hex digest.bytes) := by
    have hversion : AsciiText "v1=" := by simp [AsciiText]
    exact hversion.append fun c hc => (mem_hex hc).2
  refine ⟨⟨_, heventValue, decodeAscii_encodeAscii (asciiText_eventId hevent), hevent⟩, ?_, ?_⟩
  · exact ⟨_, _, htimeValue, decodeAscii_encodeAscii (ascii_of_inRange htime),
      matches_of_inRange htime, number_of_inRange htime⟩
  · exact ⟨_, _, _, hsignValue, decodeAscii_encodeAscii hsigntext, signatureGroup_hex digest,
      (fromHex_hex digest.bytes).symm⟩

end

/-- Verification is exact, what the worker signs is verified in time, and messages are the same
only for the same timestamp, event id and body digest. -/
theorem authentication_exact (h : Hashing) :
    (∀ (verifier : WebhookVerifier) (clock : ClockReading) (rawBody : Bytes)
        (rawHeaders : List (Bytes × Bytes)) (verified : VerifiedWebhook),
      verifier.verify h clock rawBody rawHeaders = .ok verified
        ↔ rawBody.length ≤ maxWebhookBodyBytes ∧ ∃ headers, Carries rawHeaders headers
          ∧ (∃ now, clock = .aware now
            ∧ (now / 1000000 - headers.timestamp).natAbs ≤ timestampWindowSeconds)
          ∧ headers.signature
            = (h.hmac verifier.secret (message h headers.timestamp headers.eventId rawBody)).bytes
          ∧ verified = ⟨headers.eventId, headers.timestamp, hex (h.sha256 rawBody).bytes⟩)
    ∧ (∀ (verifier : WebhookVerifier) (timestamp : Int) (eventId : String) (rawBody : Bytes)
        (signature : String), rawBody.length ≤ maxWebhookBodyBytes →
      signDelivery h verifier.secret timestamp eventId rawBody = .ok signature →
        ∀ (now : Instant) (rawHeaders : List (Bytes × Bytes)),
          (now / 1000000 - timestamp).natAbs ≤ timestampWindowSeconds →
          valuesOf eventIdHeader rawHeaders = [encodeAscii eventId] →
          valuesOf timestampHeader rawHeaders = [encodeAscii (toString timestamp)] →
          valuesOf signatureHeader rawHeaders = [encodeAscii signature] →
            verifier.verify h (.aware now) rawBody rawHeaders
              = .ok ⟨eventId, timestamp, hex (h.sha256 rawBody).bytes⟩)
    ∧ ∀ (timestamp timestamp' : Int) (eventId eventId' : String) (rawBody rawBody' m : Bytes),
      canonicalWebhookMessage h timestamp eventId rawBody = .ok m →
      canonicalWebhookMessage h timestamp' eventId' rawBody' = .ok m →
        timestamp = timestamp' ∧ eventId = eventId' ∧ h.sha256 rawBody = h.sha256 rawBody' := by
  refine ⟨fun _ _ _ _ _ => verify_ok, ?_, ?_⟩
  · intro verifier timestamp eventId rawBody signature hlength hsigned now rawHeaders hwindow
      heventValue htimeValue hsignValue
    obtain ⟨-, hevent, htime, rfl⟩ := signDelivery_ok.mp hsigned
    exact verify_ok.mpr
      ⟨hlength, _, carries_of_signed hevent htime heventValue htimeValue hsignValue,
      ⟨now, rfl, hwindow⟩, rfl, rfl⟩
  · intro timestamp timestamp' eventId eventId' rawBody rawBody' m hm hm'
    obtain ⟨hevent, htime, -, rfl⟩ := canonicalWebhookMessage_ok.mp hm
    obtain ⟨hevent', htime', -, hsame⟩ := canonicalWebhookMessage_ok.mp hm'
    exact message_inj htime htime' hevent hevent' hsame

/-- A secret of 32 characters. -/
def sharedSecret : WebhookVerifier := ⟨encodeAscii "0123456789abcdef0123456789abcdef", by decide⟩

/-- The SHA-256 of an empty object. -/
def bodyDigest : HashBytes :=
  ⟨[68, 19, 111, 163, 85, 179, 103, 138, 17, 70, 173, 22, 247, 232, 100, 158,
    148, 251, 79, 194, 31, 231, 126, 131, 16, 192, 96, 246, 28, 170, 255, 138], by decide⟩

/-- The HMAC of a delivery with this body. -/
def bodySignature : HashBytes :=
  ⟨[214, 230, 7, 232, 198, 85, 158, 117, 189, 219, 3, 99, 189, 15, 197, 165,
    39, 22, 150, 229, 38, 247, 160, 208, 104, 234, 162, 53, 196, 212, 158, 163], by decide⟩

/-- The hashes of the body `{}` and of the message of `evt-1`. -/
def knownHashing : Hashing := ⟨fun _ => bodyDigest, fun _ _ => bodySignature⟩

/-- The headers of a delivery, under the names that the worker gives them. -/
def deliveryHeaders (signature : String) : List (Bytes × Bytes) :=
  [(encodeAscii "Content-Type", encodeAscii "application/json"),
    (encodeAscii "X-QA-Webhook-Event-ID", encodeAscii "evt-1"),
    (encodeAscii "X-QA-Webhook-Timestamp", encodeAscii "1700000000"),
    (encodeAscii "X-QA-Webhook-Signature", encodeAscii signature)]

theorem authentication_exact_delivery :
    sharedSecret.verify knownHashing (.aware 1700000300999999) (encodeAscii "\x7b\x7d")
        (deliveryHeaders ("v1=" ++ hex bodySignature.bytes))
      = .ok ⟨"evt-1", 1700000000, hex bodyDigest.bytes⟩
    ∧ ((1700000000 : Int) = 1700000000 ∧ "evt-1" = "evt-1"
      ∧ knownHashing.sha256 (encodeAscii "\x7b\x7d")
      = knownHashing.sha256 (encodeAscii "\x7b\x7d")) := by
  obtain ⟨-, hsigned, hmessages⟩ := authentication_exact knownHashing
  have htime : InRange 1700000000 := ⟨by decide, by decide⟩
  have hmessage := canonicalWebhookMessage_ok.mpr
    ⟨(by decide : matchesEventId "evt-1" = true), htime,
      (by decide : (encodeAscii "\x7b\x7d").length ≤ maxWebhookBodyBytes),
      (rfl : _ = message knownHashing 1700000000 "evt-1" (encodeAscii "\x7b\x7d"))⟩
  refine ⟨hsigned sharedSecret 1700000000 "evt-1" _ _ (by decide)
    (signDelivery_ok.mpr ⟨sharedSecret.validated, by decide, htime, rfl⟩) _ _ (by decide) ?_ ?_ ?_,
    hmessages _ _ _ _ _ _ _ hmessage hmessage⟩
  · decide
  · decide
  · rfl

end QaPlatform.Runtime.WebhookSecurity
