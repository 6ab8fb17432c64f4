import QaPlatform.Base.Hex

/-! JSON as text: documents of texts, nulls and objects, written without blanks and without
ASCII escapes and read back. Numbers, booleans and arrays are left out. -/

namespace QaPlatform.JsonText

/-- A document of texts, nulls and objects. -/
inductive Doc where
  | null
  | text (value : List Char)
  | object (members : List (List Char × Doc))

/-- The members of an object, in order. -/
abbrev Members := List (List Char × Doc)

/-! ## Writing -/

/-- A character inside a text. -/
def escape (c : Char) : List Char :=
  if c = '"' then ['\\', '"']
  else if c = '\\' then ['\\', '\\']
  else if c = '\n' then ['\\', 'n']
  else if c = '\r' then ['\\', 'r']
  else if c = '\t' then ['\\', 't']
  else if c.toNat = 8 then ['\\', 'b']
  else if c.toNat = 12 then ['\\', 'f']
  else if c.toNat < 32 then
    ['\\', 'u', '0', '0', Nat.digitChar (c.toNat / 16), Nat.digitChar (c.toNat % 16)]
  else [c]

/-- A text in quotes, with what needs an escape escaped. -/
def renderText (value : List Char) : List Char := '"' :: (value.flatMap escape ++ ['"'])

mutual

/-- A document without blanks. -/
def render : Doc → List Char
  | .null => ['n', 'u', 'l', 'l']
  | .text value => renderText value
  | .object members => '\x7b' :: ((renderMembers members).tail ++ ['\x7d'])

/-- Every member behind a comma; an object drops the first one. -/
def renderMembers : Members → List Char
  | [] => []
  | (key, value) :: members =>
    ',' :: (renderText key ++ ':' :: (render value ++ renderMembers members))

end

/-! ## Reading -/

/-- What may stand between tokens. -/
def isBlank (c : Char) : Bool := c = ' ' ∨ c = '\n' ∨ c = '\r' ∨ c = '\t'

/-- The rest behind a character that blanks may precede. -/
def expect (c : Char) (input : List Char) : Option (List Char) :=
  match input.dropWhile isBlank with
  | [] => none
  | d :: rest => if d = c then some rest else none

/-- The character of an escape of one letter. -/
def unescape (c : Char) : Option Char :=
  if c = '"' ∨ c = '\\' ∨ c = '/' then some c
  else if c = 'n' then some '\n'
  else if c = 'r' then some '\r'
  else if c = 't' then some '\t'
  else if c = 'b' then some (Char.ofNat 8)
  else if c = 'f' then some (Char.ofNat 12)
  else none

/-- The character of a code point; a surrogate has none. -/
def charOf (n : Nat) : Option Char := if n.isValidChar then some (Char.ofNat n) else none

/-- Half a pair of surrogates is there, and the other one has to follow. -/
def readLowSurrogate (high : Nat) : List Char → Option (Char × List Char)
  | '\\' :: 'u' :: a :: b :: c :: d :: rest =>
    (Hex.read [a, b, c, d]).bind fun low =>
      if 0xDC00 ≤ low ∧ low < 0xE000 then
        (charOf (0x10000 + (high - 0xD800) * 0x400 + (low - 0xDC00))).map (·, rest)
      else none
  | _ => none

/-- An escape behind its backslash, and what follows it. -/
def readEscape : List Char → Option (Char × List Char)
  | 'u' :: a :: b :: c :: d :: rest =>
    (Hex.read [a, b, c, d]).bind fun n =>
      if 0xD800 ≤ n ∧ n < 0xDC00 then readLowSurrogate n rest else (charOf n).map (·, rest)
  | c :: rest => (unescape c).map (·, rest)
  | [] => none

/-- One character of a text, and what follows it. -/
def readChar : List Char → Option (Char × List Char)
  | [] => none
  | c :: rest =>
    if c = '\\' then readEscape rest else if c.toNat < 32 then none else some (c, rest)

/-- A text behind its opening quote, and what follows the closing one. -/
def parseText : Nat → List Char → Option (List Char × List Char)
  | 0, _ => none
  | fuel + 1, input =>
    if input.head? = some '"' then some ([], input.tail)
    else (readChar input).bind fun (c, rest) =>
      (parseText fuel rest).map fun (value, rest) => (c :: value, rest)

mutual

/-- A document and what follows it; the fuel bounds the nesting and the members. -/
def parseValue : Nat → List Char → Option (Doc × List Char)
  | 0, _ => none
  | fuel + 1, input =>
    match input.dropWhile isBlank with
    | [] => none
    | c :: rest =>
      if c = '"' then (parseText rest.length rest).map fun (value, rest) => (.text value, rest)
      else if c = '\x7b' then
        match expect '\x7d' rest with
        | some rest => some (.object [], rest)
        | none => (parseMembers fuel rest).map fun (members, rest) => (.object members, rest)
      else if c = 'n' then
        if rest.take 3 = ['u', 'l', 'l'] then some (.null, rest.drop 3) else none
      else none

/-- The members of an object, up to and with its closing brace. -/
def parseMembers : Nat → List Char → Option (Members × List Char)
  | 0, _ => none
  | fuel + 1, input => do
    let rest ← expect '"' input
    let (key, rest) ← parseText rest.length rest
    let rest ← expect ':' rest
    let (value, rest) ← parseValue fuel rest
    match expect ',' rest with
    | some rest =>
      let (members, rest) ← parseMembers fuel rest
      return ((key, value) :: members, rest)
    | none =>
      let rest ← expect '\x7d' rest
      return ([(key, value)], rest)

end

/-- The document that a whole text is. -/
def parse (input : List Char) : Option Doc :=
  (parseValue input.length input).bind fun (doc, rest) =>
    if rest.all isBlank then some doc else none

/-! ## What was written is read -/

theorem expect_self {c : Char} (hc : ¬ isBlank c) (rest : List Char) :
    expect c (c :: rest) = some rest := by
  simp [expect, hc]

theorem charOf_toNat (c : Char) : charOf c.toNat = some c := by
  have hvalid : c.toNat.isValidChar := c.valid
  unfold charOf
  rw [if_pos hvalid, Char.ofNat_toNat]

theorem read_control {n : Nat} (hn : n < 32) :
    Hex.read ['0', '0', Nat.digitChar (n / 16), Nat.digitChar (n % 16)] = some n := by
  have hdigits : Hex.digits 4 n
      = ['0', '0', Nat.digitChar (n / 16), Nat.digitChar (n % 16)] := by
    have h2 : n / 16 / 16 = 0 := by omega
    have h1 : n / 16 % 16 = n / 16 := by omega
    simp [Hex.digits, h2, h1]
  rw [← hdigits]
  exact Hex.read_digits (by omega)

theorem eq_of_toNat {c : Char} {n : Nat} (h : c.toNat = n) : c = Char.ofNat n := by
  rw [← h, Char.ofNat_toNat]

theorem readChar_escape (c : Char) (rest : List Char) :
    readChar (escape c ++ rest) = some (c, rest) := by
  unfold escape
  split
  · subst c
    rfl
  split
  · subst c
    rfl
  split
  · subst c
    rfl
  split
  · subst c
    rfl
  split
  · subst c
    rfl
  split
  · next h =>
    rw [eq_of_toNat h]
    rfl
  split
  · next h =>
    rw [eq_of_toNat h]
    rfl
  split
  · next hcontrol =>
    have hsurrogate : ¬ (0xD800 ≤ c.toNat ∧ c.toNat < 0xDC00) := by omega
    simp only [List.cons_append, List.nil_append, readChar, readEscape, if_true,
      read_control hcontrol, Option.bind_some, if_neg hsurrogate, charOf_toNat, Option.map_some]
  · next hback _ _ _ _ _ hcontrol =>
    simp only [List.cons_append, List.nil_append, readChar, if_neg hback, if_neg hcontrol]

theorem head?_escape (c : Char) (rest : List Char) : (escape c ++ rest).head? ≠ some '"' := by
  unfold escape
  repeat' split
  all_goals simp_all

theorem parseText_flatMap {value : List Char} {fuel : Nat} (hfuel : value.length < fuel)
    (rest : List Char) :
    parseText fuel (value.flatMap escape ++ '"' :: rest) = some (value, rest) := by
  induction value generalizing fuel with
  | nil =>
    cases fuel with
    | zero => omega
    | succ fuel => simp [parseText]
  | cons c value ih =>
    cases fuel with
    | zero => omega
    | succ fuel =>
      have hlength : value.length < fuel := by simpa using hfuel
      rw [List.flatMap_cons, List.append_assoc]
      simp only [parseText, if_neg (head?_escape c _), readChar_escape, Option.bind_some,
        ih hlength, Option.map_some]

theorem length_le_escaped (value : List Char) : value.length ≤ (value.flatMap escape).length := by
  induction value with
  | nil => simp
  | cons c value ih =>
    have hescape : 1 ≤ (escape c).length := by
      unfold escape
      repeat' split
      all_goals simp
    simp only [List.flatMap_cons, List.length_append, List.length_cons]
    omega

theorem parseText_renderText (value rest : List Char) :
    parseText (value.flatMap escape ++ '"' :: rest).length (value.flatMap escape ++ '"' :: rest)
      = some (value, rest) := by
  have hlength := length_le_escaped value
  refine parseText_flatMap ?_ rest
  simp only [List.length_append, List.length_cons]
  omega

/-- A text ends where it ends. -/
theorem renderText_append_inj {a b rest rest' : List Char}
    (h : renderText a ++ rest = renderText b ++ rest') : a = b ∧ rest = rest' := by
  have hopen (value rest : List Char) :
      renderText value ++ rest = '"' :: (value.flatMap escape ++ '"' :: rest) := by
    simp [renderText]
  rw [hopen, hopen] at h
  have htail := (List.cons.inj h).2
  have hread := parseText_renderText a rest
  rw [htail, parseText_renderText b rest'] at hread
  obtain ⟨rfl, rfl⟩ := Prod.mk.inj (Option.some.inj hread)
  exact ⟨rfl, rfl⟩

theorem expect_of_ne {c d : Char} (hd : ¬ isBlank d) (hne : d ≠ c) (rest : List Char) :
    expect c (d :: rest) = none := by
  simp [expect, hd, hne]

/-- The texts of an object's members, with the first comma gone. -/
theorem tail_renderMembers (key : List Char) (value : Doc) (members : Members)
    (rest : List Char) :
    (renderMembers ((key, value) :: members)).tail ++ rest
      = '"' :: (key.flatMap escape ++ '"' :: ':' :: (render value
          ++ (renderMembers members ++ rest))) := by
  simp [renderMembers, renderText]

theorem parseValue_quote (fuel : Nat) (rest : List Char) :
    parseValue (fuel + 1) ('"' :: rest)
      = (parseText rest.length rest).map fun (value, rest) => (.text value, rest) := by
  simp [parseValue, isBlank]

mutual

theorem parseValue_render (doc : Doc) (fuel : Nat) (hfuel : (render doc).length ≤ fuel)
    (rest : List Char) : parseValue fuel (render doc ++ rest) = some (doc, rest) := by
  match doc, fuel with
  | .null, 0 => simp [render] at hfuel
  | .text value, 0 => simp [render, renderText] at hfuel
  | .object members, 0 => simp [render] at hfuel
  | .null, fuel + 1 => simp [render, parseValue, isBlank]
  | .text value, fuel + 1 =>
    have hinput : render (.text value) ++ rest = '"' :: (value.flatMap escape ++ '"' :: rest) := by
      simp [render, renderText]
    rw [hinput, parseValue_quote, parseText_renderText]
    rfl
  | .object [], fuel + 1 =>
    simp [render, renderMembers, parseValue, isBlank, expect]
  | .object ((key, value) :: members), fuel + 1 =>
    have hinput : render (.object ((key, value) :: members)) ++ rest
        = '\x7b' :: ((renderMembers ((key, value) :: members)).tail ++ '\x7d' :: rest) := by
      simp [render]
    have hlength : (renderMembers ((key, value) :: members)).length ≤ fuel := by
      simp only [render, List.length_cons, List.length_append, List.length_tail] at hfuel
      simp only [renderMembers, List.length_cons] at hfuel ⊢
      omega
    have hmembers := parseMembers_render ((key, value) :: members) fuel hlength rest (by simp)
    have hopen : expect '\x7d' ((renderMembers ((key, value) :: members)).tail ++ '\x7d' :: rest)
        = none := by
      rw [tail_renderMembers]
      exact expect_of_ne (by decide) (by decide) _
    rw [hinput]
    simp [parseValue, isBlank, hopen, hmembers]

theorem parseMembers_render (members : Members) (fuel : Nat)
    (hfuel : (renderMembers members).length ≤ fuel) (rest : List Char) (hne : members ≠ []) :
    parseMembers fuel ((renderMembers members).tail ++ '\x7d' :: rest) = some (members, rest) := by
  match members, fuel with
  | [], _ => exact absurd rfl hne
  | (key, value) :: members, 0 => simp [renderMembers] at hfuel
  | [(key, value)], fuel + 1 =>
    simp only [renderMembers, renderText, List.length_cons, List.length_append] at hfuel
    have hvalue := parseValue_render value fuel (by omega) ('\x7d' :: rest)
    have hcomma : expect ',' ('\x7d' :: rest) = none := expect_of_ne (by decide) (by decide) _
    rw [tail_renderMembers, renderMembers, List.nil_append]
    simp only [parseMembers, expect_self (c := '"') (by decide), expect_self (c := ':') (by decide),
      Option.bind_eq_bind, Option.bind_some, parseText_renderText, hvalue, hcomma,
      expect_self (c := '\x7d') (by decide)]
    rfl
  | (key, value) :: (key', value') :: members, fuel + 1 =>
    have hlast : renderMembers ((key', value') :: members) ++ '\x7d' :: rest
        = ',' :: ((renderMembers ((key', value') :: members)).tail ++ '\x7d' :: rest) := by
      simp [renderMembers]
    rw [renderMembers] at hfuel
    simp only [renderText, List.length_cons, List.length_append] at hfuel
    have hvalue := parseValue_render value fuel (by omega)
      (renderMembers ((key', value') :: members) ++ '\x7d' :: rest)
    have hmembers := parseMembers_render ((key', value') :: members) fuel (by omega) rest (by simp)
    rw [tail_renderMembers, hlast]
    rw [hlast] at hvalue
    simp only [parseMembers, expect_self (c := '"') (by decide), expect_self (c := ':') (by decide),
      Option.bind_eq_bind, Option.bind_some, parseText_renderText, hvalue,
      expect_self (c := ',') (by decide), hmembers]
    rfl

end

/-- What was written is read as the document that it was. -/
theorem parse_render (doc : Doc) : parse (render doc) = some doc := by
  unfold parse
  have hvalue := parseValue_render doc (render doc).length (Nat.le_refl _) []
  rw [List.append_nil] at hvalue
  rw [hvalue]
  rfl

theorem render_injective : Function.Injective render := by
  intro a b h
  have hparse := congrArg parse h
  rw [parse_render, parse_render] at hparse
  exact Option.some.inj hparse

/-! ## Sizes in UTF-8 -/

/-- The length of a text in UTF-8. -/
def bytes : List Char → Nat
  | [] => 0
  | c :: text => c.utf8Size + bytes text

@[simp] theorem bytes_nil : bytes [] = 0 := rfl

@[simp] theorem bytes_cons (c : Char) (text : List Char) :
    bytes (c :: text) = c.utf8Size + bytes text := rfl

@[simp] theorem bytes_append (front back : List Char) :
    bytes (front ++ back) = bytes front + bytes back := by
  induction front with
  | nil => simp
  | cons c front ih =>
    simp only [List.cons_append, bytes_cons, ih]
    omega

theorem utf8ByteSize_ofList (text : List Char) :
    (String.ofList text).utf8ByteSize = bytes text := by
  induction text with
  | nil => rfl
  | cons c text ih =>
    rw [← List.singleton_append, String.ofList_append, String.utf8ByteSize_append, ih, bytes_append]
    simp

/-- A character that is written as it is, in one byte. -/
def IsPlain (c : Char) : Prop := 32 ≤ c.toNat ∧ c.toNat < 128 ∧ c ≠ '"' ∧ c ≠ '\\'

theorem escape_plain {c : Char} (hc : IsPlain c) : escape c = [c] := by
  obtain ⟨hlow, -, hquote, hback⟩ := hc
  have hcontrol {d : Char} (hd : d.toNat < 32) : c ≠ d := by
    intro h
    rw [h] at hlow
    omega
  have h8 : c.toNat ≠ 8 := by omega
  have h12 : c.toNat ≠ 12 := by omega
  unfold escape
  rw [if_neg hquote, if_neg hback, if_neg (hcontrol (by decide)), if_neg (hcontrol (by decide)),
    if_neg (hcontrol (by decide)), if_neg h8, if_neg h12, if_neg (Nat.not_lt.mpr hlow)]

theorem utf8Size_plain {c : Char} (hc : IsPlain c) : c.utf8Size = 1 := by
  obtain ⟨-, hhigh, -⟩ := hc
  have hval : c.val ≤ 0x7F := by
    rw [UInt32.le_iff_toNat_le]
    exact Nat.le_of_lt_succ hhigh
  exact Char.utf8Size_eq_one_iff.mpr hval

theorem bytes_renderText {value : List Char} (hvalue : ∀ c ∈ value, IsPlain c) :
    bytes (renderText value) = value.length + 2 := by
  have hplain : bytes (value.flatMap escape) = value.length := by
    induction value with
    | nil => rfl
    | cons c value ih =>
      obtain ⟨hc, hrest⟩ := List.forall_mem_cons.mp hvalue
      rw [List.flatMap_cons, bytes_append, escape_plain hc, ih hrest, bytes_cons, utf8Size_plain hc,
        bytes_nil, List.length_cons]
      omega
  have hquote : ('"' : Char).utf8Size = 1 := rfl
  simp only [renderText, bytes_cons, bytes_append, bytes_nil, hplain, hquote]
  omega

theorem bytes_renderMembers_perm {members members' : Members} (h : members.Perm members') :
    bytes (renderMembers members) = bytes (renderMembers members') := by
  induction h with
  | nil => rfl
  | cons member h ih => simp only [renderMembers, bytes_cons, bytes_append, ih]
  | swap first second members =>
    simp only [renderMembers, bytes_cons, bytes_append]
    omega
  | trans h h' ih ih' => exact ih.trans ih'

theorem bytes_tail_le (text : List Char) : bytes text.tail ≤ bytes text := by
  cases text with
  | nil => simp
  | cons c text =>
    rw [List.tail_cons, bytes_cons]
    omega

theorem bytes_object_le (members : Members) :
    bytes (render (.object members)) ≤ bytes (renderMembers members) + 2 := by
  have hopen : ('\x7b' : Char).utf8Size = 1 := rfl
  have hclose : ('\x7d' : Char).utf8Size = 1 := rfl
  have htail := bytes_tail_le (renderMembers members)
  simp only [render, bytes_cons, bytes_append, bytes_nil, hopen, hclose]
  omega

theorem bytes_renderMembers_nil : bytes (renderMembers []) = 0 := rfl

theorem bytes_renderMembers_cons (key : List Char) (value : Doc) (members : Members) :
    bytes (renderMembers ((key, value) :: members))
      = bytes (renderText key) + bytes (render value) + bytes (renderMembers members) + 2 := by
  have hcomma : (',' : Char).utf8Size = 1 := rfl
  have hcolon : (':' : Char).utf8Size = 1 := rfl
  simp only [renderMembers, bytes_cons, bytes_append, hcomma, hcolon]
  omega

/-- The order of the members of an object does not matter to its size. -/
theorem bytes_object_perm {members members' : Members} (h : members.Perm members') :
    bytes (render (.object members)) = bytes (render (.object members')) := by
  have htail (members : Members) : bytes (renderMembers members).tail
      = bytes (renderMembers members) - 1 := by
    cases members with
    | nil => rfl
    | cons member members =>
      have hcomma : (',' : Char).utf8Size = 1 := rfl
      rw [renderMembers, List.tail_cons, bytes_cons, hcomma]
      omega
  simp only [render, bytes_cons, bytes_append, htail, bytes_renderMembers_perm h]

/-! ## Objects as dictionaries -/

/-- `dict[key] = value`: a key that is there keeps its place. -/
def setMember (dict : Members) (key : List Char) (value : Doc) : Members :=
  if key ∈ dict.map Prod.fst then dict.map fun m => if m.1 = key then (key, value) else m
  else dict ++ [(key, value)]

/-- The dictionary that an object is read as: of a key that comes again, the last value. -/
def asDict (members : Members) : Members :=
  members.foldl (fun dict m => setMember dict m.1 m.2) []

theorem foldl_setMember (members : Members) (dict : Members)
    (h : ((dict ++ members).map Prod.fst).Nodup) :
    members.foldl (fun dict m => setMember dict m.1 m.2) dict = dict ++ members := by
  induction members generalizing dict with
  | nil => simp
  | cons m members ih =>
    have hnew : m.1 ∉ dict.map Prod.fst := by
      rw [List.map_append, List.map_cons, List.nodup_append] at h
      exact fun hmem => h.2.2 _ hmem _ List.mem_cons_self rfl
    rw [List.foldl_cons, setMember, if_neg hnew, ih _ (by simpa using h), List.append_assoc]
    rfl

theorem asDict_of_nodup {members : Members} (h : (members.map Prod.fst).Nodup) :
    asDict members = members :=
  foldl_setMember members [] (by simpa using h)

end QaPlatform.JsonText
