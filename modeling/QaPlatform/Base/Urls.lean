import Mathlib.Data.List.TakeWhile

/-! URLs as Python's `urllib.parse` takes them apart, on lists of characters: the
parts of a URL, percent-encoding, and what makes a reference an absolute URL. -/

namespace QaPlatform.Urls

/-- `SplitResult`, with the parameters of `urlparse`. -/
structure ParseResult where
  scheme : List Char
  netloc : List Char
  path : List Char
  params : List Char
  query : List Char
  fragment : List Char
deriving DecidableEq, Repr

/-- `scheme_chars`. -/
def isSchemeChar (c : Char) : Bool := c.isAlpha ∨ c.isDigit ∨ c = '+' ∨ c = '-' ∨ c = '.'

/-- What `urlsplit` removes: blanks and control characters in front, tabs and line ends anywhere. -/
def removeUnsafe (url : List Char) : List Char :=
  (url.dropWhile (·.toNat ≤ 32)).filter fun c => c ≠ '\t' ∧ c ≠ '\r' ∧ c ≠ '\n'

/-- `rstrip` of one character. -/
def rstrip (c : Char) (text : List Char) : List Char := (text.reverse.dropWhile (· = c)).reverse

/-- The text before the first `c` and the text after it. -/
def cut (c : Char) (text : List Char) : List Char × List Char :=
  (text.takeWhile (· ≠ c), (text.dropWhile (· ≠ c)).drop 1)

/-- The scheme of a URL in lower case, and what is left of the URL. -/
def splitScheme (url : List Char) : List Char × List Char :=
  let scheme := url.takeWhile (· ≠ ':')
  if ':' ∈ url ∧ scheme ≠ [] ∧ scheme.all isSchemeChar then
    (scheme.map Char.toLower, (cut ':' url).2)
  else ([], url)

/-- The end of an authority. -/
def endsAuthority (c : Char) : Bool := c = '/' ∨ c = '?' ∨ c = '#'

/-- `_splitnetloc`, after two slashes. -/
def splitNetloc : List Char → List Char × List Char
  | '/' :: '/' :: rest =>
    (rest.takeWhile fun c => ¬ endsAuthority c, rest.dropWhile fun c => ¬ endsAuthority c)
  | url => ([], url)

/-- `uses_params`. -/
def usesParams : List String :=
  ["", "ftp", "hdl", "prospero", "http", "https", "shttp", "rtsp", "rtspu", "sip", "sips", "mms",
    "sftp", "tel"]

/-- `_splitparams`: the parameters are those of the last segment. -/
def splitParams (path : List Char) : List Char × List Char :=
  let segment := (path.reverse.takeWhile (· ≠ '/')).reverse
  let before := path.take (path.length - segment.length)
  (before ++ (cut ';' segment).1, (cut ';' segment).2)

/-- `urlparse`; a bracket that is not closed raises `ValueError`. -/
def urlparse (url : List Char) : Option ParseResult :=
  let (scheme, url) := splitScheme (removeUnsafe url)
  let (netloc, url) := splitNetloc url
  if ('[' ∈ netloc) ≠ (']' ∈ netloc) then none
  else
    let (url, fragment) := cut '#' url
    let (url, query) := cut '?' url
    let (path, params) :=
      if String.ofList scheme ∈ usesParams then splitParams url else (url, [])
    some ⟨scheme, netloc, path, params, query, fragment⟩

namespace ParseResult

/-- The part of the netloc after the last `@`. -/
def hostInfo (url : ParseResult) : List Char :=
  (url.netloc.reverse.takeWhile (· ≠ '@')).reverse

/-- `username is not None`; there is no password without one. -/
def HasCredentials (url : ParseResult) : Prop := '@' ∈ url.netloc

instance (url : ParseResult) : Decidable url.HasCredentials := by
  unfold HasCredentials
  infer_instance

/-- `_hostinfo`: the host and the port as they are written. -/
def hostAndPort (url : ParseResult) : List Char × List Char :=
  if '[' ∈ url.hostInfo then
    let (host, rest) := cut ']' (cut '[' url.hostInfo).2
    (host, (cut ':' rest).2)
  else cut ':' url.hostInfo

end ParseResult

/-! ## Percent-encoding -/

/-- The value of a hexadecimal digit. -/
def hexValue (c : Char) : Option Nat :=
  if c.isDigit then some (c.toNat - 48)
  else if 'a'.toNat ≤ c.toNat ∧ c.toNat ≤ 'f'.toNat then some (c.toNat - 87)
  else if 'A'.toNat ≤ c.toNat ∧ c.toNat ≤ 'F'.toNat then some (c.toNat - 55)
  else none

/-- `unquote_to_bytes`, of an ASCII text. -/
def unquoteToBytes : List Char → List Nat
  | '%' :: a :: b :: rest =>
    match hexValue a, hexValue b with
    | some high, some low => (16 * high + low) :: unquoteToBytes rest
    | _, _ => '%'.toNat :: unquoteToBytes (a :: b :: rest)
  | c :: rest => c.toNat :: unquoteToBytes rest
  | [] => []

/-- A sequence of UTF-8 that has begun: how many bytes are missing, between which values the
next one is, and the code so far. -/
structure Pending where
  missing : Nat
  lower : Nat
  upper : Nat
  code : Nat

/-- What a byte begins: a character, a sequence, or nothing. -/
def leadByte (b : Nat) : Option (Char ⊕ Pending) :=
  if b < 0x80 then some (.inl (Char.ofNat b))
  else if 0xC2 ≤ b ∧ b ≤ 0xDF then some (.inr ⟨1, 0x80, 0xBF, b - 0xC0⟩)
  else if b = 0xE0 then some (.inr ⟨2, 0xA0, 0xBF, 0⟩)
  else if b = 0xED then some (.inr ⟨2, 0x80, 0x9F, 0xD⟩)
  else if 0xE1 ≤ b ∧ b ≤ 0xEF then some (.inr ⟨2, 0x80, 0xBF, b - 0xE0⟩)
  else if b = 0xF0 then some (.inr ⟨3, 0x90, 0xBF, 0⟩)
  else if 0xF1 ≤ b ∧ b ≤ 0xF3 then some (.inr ⟨3, 0x80, 0xBF, b - 0xF0⟩)
  else if b = 0xF4 then some (.inr ⟨3, 0x80, 0x8F, 4⟩)
  else none

/-- `'\ufffd'`, which stands for bytes that are not UTF-8. -/
def replacement : Char := Char.ofNat 0xFFFD

/-- `decode("utf-8", "replace")`: what is not well formed becomes one replacement character. -/
def decodeUtf8 : Option Pending → List Nat → List Char
  | none, [] => []
  | some _, [] => [replacement]
  | pending, b :: rest =>
    match pending.filter fun p => p.lower ≤ b ∧ b ≤ p.upper with
    | some p =>
      let code := 64 * p.code + (b - 0x80)
      if p.missing = 1 then Char.ofNat code :: decodeUtf8 none rest
      else decodeUtf8 (some ⟨p.missing - 1, 0x80, 0xBF, code⟩) rest
    | none =>
      let broken := if pending.isSome then [replacement] else []
      match leadByte b with
      | some (.inl c) => broken ++ c :: decodeUtf8 none rest
      | some (.inr p) => broken ++ decodeUtf8 (some p) rest
      | none => broken ++ replacement :: decodeUtf8 none rest

/-- `unquote` of what is left, after an ASCII run that is read from its end. -/
def unquoteFrom : List Char → List Char → List Char
  | run, [] => decodeUtf8 none (unquoteToBytes run.reverse)
  | run, c :: rest =>
    if c.toNat < 128 then unquoteFrom (c :: run) rest
    else decodeUtf8 none (unquoteToBytes run.reverse) ++ c :: unquoteFrom [] rest

/-- `urllib.parse.unquote`. -/
def unquote (text : List Char) : List Char := unquoteFrom [] text

/-- The upper-case digit of a number below 16. -/
def hexDigit (n : Nat) : Char := Char.ofNat (if n < 10 then 48 + n else 55 + n)

/-- The characters that `quote` leaves alone when no others are safe. -/
def isUnreserved (c : Char) : Bool :=
  c.isAlpha ∨ c.isDigit ∨ c = '_' ∨ c = '.' ∨ c = '-' ∨ c = '~'

/-- `quote(text, safe="")`. -/
def quote (text : List Char) : List Char :=
  text.flatMap fun c =>
    if isUnreserved c then [c]
    else (String.utf8EncodeChar c).flatMap fun b =>
      ['%', hexDigit (b.toNat / 16), hexDigit (b.toNat % 16)]

/-! ## Absolute URLs -/

/-- The host of an authority: after the credentials and before the port. -/
def authorityHost (authority : List Char) : List Char :=
  let hostInfo := (authority.reverse.takeWhile (· ≠ '@')).reverse
  if hostInfo.head? = some '[' ∧ ']' ∈ hostInfo then
    (hostInfo.reverse.dropWhile (· ≠ ']')).reverse
  else hostInfo.takeWhile (· ≠ ':')

/-- The host that follows a scheme, if one does. -/
def hostAfterScheme (text : List Char) : List Char :=
  if text.take 3 = [':', '/', '/'] then
    authorityHost ((text.drop 3).takeWhile fun c => ¬ endsAuthority c)
  else []

/-- A scheme, two slashes and a host. -/
def AbsoluteUrl (text : List Char) : Prop :=
  (text.takeWhile (· ≠ ':')).head?.any Char.isAlpha ∧ (text.takeWhile (· ≠ ':')).all isSchemeChar
    ∧ hostAfterScheme (text.dropWhile (· ≠ ':')) ≠ []

instance (text : List Char) : Decidable (AbsoluteUrl text) := by
  unfold AbsoluteUrl
  infer_instance

theorem rstrip_getLast? (c : Char) (text : List Char) : (rstrip c text).getLast? ≠ some c := by
  unfold rstrip
  rw [List.getLast?_reverse]
  intro h
  have hkept := List.head?_dropWhile_not (· = c) text.reverse
  rw [h] at hkept
  simp at hkept

theorem rstrip_prefix (c : Char) (text : List Char) : rstrip c text <+: text := by
  have hsuffix := List.reverse_prefix.mpr (List.dropWhile_suffix (· = c) (l := text.reverse))
  rwa [List.reverse_reverse] at hsuffix

/-- A slash ends an authority. -/
theorem authority_append (text rest : List Char) :
    ((text ++ '/' :: rest).takeWhile fun c => ¬ endsAuthority c)
      = text.takeWhile fun c => ¬ endsAuthority c := by
  rw [List.takeWhile_append]
  split
  · next hall =>
    have hslash : ('/' :: rest).takeWhile (fun c => ¬ endsAuthority c) = [] :=
      List.takeWhile_cons_of_neg (by decide)
    rw [hslash, List.append_nil]
    exact ((List.takeWhile_prefix _).eq_of_length hall).symm
  · rfl

theorem hostAfterScheme_append {text rest : List Char} (htext : text.getLast? ≠ some '/')
    (hne : text ≠ []) (hrest : rest.head? ≠ some '/') :
    hostAfterScheme (text ++ '/' :: rest) = hostAfterScheme text := by
  unfold hostAfterScheme
  match text with
  | [] => exact absurd rfl hne
  | [a] =>
    rw [if_neg, if_neg (by simp)]
    intro h
    simp only [List.singleton_append, List.take_succ_cons, List.cons.injEq, true_and] at h
    cases rest with
    | nil => simp at h
    | cons c rest => exact hrest (by simpa using h.2)
  | [a, b] =>
    rw [if_neg, if_neg (by simp)]
    intro h
    have hb : b = '/' := (List.cons.inj (List.cons.inj h).2).1
    exact htext (by rw [hb]; rfl)
  | a :: b :: c :: tail =>
    show (if [a, b, c] = [':', '/', '/']
      then authorityHost ((tail ++ '/' :: rest).takeWhile _) else _)
      = if [a, b, c] = [':', '/', '/'] then authorityHost (tail.takeWhile _) else _
    rw [authority_append]

/-- With a slash before any colon there is no scheme. -/
theorem not_absoluteUrl_append {text rest : List Char} (hcolon : ':' ∉ text) :
    ¬ AbsoluteUrl (text ++ '/' :: rest) := by
  rintro ⟨-, hall, -⟩
  have hkept : ∀ c ∈ text, decide (c ≠ ':') = true := by
    intro c hc
    have hne : c ≠ ':' := fun h => hcolon (h ▸ hc)
    simpa using hne
  rw [List.takeWhile_append_of_pos hkept] at hall
  have hslash : isSchemeChar '/' = true := by
    refine List.all_eq_true.mp hall '/' (List.mem_append_right _ ?_)
    rw [List.takeWhile_cons_of_pos (by decide)]
    exact List.mem_cons_self
  exact absurd hslash (by decide)

/-- A text without a colon is not absolute. -/
theorem not_absoluteUrl {text : List Char} (hcolon : ':' ∉ text) : ¬ AbsoluteUrl text := by
  rintro ⟨-, -, hhost⟩
  have hnone : text.dropWhile (· ≠ ':') = [] := by
    rw [List.dropWhile_eq_nil_iff]
    intro c hc
    have hne : c ≠ ':' := fun h => hcolon (h ▸ hc)
    simpa using hne
  rw [hnone] at hhost
  exact hhost rfl

/-- Segments behind a text that does not end with a slash have no part in what makes it
absolute. -/
theorem absoluteUrl_append {text rest : List Char} (htext : text.getLast? ≠ some '/')
    (hrest : rest.head? ≠ some '/') : AbsoluteUrl (text ++ '/' :: rest) ↔ AbsoluteUrl text := by
  by_cases hcolon : ':' ∈ text
  · have hdrop : text.dropWhile (· ≠ ':') ≠ [] := by
      rw [Ne, List.dropWhile_eq_nil_iff]
      intro hall
      have hnot := hall ':' hcolon
      simp at hnot
    have hends : (text.takeWhile (· ≠ ':') ++ text.dropWhile (· ≠ ':')).getLast?
      = text.getLast? := by
      rw [List.takeWhile_append_dropWhile]
    have hlast : (text.dropWhile (· ≠ ':')).getLast? = text.getLast? := by
      rwa [List.getLast?_append, List.getLast?_eq_some_getLast hdrop, Option.some_or,
        ← List.getLast?_eq_some_getLast hdrop] at hends
    have hsplit := congrArg List.length
      (List.takeWhile_append_dropWhile (p := (· ≠ ':')) (l := text))
    rw [List.length_append] at hsplit
    have hpos := List.length_pos_iff.mpr hdrop
    have hshort : ¬ (text.takeWhile (· ≠ ':')).length = text.length := by omega
    have hrestNe : ¬ (text.dropWhile (· ≠ ':')).isEmpty = true := by simpa using hdrop
    unfold AbsoluteUrl
    rw [List.takeWhile_append, List.dropWhile_append, if_neg hshort, if_neg hrestNe,
      hostAfterScheme_append (hlast ▸ htext) hdrop hrest]
  · exact iff_of_false (not_absoluteUrl_append hcolon) (not_absoluteUrl hcolon)

end QaPlatform.Urls
