import Mathlib.Data.List.Basic

/-!
# Comma-separated values

The reader and the writer of Python's `csv` module (3.10): fields between delimiters, quoted where
they have to be, with quotation marks doubled.

* `read` goes through the characters line by line, with a state for each place in a record. It
  fails at a field that is longer than the limit, at a character behind a record that has ended in
  the middle of a line, and at a NUL.
* `write` quotes the fields that have a delimiter, a quotation mark or the end of a line. It fails
  at a NUL, which it takes for an escape character that is not set.

What has been written is read back as it was, as far as the first row with a field over the limit,
at which the reader fails (`read_write`).
-/

namespace QaPlatform.Csv

/-- A dialect without an escape character, and `csv.field_size_limit()`. -/
structure Dialect where
  delimiter : Char
  quotechar : Char
  fieldSizeLimit : Nat
  delimiter_ne_quotechar : delimiter ≠ quotechar
  delimiter_newline : delimiter ≠ '\n' ∧ delimiter ≠ '\r'
  quotechar_newline : quotechar ≠ '\n' ∧ quotechar ≠ '\r'
  delimiter_ne_nul : delimiter ≠ '\x00'
  quotechar_ne_nul : quotechar ≠ '\x00'

/-- The text of a field. -/
abbrev Field := List Char

/-- `'\n'` or `'\r'`. -/
def IsNewline (c : Char) : Prop := c = '\n' ∨ c = '\r'

instance (c : Char) : Decidable (IsNewline c) := by
  unfold IsNewline
  infer_instance

/-! ## Reading -/

/-- Where the reader is within a record: the states of `_csv.c`, less those of escaping. -/
inductive Phase where
  | startRecord
  | startField
  | inField
  | inQuotedField
  | quoteInQuotedField
  | eatCrnl
deriving DecidableEq, Repr

/-- Where the reader stands in a record. -/
structure Parser where
  phase : Phase
  field : Field
  fields : List Field

/-- The reader before a record. -/
def Parser.reset : Parser := ⟨.startRecord, [], []⟩

/-- `parse_add_char`. -/
def addChar (d : Dialect) (c : Char) (next : Phase) (p : Parser) : Option Parser :=
  if d.fieldSizeLimit ≤ p.field.length then none else some ⟨next, p.field ++ [c], p.fields⟩

/-- `parse_save_field`. -/
def saveField (next : Phase) (p : Parser) : Parser := ⟨next, [], p.fields ++ [p.field]⟩

/-- A character where a field begins. -/
def beginField (d : Dialect) (c : Char) (p : Parser) : Option Parser :=
  if c = d.quotechar then some { p with phase := .inQuotedField }
  else if c = d.delimiter then some (saveField .startField p)
  else addChar d c .inField p

/-- `parse_process_char`, of a character that is not NUL; `none` is a `csv.Error`. -/
def processChar (d : Dialect) (c : Char) (p : Parser) : Option Parser :=
  match p.phase with
  | .startRecord => if IsNewline c then some { p with phase := .eatCrnl } else beginField d c p
  | .startField => if IsNewline c then some (saveField .eatCrnl p) else beginField d c p
  | .inField =>
    if IsNewline c then some (saveField .eatCrnl p)
    else if c = d.delimiter then some (saveField .startField p)
    else addChar d c .inField p
  | .inQuotedField =>
    if c = d.quotechar then some { p with phase := .quoteInQuotedField }
    else addChar d c .inQuotedField p
  | .quoteInQuotedField =>
    if c = d.quotechar then addChar d c .inQuotedField p
    else if c = d.delimiter then some (saveField .startField p)
    else if IsNewline c then some (saveField .eatCrnl p)
    else addChar d c .inField p
  | .eatCrnl => if IsNewline c then some p else none

/-- What `Reader_iternext` does with a character: "line contains NUL" is an error of its own. -/
def nextChar (d : Dialect) (c : Char) (p : Parser) : Option Parser :=
  if c = '\x00' then none else processChar d c p

/-- The same at the end of a line. -/
def processEol (p : Parser) : Parser :=
  match p.phase with
  | .startRecord | .inQuotedField => p
  | .startField | .inField | .quoteInQuotedField => saveField .startRecord p
  | .eatCrnl => { p with phase := .startRecord }

/-- The records that come out before the end, or before an error. -/
structure Records where
  rows : List (List Field)
  failed : Bool
deriving DecidableEq

/-- A record more, before those that follow. -/
def Records.cons (row : List Field) (r : Records) : Records := ⟨row :: r.rows, r.failed⟩

/-- Lines end as those of a file that is open with `newline=""`. -/
def EndsLine (c : Char) (rest : List Char) : Prop :=
  c = '\n' ∨ c = '\r' ∧ rest.head? ≠ some '\n' ∨ rest = []

instance (c : Char) (rest : List Char) : Decidable (EndsLine c rest) := by
  unfold EndsLine
  infer_instance

/-- The records from where the reader stands on. -/
def readFrom (d : Dialect) : Parser → List Char → Records
  | p, [] =>
    if p.field ≠ [] ∨ p.phase = .inQuotedField then ⟨[p.fields ++ [p.field]], false⟩
    else ⟨[], false⟩
  | p, c :: rest =>
    match nextChar d c p with
    | none => ⟨[], true⟩
    | some p =>
      if EndsLine c rest then
        if (processEol p).phase = .startRecord then
          (readFrom d .reset rest).cons (processEol p).fields
        else readFrom d (processEol p) rest
      else readFrom d p rest

/-- All the records of a text. -/
def read (d : Dialect) (text : List Char) : Records := readFrom d .reset text

/-! ## Writing -/

/-- The writer quotes a field with a delimiter, a quote character or an end of line in it. -/
def NeedsQuotes (d : Dialect) (field : Field) : Prop :=
  ∃ c ∈ field, c = d.delimiter ∨ c = d.quotechar ∨ IsNewline c

instance (d : Dialect) (field : Field) : Decidable (NeedsQuotes d field) :=
  List.decidableBEx _ field

/-- Every quote character twice. -/
def double (d : Dialect) (field : Field) : List Char :=
  field.flatMap fun c => if c = d.quotechar then [c, c] else [c]

/-- `join_append`. -/
def writeField (d : Dialect) (field : Field) : List Char :=
  if NeedsQuotes d field then d.quotechar :: (double d field ++ [d.quotechar]) else field

/-- The fields of a row with a delimiter between them. -/
def joinFields (d : Dialect) : List Field → List Char
  | [] => []
  | [field] => writeField d field
  | field :: fields => writeField d field ++ d.delimiter :: joinFields d fields

/-- `writerow`, with `\r\n` behind; a single empty field is quoted. -/
def writeRow (d : Dialect) (fields : List Field) : List Char :=
  (if fields = [[]] then [d.quotechar, d.quotechar] else joinFields d fields) ++ ['\r', '\n']

/-- `writerows`; `none` is the `csv.Error` for a NUL, which is what an escape character is that has
not been set. -/
def write (d : Dialect) (rows : List (List Field)) : Option (List Char) :=
  if ∃ row ∈ rows, ∃ field ∈ row, '\x00' ∈ field then none else some (rows.flatMap (writeRow d))

/-- The fields of a row are within the limit. -/
def Fits (d : Dialect) (row : List Field) : Prop := ∀ field ∈ row, field.length ≤ d.fieldSizeLimit

instance (d : Dialect) (row : List Field) : Decidable (Fits d row) := List.decidableBAll _ row

section
variable {d : Dialect} {p p' : Parser} {c : Char} {rest : List Char} {field : Field}

/-! ## Inside a record -/

theorem not_endsLine (hc : ¬ IsNewline c) (hrest : rest ≠ []) : ¬ EndsLine c rest := by
  rintro (hlf | ⟨hcr, -⟩ | hnil)
  · exact hc (.inl hlf)
  · exact hc (.inr hcr)
  · exact hrest hnil

theorem nextChar_of_ne (hc : c ≠ '\x00') : nextChar d c p = processChar d c p := if_neg hc

theorem readFrom_step (h : nextChar d c p = some p') (hend : ¬ EndsLine c rest) :
    readFrom d p (c :: rest) = readFrom d p' rest := by
  rw [readFrom, h]
  exact if_neg hend

theorem readFrom_failed (h : nextChar d c p = none) : readFrom d p (c :: rest) = ⟨[], true⟩ := by
  rw [readFrom, h]

/-- In a quoted field the end of a line is nothing special. -/
theorem readFrom_quoted (h : nextChar d c p = some p') (hphase : p'.phase = .inQuotedField) :
    readFrom d p (c :: rest) = readFrom d p' rest := by
  have heol : processEol p' = p' := by
    unfold processEol
    rw [hphase]
  have hopen : p'.phase ≠ .startRecord := by
    rw [hphase]
    decide
  rw [readFrom, h]
  dsimp only
  rw [heol, if_neg hopen, ite_self]

theorem delimiter_not_newline (d : Dialect) : ¬ IsNewline d.delimiter := by
  rintro (h | h)
  · exact d.delimiter_newline.1 h
  · exact d.delimiter_newline.2 h

theorem quotechar_not_newline (d : Dialect) : ¬ IsNewline d.quotechar := by
  rintro (h | h)
  · exact d.quotechar_newline.1 h
  · exact d.quotechar_newline.2 h

theorem addChar_ok {next : Phase} (h : p.field.length < d.fieldSizeLimit) :
    addChar d c next p = some ⟨next, p.field ++ [c], p.fields⟩ :=
  if_neg (Nat.not_le.mpr h)

theorem addChar_failed {next : Phase} (h : p.field.length = d.fieldSizeLimit) :
    addChar d c next p = none :=
  if_pos (Nat.le_of_eq h.symm)

/-- A character of a plain field is added to it. -/
theorem processChar_plain {before : Field} {fields : List Field}
    (hplain : ¬ (c = d.delimiter ∨ c = d.quotechar ∨ IsNewline c)) :
    processChar d c ⟨.inField, before, fields⟩
      = addChar d c .inField ⟨.inField, before, fields⟩ := by
  obtain ⟨hdelimiter, hrest⟩ := not_or.mp hplain
  obtain ⟨-, hnewline⟩ := not_or.mp hrest
  simp only [processChar, if_neg hnewline, if_neg hdelimiter]

theorem not_needsQuotes_cons {plain : Field} (h : ¬ NeedsQuotes d (c :: plain)) :
    ¬ (c = d.delimiter ∨ c = d.quotechar ∨ IsNewline c) ∧ ¬ NeedsQuotes d plain := by
  refine ⟨fun hc => h ⟨c, List.mem_cons_self, hc⟩, ?_⟩
  rintro ⟨c', hc', hquotes⟩
  exact h ⟨c', List.mem_cons_of_mem _ hc', hquotes⟩

/-- The characters of a plain field. -/
theorem readFrom_plain {before plain : Field} {fields : List Field} (hnul : '\x00' ∉ plain)
    (hplain : ¬ NeedsQuotes d plain) (hlimit : (before ++ plain).length ≤ d.fieldSizeLimit)
    (hrest : rest ≠ []) :
    readFrom d ⟨.inField, before, fields⟩ (plain ++ rest)
      = readFrom d ⟨.inField, before ++ plain, fields⟩ rest := by
  induction plain generalizing before with
  | nil => rw [List.nil_append, List.append_nil]
  | cons c plain ih =>
    obtain ⟨hc, hplain'⟩ := not_needsQuotes_cons hplain
    obtain ⟨hne, hnul'⟩ := List.ne_and_not_mem_of_not_mem_cons hnul
    have hnewline : ¬ IsNewline c := fun h => hc (.inr (.inr h))
    have hshort : before.length < d.fieldSizeLimit := by
      rw [List.length_append, List.length_cons] at hlimit
      omega
    have hstep : nextChar d c ⟨.inField, before, fields⟩
        = some ⟨.inField, before ++ [c], fields⟩ := by
      rw [nextChar_of_ne hne.symm, processChar_plain hc]
      exact addChar_ok hshort
    have hnext : plain ++ rest ≠ [] := fun h => hrest (List.append_eq_nil_iff.mp h).2
    rw [List.cons_append, readFrom_step hstep (not_endsLine hnewline hnext), ih hnul' hplain']
    · rw [List.append_assoc, List.singleton_append]
    · rwa [List.append_assoc, List.singleton_append]

/-- The character of a plain field that is one too many. -/
theorem readFrom_plain_failed {before plain : Field} {fields : List Field} (hnul : '\x00' ∉ plain)
    (hplain : ¬ NeedsQuotes d plain) (hbefore : before.length ≤ d.fieldSizeLimit)
    (hlong : d.fieldSizeLimit < (before ++ plain).length) :
    readFrom d ⟨.inField, before, fields⟩ (plain ++ rest) = ⟨[], true⟩ := by
  induction plain generalizing before with
  | nil =>
    rw [List.append_nil] at hlong
    omega
  | cons c plain ih =>
    obtain ⟨hc, hplain'⟩ := not_needsQuotes_cons hplain
    obtain ⟨hne, hnul'⟩ := List.ne_and_not_mem_of_not_mem_cons hnul
    have hnewline : ¬ IsNewline c := fun h => hc (.inr (.inr h))
    have hstep : nextChar d c ⟨.inField, before, fields⟩
        = addChar d c .inField ⟨.inField, before, fields⟩ := by
      rw [nextChar_of_ne hne.symm, processChar_plain hc]
    rw [List.cons_append]
    rcases Nat.eq_or_lt_of_le hbefore with hfull | hshort
    · exact readFrom_failed (hstep.trans (addChar_failed hfull))
    · have hnext : plain ++ rest ≠ [] := by
        intro hnil
        obtain ⟨rfl, -⟩ := List.append_eq_nil_iff.mp hnil
        rw [List.length_append, List.length_singleton] at hlong
        omega
      rw [readFrom_step (hstep.trans (addChar_ok hshort)) (not_endsLine hnewline hnext)]
      refine ih hnul' hplain' ?_ ?_
      · rw [List.length_append, List.length_singleton]
        exact hshort
      · rwa [List.append_assoc, List.singleton_append]

theorem double_cons (d : Dialect) (c : Char) (quoted : Field) (rest : List Char) :
    double d (c :: quoted) ++ rest
      = (if c = d.quotechar then [c, c] else [c]) ++ (double d quoted ++ rest) := by
  simp [double]

/-- A character of a quoted field, twice if it is a quotation mark, is added to the field. -/
theorem readFrom_doubled_cons {before : Field} {fields : List Field} (hne : c ≠ '\x00') :
    readFrom d ⟨.inQuotedField, before, fields⟩
        ((if c = d.quotechar then [c, c] else [c]) ++ rest)
      = if before.length < d.fieldSizeLimit then
          readFrom d ⟨.inQuotedField, before ++ [c], fields⟩ rest
        else ⟨[], true⟩ := by
  have hlong : ¬ before.length < d.fieldSizeLimit → d.fieldSizeLimit ≤ before.length :=
    Nat.le_of_not_lt
  by_cases hc : c = d.quotechar
  · -- the first mark might end the field, the second one tells that it does not
    have hfirst : nextChar d c ⟨.inQuotedField, before, fields⟩
        = some ⟨.quoteInQuotedField, before, fields⟩ := by
      rw [nextChar_of_ne hne]
      simp only [processChar, if_pos hc]
    have hsecond : nextChar d c ⟨.quoteInQuotedField, before, fields⟩
        = addChar d c .inQuotedField ⟨.quoteInQuotedField, before, fields⟩ := by
      rw [nextChar_of_ne hne]
      simp only [processChar, if_pos hc]
    have hmark : ¬ EndsLine c (c :: rest) :=
      not_endsLine (hc ▸ quotechar_not_newline d) (List.cons_ne_nil _ _)
    rw [if_pos hc]
    show readFrom d _ (c :: c :: rest) = _
    rw [readFrom_step hfirst hmark]
    split
    · next hshort => rw [readFrom_quoted (hsecond.trans (addChar_ok hshort)) rfl]
    · next hfull => exact readFrom_failed (hsecond.trans (if_pos (hlong hfull)))
  · have hstep : nextChar d c ⟨.inQuotedField, before, fields⟩
        = addChar d c .inQuotedField ⟨.inQuotedField, before, fields⟩ := by
      rw [nextChar_of_ne hne]
      simp only [processChar, if_neg hc]
    rw [if_neg hc, List.singleton_append]
    split
    · next hshort => rw [readFrom_quoted (hstep.trans (addChar_ok hshort)) rfl]
    · next hfull => exact readFrom_failed (hstep.trans (if_pos (hlong hfull)))

/-- The characters of a quoted field, with its marks doubled. -/
theorem readFrom_doubled {before quoted : Field} {fields : List Field} (hnul : '\x00' ∉ quoted)
    (hlimit : (before ++ quoted).length ≤ d.fieldSizeLimit) :
    readFrom d ⟨.inQuotedField, before, fields⟩ (double d quoted ++ rest)
      = readFrom d ⟨.inQuotedField, before ++ quoted, fields⟩ rest := by
  induction quoted generalizing before with
  | nil =>
    rw [List.append_nil]
    rfl
  | cons c quoted ih =>
    obtain ⟨hne, hnul'⟩ := List.ne_and_not_mem_of_not_mem_cons hnul
    have hshort : before.length < d.fieldSizeLimit := by
      rw [List.length_append, List.length_cons] at hlimit
      omega
    rw [double_cons, readFrom_doubled_cons hne.symm, if_pos hshort, ih hnul']
    · rw [List.append_assoc, List.singleton_append]
    · rwa [List.append_assoc, List.singleton_append]

/-- The character of a quoted field that is one too many. -/
theorem readFrom_doubled_failed {before quoted : Field} {fields : List Field}
    (hnul : '\x00' ∉ quoted) (hbefore : before.length ≤ d.fieldSizeLimit)
    (hlong : d.fieldSizeLimit < (before ++ quoted).length) :
    readFrom d ⟨.inQuotedField, before, fields⟩ (double d quoted ++ rest) = ⟨[], true⟩ := by
  induction quoted generalizing before with
  | nil =>
    rw [List.append_nil] at hlong
    omega
  | cons c quoted ih =>
    obtain ⟨hne, hnul'⟩ := List.ne_and_not_mem_of_not_mem_cons hnul
    rw [double_cons, readFrom_doubled_cons hne.symm]
    split
    · next hshort =>
      refine ih hnul' ?_ ?_
      · rw [List.length_append, List.length_singleton]
        exact hshort
      · rwa [List.append_assoc, List.singleton_append]
    · rfl

/-! ## Fields -/

/-- The reader stands at the beginning of a field. -/
def Parser.Begins (p : Parser) : Prop :=
  (p.phase = .startRecord ∨ p.phase = .startField) ∧ p.field = []

/-- The reader has the field, and nothing behind it. -/
def Parser.Holds (p : Parser) (field : Field) (fields : List Field) : Prop :=
  p.field = field ∧ p.fields = fields ∧ (p.phase = .startField ∨ p.phase = .inField
    ∨ p.phase = .quoteInQuotedField ∨ p.phase = .startRecord ∧ field = [])

/-- Where a field begins, the end of a line apart, it does not matter what is before. -/
theorem nextChar_begins (hp : p.Begins) (hne : c ≠ '\x00') (hnewline : ¬ IsNewline c) :
    nextChar d c p = beginField d c p := by
  rw [nextChar_of_ne hne]
  rcases hp.1 with hphase | hphase
  · simp only [processChar, hphase, if_neg hnewline]
  · simp only [processChar, hphase, if_neg hnewline]

theorem nextChar_open (hp : p.Begins) :
    nextChar d d.quotechar p = some { p with phase := .inQuotedField } := by
  rw [nextChar_begins hp d.quotechar_ne_nul (quotechar_not_newline d)]
  exact if_pos rfl

theorem nextChar_close (field : Field) (fields : List Field) :
    nextChar d d.quotechar ⟨.inQuotedField, field, fields⟩
      = some ⟨.quoteInQuotedField, field, fields⟩ := by
  rw [nextChar_of_ne d.quotechar_ne_nul]
  simp only [processChar, if_pos]

/-- The first character of a plain field. -/
theorem nextChar_plain (hp : p.Begins) (hne : c ≠ '\x00')
    (hplain : ¬ (c = d.delimiter ∨ c = d.quotechar ∨ IsNewline c)) :
    nextChar d c p = addChar d c .inField p := by
  obtain ⟨hdelimiter, hrest⟩ := not_or.mp hplain
  obtain ⟨hquotechar, hnewline⟩ := not_or.mp hrest
  rw [nextChar_begins hp hne hnewline]
  simp only [beginField, if_neg hquotechar, if_neg hdelimiter]

/-- A field that has been written is read, as far as what follows it. -/
theorem readFrom_writeField (hp : p.Begins) (hnul : '\x00' ∉ field)
    (hlimit : field.length ≤ d.fieldSizeLimit) (rest : List Char) (hrest : rest ≠ []) :
    ∃ p', p'.Holds field p.fields
      ∧ (field ≠ [] → p'.phase ≠ .startRecord) ∧ (p.phase = .startField → p'.phase ≠ .startRecord)
      ∧ readFrom d p (writeField d field ++ rest) = readFrom d p' rest := by
  obtain ⟨phase, content, fields⟩ := p
  obtain ⟨hphase, rfl⟩ : (phase = .startRecord ∨ phase = .startField) ∧ content = [] := hp
  have hbegins : Parser.Begins ⟨phase, [], fields⟩ := ⟨hphase, rfl⟩
  unfold writeField
  split
  · -- quoted
    refine ⟨⟨.quoteInQuotedField, field, fields⟩, ⟨rfl, rfl, .inr (.inr (.inl rfl))⟩, by simp,
      by simp, ?_⟩
    rw [List.cons_append, readFrom_quoted (nextChar_open hbegins) rfl, List.append_assoc,
      readFrom_doubled hnul (by simpa using hlimit), List.nil_append, List.singleton_append,
      readFrom_step (nextChar_close field fields)
        (not_endsLine (quotechar_not_newline d) hrest)]
  · next hplain =>
    cases field with
    | nil =>
      refine ⟨⟨phase, [], fields⟩, ⟨rfl, rfl, ?_⟩, by simp, ?_, rfl⟩
      · rcases hphase with rfl | rfl
        · exact .inr (.inr (.inr ⟨rfl, rfl⟩))
        · exact .inl rfl
      · rintro (rfl : phase = .startField)
        simp
    | cons c plain =>
      obtain ⟨hc, hplain'⟩ := not_needsQuotes_cons hplain
      obtain ⟨hne, hnul'⟩ := List.ne_and_not_mem_of_not_mem_cons hnul
      have hshort : 0 < d.fieldSizeLimit := by
        rw [List.length_cons] at hlimit
        omega
      have hstep : nextChar d c ⟨phase, [], fields⟩ = some ⟨.inField, [c], fields⟩ :=
        (nextChar_plain hbegins hne.symm hc).trans (addChar_ok hshort)
      have hnext : plain ++ rest ≠ [] := fun h => hrest (List.append_eq_nil_iff.mp h).2
      refine ⟨⟨.inField, c :: plain, fields⟩, ⟨rfl, rfl, .inr (.inl rfl)⟩, by simp, by simp, ?_⟩
      rw [List.cons_append,
        readFrom_step hstep (not_endsLine (fun h => hc (.inr (.inr h))) hnext),
        readFrom_plain hnul' hplain' hlimit hrest]
      rfl

/-- A field over the limit is not. -/
theorem readFrom_writeField_failed (hp : p.Begins) (hnul : '\x00' ∉ field)
    (hlong : d.fieldSizeLimit < field.length) (rest : List Char) (hrest : rest ≠ []) :
    readFrom d p (writeField d field ++ rest) = ⟨[], true⟩ := by
  obtain ⟨phase, content, fields⟩ := p
  obtain ⟨hphase, rfl⟩ : (phase = .startRecord ∨ phase = .startField) ∧ content = [] := hp
  have hbegins : Parser.Begins ⟨phase, [], fields⟩ := ⟨hphase, rfl⟩
  unfold writeField
  split
  · rw [List.cons_append, readFrom_quoted (nextChar_open hbegins) rfl, List.append_assoc]
    exact readFrom_doubled_failed hnul (Nat.zero_le _) hlong
  · next hplain =>
    cases field with
    | nil => exact absurd hlong (Nat.not_lt_zero _)
    | cons c plain =>
      obtain ⟨hc, hplain'⟩ := not_needsQuotes_cons hplain
      obtain ⟨hne, hnul'⟩ := List.ne_and_not_mem_of_not_mem_cons hnul
      have hstep : nextChar d c ⟨phase, [], fields⟩
          = addChar d c .inField ⟨phase, [], fields⟩ := nextChar_plain hbegins hne.symm hc
      rw [List.cons_append]
      rcases Nat.eq_zero_or_pos d.fieldSizeLimit with hzero | hshort
      · exact readFrom_failed (hstep.trans (addChar_failed hzero.symm))
      · have hnext : plain ++ rest ≠ [] := fun h => hrest (List.append_eq_nil_iff.mp h).2
        rw [readFrom_step (hstep.trans (addChar_ok hshort))
          (not_endsLine (fun h => hc (.inr (.inr h))) hnext)]
        exact readFrom_plain_failed hnul' hplain' hshort hlong

/-- A delimiter ends the field. -/
theorem readFrom_delimiter {fields : List Field} (h : p.Holds field fields) (hrest : rest ≠ []) :
    readFrom d p (d.delimiter :: rest)
      = readFrom d ⟨.startField, [], fields ++ [field]⟩ rest := by
  obtain ⟨phase, content, before⟩ := p
  obtain ⟨rfl, rfl, hphase⟩ := h
  have hne := d.delimiter_ne_quotechar
  have hnewline := delimiter_not_newline d
  refine readFrom_step ?_ (not_endsLine hnewline hrest)
  rw [nextChar_of_ne d.delimiter_ne_nul]
  rcases hphase with h | h | h | ⟨h, -⟩ <;> cases h <;>
    simp [processChar, beginField, hnewline, hne, saveField]

/-- The end of the row ends it too. -/
theorem readFrom_crlf {fields : List Field} (h : p.Holds field fields)
    (hphase : p.phase ≠ .startRecord) :
    readFrom d p ('\r' :: '\n' :: rest)
      = (readFrom d .reset rest).cons (fields ++ [field]) := by
  obtain ⟨phase, content, before⟩ := p
  obtain ⟨rfl, rfl, h⟩ := h
  have hcr : IsNewline '\r' := .inr rfl
  have hquotechar : '\r' ≠ d.quotechar := fun h => d.quotechar_newline.2 h.symm
  have hdelimiter : '\r' ≠ d.delimiter := fun h => d.delimiter_newline.2 h.symm
  have hfirst : nextChar d '\r' ⟨phase, content, before⟩
      = some ⟨.eatCrnl, [], before ++ [content]⟩ := by
    rw [nextChar_of_ne (by decide)]
    rcases h with h | h | h | ⟨h, -⟩
    · cases h
      simp [processChar, hcr, saveField]
    · cases h
      simp [processChar, hcr, saveField]
    · cases h
      simp [processChar, hcr, saveField, hquotechar, hdelimiter]
    · exact absurd h hphase
  have hlf : nextChar d '\n' ⟨.eatCrnl, [], before ++ [content]⟩
      = some ⟨.eatCrnl, [], before ++ [content]⟩ := by
    rw [nextChar_of_ne (by decide)]
    simp [processChar, IsNewline]
  have hmiddle : ¬ EndsLine '\r' ('\n' :: rest) := by
    rintro (h | ⟨-, h⟩ | h)
    · exact absurd h (by decide)
    · exact h rfl
    · exact List.cons_ne_nil _ _ h
  rw [readFrom_step hfirst hmiddle, readFrom, hlf]
  exact if_pos (.inl rfl)

/-! ## Rows -/

/-- A row is read if its fields fit. -/
theorem readFrom_joinFields {fields : List Field} (hp : p.Begins) (hne : fields ≠ [])
    (hfirst : p.phase = .startField ∨ fields ≠ [[]]) (hnul : ∀ field ∈ fields, '\x00' ∉ field) :
    readFrom d p (joinFields d fields ++ '\r' :: '\n' :: rest)
      = if Fits d fields then (readFrom d .reset rest).cons (p.fields ++ fields)
        else ⟨[], true⟩ := by
  induction fields generalizing p with
  | nil => exact absurd rfl hne
  | cons field fields ih =>
    have hfield : '\x00' ∉ field := hnul field List.mem_cons_self
    have hrest : ∀ other ∈ fields, '\x00' ∉ other :=
      fun other hother => hnul other (List.mem_cons_of_mem _ hother)
    have hcons : Fits d (field :: fields)
        ↔ field.length ≤ d.fieldSizeLimit ∧ Fits d fields := List.forall_mem_cons
    by_cases hlimit : field.length ≤ d.fieldSizeLimit
    · have hsame : Fits d (field :: fields) ↔ Fits d fields :=
        hcons.trans (and_iff_right hlimit)
      cases fields with
      | nil =>
        obtain ⟨p', hholds, hnonempty, hstarted, hread⟩ :=
          readFrom_writeField hp hfield hlimit ('\r' :: '\n' :: rest) (List.cons_ne_nil _ _)
        have hphase : p'.phase ≠ .startRecord := by
          rcases hfirst with hstart | hsingle
          · exact hstarted hstart
          · exact hnonempty fun h => hsingle (by rw [h])
        show readFrom d p (writeField d field ++ _) = _
        rw [hread, readFrom_crlf hholds hphase,
          if_pos (hsame.mpr fun other hother => absurd hother List.not_mem_nil)]
      | cons next fields =>
        have hthen : joinFields d (next :: fields) ++ '\r' :: '\n' :: rest ≠ [] := by simp
        obtain ⟨p', hholds, -, -, hread⟩ := readFrom_writeField hp hfield hlimit
          (d.delimiter :: (joinFields d (next :: fields) ++ '\r' :: '\n' :: rest))
          (List.cons_ne_nil _ _)
        show readFrom d p ((writeField d field ++ d.delimiter :: joinFields d (next :: fields))
          ++ _) = _
        rw [List.append_assoc, List.cons_append, hread, readFrom_delimiter hholds hthen,
          ih ⟨.inr rfl, rfl⟩ (List.cons_ne_nil _ _) (.inl rfl) hrest, List.append_assoc,
          List.singleton_append]
        exact if_congr hsame.symm rfl rfl
    · have hlong : d.fieldSizeLimit < field.length := Nat.lt_of_not_le hlimit
      rw [if_neg fun h => hlimit (hcons.mp h).1]
      cases fields with
      | nil =>
        exact readFrom_writeField_failed hp hfield hlong ('\r' :: '\n' :: rest)
          (List.cons_ne_nil _ _)
      | cons next fields =>
        show readFrom d p ((writeField d field ++ d.delimiter :: joinFields d (next :: fields))
          ++ _) = _
        rw [List.append_assoc, List.cons_append]
        exact readFrom_writeField_failed hp hfield hlong _ (List.cons_ne_nil _ _)

/-- A row that has been written is read if its fields fit. -/
theorem readFrom_writeRow {fields : List Field} (hnul : ∀ field ∈ fields, '\x00' ∉ field) :
    readFrom d .reset (writeRow d fields ++ rest)
      = if Fits d fields then (readFrom d .reset rest).cons fields else ⟨[], true⟩ := by
  have hbegins : Parser.Begins ⟨.startRecord, [], []⟩ := ⟨.inl rfl, rfl⟩
  unfold writeRow
  rw [List.append_assoc]
  split
  · next hsingle =>
    subst hsingle
    have hholds : Parser.Holds ⟨.quoteInQuotedField, [], []⟩ [] [] :=
      ⟨rfl, rfl, .inr (.inr (.inl rfl))⟩
    have hfits : Fits d [[]] := List.forall_mem_singleton.mpr (Nat.zero_le _)
    show readFrom d ⟨.startRecord, [], []⟩ (d.quotechar :: d.quotechar :: '\r' :: '\n' :: rest) = _
    rw [readFrom_quoted (nextChar_open hbegins) rfl,
      readFrom_step (nextChar_close [] [])
        (not_endsLine (quotechar_not_newline d) (List.cons_ne_nil _ _)),
      readFrom_crlf hholds (by simp), if_pos hfits]
    rfl
  · next hother =>
    by_cases hne : fields = []
    · -- an empty row is an empty line
      subst hne
      have hfits : Fits d [] := fun field hfield => absurd hfield List.not_mem_nil
      rw [if_pos hfits]
      rfl
    · exact readFrom_joinFields hbegins hne (.inr hother) hnul

/-- What is written is read back, as far as the first row that does not fit. -/
theorem read_write {rows : List (List Field)} {text : List Char} (h : write d rows = some text) :
    read d text = ⟨rows.takeWhile fun row => Fits d row, !rows.all fun row => Fits d row⟩ := by
  unfold write at h
  split at h
  · cases h
  · next hwritten =>
    obtain rfl := Option.some.inj h
    clear h
    unfold read
    induction rows with
    | nil => rfl
    | cons row rows ih =>
      have hnul : ∀ field ∈ row, '\x00' ∉ field :=
        fun field hfield hmem => hwritten ⟨row, List.mem_cons_self, field, hfield, hmem⟩
      have hrest : ¬ ∃ row ∈ rows, ∃ field ∈ row, '\x00' ∈ field := by
        rintro ⟨other, hother, hfield⟩
        exact hwritten ⟨other, List.mem_cons_of_mem _ hother, hfield⟩
      rw [List.flatMap_cons, readFrom_writeRow hnul]
      split
      · next hfits =>
        rw [ih hrest, List.takeWhile_cons_of_pos (by simpa using hfits),
          List.all_cons, decide_eq_true hfits, Bool.true_and]
        rfl
      · next hlong =>
        rw [List.takeWhile_cons_of_neg (by simpa using hlong), List.all_cons,
          decide_eq_false hlong, Bool.false_and]
        rfl

end

end QaPlatform.Csv
