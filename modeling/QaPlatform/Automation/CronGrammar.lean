import QaPlatform.Automation.Cron
import QaPlatform.Base.Delimited

/-!
# The grammar of cron expressions

The grammar is over any kind of numerals. The parser accepts it for the numerals that `int`
accepts: they may have a sign, underscores and the digits of any script.

`Denotes` is the grammar as relations, one for each level: numerals, bounds, items with or
without a step, the items of a field, and the five fields. The proofs follow the parser through
the same levels. Each level is told apart by a delimiter that the levels below it do not have,
so a text is split in one way only.

`parse_exact` says that the parser accepts what the grammar does, with the fields that it
denotes. With numerals of ASCII digits, as they are documented, every expression is accepted
(`parse_of_ascii`), but not only these: `parse_signed`.
-/

namespace QaPlatform.Automation

/-! ## Numerals -/

/-- The number of decimal digits, the highest digit first. -/
def number (digits : List Nat) : Nat := digits.foldl (fun n d => 10 * n + d) 0

/-- Decimal digits of any script, and single underscores between them. -/
inductive DigitRun : List Char → List Nat → Prop
  | one {c : Char} {d : Nat} : decimal c = some d → DigitRun [c] [d]
  | next {c : Char} {d : Nat} {text : List Char} {digits : List Nat} :
      decimal c = some d → DigitRun text digits → DigitRun (c :: text) (d :: digits)
  | underscore {c : Char} {d : Nat} {text : List Char} {digits : List Nat} :
      decimal c = some d → DigitRun text digits → DigitRun (c :: '_' :: text) (d :: digits)

/-- What `int` accepts, and the number it makes of it. -/
inductive Numeral : List Char → Int → Prop
  | unsigned {text : List Char} {digits : List Nat} :
      DigitRun text digits → digits.length ≤ 4300 → Numeral text (number digits)
  | positive {text : List Char} {digits : List Nat} :
      DigitRun text digits → digits.length ≤ 4300 → Numeral ('+' :: text) (number digits)
  | negative {text : List Char} {digits : List Nat} :
      DigitRun text digits → digits.length ≤ 4300 → Numeral ('-' :: text) (-(number digits : Int))

/-- Some ASCII digits. -/
def AsciiNumeral (text : List Char) (n : Int) : Prop :=
  text ≠ [] ∧ (∀ c ∈ text, c.isDigit = true) ∧ n = number (text.map fun c => c.toNat - '0'.toNat)

/-! ## Fields -/

section
variable (numeral : List Char → Int → Prop) (minimum maximum : Nat) (sundayAlias : Bool)

/-- `*`, `n-m` or `n`, and the first and the last value it stands for. With a step, `n` goes on
to the maximum. -/
inductive Bounds : Bool → List Char → Int → Int → Prop
  | all (stepped : Bool) : Bounds stepped ['*'] minimum maximum
  | range (stepped : Bool) {n m : List Char} {start stop : Int} : '-' ∉ n → numeral n start →
      numeral m stop → Bounds stepped (n ++ '-' :: m) start stop
  | value {n : List Char} {start : Int} : '-' ∉ n → numeral n start → Bounds false n start start
  | onward {n : List Char} {start : Int} : '-' ∉ n → numeral n start →
      Bounds true n start maximum

/-- The greatest number that may be written; Sunday may be written as 7. -/
def lastValue : Nat := if sundayAlias then 7 else maximum

/-- Every `step`th value, and Sunday as 0. -/
def denoted (start stop step : Int) : Finset Nat :=
  ((Finset.Icc start.toNat stop.toNat).filter fun v : Nat => step ∣ (v : Int) - start).image
    fun v => if sundayAlias ∧ v = 7 then 0 else v

/-- A part between two commas, and the values it denotes: with or without a step. -/
inductive Item : List Char → Finset Nat → Prop
  | plain {base : List Char}
    {start stop : Int} : Bounds numeral minimum maximum false base start stop →
      minimum ≤ start → start ≤ stop → stop ≤ lastValue maximum sundayAlias →
      Item base (denoted sundayAlias start stop 1)
  | stepped {base k : List Char} {start stop step : Int} :
      Bounds numeral minimum maximum true base start stop → minimum ≤ start → start ≤ stop →
      stop ≤ lastValue maximum sundayAlias → numeral k step → 1 ≤ step →
      Item (base ++ '/' :: k) (denoted sundayAlias start stop step)

/-- Items with a comma between them, and what they denote together. -/
inductive Items : List Char → Finset Nat → Prop
  | one {item : List Char} {values : Finset Nat} :
      Item numeral minimum maximum sundayAlias item values → Items item values
  | more {item rest : List Char} {values others : Finset Nat} :
      Item numeral minimum maximum sundayAlias item values → Items rest others →
      Items (item ++ ',' :: rest) (values ∪ others)

/-- A text of parts between commas denotes a field: their values together, and the wildcard flag. -/
structure FieldOf (text : List Char) (field : CronField) : Prop where
  values : Items numeral minimum maximum sundayAlias text field.values
  wildcard : field.wildcard = decide (field.values = Finset.Icc minimum maximum)

end

/-- Five fields with blanks between them, and what they denote. -/
def Denotes (numeral : List Char → Int → Prop) (expression : String) (c : CronExpression) : Prop :=
  ∃ minute hour dayOfMonth month dayOfWeek,
    Delimited.Separated isSpace expression.toList [minute, hour, dayOfMonth, month, dayOfWeek]
      ∧ FieldOf numeral 0 59 false minute c.minute ∧ FieldOf numeral 0 23 false hour c.hour
      ∧ FieldOf numeral 1 31 false dayOfMonth c.dayOfMonth
      ∧ FieldOf numeral 1 12 false month c.month
      ∧ FieldOf numeral 0 6 true dayOfWeek c.dayOfWeek ∧ c.Feasible

/-! ## What `int` accepts -/

theorem decimal_underscore : decimal '_' = none := by decide

theorem decimal_sign : decimal '+' = none ∧ decimal '-' = none := by decide

theorem DigitRun.exists_cons {text : List Char} {digits : List Nat} (h : DigitRun text digits) :
    ∃ c rest, text = c :: rest ∧ ∃ d, decimal c = some d := by
  cases h with
  | one hd => exact ⟨_, _, rfl, _, hd⟩
  | next hd _ => exact ⟨_, _, rfl, _, hd⟩
  | underscore hd _ => exact ⟨_, _, rfl, _, hd⟩

theorem intDigits_eq_some {text : List Char} {digits : List Nat} :
    intDigits text = some digits ↔ DigitRun text digits := by
  constructor
  · intro h
    induction text using intDigits.induct generalizing digits with
    | case1 => cases h
    | case2 c =>
      obtain ⟨d, hd, rfl⟩ := Option.map_eq_some_iff.mp h
      exact .one hd
    | case3 c text ih =>
      obtain ⟨d, hd, hrest⟩ := Option.bind_eq_some_iff.mp h
      obtain ⟨digits', hdigits, hsome⟩ := Option.bind_eq_some_iff.mp hrest
      obtain rfl := Option.some.inj hsome
      exact .underscore hd (ih hdigits)
    | case4 c e text hplain ih =>
      rw [intDigits] at h
      · obtain ⟨d, hd, hrest⟩ := Option.bind_eq_some_iff.mp h
        obtain ⟨digits', hdigits, hsome⟩ := Option.bind_eq_some_iff.mp hrest
        obtain rfl := Option.some.inj hsome
        exact .next hd (ih hdigits)
      · exact hplain
  · intro h
    induction h with
    | one hd => simp [intDigits, hd]
    | next hd hrun ih =>
      obtain ⟨e, rest, rfl, d', hd'⟩ := hrun.exists_cons
      -- a digit is no underscore
      have hplain : e = '_' → False := by
        rintro rfl
        rw [decimal_underscore] at hd'
        cases hd'
      rw [intDigits]
      · simp [hd, ih]
      · exact hplain
    | underscore hd _ ih => simp [intDigits, hd, ih]

/-- The value of the digits, if they are not too many. -/
theorem value_eq_some {text : List Char} {n : Int} :
    (do
      let digits ← intDigits text
      if 4300 < digits.length then none
      else return (digits.foldl (fun n d => 10 * n + d) 0 : Nat) : Option Int) = some n ↔
      ∃ digits, DigitRun text digits ∧ digits.length ≤ 4300 ∧ (number digits : Int) = n := by
  simp only [Option.bind_eq_some_iff, Option.bind_eq_bind, intDigits_eq_some]
  refine exists_congr fun digits => and_congr_right fun _ => ?_
  by_cases hmany : 4300 < digits.length
  · simp [hmany]
  · simp [hmany, number, Nat.le_of_not_lt hmany]

theorem int_eq_some {text : List Char} {n : Int} : int text = some n ↔ Numeral text n := by
  unfold int
  split
  · next text =>
    rw [value_eq_some]
    constructor
    · rintro ⟨digits, hrun, hlength, rfl⟩
      exact .positive hrun hlength
    · intro h
      cases h with
      | unsigned hrun _ =>
        obtain ⟨c, rest, heq, d, hd⟩ := hrun.exists_cons
        obtain ⟨rfl, -⟩ := List.cons.inj heq
        rw [decimal_sign.1] at hd
        cases hd
      | positive hrun hlength => exact ⟨_, hrun, hlength, rfl⟩
  · next text =>
    rw [Option.map_eq_some_iff]
    constructor
    · rintro ⟨m, hm, rfl⟩
      obtain ⟨digits, hrun, hlength, rfl⟩ := value_eq_some.mp hm
      exact .negative hrun hlength
    · intro h
      cases h with
      | unsigned hrun _ =>
        obtain ⟨c, rest, heq, d, hd⟩ := hrun.exists_cons
        obtain ⟨rfl, -⟩ := List.cons.inj heq
        rw [decimal_sign.2] at hd
        cases hd
      | negative hrun hlength => exact ⟨_, value_eq_some.mpr ⟨_, hrun, hlength, rfl⟩, rfl⟩
  · next text hplus hminus =>
    rw [value_eq_some]
    constructor
    · rintro ⟨digits, hrun, hlength, rfl⟩
      exact .unsigned hrun hlength
    · intro h
      cases h with
      | unsigned hrun hlength => exact ⟨_, hrun, hlength, rfl⟩
      | positive _ _ => exact absurd rfl (hplus _)
      | negative _ _ => exact absurd rfl (hminus _)

theorem DigitRun.mem {text : List Char} {digits : List Nat} (h : DigitRun text digits) {c : Char}
    (hc : c ∈ text) : c = '_' ∨ ∃ d, decimal c = some d := by
  induction h with
  | one hd =>
    obtain rfl := List.mem_singleton.mp hc
    exact .inr ⟨_, hd⟩
  | next hd _ ih =>
    obtain rfl | hc := List.mem_cons.mp hc
    · exact .inr ⟨_, hd⟩
    · exact ih hc
  | underscore hd _ ih =>
    obtain rfl | hc := List.mem_cons.mp hc
    · exact .inr ⟨_, hd⟩
    · obtain rfl | hc := List.mem_cons.mp hc
      · exact .inl rfl
      · exact ih hc

/-- The characters of the grammar that no numeral has. -/
def delimiters : List Char := ['*', '/', ',']

theorem Numeral.notMem {text : List Char} {n : Int} (h : Numeral text n) {c : Char}
    (hc : c ∈ delimiters) : c ∉ text := by
  have hplain : c ≠ '_' ∧ c ≠ '+' ∧ c ≠ '-' ∧ decimal c = none := by
    obtain rfl | rfl | rfl : c = '*' ∨ c = '/' ∨ c = ',' := by simpa [delimiters] using hc
    · decide
    · decide
    · decide
  obtain ⟨hunderscore, hplus, hminus, hdecimal⟩ := hplain
  have hrun : ∀ {text digits}, DigitRun text digits → c ∉ text := by
    intro text digits hrun hmem
    obtain heq | ⟨d, hd⟩ := hrun.mem hmem
    · exact hunderscore heq
    · rw [hdecimal] at hd
      cases hd
  cases h with
  | unsigned h _ => exact hrun h
  | positive h _ => exact fun hmem => (List.mem_cons.mp hmem).elim hplus (hrun h)
  | negative h _ => exact fun hmem => (List.mem_cons.mp hmem).elim hminus (hrun h)

theorem Numeral.ne_star {text : List Char} {n : Int} (h : Numeral text n) : text ≠ ['*'] :=
  fun heq => h.notMem (c := '*') (by decide) (heq ▸ List.mem_singleton_self _)

/-! ## What the parser of an item accepts -/

section
variable {minimum maximum : Nat} {sundayAlias : Bool} {part : List Char}

theorem Bounds.notMem {stepped : Bool} {base : List Char} {start stop : Int}
    (h : Bounds Numeral minimum maximum stepped base start stop) {c : Char}
    (hc : c ∈ ['/', ',']) : c ∉ base := by
  have hdelimiter : c ∈ delimiters := List.mem_cons_of_mem _ hc
  have hother : c ≠ '*' ∧ c ≠ '-' := by
    obtain rfl | rfl : c = '/' ∨ c = ',' := by simpa using hc
    · decide
    · decide
  cases h with
  | all => exact fun hmem => hother.1 (List.mem_singleton.mp hmem)
  | range _ _ hn hm =>
    intro hmem
    obtain hmem | hmem := List.mem_append.mp hmem
    · exact hn.notMem hdelimiter hmem
    · exact (List.mem_cons.mp hmem).elim hother.2 (hm.notMem hdelimiter)
  | value _ hn => exact hn.notMem hdelimiter
  | onward _ hn => exact hn.notMem hdelimiter

theorem Bounds.ne_nil {stepped : Bool} {base : List Char} {start stop : Int}
    (h : Bounds Numeral minimum maximum stepped base start stop) : base ≠ [] := by
  have hnumeral : ∀ {text n}, Numeral text n → text ≠ [] := by
    intro text n h
    cases h with
    | unsigned h _ =>
      obtain ⟨c, rest, rfl, -⟩ := h.exists_cons
      exact List.cons_ne_nil c rest
    | positive _ _ => exact List.cons_ne_nil _ _
    | negative _ _ => exact List.cons_ne_nil _ _
  cases h with
  | all => exact List.cons_ne_nil _ _
  | range => exact List.append_ne_nil_of_right_ne_nil _ (List.cons_ne_nil _ _)
  | value _ hn => exact hnumeral hn
  | onward _ hn => exact hnumeral hn

/-- The step of an item. -/
def stepOf (part : List Char) : Except AutomationValidationError Int :=
  if '/' ∈ part then demand "cron step is invalid" (int ((part.dropWhile (· ≠ '/')).drop 1))
  else .ok 1

/-- The first and the last value of an item. -/
def boundsOf (minimum maximum : Nat) (separator : Prop) [Decidable separator] (base : List Char) :
    Except AutomationValidationError (Int × Int) :=
  if base = ['*'] then .ok ((minimum : Int), (maximum : Int))
  else if '-' ∈ base then do
    let start ← demand "cron range is invalid" (int (base.takeWhile (· ≠ '-')))
    let stop ← demand "cron range is invalid" (int ((base.dropWhile (· ≠ '-')).drop 1))
    .ok (start, stop)
  else do
    let start ← demand "cron value is invalid" (int base)
    .ok (start, if separator then (maximum : Int) else start)

theorem bounds_iff {separator : Bool} {base : List Char} {start stop : Int} :
    Bounds Numeral minimum maximum separator base start stop ↔
      (base = ['*'] ∧ start = minimum ∧ stop = maximum)
        ∨ (∃ n m, '-' ∉ n ∧ base = n ++ '-' :: m ∧ Numeral n start ∧ Numeral m stop)
        ∨ ('-' ∉ base ∧ Numeral base start
          ∧ stop = if separator = true then (maximum : Int) else start) := by
  constructor
  · intro h
    cases h with
    | all => exact .inl ⟨rfl, rfl, rfl⟩
    | range _ hplain hn hm => exact .inr (.inl ⟨_, _, hplain, rfl, hn, hm⟩)
    | value hplain hn => exact .inr (.inr ⟨hplain, hn, rfl⟩)
    | onward hplain hn => exact .inr (.inr ⟨hplain, hn, rfl⟩)
  · intro h
    obtain ⟨rfl, rfl, rfl⟩ | ⟨n, m, hplain, rfl, hn, hm⟩ | ⟨hplain, hn, rfl⟩ := h
    · exact .all separator
    · exact .range separator hplain hn hm
    · cases separator with
      | false => exact .value hplain hn
      | true => exact .onward hplain hn

theorem boundsOf_eq_ok {separator : Prop} [Decidable separator] {base : List Char}
    {bounds : Int × Int} : boundsOf minimum maximum separator base = .ok bounds ↔
      Bounds Numeral minimum maximum (decide separator) base bounds.1 bounds.2 := by
  obtain ⟨start, stop⟩ := bounds
  rw [bounds_iff]
  simp only [decide_eq_true_eq]
  unfold boundsOf
  by_cases hstar : base = ['*']
  · subst hstar
    rw [if_pos rfl]
    constructor
    · intro h
      cases h
      exact .inl ⟨rfl, rfl, rfl⟩
    · intro h
      obtain ⟨-, rfl, rfl⟩ | ⟨n, m, -, hbase, -⟩ | ⟨-, hn, -⟩ := h
      · rfl
      · have hdash : '-' ∈ ['*'] := hbase ▸ List.mem_append_right n List.mem_cons_self
        exact absurd (List.mem_singleton.mp hdash) (by decide)
      · exact absurd rfl hn.ne_star
  rw [if_neg hstar]
  by_cases hdash : '-' ∈ base
  · rw [if_pos hdash]
    obtain ⟨n, m, rfl, hplain⟩ := Delimited.exists_of_mem hdash
    rw [Delimited.takeWhile_append_cons hplain, Delimited.dropWhile_append_cons hplain]
    simp only [bind_eq_ok, demand_eq_ok, int_eq_some, List.drop_one, List.tail_cons]
    constructor
    · rintro ⟨start', hn, stop', hm, heq⟩
      cases heq
      exact .inr (.inl ⟨n, m, hplain, rfl, hn, hm⟩)
    · intro h
      obtain ⟨heq, -⟩ | ⟨n', m', hplain', heq, hn, hm⟩ | ⟨hnone, -⟩ := h
      · exact absurd heq hstar
      · obtain ⟨rfl, rfl⟩ := Delimited.eq_of_append_cons hplain hplain' heq
        exact ⟨start, hn, stop, hm, rfl⟩
      · exact absurd hdash hnone
  · rw [if_neg hdash]
    simp only [bind_eq_ok, demand_eq_ok, int_eq_some]
    constructor
    · rintro ⟨start', hn, heq⟩
      cases heq
      exact .inr (.inr ⟨hdash, hn, rfl⟩)
    · intro h
      obtain ⟨heq, -⟩ | ⟨n, m, -, rfl, -⟩ | ⟨-, hn, rfl⟩ := h
      · exact absurd heq hstar
      · exact absurd (List.mem_append_right n List.mem_cons_self) hdash
      · exact ⟨start, hn, rfl⟩

theorem stepOf_plain (h : '/' ∉ part) : stepOf part = .ok 1 := if_neg h

theorem stepOf_append {base k : List Char} (h : '/' ∉ base) {step : Int} :
    stepOf (base ++ '/' :: k) = .ok step ↔ Numeral k step := by
  unfold stepOf
  rw [if_pos (List.mem_append_right base List.mem_cons_self), Delimited.dropWhile_append_cons h,
    demand_eq_ok, List.drop_one, List.tail_cons, int_eq_some]

theorem mem_steppedRange {start stop step v : Nat} (hstep : 1 ≤ step) (horder : start ≤ stop) :
    v ∈ steppedRange start stop step ↔ (start ≤ v ∧ v ≤ stop) ∧ (step : Int) ∣ v - start := by
  unfold steppedRange
  rw [List.mem_range']
  constructor
  · rintro ⟨i, hi, rfl⟩
    have hbelow : step * i ≤ stop - start := by
      calc step * i ≤ step * ((stop - start) / step) := Nat.mul_le_mul_left step (by omega)
        _ ≤ stop - start := Nat.mul_div_le _ _
    refine ⟨by omega, i, ?_⟩
    push_cast
    ring
  · rintro ⟨⟨hlow, hhigh⟩, k, hk⟩
    have hnonneg : 0 ≤ k := by
      by_contra hneg
      have hneg' : (step : Int) * k < 0 := Int.mul_neg_of_pos_of_neg (by omega) (by omega)
      omega
    obtain ⟨i, rfl⟩ := Int.eq_ofNat_of_zero_le hnonneg
    have hsteps : ((step * i : Nat) : Int) = v - start := by rw [hk]; exact Int.natCast_mul step i
    have hv : v = start + step * i := by omega
    refine ⟨i, ?_, hv⟩
    rw [Nat.lt_succ_iff, Nat.le_div_iff_mul_le hstep, Nat.mul_comm]
    omega

theorem values_eq_denoted {start stop step : Int} (hstart : (0 : Int) ≤ start) (hstep : 1 ≤ step)
    (horder : start ≤ stop) :
    ((steppedRange start.toNat stop.toNat step.toNat).map
      fun item => if sundayAlias ∧ item = 7 then 0 else item).toFinset
      = denoted sundayAlias start stop step := by
  have hmem : ∀ v, v ∈ steppedRange start.toNat stop.toNat step.toNat ↔
      (start.toNat ≤ v ∧ v ≤ stop.toNat) ∧ step ∣ v - start := by
    intro v
    rw [mem_steppedRange (by omega) (by omega), Int.toNat_of_nonneg hstart,
      Int.toNat_of_nonneg (by omega)]
  ext item
  simp only [denoted, List.mem_toFinset, List.mem_map, Finset.mem_image, Finset.mem_filter,
    Finset.mem_Icc, hmem]

theorem parsePart_eq_ok {values : Finset Nat} :
    CronField.parsePart minimum maximum sundayAlias part = .ok values ↔
      part ≠ [] ∧ ∃ step, stepOf part = .ok step ∧ 1 ≤ step ∧ ∃ bounds : Int × Int,
        boundsOf minimum maximum ('/' ∈ part) (part.takeWhile (· ≠ '/')) = .ok bounds
          ∧ minimum ≤ bounds.1 ∧ bounds.1 ≤ bounds.2 ∧ bounds.2 ≤ lastValue maximum sundayAlias
          ∧ denoted sundayAlias bounds.1 bounds.2 step = values := by
  have hparse : CronField.parsePart minimum maximum sundayAlias part =
      (refuse (part = []) "cron field contains an empty item" >>= fun _ =>
        stepOf part >>= fun step => refuse (step < 1) "cron step must be positive" >>= fun _ =>
        boundsOf minimum maximum ('/' ∈ part) (part.takeWhile (· ≠ '/')) >>= fun bounds =>
        refuse (bounds.1 < minimum ∨ (lastValue maximum sundayAlias : Int) < bounds.2
          ∨ bounds.2 < bounds.1) "cron value is outside its field range" >>= fun _ =>
        pure ((steppedRange bounds.1.toNat bounds.2.toNat step.toNat).map
          fun item => if sundayAlias ∧ item = 7 then 0 else item).toFinset) := by
    unfold CronField.parsePart stepOf boundsOf
    by_cases hslash : '/' ∈ part
    · by_cases hstar : part.takeWhile (· ≠ '/') = ['*']
      · simp only [if_pos hslash, if_pos hstar, ok_bind]
        rfl
      · by_cases hdash : '-' ∈ part.takeWhile (· ≠ '/')
        · simp only [if_pos hslash, if_neg hstar, if_pos hdash, bind_assoc, ok_bind]
          rfl
        · simp only [if_pos hslash, if_neg hstar, if_neg hdash, bind_assoc, ok_bind]
          rfl
    · by_cases hstar : part.takeWhile (· ≠ '/') = ['*']
      · simp only [if_neg hslash, if_pos hstar, ok_bind]
        rfl
      · by_cases hdash : '-' ∈ part.takeWhile (· ≠ '/')
        · simp only [if_neg hslash, if_neg hstar, if_pos hdash, bind_assoc, ok_bind]
          rfl
        · simp only [if_neg hslash, if_neg hstar, if_neg hdash, bind_assoc, ok_bind]
          rfl
  rw [hparse, refuse_bind_eq_ok]
  refine and_congr_right fun _ => ?_
  rw [bind_eq_ok]
  refine exists_congr fun step => and_congr_right fun _ => ?_
  rw [refuse_bind_eq_ok, Int.not_lt]
  refine and_congr_right fun hstep => ?_
  rw [bind_eq_ok]
  refine exists_congr fun bounds => and_congr_right fun _ => ?_
  rw [refuse_bind_eq_ok, pure_eq_ok]
  constructor
  · rintro ⟨hrange, rfl⟩
    have hstart : (0 : Int) ≤ bounds.1 := by omega
    refine ⟨by omega, by omega, by omega, ?_⟩
    rw [values_eq_denoted hstart hstep (by omega)]
  · rintro ⟨hmin, horder, hmax, rfl⟩
    have hstart : (0 : Int) ≤ bounds.1 := by omega
    exact ⟨by omega, values_eq_denoted hstart hstep horder⟩

theorem parsePart_iff_item {values : Finset Nat} :
    CronField.parsePart minimum maximum sundayAlias part = .ok values ↔
      Item Numeral minimum maximum sundayAlias part values := by
  rw [parsePart_eq_ok]
  constructor
  · rintro ⟨-, step, hstep, hpositive, bounds, hbounds, hmin, horder, hmax, rfl⟩
    rw [boundsOf_eq_ok] at hbounds
    by_cases hslash : '/' ∈ part
    · obtain ⟨base, k, rfl, hbase⟩ := Delimited.exists_of_mem hslash
      rw [Delimited.takeWhile_append_cons hbase, decide_eq_true hslash] at hbounds
      exact .stepped hbounds hmin horder hmax ((stepOf_append hbase).mp hstep) hpositive
    · rw [stepOf_plain hslash] at hstep
      obtain rfl := Except.ok.inj hstep
      rw [Delimited.takeWhile_of_notMem hslash, decide_eq_false hslash] at hbounds
      exact .plain hbounds hmin horder hmax
  · intro h
    cases h with
    | plain hbounds hmin horder hmax =>
      have hslash : '/' ∉ part := hbounds.notMem (by decide)
      refine ⟨?_, 1, stepOf_plain hslash, le_rfl, (_, _), ?_, hmin, horder, hmax, rfl⟩
      · rintro rfl
        exact hbounds.ne_nil rfl
      · rw [boundsOf_eq_ok, Delimited.takeWhile_of_notMem hslash, decide_eq_false hslash]
        exact hbounds
    | @stepped base k start stop step hbounds hmin horder hmax hk hpositive =>
      have hbase : '/' ∉ base := hbounds.notMem (by decide)
      have hslash : '/' ∈ base ++ '/' :: k := List.mem_append_right base List.mem_cons_self
      refine ⟨by simp, step, (stepOf_append hbase).mpr hk, hpositive, (start, stop), ?_, hmin,
        horder, hmax, rfl⟩
      rw [boundsOf_eq_ok, Delimited.takeWhile_append_cons hbase, decide_eq_true hslash]
      exact hbounds

theorem Item.notMem {values : Finset Nat}
    (h : Item Numeral minimum maximum sundayAlias part values) :
    ',' ∉ part := by
  cases h with
  | plain hbounds _ _ _ => exact hbounds.notMem (by decide)
  | stepped hbounds _ _ _ hk _ =>
    intro hmem
    obtain hmem | hmem := List.mem_append.mp hmem
    · exact hbounds.notMem (by decide) hmem
    · exact (List.mem_cons.mp hmem).elim (by decide) (hk.notMem (by decide))

/-! ## What the parser of a field accepts -/

theorem foldl_union (values : Finset Nat) (sets : List (Finset Nat)) :
    sets.foldl (· ∪ ·) values = values ∪ sets.foldl (· ∪ ·) ∅ := by
  induction sets generalizing values with
  | nil => simp
  | cons first sets ih =>
    rw [List.foldl_cons, List.foldl_cons, ih, ih (∅ ∪ first), Finset.empty_union,
      Finset.union_assoc]

theorem mapM_parsePart_iff_items {text : List Char} {values : Finset Nat} :
    (∃ sets, (text.splitOn ',').mapM (CronField.parsePart minimum maximum sundayAlias) = .ok sets
      ∧ sets.foldl (· ∪ ·) ∅ = values) ↔ Items Numeral minimum maximum sundayAlias text values := by
  -- a list with a comma is its first item and the rest
  have hmore : ∀ {item rest : List Char} {values : Finset Nat}, ',' ∉ item →
      ((∃ sets, ((item ++ ',' :: rest).splitOn ',').mapM
        (CronField.parsePart minimum maximum sundayAlias) = .ok sets
        ∧ sets.foldl (· ∪ ·) ∅ = values) ↔
      ∃ first, Item Numeral minimum maximum sundayAlias item first
        ∧ ∃ sets, (rest.splitOn ',').mapM
          (CronField.parsePart minimum maximum sundayAlias) = .ok sets
        ∧ first ∪ sets.foldl (· ∪ ·) ∅ = values) := by
    intro item rest values hitem
    rw [List.splitOn_append_cons_self_of_not_mem hitem]
    simp only [List.mapM_cons, bind_eq_ok, pure_eq_ok, parsePart_iff_item]
    constructor
    · rintro ⟨sets, ⟨first, hfirst, sets', hsets, rfl⟩, rfl⟩
      refine ⟨first, hfirst, sets', hsets, ?_⟩
      rw [List.foldl_cons, foldl_union (∅ ∪ first), Finset.empty_union]
    · rintro ⟨first, hfirst, sets, hsets, rfl⟩
      refine ⟨_, ⟨first, hfirst, sets, hsets, rfl⟩, ?_⟩
      rw [List.foldl_cons, foldl_union (∅ ∪ first), Finset.empty_union]
  have hone : ∀ {item : List Char} {values : Finset Nat}, ',' ∉ item →
      ((∃ sets, (item.splitOn ',').mapM (CronField.parsePart minimum maximum sundayAlias) = .ok sets
        ∧ sets.foldl (· ∪ ·) ∅ = values) ↔
      Item Numeral minimum maximum sundayAlias item values) := by
    intro item values hitem
    rw [List.splitOn_eq_singleton hitem]
    simp only [List.mapM_cons, List.mapM_nil, bind_eq_ok, pure_eq_ok, parsePart_iff_item]
    constructor
    · rintro ⟨sets, ⟨first, hfirst, -, rfl, rfl⟩, rfl⟩
      simpa using hfirst
    · intro h
      exact ⟨[values], ⟨values, h, [], rfl, rfl⟩, by simp⟩
  constructor
  -- the grammar's derivation is built from the left, on the length of the text
  · intro h
    induction hlength : text.length using Nat.strongRecOn generalizing text values with
    | ind n ih =>
      by_cases hcomma : ',' ∈ text
      · obtain ⟨item, rest, rfl, hitem⟩ := Delimited.exists_of_mem hcomma
        obtain ⟨first, hfirst, sets, hsets, rfl⟩ := (hmore hitem).mp h
        refine .more hfirst (ih rest.length ?_ ⟨sets, hsets, rfl⟩ rfl)
        simp only [List.length_append, List.length_cons] at hlength
        omega
      · exact .one ((hone hcomma).mp h)
  · intro h
    induction h with
    | one hitem => exact (hone hitem.notMem).mpr hitem
    | more hitem _ ih =>
      obtain ⟨sets, hsets, rfl⟩ := ih
      exact (hmore hitem.notMem).mpr ⟨_, hitem, sets, hsets, rfl⟩

theorem cronField_parse_eq_ok {text : List Char} {field : CronField} :
    CronField.parse text minimum maximum sundayAlias = .ok field ↔
      FieldOf Numeral minimum maximum sundayAlias text field := by
  unfold CronField.parse
  simp only [bind_eq_ok, pure_eq_ok]
  constructor
  · rintro ⟨sets, hsets, rfl⟩
    exact ⟨mapM_parsePart_iff_items.mp ⟨sets, hsets, rfl⟩, rfl⟩
  · rintro ⟨hvalues, hwildcard⟩
    obtain ⟨sets, hsets, heq⟩ := mapM_parsePart_iff_items.mpr hvalues
    refine ⟨sets, hsets, ?_⟩
    obtain ⟨values, wildcard⟩ := field
    rw [heq]
    exact congrArg _ hwildcard.symm

end

/-! ## What the parser of an expression accepts -/

namespace CronExpression

theorem fields_eq_words (expression : String) :
    fields expression = Delimited.words isSpace expression.toList := by
  unfold fields Delimited.words
  congr 1
  funext field
  cases field <;> rfl

theorem parse_eq_ok {expression : String} {c : CronExpression} : parse expression = .ok c ↔
    ∃ minute hour dayOfMonth month dayOfWeek,
      fields expression = [minute, hour, dayOfMonth, month, dayOfWeek]
        ∧ FieldOf Numeral 0 59 false minute c.minute ∧ FieldOf Numeral 0 23 false hour c.hour
        ∧ FieldOf Numeral 1 31 false dayOfMonth c.dayOfMonth
        ∧ FieldOf Numeral 1 12 false month c.month
        ∧ FieldOf Numeral 0 6 true dayOfWeek c.dayOfWeek ∧ c.Feasible := by
  unfold parse
  split
  · next minute hour dayOfMonth month dayOfWeek heq =>
    rw [heq]
    simp only [bind_eq_ok, pure_eq_ok, cronField_parse_eq_ok]
    constructor
    · rintro ⟨minute', hminute, hour', hhour, dayOfMonth', hdayOfMonth, month', hmonth, dayOfWeek',
        hdayOfWeek, _, hfeasible, rfl⟩
      exact ⟨minute, hour, dayOfMonth, month, dayOfWeek, rfl, hminute, hhour, hdayOfMonth, hmonth,
        hdayOfWeek, not_not.mp (refuse_eq_ok.mp hfeasible)⟩
    · rintro ⟨_, _, _, _, _, hsame, hminute, hhour, hdayOfMonth, hmonth, hdayOfWeek, hfeasible⟩
      cases hsame
      exact ⟨_, hminute, _, hhour, _, hdayOfMonth, _, hmonth, _, hdayOfWeek, ⟨⟩,
        refuse_eq_ok.mpr (not_not.mpr hfeasible), rfl⟩
  · next hother =>
    constructor
    · intro h
      cases h
    · rintro ⟨minute, hour, dayOfMonth, month, dayOfWeek, hfields, -⟩
      exact absurd hfields (hother _ _ _ _ _)

/-- The parser accepts the grammar with the numerals of `int`, and its fields are what the
expression denotes. -/
theorem parse_exact (expression : String) (c : CronExpression) :
    parse expression = .ok c ↔ Denotes Numeral expression c := by
  rw [parse_eq_ok, fields_eq_words]
  unfold Denotes
  simp only [Delimited.separated_iff]

/-- A sign is accepted, though it is no ASCII digit. -/
theorem parse_signed : (parse "+5 * * * *").isOk = true
    ∧ ¬ ∃ c, Denotes AsciiNumeral "+5 * * * *" c := by
  constructor
  · decide +kernel
  · rintro ⟨c, minute, hour, dayOfMonth, month, dayOfWeek, hfields, hminute, -⟩
    have hwords : Delimited.words isSpace "+5 * * * *".toList
        = [['+', '5'], ['*'], ['*'], ['*'], ['*']] := by decide +kernel
    rw [Delimited.separated_iff, hwords] at hfields
    cases hfields
    have hsigned : ∀ n, ¬ AsciiNumeral ['+', '5'] n := fun n h =>
      absurd (h.2.1 '+' List.mem_cons_self) (by decide)
    have hdelimiter : ∀ {x y : List Char} {c}, c ∈ ['-', '/', ','] → ['+', '5'] ≠ x ++ c :: y := by
      intro x y c hc heq
      have hmem : c ∈ ['+', '5'] := heq ▸ List.mem_append_right x List.mem_cons_self
      obtain rfl | rfl | rfl : c = '-' ∨ c = '/' ∨ c = ',' := by simpa using hc
      · exact absurd hmem (by decide)
      · exact absurd hmem (by decide)
      · exact absurd hmem (by decide)
    have hitems := hminute.values
    generalize htext : ['+', '5'] = text at hitems
    generalize c.minute.values = values at hitems
    cases hitems with
    | one hitem =>
      cases hitem with
      | plain hbounds =>
        cases hbounds with
        | all => cases htext
        | range => exact hdelimiter (by decide) htext
        | value _ hn => exact hsigned _ (htext ▸ hn)
      | stepped => exact hdelimiter (by decide) htext
    | more => exact hdelimiter (by decide) htext

end CronExpression

/-! ## ASCII numerals -/

section
variable {numeral numeral' : List Char → Int → Prop} {minimum maximum : Nat} {sundayAlias : Bool}

theorem Bounds.mono (hmono : ∀ text n, numeral text n → numeral' text n) {stepped : Bool}
    {base : List Char} {start stop : Int}
    (h : Bounds numeral minimum maximum stepped base start stop) :
    Bounds numeral' minimum maximum stepped base start stop := by
  cases h with
  | all => exact .all stepped
  | range _ hplain hn hm => exact .range stepped hplain (hmono _ _ hn) (hmono _ _ hm)
  | value hplain hn => exact .value hplain (hmono _ _ hn)
  | onward hplain hn => exact .onward hplain (hmono _ _ hn)

theorem Item.mono (hmono : ∀ text n, numeral text n → numeral' text n) {part : List Char}
    {values : Finset Nat} (h : Item numeral minimum maximum sundayAlias part values) :
    Item numeral' minimum maximum sundayAlias part values := by
  cases h with
  | plain hbounds hmin horder hmax => exact .plain (hbounds.mono hmono) hmin horder hmax
  | stepped hbounds hmin horder hmax hk hpositive =>
    exact .stepped (hbounds.mono hmono) hmin horder hmax (hmono _ _ hk) hpositive

theorem Items.mono (hmono : ∀ text n, numeral text n → numeral' text n) {text : List Char}
    {values : Finset Nat} (h : Items numeral minimum maximum sundayAlias text values) :
    Items numeral' minimum maximum sundayAlias text values := by
  induction h with
  | one hitem => exact .one (hitem.mono hmono)
  | more hitem _ ih => exact .more (hitem.mono hmono) ih

theorem FieldOf.mono (hmono : ∀ text n, numeral text n → numeral' text n) {text : List Char}
    {field : CronField} (h : FieldOf numeral minimum maximum sundayAlias text field) :
    FieldOf numeral' minimum maximum sundayAlias text field :=
  ⟨h.values.mono hmono, h.wildcard⟩

end

theorem Denotes.mono {numeral numeral' : List Char → Int → Prop}
    (hmono : ∀ text n, numeral text n → numeral' text n) {expression : String} {c : CronExpression}
    (h : Denotes numeral expression c) : Denotes numeral' expression c := by
  obtain ⟨minute, hour, dayOfMonth, month, dayOfWeek, hfields, hminute, hhour, hdayOfMonth, hmonth,
    hdayOfWeek, hfeasible⟩ := h
  exact ⟨minute, hour, dayOfMonth, month, dayOfWeek, hfields, hminute.mono hmono, hhour.mono hmono,
    hdayOfMonth.mono hmono, hmonth.mono hmono, hdayOfWeek.mono hmono, hfeasible⟩

theorem decimal_of_isDigit {c : Char} (h : c.isDigit = true) :
    decimal c = some (c.toNat - '0'.toNat) := by
  have hlow : 48 ≤ c.toNat ∧ c.toNat ≤ 57 := Char.isDigit_iff_toNat.mp h
  have hzero : decide (0x30 ≤ c.toNat ∧ c.toNat < 0x30 + 10) = true :=
    decide_eq_true ⟨hlow.1, by omega⟩
  unfold decimal decimalZeros
  rw [List.find?_cons_of_pos (by exact hzero)]
  rfl

/-- ASCII digits are read as what they denote. -/
theorem AsciiNumeral.numeral {text : List Char} {n : Int} (h : AsciiNumeral text n)
    (hlength : text.length ≤ 4300) : Numeral text n := by
  obtain ⟨hne, hdigits, rfl⟩ := h
  refine .unsigned ?_ (by rwa [List.length_map])
  clear hlength
  induction text with
  | nil => exact absurd rfl hne
  | cons c text ih =>
    have hc := decimal_of_isDigit (hdigits c List.mem_cons_self)
    cases text with
    | nil => exact .one hc
    | cons c' text =>
      exact .next hc (ih (List.cons_ne_nil _ _) fun d hd => hdigits d (List.mem_cons_of_mem _ hd))

/-- Every expression of the grammar with ASCII numerals that are not too long is accepted, and
its fields are what it denotes. -/
theorem CronExpression.parse_of_ascii {expression : String} {c : CronExpression}
    (h : Denotes (fun text n => AsciiNumeral text n ∧ text.length ≤ 4300) expression c) :
    parse expression = .ok c := by
  have hdenotes : Denotes Numeral expression c := h.mono fun _ _ hn => hn.1.numeral hn.2
  unfold Denotes at hdenotes
  simp only [Delimited.separated_iff, ← fields_eq_words] at hdenotes
  exact parse_eq_ok.mpr hdenotes

end QaPlatform.Automation
