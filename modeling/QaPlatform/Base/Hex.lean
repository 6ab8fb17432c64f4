import Mathlib.Data.Char
import Mathlib.Data.List.Basic
import Mathlib.Tactic.IntervalCases

/-! Numbers as hexadecimal digits of a fixed width, and back. -/

namespace QaPlatform.Hex

/-- The last `width` digits of a number, in lower case. -/
def digits : Nat → Nat → List Char
  | 0, _ => []
  | width + 1, value => digits width (value / 16) ++ [Nat.digitChar (value % 16)]

/-- The value of one digit, of either case. -/
def digitValue (c : Char) : Option Nat :=
  if '0' ≤ c ∧ c ≤ '9' then some (c.toNat - 48)
  else if 'a' ≤ c ∧ c ≤ 'f' then some (c.toNat - 87)
  else if 'A' ≤ c ∧ c ≤ 'F' then some (c.toNat - 55)
  else none

/-- Reads digits behind a number that was read already. -/
def readFrom : Nat → List Char → Option Nat
  | value, [] => some value
  | value, c :: rest =>
    match digitValue c with
    | none => none
    | some d => readFrom (16 * value + d) rest

/-- The number of a text of digits. -/
def read (text : List Char) : Option Nat := readFrom 0 text

@[simp] theorem length_digits (width value : Nat) : (digits width value).length = width := by
  induction width generalizing value with
  | zero => rfl
  | succ width ih => simp [digits, ih]

theorem digitValue_digitChar {d : Nat} (hd : d < 16) : digitValue (Nat.digitChar d) = some d := by
  interval_cases d <;> decide

theorem readFrom_append (value : Nat) (front back : List Char) :
    readFrom value (front ++ back) = (readFrom value front).bind (readFrom · back) := by
  induction front generalizing value with
  | nil => rfl
  | cons c front ih =>
    simp only [List.cons_append, readFrom]
    cases digitValue c with
    | none => rfl
    | some d => exact ih _

theorem readFrom_digits (before width value : Nat) :
    readFrom before (digits width value) = some (before * 16 ^ width + value % 16 ^ width) := by
  induction width generalizing value with
  | zero => simp [digits, readFrom, Nat.mod_one]
  | succ width ih =>
    have hd : value % 16 < 16 := Nat.mod_lt _ (by decide)
    rw [digits, readFrom_append, ih]
    simp only [Option.bind_some, readFrom, digitValue_digitChar hd]
    have hsplit : value % 16 ^ (width + 1) = 16 * (value / 16 % 16 ^ width) + value % 16 := by
      rw [Nat.pow_succ', Nat.mod_mul]
      omega
    rw [hsplit, Nat.pow_succ', Nat.mul_left_comm]
    congr 1
    omega

/-- Digits read back to the number, if they have room for it. -/
theorem read_digits {width value : Nat} (h : value < 16 ^ width) :
    read (digits width value) = some value := by
  unfold read
  rw [readFrom_digits, Nat.mod_eq_of_lt h]
  simp

/-- The digits of a number are those of its front part and those of its back part. -/
theorem digits_append (front back value : Nat) :
    digits front (value / 16 ^ back) ++ digits back value = digits (front + back) value := by
  induction back generalizing value with
  | zero => simp [digits]
  | succ back ih =>
    have hdiv : value / 16 ^ (back + 1) = value / 16 / 16 ^ back := by
      rw [Nat.pow_succ', Nat.div_div_eq_div_mul]
    rw [hdiv, digits, ← List.append_assoc, ih]
    rfl

theorem isAlphanum_of_mem_digits {width value : Nat} {c : Char} (hc : c ∈ digits width value) :
    c.isAlphanum := by
  induction width generalizing value with
  | zero => simp [digits] at hc
  | succ width ih =>
    rw [digits, List.mem_append, List.mem_singleton] at hc
    obtain hc | rfl := hc
    · exact ih hc
    · have hd : value % 16 < 16 := Nat.mod_lt _ (by decide)
      generalize value % 16 = d at hd
      interval_cases d <;> decide

theorem head?_digits_append {width value : Nat} (hwidth : 0 < width) (rest : List Char) :
    (digits width value ++ rest).head?.any Char.isAlphanum := by
  cases hdigits : digits width value with
  | nil =>
    have hlength := length_digits width value
    rw [hdigits, List.length_nil] at hlength
    omega
  | cons c front =>
    have hc : c ∈ digits width value := hdigits ▸ List.mem_cons_self
    simpa using isAlphanum_of_mem_digits hc

end QaPlatform.Hex
