import Mathlib.Data.List.Forall2

/-!
# Checks that collect their errors

A check gives a value or some errors, at least one. The check of a record goes through all of its
fields, and that of a list through all of its items, whatever the ones before have found.
-/

namespace QaPlatform.Collect

universe u v w
variable {ε : Type u} {α : Type v} {β : Type w}

/-- What has been collected when something is wrong: at least one error. -/
structure Errors (ε : Type u) where
  list : List ε
  nonempty : list ≠ []

/-- A single error. -/
def Errors.one (e : ε) : Errors ε := ⟨[e], List.cons_ne_nil _ _⟩

/-- The errors of two checks, in order. -/
def Errors.append (a b : Errors ε) : Errors ε :=
  ⟨a.list ++ b.list, List.append_ne_nil_of_left_ne_nil a.nonempty _⟩

/-- A check ends with a value, or with all the errors it has found. -/
abbrev Checked (ε : Type u) (α : Type v) := Except (Errors ε) α

/-- One more field. -/
def field (f : Checked ε (α → β)) (x : Checked ε α) : Checked ε β :=
  match f, x with
  | .ok f, .ok a => .ok (f a)
  | .ok _, .error e => .error e
  | .error e, .ok _ => .error e
  | .error e, .error e' => .error (e.append e')

theorem field_eq_ok {f : Checked ε (α → β)} {x : Checked ε α} {b : β} :
    field f x = .ok b ↔ ∃ g a, f = .ok g ∧ x = .ok a ∧ g a = b := by
  cases f with
  | error e =>
    cases x with
    | error e' => simp [field]
    | ok a => simp [field]
  | ok g =>
    cases x with
    | error e' => simp [field]
    | ok a => simp [field]

/-- Each item is checked at its index. -/
def items (check : Nat → α → Checked ε β) (index : Nat) : List α → Checked ε (List β)
  | [] => .ok []
  | a :: rest => field (field (.ok List.cons) (check index a)) (items check (index + 1) rest)

theorem items_cons_eq_ok {check : Nat → α → Checked ε β} {index : Nat} {a : α} {rest : List α}
    {bs : List β} : items check index (a :: rest) = .ok bs
      ↔ ∃ b bs', check index a = .ok b ∧ items check (index + 1) rest = .ok bs'
      ∧ b :: bs' = bs := by
  simp [items, field_eq_ok]

/-- A check that does not depend on the index accepts a list item by item. -/
theorem items_eq_ok {check : Nat → α → Checked ε β} {Accepts : α → β → Prop}
    (hcheck : ∀ index a b, check index a = .ok b ↔ Accepts a b) {index : Nat} {as : List α}
    {bs : List β} : items check index as = .ok bs ↔ List.Forall₂ Accepts as bs := by
  induction as generalizing index bs with
  | nil =>
    rw [items, List.forall₂_nil_left_iff]
    constructor
    · intro h
      exact (Except.ok.inj h).symm
    · rintro rfl
      rfl
  | cons a rest ih =>
    rw [items_cons_eq_ok, List.forall₂_cons_left_iff]
    constructor
    · rintro ⟨b, bs', hb, hrest, rfl⟩
      exact ⟨b, bs', (hcheck index a b).mp hb, ih.mp hrest, rfl⟩
    · rintro ⟨b, bs', hb, hrest, rfl⟩
      exact ⟨b, bs', (hcheck index a b).mpr hb, ih.mpr hrest, rfl⟩

end QaPlatform.Collect
