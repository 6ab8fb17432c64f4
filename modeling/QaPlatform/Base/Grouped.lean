import Mathlib.Data.List.Dedup
import QaPlatform.Base.Counters

/-!
# Values grouped by keys

A dictionary of lists that are only appended to, or taken out as a whole: it is the list of what
has been appended, each under its key.
-/

namespace QaPlatform

universe u v
variable {κ : Type u} {α : Type v} [DecidableEq κ]

/-- Entries under keys, in the order they came. -/
abbrev Grouped (κ : Type u) (α : Type v) := List (κ × α)

namespace Grouped

/-- The entries of a key. -/
def get (d : Grouped κ α) (key : κ) : List α := (d.filter (·.1 = key)).map (·.2)

/-- What is left when the list of a key is taken out. -/
def pop (d : Grouped κ α) (key : κ) : Grouped κ α := d.filter (·.1 ≠ key)

/-- The keys, in the order in which they first come. -/
def keys (d : Grouped κ α) : List κ := Counters.firsts (d.map (·.1))

/-- The lists, one behind the other. -/
def values (d : Grouped κ α) : List α := d.keys.flatMap d.get

section
variable {d : Grouped κ α} {key other : κ} {a : α}

@[simp] theorem mem_get : a ∈ d.get key ↔ (key, a) ∈ d := by
  simp [get]

@[simp] theorem mem_pop {entry : κ × α} : entry ∈ d.pop key ↔ entry ∈ d ∧ entry.1 ≠ key := by
  simp [pop]

@[simp] theorem mem_keys : key ∈ d.keys ↔ ∃ a, (key, a) ∈ d := by
  rw [keys, Counters.mem_firsts, List.mem_map]
  constructor
  · rintro ⟨entry, hentry, rfl⟩
    exact ⟨entry.2, hentry⟩
  · rintro ⟨a, ha⟩
    exact ⟨_, ha, rfl⟩

theorem mem_values : a ∈ d.values ↔ ∃ key, (key, a) ∈ d := by
  simp only [values, List.mem_flatMap, mem_get, mem_keys]
  exact ⟨fun ⟨key, _, h⟩ => ⟨key, h⟩, fun ⟨key, h⟩ => ⟨key, ⟨a, h⟩, h⟩⟩

theorem get_append_self (d : Grouped κ α) (key : κ) (a : α) :
    get (d ++ [(key, a)]) key = d.get key ++ [a] := by
  simp [get]

theorem get_append_of_ne (d : Grouped κ α) (h : other ≠ key) (a : α) :
    get (d ++ [(other, a)]) key = d.get key := by
  simp [get, h]

end

end Grouped

end QaPlatform
