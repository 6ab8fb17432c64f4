import Mathlib.Data.List.Basic

/-! Logs of a record with named fields. An entry is a dictionary of the fields it sets;
a replay applies the entries in order to a record without values. -/

namespace QaPlatform.Replay

universe u v w
variable {ι : Type u} {κ : Type v} {ν : Type w} [DecidableEq κ]

/-- The fields after an entry. -/
def applyChanges (fields : κ → Option ν) (changes : List (κ × ν)) : κ → Option ν :=
  fun k => (changes.lookup k).or (fields k)

/-- What a list of changes, oldest first, makes of the values of some keys. -/
def replay (entries : List (List (κ × ν))) : κ → Option ν :=
  entries.foldl applyChanges fun _ => none

theorem replay_append (entries : List (List (κ × ν))) (changes : List (κ × ν)) :
    replay (entries ++ [changes]) = applyChanges (replay entries) changes := by
  unfold replay
  rw [List.foldl_append]
  rfl

section
variable {name : ι → κ}

theorem lookup_named (hname : ∀ i j, name i = name j → i = j) (value : ι → ν) (is : List ι)
    (i : ι) (hmem : i ∈ is) :
    (is.map fun j => (name j, value j)).lookup (name i) = some (value i) := by
  induction is with
  | nil => cases hmem
  | cons j is ih =>
    rw [List.map_cons, List.lookup_cons]
    by_cases hj : name i = name j
    · obtain rfl := hname i j hj
      rw [beq_self_eq_true]
    · rw [beq_false_of_ne hj]
      rcases List.mem_cons.mp hmem with rfl | hrest
      · exact absurd rfl hj
      · exact ih hrest

/-- An entry that sets the fields `is` to the values of a record leaves the record, when the other
fields had these values before. -/
theorem applyChanges_named (hname : ∀ i j, name i = name j → i = j) (value : ι → ν)
    {fields : κ → Option ν} (is : List ι)
    (hkept : ∀ i, i ∉ is → fields (name i) = some (value i)) (i : ι) :
    applyChanges fields (is.map fun j => (name j, value j)) (name i) = some (value i) := by
  unfold applyChanges
  by_cases hmem : i ∈ is
  · rw [lookup_named hname value is i hmem]
    rfl
  · cases hlookup : (is.map fun j => (name j, value j)).lookup (name i) with
    | none => exact hkept i hmem
    | some v =>
      -- the key is the name of a field of the entry
      obtain ⟨before, rest, hsplit, -⟩ := List.lookup_eq_some_iff.mp hlookup
      have hkey : (name i, v) ∈ is.map fun j => (name j, value j) := by
        rw [hsplit]
        exact List.mem_append_right _ List.mem_cons_self
      obtain ⟨j, hj, hpair⟩ := List.mem_map.mp hkey
      exact absurd (hname j i (Prod.mk.inj hpair).1 ▸ hj) hmem

end

end QaPlatform.Replay
