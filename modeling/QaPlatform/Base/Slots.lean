import Mathlib.Data.List.Basic

/-! A list whose entries are set one at a time: what some entry has after one of them is set. -/

namespace QaPlatform

universe u
variable {α : Type u} {xs : List α} {p : Nat} {old new : α}

theorem mem_set_self (hp : xs[p]? = some old) : new ∈ xs.set p new :=
  List.mem_iff_getElem?.mpr ⟨p, List.getElem?_set_self (List.getElem?_eq_some_iff.mp hp).1⟩

theorem mem_set_or_eq (hp : xs[p]? = some old) {x : α} (hx : x ∈ xs) :
    x ∈ xs.set p new ∨ x = old := by
  obtain ⟨i, hi⟩ := List.mem_iff_getElem?.mp hx
  by_cases hip : p = i
  · exact .inr (Option.some.inj ((hip ▸ hi).symm.trans hp))
  · refine .inl (List.mem_iff_getElem?.mpr ⟨i, ?_⟩)
    rw [List.getElem?_set_ne hip]
    exact hi

/-- Some entry still has it when the one that is set keeps it. -/
theorem exists_mem_set {P : α → Prop} (hp : xs[p]? = some old) (hkeeps : P old → P new)
    (h : ∃ x ∈ xs, P x) : ∃ x ∈ xs.set p new, P x := by
  obtain ⟨x, hx, hpx⟩ := h
  rcases mem_set_or_eq hp hx with hkept | rfl
  · exact ⟨x, hkept, hpx⟩
  · exact ⟨new, mem_set_self hp, hkeeps hpx⟩

theorem mem_of_mem_set {x : α} (hne : x ≠ new) (hx : x ∈ xs.set p new) : x ∈ xs :=
  (List.mem_or_eq_of_mem_set hx).resolve_right hne

end QaPlatform
