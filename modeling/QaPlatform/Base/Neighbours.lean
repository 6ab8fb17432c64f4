import Mathlib.Order.Bounds.Basic
import Mathlib.Order.Interval.Set.Defs
import Mathlib.Data.List.Chain

/-! The next member of a set after a point and the previous one at or before it. The two
searches are adjoint: from a member to the next one, the former is the previous member of
every point in between, and the latter its next. -/

namespace QaPlatform

universe u
variable {α : Type u} [LinearOrder α] {M : Set α} {a b x : α}

/-- `n` is the least member of `M` after `x`. -/
def IsNext (M : Set α) (x n : α) : Prop := IsLeast {m ∈ M | x < m} n

/-- `p` is the greatest member of `M` up to `x`. -/
def IsPrevious (M : Set α) (x p : α) : Prop := IsGreatest {m ∈ M | m ≤ x} p

theorem IsPrevious.unique {p p' : α} (h : IsPrevious M x p) (h' : IsPrevious M x p') : p = p' :=
  IsGreatest.unique h h'

theorem IsNext.mem (h : IsNext M x b) : b ∈ M := h.1.1

theorem IsNext.lt (h : IsNext M x b) : x < b := h.1.2

theorem IsNext.previous (h : IsNext M a b) (ha : a ∈ M) (hax : a ≤ x) (hxb : x < b) :
    IsPrevious M x a := by
  refine ⟨⟨ha, hax⟩, fun m hm => ?_⟩
  by_contra hlater
  have hb : b ≤ m := h.2 ⟨hm.1, not_le.mp hlater⟩
  exact absurd (lt_of_lt_of_le hxb hb) (not_lt.mpr hm.2)

theorem IsNext.between (h : IsNext M a b) (hax : a ≤ x) (hxb : x < b) : IsNext M x b :=
  ⟨⟨h.1.1, hxb⟩, fun _ hm => h.2 ⟨hm.1, lt_of_le_of_lt hax hm.2⟩⟩

end QaPlatform
