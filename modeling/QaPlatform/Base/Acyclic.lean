import Mathlib.Data.Finset.Card
import Mathlib.Logic.Relation

/-! Relations without cycles, and what may be done to one: edges are dropped, or one
edge is put in between two points of which the second does not lead to the first. -/

namespace QaPlatform

open Relation

universe u
variable {α : Type u} {r r' : α → α → Prop} {a b x p : α}

/-- No walk comes back to where it began. -/
def Acyclic (r : α → α → Prop) : Prop := ∀ a, ¬ TransGen r a a

theorem Acyclic.mono (h : Acyclic r) (hr : ∀ a b, r' a b → r a b) : Acyclic r' :=
  fun a hcycle => h a (TransGen.mono hr _ _ hcycle)

/-- A walk uses the new edge, or it is one of before: from the last use on it is one of before. -/
theorem walk_after_edge (hr : ∀ a b, r' a b → r a b ∨ a = x ∧ b = p) (h : TransGen r' a b) :
    TransGen r a b ∨ ReflTransGen r p b := by
  induction h with
  | single hab =>
    rcases hr _ _ hab with hold | ⟨-, rfl⟩
    · exact .inl (.single hold)
    · exact .inr .refl
  | tail _ hbc ih =>
    rcases hr _ _ hbc with hold | ⟨-, rfl⟩
    · exact ih.imp (·.tail hold) (·.tail hold)
    · exact .inr .refl

/-- The same up to the first use. -/
theorem walk_before_edge (hr : ∀ a b, r' a b → r a b ∨ a = x ∧ b = p) (h : TransGen r' a b) :
    TransGen r a b ∨ ReflTransGen r a x := by
  induction h using TransGen.head_induction_on with
  | single hab =>
    rcases hr _ _ hab with hold | ⟨rfl, -⟩
    · exact .inl (.single hold)
    · exact .inr .refl
  | head hac _ ih =>
    rcases hr _ _ hac with hold | ⟨rfl, -⟩
    · exact ih.imp (.head hold) (.head hold)
    · exact .inr .refl

theorem Acyclic.insert (h : Acyclic r) (hr : ∀ a b, r' a b → r a b ∨ a = x ∧ b = p)
    (hreach : ¬ ReflTransGen r p x) : Acyclic r' := by
  intro a hcycle
  rcases walk_after_edge hr hcycle with hold | hafter
  · exact h a hold
  rcases walk_before_edge hr hcycle with hold | hbefore
  · exact h a hold
  · exact hreach (hafter.trans hbefore)

/-- A walk among finitely many points can be made until it leads to none of them. -/
theorem Acyclic.exists_last (h : Acyclic r) (points : Finset α) (x : α) :
    ∃ t, ReflTransGen r x t ∧ (t = x ∨ t ∈ points) ∧ ∀ p ∈ points, ¬ r t p := by
  classical
  -- a step of the walk loses the point that it leads to
  induction hsize : (points.filter (TransGen r x)).card using Nat.strongRecOn generalizing x with
  | ind n ih =>
    by_cases hlast : ∀ p ∈ points, ¬ r x p
    · exact ⟨x, .refl, .inl rfl, hlast⟩
    · push Not at hlast
      obtain ⟨p, hp, hstep⟩ := hlast
      have hfewer : (points.filter (TransGen r p)).card < (points.filter (TransGen r x)).card := by
        apply Finset.card_lt_card
        rw [Finset.ssubset_iff_of_subset]
        · have hself : p ∉ points.filter (TransGen r p) := fun hp => h p (Finset.mem_filter.mp hp).2
          exact ⟨p, Finset.mem_filter.mpr ⟨hp, .single hstep⟩, hself⟩
        · intro q hq
          obtain ⟨hpoint, hwalk⟩ := Finset.mem_filter.mp hq
          exact Finset.mem_filter.mpr ⟨hpoint, .head hstep hwalk⟩
      obtain ⟨t, hwalk, hwhere, hlast⟩ := ih _ (hsize ▸ hfewer) p rfl
      refine ⟨t, .head hstep hwalk, .inr ?_, hlast⟩
      rcases hwhere with rfl | hpoint
      · exact hp
      · exact hpoint

end QaPlatform
