import Mathlib.Init

/-!
# Loops

A loop runs its body on a state until the body ends it. With too little fuel there is no
result; a loop whose body makes a measure smaller ends with any fuel above the measure.
-/

namespace QaPlatform.Loop

universe u v
variable {σ : Type u} {α : Type v}

/-- The body goes on from another state or ends the loop. -/
def eval (body : σ → σ ⊕ α) : Nat → σ → Option α
  | 0, _ => none
  | fuel + 1, s =>
    match body s with
    | .inl next => eval body fuel next
    | .inr a => some a

section
variable {body : σ → σ ⊕ α}

theorem eval_again {s next : σ} (h : body s = .inl next) (fuel : Nat) :
    eval body (fuel + 1) s = eval body fuel next := by
  simp only [eval, h]

theorem eval_done {s : σ} {a : α} (h : body s = .inr a) (fuel : Nat) :
    eval body (fuel + 1) s = some a := by
  simp only [eval, h]

/-- What the loop ends with, if it ends: the invariant is kept, and the end is reached from a
state that has it. -/
theorem eval_post (I : σ → Prop) (P : α → Prop)
    (hagain : ∀ s next, I s → body s = .inl next → I next)
    (hdone : ∀ s a, I s → body s = .inr a → P a) {fuel : Nat} {s : σ} {a : α} (hs : I s)
    (h : eval body fuel s = some a) : P a := by
  induction fuel generalizing s with
  | zero => cases h
  | succ fuel ih =>
    cases hbody : body s with
    | inl next =>
      rw [eval_again hbody] at h
      exact ih (hagain s next hs hbody) h
    | inr b =>
      rw [eval_done hbody, Option.some.injEq] at h
      subst h
      exact hdone s b hs hbody

/-- The loop ends: each round that is not the last makes the measure smaller. -/
theorem eval_ends (I : σ → Prop) (measure : σ → Nat)
    (hagain : ∀ s next, I s → body s = .inl next → I next ∧ measure next < measure s)
    {fuel : Nat} {s : σ} (hs : I s) (hfuel : measure s < fuel) :
    ∃ a, eval body fuel s = some a := by
  induction fuel generalizing s with
  | zero => omega
  | succ fuel ih =>
    cases hbody : body s with
    | inl next =>
      obtain ⟨hnext, hless⟩ := hagain s next hs hbody
      obtain ⟨a, ha⟩ := ih hnext (by omega)
      exact ⟨a, by rw [eval_again hbody, ha]⟩
    | inr b => exact ⟨b, eval_done hbody fuel⟩

/-- More fuel makes no difference to a loop that has ended. -/
theorem eval_mono {fuel fuel' : Nat} {s : σ} {a : α} (h : eval body fuel s = some a)
    (hle : fuel ≤ fuel') : eval body fuel' s = some a := by
  induction fuel generalizing fuel' s with
  | zero => cases h
  | succ fuel ih =>
    obtain ⟨more, rfl⟩ : ∃ more, fuel' = more + 1 := ⟨fuel' - 1, by omega⟩
    cases hbody : body s with
    | inl next =>
      rw [eval_again hbody] at h ⊢
      exact ih h (by omega)
    | inr b =>
      rw [eval_done hbody] at h ⊢
      exact h

/-- The loop ends, and with the same result however much fuel there is above the measure. -/
theorem eval_total (I : σ → Prop) (P : α → Prop) (measure : σ → Nat)
    (hagain : ∀ s next, I s → body s = .inl next → I next ∧ measure next < measure s)
    (hdone : ∀ s a, I s → body s = .inr a → P a) {s : σ} (hs : I s) {bound : Nat}
    (hbound : measure s ≤ bound) :
    ∃ a, P a ∧ ∀ fuel, bound < fuel → eval body fuel s = some a := by
  obtain ⟨a, ha⟩ := eval_ends I measure hagain hs (Nat.lt_succ_of_le hbound)
  refine ⟨a, eval_post I P (fun s next hs hnext => (hagain s next hs hnext).1) hdone hs ha, ?_⟩
  intro fuel hfuel
  exact eval_mono ha (by omega)

end

end QaPlatform.Loop
