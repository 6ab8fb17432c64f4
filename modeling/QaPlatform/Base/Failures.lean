import QaPlatform.Base.Guard

/-! Errors of a kind: a sequence ends with one when one of its parts does and the parts before it
have been done. -/

namespace QaPlatform

universe u v
variable {ε : Type u} {α β : Type v}

/-- What is raised is an error of a kind. -/
def FailsWith (P : ε → Prop) (x : Except ε α) : Prop := ∃ e, x = .error e ∧ P e

section
variable {P : ε → Prop} {x : Except ε α}

@[simp] theorem failsWith_error {e : ε} : FailsWith P (.error e : Except ε α) ↔ P e := by
  simp [FailsWith]

@[simp] theorem failsWith_ok {a : α} : ¬ FailsWith P (.ok a : Except ε α) := by
  simp [FailsWith]

theorem failsWith_bind {f : α → Except ε β} :
    FailsWith P (x >>= f) ↔ FailsWith P x ∨ ∃ a, x = .ok a ∧ FailsWith P (f a) := by
  cases x with
  | error e => simp [FailsWith, bind, Except.bind]
  | ok a => simp [FailsWith, bind, Except.bind]

/-- A check whose error is of another kind, and what comes behind it. -/
theorem failsWith_refuse_bind {c : Prop} [Decidable c] {e : ε} {f : PUnit.{v + 1} → Except ε β}
    (he : ¬ P e) : FailsWith P (refuse c e >>= f) ↔ ¬ c ∧ FailsWith P (f ⟨⟩) := by
  by_cases hc : c
  · rw [refuse_bind_of hc, failsWith_error]
    exact iff_of_false he fun h => h.1 hc
  · rw [refuse_bind_of_not hc]
    exact (and_iff_right hc).symm

theorem failsWith_demand_bind {o : Option α} {e : ε} {f : α → Except ε β} (he : ¬ P e) :
    FailsWith P (demand e o >>= f) ↔ ∃ a, o = some a ∧ FailsWith P (f a) := by
  rw [failsWith_bind]
  cases o with
  | none => simp [demand, he]
  | some a => simp [demand]

/-- What never fails so, and what comes behind it. -/
theorem failsWith_bind_of_not {f : α → Except ε β} (hx : ¬ FailsWith P x) :
    FailsWith P (x >>= f) ↔ ∃ a, x = .ok a ∧ FailsWith P (f a) := by
  rw [failsWith_bind]
  exact or_iff_right hx

theorem failsWith_mapError {ε' : Type u} {P : ε' → Prop} {f : ε → ε'} :
    FailsWith P (x.mapError f) ↔ FailsWith (fun e => P (f e)) x := by
  cases x with
  | error e =>
    have herror : (Except.error e : Except ε α).mapError f = .error (f e) := rfl
    rw [herror, failsWith_error, failsWith_error]
  | ok a => exact iff_of_false failsWith_ok failsWith_ok

/-- Only the first part can fail. -/
theorem failsWith_bind_left {f : α → Except ε β} (hf : ∀ a, ¬ FailsWith P (f a)) :
    FailsWith P (x >>= f) ↔ FailsWith P x := by
  rw [failsWith_bind]
  refine or_iff_left ?_
  rintro ⟨a, -, h⟩
  exact hf a h

end

end QaPlatform
