import Mathlib.Init

/-! Code that raises, in `Except`: a guard that refuses, and what a success of a
sequence says about its parts. -/

namespace QaPlatform

universe u v w
variable {ε : Type u} {α β : Type v}

/-- Raises `e` when `c` holds. -/
def refuse (c : Prop) [Decidable c] (e : ε) : Except ε PUnit.{v + 1} :=
  if c then .error e else .ok ⟨⟩

/-- Raises `e` when there is nothing. -/
def demand (e : ε) : Option α → Except ε α
  | none => .error e
  | some a => .ok a

@[simp] theorem refuse_eq_ok {c : Prop} [Decidable c] {e : ε} {u : PUnit.{v + 1}} :
    refuse c e = .ok u ↔ ¬ c := by
  unfold refuse
  by_cases h : c
  · simp [h]
  · simp [h]

@[simp] theorem demand_eq_ok {e : ε} {o : Option α} {a : α} : demand e o = .ok a ↔ o = some a := by
  cases o with
  | none => simp [demand]
  | some b => simp [demand]

theorem bind_eq_ok {x : Except ε α} {f : α → Except ε β} {b : β} :
    (x >>= f) = .ok b ↔ ∃ a, x = .ok a ∧ f a = .ok b := by
  cases x with
  | error e => simp [bind, Except.bind]
  | ok a => simp [bind, Except.bind]

theorem map_eq_ok {x : Except ε α} {f : α → β} {b : β} :
    x.map f = .ok b ↔ ∃ a, x = .ok a ∧ f a = b := by
  cases x with
  | error e => simp [Except.map]
  | ok a => simp [Except.map]

theorem pure_eq_ok {a b : α} : (pure a : Except ε α) = .ok b ↔ a = b := by
  simp [pure, Except.pure]

/-- A guarded sequence succeeds when the guard lets it and the rest does. -/
theorem refuse_bind_eq_ok {c : Prop} [Decidable c] {e : ε} {f : PUnit.{v + 1} → Except ε β}
    {b : β} : (refuse c e >>= f) = .ok b ↔ ¬ c ∧ f ⟨⟩ = .ok b := by
  rw [bind_eq_ok]
  exact ⟨fun ⟨_, hc, hf⟩ => ⟨refuse_eq_ok.mp hc, hf⟩,
    fun ⟨hc, hf⟩ => ⟨⟨⟩, refuse_eq_ok.mpr hc, hf⟩⟩

/-- Two checks in a row. -/
theorem then_eq_ok {first second : Except ε PUnit.{v + 1}} :
    (first >>= fun _ => second) = .ok ⟨⟩ ↔ first = .ok ⟨⟩ ∧ second = .ok ⟨⟩ := by
  rw [bind_eq_ok]
  exact ⟨fun ⟨⟨⟩, hfirst, hsecond⟩ => ⟨hfirst, hsecond⟩,
    fun ⟨hfirst, hsecond⟩ => ⟨⟨⟩, hfirst, hsecond⟩⟩

/-- A check of every item in turn. -/
theorem forM_eq_ok {γ : Type v} {check : γ → Except ε PUnit.{v + 1}} {items : List γ} :
    items.forM check = .ok ⟨⟩ ↔ ∀ item ∈ items, check item = .ok ⟨⟩ := by
  induction items with
  | nil => simp [pure, Except.pure]
  | cons item items ih =>
    rw [List.forM_eq_forM] at ih ⊢
    rw [List.forM_cons, then_eq_ok, List.forall_mem_cons, ih]

/-! What a sequence does once its first part is known. -/

theorem ok_bind (a : α) (f : α → Except ε β) : ((Except.ok a : Except ε α) >>= f) = f a := rfl

/-- Of every item what it is known to give. -/
theorem mapM_eq_map {γ : Type w} {f : γ → Except ε α} {g : γ → α} {items : List γ}
    (h : ∀ item ∈ items, f item = .ok (g item)) : items.mapM f = .ok (items.map g) := by
  induction items with
  | nil => rfl
  | cons item items ih =>
    rw [List.forall_mem_cons] at h
    rw [List.mapM_cons, h.1, ok_bind, ih h.2, ok_bind]
    rfl

theorem error_bind (e : ε) (f : α → Except ε β) :
    ((Except.error e : Except ε α) >>= f) = .error e := rfl

theorem refuse_bind_of {c : Prop} [Decidable c] (h : c) (e : ε) (f : PUnit.{v + 1} → Except ε β) :
    (refuse c e >>= f) = .error e := by
  unfold refuse
  rw [if_pos h, error_bind]

theorem refuse_bind_of_not {c : Prop} [Decidable c] (h : ¬ c) (e : ε)
    (f : PUnit.{v + 1} → Except ε β) : (refuse c e >>= f) = f ⟨⟩ := by
  unfold refuse
  rw [if_neg h, ok_bind]

/-! Which errors a sequence does not raise. -/

section
variable {x : Except ε α} {f : α → Except ε β} {e e' : ε}

theorem pure_ne_error {a : α} : (pure a : Except ε α) ≠ .error e := by
  simp [pure, Except.pure]

theorem refuse_ne_error {c : Prop} [Decidable c] (he : e' ≠ e) :
    (refuse c e' : Except ε PUnit.{v + 1}) ≠ .error e := by
  unfold refuse
  split
  · exact fun h => he (Except.error.inj h)
  · simp

theorem demand_ne_error {o : Option α} (he : e' ≠ e) : demand e' o ≠ .error e := by
  cases o with
  | none => exact fun h => he (Except.error.inj h)
  | some a => simp [demand]

theorem bind_ne_error (hx : x ≠ .error e) (hf : ∀ a, x = .ok a → f a ≠ .error e) :
    (x >>= f) ≠ .error e := by
  cases x with
  | error e₁ =>
    intro h
    have hsame : (Except.error e₁ : Except ε β) = .error e := h
    exact hx (by rw [Except.error.inj hsame])
  | ok a => exact hf a rfl

theorem map_ne_error {f : α → β} (hx : x ≠ .error e) : x.map f ≠ .error e := by
  cases x with
  | error e₁ => exact fun h => hx (by rw [Except.error.inj h])
  | ok a => simp [Except.map]

end

/-! Which errors a sequence may raise. -/

/-- What it raises, if it raises, is in `P`. -/
def Raises (P : ε → Prop) (x : Except ε α) : Prop := ∀ e, x = .error e → P e

section
variable {P : ε → Prop} {x : Except ε α} {f : α → Except ε β} {e : ε}

theorem Raises.pure {a : α} : Raises P (pure a : Except ε α) :=
  fun _ h => absurd h pure_ne_error

theorem Raises.throw (he : P e) : Raises P (throw e : Except ε α) := by
  intro e' h
  obtain rfl := Except.error.inj h
  exact he

theorem Raises.refuse {c : Prop} [Decidable c] (he : P e) :
    Raises P (refuse c e : Except ε PUnit.{v + 1}) := by
  intro e' h
  by_cases hsame : e = e'
  · exact hsame ▸ he
  · exact absurd h (refuse_ne_error hsame)

theorem Raises.demand {o : Option α} (he : P e) : Raises P (demand e o) := by
  intro e' h
  by_cases hsame : e = e'
  · exact hsame ▸ he
  · exact absurd h (demand_ne_error hsame)

theorem Raises.bind (hx : Raises P x) (hf : ∀ a, x = .ok a → Raises P (f a)) :
    Raises P (x >>= f) := by
  intro e h
  cases hresult : x with
  | error e' =>
    rw [hresult] at h
    obtain rfl := Except.error.inj h
    exact hx _ hresult
  | ok a =>
    rw [hresult] at h
    exact hf a hresult e h

/-- Behind a part that raises in `P` only, it is the rest that decides. -/
theorem Raises.bind_iff (hx : Raises P x) :
    Raises P (x >>= f) ↔ ∀ a, x = .ok a → Raises P (f a) := by
  constructor
  · intro h a ha
    rw [ha, ok_bind] at h
    exact h
  · exact hx.bind

end

end QaPlatform
