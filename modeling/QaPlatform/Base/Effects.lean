import Mathlib.Logic.Relation

/-! Code that raises and keeps what it has changed: it returns its state beside its
result, and a loop over a list ends with the first element that raises. -/

namespace QaPlatform

universe u v w x
variable {σ : Type u} {ε : Type v} {α : Type w} {β : Type x}

/-- The rest of the code, unless the first part has raised. -/
def andThen (x : σ × Except ε α) (f : σ → α → σ × Except ε β) : σ × Except ε β :=
  match x.2 with
  | .error e => (x.1, .error e)
  | .ok a => f x.1 a

/-- Calls `f` for each element in turn. -/
def inTurn (f : σ → α → σ × Except ε β) : σ → List α → σ × Except ε (List β)
  | s, [] => (s, .ok [])
  | s, a :: l =>
    andThen (f s a) fun s b => andThen (inTurn f s l) fun s bs => (s, .ok (b :: bs))

/-- What was changed before it raised stays. -/
theorem andThen_error {x : σ × Except ε α} {f : σ → α → σ × Except ε β} {e : ε}
    (h : x.2 = .error e) : andThen x f = (x.1, .error e) := by
  unfold andThen
  rw [h]

theorem andThen_ok {x : σ × Except ε α} {f : σ → α → σ × Except ε β} {a : α} (h : x.2 = .ok a) :
    andThen x f = f x.1 a := by
  unfold andThen
  rw [h]

/-- A relation of the states before and after, over a sequence. -/
theorem andThen_rel {R : σ → σ → Prop} (htrans : ∀ {a b c}, R a b → R b c → R a c) {s : σ}
    {x : σ × Except ε α} {f : σ → α → σ × Except ε β} (hx : R s x.1)
    (hf : ∀ a, x.2 = .ok a → R x.1 (f x.1 a).1) : R s (andThen x f).1 := by
  cases h : x.2 with
  | error e =>
    rw [andThen_error h]
    exact hx
  | ok a =>
    rw [andThen_ok h]
    exact htrans hx (hf a h)

/-- A sequence of parts that do not raise. -/
theorem andThen_total {x : σ × Except ε α} {f : σ → α → σ × Except ε β}
    (hx : ∃ a, x.2 = .ok a) (hf : ∀ s a, ∃ b, (f s a).2 = .ok b) :
    ∃ b, (andThen x f).2 = .ok b := by
  obtain ⟨a, ha⟩ := hx
  rw [andThen_ok ha]
  exact hf x.1 a

section
variable {f : σ → α → σ × Except ε β} {s : σ} {a : α} {l : List α}

/-- Nothing is called after the element that raises. -/
theorem inTurn_cons_error {e : ε} (h : (f s a).2 = .error e) :
    inTurn f s (a :: l) = ((f s a).1, .error e) :=
  andThen_error h

theorem inTurn_cons_state {b : β} (h : (f s a).2 = .ok b) :
    (inTurn f s (a :: l)).1 = (inTurn f (f s a).1 l).1 := by
  have hfirst : inTurn f s (a :: l)
      = andThen (inTurn f (f s a).1 l) fun s bs => (s, .ok (b :: bs)) := andThen_ok h
  rw [hfirst]
  cases hrest : (inTurn f (f s a).1 l).2 with
  | error e => rw [andThen_error hrest]
  | ok bs => rw [andThen_ok hrest]

/-- The rest of a loop that does not raise. -/
theorem inTurn_cons_ok {b : β} {bs : List β} (h : (f s a).2 = .ok b)
    (hall : (inTurn f s (a :: l)).2 = .ok bs) : ∃ cs, (inTurn f (f s a).1 l).2 = .ok cs := by
  have hfirst : inTurn f s (a :: l)
      = andThen (inTurn f (f s a).1 l) fun s bs => (s, .ok (b :: bs)) := andThen_ok h
  rw [hfirst] at hall
  cases hrest : (inTurn f (f s a).1 l).2 with
  | error e =>
    rw [andThen_error hrest] at hall
    cases hall
  | ok cs => exact ⟨cs, rfl⟩

/-- A loop that does not raise, seen from one of its elements. -/
theorem inTurn_split {pre post : List α} {bs : List β}
    (h : (inTurn f s (pre ++ a :: post)).2 = .ok bs) : ∃ b cs,
      (f (inTurn f s pre).1 a).2 = .ok b
        ∧ (inTurn f (f (inTurn f s pre).1 a).1 post).2 = .ok cs
        ∧ (inTurn f s (pre ++ a :: post)).1 = (inTurn f (f (inTurn f s pre).1 a).1 post).1 := by
  induction pre generalizing s bs with
  | nil =>
    rw [List.nil_append] at h ⊢
    show ∃ b cs, (f s a).2 = .ok b ∧ (inTurn f (f s a).1 post).2 = .ok cs
      ∧ (inTurn f s (a :: post)).1 = (inTurn f (f s a).1 post).1
    cases hfirst : (f s a).2 with
    | error e =>
      rw [inTurn_cons_error hfirst] at h
      cases h
    | ok b =>
      obtain ⟨cs, hrest⟩ := inTurn_cons_ok hfirst h
      exact ⟨b, cs, rfl, hrest, inTurn_cons_state hfirst⟩
  | cons a' pre ih =>
    rw [List.cons_append] at h ⊢
    cases hfirst : (f s a').2 with
    | error e =>
      rw [inTurn_cons_error hfirst] at h
      cases h
    | ok b =>
      obtain ⟨cs, hrest⟩ := inTurn_cons_ok hfirst h
      rw [inTurn_cons_state hfirst, inTurn_cons_state hfirst]
      exact ih hrest

/-- A relation of the states before and after, over a loop. -/
theorem inTurn_rel {R : σ → σ → Prop} (hrefl : ∀ s, R s s)
    (htrans : ∀ {a b c}, R a b → R b c → R a c) (hf : ∀ s, ∀ a ∈ l, R s (f s a).1) (s : σ) :
    R s (inTurn f s l).1 := by
  induction l generalizing s with
  | nil => exact hrefl s
  | cons a l ih =>
    have hfirst := hf s a List.mem_cons_self
    cases h : (f s a).2 with
    | error e =>
      rw [inTurn_cons_error h]
      exact hfirst
    | ok b =>
      rw [inTurn_cons_state h]
      exact htrans hfirst (ih (fun s a ha => hf s a (List.mem_cons_of_mem _ ha)) _)

theorem inTurn_total (hf : ∀ s a, ∃ b, (f s a).2 = .ok b) (s : σ) :
    ∃ bs, (inTurn f s l).2 = .ok bs := by
  induction l generalizing s with
  | nil => exact ⟨[], rfl⟩
  | cons a l ih =>
    exact andThen_total (hf s a) fun s b => andThen_total (ih s) fun s bs => ⟨_, rfl⟩

end

end QaPlatform
