import Mathlib.Data.List.Basic

/-! Runs of a machine whose step is a total function of a state and an event.
An event that a state refuses leaves the state alone, so every list of events
is a run and "in every reachable state" is a statement about every list. -/

namespace QaPlatform.Transition

universe u v w
variable {σ : Type u} {ε : Type v}

/-- The state after the events of a run. -/
def run (step : σ → ε → σ) (s : σ) (es : List ε) : σ :=
  es.foldl step s

@[simp] theorem run_nil (step : σ → ε → σ) (s : σ) : run step s [] = s := rfl

@[simp] theorem run_cons (step : σ → ε → σ) (s : σ) (e : ε) (es : List ε) :
    run step s (e :: es) = run step (step s e) es := rfl

theorem run_append (step : σ → ε → σ) (s : σ) (es fs : List ε) :
    run step s (es ++ fs) = run step (run step s es) fs := by
  simp [run]

/-- Every step of the run from `s` meets `ok`, a condition on an event and the
state it arrives in. -/
def Along (ok : σ → ε → Prop) (step : σ → ε → σ) : σ → List ε → Prop
  | _, [] => True
  | s, e :: es => ok s e ∧ Along ok step (step s e) es

variable {α : Type w} {step : σ → ε → σ} {ok : σ → ε → Prop}

@[simp] theorem along_nil (s : σ) : Along ok step s [] := trivial

@[simp] theorem along_cons (s : σ) (e : ε) (es : List ε) :
    Along ok step s (e :: es) ↔ ok s e ∧ Along ok step (step s e) es := Iff.rfl

instance [∀ s e, Decidable (ok s e)] : ∀ (s : σ) (es : List ε), Decidable (Along ok step s es)
  | _, [] => .isTrue trivial
  | s, e :: es =>
    have : Decidable (Along ok step (step s e) es) := instDecidableAlong (step s e) es
    inferInstanceAs (Decidable (ok s e ∧ Along ok step (step s e) es))

theorem along_append (s : σ) (es fs : List ε) :
    Along ok step s (es ++ fs) ↔ Along ok step s es ∧ Along ok step (run step s es) fs := by
  induction es generalizing s with
  | nil => simp
  | cons e es ih => simp [ih, and_assoc]

theorem Along.mono {ok' : σ → ε → Prop} (h : ∀ s e, ok s e → ok' s e) {s : σ} {es : List ε}
    (hs : Along ok step s es) : Along ok' step s es := by
  induction es generalizing s with
  | nil => trivial
  | cons e es ih => exact ⟨h s e hs.1, ih hs.2⟩

theorem Along.and {ok' : σ → ε → Prop} {s : σ} {es : List ε} (h : Along ok step s es)
    (h' : Along ok' step s es) : Along (fun s e => ok s e ∧ ok' s e) step s es := by
  induction es generalizing s with
  | nil => trivial
  | cons e es ih => exact ⟨⟨h.1, h'.1⟩, ih h.2 h'.2⟩

/-- A condition on the events alone. -/
theorem Along.of_mem {p : ε → Prop} {es : List ε} (h : ∀ e ∈ es, p e) (s : σ) :
    Along (fun _ e => p e) step s es := by
  induction es generalizing s with
  | nil => trivial
  | cons e es ih =>
    exact ⟨h e List.mem_cons_self, ih (fun x hx => h x (List.mem_cons_of_mem e hx)) _⟩

/-- The run lemma: what every step that meets `ok` preserves holds in every
state of a run whose steps all meet `ok`. -/
theorem invariant_along {I : σ → Prop} (hstep : ∀ s e, I s → ok s e → I (step s e))
    {s : σ} {es : List ε} (hs : I s) (h : Along ok step s es) : I (run step s es) := by
  induction es generalizing s with
  | nil => exact hs
  | cons e es ih => exact ih (hstep s e hs h.1) h.2

/-- What every step preserves holds in every state of every run. -/
theorem invariant_run {I : σ → Prop} (hstep : ∀ s e, I s → I (step s e)) {s : σ} (hs : I s)
    (es : List ε) : I (run step s es) := by
  induction es generalizing s with
  | nil => exact hs
  | cons e es ih => exact ih (hstep s e hs)

/-- A step that does not meet `ok` is caught in `T`, which no step leaves: so is the run. -/
theorem along_or_trapped {T : σ → Prop} (hstep : ∀ s e, T s → T (step s e))
    (htrap : ∀ s e, ok s e ∨ T (step s e)) (s : σ) (es : List ε) :
    Along ok step s es ∨ T (run step s es) := by
  induction es generalizing s with
  | nil => exact .inl trivial
  | cons e es ih =>
    rcases htrap s e with hok | ht
    · exact (ih (step s e)).imp_left fun hrest => ⟨hok, hrest⟩
    · exact .inr (invariant_run hstep ht es)

/-- What a run has to do for `I` to hold in each of its states, when a step from
such a state keeps `I` exactly if it meets `ok`. `J` is what every state has. -/
theorem prefixes_iff_along {I J : σ → Prop} (hJ : ∀ s e, J s → J (step s e))
    (hstep : ∀ s e, J s → I s → (I (step s e) ↔ ok s e)) {s : σ} (hs : I s) (hj : J s)
    (es : List ε) : (∀ fs, fs <+: es → I (run step s fs)) ↔ Along ok step s es := by
  induction es generalizing s with
  | nil =>
    refine ⟨fun _ => trivial, fun _ fs hfs => ?_⟩
    rw [List.prefix_nil.mp hfs]
    exact hs
  | cons e es ih =>
    constructor
    · intro h
      have hnext : I (step s e) := h [e] (by simp)
      refine ⟨(hstep s e hj hs).mp hnext, (ih hnext (hJ s e hj)).mp fun fs hfs => ?_⟩
      exact h (e :: fs) (List.cons_prefix_cons.mpr ⟨rfl, hfs⟩)
    · intro h fs hfs
      have hnext : I (step s e) := (hstep s e hj hs).mpr h.1
      cases fs with
      | nil => exact hs
      | cons f fs =>
        obtain ⟨rfl, hrest⟩ := List.cons_prefix_cons.mp hfs
        exact (ih hnext (hJ s f hj)).mpr h.2 fs hrest

/-- A step of one of several machines that have nothing in common. -/
def family {ι : Type*} [DecidableEq ι] (step : ι → σ → ε → σ) (s : ι → σ) (e : ι × ε) : ι → σ :=
  Function.update s e.1 (step e.1 (s e.1) e.2)

/-- What each machine keeps along its steps holds of each of them in every state of a run. -/
theorem family_invariant_along {ι : Type*} [DecidableEq ι] {step : ι → σ → ε → σ}
    {I : ι → σ → Prop} (hstep : ∀ i s e, I i s → ok s e → I i (step i s e)) {s : ι → σ}
    {es : List (ι × ε)} (hs : ∀ i, I i (s i))
    (h : Along (fun s (e : ι × ε) => ok (s e.1) e.2) (family step) s es) (i : ι) :
    I i (run (family step) s es i) := by
  have hall : ∀ (s : ι → σ) (e : ι × ε), (∀ i, I i (s i)) → ok (s e.1) e.2 →
      ∀ i, I i (family step s e i) := by
    intro s e hs hok j
    unfold family
    by_cases hj : j = e.1
    · subst hj
      rw [Function.update_self]
      exact hstep _ _ _ (hs _) hok
    · rw [Function.update_of_ne hj]
      exact hs j
  exact @invariant_along _ _ _ _ (fun s => ∀ i, I i (s i)) hall s es hs h i

/-- A step that does something only when there is something to do it to. -/
theorem elim_invariant {I : σ → Prop} {s : σ} {o : Option α} {f : α → σ} (hs : I s)
    (hf : ∀ a, o = some a → I (f a)) : I (o.elim s f) := by
  cases o with
  | none => exact hs
  | some a => exact hf a rfl

/-- A preorder that every step follows relates the ends of every run. -/
theorem rel_run {R : σ → σ → Prop} (refl : ∀ s, R s s) (trans : ∀ {a b c}, R a b → R b c → R a c)
    (hstep : ∀ s e, R s (step s e)) (s : σ) (es : List ε) : R s (run step s es) := by
  induction es generalizing s with
  | nil => exact refl s
  | cons e es ih => exact trans (hstep s e) (ih _)

/-- What a run puts out, step after step. -/
def outputs (step : σ → ε → σ) (out : σ → ε → List α) : σ → List ε → List α
  | _, [] => []
  | s, e :: es => out s e ++ outputs step out (step s e) es

/-- What every step from a state of the invariant puts out, a run from there puts out. -/
theorem outputs_along {out : σ → ε → List α} {I : σ → Prop} {P : α → Prop}
    (hstep : ∀ s e, I s → ok s e → I (step s e) ∧ ∀ a ∈ out s e, P a) {s : σ} {es : List ε}
    (hs : I s) (h : Along ok step s es) : ∀ a ∈ outputs step out s es, P a := by
  induction es generalizing s with
  | nil =>
    intro a ha
    cases ha
  | cons e es ih =>
    obtain ⟨hnext, hout⟩ := hstep s e hs h.1
    intro a ha
    rcases List.mem_append.mp ha with hnow | hlater
    · exact hout a hnow
    · exact ih hnext h.2 a hlater

/-- A rank that falls until something happens: it happens. -/
theorem exists_of_rank {I P : Nat → Prop} {rank : Nat → Nat} (h₀ : I 0)
    (hstep : ∀ n, I n → P n ∨ I (n + 1) ∧ rank (n + 1) < rank n) : ∃ n, P n := by
  by_contra hnever
  have hfall : ∀ n, I n ∧ rank n + n ≤ rank 0 := by
    intro n
    induction n with
    | zero => exact ⟨h₀, Nat.le_refl _⟩
    | succ n ih =>
      obtain ⟨hn, hle⟩ := ih
      rcases hstep n hn with hp | ⟨hnext, hlt⟩
      · exact absurd ⟨n, hp⟩ hnever
      · exact ⟨hnext, by omega⟩
  have hlow := (hfall (rank 0 + 1)).2
  omega

end QaPlatform.Transition
