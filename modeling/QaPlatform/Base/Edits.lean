import Mathlib.Data.List.Forall2
import QaPlatform.Base.Effects

/-!
# Code that edits a record

A record is changed in place by code that may raise and then leaves what it has changed. The
parts of a record are edited where they stand. `Moves` follows such code along a view of the
record, and `Keeps` says what it does to the record however it ends.
-/

namespace QaPlatform

universe u
variable {ε σ ρ τ υ α β : Type u}

/-- A computation that edits a state and may raise; what it has edited before it raises stays
edited. -/
def Edit (ε σ α : Type u) : Type u := σ → σ × Except ε α

namespace Edit

instance : Monad (Edit ε σ) where
  pure a := fun s => (s, .ok a)
  bind x f := fun s => andThen (x s) fun s a => f a s

/-- The state as it is. -/
def read : Edit ε σ σ := fun s => (s, .ok s)

/-- The state is replaced. -/
def update (f : σ → σ) : Edit ε σ PUnit := fun s => (f s, .ok ⟨⟩)

/-- Nothing is edited, and an error is raised. -/
def raise (e : ε) : Edit ε σ α := fun s => (s, .error e)

/-- What does not touch the record. -/
def lift (x : Except ε α) : Edit ε σ α := fun s => (s, x)

/-- Edits a part. -/
def zoom (get : σ → ρ) (set : ρ → σ → σ) (x : Edit ε ρ α) : Edit ε σ α := fun s =>
  (set (x (get s)).1 s, (x (get s)).2)

/-- Edits the entry at an index. -/
def nth (missing : ε) (x : Edit ε ρ PUnit) (i : Nat) : Edit ε (List ρ) PUnit := fun l =>
  match l[i]? with
  | none => (l, .error missing)
  | some a => (l.set i (x a).1, (x a).2)

/-- Edits the entries in turn, up to the first that raises. -/
def each (x : Edit ε ρ PUnit) : Edit ε (List ρ) PUnit
  | [] => ([], .ok ⟨⟩)
  | a :: l =>
    match (x a).2 with
    | .error e => ((x a).1 :: l, .error e)
    | .ok _ => ((x a).1 :: (each x l).1, (each x l).2)

section
variable {x : Edit ε σ α} {f : α → Edit ε σ β} {s : σ}

theorem bind_of_ok {a : α} (h : (x s).2 = .ok a) : (x >>= f) s = f a (x s).1 := andThen_ok h

theorem bind_of_error {e : ε} (h : (x s).2 = .error e) : (x >>= f) s = ((x s).1, .error e) :=
  andThen_error h

theorem bind_eq_of_ok {s' : σ} {a : α} (h : x s = (s', .ok a)) : (x >>= f) s = f a s' := by
  rw [bind_of_ok (congrArg Prod.snd h), h]

theorem bind_eq_of_error {s' : σ} {e : ε} (h : x s = (s', .error e)) :
    (x >>= f) s = (s', .error e) := by
  rw [bind_of_error (congrArg Prod.snd h), h]

@[simp] theorem pure_apply (a : α) (s : σ) : (pure a : Edit ε σ α) s = (s, .ok a) := rfl

@[simp] theorem raise_apply (e : ε) (s : σ) : (raise e : Edit ε σ α) s = (s, .error e) := rfl

@[simp] theorem read_bind (f : σ → Edit ε σ β) (s : σ) : (read >>= f) s = f s s := rfl

@[simp] theorem lift_ok_bind (a : α) (f : α → Edit ε σ β) (s : σ) :
    (lift (.ok a) >>= f) s = f a s := rfl

@[simp] theorem lift_error_bind (e : ε) (f : α → Edit ε σ β) (s : σ) :
    (lift (.error e : Except ε α) >>= f) s = (s, .error e) := rfl

@[simp] theorem update_bind (g : σ → σ) (f : PUnit → Edit ε σ β) (s : σ) :
    (update g >>= f) s = f ⟨⟩ (g s) := rfl

end

/-! ## Where an edit leads -/

/-- From a record that looks like `a` the code does not raise and leaves one that looks like `b`. -/
def Moves (view : σ → τ) (x : Edit ε σ PUnit) (a b : τ) : Prop :=
  ∀ s, view s = a → ∃ s', x s = (s', .ok ⟨⟩) ∧ view s' = b

section
variable {view : σ → τ} {x y : Edit ε σ PUnit} {a b c : τ}

theorem moves_pure (view : σ → τ) (a : τ) : Moves view (pure ⟨⟩ : Edit ε σ PUnit) a a :=
  fun s h => ⟨s, rfl, h⟩

theorem Moves.bind {f : PUnit → Edit ε σ PUnit} (hx : Moves view x a b)
    (hf : Moves view (f ⟨⟩) b c) :
    Moves view (x >>= f) a c := by
  intro s hs
  obtain ⟨s', hs', hb⟩ := hx s hs
  obtain ⟨t, ht, hc⟩ := hf s' hb
  refine ⟨t, ?_, hc⟩
  rw [bind_eq_of_ok hs']
  exact ht

/-- From a record that looks like `a` the code leaves one that looks like `b`, unless it raises. -/
def Leaves (view : σ → τ) (x : Edit ε σ PUnit) (a b : τ) : Prop :=
  ∀ s s', view s = a → x s = (s', .ok ⟨⟩) → view s' = b

theorem Moves.leaves_bind {f : PUnit → Edit ε σ PUnit} (hx : Moves view x a b)
    (hf : Leaves view (f ⟨⟩) b c) : Leaves view (x >>= f) a c := by
  intro s s' hs h
  obtain ⟨t, ht, hb⟩ := hx s hs
  rw [bind_eq_of_ok ht] at h
  exact hf t s' hb h

/-- What is read looks like `a`. -/
theorem moves_read {f : σ → Edit ε σ PUnit} (h : ∀ s, view s = a → Moves view (f s) a b) :
    Moves view (read >>= f) a b :=
  fun s hs => h s hs s hs

/-- Where the code leads from one record. -/
theorem Moves.bind_apply {f : PUnit → Edit ε σ β} (hx : Moves view x a b) {s : σ}
    (hs : view s = a) :
    ∃ s', (x >>= f) s = f ⟨⟩ s' ∧ view s' = b := by
  obtain ⟨s', hs', hb⟩ := hx s hs
  exact ⟨s', bind_eq_of_ok hs', hb⟩

theorem Moves.zoom {get : σ → ρ} {set : ρ → σ → σ} {x : Edit ε ρ PUnit} {part : ρ → υ} {a' b' : υ}
    (hget : ∀ s, view s = a → part (get s) = a')
    (hset : ∀ s r, view s = a → part r = b' → view (set r s) = b) (hx : Moves part x a' b') :
    Moves view (zoom get set x) a b := by
  intro s hs
  obtain ⟨r, hr, hb⟩ := hx (get s) (hget s hs)
  refine ⟨set r s, ?_, hset s r hs hb⟩
  simp only [Edit.zoom, hr]

theorem Moves.nth {missing : ε} {i : Nat} {l : List τ} (hi : l[i]? = some a)
    (hx : Moves view x a b) : Moves (List.map view) (nth missing x i) l (l.set i b) := by
  rintro s rfl
  rw [List.getElem?_map, Option.map_eq_some_iff] at hi
  obtain ⟨r, hr, ha⟩ := hi
  obtain ⟨r', hr', hb⟩ := hx r ha
  refine ⟨s.set i r', ?_, ?_⟩
  · simp only [Edit.nth, hr, hr']
  · rw [List.map_set, hb]

theorem Moves.each {f : τ → τ} (hx : ∀ a, Moves view x a (f a)) (l : List τ) :
    Moves (List.map view) (each x) l (l.map f) := by
  rintro s rfl
  induction s with
  | nil => exact ⟨[], rfl, rfl⟩
  | cons r s ih =>
    obtain ⟨r', hr', hf⟩ := hx (view r) r rfl
    obtain ⟨s', hs', hmap⟩ := ih
    refine ⟨r' :: s', ?_, ?_⟩
    · simp only [Edit.each, hr', hs']
    · rw [List.map_cons, hf, hmap]
      rfl

end

/-! ## What an edit keeps -/

/-- The record before and the one after, whether the code raises or not. -/
def Keeps (R : σ → σ → Prop) (x : Edit ε σ α) : Prop := ∀ s, R s (x s).1

section
variable {R : σ → σ → Prop}

theorem keeps_pure (hrefl : ∀ s, R s s) (a : α) : Keeps R (pure a : Edit ε σ α) := hrefl

theorem keeps_raise (hrefl : ∀ s, R s s) (e : ε) : Keeps R (raise e : Edit ε σ α) := hrefl

theorem keeps_lift (hrefl : ∀ s, R s s) (x : Except ε α) : Keeps R (lift x : Edit ε σ α) := hrefl

theorem Keeps.bind (htrans : ∀ {s t u}, R s t → R t u → R s u) {x : Edit ε σ α}
    {f : α → Edit ε σ β} (hx : Keeps R x) (hf : ∀ a, Keeps R (f a)) : Keeps R (x >>= f) := by
  intro s
  cases h : (x s).2 with
  | error e =>
    rw [bind_of_error h]
    exact hx s
  | ok a =>
    rw [bind_of_ok h]
    exact htrans (hx s) (hf a (x s).1)

theorem keeps_read {f : σ → Edit ε σ α} (hf : ∀ s, R s (f s s).1) : Keeps R (read >>= f) := hf

theorem Keeps.zoom {get : σ → ρ} {set : ρ → σ → σ} {x : Edit ε ρ α} {P : ρ → ρ → Prop}
    (hset : ∀ s r, P (get s) r → R s (set r s)) (hx : Keeps P x) : Keeps R (zoom get set x) :=
  fun s => hset s _ (hx (get s))

end

section
variable {P : ρ → ρ → Prop}

theorem forall₂_set (hrefl : ∀ r, P r r) {l : List ρ} {i : Nat} {a b : ρ} (hi : l[i]? = some a)
    (hab : P a b) : List.Forall₂ P l (l.set i b) := by
  induction l generalizing i with
  | nil => simp at hi
  | cons r l ih =>
    cases i with
    | zero =>
      obtain rfl : r = a := by simpa using hi
      exact .cons hab (List.forall₂_same.mpr fun r _ => hrefl r)
    | succ i => exact .cons (hrefl r) (ih (by simpa using hi))

theorem exists_of_forall₂ {l l' : List ρ} (h : List.Forall₂ P l l') {b : ρ} (hb : b ∈ l') :
    ∃ a ∈ l, P a b := by
  induction h with
  | nil => exact absurd hb List.not_mem_nil
  | cons hab _ ih =>
    rcases List.mem_cons.mp hb with rfl | hb
    · exact ⟨_, List.mem_cons_self, hab⟩
    · obtain ⟨a, ha, hp⟩ := ih hb
      exact ⟨a, List.mem_cons_of_mem _ ha, hp⟩

theorem getElem?_of_forall₂ {l l' : List ρ} (h : List.Forall₂ P l l') {i : Nat} {b : ρ}
    (hb : l'[i]? = some b) : ∃ a, l[i]? = some a ∧ P a b := by
  induction h generalizing i with
  | nil => simp at hb
  | @cons a b' l l' hab _ ih =>
    cases i with
    | zero =>
      obtain rfl : b' = b := by simpa using hb
      exact ⟨a, rfl, hab⟩
    | succ i => exact ih hb

theorem Keeps.nth (hrefl : ∀ r, P r r) {missing : ε} {x : Edit ε ρ PUnit} (hx : Keeps P x)
    (i : Nat) : Keeps (List.Forall₂ P) (nth missing x i) := by
  intro l
  unfold Edit.nth
  split
  · exact List.forall₂_same.mpr fun r _ => hrefl r
  · next a hi => exact forall₂_set hrefl hi (hx a)

theorem Keeps.each (hrefl : ∀ r, P r r) {x : Edit ε ρ PUnit} (hx : Keeps P x) :
    Keeps (List.Forall₂ P) (each x) := by
  intro l
  induction l with
  | nil => exact .nil
  | cons a l ih =>
    unfold Edit.each
    split
    · exact .cons (hx a) (List.forall₂_same.mpr fun r _ => hrefl r)
    · exact .cons (hx a) ih

end

end Edit

end QaPlatform
