import Mathlib.Logic.Function.Basic

/-! Row locks of transactions. A transaction takes the lock of a row when no
other one holds it, keeps it for as long as it runs and gives all its locks back
at once when it ends. What is proved of a row under its lock stays true because
nobody else can hold the lock meanwhile: taking and releasing by others leave an
owner in place (`Held.take`, `Held.release`). -/

namespace QaPlatform

universe u v

/-- Which transaction holds each row. -/
structure RowLocks (ρ : Type u) (τ : Type v) where
  owner : ρ → Option τ

namespace RowLocks

variable {ρ : Type u} {τ : Type v} {l : RowLocks ρ τ} {r q : ρ} {t x : τ}

/-- No row is held. -/
def free : RowLocks ρ τ := ⟨fun _ => none⟩

/-- Transaction `t` holds the lock of row `r`. -/
def Held (l : RowLocks ρ τ) (r : ρ) (t : τ) : Prop := l.owner r = some t

instance [DecidableEq τ] : Decidable (l.Held r t) := by
  unfold Held
  infer_instance

/-- The lock of `r` can be had by `t`; otherwise `t` has to wait. -/
def Available (l : RowLocks ρ τ) (r : ρ) (t : τ) : Prop := ∀ x ∈ l.owner r, x = t

instance [DecidableEq τ] : Decidable (l.Available r t) := by
  unfold Available
  infer_instance

/-- A transaction takes a row. -/
def take [DecidableEq ρ] (l : RowLocks ρ τ) (r : ρ) (t : τ) : RowLocks ρ τ :=
  ⟨Function.update l.owner r (some t)⟩

/-- The end of a transaction. -/
def release [DecidableEq τ] (l : RowLocks ρ τ) (t : τ) : RowLocks ρ τ :=
  ⟨fun r => if l.owner r = some t then none else l.owner r⟩

/-- A lock has one holder. -/
theorem Held.unique (h : l.Held r t) (h' : l.Held r x) : t = x :=
  Option.some.inj (h.symm.trans h')

theorem held_take [DecidableEq ρ] : (l.take r t).Held r t := by
  simp [Held, take]

/-- A lock that `t` could have is not held by another transaction. -/
theorem Held.eq_of_available (h : l.Held r x) (ha : l.Available r t) : x = t := ha x h

/-- Locks stay with their holders when another transaction takes one. -/
theorem Held.take [DecidableEq ρ] (h : l.Held q x) (ha : l.Available r t) :
    (l.take r t).Held q x := by
  by_cases hq : q = r
  · subst hq
    obtain rfl := h.eq_of_available ha
    exact held_take
  · show Function.update l.owner r (some t) q = some x
    rw [Function.update_of_ne hq]
    exact h

/-- What `t` could have it can have after it has taken another lock. -/
theorem Available.take [DecidableEq ρ] (h : l.Available q t) : (l.take r t).Available q t := by
  intro x hx
  by_cases hq : q = r
  · subst hq
    exact (Held.unique held_take hx).symm
  · have hold : (l.take r t).owner q = l.owner q := Function.update_of_ne hq _ _
    exact h x (hold ▸ hx)

/-- Takes the locks of several rows. -/
def takeAll [DecidableEq ρ] (l : RowLocks ρ τ) (rs : List ρ) (t : τ) : RowLocks ρ τ :=
  rs.foldl (fun l r => l.take r t) l

theorem Held.takeAll [DecidableEq ρ] {rs : List ρ} (h : l.Held q x)
    (ha : ∀ r ∈ rs, l.Available r t) : (l.takeAll rs t).Held q x := by
  induction rs generalizing l with
  | nil => exact h
  | cons r rs ih =>
    refine ih (h.take (ha r List.mem_cons_self)) fun r' hr' => ?_
    exact (ha r' (List.mem_cons_of_mem r hr')).take

theorem held_takeAll [DecidableEq ρ] {rs : List ρ} (ha : ∀ r ∈ rs, l.Available r t) (hq : q ∈ rs) :
    (l.takeAll rs t).Held q t := by
  induction rs generalizing l with
  | nil => exact absurd hq List.not_mem_nil
  | cons r rs ih =>
    have hrest : ∀ r' ∈ rs, (l.take r t).Available r' t :=
      fun r' hr' => (ha r' (List.mem_cons_of_mem r hr')).take
    rcases List.mem_cons.mp hq with rfl | hq
    · exact Held.takeAll (l := l.take q t) held_take hrest
    · exact ih hrest hq

/-- Locks stay with their holders when another transaction ends. -/
theorem Held.release [DecidableEq τ] (h : l.Held q x) (hne : x ≠ t) : (l.release t).Held q x := by
  have hx : l.owner q = some x := h
  have hnot : l.owner q ≠ some t := by
    intro ht
    exact hne (Option.some.inj (hx.symm.trans ht))
  show (if l.owner q = some t then none else l.owner q) = some x
  rw [if_neg hnot]
  exact hx

end RowLocks

end QaPlatform
