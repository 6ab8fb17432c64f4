import Mathlib.Data.List.Count
import Mathlib.Data.List.Nodup

/-!
# Counters

A counter is the list of the keys it has been incremented at. Keys with two coordinates are
added up over the buckets of one of them: what has been counted under some field is in one of
the buckets, if they cover all that has been counted.
-/

namespace QaPlatform.Counters

universe u v w
variable {α : Type u} {β : Type v}

/-- The sum of a list. -/
def total (values : List Nat) : Nat := values.foldr (· + ·) 0

@[simp] theorem total_nil : total [] = 0 := rfl

@[simp] theorem total_cons (value : Nat) (values : List Nat) :
    total (value :: values) = value + total values := rfl

theorem total_append (as bs : List Nat) : total (as ++ bs) = total as + total bs := by
  induction as with
  | nil => simp
  | cons a as ih =>
    rw [List.cons_append, total_cons, total_cons, ih]
    omega

theorem total_map_add (f g : α → Nat) (xs : List α) :
    total (xs.map fun x => f x + g x) = total (xs.map f) + total (xs.map g) := by
  induction xs with
  | nil => rfl
  | cons x xs ih =>
    simp only [List.map_cons, total_cons, ih]
    omega

theorem total_map_zero {f : α → Nat} {xs : List α} (h : ∀ x ∈ xs, f x = 0) :
    total (xs.map f) = 0 := by
  induction xs with
  | nil => rfl
  | cons x xs ih =>
    rw [List.map_cons, total_cons, h x List.mem_cons_self,
      ih fun y hy => h y (List.mem_cons_of_mem _ hy)]

@[simp] theorem total_replicate (n value : Nat) : total (List.replicate n value) = n * value := by
  induction n with
  | zero => simp
  | succ n ih =>
    rw [List.replicate_succ, total_cons, ih, Nat.succ_mul]
    omega

theorem total_map_ite (p : α → Bool) (xs : List α) :
    total (xs.map fun x => if p x then 1 else 0) = xs.countP p := by
  induction xs with
  | nil => rfl
  | cons x xs ih =>
    rw [List.map_cons, total_cons, ih, List.countP_cons]
    omega

theorem total_map_length (f : α → List β) (xs : List α) :
    total (xs.map fun x => (f x).length) = (xs.flatMap f).length := by
  induction xs with
  | nil => rfl
  | cons x xs ih => rw [List.map_cons, total_cons, ih, List.flatMap_cons, List.length_append]

theorem countP_flatMap (p : β → Bool) (f : α → List β) (xs : List α) :
    (xs.flatMap f).countP p = total (xs.map fun x => (f x).countP p) := by
  induction xs with
  | nil => rfl
  | cons x xs ih => rw [List.flatMap_cons, List.countP_append, ih, List.map_cons, total_cons]

theorem total_perm {as bs : List Nat} (h : as.Perm bs) : total as = total bs := by
  induction h with
  | nil => rfl
  | cons a _ ih => rw [total_cons, total_cons, ih]
  | swap a b as =>
    simp only [total_cons]
    omega
  | trans _ _ ih ih' => rw [ih, ih']

/-- Each element is as often in its classes as it is in the list, once for each class. -/
theorem count_flatMap_filter [DecidableEq α] (p : β → α → Bool) (classes : List β) (xs : List α)
    (a : α) : (classes.flatMap fun c => xs.filter (p c)).count a
      = classes.countP (p · a) * xs.count a := by
  induction classes with
  | nil => simp
  | cons c classes ih =>
    rw [List.flatMap_cons, List.count_append, ih, List.countP_cons]
    by_cases hp : p c a
    · rw [List.count_filter hp, if_pos hp, Nat.add_mul, Nat.one_mul, Nat.add_comm]
    · rw [List.count_eq_zero.mpr fun hmem => hp (List.mem_filter.mp hmem).2, if_neg hp]
      simp

/-! ## Buckets -/

section
variable [DecidableEq α] [DecidableEq β]

/-- The one bucket that a key is in. -/
theorem total_buckets_single {buckets : List α} (hnodup : buckets.Nodup) {a : α} (h : a ∈ buckets)
    (n : Nat) : total (buckets.map fun bucket => if bucket = a then n else 0) = n := by
  induction buckets with
  | nil => cases h
  | cons bucket buckets ih =>
    obtain ⟨hnew, hnodup⟩ := List.nodup_cons.mp hnodup
    rw [List.map_cons, total_cons]
    by_cases hbucket : bucket = a
    · subst hbucket
      have hrest : total (buckets.map fun other => if other = bucket then n else 0) = 0 := by
        refine total_map_zero fun other hother => if_neg ?_
        rintro rfl
        exact hnew hother
      rw [hrest, if_pos rfl]
      omega
    · rw [if_neg hbucket, ih hnodup ((List.mem_cons.mp h).resolve_left (Ne.symm hbucket))]
      omega

/-- A field over all the buckets. -/
theorem total_buckets {buckets : List α} (hnodup : buckets.Nodup) (field : β) {log : List (α × β)}
    (hcover : ∀ key ∈ log, key.2 = field → key.1 ∈ buckets) :
    total (buckets.map fun bucket => log.count (bucket, field)) = log.countP (·.2 = field) := by
  induction log with
  | nil => exact total_map_zero fun _ _ => rfl
  | cons key log ih =>
    have hrest := ih fun k hk => hcover k (List.mem_cons_of_mem _ hk)
    have hsplit : (fun bucket => (key :: log).count (bucket, field))
        = fun bucket => log.count (bucket, field)
          + if bucket = key.1 then (if key.2 = field then 1 else 0) else 0 := by
      funext bucket
      rw [List.count_cons]
      by_cases hbucket : bucket = key.1
      · subst hbucket
        by_cases hfield : key.2 = field
        · subst hfield
          simp
        · have hne : ¬ key = (key.1, field) := fun h => hfield (congrArg Prod.snd h)
          simp [hne, hfield]
      · have hne : ¬ key = (bucket, field) := fun h => hbucket (congrArg Prod.fst h).symm
        simp [hne, hbucket]
    rw [hsplit, total_map_add, hrest, List.countP_cons]
    by_cases hfield : key.2 = field
    · rw [total_buckets_single hnodup (hcover key List.mem_cons_self hfield)]
      simp [hfield]
    · have hnone : total (buckets.map fun bucket =>
          if bucket = key.1 then (if key.2 = field then 1 else 0) else 0) = 0 :=
        total_map_zero fun bucket _ => by simp [hfield]
      rw [hnone]
      simp [hfield]

/-! ## First occurrences -/

/-- The elements in the order in which they first come. -/
def firsts (xs : List α) : List α :=
  xs.foldl (fun seen x => if x ∈ seen then seen else seen ++ [x]) []

theorem mem_firsts_aux (seen xs : List α) (x : α) :
    x ∈ xs.foldl (fun seen x => if x ∈ seen then seen else seen ++ [x]) seen
      ↔ x ∈ seen ∨ x ∈ xs := by
  induction xs generalizing seen with
  | nil => simp
  | cons y xs ih =>
    rw [List.foldl_cons, ih, List.mem_cons]
    split
    · next hy =>
      constructor
      · exact fun h => h.imp_right .inr
      · rintro (h | rfl | h)
        · exact .inl h
        · exact .inl hy
        · exact .inr h
    · rw [List.mem_append, List.mem_singleton, or_assoc]

theorem mem_firsts {xs : List α} {x : α} : x ∈ firsts xs ↔ x ∈ xs := by
  rw [firsts, mem_firsts_aux]
  simp

end

/-- What never falls rises from each of its first occurrences to the next. -/
theorem firsts_increasing {xs : List Int} (h : xs.Pairwise (· ≤ ·)) :
    (firsts xs).Pairwise (· < ·) := by
  have haux : ∀ (xs seen : List Int), xs.Pairwise (· ≤ ·) → seen.Pairwise (· < ·) →
      (∀ a ∈ seen, ∀ x ∈ xs, a ≤ x) →
      (xs.foldl (fun seen x => if x ∈ seen then seen else seen ++ [x]) seen).Pairwise (· < ·) := by
    intro xs
    induction xs with
    | nil => exact fun seen _ hseen _ => hseen
    | cons x xs ih =>
      intro seen hxs hseen hle
      obtain ⟨hx, hxs⟩ := List.pairwise_cons.mp hxs
      rw [List.foldl_cons]
      split
      · exact ih seen hxs hseen fun a ha y hy => hle a ha y (List.mem_cons_of_mem _ hy)
      · next hnew =>
        apply ih (seen ++ [x]) hxs
        · rw [List.pairwise_append]
          refine ⟨hseen, List.pairwise_singleton _ _, fun a ha b hb => ?_⟩
          rw [List.mem_singleton.mp hb]
          have hle := hle a ha x List.mem_cons_self
          have hne : a ≠ x := by
            rintro rfl
            exact hnew ha
          omega
        · intro a ha y hy
          rcases List.mem_append.mp ha with ha | ha
          · exact hle a ha y (List.mem_cons_of_mem _ hy)
          · rw [List.mem_singleton.mp ha]
            exact hx y hy
  exact haux xs [] h .nil fun _ ha => absurd ha List.not_mem_nil

/-! ## Gathering -/

/-- What each element contributes, or the first of the errors. -/
def gather {ε : Type w} (f : α → Except ε (List β)) : List α → Except ε (List β)
  | [] => .ok []
  | x :: xs => do
    let first ← f x
    let rest ← gather f xs
    return first ++ rest

section
variable {ε : Type w} {f : α → Except ε (List β)} {xs : List α} {ys : List β}

theorem gather_cons_eq_ok {x : α} :
    gather f (x :: xs) = .ok ys ↔ ∃ first rest, f x = .ok first ∧ gather f xs = .ok rest
      ∧ first ++ rest = ys := by
  cases hx : f x with
  | error e => simp [gather, hx, bind, Except.bind]
  | ok first =>
    cases hxs : gather f xs with
    | error e => simp [gather, hx, hxs, bind, Except.bind]
    | ok rest => simp [gather, hx, hxs, bind, Except.bind, pure, Except.pure]

theorem gather_ok (h : ∀ x ∈ xs, ∃ first, f x = .ok first) : ∃ ys, gather f xs = .ok ys := by
  induction xs with
  | nil => exact ⟨[], rfl⟩
  | cons x xs ih =>
    obtain ⟨first, hfirst⟩ := h x List.mem_cons_self
    obtain ⟨rest, hrest⟩ := ih fun y hy => h y (List.mem_cons_of_mem _ hy)
    exact ⟨first ++ rest, gather_cons_eq_ok.mpr ⟨first, rest, hfirst, hrest, rfl⟩⟩

theorem mem_of_gather (h : gather f xs = .ok ys) {x : α} (hx : x ∈ xs) :
    ∃ first, f x = .ok first := by
  induction xs generalizing ys with
  | nil => cases hx
  | cons z xs ih =>
    obtain ⟨first, rest, hfirst, hrest, -⟩ := gather_cons_eq_ok.mp h
    rcases List.mem_cons.mp hx with rfl | hx
    · exact ⟨first, hfirst⟩
    · exact ih hrest hx

/-- What has been gathered, and how much of it is under each of the fields. -/
theorem gather_spec {φ : Type w} {Q : β → Prop} {p : φ → β → Bool} {g : φ → α → Nat}
    (h : ∀ x ∈ xs, ∃ first, f x = .ok first ∧ (∀ y ∈ first, Q y)
      ∧ ∀ field, first.countP (p field) = g field x) :
    ∃ ys, gather f xs = .ok ys ∧ (∀ y ∈ ys, Q y)
      ∧ ∀ field, ys.countP (p field) = total (xs.map (g field)) := by
  induction xs with
  | nil => exact ⟨[], rfl, fun _ hy => absurd hy List.not_mem_nil, fun _ => rfl⟩
  | cons x xs ih =>
    obtain ⟨first, hfirst, hfirstQ, hcount⟩ := h x List.mem_cons_self
    obtain ⟨rest, hrest, hrestQ, htotal⟩ := ih fun y hy => h y (List.mem_cons_of_mem _ hy)
    refine ⟨first ++ rest, gather_cons_eq_ok.mpr ⟨first, rest, hfirst, hrest, rfl⟩,
      fun y hy => ?_, fun field => ?_⟩
    · exact (List.mem_append.mp hy).elim (hfirstQ y) (hrestQ y)
    · rw [List.countP_append, hcount, htotal, List.map_cons, total_cons]

end

end QaPlatform.Counters
