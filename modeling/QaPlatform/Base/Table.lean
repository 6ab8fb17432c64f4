import Mathlib.Data.List.Basic
import Mathlib.Data.List.Nodup

/-! Keyed tables: lists of rows under distinct numbers, with a supply of numbers
no row has ever had. A table reads a row by its key, replaces a row by one with
the same key, adds a row under the next number and erases a row; the order of
the rows is the order in which they were added. -/

namespace QaPlatform

universe u

/-- The primary key of a row. -/
class Keyed (ρ : Type u) where
  key : ρ → Nat

export Keyed (key)

/-- Rows under distinct keys, all of them below the next one to hand out. -/
structure Table (ρ : Type u) [Keyed ρ] where
  rows : List ρ
  /-- The next key to hand out. -/
  next : Nat
  nodup : (rows.map key).Nodup
  bound : ∀ r ∈ rows, key r < next

namespace Table

variable {ρ : Type u} [Keyed ρ]

/-- The table before its first row. -/
def empty : Table ρ := ⟨[], 0, by simp, by simp⟩

instance : Inhabited (Table ρ) := ⟨empty⟩

/-- The row stored under a key. -/
def get? (t : Table ρ) (k : Nat) : Option ρ := t.rows.find? (fun r => key r = k)

/-- Replaces the row with the key of `r`; without such a row nothing changes. -/
def put (t : Table ρ) (r : ρ) : Table ρ where
  rows := t.rows.map (fun r' => if key r' = key r then r else r')
  next := t.next
  nodup := by
    have h : (t.rows.map (fun r' => if key r' = key r then r else r')).map key
        = t.rows.map key := by
      rw [List.map_map]
      refine List.map_congr_left (fun r' _ => ?_)
      by_cases hk : key r' = key r <;> simp [hk]
    rw [h]
    exact t.nodup
  bound := by
    intro x hx
    obtain ⟨y, hy, rfl⟩ := List.mem_map.mp hx
    have hb : key y < t.next := t.bound y hy
    by_cases hk : key y = key r
    · simpa [hk] using hb
    · simpa [hk] using hb

/-- `UPDATE`: what `f` makes of every row, which keeps its key. -/
def update (t : Table ρ) (f : ρ → ρ)
    (hf : ∀ r, key (f r) = key r := by intro r; simp; split <;> rfl) :
    Table ρ where
  rows := t.rows.map f
  next := t.next
  nodup := by
    have h : (t.rows.map f).map key = t.rows.map key := by
      rw [List.map_map]
      exact List.map_congr_left fun r _ => hf r
    rw [h]
    exact t.nodup
  bound := by
    intro r hr
    obtain ⟨r', hr', rfl⟩ := List.mem_map.mp hr
    rw [hf]
    exact t.bound r' hr'

/-- Appends the row that `f` makes of the next key. -/
def add (t : Table ρ) (f : Nat → ρ) (hf : ∀ k, key (f k) = k := by intro _; rfl) : Table ρ where
  rows := t.rows ++ [f t.next]
  next := t.next + 1
  nodup := by
    rw [List.map_append, List.nodup_append]
    refine ⟨t.nodup, by simp, fun k hk k' hk' => ?_⟩
    obtain ⟨r, hr, rfl⟩ := List.mem_map.mp hk
    obtain rfl : k' = t.next := by simpa [hf] using hk'
    exact Nat.ne_of_lt (t.bound r hr)
  bound := by
    intro r hr
    rcases List.mem_append.mp hr with hold | hnew
    · have := t.bound r hold
      omega
    · obtain rfl := List.mem_singleton.mp hnew
      rw [hf]
      omega

/-- Appends a row under a key that is not in use. -/
def insert (t : Table ρ) (r : ρ) (h : t.get? (key r) = none) : Table ρ where
  rows := t.rows ++ [r]
  next := max t.next (key r + 1)
  nodup := by
    rw [List.map_append, List.nodup_append]
    refine ⟨t.nodup, by simp, fun k hk k' hk' => ?_⟩
    obtain ⟨r', hr', rfl⟩ := List.mem_map.mp hk
    obtain rfl : k' = key r := by simpa using hk'
    simpa using List.find?_eq_none.mp h r' hr'
  bound := by
    intro r' hr'
    rcases List.mem_append.mp hr' with hold | hnew
    · have := t.bound r' hold
      omega
    · obtain rfl := List.mem_singleton.mp hnew
      omega

/-- Appends a row, unless its key is in use. -/
def insert? (t : Table ρ) (r : ρ) : Option (Table ρ) :=
  if h : t.get? (key r) = none then some (t.insert r h) else none

/-- `DELETE`: the rows that stay. -/
def keep (t : Table ρ) (p : ρ → Bool) : Table ρ where
  rows := t.rows.filter p
  next := t.next
  nodup := t.nodup.sublist (List.filter_sublist.map key)
  bound := fun r hr => t.bound r (List.mem_of_mem_filter hr)

/-- Removes the row under a key, which is not handed out again. -/
def erase (t : Table ρ) (k : Nat) : Table ρ where
  rows := t.rows.filter (fun r => key r ≠ k)
  next := t.next
  nodup := t.nodup.sublist (List.filter_sublist.map key)
  bound := fun r hr => t.bound r (List.mem_of_mem_filter hr)

/-! ## Reading -/

theorem key_of_get? {t : Table ρ} {k : Nat} {r : ρ} (h : t.get? k = some r) : key r = k := by
  simpa using List.find?_some h

theorem mem_of_get? {t : Table ρ} {k : Nat} {r : ρ} (h : t.get? k = some r) : r ∈ t.rows :=
  List.mem_of_find?_eq_some h

theorem get?_eq_some {t : Table ρ} {k : Nat} {r : ρ} :
    t.get? k = some r ↔ r ∈ t.rows ∧ key r = k := by
  refine ⟨fun h => ⟨mem_of_get? h, key_of_get? h⟩, ?_⟩
  rintro ⟨hr, rfl⟩
  cases h : t.get? (key r) with
  | none => simpa using List.find?_eq_none.mp h r hr
  | some r' =>
    rw [List.inj_on_of_nodup_map t.nodup (mem_of_get? h) hr (key_of_get? h)]

theorem get?_key {t : Table ρ} {r : ρ} (h : r ∈ t.rows) : t.get? (key r) = some r :=
  get?_eq_some.mpr ⟨h, rfl⟩

@[simp] theorem get?_empty (k : Nat) : (empty : Table ρ).get? k = none := rfl

/-- The next key is not in use. -/
@[simp] theorem get?_next (t : Table ρ) : t.get? t.next = none := by
  cases h : t.get? t.next with
  | none => rfl
  | some r =>
    have hlt : key r < t.next := t.bound r (mem_of_get? h)
    have hk : key r = t.next := key_of_get? h
    omega

theorem lt_next_of_get? {t : Table ρ} {k : Nat} {r : ρ} (h : t.get? k = some r) : k < t.next := by
  rw [← key_of_get? h]
  exact t.bound r (mem_of_get? h)

/-! ## Writing -/

theorem mem_put {t : Table ρ} {r x : ρ} (h : x ∈ (t.put r).rows) :
    x = r ∨ x ∈ t.rows ∧ key x ≠ key r := by
  obtain ⟨y, hy, rfl⟩ := List.mem_map.mp h
  by_cases hk : key y = key r
  · exact .inl (by simp [hk])
  · exact .inr (by simpa [hk] using hy)

/-- A replaced row reads back; every other row is as before. -/
theorem get?_put (t : Table ρ) (r : ρ) (k : Nat) :
    (t.put r).get? k = if key r = k then (t.get? k).map (fun _ => r) else t.get? k := by
  have hfind : ∀ l : List ρ,
      (l.map (fun r' => if key r' = key r then r else r')).find? (fun r => key r = k)
        = if key r = k then (l.find? (fun r => key r = k)).map (fun _ => r)
          else l.find? (fun r => key r = k) := by
    intro l
    induction l with
    | nil => simp
    | cons x l ih =>
      simp only [List.map_cons, List.find?_cons]
      by_cases hx : key x = key r
      · by_cases hk : key r = k
        · simp [hx, hk]
        · simp [hx, hk, ih]
      · rw [if_neg hx]
        by_cases hk : key x = k
        · have hr : ¬ key r = k := fun he => hx (hk.trans he.symm)
          simp [hk, hr]
        · simp [hk, ih]
  exact hfind t.rows

theorem get?_put_self {t : Table ρ} {k : Nat} {r r₀ : ρ} (h : t.get? k = some r₀)
    (hk : key r = k) : (t.put r).get? k = some r := by
  simp [get?_put, hk, h]

theorem get?_put_of_ne {t : Table ρ} {k : Nat} {r : ρ} (hk : key r ≠ k) :
    (t.put r).get? k = t.get? k := by
  simp [get?_put, hk]

/-- What is read after a row was replaced: the new row, or another one as before. -/
theorem get?_put_cases {t : Table ρ} {r r' x : ρ} {k : Nat} (hr : t.get? (key r) = some r)
    (h : (t.put r').get? k = some x) (hk : key r' = key r) :
    key r = k ∧ x = r' ∨ key r ≠ k ∧ t.get? k = some x := by
  rw [get?_put, hk] at h
  split at h
  · next hkey =>
    subst hkey
    rw [hr] at h
    exact .inl ⟨rfl, (Option.some.inj h).symm⟩
  · next hkey => exact .inr ⟨hkey, h⟩

/-- Of two rows written under one key the later one stays. -/
theorem put_put (t : Table ρ) {a b : ρ} (hk : key a = key b) : (t.put a).put b = t.put b := by
  have hrows : (t.put a).rows.map (fun r => if key r = key b then b else r)
      = t.rows.map (fun r => if key r = key b then b else r) := by
    show List.map _ (List.map _ t.rows) = _
    rw [List.map_map]
    refine List.map_congr_left fun r _ => ?_
    by_cases hr : key r = key b
    · simp [hk, hr]
    · simp [hk, hr]
  show Table.mk _ _ _ _ = Table.mk _ _ _ _
  simp only [hrows]
  rfl

/-- Writing a row back changes nothing. -/
theorem put_self {t : Table ρ} {r : ρ} (h : t.get? (key r) = some r) : t.put r = t := by
  have hrows : t.rows.map (fun r' => if key r' = key r then r else r') = t.rows := by
    conv_rhs => rw [← List.map_id t.rows]
    refine List.map_congr_left (fun r' hr' => ?_)
    by_cases hk : key r' = key r
    · have hsame : some r' = some r := by rw [← get?_key hr', hk, h]
      rw [if_pos hk, Option.some.inj hsame]
      rfl
    · rw [if_neg hk]
      rfl
  show Table.mk _ _ _ _ = t
  simp only [hrows]

/-- Replacing a row that a query passes over by another one it passes over. -/
theorem filter_put {t : Table ρ} {r r' : ρ} {p : ρ → Bool} (hr : t.get? (key r) = some r)
    (hk : key r' = key r) (hp : p r = false) (hp' : p r' = false) :
    (t.put r').rows.filter p = t.rows.filter p := by
  have hrows : ∀ l : List ρ, (∀ x ∈ l, x ∈ t.rows) →
      (l.map fun x => if key x = key r' then r' else x).filter p = l.filter p := by
    intro l hl
    induction l with
    | nil => rfl
    | cons x l ih =>
      have hrest := ih fun y hy => hl y (List.mem_cons_of_mem x hy)
      by_cases hx : key x = key r'
      · have hsame : some x = some r := by
          rw [← get?_key (hl x List.mem_cons_self), hx, hk, hr]
        obtain rfl := Option.some.inj hsame
        simp [hx, hp, hp', hrest]
      · by_cases hpx : p x
        · simp [hx, hpx, hrest]
        · simp [hx, hpx, hrest]
  exact hrows t.rows fun _ h => h

theorem get?_add (t : Table ρ) (f : Nat → ρ) (hf : ∀ k, key (f k) = k) (k : Nat) :
    (t.add f hf).get? k = if t.next = k then some (f t.next) else t.get? k := by
  by_cases hk : t.next = k
  · subst hk
    have hnone : t.get? t.next = none := t.get?_next
    simp only [get?] at hnone ⊢
    simp [add, List.find?_append, hnone, hf]
  · simp [get?, add, List.find?_append, hf, hk]

/-- Old rows read as before. -/
theorem get?_add_old {t : Table ρ} {f : Nat → ρ} {hf : ∀ k, key (f k) = k} {k : Nat} {r : ρ}
    (h : t.get? k = some r) : (t.add f hf).get? k = some r := by
  rw [get?_add, if_neg (Nat.ne_of_gt (lt_next_of_get? h)), h]

theorem mem_add {t : Table ρ} {f : Nat → ρ} {hf : ∀ k, key (f k) = k} {x : ρ}
    (h : x ∈ (t.add f hf).rows) : x ∈ t.rows ∨ x = f t.next := by
  simpa [add] using h

/-- A row that was inserted reads back, under a key that was not in use; every other row is as
before. -/
theorem get?_insert? {t t' : Table ρ} {r : ρ} (h : t.insert? r = some t') (k : Nat) :
    t.get? (key r) = none ∧ t'.get? k = if key r = k then some r else t.get? k := by
  unfold insert? at h
  split at h
  · next hnone =>
    obtain rfl := Option.some.inj h
    refine ⟨hnone, ?_⟩
    show List.find? _ (t.rows ++ [r]) = _
    rw [List.find?_append]
    by_cases hk : key r = k
    · subst hk
      have hold : t.rows.find? (fun x => key x = key r) = none := hnone
      simp [hold]
    · simp [get?, hk]
  · simp at h

theorem get?_erase (t : Table ρ) (k k' : Nat) :
    (t.erase k).get? k' = if k = k' then none else t.get? k' := by
  by_cases hk : k = k'
  · subst hk
    simp [get?, erase, List.find?_eq_none]
  · simp only [get?, erase, List.find?_filter, if_neg hk]
    congr 1
    funext r
    by_cases hr : key r = k'
    · simp [hr, Ne.symm hk]
    · simp [hr]

/-! ## Many rows -/

/-- Replaces the rows of a list, one after the other, by what `f` makes of them. -/
def putAll (t : Table ρ) (f : ρ → ρ) (records : List ρ) : Table ρ :=
  records.foldl (fun t r => t.put (f r)) t

@[simp] theorem next_putAll (t : Table ρ) (f : ρ → ρ) (records : List ρ) :
    (t.putAll f records).next = t.next := by
  induction records generalizing t with
  | nil => rfl
  | cons r records ih => exact ih (t.put (f r))

theorem get?_putAll {t : Table ρ} {f : ρ → ρ} {records : List ρ} (hf : ∀ r, key (f r) = key r)
    (hnodup : (records.map key).Nodup) (hrecords : ∀ r ∈ records, t.get? (key r) = some r)
    (k : Nat) :
    (t.putAll f records).get? k
      = (t.get? k).map fun r => if key r ∈ records.map key then f r else r := by
  induction records generalizing t with
  | nil => simp [putAll]
  | cons r records ih =>
    rw [List.map_cons, List.nodup_cons] at hnodup
    have hr : t.get? (key r) = some r := hrecords r List.mem_cons_self
    have hrest : ∀ x ∈ records, (t.put (f r)).get? (key x) = some x := by
      intro x hx
      have hne : key (f r) ≠ key x := by
        rw [hf]
        exact fun he => hnodup.1 (he ▸ List.mem_map_of_mem hx)
      rw [get?_put_of_ne hne]
      exact hrecords x (List.mem_cons_of_mem r hx)
    show ((t.put (f r)).putAll f records).get? k = _
    rw [ih hnodup.2 hrest]
    by_cases hk : key r = k
    · subst hk
      rw [get?_put_self hr (hf r), hr, Option.map_some, Option.map_some, hf, if_neg hnodup.1,
        List.map_cons, if_pos List.mem_cons_self]
    · rw [get?_put_of_ne (by rw [hf]; exact hk)]
      cases hx : t.get? k with
      | none => rfl
      | some x =>
        have hne : key x ≠ key r := by
          rw [key_of_get? hx]
          exact Ne.symm hk
        simp [hne]

/-- The rows that a query finds are replaced, in whatever order. -/
theorem get?_putAll_filter {t : Table ρ} {f : ρ → ρ} {p : ρ → Prop} [DecidablePred p]
    {records : List ρ} (hf : ∀ r, key (f r) = key r)
    (hperm : records.Perm (t.rows.filter fun r => p r)) (k : Nat) :
    (t.putAll f records).get? k = (t.get? k).map fun r => if p r then f r else r := by
  have hnodup : (records.map key).Nodup := by
    rw [(hperm.map key).nodup_iff]
    exact t.nodup.sublist (List.filter_sublist.map key)
  have hmem : ∀ r, r ∈ records ↔ r ∈ t.rows ∧ p r := fun r => by
    rw [hperm.mem_iff, List.mem_filter, decide_eq_true_eq]
  rw [get?_putAll hf hnodup fun r hr => get?_key ((hmem r).mp hr).1]
  cases hr : t.get? k with
  | none => rfl
  | some r =>
    have hin : key r ∈ records.map key ↔ p r := by
      refine ⟨fun h => ?_, fun h => List.mem_map_of_mem ((hmem r).mpr ⟨mem_of_get? hr, h⟩)⟩
      obtain ⟨x, hx, hkey⟩ := List.mem_map.mp h
      have hsame : some x = some r := by
        rw [← get?_key ((hmem x).mp hx).1, hkey, key_of_get? hr, hr]
      obtain rfl := Option.some.inj hsame
      exact ((hmem x).mp hx).2
    simp only [Option.map_some, hin]

end Table

end QaPlatform
