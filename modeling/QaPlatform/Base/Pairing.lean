import QaPlatform.Base.Order
import QaPlatform.Base.Table

/-! Two tables that hold related rows under the same keys: what the same write does
to both, and that a query that reads related rows alike finds related rows. -/

namespace QaPlatform.Table

universe u v
variable {ρ : Type u} {ρ' : Type v} [Keyed ρ] [Keyed ρ']

/-- Two tables with the same keys, whose rows are related one by one. -/
structure Paired (R : ρ → ρ' → Prop) (t : Table ρ) (t' : Table ρ') : Prop where
  next : t.next = t'.next
  rows : ∀ k, Option.Rel R (t.get? k) (t'.get? k)

variable {R : ρ → ρ' → Prop} {t : Table ρ} {t' : Table ρ'} {k : Nat} {r : ρ} {r' : ρ'}

theorem paired_empty : Paired R (.empty : Table ρ) (.empty : Table ρ') where
  next := rfl
  rows _ := .none

/-! ## Reading -/

theorem Paired.partner (h : Paired R t t') (hr : t.get? k = some r) :
    ∃ r', t'.get? k = some r' ∧ R r r' := by
  have hrows := h.rows k
  rw [hr] at hrows
  cases hrow : t'.get? k with
  | none =>
    rw [hrow] at hrows
    nomatch hrows
  | some r' =>
    rw [hrow] at hrows
    cases hrows with
    | some hR => exact ⟨r', rfl, hR⟩

theorem Paired.no_partner (h : Paired R t t') (hr : t.get? k = none) : t'.get? k = none := by
  have hrows := h.rows k
  rw [hr] at hrows
  cases hrow : t'.get? k with
  | none => rfl
  | some r' =>
    rw [hrow] at hrows
    nomatch hrows

/-- The relation seen from the other side. -/
theorem Paired.flip (h : Paired R t t') : Paired (fun r' r => R r r') t' t where
  next := h.next.symm
  rows k := by
    cases hr : t.get? k with
    | none =>
      rw [h.no_partner hr]
      exact .none
    | some r =>
      obtain ⟨r', hr', hR⟩ := h.partner hr
      rw [hr']
      exact .some hR

/-- The rows of one table have partners in the other. -/
theorem Paired.mem_partner (h : Paired R t t') (hr : r ∈ t.rows) :
    ∃ r' ∈ t'.rows, key r' = key r ∧ R r r' := by
  obtain ⟨r', hr', hR⟩ := h.partner (get?_key hr)
  exact ⟨r', mem_of_get? hr', key_of_get? hr', hR⟩

/-! ## Writing -/

theorem Paired.put (h : Paired R t t') (hR : R r r') (hk : key r = key r') :
    Paired R (t.put r) (t'.put r') where
  next := h.next
  rows k := by
    rw [get?_put, get?_put, hk]
    have hrows := h.rows k
    by_cases hkey : key r' = k
    · rw [if_pos hkey, if_pos hkey]
      cases hrow : t.get? k with
      | none =>
        rw [h.no_partner hrow]
        exact .none
      | some x =>
        obtain ⟨x', hx', -⟩ := h.partner hrow
        rw [hx']
        exact .some hR
    · rw [if_neg hkey, if_neg hkey]
      exact hrows

theorem Paired.add (h : Paired R t t') {f : Nat → ρ} {f' : Nat → ρ'} {hf : ∀ k, key (f k) = k}
    {hf' : ∀ k, key (f' k) = k} (hR : R (f t.next) (f' t.next)) :
    Paired R (t.add f hf) (t'.add f' hf') where
  next := congrArg (· + 1) h.next
  rows k := by
    rw [get?_add, get?_add, ← h.next]
    by_cases hk : t.next = k
    · rw [if_pos hk, if_pos hk]
      exact .some hR
    · rw [if_neg hk, if_neg hk]
      exact h.rows k

/-- Every row is rewritten. -/
theorem Paired.map (h : Paired R t t') {t₁ : Table ρ} {t₁' : Table ρ'} {f : ρ → ρ} {f' : ρ' → ρ'}
    (hnext : t₁.next = t.next) (hnext' : t₁'.next = t'.next)
    (ht : ∀ k, t₁.get? k = (t.get? k).map f) (ht' : ∀ k, t₁'.get? k = (t'.get? k).map f')
    (hf : ∀ r r', R r r' → R (f r) (f' r')) : Paired R t₁ t₁' where
  next := by rw [hnext, hnext', h.next]
  rows k := by
    rw [ht, ht']
    cases hr : t.get? k with
    | none =>
      rw [h.no_partner hr]
      exact .none
    | some r =>
      obtain ⟨r', hr', hR⟩ := h.partner hr
      rw [hr']
      exact .some (hf r r' hR)

/-! ## Queries -/

/-- The first row of a query that reads related rows alike and orders rows down to
their keys. -/
theorem Paired.firstBy (h : Paired R t t') {columns : ρ → List Int} {columns' : ρ' → List Int}
    {p : ρ → Bool} {p' : ρ' → Bool} (hcolumns : ∀ r r', R r r' → columns r = columns' r')
    (hp : ∀ r r', R r r' → p r = p' r')
    (hkey : ∀ r x, columns r = columns x → key r = key x) :
    Option.Rel R (QaPlatform.firstBy columns (t.rows.filter p))
      (QaPlatform.firstBy columns' (t'.rows.filter p')) := by
  cases hfirst : QaPlatform.firstBy columns (t.rows.filter p) with
  | none =>
    have hnone : t'.rows.filter p' = [] := by
      rw [List.filter_eq_nil_iff]
      intro x' hx' hpx'
      obtain ⟨x, hx, -, hR⟩ := h.flip.mem_partner hx'
      have hpx := List.filter_eq_nil_iff.mp (firstBy_eq_none.mp hfirst) x hx
      exact hpx (by rw [hp x x' hR, hpx'])
    rw [firstBy_eq_none.mpr hnone]
    exact .none
  | some r =>
    obtain ⟨hr, hpr⟩ := List.mem_filter.mp (mem_of_firstBy hfirst)
    obtain ⟨r', hr', hkr, hR⟩ := h.mem_partner hr
    have hmem' : r' ∈ t'.rows.filter p' := List.mem_filter.mpr ⟨hr', by rw [← hp r r' hR, hpr]⟩
    cases hfirst' : QaPlatform.firstBy columns' (t'.rows.filter p') with
    | none =>
      rw [firstBy_eq_none.mp hfirst'] at hmem'
      nomatch hmem'
    | some x' =>
      obtain ⟨hx', hpx'⟩ := List.mem_filter.mp (mem_of_firstBy hfirst')
      obtain ⟨x, hx, hkx, hRx⟩ := h.flip.mem_partner hx'
      have hmem : x ∈ t.rows.filter p := List.mem_filter.mpr ⟨hx, by rw [hp x x' hRx, hpx']⟩
      have hle : columnsLe (columns r) (columns x) := firstBy_le hfirst hmem
      have hge : columnsLe (columns x) (columns r) := by
        rw [hcolumns x x' hRx, hcolumns r r' hR]
        exact firstBy_le hfirst' hmem'
      have hsame : key r = key x := hkey r x (columnsLe_antisymm hle hge)
      have hrow : some r' = some x' := by
        rw [← get?_key hr', ← get?_key hx', hkr, hsame, hkx]
      obtain rfl := Option.some.inj hrow
      exact .some hR

end QaPlatform.Table
