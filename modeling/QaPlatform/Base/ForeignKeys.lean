import QaPlatform.Base.Table

/-! Rows that name rows of another table by their keys, as foreign keys do, and what writes of
either table leave of that. -/

namespace QaPlatform

variable {ρ τ : Type} [Keyed ρ] [Keyed τ]

/-- Every key that a row names is that of a row to which it may refer. -/
def Refers (rows : Table ρ) (targets : Table τ) (keys : ρ → List Nat) (allowed : ρ → τ → Prop) :
    Prop :=
  ∀ r ∈ rows.rows, ∀ k ∈ keys r, ∃ t, targets.get? k = some t ∧ allowed r t

namespace Refers

variable {rows rows' : Table ρ} {targets : Table τ} {keys : ρ → List Nat} {allowed : ρ → τ → Prop}

theorem empty : Refers .empty targets keys allowed := fun _ h => absurd h List.not_mem_nil

/-- The rows have been there, or what they name is. -/
theorem write (h : Refers rows targets keys allowed)
    (hrows : ∀ r ∈ rows'.rows, r ∈ rows.rows
      ∨ ∀ k ∈ keys r, ∃ t, targets.get? k = some t ∧ allowed r t) :
    Refers rows' targets keys allowed := by
  intro r hr
  rcases hrows r hr with hold | hnew
  · exact h r hold
  · exact hnew

theorem add (h : Refers rows targets keys allowed) {f : Nat → ρ} (hf : ∀ k, key (f k) = k)
    (hnew : ∀ k ∈ keys (f rows.next), ∃ t, targets.get? k = some t ∧ allowed (f rows.next) t) :
    Refers (rows.add f hf) targets keys allowed := by
  apply h.write
  intro r hr
  rcases @Table.mem_add _ _ _ _ hf _ hr with hold | rfl
  · exact .inl hold
  · exact .inr hnew

theorem put (h : Refers rows targets keys allowed) {r : ρ}
    (hnew : ∀ k ∈ keys r, ∃ t, targets.get? k = some t ∧ allowed r t) :
    Refers (rows.put r) targets keys allowed := by
  apply h.write
  intro x hx
  rcases Table.mem_put hx with rfl | ⟨hold, -⟩
  · exact .inr hnew
  · exact .inl hold

theorem erase (h : Refers rows targets keys allowed) (k : Nat) :
    Refers (rows.erase k) targets keys allowed :=
  h.write fun _ hr => .inl (List.mem_of_mem_filter hr)

theorem addTarget (h : Refers rows targets keys allowed) {f : Nat → τ} (hf : ∀ k, key (f k) = k) :
    Refers rows (targets.add f hf) keys allowed := by
  intro r hr k hk
  obtain ⟨t, hget, hallowed⟩ := h r hr k hk
  exact ⟨t, @Table.get?_add_old _ _ _ _ hf _ _ hget, hallowed⟩

/-- A target is replaced by one that may be referred to all the same. -/
theorem putTarget (h : Refers rows targets keys allowed) {t t' : τ}
    (hget : targets.get? (key t') = some t)
    (hallowed : ∀ r ∈ rows.rows, allowed r t → allowed r t') :
    Refers rows (targets.put t') keys allowed := by
  intro r hr k hk
  obtain ⟨found, hfound, hr'⟩ := h r hr k hk
  by_cases hsame : key t' = k
  · subst hsame
    rw [hget] at hfound
    obtain rfl := Option.some.inj hfound
    exact ⟨t', Table.get?_put_self hget rfl, hallowed r hr hr'⟩
  · exact ⟨found, by rw [Table.get?_put_of_ne hsame, hfound], hr'⟩

/-- A target that no row names is erased. -/
theorem eraseTarget (h : Refers rows targets keys allowed) {k : Nat}
    (hunused : ∀ r ∈ rows.rows, k ∉ keys r) : Refers rows (targets.erase k) keys allowed := by
  intro r hr k' hk'
  obtain ⟨t, hget, hallowed⟩ := h r hr k' hk'
  have hne : k ≠ k' := fun hsame => hunused r hr (hsame ▸ hk')
  exact ⟨t, by rw [Table.get?_erase, if_neg hne, hget], hallowed⟩

end Refers

end QaPlatform
