import Mathlib.Init

/-! Rows in the order of some of their columns, as `ORDER BY` names them. -/

namespace QaPlatform

universe u
variable {ρ : Type u}

/-- The first list of columns comes no later than the second. -/
def columnsLe : List Int → List Int → Bool
  | [], _ => true
  | _ :: _, [] => false
  | a :: as, b :: bs => a < b ∨ a = b ∧ columnsLe as bs

theorem columnsLe_total (as bs : List Int) : columnsLe as bs ∨ columnsLe bs as := by
  induction as generalizing bs with
  | nil => simp [columnsLe]
  | cons a as ih =>
    cases bs with
    | nil => simp [columnsLe]
    | cons b bs =>
      simp only [columnsLe, decide_eq_true_eq]
      rcases Int.lt_trichotomy a b with hlt | rfl | hgt
      · exact .inl (.inl hlt)
      · rcases ih bs with h | h
        · exact .inl (.inr ⟨rfl, h⟩)
        · exact .inr (.inr ⟨rfl, h⟩)
      · exact .inr (.inl hgt)

theorem columnsLe_trans {as bs cs : List Int} (h : columnsLe as bs) (h' : columnsLe bs cs) :
    columnsLe as cs := by
  induction as generalizing bs cs with
  | nil => simp [columnsLe]
  | cons a as ih =>
    cases bs with
    | nil => simp [columnsLe] at h
    | cons b bs =>
      cases cs with
      | nil => simp [columnsLe] at h'
      | cons c cs =>
        simp only [columnsLe, decide_eq_true_eq] at h h' ⊢
        rcases h with hlt | ⟨rfl, h⟩
        · rcases h' with hlt' | ⟨rfl, -⟩
          · exact .inl (by omega)
          · exact .inl hlt
        · rcases h' with hlt' | ⟨rfl, h'⟩
          · exact .inl hlt'
          · exact .inr ⟨rfl, ih h h'⟩

theorem columnsLe_antisymm {as bs : List Int} (h : columnsLe as bs) (h' : columnsLe bs as) :
    as = bs := by
  induction as generalizing bs with
  | nil =>
    cases bs with
    | nil => rfl
    | cons b bs => simp [columnsLe] at h'
  | cons a as ih =>
    cases bs with
    | nil => simp [columnsLe] at h
    | cons b bs =>
      simp only [columnsLe, decide_eq_true_eq] at h h'
      rcases h with hlt | ⟨rfl, h⟩
      · rcases h' with hlt' | ⟨rfl, -⟩
        · omega
        · omega
      · rcases h' with hlt' | ⟨-, h'⟩
        · omega
        · rw [ih h h']

/-- `ORDER BY … LIMIT 1`; of equal rows the earlier one. -/
def firstBy (columns : ρ → List Int) : List ρ → Option ρ
  | [] => none
  | r :: rows =>
    match firstBy columns rows with
    | none => some r
    | some best => if columnsLe (columns r) (columns best) then some r else some best

theorem mem_of_firstBy {columns : ρ → List Int} {rows : List ρ} {r : ρ}
    (h : firstBy columns rows = some r) : r ∈ rows := by
  induction rows with
  | nil => simp [firstBy] at h
  | cons x rows ih =>
    unfold firstBy at h
    split at h
    · obtain rfl := Option.some.inj h
      exact List.mem_cons_self
    next best hbest =>
    split at h
    · obtain rfl := Option.some.inj h
      exact List.mem_cons_self
    · obtain rfl := Option.some.inj h
      exact List.mem_cons_of_mem x (ih hbest)

theorem firstBy_eq_none {columns : ρ → List Int} {rows : List ρ} :
    firstBy columns rows = none ↔ rows = [] := by
  cases rows with
  | nil => simp [firstBy]
  | cons x rows =>
    unfold firstBy
    split
    · simp
    · split
      · simp
      · simp

/-- No row comes before the first one. -/
theorem firstBy_le {columns : ρ → List Int} {rows : List ρ} {r x : ρ}
    (h : firstBy columns rows = some r) (hx : x ∈ rows) : columnsLe (columns r) (columns x) := by
  induction rows generalizing r with
  | nil => simp at hx
  | cons y rows ih =>
    unfold firstBy at h
    split at h
    · next hnone =>
      obtain rfl := Option.some.inj h
      rw [firstBy_eq_none.mp hnone] at hx
      obtain rfl := List.mem_singleton.mp hx
      exact or_self_iff.mp (columnsLe_total _ _)
    next best hbest =>
    split at h
    · next hle =>
      obtain rfl := Option.some.inj h
      rcases List.mem_cons.mp hx with rfl | hx
      · exact or_self_iff.mp (columnsLe_total _ _)
      · exact columnsLe_trans hle (ih hbest hx)
    · next hnot =>
      obtain rfl := Option.some.inj h
      rcases List.mem_cons.mp hx with rfl | hx
      · exact (columnsLe_total (columns x) (columns best)).resolve_left hnot
      · exact ih hbest hx

end QaPlatform
