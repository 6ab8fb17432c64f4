import Mathlib.Data.List.Nodup
import Mathlib.Order.Defs.PartialOrder

/-!
# Spans, one after another

Every span ends before the next ones begin. A point lies in one of them at most, whatever
the spans are; one that is empty holds none.
-/

namespace QaPlatform.Spans

universe u v
variable {α : Type u} {τ : Type v} [Preorder τ] {start finish : α → τ} {l front back : List α}
  {a : α}

/-- Each element ends before the next one starts. -/
def InOrder (start finish : α → τ) (l : List α) : Prop :=
  l.Pairwise fun a b => finish a ≤ start b

/-- The spans that end no later than the one in the middle begins. -/
theorem InOrder.front_le (h : InOrder start finish (front ++ a :: back)) :
    ∀ b ∈ front, finish b ≤ start a := by
  intro b hb
  exact (List.pairwise_append.mp h).2.2 b hb a List.mem_cons_self

/-- The spans that begin no earlier than the one in the middle ends. -/
theorem InOrder.le_back (h : InOrder start finish (front ++ a :: back)) :
    ∀ b ∈ back, finish a ≤ start b := by
  intro b hb
  exact List.rel_of_pairwise_cons (List.pairwise_append.mp h).2.1 hb

/-- Two spans do not hold the same point. -/
theorem InOrder.length_filter_le (h : InOrder start finish l) {t : τ} {p : α → Bool}
    (hp : ∀ b ∈ l, p b = true → start b ≤ t ∧ t < finish b) : (l.filter p).length ≤ 1 := by
  have hpairs : InOrder start finish (l.filter p) := List.Pairwise.filter p h
  have hholds : ∀ b ∈ l.filter p, start b ≤ t ∧ t < finish b := by
    intro b hb
    obtain ⟨hmem, hholds⟩ := List.mem_filter.mp hb
    exact hp b hmem hholds
  cases hl : l.filter p with
  | nil => simp
  | cons b rest =>
    cases rest with
    | nil => simp
    | cons c rest =>
      rw [hl] at hpairs hholds
      have hle : finish b ≤ start c := List.rel_of_pairwise_cons hpairs List.mem_cons_self
      have hb := hholds b List.mem_cons_self
      have hc := hholds c (List.mem_cons_of_mem _ List.mem_cons_self)
      exact absurd (lt_of_lt_of_le hb.2 (le_trans hle hc.1)) (lt_irrefl t)

/-- Whoever looks up every key of a list finds the list. -/
theorem filterMap_find?_keys {κ : Type v} [DecidableEq κ] {key : α → κ}
    (h : (l.map key).Nodup) :
    (l.map key).filterMap (fun k => l.find? fun b => key b = k) = l := by
  have hfind : ∀ b ∈ l, l.find? (fun c => key c = key b) = some b := by
    intro b hb
    cases hfound : l.find? (fun c => key c = key b) with
    | none => simpa using List.find?_eq_none.mp hfound b hb
    | some c =>
      have hkey : key c = key b := by simpa using List.find?_some hfound
      rw [List.inj_on_of_nodup_map h (List.mem_of_find?_eq_some hfound) hb hkey]
  rw [List.filterMap_map]
  calc l.filterMap ((fun k => l.find? fun b => key b = k) ∘ key)
      = l.filterMap some := List.filterMap_congr fun b hb => hfind b hb
    _ = l := List.filterMap_some

end QaPlatform.Spans
