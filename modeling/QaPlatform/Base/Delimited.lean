import Mathlib.Data.List.TakeWhile
import Mathlib.Order.Basic

/-! Texts put together from parts with a delimiter between them, read as lists of
characters: what the parts can be told from. -/

namespace QaPlatform.Delimited

universe u
variable {α : Type u} {a : α}

/-- The part before the first delimiter and the rest are unique. -/
theorem eq_of_append_cons {x y u v : List α} (hx : a ∉ x) (hy : a ∉ y)
    (h : x ++ a :: u = y ++ a :: v) : x = y ∧ u = v := by
  induction x generalizing y with
  | nil =>
    cases y with
    | nil => simpa using h
    | cons b y =>
      have hb : a = b := (List.cons.inj h).1
      exact absurd hb (fun he => hy (he ▸ List.mem_cons_self))
  | cons b x ih =>
    cases y with
    | nil =>
      have hb : b = a := (List.cons.inj h).1
      exact absurd hb (fun he => hx (he ▸ List.mem_cons_self))
    | cons c y =>
      obtain ⟨rfl, hrest⟩ := List.cons.inj h
      obtain ⟨rfl, rfl⟩ := ih (fun he => hx (List.mem_cons_of_mem _ he))
        (fun he => hy (List.mem_cons_of_mem _ he)) hrest
      exact ⟨rfl, rfl⟩

/-- Texts that end differently differ. -/
theorem ne_of_last_ne {x y : List α} {b c : α} (h : b ≠ c) : x ++ [b] ≠ y ++ [c] := by
  intro he
  have hlast : (x ++ [b]).getLast? = (y ++ [c]).getLast? := by rw [he]
  simp only [List.getLast?_append, List.getLast?_singleton, Option.some_or] at hlast
  exact h (Option.some.inj hlast)

/-! ## Delimited texts -/

/-- A text that has the delimiter is a part without it, the delimiter and the rest. -/
theorem exists_of_mem [DecidableEq α] {text : List α} (h : a ∈ text) :
    ∃ part rest, text = part ++ a :: rest ∧ a ∉ part := by
  induction text with
  | nil => cases h
  | cons b text ih =>
    by_cases hb : b = a
    · exact ⟨[], text, by rw [hb, List.nil_append], List.not_mem_nil⟩
    · obtain ⟨part, rest, rfl, hpart⟩ := ih ((List.mem_cons.mp h).resolve_left (Ne.symm hb))
      refine ⟨b :: part, rest, rfl, fun hmem => ?_⟩
      exact (List.mem_cons.mp hmem).elim (fun he => hb he.symm) hpart

theorem takeWhile_append_cons [DecidableEq α] {part : List α} (h : a ∉ part) (rest : List α) :
    (part ++ a :: rest).takeWhile (· ≠ a) = part := by
  rw [List.takeWhile_append_of_pos]
  · simp
  · intro b hb
    exact decide_eq_true fun he => h (he ▸ hb)

theorem dropWhile_append_cons [DecidableEq α] {part : List α} (h : a ∉ part) (rest : List α) :
    (part ++ a :: rest).dropWhile (· ≠ a) = a :: rest := by
  rw [List.dropWhile_append_of_pos]
  · simp
  · intro b hb
    exact decide_eq_true fun he => h (he ▸ hb)

theorem takeWhile_of_notMem [DecidableEq α] {text : List α} (h : a ∉ text) :
    text.takeWhile (· ≠ a) = text :=
  List.takeWhile_eq_self_iff.mpr fun _ hb => decide_eq_true fun he => h (he ▸ hb)

/-! ## Words -/

section
variable {p : α → Bool}

/-- The words of a text: what is left of it without the elements that separate. -/
def words (p : α → Bool) (text : List α) : List (List α) := (text.splitOnP p).filter (! ·.isEmpty)

/-- Words with separators between them, and perhaps before the first and after the last. -/
inductive Separated (p : α → Bool) : List α → List (List α) → Prop
  | nil {blank : List α} : (∀ c ∈ blank, p c = true) → Separated p blank []
  | last {blank word : List α} : (∀ c ∈ blank, p c = true) → word ≠ [] → (∀ c ∈ word, p c = false) →
      Separated p (blank ++ word) [word]
  | cons {blank word rest : List α} {b : α} {ws : List (List α)} : (∀ c ∈ blank, p c = true) →
      word ≠ [] → (∀ c ∈ word, p c = false) → p b = true → Separated p rest ws →
      Separated p (blank ++ (word ++ b :: rest)) (word :: ws)

theorem words_of_blank {blank : List α} (h : ∀ c ∈ blank, p c = true) (text : List α) :
    words p (blank ++ text) = words p text := by
  induction blank with
  | nil => rfl
  | cons b blank ih =>
    have hb := h b List.mem_cons_self
    rw [← ih fun c hc => h c (List.mem_cons_of_mem _ hc)]
    simp [words, List.splitOnP_cons_eq_if_modifyHead, hb]

theorem words_of_word {word : List α} (hne : word ≠ []) (h : ∀ c ∈ word, p c = false) :
    words p word = [word] := by
  simp [words, List.splitOnP_eq_singleton h, hne]

theorem words_append_cons {word rest : List α} {b : α} (hne : word ≠ [])
    (h : ∀ c ∈ word, p c = false) (hb : p b = true) :
    words p (word ++ b :: rest) = word :: words p rest := by
  simp [words, List.splitOnP_append_cons_of_forall_mem h b hb, hne]

theorem Separated.words_eq {text : List α} {ws : List (List α)} (h : Separated p text ws) :
    words p text = ws := by
  induction h with
  | nil hblank => simpa [words] using words_of_blank hblank []
  | last hblank hne hword => rw [words_of_blank hblank, words_of_word hne hword]
  | cons hblank hne hword hb _ ih => rw [words_of_blank hblank, words_append_cons hne hword hb, ih]

/-- The first word of a text that is not all blank, and what comes after it. -/
theorem exists_word (p : α → Bool) (text : List α) : (∀ c ∈ text, p c = true) ∨
    ∃ blank word rest, text = blank ++ (word ++ rest) ∧ (∀ c ∈ blank, p c = true) ∧ word ≠ []
      ∧ (∀ c ∈ word, p c = false) ∧ (rest = [] ∨ ∃ b rest', rest = b :: rest' ∧ p b = true) := by
  induction text with
  | nil => exact .inl fun c hc => (List.not_mem_nil hc).elim
  | cons a text ih =>
    cases ha : p a with
    | true =>
      obtain hblank | ⟨blank, word, rest, rfl, hblank, hword⟩ := ih
      · exact .inl (List.forall_mem_cons.mpr ⟨ha, hblank⟩)
      · exact .inr ⟨a :: blank, word, rest, rfl, List.forall_mem_cons.mpr ⟨ha, hblank⟩, hword⟩
    | false =>
      -- the first word goes on when what follows starts with one
      refine .inr ⟨[], a :: text.takeWhile (! p ·), text.dropWhile (! p ·), ?_, ?_, ?_, ?_, ?_⟩
      · simp
      · exact fun c hc => (List.not_mem_nil hc).elim
      · simp
      · refine List.forall_mem_cons.mpr ⟨ha, fun c hc => ?_⟩
        simpa using List.mem_takeWhile_imp hc
      · cases hrest : text.dropWhile (! p ·) with
        | nil => exact .inl rfl
        | cons b rest' =>
          refine .inr ⟨b, rest', rfl, ?_⟩
          have hstop := List.head_dropWhile_not (! p ·) (l := text) (by simp [hrest])
          simpa [hrest] using hstop

theorem separated_words (p : α → Bool) (text : List α) : Separated p text (words p text) := by
  induction hlength : text.length using Nat.strongRecOn generalizing text with
  | ind n ih =>
    obtain hblank | ⟨blank, word, rest, rfl, hblank, hne, hword, hrest⟩ := exists_word p text
    · have hnone : words p text = [] := (Separated.nil hblank).words_eq
      rw [hnone]
      exact .nil hblank
    · rw [words_of_blank hblank]
      obtain rfl | ⟨b, rest, rfl, hb⟩ := hrest
      · rw [List.append_nil, words_of_word hne hword]
        exact .last hblank hne hword
      · rw [words_append_cons hne hword hb]
        refine .cons hblank hne hword hb (ih rest.length ?_ rest rfl)
        simp only [List.length_append, List.length_cons] at hlength
        omega

theorem separated_iff {text : List α} {ws : List (List α)} :
    Separated p text ws ↔ words p text = ws :=
  ⟨Separated.words_eq, fun h => h ▸ separated_words p text⟩

end

end QaPlatform.Delimited
