import Mathlib.Data.List.Sort
import QaPlatform.Base.Grouped
import QaPlatform.Services.ImportPayloads

/-!
# Step rows of an import

The rows of the second sheet are grouped by their keys and put in the order of their positions
(`_ordered_children`), and a step is read of each (`_test_step_map`, `_reproduction_step_map`). A
row is kept under its key or reported; under a key that nothing is reported of, all rows are kept.

`Children` is the first loop as it is in the source: a list of what is grouped, with its
positions, and a list of issues, each under its key. Its standing invariant gives for every row
one of the two. The second loop reads the rows of a key in the order of their positions, so what
is read has the order of the positions and not that of the sheet.
-/

namespace QaPlatform.Services.DataTransferService

/-- `grouped` and `issues`. -/
structure Children where
  grouped : Grouped String (Int × RawImportRow)
  issues : Grouped String ImportIssue

/-- An issue is kept for the key of its row. -/
def Children.report (c : Children) (key : String) (issue : ImportIssue) : Children :=
  { c with issues := c.issues ++ [(key, issue)] }

/-- The position of a row; `ValueError` is `none`. -/
def position? (i : Interpreter) (source : RawImportRow) : Option Int :=
  i.int (strip (source.cell "position"))

/-- A round of `_ordered_children`. The positions of a key are those of its rows. -/
def orderedChild (i : Interpreter) (c : Children) (source : RawImportRow) : Children :=
  let key := rowKey source
  if key = "" then
    c.report ("__orphan_" ++ toString source.row)
      (issue i source "row_key" "blank_row_key" "row_key 不能为空" .null)
  else
    match position? i source with
    | none => c.report key (issue i source "position" "invalid_position" "position 必须是正整数" .null)
    | some position =>
      if position < 1 then
        c.report key (issue i source "position" "invalid_position" "position 必须从 1 开始" .null)
      else if position ∈ (c.grouped.get key).map (·.1) then
        c.report key (issue i source "position" "duplicate_position" "同一 row_key 的 position 不能重复"
          (.integer position))
      else { c with grouped := c.grouped ++ [(key, (position, source))] }

/-- The first loop over the child rows: their positions, key by key. -/
def orderedChildren (i : Interpreter) (rows : List RawImportRow) : Children :=
  rows.foldl (orderedChild i) ⟨[], []⟩

/-- `[item for _, item in sorted(values)]`: the positions are different. -/
def Children.sorted (c : Children) (key : String) : List RawImportRow :=
  ((c.grouped.get key).insertionSort (·.1 ≤ ·.1)).map (·.2)

section
variable {α : Type}

/-- The steps of each key, and the issues; a row is a step or an issue. -/
def childMap (i : Interpreter) (read : RawImportRow → Except ImportIssue α)
    (rows : List RawImportRow) :
    List (String × List α) × Grouped String ImportIssue :=
  let c := orderedChildren i rows
  let keys := c.grouped.keys
  (keys.map fun key => (key, (c.sorted key).filterMap fun source => (read source).toOption),
    c.issues ++ keys.flatMap fun key => (c.sorted key).filterMap fun source =>
      match read source with
      | .ok _ => none
      | .error issue => some (key, issue))

/-- `child_map.get(key, [])`. -/
def stepsOf (steps : List (String × List α)) (key : String) : List α := (steps.lookup key).getD []

end

/-- The step of a row of the sheet `steps`. -/
def readTestStep (i : Interpreter) (source : RawImportRow) : Except ImportIssue JsonObject :=
  let action := strip (source.cell "action")
  let expected := strip (source.cell "expected_result")
  if action = "" ∨ expected = "" then
    .error (issue i source "action/expected_result" "incomplete_step"
      "步骤 action 与 expected_result 均不能为空" .null)
  else .ok [("action", .text action), ("expected_result", .text expected)]

/-- The step of a row of the sheet `reproduction_steps`. -/
def readReproductionStep (i : Interpreter) (source : RawImportRow) : Except ImportIssue String :=
  let value := strip (source.cell "step")
  if value = "" then
    .error (issue i source "step" "blank_reproduction_step" "复现步骤不能为空" .null)
  else .ok value

/-- `_test_step_map`. -/
def testStepMap (i : Interpreter) := childMap i (readTestStep i)

/-- `_reproduction_step_map`. -/
def reproductionStepMap (i : Interpreter) := childMap i (readReproductionStep i)

/-! ## Nothing is lost -/

/-- The rows of a key, all of them, from the least position to the greatest. -/
def InOrder (i : Interpreter) (rows : List RawImportRow) (key : String)
    (children : List RawImportRow) : Prop :=
  children.Perm (rows.filter (rowKey · = key))
    ∧ children.Pairwise fun a b => ∃ p q, position? i a = some p ∧ position? i b = some q ∧ p < q

/-- The issue is on the row. -/
def IsOn (found : ImportIssue) (source : RawImportRow) : Prop :=
  found.sheet = source.sheet ∧ found.row = source.row ∧ found.rowKey = rowKey source

section
variable {i : Interpreter} {c : Children} {rows : List RawImportRow} {source : RawImportRow}
  {key : String}

/-- Where the loop is, after some rows. -/
structure Children.Standing (i : Interpreter) (rows : List RawImportRow) (c : Children) : Prop where
  entries : ∀ entry ∈ c.grouped, position? i entry.2.2 = some entry.2.1
    ∧ entry.2.2 ∈ rows ∧ rowKey entry.2.2 = entry.1
  nodup : ∀ key, ((c.grouped.get key).map (·.1)).Nodup
  errors : ∀ entry ∈ c.issues, entry.2.severity = .error
  kept : ∀ child ∈ rows, rowKey child ≠ "" ∧ (∃ p, (rowKey child, (p, child)) ∈ c.grouped)
    ∨ ∃ entry ∈ c.issues, IsOn entry.2 child
  whole : ∀ key ≠ "", (∀ entry ∈ c.issues, entry.1 ≠ key) →
    (c.grouped.get key).map (·.2) = rows.filter (rowKey · = key)

/-- A row is reported, under its key if it has one. -/
theorem Children.Standing.report (h : c.Standing i rows) {found : ImportIssue}
    (herror : found.severity = .error) (hrow : IsOn found source)
    (hkey : rowKey source ≠ "" → key = rowKey source) :
    (c.report key found).Standing i (rows ++ [source]) := by
  have hmem : (key, found) ∈ (c.report key found).issues :=
    List.mem_append_right _ (List.mem_singleton_self _)
  refine ⟨fun entry hentry => ?_, h.nodup, fun entry hentry => ?_, fun child hchild => ?_,
    fun other hother hclean => ?_⟩
  · obtain ⟨hposition, hold, hsame⟩ := h.entries entry hentry
    exact ⟨hposition, List.mem_append_left _ hold, hsame⟩
  · rcases List.mem_append.mp hentry with hold | hnew
    · exact h.errors entry hold
    · rw [List.mem_singleton.mp hnew]
      exact herror
  · rcases List.mem_append.mp hchild with hold | hnew
    · refine (h.kept child hold).imp_right fun ⟨entry, hentry, hsame⟩ => ?_
      exact ⟨entry, List.mem_append_left _ hentry, hsame⟩
    · rw [List.mem_singleton.mp hnew]
      exact .inr ⟨_, hmem, hrow⟩
  · have hne : ¬ rowKey source = other := by
      rintro rfl
      exact hclean _ hmem (hkey hother)
    have hold := h.whole other hother fun entry hentry =>
      hclean entry (List.mem_append_left _ hentry)
    show (c.grouped.get other).map (·.2) = _
    rw [List.filter_append, List.filter_singleton, decide_eq_false hne, hold]
    simp

/-- A row is put under its key, at a position of its own. -/
theorem Children.Standing.put (h : c.Standing i rows) {p : Int} (hkey : rowKey source ≠ "")
    (hposition : position? i source = some p)
    (hnew : p ∉ (c.grouped.get (rowKey source)).map (·.1)) :
    ({ c with grouped := c.grouped ++ [(rowKey source, (p, source))] } : Children).Standing i
      (rows ++ [source]) := by
  have hmem : (rowKey source, (p, source)) ∈ c.grouped ++ [(rowKey source, (p, source))] :=
    List.mem_append_right _ (List.mem_singleton_self _)
  refine ⟨fun entry hentry => ?_, fun key => ?_, h.errors, fun child hchild => ?_,
    fun key hne hclean => ?_⟩
  · rcases List.mem_append.mp hentry with hold | hlast
    · obtain ⟨hposition, hrow, hsame⟩ := h.entries entry hold
      exact ⟨hposition, List.mem_append_left _ hrow, hsame⟩
    · rw [List.mem_singleton.mp hlast]
      exact ⟨hposition, List.mem_append_right _ (List.mem_singleton_self _), rfl⟩
  · by_cases hsame : rowKey source = key
    · subst hsame
      rw [Grouped.get_append_self, List.map_append, List.nodup_append]
      refine ⟨h.nodup _, List.nodup_singleton _, fun a ha b hb => ?_⟩
      rw [List.mem_singleton.mp hb]
      rintro rfl
      exact hnew ha
    · rw [Grouped.get_append_of_ne _ hsame]
      exact h.nodup key
  · rcases List.mem_append.mp hchild with hold | hlast
    · refine (h.kept child hold).imp_left fun ⟨hkey, p, hp⟩ => ?_
      exact ⟨hkey, p, List.mem_append_left _ hp⟩
    · rw [List.mem_singleton.mp hlast]
      exact .inl ⟨hkey, p, hmem⟩
  · have hold := h.whole key hne hclean
    rw [List.filter_append, List.filter_singleton]
    by_cases hsame : rowKey source = key
    · subst hsame
      rw [Grouped.get_append_self, List.map_append, hold, decide_eq_true rfl]
      rfl
    · rw [Grouped.get_append_of_ne _ hsame, hold, decide_eq_false hsame]
      simp

theorem Children.Standing.next (h : c.Standing i rows) (source : RawImportRow) :
    (orderedChild i c source).Standing i (rows ++ [source]) := by
  dsimp only [orderedChild]
  split
  · next hblank => exact h.report rfl ⟨rfl, rfl, rfl⟩ fun hkey => absurd hblank hkey
  · next hkey =>
    split
    · exact h.report rfl ⟨rfl, rfl, rfl⟩ fun _ => rfl
    · next p hposition =>
      split
      · exact h.report rfl ⟨rfl, rfl, rfl⟩ fun _ => rfl
      · split
        · exact h.report rfl ⟨rfl, rfl, rfl⟩ fun _ => rfl
        · next hnew => exact h.put hkey hposition hnew

theorem orderedChildren_standing (i : Interpreter) (rows : List RawImportRow) :
    (orderedChildren i rows).Standing i rows := by
  have hempty : (⟨[], []⟩ : Children).Standing i [] := by
    refine ⟨?_, fun _ => List.nodup_nil, ?_, ?_, fun _ _ _ => rfl⟩
    all_goals exact fun _ h => absurd h List.not_mem_nil
  have hfold : ∀ (rows done : List RawImportRow) (c : Children), c.Standing i done →
      (rows.foldl (orderedChild i) c).Standing i (done ++ rows) := by
    intro rows
    induction rows with
    | nil =>
      intro done c h
      rw [List.append_nil]
      exact h
    | cons source rows ih =>
      intro done c h
      rw [List.foldl_cons, List.append_cons]
      exact ih _ _ (h.next source)
  exact hfold rows [] _ hempty

theorem Children.mem_sorted {child : RawImportRow} :
    child ∈ c.sorted key ↔ ∃ p, (key, (p, child)) ∈ c.grouped := by
  simp [Children.sorted]

/-- Under a key that nothing is reported of, the sorted rows are all of its rows. -/
theorem Children.Standing.sorted_inOrder (h : c.Standing i rows) (hkey : key ≠ "")
    (hclean : ∀ entry ∈ c.issues, entry.1 ≠ key) : InOrder i rows key (c.sorted key) := by
  have hperm := List.perm_insertionSort (fun a b : Int × RawImportRow => a.1 ≤ b.1)
    (c.grouped.get key)
  constructor
  · rw [← h.whole key hkey hclean]
    exact hperm.map _
  · rw [Children.sorted, List.pairwise_map]
    have hsorted := List.pairwise_insertionSort (fun a b : Int × RawImportRow => a.1 ≤ b.1)
      (c.grouped.get key)
    have hdistinct : ((c.grouped.get key).insertionSort (·.1 ≤ ·.1)).Pairwise (·.1 ≠ ·.1) := by
      have hnodup := (hperm.map Prod.fst).nodup_iff.mpr (h.nodup key)
      exact List.pairwise_map.mp hnodup
    have hmem : ∀ entry ∈ (c.grouped.get key).insertionSort (·.1 ≤ ·.1),
        position? i entry.2 = some entry.1 := by
      intro entry hentry
      exact (h.entries (key, entry) (Grouped.mem_get.mp (hperm.mem_iff.mp hentry))).1
    refine List.Pairwise.imp_of_mem ?_ (hsorted.and hdistinct)
    intro a b ha hb ⟨hle, hne⟩
    exact ⟨a.1, b.1, hmem a ha, hmem b hb, by omega⟩

/-! ## Steps -/

/-- What is known of the steps that have been read of some rows. -/
structure Mapped {α : Type} (i : Interpreter) (read : RawImportRow → Except ImportIssue α)
    (rows : List RawImportRow) (steps : List (String × List α))
    (issues : Grouped String ImportIssue) :
    Prop where
  errors : ∀ entry ∈ issues, entry.2.severity = .error
  kept : ∀ child ∈ rows, rowKey child ≠ "" ∧ rowKey child ∈ steps.map (·.1)
    ∨ ∃ entry ∈ issues, IsOn entry.2 child
  found : ∀ key ∈ steps.map (·.1), ∃ child ∈ rows, rowKey child = key
  reads : ∀ key, ∀ step ∈ stepsOf steps key, ∃ child, read child = .ok step
  whole : ∀ key ≠ "", (∀ entry ∈ issues, entry.1 ≠ key) → ∃ children, InOrder i rows key children
    ∧ List.Forall₂ (fun child step => read child = .ok step) children (stepsOf steps key)

theorem lookup_map_pair {α : Type} (f : String → α) (keys : List String) (key : String) :
    (keys.map fun key => (key, f key)).lookup key = if key ∈ keys then some (f key) else none := by
  induction keys with
  | nil => rfl
  | cons first keys ih =>
    rw [List.map_cons, List.lookup_cons]
    by_cases hsame : key = first
    · simp [hsame]
    · rw [beq_false_of_ne hsame, ih]
      simp [hsame]

/-- The steps of a list whose rows are all read. -/
theorem forall₂_filterMap {α : Type} {read : RawImportRow → Except ImportIssue α}
    {children : List RawImportRow} (h : ∀ child ∈ children, ∃ step, read child = .ok step) :
    List.Forall₂ (fun child step => read child = .ok step) children
      (children.filterMap fun child => (read child).toOption) := by
  induction children with
  | nil => exact .nil
  | cons child children ih =>
    obtain ⟨step, hstep⟩ := h child List.mem_cons_self
    have hrest := ih fun other hother => h other (List.mem_cons_of_mem _ hother)
    simp only [List.filterMap_cons, hstep, Except.toOption]
    exact .cons hstep hrest

theorem stepsOf_childMap {α : Type} (read : RawImportRow → Except ImportIssue α)
    (rows : List RawImportRow) (key : String) :
    stepsOf (childMap i read rows).1 key
      = if key ∈ (orderedChildren i rows).grouped.keys
        then ((orderedChildren i rows).sorted key).filterMap fun source => (read source).toOption
        else [] := by
  unfold stepsOf childMap
  rw [lookup_map_pair]
  split
  · rfl
  · rfl

theorem childMap_mapped {α : Type} {read : RawImportRow → Except ImportIssue α}
    (hread : ∀ source issue, read source = .error issue → issue.severity = .error)
    (rows : List RawImportRow) :
    Mapped i read rows (childMap i read rows).1 (childMap i read rows).2 := by
  have h := orderedChildren_standing i rows
  have hkeys : (childMap i read rows).1.map (·.1) = (orderedChildren i rows).grouped.keys := by
    simp [childMap, Function.comp_def]
  -- an issue is one of before, or a row that is not read
  have hissues : ∀ entry ∈ (childMap i read rows).2, entry ∈ (orderedChildren i rows).issues
      ∨ ∃ source, read source = .error entry.2 := by
    intro entry hentry
    rcases List.mem_append.mp hentry with hold | hnew
    · exact .inl hold
    · simp only [List.mem_flatMap, List.mem_filterMap] at hnew
      obtain ⟨key, -, source, -, hsource⟩ := hnew
      split at hsource
      · cases hsource
      · next issue hfailed =>
        obtain rfl := Option.some.inj hsource
        exact .inr ⟨source, hfailed⟩
  refine ⟨fun entry hentry => ?_, fun child hchild => ?_, fun key hkey => ?_,
    fun key step hstep => ?_,
    fun key hkey hclean => ?_⟩
  · rcases hissues entry hentry with hold | ⟨source, hfailed⟩
    · exact h.errors entry hold
    · exact hread source _ hfailed
  · rw [hkeys]
    refine (h.kept child hchild).imp (fun ⟨hkey, p, hp⟩ => ⟨hkey, ?_⟩) fun ⟨entry, hentry, hsame⟩ =>
      ⟨entry, List.mem_append_left _ hentry, hsame⟩
    exact Grouped.mem_keys.mpr ⟨_, hp⟩
  · rw [hkeys] at hkey
    obtain ⟨entry, hentry⟩ := Grouped.mem_keys.mp hkey
    obtain ⟨-, hrow, hsame⟩ := h.entries _ hentry
    exact ⟨entry.2, hrow, hsame⟩
  · rw [stepsOf_childMap] at hstep
    split at hstep
    · obtain ⟨source, -, hsource⟩ := List.mem_filterMap.mp hstep
      cases hread : read source with
      | ok step' =>
        rw [hread] at hsource
        exact ⟨source, hread.trans (congrArg _ (Option.some.inj hsource))⟩
      | error issue =>
        rw [hread] at hsource
        cases hsource
    · cases hstep
  · have hordered := h.sorted_inOrder hkey fun entry hentry =>
      hclean entry (List.mem_append_left _ hentry)
    refine ⟨_, hordered, ?_⟩
    by_cases hlisted : key ∈ (orderedChildren i rows).grouped.keys
    · have hall : ∀ child ∈ (orderedChildren i rows).sorted key, ∃ step, read child = .ok step := by
        intro child hchild
        cases hfailed : read child with
        | ok step => exact ⟨step, rfl⟩
        | error issue =>
          refine absurd rfl (hclean (key, issue) (List.mem_append_right _ ?_))
          exact List.mem_flatMap.mpr
            ⟨key, hlisted, List.mem_filterMap.mpr ⟨child, hchild, by rw [hfailed]⟩⟩
      rw [stepsOf_childMap, if_pos hlisted]
      exact forall₂_filterMap hall
    · have hnone : (orderedChildren i rows).sorted key = [] := by
        apply List.eq_nil_iff_forall_not_mem.mpr
        intro child hchild
        obtain ⟨p, hp⟩ := Children.mem_sorted.mp hchild
        exact hlisted (Grouped.mem_keys.mpr ⟨_, hp⟩)
      rw [stepsOf_childMap, if_neg hlisted, hnone]
      exact .nil

end

end QaPlatform.Services.DataTransferService
