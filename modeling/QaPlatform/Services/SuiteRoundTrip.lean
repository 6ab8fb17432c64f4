import QaPlatform.Services.ExecutionTransitions
import QaPlatform.Services.SuitePaths

/-!
# Exported suite paths, read back

In a forest every suite has one path, and a walk up fails on an archived ancestor only. What an
exported path is read back as need not be the path of its suite: a slash in a name, blanks around
it or an apostrophe that has been put before it make it the path of another one.

`Misread` is the condition on names alone under which an exported path is not read back as its
suite's: it is read as nothing, or as the path of another suite only, which takes cases. Names
that are not blank and have no slash, in a path that is not taken for a formula, are read back
(`Indexed.tidy_not_misread`). The counterexample has two suites whose names differ in the blanks
around a slash.
-/

namespace QaPlatform.Services.DataTransferService

open Relation
open QualityService (byId byId_some byId_none byId_id Distinct Under under_iff projectSuites)
open ExecutionService (plainCasing plainTexts)

/-! ## Names from the root down -/

/-- Suites that are listed with all their ancestors, which never come back to them. -/
structure IsForest (suites : List TestSuite) : Prop where
  distinct : Distinct suites
  acyclic : Acyclic (Under suites)
  parents : ∀ suite ∈ suites, ∀ parentId, suite.parentId = some parentId →
    parentId ∈ suites.map (·.id)

/-- The names on the way from a root down to the suite. -/
inductive HasNames (suites : List TestSuite) : TestSuite → List String → Prop where
  | root {suite : TestSuite} (hsuite : suite ∈ suites) (hparent : suite.parentId = none) :
      HasNames suites suite [strip suite.name]
  | under {suite parent : TestSuite} {names : List String} (hsuite : suite ∈ suites)
      (hparent : suite.parentId = some parent.id) (hnames : HasNames suites parent names) :
      HasNames suites suite (names ++ [strip suite.name])

/-- The names, with slashes between them. -/
def HasPath (suites : List TestSuite) (suite : TestSuite) (path : String) : Prop :=
  ∃ names, HasNames suites suite names ∧ path = String.intercalate "/" names

/-- A suite is active, and so are its ancestors. -/
def Live (suites : List TestSuite) (suite : TestSuite) : Prop :=
  ∀ ancestor ∈ suites, ReflTransGen (Under suites) suite.id ancestor.id → ancestor.status = .active

/-- A text that is read as nothing, or as the path of another suite only, which takes cases. -/
def Misread (suites : List TestSuite) (suite : TestSuite) (text : String) : Prop :=
  rawPath text = "" ∨ ∃ other ∈ suites, other ≠ suite ∧ Live suites other
    ∧ ∀ found ∈ suites, HasPath suites found (rawPath text) ↔ found = other

section
variable {suites : List TestSuite} {suite : TestSuite} {names : List String} {path : String}

theorem HasNames.mem (h : HasNames suites suite names) : suite ∈ suites := by
  cases h with
  | root hsuite => exact hsuite
  | under hsuite => exact hsuite

theorem HasNames.unique (hdistinct : Distinct suites) {other : List String}
    (h : HasNames suites suite names) (h' : HasNames suites suite other) : names = other := by
  induction h generalizing other with
  | root hsuite hparent =>
    cases h' with
    | root => rfl
    | under _ hparent' =>
      rw [hparent] at hparent'
      cases hparent'
  | under hsuite hparent hnames ih =>
    cases h' with
    | root _ hparent' =>
      rw [hparent] at hparent'
      cases hparent'
    | under _ hparent' hnames' =>
      have hid := Option.some.inj (hparent.symm.trans hparent')
      obtain rfl := hdistinct.eq hnames.mem hnames'.mem hid
      rw [ih hnames']

theorem HasPath.unique (hdistinct : Distinct suites) {other : String}
    (h : HasPath suites suite path)
    (h' : HasPath suites suite other) : path = other := by
  obtain ⟨names, hnames, rfl⟩ := h
  obtain ⟨names', hnames', rfl⟩ := h'
  rw [hnames.unique hdistinct hnames']

/-! ## The walk that names a suite -/

/-- Where the walk of `_suite_indexes` is; it began at the suite. -/
structure IndexWalk.Standing (suites : List TestSuite) (suite : TestSuite)
    (w : IndexWalk) : Prop where
  current : w.current ∈ suites
  visited : ∀ id ∈ w.visited, TransGen (Under suites) id w.current.id
  names : ∀ above, HasNames suites w.current above → HasNames suites suite (above ++ w.names)

theorem IndexWalk.Standing.again {w next : IndexWalk} (h : w.Standing suites suite)
    (hagain : indexStep suites w = .inl next) : next.Standing suites suite := by
  obtain ⟨-, hmem, hparent, hvisited, hnames⟩ := indexStep_again hagain
  have hunder : Under suites w.current.id next.current.id := ⟨w.current, h.current, rfl, hparent⟩
  refine ⟨hmem, fun id hid => ?_, fun above habove => ?_⟩
  · rw [hvisited, Finset.mem_insert] at hid
    rcases hid with rfl | hid
    · exact .single hunder
    · exact (h.visited id hid).tail hunder
  · rw [hnames, List.append_cons]
    exact h.names _ (.under h.current hparent habove)

/-- The last step is at a root: the walk has no cycle, and every parent is listed. -/
theorem IndexWalk.Standing.done (hforest : IsForest suites) {w : IndexWalk}
    (h : w.Standing suites suite) {answer : Option (List String)}
    (hdone : indexStep suites w = .inr answer) :
    ∃ names, answer = some names ∧ HasNames suites suite names := by
  unfold indexStep at hdone
  split at hdone
  · next hcycle => exact absurd (h.visited _ hcycle) (hforest.acyclic _)
  · split at hdone
    · next hparent =>
      obtain rfl := Sum.inr.inj hdone
      exact ⟨_, rfl, h.names _ (.root h.current hparent)⟩
    · next parentId hparent =>
      split at hdone
      · next hmissing =>
        exact absurd (hforest.parents _ h.current _ hparent) (byId_none hmissing)
      · cases hdone

theorem indexStep_names (hforest : IsForest suites) (hsuite : suite ∈ suites) :
    ∃ names, HasNames suites suite names ∧ ∀ fuel, suites.length < fuel →
      Loop.eval (indexStep suites) fuel ⟨suite, ∅, []⟩ = some (some names) := by
  obtain ⟨answer, hends⟩ := indexStep_ends suites hsuite
  have hstart : (⟨suite, ∅, []⟩ : IndexWalk).Standing suites suite := by
    refine ⟨hsuite, fun id hid => absurd hid (Finset.notMem_empty id), fun above habove => ?_⟩
    rw [List.append_nil]
    exact habove
  obtain ⟨names, rfl, hnames⟩ := Loop.eval_post (IndexWalk.Standing suites suite)
    (fun answer => ∃ names, answer = some names ∧ HasNames suites suite names)
    (fun _ _ hw hagain => hw.again hagain) (fun _ _ hw hdone => hw.done hforest hdone) hstart
    (hends _ (Nat.lt_succ_self _))
  exact ⟨names, hnames, hends⟩

/-- `_suite_indexes` lists every suite of a forest, with its path. -/
theorem suiteIndexes_forest (hforest : IsForest suites) {listed : List TestSuite}
    (hlisted : ∀ suite ∈ listed, suite ∈ suites) :
    ∃ entries, entries.map (·.1) = listed ∧ (∀ entry ∈ entries, HasPath suites entry.1 entry.2)
      ∧ ∀ fuel, suites.length < fuel → suiteIndexes suites fuel listed = some entries := by
  induction listed with
  | nil => exact ⟨[], rfl, fun _ h => absurd h List.not_mem_nil, fun _ _ => rfl⟩
  | cons suite listed ih =>
    obtain ⟨names, hnames, hends⟩ := indexStep_names hforest (hlisted suite List.mem_cons_self)
    obtain ⟨entries, hfirsts, hpaths, hrest⟩ :=
      ih fun other hother => hlisted other (List.mem_cons_of_mem _ hother)
    refine ⟨(suite, String.intercalate "/" names) :: entries, ?_, ?_, fun fuel hfuel => ?_⟩
    · rw [List.map_cons, hfirsts]
    · intro entry hentry
      rcases List.mem_cons.mp hentry with rfl | hold
      · exact ⟨names, hnames, rfl⟩
      · exact hpaths entry hold
    · rw [suiteIndexes, hends fuel hfuel, hrest fuel hfuel]
      rfl

/-! ## Looking up -/

/-- What `_suite_indexes` makes of a forest. -/
structure Indexed (suites : List TestSuite) (entries : List (TestSuite × String)) : Prop where
  forest : IsForest suites
  firsts : entries.map (·.1) = suites
  paths : ∀ entry ∈ entries, HasPath suites entry.1 entry.2

variable {entries : List (TestSuite × String)}

theorem Indexed.mem_iff (h : Indexed suites entries) :
    (suite, path) ∈ entries ↔ suite ∈ suites ∧ HasPath suites suite path := by
  constructor
  · intro hentry
    refine ⟨?_, h.paths _ hentry⟩
    rw [← h.firsts]
    exact List.mem_map_of_mem hentry
  · intro ⟨hsuite, hpath⟩
    rw [← h.firsts] at hsuite
    obtain ⟨entry, hentry, rfl⟩ := List.mem_map.mp hsuite
    rw [hpath.unique h.forest.distinct (h.paths entry hentry)]
    exact hentry

theorem Indexed.hasPath (h : Indexed suites entries) (hsuite : suite ∈ suites) :
    ∃ path, HasPath suites suite path := by
  rw [← h.firsts] at hsuite
  obtain ⟨entry, hentry, rfl⟩ := List.mem_map.mp hsuite
  exact ⟨entry.2, h.paths entry hentry⟩

theorem Indexed.pathsById_ne_nil (h : Indexed suites entries) (hsuite : suite ∈ suites) :
    pathsById entries suite.id ≠ [] := by
  obtain ⟨path, hpath⟩ := h.hasPath hsuite
  have hmem : path ∈ pathsById entries suite.id := by
    refine List.mem_map.mpr
      ⟨(suite, path), List.mem_filter.mpr ⟨h.mem_iff.mpr ⟨hsuite, hpath⟩, ?_⟩, rfl⟩
    exact decide_eq_true rfl
  exact List.ne_nil_of_mem hmem

/-- What is exported for a suite is its path, made safe. -/
theorem Indexed.exportedPath_eq (h : Indexed suites entries) (hsuite : suite ∈ suites)
    (hpath : HasPath suites suite path) :
    exportedPath entries suite.id = neutralizeSpreadsheetText path := by
  have hall : ∀ other ∈ pathsById entries suite.id, other = path := by
    intro other hother
    obtain ⟨entry, hentry, rfl⟩ := List.mem_map.mp hother
    obtain ⟨hentry, hid⟩ := List.mem_filter.mp hentry
    obtain ⟨hlisted, hother⟩ := h.mem_iff.mp hentry
    rw [h.forest.distinct.eq hlisted hsuite (of_decide_eq_true hid)] at hother
    exact hother.unique h.forest.distinct hpath
  obtain ⟨first, rest, hlist⟩ := List.exists_cons_of_ne_nil (h.pathsById_ne_nil hsuite)
  have hfirst := hall first (by rw [hlist]; exact List.mem_cons_self)
  unfold exportedPath
  rw [hlist, List.head?_cons, Option.getD_some, hfirst]

theorem Indexed.mem_suitesByPath (h : Indexed suites entries) :
    suite ∈ suitesByPath entries path ↔ suite ∈ suites ∧ HasPath suites suite path := by
  rw [← h.mem_iff]
  simp [suitesByPath]

theorem Indexed.nodup_suitesByPath (h : Indexed suites entries) :
    (suitesByPath entries path).Nodup := by
  have hsuites : suites.Nodup := .of_map _ h.forest.distinct
  rw [← h.firsts] at hsuites
  exact hsuites.sublist (List.filter_sublist.map _)

/-! ## The walk that looks for archived suites -/

/-- Where the walk of `_resolve_suite` is; it began at the suite. -/
structure ActiveWalk.Standing (suites : List TestSuite) (suite : TestSuite) (w : ActiveWalk) :
    Prop where
  current : w.current ∈ suites
  climbed : ReflTransGen (Under suites) suite.id w.current.id
  visited : ∀ id ∈ w.visited, TransGen (Under suites) id w.current.id
  active : ∀ ancestor ∈ suites, ReflTransGen (Under suites) suite.id ancestor.id →
    ancestor.status = .active ∨ ReflTransGen (Under suites) w.current.id ancestor.id

variable {i : Interpreter}

theorem ActiveWalk.Standing.again (hforest : IsForest suites) {w next : ActiveWalk}
    (h : w.Standing suites suite) (hagain : activeStep i suites suite w = .inl next) :
    next.Standing suites suite := by
  obtain ⟨-, hactive, hmem, hparent, hvisited⟩ := activeStep_again hagain
  have hunder : Under suites w.current.id next.current.id := ⟨w.current, h.current, rfl, hparent⟩
  refine ⟨hmem, h.climbed.tail hunder, fun id hid => ?_, fun ancestor hancestor hreach => ?_⟩
  · rw [hvisited, Finset.mem_insert] at hid
    rcases hid with rfl | hid
    · exact .single hunder
    · exact (h.visited id hid).tail hunder
  · rcases h.active ancestor hancestor hreach with hold | hahead
    · exact .inl hold
    · rcases hahead.cases_head with hsame | ⟨above, hstep, hrest⟩
      · rw [← hforest.distinct.eq h.current hancestor hsame]
        exact .inl hactive
      · rw [hforest.distinct.under_unique hunder hstep]
        exact .inr hrest

/-- The walk ends at a root that is active, as all below it are, or at an archived suite. -/
theorem ActiveWalk.Standing.done (hforest : IsForest suites) {w : ActiveWalk}
    (h : w.Standing suites suite) {walked : Except RowFailure Unit}
    (hdone : activeStep i suites suite w = .inr walked) :
    walked = .ok () ∧ Live suites suite
      ∨ (∃ error, walked = .error (.data error)) ∧ ¬ Live suites suite := by
  unfold activeStep at hdone
  split at hdone
  · next hcycle => exact absurd (h.visited _ hcycle) (hforest.acyclic _)
  · split at hdone
    · next harchived =>
      obtain rfl := Sum.inr.inj hdone
      exact .inr ⟨⟨_, rfl⟩, fun hlive => harchived (hlive _ h.current h.climbed)⟩
    · next hactive =>
      split at hdone
      · next hparent =>
        obtain rfl := Sum.inr.inj hdone
        refine .inl ⟨rfl, fun ancestor hancestor hreach => ?_⟩
        rcases h.active ancestor hancestor hreach with hold | hahead
        · exact hold
        · rcases hahead.cases_head with hsame | ⟨above, hstep, -⟩
          · rw [← hforest.distinct.eq h.current hancestor hsame]
            exact not_not.mp hactive
          · rw [under_iff hforest.distinct h.current, hparent] at hstep
            cases hstep
      · next parentId hparent =>
        split at hdone
        · next hmissing =>
          exact absurd (hforest.parents _ h.current _ hparent) (byId_none hmissing)
        · cases hdone

theorem activeStep_live (i : Interpreter) (hforest : IsForest suites) (hsuite : suite ∈ suites) :
    ∃ walked, (walked = .ok () ∧ Live suites suite
        ∨ (∃ error, walked = .error (.data error)) ∧ ¬ Live suites suite)
      ∧ ∀ fuel, suites.length < fuel →
        Loop.eval (activeStep i suites suite) fuel ⟨suite, ∅⟩ = some walked := by
  obtain ⟨walked, hends⟩ := activeStep_ends i suite hsuite
  have hstart : (⟨suite, ∅⟩ : ActiveWalk).Standing suites suite :=
    ⟨hsuite, .refl, fun id hid => absurd hid (Finset.notMem_empty id), fun _ _ h => .inr h⟩
  refine ⟨walked, ?_, hends⟩
  exact Loop.eval_post (ActiveWalk.Standing suites suite)
    (fun walked => walked = .ok () ∧ Live suites suite
      ∨ (∃ error, walked = .error (.data error)) ∧ ¬ Live suites suite)
    (fun _ _ hw hagain => hw.again hforest hagain) (fun _ _ hw hdone => hw.done hforest hdone)
    hstart (hends _ (Nat.lt_succ_self _))

/-! ## Reading a path -/

variable {source : RawImportRow}

theorem selectSuite_blank (hid : strip (source.cell "suite_id") = "")
    (hpath : rawPath (source.cell "suite_path") = "") :
    selectSuite i suites entries source = .ok none := by
  simp [selectSuite, suiteFromId, suiteFromPath, hid, hpath, refuse]

variable (i suites entries) in
/-- Without an identifier a suite is selected when it is the only one of the path. -/
theorem selectSuite_path (hid : strip (source.cell "suite_id") = "")
    (hpath : rawPath (source.cell "suite_path") ≠ "") :
    (∃ found, suitesByPath entries (rawPath (source.cell "suite_path")) = [found]
        ∧ selectSuite i suites entries source = .ok (some found))
      ∨ (∀ found, suitesByPath entries (rawPath (source.cell "suite_path")) ≠ [found])
        ∧ ∃ error, selectSuite i suites entries source = .error (.data error) := by
  unfold selectSuite suiteFromId suiteFromPath
  simp only [hid, if_true, if_neg hpath]
  generalize suitesByPath entries (rawPath (source.cell "suite_path")) = found
  rcases found with _ | ⟨found, _ | ⟨next, rest⟩⟩
  · exact .inr ⟨by simp, _, rfl⟩
  · exact .inl ⟨found, rfl, rfl⟩
  · exact .inr ⟨by simp, _, rfl⟩

/-- The suite that a path selects is what the row is for, when cases may be put there. -/
theorem Indexed.resolveSuite_live (h : Indexed suites entries) (hsuite : suite ∈ suites)
    (hselect : selectSuite i suites entries source = .ok (some suite)) :
    ∃ resolved, (resolved = .ok (some suite.id) ∧ Live suites suite
        ∨ (∃ error, resolved = .error (.data error)) ∧ ¬ Live suites suite)
      ∧ ∀ fuel, suites.length < fuel →
        resolveSuite i suites entries fuel source = some resolved := by
  obtain ⟨walked, hwalked, hends⟩ := activeStep_live i h.forest hsuite
  refine ⟨do
    walked
    refuse (pathsById entries suite.id = [])
      (.data ⟨"suite_id", "suite_path_invalid", "无法解析套件路径", .text (i.uuidText suite.id)⟩)
    return some suite.id, ?_, fun fuel hfuel => ?_⟩
  · rcases hwalked with ⟨rfl, hlive⟩ | ⟨⟨error, rfl⟩, hlive⟩
    · refine .inl ⟨?_, hlive⟩
      rw [refuse, if_neg (h.pathsById_ne_nil hsuite)]
      rfl
    · exact .inr ⟨⟨error, rfl⟩, hlive⟩
  · unfold resolveSuite
    rw [hselect]
    simp only [hends fuel hfuel]
    rfl

/-- A row with the exported path of a suite is for that suite or fails, unless the path is
misread. -/
theorem Indexed.resolveSuite_exported (h : Indexed suites entries) (hsuite : suite ∈ suites)
    (i : Interpreter) (hid : strip (source.cell "suite_id") = "") :
    ∃ resolved, (∀ fuel, suites.length < fuel →
        resolveSuite i suites entries fuel source = some resolved)
      ∧ ((resolved = .ok (some suite.id) ∨ ∃ error, resolved = .error (.data error))
        ↔ ¬ Misread suites suite (source.cell "suite_path")) := by
  by_cases hblank : rawPath (source.cell "suite_path") = ""
  · refine ⟨.ok none, fun fuel _ => ?_, ?_⟩
    · unfold resolveSuite
      rw [selectSuite_blank hid hblank]
    · simp [Misread, hblank]
  rcases selectSuite_path suites entries i hid hblank with
    ⟨found, honly, hselect⟩ | ⟨hnone, error, hselect⟩
  -- the reader found one suite by the path: it is the exported one or the path was misread
  · have hmem : ∀ other, other ∈ suites ∧ HasPath suites other (rawPath (source.cell "suite_path"))
        ↔ other = found := by
      intro other
      rw [← h.mem_suitesByPath, honly, List.mem_singleton]
    obtain ⟨hfound, hpath⟩ := (hmem found).mpr rfl
    obtain ⟨resolved, hresolved, hends⟩ := h.resolveSuite_live hfound hselect
    refine ⟨resolved, hends, ?_⟩
    rcases hresolved with ⟨rfl, hlive⟩ | ⟨⟨error, rfl⟩, hlive⟩
    · constructor
      · rintro (hsame | ⟨_, hfailed⟩)
        · rintro (hempty | ⟨other, hother, hne, -, honly⟩)
          · exact hblank hempty
          · have hid := Option.some.inj (Except.ok.inj hsame)
            have hother := (honly found hfound).mp hpath
            exact hne (hother.symm.trans (h.forest.distinct.eq hfound hsuite hid))
        · cases hfailed
      · intro hread
        by_cases hsame : found = suite
        · rw [hsame]
          exact .inl rfl
        · refine absurd (.inr ⟨found, hfound, hsame, hlive, fun other hother => ?_⟩) hread
          rw [← hmem other]
          exact (and_iff_right hother).symm
    · refine iff_of_true (.inr ⟨error, rfl⟩) ?_
      rintro (hempty | ⟨other, hother, -, hactive, honly⟩)
      · exact hblank hempty
      · rw [(honly found hfound).mp hpath] at hlive
        exact hlive hactive
  -- no suite or several have the path, so no suite alone can have it
  · refine ⟨.error (.data error), fun fuel _ => ?_, ?_⟩
    · unfold resolveSuite
      rw [hselect]
    · refine iff_of_true (.inr ⟨error, rfl⟩) ?_
      rintro (hempty | ⟨other, hother, -, -, honly⟩)
      · exact hblank hempty
      · apply hnone other
        rw [← List.perm_singleton,
          List.perm_ext_iff_of_nodup h.nodup_suitesByPath (List.nodup_singleton other)]
        intro found
        rw [h.mem_suitesByPath, List.mem_singleton]
        constructor
        · exact fun ⟨hfound, hpath⟩ => (honly found hfound).mp hpath
        · rintro rfl
          exact ⟨hother, (honly found hother).mpr rfl⟩

/-! ## Paths that are read as they are -/

/-- A text that is read as the path of the suite is not misread. -/
theorem HasPath.not_misread {text : String} (hpath : HasPath suites suite (rawPath text))
    (hsuite : suite ∈ suites) (hblank : rawPath text ≠ "") : ¬ Misread suites suite text := by
  rintro (hempty | ⟨other, -, hne, -, honly⟩)
  · exact hblank hempty
  · exact hne ((honly suite hsuite).mp hpath).symm

/-- Names without slashes that are trimmed and not blank are what their path is split to. -/
theorem rawPath_intercalate (hne : names ≠ [])
    (htidy : ∀ name ∈ names, strip name = name ∧ name ≠ "" ∧ '/' ∉ name.toList) :
    rawPath (String.intercalate "/" names) = String.intercalate "/" names := by
  have hsplit : (String.intercalate "/" names).toList.splitOn '/' = names.map String.toList := by
    have hslash : "/".toList = ['/'] := rfl
    rw [String.toList_intercalate, hslash, List.splitOn_intercalate]
    · intro part hpart
      obtain ⟨name, hname, rfl⟩ := List.mem_map.mp hpart
      exact (htidy name hname).2.2
    · simpa using hne
  have hparts : ((names.map String.toList).map fun part => strip (String.ofList part)) = names := by
    rw [List.map_map]
    refine (List.map_congr_left fun name hname => ?_).trans (List.map_id names)
    rw [Function.comp_apply, String.ofList_toList]
    exact (htidy name hname).1
  unfold rawPath
  rw [hsplit, hparts, List.filter_eq_self.mpr fun name hname =>
    decide_eq_true (htidy name hname).2.1]

theorem HasNames.ne_nil (h : HasNames suites suite names) : names ≠ [] := by
  cases h with
  | root => exact List.cons_ne_nil _ _
  | under => simp

theorem HasNames.strip_name (h : HasNames suites suite names) :
    ∀ name ∈ names, strip name = name := by
  induction h with
  | root =>
    intro name hname
    rw [List.mem_singleton.mp hname, strip_strip]
  | under _ _ _ ih =>
    intro name hname
    rcases List.mem_append.mp hname with habove | hlast
    · exact ih name habove
    · rw [List.mem_singleton.mp hlast, strip_strip]

/-- A suite is read back when no name on its path is blank or has a slash, and the path is not
taken for a formula. -/
theorem Indexed.tidy_not_misread (h : Indexed suites entries) (hnames : HasNames suites suite names)
    (htidy : ∀ name ∈ names, name ≠ "" ∧ '/' ∉ name.toList)
    (hsafe : neutralizeSpreadsheetText (String.intercalate "/" names)
      = String.intercalate "/" names)
    (hblank : String.intercalate "/" names ≠ "") :
    ¬ Misread suites suite (exportedPath entries suite.id) := by
  have hpath : HasPath suites suite (String.intercalate "/" names) := ⟨names, hnames, rfl⟩
  have hread : rawPath (String.intercalate "/" names) = String.intercalate "/" names :=
    rawPath_intercalate hnames.ne_nil fun name hname =>
      ⟨hnames.strip_name name hname, htidy name hname⟩
  rw [h.exportedPath_eq hnames.mem hpath, hsafe]
  rw [← hread] at hpath hblank
  exact hpath.not_misread hnames.mem hblank

/-! ## The forests of the suite service -/

theorem isForest_projectSuites {casing : Casing} {s : QaStore} (h : s.Forest casing)
    (projectId : Uuid) : IsForest (projectSuites s projectId) := by
  have hmem : ∀ suite, suite ∈ projectSuites s projectId
      ↔ suite ∈ s.testSuites.rows ∧ suite.projectId = projectId := by
    intro suite
    simp [projectSuites]
  refine ⟨?_, h.acyclic.mono fun a b hunder => ?_, fun suite hsuite parentId hparent => ?_⟩
  · exact s.testSuites.nodup.sublist (List.filter_sublist.map _)
  · obtain ⟨suite, hsuite, hid, hparent⟩ := hunder
    exact ⟨suite, ((hmem suite).mp hsuite).1, hid, hparent⟩
  · obtain ⟨hrow, hproject⟩ := (hmem suite).mp hsuite
    obtain ⟨parent, hget, hsame⟩ := h.parents suite hrow parentId hparent
    refine List.mem_map.mpr ⟨parent, (hmem parent).mpr ⟨Table.mem_of_get? hget, ?_⟩, ?_⟩
    · rw [hsame, hproject]
    · exact Table.key_of_get? hget

end

/-- After any calls, a row with the exported path of a suite is for that suite or is refused,
unless the path is misread. -/
theorem exported_path_resolves (casing : Casing) (texts : Texts) (es : List QaEvent)
    (projectId : Uuid) :
    let suites := projectSuites (Transition.run (QaStore.step casing texts) .empty es) projectId
    ∃ entries, (∀ fuel, suites.length < fuel → suiteIndexes suites fuel suites = some entries)
      ∧ ∀ suite ∈ suites, ∀ (i : Interpreter) (source : RawImportRow),
        strip (source.cell "suite_id") = "" →
        source.cell "suite_path" = exportedPath entries suite.id →
        ∃ resolved, (∀ fuel, suites.length < fuel →
            resolveSuite i suites entries fuel source = some resolved)
          ∧ ((resolved = .ok (some suite.id) ∨ ∃ error, resolved = .error (.data error))
            ↔ ¬ Misread suites suite (exportedPath entries suite.id)) := by
  intro suites
  have hstore : (Transition.run (QaStore.step casing texts) .empty es).Forest casing :=
    Transition.invariant_run
      (fun _ e h => QaStore.Forest.perform (c := ⟨casing, texts, e.currentActor, e.now⟩) h e.call)
      (QaStore.forest_empty casing) es
  have hforest := isForest_projectSuites hstore projectId
  obtain ⟨entries, hfirsts, hpaths, hends⟩ := suiteIndexes_forest hforest fun _ hsuite => hsuite
  refine ⟨entries, hends, fun suite hsuite i source hid hpath => ?_⟩
  rw [← hpath]
  exact Indexed.resolveSuite_exported ⟨hforest, hfirsts, hpaths⟩ hsuite i hid

/-- Two suites whose names differ in blanks around a slash. -/
def slashedCalls : List QaEvent :=
  let zero : UuidText := ⟨"0", some 0⟩
  [.createProject ⟨"DEMO", "demo", ""⟩, .createSuite ⟨zero, none, "web/login", "", 0⟩,
    .createSuite ⟨zero, none, "web / login", "", 0⟩].map (⟨none, 0, ·⟩)

/-- A suite without a parent. -/
def slashed (id : Uuid) (name : String) : TestSuite := ⟨id, 0, none, name, "", .active, 0, 0, 0⟩

/-- The suites of the project after these calls. -/
def slashedSuites : List TestSuite := [slashed 0 "web/login", slashed 1 "web / login"]

theorem projectSuites_slashed :
    projectSuites (Transition.run (QaStore.step plainCasing plainTexts) .empty slashedCalls) 0
      = slashedSuites := by decide +kernel

/-- A row with a suite path only. -/
def pathRow (path : String) : RawImportRow := ⟨"test_cases", 2, [("suite_path", path)]⟩

theorem exported_path_resolves_slashed :
    ∃ entries, (∀ fuel, 2 < fuel → suiteIndexes slashedSuites fuel slashedSuites = some entries)
      ∧ ∃ resolved, (∀ fuel, 2 < fuel →
          resolveSuite plainInterpreter slashedSuites entries fuel
            (pathRow (exportedPath entries 0)) = some resolved)
        ∧ ((resolved = .ok (some 0) ∨ ∃ error, resolved = .error (.data error))
          ↔ ¬ Misread slashedSuites (slashed 0 "web/login") (exportedPath entries 0)) := by
  have h := exported_path_resolves plainCasing plainTexts slashedCalls 0
  rw [projectSuites_slashed] at h
  obtain ⟨entries, hends, hresolve⟩ := h
  exact ⟨entries, hends, hresolve (slashed 0 "web/login") List.mem_cons_self plainInterpreter
    (pathRow (exportedPath entries 0)) rfl rfl⟩

/-- The path of one of the two is read as the path of the other. -/
theorem exported_path_misread : ¬ ∀ (casing : Casing) (texts : Texts) (es : List QaEvent)
    (projectId : Uuid) (entries : List (TestSuite × String)),
    let suites := projectSuites (Transition.run (QaStore.step casing texts) .empty es) projectId
    ∀ fuel, suiteIndexes suites fuel suites = some entries →
      ∀ suite ∈ suites, ∀ (i : Interpreter) (source : RawImportRow),
        strip (source.cell "suite_id") = "" →
        source.cell "suite_path" = exportedPath entries suite.id →
        ∀ resolved, resolveSuite i suites entries fuel source = some resolved →
          resolved = .ok (some suite.id) ∨ ∃ error, resolved = .error (.data error) := by
  intro h
  have hread := h plainCasing plainTexts slashedCalls 0
    [(slashed 0 "web/login", "web/login"), (slashed 1 "web / login", "web / login")]
  rw [projectSuites_slashed] at hread
  have hresolved := hread 3 (by decide +kernel) (slashed 1 "web / login") (by decide +kernel)
    plainInterpreter (pathRow "web / login") rfl (by decide +kernel) (.ok (some 0)) rfl
  rcases hresolved with hsame | ⟨_, hfailed⟩
  · cases hsame
  · cases hfailed

end QaPlatform.Services.DataTransferService
