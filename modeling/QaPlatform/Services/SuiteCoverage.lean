import QaPlatform.Base.Acyclic
import QaPlatform.Services.Quality

/-!
# The suites under a suite

The coverage of a quality report climbs from each suite to its ancestors; a snapshot grows a
set downwards until it stays as it is (`_suite_scope_ids` of
`app/services/test_case_snapshots.py`). Whatever the parents of the suites are, both come to
an end, and both find the suites from which parents lead to the given one.

The climb is one walk for each suite and attributes it to all its ancestors; the growing set
adds, round by round, the suites whose parent is in it. Both visit a listed suite with every
step and none of them twice, so they end with fuel for the number of suites, in cycles too. For
a forest, the roots and the cases without a suite account for every case once.
-/

namespace QaPlatform.Services

open Relation

namespace TestCaseSnapshotService

/-- A round of the loop of `_suite_scope_ids`. -/
def expand (suites : List TestSuite) (allowed : Finset Uuid) : Finset Uuid ⊕ Finset Uuid :=
  let descendants :=
    ((suites.filter fun suite => suite.parentId.any (· ∈ allowed)).map (·.id)).toFinset
  let expanded := allowed ∪ descendants
  if expanded = allowed then .inr allowed else .inl expanded

/-- `_suite_scope_ids`. -/
def suiteScopeIds (rootId : Uuid) (suites : List TestSuite) (includeDescendants : Bool)
    (fuel : Nat) : Option (Finset Uuid) :=
  if ¬ includeDescendants then some {rootId} else Loop.eval (expand suites) fuel {rootId}

end TestCaseSnapshotService

namespace QualityService

/-! ## Suites and their parents -/

/-- A suite under its parent, which need not be listed. -/
def Under (suites : List TestSuite) (id parentId : Uuid) : Prop :=
  ∃ suite ∈ suites, suite.id = id ∧ suite.parentId = some parentId

/-- No suite is listed twice. -/
def Distinct (suites : List TestSuite) : Prop := (suites.map (·.id)).Nodup

/-- A suite whose parent, if it has one, is not listed. -/
def IsRoot (suites : List TestSuite) (suite : TestSuite) : Prop :=
  ∀ parentId, suite.parentId = some parentId → parentId ∉ suites.map (·.id)

instance (suites : List TestSuite) (suite : TestSuite) : Decidable (IsRoot suites suite) :=
  match h : suite.parentId with
  | none => .isTrue fun _ hparent => by rw [h] at hparent; cases hparent
  | some parentId =>
    if hlisted : parentId ∈ suites.map (·.id) then .isFalse fun hroot => hroot parentId h hlisted
    else .isTrue fun _ hparent => by rw [h] at hparent; cases hparent; exact hlisted

section
variable {suites : List TestSuite}

theorem Distinct.eq (h : Distinct suites) {a b : TestSuite} (ha : a ∈ suites) (hb : b ∈ suites)
    (hid : a.id = b.id) : a = b := List.inj_on_of_nodup_map h ha hb hid

theorem Distinct.under_unique (h : Distinct suites) : Relator.RightUnique (Under suites) := by
  rintro id p p' ⟨suite, hsuite, hid, hp⟩ ⟨suite', hsuite', hid', hp'⟩
  have hsame := h.eq hsuite hsuite' (hid.trans hid'.symm)
  subst hsame
  exact Option.some.inj (hp.symm.trans hp')

theorem under_iff (h : Distinct suites) {suite : TestSuite} (hsuite : suite ∈ suites) {p : Uuid} :
    Under suites suite.id p ↔ suite.parentId = some p := by
  constructor
  · rintro ⟨other, hother, hid, hp⟩
    rw [← h.eq hother hsuite hid]
    exact hp
  · exact fun hp => ⟨suite, hsuite, rfl, hp⟩

theorem byId_some {id : Uuid} {suite : TestSuite} (h : byId suites id = some suite) :
    suite ∈ suites ∧ suite.id = id := by
  unfold byId at h
  exact ⟨List.mem_reverse.mp (List.mem_of_find?_eq_some h), by simpa using List.find?_some h⟩

theorem byId_none {id : Uuid} (h : byId suites id = none) : id ∉ suites.map (·.id) := by
  intro hmem
  obtain ⟨suite, hsuite, hid⟩ := List.mem_map.mp hmem
  have hne := List.find?_eq_none.mp h suite (List.mem_reverse.mpr hsuite)
  simp [hid] at hne

theorem byId_id (h : Distinct suites) {suite : TestSuite} (hsuite : suite ∈ suites) :
    byId suites suite.id = some suite := by
  cases hfound : byId suites suite.id with
  | none => exact absurd (List.mem_map_of_mem hsuite) (byId_none hfound)
  | some found =>
    obtain ⟨hmem, hid⟩ := byId_some hfound
    rw [h.eq hmem hsuite hid]

theorem listed_of_walk {a b : Uuid} (h : TransGen (Under suites) a b) : a ∈ suites.map (·.id) := by
  obtain ⟨_, ⟨suite, hsuite, hid, -⟩, -⟩ := TransGen.head'_iff.mp h
  exact List.mem_map.mpr ⟨suite, hsuite, hid⟩

/-- The suites that are not in a set become fewer when a listed one joins it. -/
theorem outside_lt {seen more : Finset Uuid} (hmore : seen ⊆ more) {id : Uuid}
    (hlisted : id ∈ suites.map (·.id)) (hnew : id ∉ seen) (hseen : id ∈ more) :
    (suites.filter (·.id ∉ more)).length < (suites.filter (·.id ∉ seen)).length := by
  have hfewer : suites.filter (·.id ∉ more)
      = (suites.filter (·.id ∉ seen)).filter (·.id ∉ more) := by
    rw [List.filter_filter]
    apply List.filter_congr
    intro suite _
    by_cases h : suite.id ∈ more
    · simp [h]
    · have h' : suite.id ∉ seen := fun hold => h (hmore hold)
      simp [h, h']
  rw [hfewer, List.length_filter_lt_length_iff_exists]
  obtain ⟨suite, hsuite, hid⟩ := List.mem_map.mp hlisted
  subst hid
  exact ⟨suite, List.mem_filter.mpr ⟨hsuite, by simpa using hnew⟩, by simpa using hseen⟩

/-- A walk that visits a listed suite with every step, and none of them twice, ends. -/
theorem walk_ends {σ α : Type} {body : σ → σ ⊕ α} (I : σ → Prop) (visited : σ → Finset Uuid)
    (hagain : ∀ w next, I w → body w = .inl next → I next
      ∧ ∃ id ∈ suites.map (·.id), id ∉ visited w ∧ visited next = insert id (visited w))
    {w : σ} (hw : I w) :
    ∃ a, ∀ fuel, suites.length < fuel → Loop.eval body fuel w = some a := by
  have hloop : ∃ a, True ∧ ∀ fuel, suites.length < fuel → Loop.eval body fuel w = some a := by
    apply Loop.eval_total I (fun _ => True) (fun w => (suites.filter (·.id ∉ visited w)).length)
    · intro w next hw hnext
      obtain ⟨hkept, id, hlisted, hnew, hvisited⟩ := hagain w next hw hnext
      refine ⟨hkept, ?_⟩
      rw [hvisited]
      exact outside_lt (Finset.subset_insert _ _) hlisted hnew (Finset.mem_insert_self _ _)
    · exact fun _ _ _ _ => trivial
    · exact hw
    · exact List.length_filter_le _ suites
  obtain ⟨a, -, hends⟩ := hloop
  exact ⟨a, hends⟩

end

/-! ## Growing a set downwards -/

section
open TestCaseSnapshotService
variable {suites : List TestSuite} {allowed next : Finset Uuid} {rootId : Uuid}

theorem mem_descendants {id : Uuid} :
    id ∈ ((suites.filter fun suite => suite.parentId.any (· ∈ allowed)).map (·.id)).toFinset
      ↔ ∃ parentId ∈ allowed, Under suites id parentId := by
  simp only [List.mem_toFinset, List.mem_map, List.mem_filter, Option.any_eq_true,
    decide_eq_true_eq]
  constructor
  · rintro ⟨suite, ⟨hsuite, parentId, hparent, hallowed⟩, hid⟩
    exact ⟨parentId, hallowed, suite, hsuite, hid, hparent⟩
  · rintro ⟨parentId, hallowed, suite, hsuite, hid, hparent⟩
    exact ⟨suite, ⟨hsuite, parentId, hparent, hallowed⟩, hid⟩

/-- A round that goes on adds a listed suite. -/
theorem expand_again (h : expand suites allowed = .inl next) :
    (∀ id, id ∈ next ↔ id ∈ allowed ∨ ∃ parentId ∈ allowed, Under suites id parentId)
      ∧ (suites.filter (·.id ∉ next)).length < (suites.filter (·.id ∉ allowed)).length := by
  dsimp only [expand] at h
  split at h
  · cases h
  · next hgrown =>
    obtain rfl := Sum.inl.inj h
    have hmem : ∀ id, id ∈ allowed ∪ _
        ↔ id ∈ allowed ∨ ∃ parentId ∈ allowed, Under suites id parentId :=
      fun id => by rw [Finset.mem_union, mem_descendants]
    refine ⟨hmem, ?_⟩
    obtain ⟨id, hid, hnew⟩ := Finset.exists_of_ssubset
      (Finset.ssubset_iff_subset_ne.mpr ⟨Finset.subset_union_left, Ne.symm hgrown⟩)
    have hunder := ((hmem id).mp hid).resolve_left hnew
    obtain ⟨_, -, suite, hsuite, hsame, -⟩ := hunder
    exact outside_lt Finset.subset_union_left (List.mem_map.mpr ⟨suite, hsuite, hsame⟩) hnew hid

/-- The last round finds nothing to add. -/
theorem expand_done (h : expand suites allowed = .inr next) :
    next = allowed ∧ ∀ parentId ∈ allowed, ∀ id, Under suites id parentId → id ∈ allowed := by
  dsimp only [expand] at h
  split at h
  · next hsame =>
    refine ⟨(Sum.inr.inj h).symm, fun parentId hallowed id hunder => ?_⟩
    rw [← hsame, Finset.mem_union, mem_descendants]
    exact .inr ⟨parentId, hallowed, hunder⟩
  · cases h

/-- `_suite_scope_ids` ends, with the suites from which parents lead to the given one. -/
theorem suiteScopeIds_total (suites : List TestSuite) (rootId : Uuid) :
    ∃ scope, (∀ id, id ∈ scope ↔ ReflTransGen (Under suites) id rootId)
      ∧ ∀ fuel, suites.length < fuel → suiteScopeIds rootId suites true fuel = some scope := by
  have hloop : ∃ scope, (∀ id, id ∈ scope ↔ ReflTransGen (Under suites) id rootId)
      ∧ ∀ fuel, suites.length < fuel → Loop.eval (expand suites) fuel {rootId} = some scope := by
    apply Loop.eval_total
      (fun allowed => rootId ∈ allowed ∧ ∀ id ∈ allowed, ReflTransGen (Under suites) id rootId)
      (fun scope => ∀ id, id ∈ scope ↔ ReflTransGen (Under suites) id rootId)
      (fun allowed => (suites.filter (·.id ∉ allowed)).length)
    · rintro allowed next ⟨hroot, hwalks⟩ hagain
      obtain ⟨hmem, hless⟩ := expand_again hagain
      refine ⟨⟨(hmem rootId).mpr (.inl hroot), fun id hid => ?_⟩, hless⟩
      rcases (hmem id).mp hid with hold | ⟨parentId, hallowed, hunder⟩
      · exact hwalks id hold
      · exact .head hunder (hwalks parentId hallowed)
    · rintro allowed scope ⟨hroot, hwalks⟩ hdone
      obtain ⟨rfl, hclosed⟩ := expand_done hdone
      refine fun id => ⟨hwalks id, fun hwalk => ?_⟩
      induction hwalk using ReflTransGen.head_induction_on with
      | refl => exact hroot
      | head hunder _ ih => exact hclosed _ ih _ hunder
    · refine ⟨Finset.mem_singleton_self rootId, fun id hid => ?_⟩
      rw [Finset.mem_singleton.mp hid]
    · exact List.length_filter_le _ suites
  obtain ⟨scope, hscope, hends⟩ := hloop
  refine ⟨scope, hscope, fun fuel hfuel => ?_⟩
  rw [← hends fuel hfuel]
  exact if_neg (by simp)

end

/-! ## Climbing -/

section
variable {suites : List TestSuite} {candidate : TestSuite} {c next : Climb} {d d' : DescendantIds}

@[simp] theorem mem_attribute {id descendant key x : Uuid} :
    x ∈ scopedSuiteIds (d.attribute id descendant) key
      ↔ x ∈ scopedSuiteIds d key ∨ x = descendant ∧ key = id := by
  unfold scopedSuiteIds DescendantIds.attribute
  by_cases hkey : key = id
  · subst hkey
    rw [if_pos rfl, Option.getD_some, Finset.mem_insert, or_comm]
    simp
  · rw [if_neg hkey]
    simp [hkey]

@[simp] theorem mem_ownIds {key x : Uuid} : x ∈ scopedSuiteIds (ownIds suites) key ↔ x = key := by
  unfold scopedSuiteIds ownIds
  split <;> simp

/-- A step that goes on comes by a parent that is listed. -/
theorem climb_again (h : climb suites candidate c = .inl next) :
    c.current.parentId = some next.current.id ∧ next.current ∈ suites
      ∧ next.current.id ∉ c.visited ∧ next.visited = insert next.current.id c.visited
      ∧ next.descendantIds = c.descendantIds.attribute next.current.id candidate.id := by
  unfold climb at h
  split at h
  · cases h
  · next parentId hparent =>
    split at h
    · cases h
    · next hnew =>
      split at h
      · cases h
      · next parent hfound =>
        obtain ⟨hmem, rfl⟩ := byId_some hfound
        obtain rfl := Sum.inl.inj h
        exact ⟨hparent, hmem, hnew, rfl, rfl⟩

/-- The walk stops where the parent is missing, visited or not listed. -/
theorem climb_done (h : climb suites candidate c = .inr d') :
    (d' = c.descendantIds ∧ ∀ p, c.current.parentId = some p → p ∈ c.visited)
      ∨ ∃ p, c.current.parentId = some p ∧ p ∉ suites.map (·.id)
        ∧ d' = c.descendantIds.attribute p candidate.id := by
  unfold climb at h
  split at h
  · next hparent =>
    refine .inl ⟨(Sum.inr.inj h).symm, fun p hp => ?_⟩
    rw [hparent] at hp
    cases hp
  · next parentId hparent =>
    split at h
    · next hvisited =>
      refine .inl ⟨(Sum.inr.inj h).symm, fun p hp => ?_⟩
      rw [hparent, Option.some.injEq] at hp
      exact hp ▸ hvisited
    · split at h
      · next hmissing => exact .inr ⟨parentId, hparent, byId_none hmissing, (Sum.inr.inj h).symm⟩
      · cases h

/-- A walk ends, whatever the parents are: each suite is visited once. -/
theorem climb_ends (suites : List TestSuite) (candidate : TestSuite) (d : DescendantIds) :
    ∃ d', ∀ fuel, suites.length < fuel →
      Loop.eval (climb suites candidate) fuel ⟨candidate, ∅, d⟩ = some d' := by
  apply walk_ends (fun _ => True) (·.visited) _ trivial
  rintro c next - hagain
  obtain ⟨-, hlisted, hnew, hvisited, -⟩ := climb_again hagain
  exact ⟨trivial, _, List.mem_map_of_mem hlisted, hnew, hvisited⟩

/-- What a walk has come by so far, and where the rest of the ancestors is. -/
structure Climb.Standing (suites : List TestSuite) (candidate : TestSuite) (d : DescendantIds)
    (c : Climb) : Prop where
  current : c.current ∈ suites
  below : ReflTransGen (Under suites) candidate.id c.current.id
  attributed : ∀ key x, x ∈ scopedSuiteIds c.descendantIds key
    ↔ x ∈ scopedSuiteIds d key ∨ x = candidate.id ∧ key ∈ c.visited
  ancestors : ∀ p ∈ c.visited, TransGen (Under suites) candidate.id p
  closed : ∀ a p, (a = candidate.id ∨ a ∈ c.visited) → Under suites a p →
    p ∈ c.visited ∨ a = c.current.id

theorem Climb.Standing.again (hdistinct : Distinct suites) (h : c.Standing suites candidate d)
    (hagain : climb suites candidate c = .inl next) : next.Standing suites candidate d := by
  obtain ⟨hparent, hlisted, -, hvisited, hids⟩ := climb_again hagain
  have hunder : Under suites c.current.id next.current.id := ⟨c.current, h.current, rfl, hparent⟩
  refine ⟨hlisted, h.below.tail hunder, fun key x => ?_, fun p hp => ?_, fun a p ha hp => ?_⟩
  · rw [hids, mem_attribute, h.attributed, hvisited, Finset.mem_insert]
    tauto
  · rw [hvisited, Finset.mem_insert] at hp
    rcases hp with rfl | hp
    · exact TransGen.tail' h.below hunder
    · exact h.ancestors p hp
  · rw [hvisited, Finset.mem_insert] at ha ⊢
    rcases ha with ha | rfl | ha
    · rcases h.closed a p (.inl ha) hp with hold | rfl
      · exact .inl (.inr hold)
      · exact .inl (.inl (hdistinct.under_unique hp hunder))
    · exact .inr rfl
    · rcases h.closed a p (.inr ha) hp with hold | rfl
      · exact .inl (.inr hold)
      · exact .inl (.inl (hdistinct.under_unique hp hunder))

/-- When no parent of the last suite is left out, the ancestors are those that were visited. -/
theorem Climb.Standing.ancestors_iff (h : c.Standing suites candidate d)
    (hlast : ∀ p, Under suites c.current.id p → p ∈ c.visited) (p : Uuid) :
    TransGen (Under suites) candidate.id p ↔ p ∈ c.visited := by
  refine ⟨fun hwalk => ?_, h.ancestors p⟩
  have hclosed : ∀ a q, (a = candidate.id ∨ a ∈ c.visited) → Under suites a q → q ∈ c.visited := by
    intro a q ha hq
    rcases h.closed a q ha hq with hold | rfl
    · exact hold
    · exact hlast q hq
  induction hwalk with
  | single hstep => exact hclosed _ _ (.inl rfl) hstep
  | tail _ hstep ih => exact hclosed _ _ (.inr ih) hstep

/-- A walk attributes the candidate to its ancestors. -/
theorem climb_attributes (hdistinct : Distinct suites) (hcandidate : candidate ∈ suites)
    {fuel : Nat} (h : Loop.eval (climb suites candidate) fuel ⟨candidate, ∅, d⟩ = some d')
    (key x : Uuid) :
    x ∈ scopedSuiteIds d' key
      ↔ x ∈ scopedSuiteIds d key ∨ x = candidate.id ∧ TransGen (Under suites) candidate.id key := by
  have hend : ∀ key x, x ∈ scopedSuiteIds d' key
      ↔ x ∈ scopedSuiteIds d key ∨ x = candidate.id ∧ TransGen (Under suites) candidate.id key := by
    apply Loop.eval_post (Climb.Standing suites candidate d) _ _ _ _ h
    · exact fun c next hc hagain => hc.again hdistinct hagain
    · intro c d' hc hdone key x
      rcases climb_done hdone with ⟨rfl, hvisited⟩ | ⟨p, hparent, hmissing, rfl⟩
      · have hlast : ∀ p, Under suites c.current.id p → p ∈ c.visited :=
          fun p hp => hvisited p ((under_iff hdistinct hc.current).mp hp)
        rw [hc.attributed, hc.ancestors_iff hlast]
      · have hunder : Under suites c.current.id p := ⟨c.current, hc.current, rfl, hparent⟩
        -- nothing is above a suite that is not listed
        have hancestors : TransGen (Under suites) candidate.id key ↔ key ∈ c.visited ∨ key = p := by
          constructor
          · intro hwalk
            induction hwalk with
            | single hstep =>
              refine (hc.closed _ _ (.inl rfl) hstep).imp_right fun hsame => ?_
              rw [hsame] at hstep
              exact hdistinct.under_unique hstep hunder
            | tail _ hstep ih =>
              rcases ih with hseen | rfl
              · refine (hc.closed _ _ (.inr hseen) hstep).imp_right fun hsame => ?_
                rw [hsame] at hstep
                exact hdistinct.under_unique hstep hunder
              · exact absurd (listed_of_walk (.single hstep)) hmissing
          · rintro (hseen | rfl)
            · exact hc.ancestors key hseen
            · exact TransGen.tail' hc.below hunder
        rw [mem_attribute, hc.attributed, hancestors]
        tauto
    · exact ⟨hcandidate, .refl, fun key x => by simp, fun p hp => absurd hp (Finset.notMem_empty p),
        fun a p ha _ => .inr (ha.resolve_right (Finset.notMem_empty a))⟩
  exact hend key x

theorem climbAll_ends (suites candidates : List TestSuite) (d : DescendantIds) :
    ∃ d', ∀ fuel, suites.length < fuel → climbAll suites fuel candidates d = some d' := by
  induction candidates generalizing d with
  | nil => exact ⟨d, fun _ _ => rfl⟩
  | cons candidate candidates ih =>
    obtain ⟨d₁, hclimb⟩ := climb_ends suites candidate d
    obtain ⟨d₂, hrest⟩ := ih d₁
    refine ⟨d₂, fun fuel hfuel => ?_⟩
    rw [climbAll, hclimb fuel hfuel]
    exact hrest fuel hfuel

theorem climbAll_attributes (hdistinct : Distinct suites) {candidates : List TestSuite}
    (hcandidates : ∀ candidate ∈ candidates, candidate ∈ suites) {fuel : Nat}
    (h : climbAll suites fuel candidates d = some d') (key x : Uuid) :
    x ∈ scopedSuiteIds d' key ↔ x ∈ scopedSuiteIds d key
      ∨ x ∈ candidates.map (·.id) ∧ TransGen (Under suites) x key := by
  induction candidates generalizing d with
  | nil =>
    obtain rfl := Option.some.inj h
    simp
  | cons candidate candidates ih =>
    obtain ⟨d₁, hclimb, hrest⟩ := Option.bind_eq_some_iff.mp h
    have hcandidate := hcandidates candidate List.mem_cons_self
    rw [ih (fun other hother => hcandidates other (List.mem_cons_of_mem _ hother)) hrest,
      climb_attributes hdistinct hcandidate hclimb, List.map_cons, List.mem_cons, or_assoc]
    apply or_congr_right
    constructor
    · rintro (⟨rfl, hwalk⟩ | ⟨hmem, hwalk⟩)
      · exact ⟨.inl rfl, hwalk⟩
      · exact ⟨.inr hmem, hwalk⟩
    · rintro ⟨rfl | hmem, hwalk⟩
      · exact .inl ⟨rfl, hwalk⟩
      · exact .inr ⟨hmem, hwalk⟩

/-- The suites that are attributed to one are those from which parents lead to it. -/
theorem mem_descendantIds (hdistinct : Distinct suites) {fuel : Nat}
    (h : descendantIds suites fuel = some d) (key x : Uuid) :
    x ∈ scopedSuiteIds d key ↔ ReflTransGen (Under suites) x key := by
  rw [climbAll_attributes hdistinct (fun _ h => h) h, mem_ownIds, reflTransGen_iff_eq_or_transGen]
  constructor
  · rintro (rfl | ⟨-, hwalk⟩)
    · exact .inl rfl
    · exact .inr hwalk
  · rintro (rfl | hwalk)
    · exact .inl rfl
    · exact .inr ⟨listed_of_walk hwalk, hwalk⟩

end

/-! ## Every case once -/

section
variable {suites : List TestSuite} {d : DescendantIds} {cases : List TestCase}

/-- A walk for a path ends as well. -/
theorem pathStep_ends (suites : List TestSuite) (suite : TestSuite) (h : suite ∈ suites) :
    ∃ names, ∀ fuel, suites.length < fuel →
      Loop.eval (pathStep suites) fuel ⟨suite, ∅, []⟩ = some names := by
  apply walk_ends (fun w => w.current ∈ suites) (·.visited) _ h
  intro w next hcurrent hagain
  unfold pathStep at hagain
  split at hagain
  · cases hagain
  · next hnew =>
    split at hagain
    · cases hagain
    · split at hagain
      · cases hagain
      · next parent hfound =>
        obtain rfl := Sum.inl.inj hagain
        exact ⟨(byId_some hfound).1, _, List.mem_map_of_mem hcurrent, hnew, rfl⟩

theorem suitePaths_ends (suites : List TestSuite) :
    ∃ paths, ∀ fuel, suites.length < fuel → suitePaths suites fuel = some paths := by
  have hall : ∀ some' : List TestSuite, (∀ suite ∈ some', suite ∈ suites) →
      ∃ paths, ∀ fuel, suites.length < fuel → (some'.mapM fun suite => do
        let names ← Loop.eval (pathStep suites) fuel ⟨suite, ∅, []⟩
        return (suite.id, String.intercalate "/" names) : Option (List (Uuid × String)))
          = some paths := by
    intro listed hlisted
    induction listed with
    | nil => exact ⟨[], fun _ _ => rfl⟩
    | cons suite listed ih =>
      obtain ⟨names, hnames⟩ := pathStep_ends suites suite (hlisted suite List.mem_cons_self)
      obtain ⟨paths, hpaths⟩ := ih fun other hother => hlisted other (List.mem_cons_of_mem _ hother)
      refine ⟨(suite.id, String.intercalate "/" names) :: paths, fun fuel hfuel => ?_⟩
      rw [List.mapM_cons, hnames fuel hfuel, hpaths fuel hfuel]
      rfl
  exact hall suites fun _ h => h

/-- In a forest parents lead from a listed suite to one root. -/
theorem countP_roots (hdistinct : Distinct suites) (hacyclic : Acyclic (Under suites)) {id : Uuid}
    (hlisted : id ∈ suites.map (·.id)) (hscope : ∀ key x, x ∈ scopedSuiteIds d key
      ↔ ReflTransGen (Under suites) x key) :
    (suites.filter (IsRoot suites)).countP (fun root => id ∈ scopedSuiteIds d root.id) = 1 := by
  have hroot_under : ∀ root, IsRoot suites root → root ∈ suites → ∀ p ∈ suites.map (·.id),
      ¬ Under suites root.id p :=
    fun root hroot hmem p hp hunder => hroot p ((under_iff hdistinct hmem).mp hunder) hp
  -- the walk upwards ends below no listed suite
  obtain ⟨t, hwalk, hwhere, hlast⟩ := hacyclic.exists_last (suites.map (·.id)).toFinset id
  have htop : t ∈ suites.map (·.id) := by
    rcases hwhere with rfl | hmem
    · exact hlisted
    · exact List.mem_toFinset.mp hmem
  obtain ⟨top, htopmem, rfl⟩ := List.mem_map.mp htop
  have htoproot : IsRoot suites top := fun p hp hmem =>
    hlast p (List.mem_toFinset.mpr hmem) ((under_iff hdistinct htopmem).mpr hp)
  have hunique : ∀ root ∈ suites, IsRoot suites root → ReflTransGen (Under suites) id root.id →
      root = top := by
    intro root hmem hroot hup
    refine hdistinct.eq hmem htopmem ?_
    rcases ReflTransGen.total_of_right_unique hdistinct.under_unique hup hwalk with h | h
    · rcases ReflTransGen.cases_head h with hsame | ⟨p, hstep, hrest⟩
      · exact hsame
      · refine absurd hstep (hroot_under root hroot hmem p ?_)
        rcases reflTransGen_iff_eq_or_transGen.mp hrest with rfl | hlong
        · exact List.mem_map_of_mem htopmem
        · exact listed_of_walk hlong
    · rcases ReflTransGen.cases_head h with hsame | ⟨p, hstep, hrest⟩
      · exact hsame.symm
      · refine absurd hstep (hroot_under top htoproot htopmem p ?_)
        rcases reflTransGen_iff_eq_or_transGen.mp hrest with rfl | hlong
        · exact List.mem_map_of_mem hmem
        · exact listed_of_walk hlong
  have hsuites : suites.Nodup := List.Nodup.of_map _ hdistinct
  have hcount : (suites.filter (IsRoot suites)).countP (fun root => id ∈ scopedSuiteIds d root.id)
      = suites.count top := by
    rw [List.countP_filter, List.count]
    apply List.countP_congr
    intro root hmem
    simp only [decide_eq_true_eq, Bool.and_eq_true, hscope, beq_iff_eq]
    constructor
    · exact fun h => hunique root hmem h.2 h.1
    · rintro rfl
      exact ⟨hwalk, htoproot⟩
  rw [hcount, List.count_eq_one_of_mem hsuites htopmem]

/-- The cases of the roots and the cases of no suite are all the cases, each as often as it is
listed. -/
theorem cases_perm (hdistinct : Distinct suites) (hacyclic : Acyclic (Under suites))
    (hscope : ∀ key x, x ∈ scopedSuiteIds d key ↔ ReflTransGen (Under suites) x key)
    (hcases : ∀ testCase ∈ cases, ∀ id, testCase.suiteId = some id → id ∈ suites.map (·.id)) :
    ((suites.filter (IsRoot suites)).flatMap (scopedCases d cases) ++ unassignedCases cases).Perm
      cases := by
  rw [List.perm_iff_count]
  intro testCase
  have hroots := Counters.count_flatMap_filter
    (fun (suite : TestSuite) (testCase : TestCase) =>
      testCase.suiteId.any (· ∈ scopedSuiteIds d suite.id))
    (suites.filter (IsRoot suites)) cases testCase
  rw [List.count_append]
  have hroots : ((suites.filter (IsRoot suites)).flatMap (scopedCases d cases)).count testCase
      = (suites.filter (IsRoot suites)).countP
        (fun suite => testCase.suiteId.any (· ∈ scopedSuiteIds d suite.id))
          * cases.count testCase :=
    hroots
  rw [hroots]
  by_cases hmem : testCase ∈ cases
  · cases hsuite : testCase.suiteId with
    | none =>
      have hunassigned : (unassignedCases cases).count testCase = cases.count testCase :=
        List.count_filter (by simpa using hsuite)
      rw [hunassigned]
      simp
    | some id =>
      have hunassigned : (unassignedCases cases).count testCase = 0 := by
        refine List.count_eq_zero.mpr fun h => ?_
        have hnone := of_decide_eq_true (List.mem_filter.mp h).2
        rw [hsuite] at hnone
        cases hnone
      rw [hunassigned]
      simp only [Option.any_some]
      rw [countP_roots hdistinct hacyclic (hcases testCase hmem id hsuite) hscope]
      omega
  · have hnone : (unassignedCases cases).count testCase = 0 :=
      List.count_eq_zero.mpr fun h => hmem (List.mem_of_mem_filter h)
    rw [List.count_eq_zero.mpr hmem, hnone, Nat.mul_zero]

/-- The rows of the roots and the row of no suite. -/
def rootRows (suites : List TestSuite) (rows : List SuiteCoverage) : List SuiteCoverage :=
  rows.filter fun row => row.suiteId.all (· ∈ (suites.filter (IsRoot suites)).map (·.id))

theorem mem_rootIds (hdistinct : Distinct suites) {suite : TestSuite} (hsuite : suite ∈ suites) :
    suite.id ∈ (suites.filter (IsRoot suites)).map (·.id) ↔ IsRoot suites suite := by
  simp only [List.mem_map, List.mem_filter, decide_eq_true_eq]
  constructor
  · rintro ⟨other, ⟨hother, hroot⟩, hid⟩
    rw [← hdistinct.eq hother hsuite hid]
    exact hroot
  · exact fun hroot => ⟨suite, ⟨hsuite, hroot⟩, rfl⟩

theorem total_sortedRows (rows : List SuiteCoverage) :
    Counters.total ((rootRows suites (rows.mergeSort rowLe)).map (·.activeCases))
      = Counters.total ((rootRows suites rows).map (·.activeCases)) :=
  Counters.total_perm (((List.mergeSort_perm rows rowLe).filter _).map _)

section
variable {reachedCaseIds : Finset Uuid} {failurePairs linkedFailurePairs : Finset (Uuid × Uuid)}

/-- The counts of the rows of the roots and of no suite are those of their cases. -/
theorem total_rootRows (hdistinct : Distinct suites) {paths : List (Uuid × String)} {fuel : Nat}
    (hpaths : suitePaths suites fuel = some paths) (hids : descendantIds suites fuel = some d)
    {rows : List SuiteCoverage} (h : buildSuiteCoverage cases suites reachedCaseIds failurePairs
      linkedFailurePairs fuel = some rows) :
    Counters.total ((rootRows suites rows).map (·.activeCases))
      = ((suites.filter (IsRoot suites)).flatMap (scopedCases d cases)).length
        + (unassignedCases cases).length := by
  rw [buildSuiteCoverage, hpaths, Option.bind_eq_bind, Option.bind_some, hids, Option.bind_eq_bind,
    Option.bind_some] at h
  obtain rfl := Option.some.inj h
  rw [total_sortedRows, rootRows, List.filter_append, List.map_append, Counters.total_append,
    List.filter_map, List.map_map]
  have hfilter : suites.filter ((fun row : SuiteCoverage =>
        row.suiteId.all (· ∈ (suites.filter (IsRoot suites)).map (·.id)))
        ∘ fun suite => coverageRow (some suite.id) (pathFor paths suite) (some suite.status)
          (scopedCases d cases suite) reachedCaseIds failurePairs linkedFailurePairs)
      = suites.filter (IsRoot suites) := by
    apply List.filter_congr
    intro suite hsuite
    exact decide_eq_decide.mpr (mem_rootIds hdistinct hsuite)
  rw [hfilter]
  congr 1
  · exact Counters.total_map_length (scopedCases d cases) _
  · by_cases hnone : unassignedCases cases = []
    · rw [if_pos hnone, hnone]
      rfl
    · rw [if_neg hnone]
      rfl

end

/-- The coverage is made, whatever the parents are. -/
theorem buildSuiteCoverage_ends (cases : List TestCase) (suites : List TestSuite)
    (reachedCaseIds : Finset Uuid) (failurePairs linkedFailurePairs : Finset (Uuid × Uuid)) :
    ∃ rows, ∀ fuel, suites.length < fuel → buildSuiteCoverage cases suites reachedCaseIds
      failurePairs linkedFailurePairs fuel = some rows := by
  obtain ⟨d, hids⟩ := climbAll_ends suites suites (ownIds suites)
  obtain ⟨paths, hpaths⟩ := suitePaths_ends suites
  have hfuel := Nat.lt_succ_self suites.length
  obtain ⟨rows, hrows⟩ : ∃ rows, buildSuiteCoverage cases suites reachedCaseIds failurePairs
      linkedFailurePairs (suites.length + 1) = some rows := by
    rw [buildSuiteCoverage, hpaths _ hfuel, Option.bind_eq_bind, Option.bind_some, descendantIds,
      hids _ hfuel, Option.bind_eq_bind, Option.bind_some]
    exact ⟨_, rfl⟩
  refine ⟨rows, fun fuel hmore => ?_⟩
  rw [← hrows, buildSuiteCoverage, buildSuiteCoverage, hpaths fuel hmore, hpaths _ hfuel,
    descendantIds, descendantIds, hids fuel hmore, hids _ hfuel]

/-- Both loops end, whatever the parents are, and find the same suites under each suite. In a
forest the roots and the cases of no suite account for every case once. -/
theorem descendants_agree (suites : List TestSuite) :
    ∃ d, (∀ fuel, suites.length < fuel → descendantIds suites fuel = some d)
      ∧ (∀ id, ∃ scope, (∀ fuel, suites.length < fuel →
          TestCaseSnapshotService.suiteScopeIds id suites true fuel = some scope)
        ∧ (Distinct suites → scopedSuiteIds d id = scope))
      ∧ ∀ cases reachedCaseIds failurePairs linkedFailurePairs, ∃ rows,
        (∀ fuel, suites.length < fuel → buildSuiteCoverage cases suites reachedCaseIds failurePairs
          linkedFailurePairs fuel = some rows)
        ∧ (Distinct suites → Acyclic (Under suites) →
          (∀ testCase ∈ cases, ∀ id, testCase.suiteId = some id → id ∈ suites.map (·.id)) →
            ((suites.filter (IsRoot suites)).flatMap (scopedCases d cases)
              ++ unassignedCases cases).Perm cases
            ∧ Counters.total ((rootRows suites rows).map (·.activeCases)) = cases.length) := by
  obtain ⟨d, hids⟩ := climbAll_ends suites suites (ownIds suites)
  obtain ⟨paths, hpaths⟩ := suitePaths_ends suites
  have hscope := fun hdistinct =>
    mem_descendantIds hdistinct (hids _ (Nat.lt_succ_self suites.length))
  refine ⟨d, hids, fun id => ?_, fun cases reachedCaseIds failurePairs linkedFailurePairs => ?_⟩
  · obtain ⟨scope, hmem, hends⟩ := suiteScopeIds_total suites id
    refine ⟨scope, hends, fun hdistinct => ?_⟩
    ext x
    rw [hscope hdistinct, hmem]
  · have hfuel := Nat.lt_succ_self suites.length
    obtain ⟨rows, hrows⟩ := buildSuiteCoverage_ends cases suites reachedCaseIds failurePairs
      linkedFailurePairs
    refine ⟨rows, hrows, fun hdistinct hacyclic hcases => ?_⟩
    have hperm := cases_perm hdistinct hacyclic (hscope hdistinct) hcases
    refine ⟨hperm, ?_⟩
    rw [total_rootRows hdistinct (hpaths _ hfuel) (hids _ hfuel) (hrows _ hfuel),
      ← List.length_append, hperm.length_eq]

/-- A suite. -/
def checkout : TestSuite := ⟨1, 7, none, "checkout", "", .active, 0, 0, 0⟩

/-- A suite under it. -/
def payment : TestSuite := ⟨2, 7, some 1, "payment", "", .active, 0, 0, 0⟩

/-- A case of the inner suite. -/
def payByCard : TestCase := ⟨3, 7, some 2, "pay by card", "", [], .p1, .manual, .active, [], 0, 0⟩

/-- A case without a suite. -/
def smoke : TestCase := ⟨4, 7, none, "smoke", "", [], .p1, .automated, .active, [], 0, 0⟩

theorem acyclic_checkout : Acyclic (Under [checkout, payment]) := by
  have hedge : ∀ a b, Under [checkout, payment] a b → a = 2 ∧ b = 1 := by
    rintro a b ⟨suite, hsuite, hid, hparent⟩
    simp only [List.mem_cons, List.not_mem_nil, or_false] at hsuite
    rcases hsuite with rfl | rfl
    · cases hparent
    · exact ⟨hid.symm, (Option.some.inj hparent).symm⟩
  intro a hcycle
  obtain ⟨b, hstep, hback⟩ := TransGen.head'_iff.mp hcycle
  obtain ⟨rfl, rfl⟩ := hedge _ _ hstep
  rcases ReflTransGen.cases_head hback with hsame | ⟨_, hstep', -⟩
  · cases hsame
  · exact absurd (hedge _ _ hstep').1 (by decide)

theorem descendants_agree_checkout :
    ∃ d, (∀ fuel, 2 < fuel → descendantIds [checkout, payment] fuel = some d)
      ∧ (∀ id, ∃ scope, (∀ fuel, 2 < fuel →
          TestCaseSnapshotService.suiteScopeIds id [checkout, payment] true fuel = some scope)
        ∧ scopedSuiteIds d id = scope)
      ∧ ∃ rows, (∀ fuel, 2 < fuel →
          buildSuiteCoverage [payByCard, smoke] [checkout, payment] ∅ ∅ ∅ fuel = some rows)
        ∧ ((([checkout, payment].filter (IsRoot [checkout, payment])).flatMap
            (scopedCases d [payByCard, smoke])) ++ unassignedCases [payByCard, smoke]).Perm
              [payByCard, smoke]
        ∧ Counters.total ((rootRows [checkout, payment] rows).map (·.activeCases)) = 2 := by
  have hdistinct : Distinct [checkout, payment] := by unfold Distinct; decide
  obtain ⟨d, hids, hscopes, hrows⟩ := descendants_agree [checkout, payment]
  refine ⟨d, hids, fun id => ?_, ?_⟩
  · obtain ⟨scope, hends, hsame⟩ := hscopes id
    exact ⟨scope, hends, hsame hdistinct⟩
  · obtain ⟨rows, hends, hcases⟩ := hrows [payByCard, smoke] ∅ ∅ ∅
    exact ⟨rows, hends, hcases hdistinct acyclic_checkout (by decide)⟩

end

end QualityService

end QaPlatform.Services
