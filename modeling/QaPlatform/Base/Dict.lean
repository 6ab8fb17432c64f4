import Mathlib.Data.List.Nodup
import QaPlatform.Base.Edits

/-!
# Dictionaries

The entries of a dictionary in the order in which their keys were added, each key once. Setting a
key that is there leaves it in its place.
-/

namespace QaPlatform

universe u
variable {κ ν υ ε α : Type u} [DecidableEq κ]

/-- A Python dictionary: entries in the order of insertion, under distinct keys. -/
structure Dict (κ ν : Type u) where
  entries : List (κ × ν)
  nodup : (entries.map Prod.fst).Nodup

namespace Dict

/-- `{}`. -/
def empty : Dict κ ν := ⟨[], List.nodup_nil⟩

/-- `list(d)`. -/
def keys (d : Dict κ ν) : List κ := d.entries.map Prod.fst

/-- `d.get(k)`. -/
def get? (d : Dict κ ν) (k : κ) : Option ν := (d.entries.find? (·.1 = k)).map Prod.snd

/-- Sets the value of a key in its place, or behind the entries. -/
def put (k : κ) (v : ν) : List (κ × ν) → List (κ × ν)
  | [] => [(k, v)]
  | e :: l => if e.1 = k then (k, v) :: l else e :: put k v l

theorem mem_keys_put {k k' : κ} {v : ν} {l : List (κ × ν)} :
    k' ∈ (put k v l).map Prod.fst ↔ k' = k ∨ k' ∈ l.map Prod.fst := by
  induction l with
  | nil => simp [put]
  | cons e l ih =>
    unfold put
    split
    · next h => simp [h]
    · rw [List.map_cons, List.mem_cons, ih, List.map_cons, List.mem_cons, or_left_comm]

theorem nodup_put (k : κ) (v : ν) {l : List (κ × ν)} (h : (l.map Prod.fst).Nodup) :
    ((put k v l).map Prod.fst).Nodup := by
  induction l with
  | nil => simp [put]
  | cons e l ih =>
    rw [List.map_cons, List.nodup_cons] at h
    unfold put
    split
    · next hk =>
      rw [List.map_cons, List.nodup_cons]
      exact ⟨hk ▸ h.1, h.2⟩
    · next hk =>
      rw [List.map_cons, List.nodup_cons, mem_keys_put, not_or]
      exact ⟨⟨hk, h.1⟩, ih h.2⟩

theorem find?_put_self (k : κ) (v : ν) (l : List (κ × ν)) :
    ((put k v l).find? (·.1 = k)).map Prod.snd = some v := by
  induction l with
  | nil => simp [put]
  | cons e l ih =>
    unfold put
    split
    · simp
    · next hk =>
      rw [List.find?_cons_of_neg (by simpa using hk)]
      exact ih

theorem find?_put_ne {k k' : κ} (hne : k' ≠ k) (v : ν) (l : List (κ × ν)) :
    (put k v l).find? (·.1 = k') = l.find? (·.1 = k') := by
  have hk : ¬ k = k' := fun h => hne h.symm
  induction l with
  | nil => simp [put, hk]
  | cons e l ih =>
    unfold put
    split
    · next he =>
      rw [List.find?_cons_of_neg (by simpa using hk),
        List.find?_cons_of_neg (by simpa [he] using hk)]
    · rw [List.find?_cons, List.find?_cons, ih]

/-- `d[k] = v`, which leaves a key that is there where it is. -/
def set (d : Dict κ ν) (k : κ) (v : ν) : Dict κ ν := ⟨put k v d.entries, nodup_put k v d.nodup⟩

/-- The values, each made from its key and the value before. -/
def mapVals (f : κ → ν → υ) (d : Dict κ ν) : Dict κ υ where
  entries := d.entries.map fun e => (e.1, f e.1 e.2)
  nodup := by
    rw [List.map_map]
    exact d.nodup

section
variable {d : Dict κ ν} {k k' : κ} {v v' : ν}

@[simp] theorem get?_empty (k : κ) : (empty : Dict κ ν).get? k = none := rfl

@[simp] theorem get?_set_self (d : Dict κ ν) (k : κ) (v : ν) : (d.set k v).get? k = some v :=
  find?_put_self k v d.entries

theorem get?_set_ne (h : k' ≠ k) (v : ν) : (d.set k v).get? k' = d.get? k' :=
  congrArg (Option.map Prod.snd) (find?_put_ne h v d.entries)

theorem get?_set_eq_some (h : (d.set k v).get? k' = some v') :
    k' = k ∧ v' = v ∨ k' ≠ k ∧ d.get? k' = some v' := by
  by_cases hk : k' = k
  · subst hk
    rw [get?_set_self, Option.some.injEq] at h
    exact .inl ⟨rfl, h.symm⟩
  · rw [get?_set_ne hk] at h
    exact .inr ⟨hk, h⟩

theorem get?_eq_some : d.get? k = some v ↔ (k, v) ∈ d.entries := by
  have hnodup := d.nodup
  unfold get?
  generalize d.entries = l at hnodup
  induction l with
  | nil => simp
  | cons e l ih =>
    rw [List.map_cons, List.nodup_cons] at hnodup
    rw [List.mem_cons]
    by_cases he : e.1 = k
    · subst he
      have hnot : (e.1, v) ∉ l := fun hmem => hnodup.1 (List.mem_map.mpr ⟨_, hmem, rfl⟩)
      rw [List.find?_cons_of_pos (by simp), Option.map_some, Option.some.injEq, or_iff_left hnot]
      exact ⟨fun h => by rw [← h], fun h => by rw [← h]⟩
    · have hne : (k, v) ≠ e := fun h => he (by rw [← h])
      rw [List.find?_cons_of_neg (by simpa using he), or_iff_right hne]
      exact ih hnodup.2

theorem mem_keys : k ∈ d.keys ↔ ∃ v, d.get? k = some v := by
  simp only [keys, get?_eq_some, List.mem_map, Prod.exists, exists_and_right, exists_eq_right]

theorem get?_mapVals (f : κ → ν → υ) (d : Dict κ ν) (k : κ) :
    (d.mapVals f).get? k = (d.get? k).map (f k) := by
  cases h : d.get? k with
  | some v =>
    rw [get?_eq_some] at h
    exact get?_eq_some.mpr (List.mem_map.mpr ⟨(k, v), h, rfl⟩)
  | none =>
    cases h' : (d.mapVals f).get? k with
    | none => rfl
    | some w =>
      obtain ⟨e, he, heq⟩ := List.mem_map.mp (get?_eq_some.mp h')
      obtain ⟨rfl, -⟩ := Prod.mk.inj heq
      rw [get?_eq_some.mpr he] at h
      cases h

end

/-! ## Keys -/

section
variable {d d' : Dict κ ν} {k : κ}

theorem keys_put_of_mem {v : ν} {l : List (κ × ν)} (h : k ∈ l.map Prod.fst) :
    (put k v l).map Prod.fst = l.map Prod.fst := by
  induction l with
  | nil => exact absurd h List.not_mem_nil
  | cons e l ih =>
    unfold put
    split
    · next he => rw [List.map_cons, List.map_cons, he]
    · next he =>
      rw [List.map_cons, List.mem_cons] at h
      rw [List.map_cons, List.map_cons, ih (h.resolve_left fun hk => he hk.symm)]

theorem keys_set_of_mem (h : k ∈ d.keys) (v : ν) : (d.set k v).keys = d.keys := keys_put_of_mem h

theorem keys_put_of_not_mem {v : ν} {l : List (κ × ν)} (h : k ∉ l.map Prod.fst) :
    (put k v l).map Prod.fst = l.map Prod.fst ++ [k] := by
  induction l with
  | nil => rfl
  | cons e l ih =>
    rw [List.map_cons, List.mem_cons, not_or] at h
    unfold put
    rw [if_neg fun he => h.1 he.symm, List.map_cons, ih h.2]
    rfl

theorem keys_set_of_not_mem (h : k ∉ d.keys) (v : ν) : (d.set k v).keys = d.keys ++ [k] :=
  keys_put_of_not_mem h

omit [DecidableEq κ] in
@[simp] theorem keys_mapVals (f : κ → ν → υ) (d : Dict κ ν) : (d.mapVals f).keys = d.keys := by
  unfold keys mapVals
  rw [List.map_map]
  rfl

/-- Keys that are set alike keep two dictionaries alike. -/
theorem keys_set_congr {d : Dict κ ν} {d' : Dict κ υ} (h : d.keys = d'.keys) (k : κ)
    (v : ν) (w : υ) :
    (d.set k v).keys = (d'.set k w).keys := by
  by_cases hk : k ∈ d.keys
  · rw [keys_set_of_mem hk, keys_set_of_mem (h ▸ hk), h]
  · rw [keys_set_of_not_mem hk, keys_set_of_not_mem (h ▸ hk), h]

/-- A dictionary is its keys in their order and the value of each. -/
theorem ext_keys (hkeys : d.keys = d'.keys) (hget : ∀ k, d.get? k = d'.get? k) : d = d' := by
  obtain ⟨l, hl⟩ := d
  obtain ⟨l', hl'⟩ := d'
  have hmem : ∀ e, e ∈ l ↔ e ∈ l' := by
    rintro ⟨k, v⟩
    have h : (⟨l, hl⟩ : Dict κ ν).get? k = some v ↔ (⟨l', hl'⟩ : Dict κ ν).get? k = some v := by
      rw [hget k]
    exact get?_eq_some.symm.trans (h.trans get?_eq_some)
  have hentries : l = l' := by
    clear hget
    replace hkeys : l.map Prod.fst = l'.map Prod.fst := hkeys
    induction l generalizing l' with
    | nil => exact (List.map_eq_nil_iff.mp hkeys.symm).symm
    | cons e l ih =>
      cases l' with
      | nil => cases hkeys
      | cons e' l' =>
        rw [List.map_cons, List.map_cons, List.cons.injEq] at hkeys
        rw [List.map_cons, List.nodup_cons] at hl hl'
        have hhead : e = e' := by
          rcases List.mem_cons.mp ((hmem e).mp List.mem_cons_self) with h | h
          · exact h
          · exact absurd (hkeys.1 ▸ List.mem_map_of_mem h) hl'.1
        subst hhead
        refine congrArg (e :: ·) (ih hl.2 l' hl'.2 (fun e' => ⟨fun h => ?_, fun h => ?_⟩) hkeys.2)
        · rcases List.mem_cons.mp ((hmem e').mp (List.mem_cons_of_mem _ h)) with rfl | h'
          · exact absurd (List.mem_map_of_mem h) hl.1
          · exact h'
        · rcases List.mem_cons.mp ((hmem e').mpr (List.mem_cons_of_mem _ h)) with rfl | h'
          · exact absurd (List.mem_map_of_mem h) hl'.1
          · exact h'
  subst hentries
  rfl

/-- A key is in both of two dictionaries with the same keys, or in none. -/
theorem get?_eq_none_congr {d : Dict κ ν} {d' : Dict κ υ} (h : d.keys = d'.keys) :
    d.get? k = none ↔ d'.get? k = none := by
  have hmem : (∃ v, d.get? k = some v) ↔ ∃ v, d'.get? k = some v := by
    rw [← mem_keys, ← mem_keys, h]
  rw [Option.eq_none_iff_forall_ne_some, Option.eq_none_iff_forall_ne_some]
  constructor
  · intro hnone v hv
    obtain ⟨w, hw⟩ := hmem.mpr ⟨v, hv⟩
    exact hnone w hw
  · intro hnone v hv
    obtain ⟨w, hw⟩ := hmem.mp ⟨v, hv⟩
    exact hnone w hw

/-- Nothing changes when a key is set to the value that it has. -/
theorem set_of_get? {v : ν} (h : d.get? k = some v) : d.set k v = d := by
  apply ext_keys
  · exact keys_set_of_mem (mem_keys.mpr ⟨v, h⟩) v
  · intro k'
    by_cases hk : k' = k
    · rw [hk, get?_set_self, h]
    · exact get?_set_ne hk v

end

/-! ## Editing -/

/-- Edits the value of a key. -/
def edit (missing : ε) (x : Edit ε ν α) (k : κ) : Edit ε (Dict κ ν) α := fun d =>
  match d.get? k with
  | none => (d, .error missing)
  | some v => (d.set k (x v).1, (x v).2)

/-- Edits a value with its key. -/
def value (x : Edit ε ν PUnit) : Edit ε (κ × ν) PUnit :=
  Edit.zoom Prod.snd (fun v e => (e.1, v)) x

omit [DecidableEq κ] in
theorem keys_each (x : Edit ε ν PUnit) (l : List (κ × ν)) :
    ((Edit.each (value x) l).1).map Prod.fst = l.map Prod.fst := by
  induction l with
  | nil => rfl
  | cons e l ih =>
    unfold Edit.each
    split
    · rfl
    · rw [List.map_cons, ih]
      rfl

/-- Edits the values in turn, up to the first that raises. -/
def editAll (x : Edit ε ν PUnit) : Edit ε (Dict κ ν) PUnit := fun d =>
  (⟨(Edit.each (value x) d.entries).1, by rw [keys_each]; exact d.nodup⟩,
    (Edit.each (value x) d.entries).2)

section
variable {x : Edit ε ν PUnit} {R : ν → ν → Prop} {P : ν → Prop} {d : Dict κ ν} {k : κ} {v : ν}

omit [DecidableEq κ] in
@[simp] theorem keys_editAll (x : Edit ε ν PUnit) (d : Dict κ ν) : (editAll x d).1.keys = d.keys :=
  keys_each x d.entries

/-- The value of a key is edited, if it is there. -/
theorem edit_of_some {x : Edit ε ν α} {missing : ε} (h : d.get? k = some v) :
    edit missing x k d = (d.set k (x v).1, (x v).2) := by
  unfold edit
  rw [h]

theorem edit_of_none {x : Edit ε ν α} {missing : ε} (h : d.get? k = none) :
    edit missing x k d = (d, .error missing) := by
  unfold edit
  rw [h]

/-- Every value is edited when none raises. -/
theorem editAll_ok (hx : ∀ v, P v → ∃ v', x v = (v', .ok ⟨⟩) ∧ R v v')
    (hall : ∀ k v, d.get? k = some v → P v) : ∃ d', editAll x d = (d', .ok ⟨⟩)
      ∧ d'.keys = d.keys ∧ ∀ k v, d.get? k = some v → ∃ v', d'.get? k = some v' ∧ R v v' := by
  obtain ⟨l, hnodup⟩ := d
  have hentries : ∀ e ∈ l, P e.2 := fun e he => hall e.1 e.2 (get?_eq_some.mpr he)
  have hl : ∃ l', Edit.each (value x) l = (l', .ok ⟨⟩) ∧ l'.map Prod.fst = l.map Prod.fst
      ∧ ∀ e ∈ l, ∃ v', (e.1, v') ∈ l' ∧ R e.2 v' := by
    clear hall hnodup
    induction l with
    | nil => exact ⟨[], rfl, rfl, fun e he => absurd he List.not_mem_nil⟩
    | cons e l ih =>
      obtain ⟨v', hv', hr⟩ := hx e.2 (hentries e List.mem_cons_self)
      obtain ⟨l', hl', hkeys, hrel⟩ := ih fun e he => hentries e (List.mem_cons_of_mem _ he)
      have hvalue : value x e = ((e.1, v'), .ok ⟨⟩) := by
        simp only [value, Edit.zoom, hv']
      refine ⟨(e.1, v') :: l', ?_, ?_, ?_⟩
      · simp only [Edit.each, hvalue, hl']
      · rw [List.map_cons, hkeys, List.map_cons]
      · intro e' he'
        rcases List.mem_cons.mp he' with rfl | he'
        · exact ⟨v', List.mem_cons_self, hr⟩
        · obtain ⟨w, hw, hr'⟩ := hrel e' he'
          exact ⟨w, List.mem_cons_of_mem _ hw, hr'⟩
  obtain ⟨l', hl', hkeys, hrel⟩ := hl
  refine ⟨⟨l', hkeys ▸ hnodup⟩, ?_, hkeys, ?_⟩
  · simp only [editAll, hl']
  · intro k v hk
    obtain ⟨v', hmem, hr⟩ := hrel (k, v) (get?_eq_some.mp hk)
    exact ⟨v', get?_eq_some.mpr hmem, hr⟩

end

/-! ## Setting many keys -/

theorem mem_keys_set {d : Dict κ ν} {k k' : κ} {v : ν} :
    k' ∈ (d.set k v).keys ↔ k' = k ∨ k' ∈ d.keys := mem_keys_put

/-- Sets keys one after the other, as the pairs come. -/
def setAll (d : Dict κ ν) (l : List (κ × ν)) : Dict κ ν := l.foldl (fun d e => d.set e.1 e.2) d

/-- Of keys that come once, each has the value that came with it; every other key is as before. -/
theorem get?_setAll {d : Dict κ ν} {l : List (κ × ν)} {k : κ} {v : ν}
    (h : (l.map Prod.fst).Nodup) :
    (d.setAll l).get? k = some v ↔ (k, v) ∈ l ∨ k ∉ l.map Prod.fst ∧ d.get? k = some v := by
  induction l generalizing d with
  | nil => simp [setAll]
  | cons e l ih =>
    rw [List.map_cons, List.nodup_cons] at h
    show ((d.set e.1 e.2).setAll l).get? k = some v ↔ _
    rw [ih h.2, List.map_cons, List.mem_cons, List.mem_cons, not_or]
    by_cases hk : k = e.1
    · subst hk
      have hnot : ∀ w, (e.1, w) ∉ l := fun w hw => h.1 (List.mem_map.mpr ⟨_, hw, rfl⟩)
      have hpair : (e.1, v) = e ↔ e.2 = v := by
        constructor
        · intro heq
          rw [← heq]
        · intro hv
          rw [← hv]
      simp [hnot v, h.1, hpair]
    · have hpair : (k, v) ≠ e := fun heq => hk (by rw [← heq])
      simp [hk, hpair, get?_set_ne hk]

/-! ## Dictionaries in a dictionary -/

/-- `d.setdefault(k, {})[k'] = v`. -/
def setIn {κ' : Type u} [DecidableEq κ'] (d : Dict κ (Dict κ' ν)) (k : κ) (k' : κ') (v : ν) :
    Dict κ (Dict κ' ν) :=
  d.set k (((d.get? k).getD empty).set k' v)

/-- `d[k][k']`. -/
def getIn? {κ' : Type u} [DecidableEq κ'] (d : Dict κ (Dict κ' ν)) (k : κ) (k' : κ') : Option ν :=
  (d.get? k).bind (·.get? k')

/-- Sets such values one after the other. -/
def setAllIn {κ' : Type u} [DecidableEq κ'] (d : Dict κ (Dict κ' ν)) (l : List ((κ × κ') × ν)) :
    Dict κ (Dict κ' ν) :=
  l.foldl (fun d e => d.setIn e.1.1 e.1.2 e.2) d

section
variable {κ' : Type u} [DecidableEq κ'] {d : Dict κ (Dict κ' ν)}

theorem getIn?_setIn_self (d : Dict κ (Dict κ' ν)) (k : κ) (k' : κ') (v : ν) :
    (d.setIn k k' v).getIn? k k' = some v := by
  simp [setIn, getIn?]

theorem getIn?_setIn_ne {k i : κ} {k' i' : κ'} (h : (i, i') ≠ (k, k')) (v : ν) :
    (d.setIn k k' v).getIn? i i' = d.getIn? i i' := by
  unfold setIn getIn?
  by_cases hi : i = k
  · subst hi
    have hi' : i' ≠ k' := fun heq => h (by rw [heq])
    rw [get?_set_self, Option.bind_some, get?_set_ne hi']
    cases d.get? i with
    | none => rfl
    | some inner => rfl
  · rw [get?_set_ne hi]

theorem getIn?_setAllIn {l : List ((κ × κ') × ν)} {k : κ} {k' : κ'} {v : ν}
    (h : (l.map Prod.fst).Nodup) :
    (d.setAllIn l).getIn? k k' = some v
      ↔ ((k, k'), v) ∈ l ∨ (k, k') ∉ l.map Prod.fst ∧ d.getIn? k k' = some v := by
  induction l generalizing d with
  | nil => simp [setAllIn]
  | cons e l ih =>
    obtain ⟨⟨i, i'⟩, w⟩ := e
    rw [List.map_cons, List.nodup_cons] at h
    show ((d.setIn i i' w).setAllIn l).getIn? k k' = some v ↔ _
    rw [ih h.2, List.map_cons, List.mem_cons, List.mem_cons, not_or]
    by_cases hk : (k, k') = (i, i')
    · obtain ⟨rfl, rfl⟩ := Prod.mk.inj hk
      have hnot : ∀ w, ((k, k'), w) ∉ l := fun u hu => h.1 (List.mem_map.mpr ⟨_, hu, rfl⟩)
      rw [getIn?_setIn_self]
      simp [hnot v, h.1, eq_comm]
    · have hpair : ((k, k'), v) ≠ ((i, i'), w) := fun heq => hk (congrArg Prod.fst heq)
      rw [getIn?_setIn_ne hk]
      simp [hk, hpair]

theorem mem_keys_setAllIn {l : List ((κ × κ') × ν)} {k : κ} :
    k ∈ (d.setAllIn l).keys ↔ k ∈ d.keys ∨ ∃ e ∈ l, e.1.1 = k := by
  induction l generalizing d with
  | nil => simp [setAllIn]
  | cons e l ih =>
    show k ∈ ((d.setIn e.1.1 e.1.2 e.2).setAllIn l).keys ↔ _
    have hset : k ∈ (d.setIn e.1.1 e.1.2 e.2).keys ↔ k = e.1.1 ∨ k ∈ d.keys := mem_keys_set
    rw [ih, hset]
    simp only [List.mem_cons, exists_eq_or_imp]
    rw [or_assoc, or_left_comm, eq_comm]

end

end Dict

end QaPlatform
