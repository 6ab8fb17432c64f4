import QaPlatform.Automation.Occurrences
import QaPlatform.Automation.Scheduler
import QaPlatform.Runtime.ScheduleSteps

/-!
# Plans without an enumeration

The in-memory scheduler enumerates what is due and then applies the misfire policy; the
persistent one plans without enumerating. Both select the same instants. `Enumerates` is the
enumeration, and every walk of the plan is a part of it.

What a policy selects lies at one end of the enumeration, so the plan walks there only:
backwards over the last occurrences (`catchUpWalk_eq`), or forwards through the grace window
(`graceWalk_eq`). Both searches give the nearest occurrence, so that no walk leaves one out, and
the grace window of a day holds no more instants than its walk has room for.
-/

namespace QaPlatform.Runtime

open Automation (CronExpression Zone Zones AutomationSchedule MisfirePolicy)
open Automation.CronExpression
open Automation.InMemoryScheduler (applyMisfirePolicy dueFrom asManager)

/-- The occurrences from one on that are due, and the first that is not. -/
inductive Enumerates (next : Int → Int → Prop) (now : Int) : Int → List Int → Int → Prop
  | done {a : Int} (h : now < a) : Enumerates next now a [] a
  | due {a b cursor : Int} {later : List Int} (h : a ≤ now) (hnext : next a b)
      (hrest : Enumerates next now b later cursor) : Enumerates next now a (a :: later) cursor

namespace Enumerates

section
variable {c : CronExpression} {zones : Zones} {zone : Zone} {timezoneName : String}
  {now a cursor : Int} {due : List Int}

/-- One step of an enumeration. -/
def NextIs (c : CronExpression) (zones : Zones) (timezoneName : String) (a b : Int) : Prop :=
  c.nextAfter zones a timezoneName = .ok b

theorem next_isNext (hzone : zones timezoneName = some zone) {b : Int}
    (h : NextIs c zones timezoneName a b) : IsNext (c.occurrences zone) a b :=
  ((nextAfter_eq_ok hzone).mp h).1

/-- From an occurrence to the next one both searches find the two. -/
theorem searches (hzone : zones timezoneName = some zone) (ha : a ∈ c.occurrences zone) {b x : Int}
    (h : NextIs c zones timezoneName a b) (hax : a ≤ x) (hxb : x < b) :
    c.previousAtOrBefore zones x timezoneName = .ok a
      ∧ c.nextAfter zones x timezoneName = .ok b := by
  obtain ⟨hnext, hwindow⟩ := (nextAfter_eq_ok hzone).mp h
  have hfloor : floorMinute a = a := floorMinute_of_emod ha.1
  have hmono : a ≤ floorMinute x := by
    calc a = floorMinute a := hfloor.symm
      _ ≤ floorMinute x := floorMinute_mono hax
  rw [hfloor] at hwindow
  constructor
  · refine (previousAtOrBefore_eq_ok hzone).mpr ⟨hnext.previous ha hax hxb, ?_⟩
    exact lt_of_le_of_lt (floorMinute_le x) (lt_of_lt_of_le hxb hwindow)
  · refine (nextAfter_eq_ok hzone).mpr ⟨hnext.between hax hxb, le_trans hwindow ?_⟩
    exact Int.add_le_add_right hmono _

/-- Just before an occurrence it is the next one. -/
theorem next_of_occurrence (hzone : zones timezoneName = some zone) (ha : a ∈ c.occurrences zone) :
    c.nextAfter zones (a - 1) timezoneName = .ok a := by
  refine (nextAfter_eq_ok hzone).mpr
    ⟨⟨⟨ha, Int.sub_one_lt_of_le (Int.le_refl a)⟩, fun m hm => ?_⟩, ?_⟩
  · exact Int.le_of_sub_one_lt hm.2
  · have hhigh : a - 1 < floorMinute (a - 1) + minuteLength := lt_floorMinute_add (a - 1)
    have hwindow : minuteLength ≤ maxSearchMinutes * minuteLength := by decide
    have hnext : a ≤ floorMinute (a - 1) + minuteLength := Int.le_of_sub_one_lt hhigh
    exact le_trans hnext (Int.add_le_add_left hwindow _)

theorem exists_of_searches (hzone : zones timezoneName = some zone)
    (hsearch : ∀ o ∈ c.occurrences zone, a ≤ o → o ≤ now →
      ∃ n, c.nextAfter zones o timezoneName = .ok n)
    (ha : a ∈ c.occurrences zone) :
    ∃ due cursor, Enumerates (NextIs c zones timezoneName) now a due cursor := by
  induction hroom : (now + 1 - a).toNat using Nat.strong_induction_on generalizing a with
  | _ room ih =>
    by_cases hdue : a ≤ now
    · obtain ⟨b, hb⟩ := hsearch a ha (le_refl a) hdue
      have hnext := next_isNext hzone hb
      have hlt : a < b := hnext.lt
      obtain ⟨later, cursor, hlater⟩ := ih (now + 1 - b).toNat (by omega)
        (fun o ho hbo => hsearch o ho (by omega)) hnext.mem rfl
      exact ⟨a :: later, cursor, .due hdue hb hlater⟩
    · exact ⟨[], a, .done (not_le.mp hdue)⟩

/-- The enumeration of the in-memory scheduler. -/
theorem dueFrom_eq (h : Enumerates (NextIs c zones timezoneName) now a due cursor) {room : Nat}
    (hroom : due.length ≤ room) :
    dueFrom (fun instant => asManager (c.nextAfter zones instant timezoneName)) now room a
      = .ok (due, cursor) := by
  induction h generalizing room with
  | done hlater =>
    cases room with
    | zero =>
      unfold dueFrom
      exact refuse_bind_eq_ok.mpr ⟨not_le.mpr hlater, rfl⟩
    | succ room =>
      unfold dueFrom
      rw [if_neg (not_le.mpr hlater)]
      rfl
  | @due a b cursor later hdue hnext _ ih =>
    cases room with
    | zero => cases hroom
    | succ room =>
      unfold dueFrom
      rw [if_pos hdue]
      have hmanager : asManager (c.nextAfter zones a timezoneName) = .ok b := by
        rw [show c.nextAfter zones a timezoneName = .ok b from hnext]
        rfl
      refine bind_eq_ok.mpr ⟨b, hmanager, ?_⟩
      exact bind_eq_ok.mpr ⟨_, ih (Nat.le_of_succ_le_succ hroom), rfl⟩

/-- The walk through the grace window. -/
theorem graceWalk_eq (h : Enumerates (NextIs c zones timezoneName) now a due cursor) {room : Nat}
    (hroom : due.length ≤ room) :
    graceWalk (fun instant => asBusiness (c.nextAfter zones instant timezoneName)) now room a
      = .ok due := by
  induction h generalizing room with
  | done hlater =>
    cases room with
    | zero =>
      unfold graceWalk
      exact refuse_bind_eq_ok.mpr ⟨not_le.mpr hlater, rfl⟩
    | succ room =>
      unfold graceWalk
      rw [if_neg (not_le.mpr hlater)]
      rfl
  | @due a b cursor later hdue hnext _ ih =>
    cases room with
    | zero => cases hroom
    | succ room =>
      unfold graceWalk
      rw [if_pos hdue]
      refine bind_eq_ok.mpr ⟨b, asBusiness_eq_ok.mpr hnext, ?_⟩
      exact bind_eq_ok.mpr ⟨_, ih (Nat.le_of_succ_le_succ hroom), rfl⟩

/-- What is due starts with the first occurrence. -/
theorem starts (h : Enumerates (NextIs c zones timezoneName) now a due cursor) (hdue : a ≤ now) :
    ∃ later, due = a :: later := by
  cases h with
  | done hlater => exact absurd hlater (not_lt.mpr hdue)
  | due _ _ _ => exact ⟨_, rfl⟩

/-- An occurrence of the enumeration, and the enumeration from the next one on. -/
theorem split (hzone : zones timezoneName = some zone) (ha : a ∈ c.occurrences zone)
    {before after : List Int} {p : Int}
    (h : Enumerates (NextIs c zones timezoneName) now a (before ++ p :: after) cursor) :
    p ∈ c.occurrences zone ∧ a ≤ p ∧ p ≤ now ∧ (before ≠ [] → a < p)
      ∧ ∃ n, NextIs c zones timezoneName p n
        ∧ Enumerates (NextIs c zones timezoneName) now n after cursor := by
  induction before generalizing a with
  | nil =>
    cases h with
    | due hdue hnext hrest =>
      exact ⟨ha, le_refl p, hdue, fun h => absurd rfl h, _, hnext, hrest⟩
  | cons o before ih =>
    cases h with
    | due hdue hnext hrest =>
      have hisNext := next_isNext hzone hnext
      obtain ⟨hp, hle, hnow, -, hafter⟩ := ih hisNext.mem hrest
      have hlt := lt_of_lt_of_le hisNext.lt hle
      exact ⟨hp, hlt.le, hnow, fun _ => hlt, hafter⟩

/-- The last occurrence up to a point, and those after it. -/
theorem cut (hzone : zones timezoneName = some zone) (ha : a ∈ c.occurrences zone)
    (h : Enumerates (NextIs c zones timezoneName) now a due cursor) {x : Int} (hax : a ≤ x)
    (hxnow : x ≤ now) :
    ∃ before p after n, due = before ++ p :: after ∧ (∀ o ∈ before ++ [p], o ≤ x)
      ∧ (∀ o ∈ after, x < o) ∧ c.previousAtOrBefore zones x timezoneName = .ok p
      ∧ c.nextAfter zones x timezoneName = .ok n
      ∧ Enumerates (NextIs c zones timezoneName) now n after cursor := by
  induction h with
  | done hlater => exact absurd (lt_of_lt_of_le hlater (le_trans hax hxnow)) (lt_irrefl _)
  | @due a b cursor later hdue hnext hrest ih =>
    have hisNext := next_isNext hzone hnext
    by_cases hxb : x < b
    · obtain ⟨hprevious, hafter⟩ := searches hzone ha hnext hax hxb
      refine ⟨[], a, later, b, rfl, by simpa using hax, fun o ho => ?_, hprevious, hafter, hrest⟩
      obtain ⟨before, after, rfl⟩ := List.append_of_mem ho
      exact lt_of_lt_of_le hxb (split hzone hisNext.mem hrest).2.1
    · obtain ⟨before, p, after, n, rfl, hbefore, hrest⟩ := ih hisNext.mem (not_lt.mp hxb)
      refine ⟨a :: before, p, after, n, rfl, fun o ho => ?_, hrest⟩
      rcases List.mem_cons.mp ho with rfl | ho
      · exact hax
      · exact hbefore o ho

/-- An occurrence takes a minute at least. -/
theorem length_le (hzone : zones timezoneName = some zone) (ha : a ∈ c.occurrences zone)
    (h : Enumerates (NextIs c zones timezoneName) now a due cursor) (hne : due ≠ []) :
    a + (due.length - 1) * 60000000 ≤ now := by
  induction h with
  | done => exact absurd rfl hne
  | @due a b cursor later hdue hnext _ ih =>
    have hisNext := next_isNext hzone hnext
    have hlt : a < b := hisNext.lt
    obtain ⟨k, hk⟩ := exists_minute ha.1
    obtain ⟨k', hk'⟩ := exists_minute hisNext.mem.1
    unfold minuteLength at hk hk'
    by_cases hlast : later = []
    · rw [hlast]
      simpa using hdue
    · have hrest := ih hisNext.mem hlast
      rw [List.length_cons]
      push_cast
      omega

/-- The walk backwards takes the last occurrences. -/
theorem catchUpWalk_eq (hzone : zones timezoneName = some zone) (ha : a ∈ c.occurrences zone)
    (limit : Nat) {before after : List Int} {q : Int}
    (h : Enumerates (NextIs c zones timezoneName) now a (before ++ q :: after) cursor) :
    catchUpWalk (fun instant => asBusiness (c.previousAtOrBefore zones instant timezoneName))
      a limit
      q = .ok ((before ++ [q]).drop (before.length + 1 - limit)) := by
  induction limit generalizing before after q with
  | zero =>
    unfold catchUpWalk
    rw [List.drop_of_length_le (by simp)]
    rfl
  | succ limit ih =>
    obtain ⟨hq, hle, -, hstrict, -⟩ := split hzone ha h
    unfold catchUpWalk
    rw [if_neg (not_lt.mpr hle)]
    rcases List.eq_nil_or_concat' before with rfl | ⟨earlier, p, rfl⟩
    · -- the first occurrence
      obtain ⟨later, hlater⟩ := h.starts (by
        cases h with
        | due hdue _ _ => exact hdue)
      obtain rfl : q = a := (List.cons.inj hlater).1
      rw [if_pos (.inr rfl)]
      simp
      rfl
    · by_cases hlast : limit = 0
      · rw [if_pos (.inl hlast), hlast]
        simp
        rfl
      · have hlt : a < q := hstrict (by simp)
        rw [if_neg (not_or.mpr ⟨hlast, ne_of_gt hlt⟩)]
        have hsplit : Enumerates (NextIs c zones timezoneName) now a (earlier ++ p :: q :: after)
            cursor := by
          rw [List.append_cons]
          exact h
        obtain ⟨hp, -, -, -, n, hnext, hrest⟩ := split hzone ha hsplit
        obtain rfl : n = q := by
          cases hrest
          rfl
        have hpn := (next_isNext hzone hnext).lt
        -- one minute before the occurrence the previous one is the one the plan has before it
        have hprevious := (searches hzone hp hnext (x := n - 1) (by omega) (by omega)).1
        refine bind_eq_ok.mpr ⟨p, asBusiness_eq_ok.mpr hprevious, ?_⟩
        refine bind_eq_ok.mpr ⟨_, ih hsplit, ?_⟩
        have hcount : (earlier ++ [p]).length + 1 - (limit + 1) = earlier.length + 1 - limit := by
          rw [List.length_append, List.length_singleton]
          omega
        have hdrop : (earlier ++ [p] ++ [n]).drop (earlier.length + 1 - limit)
            = (earlier ++ [p]).drop (earlier.length + 1 - limit) ++ [n] := by
          refine List.drop_append_of_le_length ?_
          rw [List.length_append, List.length_singleton]
          omega
        rw [hcount, hdrop]
        rfl

end

end Enumerates

/-! ## Plans -/

section
variable {c : CronExpression} {zones : Zones} {zone : Zone} {timezoneName : String}
  {firstDue now cursor : Int} {due : List Int} {policy : MisfirePolicy}
  {misfireGraceSeconds catchUpLimit : Nat}

open Enumerates (NextIs)

/-- The grace window of a day holds no more instants than the walk has room for. -/
theorem length_le_room (hzone : zones timezoneName = some zone) {n : Int}
    (hn : n ∈ c.occurrences zone) (h : Enumerates (NextIs c zones timezoneName) now n due cursor)
    (hgrace : misfireGraceSeconds ≤ 86400) (hlow : now - seconds misfireGraceSeconds ≤ n) :
    due.length ≤ 1441 := by
  by_cases hnone : due = []
  · rw [hnone]
    exact Nat.zero_le _
  · have hlength := h.length_le hzone hn hnone
    unfold seconds at hlow
    omega

/-- What the enumeration has after the start of the grace window. -/
theorem grace_plan (hzone : zones timezoneName = some zone) (hfirst : firstDue ∈ c.occurrences zone)
    (h : Enumerates (NextIs c zones timezoneName) now firstDue due cursor)
    (hgrace : misfireGraceSeconds ≤ 86400) :
    let lowerBound := max firstDue (now - seconds misfireGraceSeconds)
    ∃ start, c.nextAfter zones (lowerBound - 1) timezoneName = .ok start
      ∧ graceWalk (fun instant => asBusiness (c.nextAfter zones instant timezoneName))
        now 1441 start
        = .ok (due.filter (now - seconds misfireGraceSeconds ≤ ·))
      ∧ (firstDue < lowerBound →
        ∃ representative, c.previousAtOrBefore zones (lowerBound - 1) timezoneName
          = .ok representative) := by
  intro lowerBound
  have hcutoff : now - seconds misfireGraceSeconds ≤ now := by
    unfold seconds
    omega
  by_cases hlater : firstDue < now - seconds misfireGraceSeconds
  · -- the window starts after the first occurrence
    have hbound : lowerBound = now - seconds misfireGraceSeconds := max_eq_right hlater.le
    rw [hbound]
    obtain ⟨before, p, after, n, rfl, hbefore, hafter, hprevious, hnext, hrest⟩ :=
      h.cut hzone hfirst (x := now - seconds misfireGraceSeconds - 1) (by omega) (by omega)
    have hisNext := Enumerates.next_isNext hzone hnext
    have hn : now - seconds misfireGraceSeconds - 1 < n := hisNext.lt
    have hroom := length_le_room hzone hisNext.mem hrest hgrace (by omega)
    refine ⟨n, hnext, ?_, fun _ => ⟨p, hprevious⟩⟩
    rw [hrest.graceWalk_eq hroom, List.append_cons, List.filter_append]
    have hnone : (before ++ [p]).filter (now - seconds misfireGraceSeconds ≤ ·) = [] := by
      refine List.filter_eq_nil_iff.mpr fun o ho => ?_
      have hearly := hbefore o ho
      simp only [decide_eq_true_eq]
      omega
    have hall : after.filter (now - seconds misfireGraceSeconds ≤ ·) = after := by
      refine List.filter_eq_self.mpr fun o ho => ?_
      have hlate := hafter o ho
      simp only [decide_eq_true_eq]
      omega
    rw [hnone, hall, List.nil_append]
  · -- it starts with it
    have hbound : lowerBound = firstDue := max_eq_left (not_lt.mp hlater)
    rw [hbound]
    have hroom := length_le_room hzone hfirst h hgrace (not_lt.mp hlater)
    refine ⟨firstDue, Enumerates.next_of_occurrence hzone hfirst, ?_,
      fun hlt => absurd hlt (lt_irrefl _)⟩
    have hall : due.filter (now - seconds misfireGraceSeconds ≤ ·) = due := by
      refine List.filter_eq_self.mpr fun o ho => ?_
      obtain ⟨before, after, rfl⟩ := List.append_of_mem ho
      have hle := (h.split hzone hfirst).2.1
      simp only [decide_eq_true_eq]
      omega
    rw [h.graceWalk_eq hroom, hall]

/-- The plan selects of an enumeration what the misfire policy selects of it. -/
theorem plan_of_enumerates (hzone : zones timezoneName = some zone)
    (hfirst : firstDue ∈ c.occurrences zone) (hdue : firstDue ≤ now)
    (h : Enumerates (NextIs c zones timezoneName) now firstDue due cursor)
    (hgrace : misfireGraceSeconds ≤ 86400) :
    ∃ plan, cronDuePlan zones c firstDue now timezoneName policy misfireGraceSeconds catchUpLimit
        = .ok plan ∧ plan.nextRunAt = cursor
      ∧ plan.selected = match policy with
        | .fireOnce => due.getLast?.toList
        | .catchUpLimited => due.drop (due.length - catchUpLimit)
        | .skip => due.filter (now - seconds misfireGraceSeconds ≤ ·) := by
  obtain ⟨before, latest, after, n, rfl, -, hafter, hlatest, hnext, hrest⟩ :=
    h.cut hzone hfirst hdue (le_refl now)
  -- nothing is due after now
  have hnone : after = [] := by
    refine List.eq_nil_iff_forall_not_mem.mpr fun o ho => ?_
    obtain ⟨front, rest, rfl⟩ := List.append_of_mem ho
    have hle := (hrest.split hzone (Enumerates.next_isNext hzone hnext).mem).2.2.1
    exact absurd (hafter o ho) (not_lt.mpr hle)
  subst hnone
  obtain rfl : n = cursor := by
    cases hrest
    rfl
  have hle := (h.split hzone hfirst).2.1
  unfold cronDuePlan
  have hstart : ∀ {rest : Instant → Instant → Except DomainError CronDuePlan} {plan : CronDuePlan},
      rest latest n = .ok plan →
      (do
        let latest ← asBusiness (c.previousAtOrBefore zones now timezoneName)
        let nextRun ← asBusiness (c.nextAfter zones now timezoneName)
        refuse (latest < firstDue) (.businessValidation "定时任务 next_run_at 与 cron 规则不一致")
        rest latest nextRun) = .ok plan := by
    intro rest plan hplan
    refine bind_eq_ok.mpr ⟨latest, asBusiness_eq_ok.mpr hlatest, ?_⟩
    refine bind_eq_ok.mpr ⟨n, asBusiness_eq_ok.mpr hnext, ?_⟩
    exact refuse_bind_eq_ok.mpr ⟨not_lt.mpr hle, hplan⟩
  cases policy with
  | fireOnce =>
    refine ⟨⟨[latest], [], latest, n⟩, hstart rfl, rfl, ?_⟩
    simp
  | catchUpLimited =>
    refine ⟨⟨_, [], latest, n⟩, hstart (bind_eq_ok.mpr
      ⟨_, h.catchUpWalk_eq hzone hfirst catchUpLimit, rfl⟩), rfl, ?_⟩
    simp
  | skip =>
    obtain ⟨start, hfrom, hwalk, hrepresentative⟩ := grace_plan hzone hfirst h hgrace
    by_cases hskips : firstDue < max firstDue (now - seconds misfireGraceSeconds)
    · obtain ⟨representative, hfound⟩ := hrepresentative hskips
      refine ⟨⟨_, if firstDue ≤ representative then [representative] else [], latest, n⟩,
        hstart (bind_eq_ok.mpr ⟨start, asBusiness_eq_ok.mpr hfrom,
          bind_eq_ok.mpr ⟨_, hwalk, ?_⟩⟩), rfl, rfl⟩
      rw [if_pos hskips]
      exact bind_eq_ok.mpr ⟨representative, asBusiness_eq_ok.mpr hfound, rfl⟩
    · refine ⟨⟨_, [], latest, n⟩, hstart (bind_eq_ok.mpr ⟨start, asBusiness_eq_ok.mpr hfrom,
        bind_eq_ok.mpr ⟨_, hwalk, ?_⟩⟩), rfl, rfl⟩
      rw [if_neg hskips]
      rfl

/-- The enumeration has every occurrence up to now. -/
theorem mem_due (hzone : zones timezoneName = some zone) (hfirst : firstDue ∈ c.occurrences zone)
    (h : Enumerates (NextIs c zones timezoneName) now firstDue due cursor) (o : Int) :
    o ∈ due ↔ o ∈ c.occurrences zone ∧ firstDue ≤ o ∧ o ≤ now := by
  constructor
  · intro ho
    obtain ⟨before, after, rfl⟩ := List.append_of_mem ho
    obtain ⟨hmem, hle, hnow, -⟩ := h.split hzone hfirst
    exact ⟨hmem, hle, hnow⟩
  · rintro ⟨ho, hle, hnow⟩
    obtain ⟨before, p, after, n, rfl, -, -, hprevious, -⟩ := h.cut hzone hfirst hle hnow
    have hp := ((previousAtOrBefore_eq_ok hzone).mp hprevious).1
    have hsame : p = o := hp.unique ⟨⟨ho, le_refl o⟩, fun _ hm => hm.2⟩
    rw [hsame]
    exact List.mem_append_right _ List.mem_cons_self

end

/-- The plan selects the instants that the misfire policy selects of an enumeration of all
occurrences, and its next run is where the enumeration ends. -/
theorem fast_plan (c : CronExpression) (zones : Zones) (zone : Zone) (schedule : AutomationSchedule)
    (firstDue now : Int) (hzone : zones schedule.timezone = some zone)
    (hminute : firstDue % minuteLength = 0) (hmatch : c.matchesInZone zone firstDue = true)
    (hdue : firstDue ≤ now) (hgrace : schedule.misfireGraceSeconds ≤ 86400)
    (_ : 1 ≤ schedule.catchUpLimit)
    (hsearch : ∀ o ∈ c.occurrences zone, firstDue ≤ o → o ≤ now →
      ∃ n, c.nextAfter zones o schedule.timezone = .ok n) :
    ∃ due cursor plan,
      (∀ o, o ∈ due ↔ o ∈ c.occurrences zone ∧ firstDue ≤ o ∧ o ≤ now)
      ∧ (∀ room, due.length ≤ room →
        dueFrom (fun instant => asManager (c.nextAfter zones instant schedule.timezone)) now room
          firstDue = .ok (due, cursor))
      ∧ cronDuePlan zones c firstDue now schedule.timezone schedule.misfirePolicy
        schedule.misfireGraceSeconds schedule.catchUpLimit = .ok plan
      ∧ plan.selected = (applyMisfirePolicy schedule due now).1
      ∧ plan.nextRunAt = cursor := by
  have hfirst : firstDue ∈ c.occurrences zone := ⟨hminute, hmatch⟩
  obtain ⟨due, cursor, h⟩ := Enumerates.exists_of_searches hzone hsearch hfirst
  obtain ⟨plan, hplan, hnext, hselected⟩ := plan_of_enumerates hzone hfirst hdue h hgrace
  refine ⟨due, cursor, plan, mem_due hzone hfirst h,
    fun room hroom => h.dueFrom_eq hroom, hplan, ?_,
    hnext⟩
  rw [hselected]
  unfold applyMisfirePolicy
  cases schedule.misfirePolicy with
  | fireOnce => rfl
  | catchUpLimited => rfl
  | skip => rfl

/-- The first of January 1970 in UTC. -/
def epochDay : Zone := fun instant =>
  { minute := (instant / 60000000 % 60).toNat, hour := (instant / 3600000000 % 24).toNat
    day := 1, month := 1, weekday := 3 }

/-- Every minute. -/
def everyMinute : CronExpression :=
  ⟨⟨Finset.Icc 0 59, true⟩, ⟨Finset.Icc 0 23, true⟩, ⟨Finset.Icc 1 31, true⟩,
    ⟨Finset.Icc 1 12, true⟩,
    ⟨Finset.Icc 0 6, true⟩⟩

/-- A schedule that catches up with two instants. -/
def catchingUp : AutomationSchedule :=
  { id := 0, name := "nightly", taskType := "report", payload := "\x7b\x7d", queue := "default"
    priority := 50, maxAttempts := 1, cron := "* * * * *", timezone := "UTC"
    misfirePolicy := .catchUpLimited, overlapPolicy := .forbid, misfireGraceSeconds := 300
    catchUpLimit := 2, enabled := true, nextRunAt := some 0, lastRunAt := none, version := 1
    createdAt := 0, updatedAt := 0 }

/-- At noon on that day, when the schedule was due at two minutes to twelve. -/
theorem fast_plan_noon :
    ∃ due cursor plan,
      (∀ o, o ∈ due ↔ o ∈ everyMinute.occurrences epochDay ∧ 43080000000 ≤ o ∧ o ≤ 43200000000)
      ∧ (∀ room, due.length ≤ room →
        dueFrom (fun instant => asManager
          (everyMinute.nextAfter (fun _ => some epochDay) instant "UTC"))
          43200000000 room 43080000000 = .ok (due, cursor))
      ∧ cronDuePlan (fun _ => some epochDay) everyMinute 43080000000 43200000000 "UTC"
        .catchUpLimited 300 2 = .ok plan
      ∧ plan.selected = (applyMisfirePolicy catchingUp due 43200000000).1
      ∧ plan.nextRunAt = cursor := by
  refine fast_plan everyMinute
    (fun _ => some epochDay) epochDay catchingUp 43080000000 43200000000 rfl
    (by decide) (by decide +kernel) (by decide) (by decide) (by decide) fun o ho hlow hhigh => ?_
  obtain ⟨k, rfl⟩ := exists_minute ho.1
  unfold minuteLength at hlow hhigh
  have hk : k = 718 ∨ k = 719 ∨ k = 720 := by omega
  rcases hk with rfl | rfl | rfl
  · exact ⟨43140000000, by decide +kernel⟩
  · exact ⟨43200000000, by decide +kernel⟩
  · exact ⟨43260000000, by decide +kernel⟩

end QaPlatform.Runtime
