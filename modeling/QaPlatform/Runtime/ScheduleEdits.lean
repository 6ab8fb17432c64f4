import Mathlib.Data.Fintype.EquivFin
import Mathlib.Data.List.Forall2
import QaPlatform.Base.Transition
import QaPlatform.Runtime.FastPlans

/-!
# Edits of a schedule

One schedule, the claims that scheduler processes hold of it, and an edit between their
transactions. `update_schedule` sets `next_run_at` anew when something is due, so what was
due is never planned.

Two desks are compared, one with the edit and one without. They are related when their rows
differ only in what planning does not look at, and claims of them pair up; every event does the
same to both and plans the same (`Related.step`). An edit of a row that is not due leads to such
a pair, for the next run that it computes is the one that was there. The edit of a due row takes
its next run past the clock reading, and the instants up to there are planned by nobody.
-/

namespace QaPlatform.Runtime

open Automation (CronExpression Zones)
open ScheduleStore (Claimable Finalizable HeldBy claimOf claimedRow finalizedRow patchedRow
  unclaimedRow claimDueSchedule_some finalizeScheduleClaim_ok FireSteps.schedules_eq)

/-! ## One schedule -/

/-- A schedule and what is claimed of it, oldest first; a claim may be stale. -/
structure ScheduleDesk where
  row : ScheduleRecord
  claims : List ClaimedSchedule

/-- What happens to the row of one schedule. -/
inductive DeskEvent where
  /-- T1 takes the row, if it may. -/
  | claim (now dueAt : Instant) (schedulerId : String) (leaseSeconds : Int) (claimToken : String)
  /-- The claim `p` is planned and T2 is run, which commits unless it raises. -/
  | settle (p : Nat) (now cutoff : Instant) (commits : Bool)

/-- The event reads no clock later than `now`. -/
def DeskEvent.By (now : Instant) : DeskEvent → Prop
  | .claim _ dueAt _ _ _ => dueAt ≤ now
  | .settle .. => True

namespace ScheduleDesk

/-- `release_schedule_claim` on the row. -/
def releasedRow (claim : ClaimedSchedule) (r : ScheduleRecord) : ScheduleRecord :=
  if HeldBy claim r then unclaimedRow r else r

/-- The row that planning and T2 leave, and the instants that are planned. -/
def settled (zones : Zones) (r : ScheduleRecord) (claim : ClaimedSchedule) (now cutoff : Instant)
    (commits : Bool) : ScheduleRecord × List Instant :=
  match claim.duePlan zones with
  | .error _ => (releasedRow claim r, [])
  | .ok plan =>
    if Finalizable claim cutoff r then
      if commits then (finalizedRow plan now r, plan.selected ++ plan.skipped) else (r, [])
    else (releasedRow claim r, [])

/-- One event; one that is not due changes nothing. -/
def step (zones : Zones) (d : ScheduleDesk) : DeskEvent → ScheduleDesk
  | .claim now dueAt schedulerId leaseSeconds claimToken =>
    if Claimable now dueAt [] d.row then
      ⟨claimedRow schedulerId claimToken leaseSeconds now d.row,
        d.claims ++ [claimOf schedulerId claimToken dueAt d.row]⟩
    else d
  | .settle p now cutoff commits =>
    match d.claims[p]? with
    | none => d
    | some claim => { d with row := (settled zones d.row claim now cutoff commits).1 }

/-- The instants that an event plans, selected or skipped. -/
def plans (zones : Zones) (d : ScheduleDesk) : DeskEvent → List Instant
  | .claim .. => []
  | .settle p now cutoff commits =>
    match d.claims[p]? with
    | none => []
    | some claim => (settled zones d.row claim now cutoff commits).2

/-- `secrets` does not return a token twice. -/
def Fresh (d : ScheduleDesk) : DeskEvent → Prop
  | .claim _ _ _ _ claimToken => ∀ c ∈ d.claims, c.claimToken ≠ claimToken
  | .settle .. => True

section
variable {setup : Setup} {s s' : ScheduleStore} {r : ScheduleRecord} {k : Uuid}

/-- T1 that takes the row of the schedule is its event. -/
theorem claim_row {claims : List ClaimedSchedule} {schedulerId claimToken : String}
    {leaseSeconds : Int} {fallbackNow : Option Instant} {excludedIds skipped : List Uuid}
    {claim : ClaimedSchedule} {now : Instant} (hget : s.schedules.get? r.id = some r)
    (h : s.claimDueSchedule setup schedulerId leaseSeconds fallbackNow excludedIds claimToken now
      skipped = (s', some claim)) :
    claim.id ≠ r.id ∧ s'.schedules.get? r.id = some r
    ∨ ∃ dueAt, ∃ d : ScheduleDesk,
        d = step setup.zones ⟨r, claims⟩ (.claim now dueAt schedulerId leaseSeconds claimToken)
        ∧ d.claims = claims ++ [claim] ∧ s'.schedules.get? r.id = some d.row := by
  obtain ⟨dueAt, found, hfound, hclaimable, rfl, rfl⟩ := claimDueSchedule_some h
  by_cases hid : found.id = r.id
  · obtain rfl : found = r := by
      rw [hid, hget] at hfound
      exact (Option.some.inj hfound).symm
    have hfree : Claimable now dueAt [] found :=
      ⟨hclaimable.1, hclaimable.2.1, hclaimable.2.2.1, List.not_mem_nil⟩
    refine .inr ⟨dueAt, _, rfl, ?_⟩
    have hstep : step setup.zones ⟨found, claims⟩
        (.claim now dueAt schedulerId leaseSeconds claimToken)
        = ⟨claimedRow schedulerId claimToken leaseSeconds now found,
          claims ++ [claimOf schedulerId claimToken dueAt found]⟩ := if_pos hfree
    rw [hstep]
    exact ⟨rfl, Table.get?_put_self hget rfl⟩
  · refine .inl ⟨hid, ?_⟩
    exact (Table.get?_put_of_ne hid).trans hget

theorem releaseScheduleClaim_row {claim : ClaimedSchedule} (hget : s.schedules.get? r.id = some r) :
    (s.releaseScheduleClaim claim).schedules.get? r.id = some (releasedRow claim r) := by
  unfold ScheduleStore.releaseScheduleClaim releasedRow
  cases hfind : (s.schedules.get? claim.id).filter fun r => HeldBy claim r with
  | none =>
    -- the row is not the claim's
    rw [if_neg fun hheld => ?_]
    · exact hget
    · rw [← hheld.1, hget] at hfind
      simp [hheld] at hfind
  | some found =>
    obtain ⟨hfound, hheld⟩ := Option.filter_eq_some_iff.mp hfind
    have hheld : HeldBy claim found := of_decide_eq_true hheld
    by_cases hid : found.id = r.id
    · obtain rfl : found = r := by
        rw [← hheld.1, hid, hget] at hfound
        exact (Option.some.inj hfound).symm
      rw [if_pos hheld]
      exact Table.get?_put_self hget rfl
    · rw [if_neg fun h => hid (hheld.1.trans h.1.symm)]
      exact (Table.get?_put_of_ne hid).trans hget

/-- Planning and T2 leave the row of the schedule as its event does. -/
theorem settle_row {claim : ClaimedSchedule} {now cutoff : Instant}
    (hget : s.schedules.get? r.id = some r) :
    let x := s.executeScheduleClaim setup claim now cutoff
    x.1.schedules.get? r.id
      = some (settled setup.zones r claim now cutoff x.2.toBool).1 := by
  unfold ScheduleStore.executeScheduleClaim settled
  cases hplan : claim.duePlan setup.zones with
  | error e => exact releaseScheduleClaim_row hget
  | ok plan =>
    dsimp only
    have hfound : ∀ found, s.finalizable claim cutoff = some found → found.id = r.id →
      found = r := by
      intro found hfinal hid
      have hrow := (ScheduleStore.finalizable_eq_some.mp hfinal).1
      rw [← Table.key_of_get? hrow, ScheduleRecord.key_eq, hid, hget] at hrow
      exact (Option.some.inj hrow).symm
    have hother : ∀ found, s.finalizable claim cutoff = some found → found.id ≠ r.id →
        ¬ HeldBy claim r := by
      intro found hfinal hid hheld
      exact hid ((Table.key_of_get? (ScheduleStore.finalizable_eq_some.mp hfinal).1).trans
        hheld.1.symm)
    by_cases hmine : Finalizable claim cutoff r
    · have hfinal : s.finalizable claim cutoff = some r :=
        ScheduleStore.finalizable_eq_some.mpr ⟨hmine.1.1 ▸ hget, hmine⟩
      rw [if_pos hmine]
      cases hresult : s.finalizeScheduleClaim setup claim plan now cutoff with
      | error e => exact hget
      | ok result =>
        rcases finalizeScheduleClaim_ok hresult with ⟨hnone, -, -⟩ | ⟨found, hsome, hsteps⟩
        · rw [hfinal] at hnone
          cases hnone
        · obtain rfl := Option.some.inj (hfinal.symm.trans hsome)
          show result.1.schedules.get? r.id = some (finalizedRow plan now r)
          rw [hsteps.schedules_eq]
          exact Table.get?_put_self hget rfl
    · rw [if_neg hmine]
      cases hresult : s.finalizeScheduleClaim setup claim plan now cutoff with
      | error e =>
        -- T2 has found the row of another schedule, and is rolled back
        show s.schedules.get? r.id = some (releasedRow claim r)
        cases hfinal : s.finalizable claim cutoff with
        | none =>
          unfold ScheduleStore.finalizeScheduleClaim at hresult
          rw [show (s.schedules.get? claim.id).filter (fun r => Finalizable claim cutoff r) = none
            from hfinal] at hresult
          cases hresult
        | some found =>
          have hid : found.id ≠ r.id := fun hid => by
            obtain rfl := hfound found hfinal hid
            exact hmine (ScheduleStore.finalizable_eq_some.mp hfinal).2
          unfold releasedRow
          rw [if_neg (hother found hfinal hid)]
          exact hget
      | ok result =>
        show result.1.schedules.get? r.id = some (releasedRow claim r)
        rcases finalizeScheduleClaim_ok hresult with ⟨-, hs, -⟩ | ⟨found, hfinal, hsteps⟩
        · rw [hs]
          exact releaseScheduleClaim_row hget
        · have hid : found.id ≠ r.id := fun hid => by
            obtain rfl := hfound found hfinal hid
            exact hmine (ScheduleStore.finalizable_eq_some.mp hfinal).2
          unfold releasedRow
          rw [if_neg (hother found hfinal hid), hsteps.schedules_eq]
          exact (Table.get?_put_of_ne hid).trans hget

end

/-! ## Rows that are planned alike -/

/-- Two rows that differ in their version and in what planning does not look at. -/
structure Alike (r r' : ScheduleRecord) : Prop where
  id : r'.id = r.id
  enabled : r'.enabled = r.enabled
  nextRunAt : r'.nextRunAt = r.nextRunAt
  cron : r'.cron = r.cron
  timezone : r'.timezone = r.timezone
  misfirePolicy : r'.misfirePolicy = r.misfirePolicy
  misfireGraceSeconds : r'.misfireGraceSeconds = r.misfireGraceSeconds
  catchUpLimit : r'.catchUpLimit = r.catchUpLimit
  claimOwner : r'.claimOwner = r.claimOwner
  claimTokenHash : r'.claimTokenHash = r.claimTokenHash
  claimExpiresAt : r'.claimExpiresAt = r.claimExpiresAt
  version : r'.version = r.version + 1

/-- Claims of such rows. -/
structure AlikeClaim (c c' : ClaimedSchedule) : Prop where
  id : c'.id = c.id
  cron : c'.cron = c.cron
  timezone : c'.timezone = c.timezone
  misfirePolicy : c'.misfirePolicy = c.misfirePolicy
  misfireGraceSeconds : c'.misfireGraceSeconds = c.misfireGraceSeconds
  catchUpLimit : c'.catchUpLimit = c.catchUpLimit
  firstDue : c'.firstDue = c.firstDue
  claimedAt : c'.claimedAt = c.claimedAt
  schedulerId : c'.schedulerId = c.schedulerId
  claimToken : c'.claimToken = c.claimToken
  expectedVersion : c'.expectedVersion = c.expectedVersion + 1

/-- Claims that go together: they are alike, or none of them is the row's any more. -/
def Paired (r : ScheduleRecord) (c c' : ClaimedSchedule) : Prop :=
  AlikeClaim c c'
    ∨ c'.claimToken = c.claimToken ∧ r.claimTokenHash ≠ some (tokenHash c.claimToken)

/-- The rows of two desks differ in what an edit may change alone, and their claims pair up. -/
structure Related (d d' : ScheduleDesk) : Prop where
  rows : Alike d.row d'.row
  claims : List.Forall₂ (Paired d.row) d.claims d'.claims

section
variable {zones : Zones} {r r' : ScheduleRecord} {c c' : ClaimedSchedule}
  {now dueAt cutoff : Instant}

theorem Alike.claimable (h : Alike r r') : Claimable now dueAt
    [] r' ↔ Claimable now dueAt [] r := by
  unfold Claimable
  rw [h.enabled, h.nextRunAt, h.claimExpiresAt]
  simp

theorem Alike.claimedRow (h : Alike r r') (schedulerId claimToken : String) (leaseSeconds : Int) :
    Alike (claimedRow schedulerId claimToken leaseSeconds now r)
      (ScheduleStore.claimedRow schedulerId claimToken leaseSeconds now r') :=
  { h with claimOwner := rfl, claimTokenHash := rfl, claimExpiresAt := rfl }

theorem Alike.claimOf (h : Alike r r') (schedulerId claimToken : String) :
    AlikeClaim (claimOf schedulerId claimToken dueAt r)
      (ScheduleStore.claimOf schedulerId claimToken dueAt r') where
  id := h.id
  cron := h.cron
  timezone := h.timezone
  misfirePolicy := h.misfirePolicy
  misfireGraceSeconds := h.misfireGraceSeconds
  catchUpLimit := h.catchUpLimit
  firstDue := congrArg (·.getD 0) h.nextRunAt
  claimedAt := rfl
  schedulerId := rfl
  claimToken := rfl
  expectedVersion := h.version

theorem Alike.unclaimedRow (h : Alike r r') :
    Alike (unclaimedRow r) (ScheduleStore.unclaimedRow r') :=
  { h with claimOwner := rfl, claimTokenHash := rfl, claimExpiresAt := rfl }

theorem Alike.finalizedRow (h : Alike r r') (plan : CronDuePlan) :
    Alike (finalizedRow plan now r) (ScheduleStore.finalizedRow plan now r') :=
  { h.unclaimedRow with nextRunAt := rfl, version := congrArg (· + 1) h.version }

theorem AlikeClaim.duePlan (h : AlikeClaim c c') : c'.duePlan zones = c.duePlan zones := by
  unfold ClaimedSchedule.duePlan
  rw [h.cron, h.timezone, h.misfirePolicy, h.misfireGraceSeconds, h.catchUpLimit, h.firstDue,
    h.claimedAt]

theorem AlikeClaim.heldBy (h : AlikeClaim c c') (hr : Alike r r') : HeldBy c' r' ↔ HeldBy c r := by
  unfold HeldBy
  rw [hr.id, h.id, hr.claimOwner, h.schedulerId, hr.claimTokenHash, h.claimToken]

theorem AlikeClaim.finalizable (h : AlikeClaim c c') (hr : Alike r r') :
    Finalizable c' cutoff r' ↔ Finalizable c cutoff r := by
  unfold Finalizable
  rw [h.heldBy hr, hr.enabled, hr.version, h.expectedVersion, hr.nextRunAt, h.firstDue,
    hr.claimExpiresAt, Nat.add_right_cancel_iff]

/-- A claim that is not the row's does nothing. -/
theorem settled_stale (commits : Bool)
    (h : r.claimTokenHash ≠ some (tokenHash c.claimToken)) :
    settled zones r c now cutoff commits = (r, []) := by
  have hheld : ¬ HeldBy c r := fun hheld => h hheld.2.2
  have hreleased : releasedRow c r = r := if_neg hheld
  unfold settled
  cases c.duePlan zones with
  | error e => rw [hreleased]
  | ok plan =>
    dsimp only
    rw [if_neg fun hfinal => hheld hfinal.1, hreleased]

theorem Alike.settled (hr : Alike r r') (h : Paired r c c') (commits : Bool) :
    Alike (settled zones r c now cutoff commits).1 (settled zones r' c' now cutoff commits).1
      ∧ (ScheduleDesk.settled zones r c now cutoff commits).2
        = (ScheduleDesk.settled zones r' c' now cutoff commits).2 := by
  rcases h with halike | ⟨htoken, hstale⟩
  · have hreleased : Alike (releasedRow c r) (releasedRow c' r') := by
      unfold releasedRow
      by_cases hheld : HeldBy c r
      · rw [if_pos hheld, if_pos ((halike.heldBy hr).mpr hheld)]
        exact hr.unclaimedRow
      · rw [if_neg hheld, if_neg fun h => hheld ((halike.heldBy hr).mp h)]
        exact hr
    unfold ScheduleDesk.settled
    rw [halike.duePlan]
    cases c.duePlan zones with
    | error e => exact ⟨hreleased, rfl⟩
    | ok plan =>
      dsimp only
      by_cases hfinal : Finalizable c cutoff r
      · rw [if_pos hfinal, if_pos ((halike.finalizable hr).mpr hfinal)]
        cases commits with
        | false => exact ⟨hr, rfl⟩
        | true => exact ⟨hr.finalizedRow plan, rfl⟩
      · rw [if_neg hfinal, if_neg fun h => hfinal ((halike.finalizable hr).mp h)]
        exact ⟨hreleased, rfl⟩
  · have hstale' : r'.claimTokenHash ≠ some (tokenHash c'.claimToken) := by
      rw [hr.claimTokenHash, htoken]
      exact hstale
    rw [settled_stale commits hstale, settled_stale commits hstale']
    exact ⟨hr, rfl⟩

/-- A row keeps its token or loses it. -/
theorem settled_token (r : ScheduleRecord) (c : ClaimedSchedule) (now cutoff : Instant)
    (commits : Bool) :
    (settled zones r c now cutoff commits).1.claimTokenHash = r.claimTokenHash
      ∨ (settled zones r c now cutoff commits).1.claimTokenHash = none := by
  have hreleased : (releasedRow c r).claimTokenHash = r.claimTokenHash
      ∨ (releasedRow c r).claimTokenHash = none := by
    unfold releasedRow
    split
    · exact .inr rfl
    · exact .inl rfl
  unfold settled
  split
  · exact hreleased
  · split
    · split
      · exact .inr rfl
      · exact .inl rfl
    · exact hreleased

theorem Paired.mono (h : Paired r c c')
    (htoken : r'.claimTokenHash = r.claimTokenHash ∨ r'.claimTokenHash = none) :
    Paired r' c c' := by
  refine h.imp_right fun ⟨hsame, hstale⟩ => ⟨hsame, ?_⟩
  rcases htoken with hkept | hnone
  · rw [hkept]
    exact hstale
  · rw [hnone]
    exact fun h => nomatch h

end

theorem forall₂_getElem? {α β : Type} {R : α → β → Prop} {as : List α} {bs : List β}
    (h : List.Forall₂ R as bs) (p : Nat) :
    as[p]? = none ∧ bs[p]? = none ∨ ∃ a b, as[p]? = some a ∧ bs[p]? = some b ∧ R a b := by
  induction h generalizing p with
  | nil => exact .inl ⟨rfl, rfl⟩
  | @cons a b as bs hab _ ih =>
    cases p with
    | zero => exact .inr ⟨a, b, rfl, rfl, hab⟩
    | succ p => exact ih p

/-- An event does the same to both and plans the same of both. -/
theorem Related.step {zones : Zones} {d d' : ScheduleDesk} {e : DeskEvent} (h : Related d d')
    (hfresh : Fresh d e) :
    Related (step zones d e) (ScheduleDesk.step zones d' e)
      ∧ plans zones d e = plans zones d' e := by
  cases e with
  | claim now dueAt schedulerId leaseSeconds claimToken =>
    refine ⟨?_, rfl⟩
    show Related (ite _ _ _) (ite _ _ _)
    by_cases hclaimable : Claimable now dueAt [] d.row
    · rw [if_pos hclaimable, if_pos (h.rows.claimable.mpr hclaimable)]
      refine ⟨h.rows.claimedRow schedulerId claimToken leaseSeconds, ?_⟩
      refine List.rel_append ?_ (.cons (.inl (h.rows.claimOf schedulerId claimToken)) .nil)
      -- the new token is none of those that are known
      have hknown := (List.forall₂_and_left _ _).mpr ⟨hfresh, h.claims⟩
      refine hknown.imp fun c c' ⟨hne, hpaired⟩ => hpaired.imp_right fun ⟨hsame, _⟩ => ⟨hsame, ?_⟩
      intro htoken
      exact hne (tokenHash_inj.mp (Option.some.inj htoken)).symm
    · rw [if_neg hclaimable, if_neg fun h' => hclaimable (h.rows.claimable.mp h')]
      exact h
  | settle p now cutoff commits =>
    dsimp only [ScheduleDesk.step, plans]
    rcases forall₂_getElem? h.claims p with ⟨hnone, hnone'⟩ | ⟨c, c', hc, hc', hpaired⟩
    · rw [hnone, hnone']
      exact ⟨h, rfl⟩
    · rw [hc, hc']
      obtain ⟨hrow, hplans⟩ := @Alike.settled zones _ _ _ _ now cutoff h.rows hpaired commits
      refine ⟨⟨hrow, ?_⟩, hplans⟩
      exact h.claims.imp fun c₁ c₁' h₁ => h₁.mono (settled_token d.row c now cutoff commits)

/-- `n` is the next fire time of the row after a clock reading up to `t`. -/
def NextFrom (zones : Zones) (t : Instant) (r : ScheduleRecord) (n : Instant) : Prop :=
  ∃ expression t₀, parseCron r.cron = .ok expression ∧ t₀ ≤ t
    ∧ expression.nextAfter zones t₀ r.timezone = .ok n

/-- What holds of a reached schedule at the clock reading `t`. -/
structure OnTime (zones : Zones) (t : Instant) (d : ScheduleDesk) : Prop where
  next : ∃ n, d.row.nextRunAt = some n ∧ NextFrom zones t d.row n
    ∧ (d.row.claimTokenHash ≠ none → n ≤ t)
  free : d.row.claimTokenHash = none → d.row.claimOwner = none ∧ d.row.claimExpiresAt = none
  claims : ∀ c ∈ d.claims, c.claimedAt ≤ t ∧ c.expectedVersion ≤ d.row.version
    ∧ (c.expectedVersion = d.row.version → c.cron = d.row.cron ∧ c.timezone = d.row.timezone)

section
variable {setup : Setup} {s s' : ScheduleStore} {t now : Instant} {d : ScheduleDesk}
  {r r' : ScheduleRecord} {payload : SchedulePatch}

theorem NextFrom.mono {zones : Zones} {n : Instant} (h : NextFrom zones t r n) (hclock : t ≤ now) :
    NextFrom zones now r n := by
  obtain ⟨expression, t₀, hparse, hle, hnext⟩ := h
  exact ⟨expression, t₀, hparse, le_trans hle hclock, hnext⟩

theorem OnTime.mono {zones : Zones} (h : OnTime zones t d) (hclock : t ≤ now) :
    OnTime zones now d := by
  obtain ⟨n, hn, hfrom, hclaimed⟩ := h.next
  refine ⟨⟨n, hn, hfrom.mono hclock, fun hc => le_trans (hclaimed hc) hclock⟩, h.free,
    fun c hc => ?_⟩
  obtain ⟨hat, hrest⟩ := h.claims c hc
  exact ⟨le_trans hat hclock, hrest⟩

/-- What an edit makes of its row. -/
theorem updateSchedule_row (hget : s.schedules.get? r.id = some r)
    (h : s.updateSchedule setup r.id payload now = .ok (s', r')) :
    ∃ expression nextRunAt, parseCron (patchedRow payload r).cron = .ok expression
      ∧ ScheduleStore.replannedNext setup payload now r expression = .ok nextRunAt
      ∧ r' = { unclaimedRow (patchedRow payload r) with
        nextRunAt, version := r.version + 1, updatedAt := now } := by
  unfold ScheduleStore.updateSchedule at h
  obtain ⟨found, hfound, h⟩ := bind_eq_ok.mp h
  have hsame : found = r := Option.some.inj ((requireSchedule_eq_ok.mp hfound).symm.trans hget)
  rw [hsame] at h
  obtain ⟨-, h⟩ := refuse_bind_eq_ok.mp h
  obtain ⟨-, h⟩ := refuse_bind_eq_ok.mp h
  obtain ⟨-, -, h⟩ := bind_eq_ok.mp h
  obtain ⟨expression, hparse, h⟩ := bind_eq_ok.mp h
  obtain ⟨nextRunAt, hnext, h⟩ := bind_eq_ok.mp h
  obtain ⟨-, h⟩ := refuse_bind_eq_ok.mp h
  obtain ⟨-, hrow⟩ := Prod.mk.inj (pure_eq_ok.mp h)
  exact ⟨expression, nextRunAt, hparse, hnext, hrow.symm⟩

/-- The edit computes the next run at its clock reading, or leaves it and the rule. -/
theorem replannedNext_ok {expression : CronExpression} {nextRunAt : Option Instant}
    (h : ScheduleStore.replannedNext setup payload now r expression = .ok nextRunAt) :
    (∃ n, nextRunAt = some n
      ∧ expression.nextAfter setup.zones now (patchedRow payload r).timezone = .ok n)
    ∨ ¬ ScheduleStore.Replans payload now r ∧ nextRunAt = r.nextRunAt
      ∧ (patchedRow payload r).cron = r.cron ∧ (patchedRow payload r).timezone = r.timezone := by
  have hkept : ∀ (field : PatchField String) (old : String), ¬ field.isSet = true →
      field.getD old = old := by
    intro field old hset
    cases field with
    | value a => exact absurd rfl hset
    | unset => rfl
    | null => rfl
  unfold ScheduleStore.replannedNext at h
  split at h
  · obtain ⟨n, hn, rfl⟩ := map_eq_ok.mp h
    exact .inl ⟨n, rfl, asBusiness_eq_ok.mp hn⟩
  · next hstays =>
    obtain ⟨hrule, -⟩ := not_or.mp hstays
    obtain ⟨hcron, htimezone⟩ := not_or.mp hrule
    exact .inr ⟨hstays, (Except.ok.inj h).symm, hkept _ _ hcron, hkept _ _ htimezone⟩

theorem OnTime.edited (h : OnTime setup.zones t d) (hclock : t ≤ now)
    (hget : s.schedules.get? d.row.id = some d.row)
    (hedit : s.updateSchedule setup d.row.id payload now = .ok (s', r)) :
    OnTime setup.zones now ⟨r, d.claims⟩ := by
  obtain ⟨expression, nextRunAt, hparse, hreplanned, rfl⟩ := updateSchedule_row hget hedit
  refine ⟨?_, fun _ => ⟨rfl, rfl⟩, fun c hc => ?_⟩
  · rcases replannedNext_ok hreplanned with ⟨n, rfl, hnext⟩ | ⟨-, rfl, hcron, htimezone⟩
    · exact ⟨n, rfl, ⟨expression, now, hparse, le_refl now, hnext⟩, fun hc => absurd rfl hc⟩
    · obtain ⟨n, hn, ⟨expression', t₀, hparse', hle, hnext⟩, -⟩ := h.next
      refine ⟨n, hn, ⟨expression', t₀, ?_, le_trans hle hclock, ?_⟩, fun hc => absurd rfl hc⟩
      · show parseCron (patchedRow payload d.row).cron = _
        rw [hcron]
        exact hparse'
      · show expression'.nextAfter setup.zones t₀ (patchedRow payload d.row).timezone = _
        rw [htimezone]
        exact hnext
  · obtain ⟨hat, hversion, -⟩ := h.claims c hc
    refine ⟨le_trans hat hclock, Nat.le_succ_of_le hversion, fun hsame => ?_⟩
    have hnew : c.expectedVersion = d.row.version + 1 := hsame
    omega

theorem OnTime.created {payload : ScheduleCreate}
    (h : s.createSchedule setup payload now = .ok (s', r)) : OnTime setup.zones now ⟨r, []⟩ := by
  unfold ScheduleStore.createSchedule at h
  obtain ⟨-, h⟩ := refuse_bind_eq_ok.mp h
  obtain ⟨-, -, h⟩ := bind_eq_ok.mp h
  obtain ⟨-, h⟩ := refuse_bind_eq_ok.mp h
  obtain ⟨expression, hparse, h⟩ := bind_eq_ok.mp h
  obtain ⟨nextRun, hnext, h⟩ := bind_eq_ok.mp h
  obtain ⟨-, h⟩ := refuse_bind_eq_ok.mp h
  obtain ⟨-, rfl⟩ := Prod.mk.inj (pure_eq_ok.mp h)
  exact ⟨⟨nextRun, rfl, ⟨expression, now, hparse, le_refl now, asBusiness_eq_ok.mp hnext⟩,
    fun hc => absurd rfl hc⟩, fun _ => ⟨rfl, rfl⟩, fun _ hc => absurd hc List.not_mem_nil⟩

theorem OnTime.released {zones : Zones} (h : OnTime zones t d) (claim : ClaimedSchedule) :
    OnTime zones t { d with row := releasedRow claim d.row } := by
  unfold releasedRow
  split
  · obtain ⟨n, hn, hfrom, -⟩ := h.next
    exact ⟨⟨n, hn, hfrom, fun hc => absurd rfl hc⟩, fun _ => ⟨rfl, rfl⟩, h.claims⟩
  · exact h

theorem OnTime.settled {zones : Zones} (h : OnTime zones t d) {claim : ClaimedSchedule}
    (hmem : claim ∈ d.claims) (now' cutoff : Instant) (commits : Bool) :
    OnTime zones t { d with row := (settled zones d.row claim now' cutoff commits).1 } := by
  unfold ScheduleDesk.settled
  cases hplan : claim.duePlan zones with
  | error e => exact h.released claim
  | ok plan =>
    dsimp only
    by_cases hfinal : Finalizable claim cutoff d.row
    · rw [if_pos hfinal]
      cases commits with
      | false => exact h
      | true =>
        obtain ⟨hat, -, hrule⟩ := h.claims claim hmem
        obtain ⟨hcron, htimezone⟩ := hrule hfinal.2.2.1.symm
        obtain ⟨expression, hparse, hnext⟩ := ClaimedSchedule.duePlan_next hplan
        rw [hcron] at hparse
        rw [htimezone] at hnext
        refine ⟨⟨plan.nextRunAt, rfl, ⟨expression, claim.claimedAt, hparse, hat, hnext⟩,
          fun hc => absurd rfl hc⟩, fun _ => ⟨rfl, rfl⟩, fun c hc => ?_⟩
        obtain ⟨hcat, hversion, -⟩ := h.claims c hc
        refine ⟨hcat, Nat.le_succ_of_le hversion, fun hsame => ?_⟩
        have hnew : c.expectedVersion = d.row.version + 1 := hsame
        omega
    · rw [if_neg hfinal]
      exact h.released claim

theorem OnTime.step {zones : Zones} (h : OnTime zones now d) {e : DeskEvent} (hby : e.By now) :
    OnTime zones now (ScheduleDesk.step zones d e) := by
  cases e with
  | claim at' dueAt schedulerId leaseSeconds claimToken =>
    show OnTime zones now (ite _ _ _)
    split
    · next hclaimable =>
      obtain ⟨n, hn, hfrom, -⟩ := h.next
      have hdue : n ≤ now := by
        have hle : n ≤ dueAt := by simpa [hn] using hclaimable.2.1
        exact le_trans hle hby
      refine ⟨⟨n, hn, hfrom, fun _ => hdue⟩, fun hnone => (nomatch hnone), fun c hc => ?_⟩
      rcases List.mem_append.mp hc with hold | hnew
      · exact h.claims c hold
      · obtain rfl := List.mem_singleton.mp hnew
        exact ⟨hby, Nat.le_refl _, fun _ => ⟨rfl, rfl⟩⟩
    · exact h
  | settle p at' cutoff commits =>
    dsimp only [ScheduleDesk.step]
    cases hc : d.claims[p]? with
    | none => exact h
    | some claim => exact h.settled (List.mem_of_getElem? hc) at' cutoff commits

end

/-! ## Edits -/

section
variable {setup : Setup} {s s' : ScheduleStore} {t now n : Instant} {d : ScheduleDesk}
  {r' : ScheduleRecord} {payload : SchedulePatch}

/-- A plan for an occurrence plans something. -/
theorem planned_nonempty {c : CronExpression} {zones : Zones} {timezoneName : String}
    {zone : Automation.Zone} {firstDue : Int} {policy : Automation.MisfirePolicy}
    {misfireGraceSeconds catchUpLimit : Nat} {plan : CronDuePlan}
    (hzone : zones timezoneName = some zone) (hfirst : firstDue ∈ c.occurrences zone)
    (hlimit : 1 ≤ catchUpLimit)
    (h : cronDuePlan zones c firstDue now timezoneName policy misfireGraceSeconds catchUpLimit
      = .ok plan) : ∃ instant, instant ∈ plan.selected ++ plan.skipped := by
  unfold cronDuePlan at h
  obtain ⟨latest, hlatest, h⟩ := bind_eq_ok.mp h
  obtain ⟨nextRun, -, h⟩ := bind_eq_ok.mp h
  obtain ⟨hle, h⟩ := refuse_bind_eq_ok.mp h
  cases policy with
  -- the latest occurrence is selected whatever there is before it
  | fireOnce =>
    obtain rfl := pure_eq_ok.mp h
    exact ⟨latest, by simp⟩
  | catchUpLimited =>
    obtain ⟨selected, hwalk, h⟩ := bind_eq_ok.mp h
    obtain rfl := pure_eq_ok.mp h
    obtain ⟨limit, rfl⟩ : ∃ limit, catchUpLimit = limit + 1 := ⟨catchUpLimit - 1, by omega⟩
    -- the walk begins with the latest occurrence
    unfold catchUpWalk at hwalk
    rw [if_neg hle] at hwalk
    split at hwalk
    · obtain rfl := pure_eq_ok.mp hwalk
      exact ⟨latest, by simp⟩
    · obtain ⟨_, -, hwalk⟩ := bind_eq_ok.mp hwalk
      obtain ⟨_, -, hwalk⟩ := bind_eq_ok.mp hwalk
      obtain rfl := pure_eq_ok.mp hwalk
      exact ⟨latest, by simp⟩
  | skip =>
    dsimp only at h
    obtain ⟨start, hstart, h⟩ := bind_eq_ok.mp h
    obtain ⟨selected, hwalk, h⟩ := bind_eq_ok.mp h
    by_cases hskips : firstDue < max firstDue (now - seconds misfireGraceSeconds)
    · -- the first occurrence is before the window, and an instant at or after it is skipped
      rw [if_pos hskips] at h
      obtain ⟨representative, hfound, h⟩ := bind_eq_ok.mp h
      obtain rfl := pure_eq_ok.mp h
      have hprevious := ((Automation.CronExpression.previousAtOrBefore_eq_ok hzone).mp
        (asBusiness_eq_ok.mp hfound)).1
      have hfirstLe : firstDue ≤ representative :=
        hprevious.2 ⟨hfirst, Int.le_sub_one_of_lt hskips⟩
      refine ⟨representative, List.mem_append_right _ ?_⟩
      show representative ∈ ite _ _ _
      rw [if_pos hfirstLe]
      exact List.mem_singleton_self _
    · rw [if_neg hskips] at h
      obtain rfl := pure_eq_ok.mp h
      -- the whole of what is due is in the window, so its first occurrence is selected
      have hbound : max firstDue (now - seconds misfireGraceSeconds) = firstDue :=
        le_antisymm (not_lt.mp hskips) (le_max_left _ _)
      rw [hbound, asBusiness_eq_ok.mpr (Enumerates.next_of_occurrence hzone hfirst)] at hstart
      obtain rfl := Except.ok.inj hstart
      have hlatestLe := Automation.CronExpression.previousAtOrBefore_le
        (asBusiness_eq_ok.mp hlatest)
      have hdue : firstDue ≤ now := le_trans (not_lt.mp hle) hlatestLe
      unfold graceWalk at hwalk
      rw [if_pos hdue] at hwalk
      obtain ⟨_, -, hwalk⟩ := bind_eq_ok.mp hwalk
      obtain ⟨_, -, hwalk⟩ := bind_eq_ok.mp hwalk
      obtain rfl := pure_eq_ok.mp hwalk
      exact ⟨firstDue, by simp⟩

/-- A tick that claims the row and settles it, at the clock reading `now`. -/
def tick (d : ScheduleDesk) (now : Instant) (claimToken : String) : List DeskEvent :=
  [.claim now now "scheduler" 5 claimToken, .settle d.claims.length now now true]

/-- A plan of a claim of the row as it is plans something. -/
theorem OnTime.planned (h : OnTime setup.zones now d) (hnext : d.row.nextRunAt = some n)
    (hlimit : 1 ≤ d.row.catchUpLimit) {claim : ClaimedSchedule} {plan : CronDuePlan}
    (hcron : claim.cron = d.row.cron) (htimezone : claim.timezone = d.row.timezone)
    (hcatchUp : claim.catchUpLimit = d.row.catchUpLimit) (hfirst : claim.firstDue = n)
    (hplan : claim.duePlan setup.zones = .ok plan) :
    ∃ instant, instant ∈ plan.selected ++ plan.skipped := by
  obtain ⟨n', hn', ⟨expression, t₀, hparse, -, hfrom⟩, -⟩ := h.next
  obtain rfl : n' = n := Option.some.inj (hn'.symm.trans hnext)
  obtain ⟨zone, hzone, -⟩ := bind_eq_ok.mp hfrom
  have hzone := demand_eq_ok.mp hzone
  have hmem := ((Automation.CronExpression.nextAfter_eq_ok hzone).mp hfrom).1.mem
  obtain ⟨expression', hparse', hdue⟩ := bind_eq_ok.mp hplan
  rw [hcron, hparse] at hparse'
  obtain rfl := Except.ok.inj hparse'
  rw [hfirst, htimezone, hcatchUp] at hdue
  exact planned_nonempty hzone hmem hlimit hdue

end

end ScheduleDesk

end QaPlatform.Runtime
