import QaPlatform.Automation.Cron
import QaPlatform.Base.Neighbours

/-!
# Occurrences

The minutes at which an expression fires in a zone, and what the two searches find among
them: the next occurrence and the previous one, when it lies in the search window.

A search is a scan of a bounded number of minutes, so it finds the first of its candidates that
matches. The two searches fit together: from just before an occurrence the next one is that
occurrence, and at an occurrence the previous one is. Nothing is assumed of the zone. A local
time that comes twice is two minutes here, and one that is left out is none.
-/

namespace QaPlatform.Automation

namespace CronExpression

/-- The whole minutes that match. -/
def occurrences (c : CronExpression) (zone : Zone) : Set Int :=
  {m | m % minuteLength = 0 ∧ c.matchesInZone zone m = true}

/-! ## Searches -/

/-- A search finds the first of its candidates that matches. -/
theorem search_eq_some {matching : Instant → Bool} {step : Int} {fuel : Nat}
    {candidate found : Instant} :
    search matching step fuel candidate = some found ↔
      ∃ i < fuel, found = candidate + i * step ∧ matching found = true
        ∧ ∀ j < i, matching (candidate + j * step) = false := by
  induction fuel generalizing candidate with
  | zero => simp [search]
  | succ fuel ih =>
    unfold search
    split
    · next hmatching =>
      constructor
      · intro h
        obtain rfl := Option.some.inj h
        exact ⟨0, by omega, by simp, hmatching, fun j hj => absurd hj (Nat.not_lt_zero j)⟩
      · rintro ⟨i, -, rfl, -, hbefore⟩
        cases i with
        | zero => simp
        | succ i =>
          have hfirst := hbefore 0 (by omega)
          simp [hmatching] at hfirst
    · next hnot =>
      have hshift : ∀ i : Nat, candidate + step + i * step = candidate + (i + 1 : Nat) * step := by
        intro i
        push_cast
        ring
      rw [ih]
      constructor
      · rintro ⟨i, hi, rfl, hmatching, hbefore⟩
        refine ⟨i + 1, by omega, hshift i, hmatching, fun j hj => ?_⟩
        cases j with
        | zero => simpa using hnot
        | succ j =>
          rw [← hshift j]
          exact hbefore j (by omega)
      · rintro ⟨i, hi, rfl, hmatching, hbefore⟩
        cases i with
        | zero =>
          rw [Nat.cast_zero, zero_mul, add_zero] at hmatching
          exact absurd hmatching hnot
        | succ i =>
          refine ⟨i, by omega, (hshift i).symm, hmatching, fun j hj => ?_⟩
          rw [hshift j]
          exact hbefore (j + 1) (by omega)

/-- A search that finds nothing has tried all its candidates. -/
theorem search_eq_none {matching : Instant → Bool} {step : Int} {fuel : Nat} {candidate : Instant}
    (h : search matching step fuel candidate = none) {i : Nat} (hi : i < fuel) :
    matching (candidate + i * step) = false := by
  induction fuel generalizing candidate i with
  | zero => exact absurd hi (Nat.not_lt_zero i)
  | succ fuel ih =>
    unfold search at h
    split at h
    · cases h
    · next hnot =>
      cases i with
      | zero => simpa using hnot
      | succ i =>
        have hnext := ih h (Nat.lt_of_succ_lt_succ hi)
        have hshift : candidate + step + i * step = candidate + (i + 1 : Nat) * step := by
          push_cast
          ring
        rwa [hshift] at hnext

theorem exists_minute {m : Int} (h : m % minuteLength = 0) : ∃ k : Int, m = k * minuteLength :=
  ⟨m / minuteLength, (Int.ediv_mul_cancel (Int.dvd_of_emod_eq_zero h)).symm⟩

/-- The whole minute of an instant. -/
theorem exists_floorMinute (instant : Int) : ∃ k : Int, floorMinute instant = k * minuteLength
    ∧ k * minuteLength ≤ instant ∧ instant < k * minuteLength + minuteLength := by
  have hfloor : (instant - instant % 60000000) % 60000000 = 0 := by omega
  obtain ⟨k, hk⟩ := exists_minute hfloor
  have hlow := floorMinute_le instant
  have hhigh := lt_floorMinute_add instant
  have hsame : floorMinute instant = k * minuteLength := hk
  rw [hsame] at hlow hhigh
  exact ⟨k, hsame, hlow, hhigh⟩

theorem floorMinute_of_emod {m : Int} (h : m % minuteLength = 0) : floorMinute m = m := by
  show m - m % minuteLength = m
  rw [h, Int.sub_zero]

theorem floorMinute_mono {a b : Int} (h : a ≤ b) : floorMinute a ≤ floorMinute b := by
  show a - a % 60000000 ≤ b - b % 60000000
  omega

section
variable {c : CronExpression} {zones : Zones} {zone : Zone} {timezoneName : String}
  {instant found : Int}

theorem nextAfter_eq_ok (hzone : zones timezoneName = some zone) :
    c.nextAfter zones instant timezoneName = .ok found ↔
      IsNext (c.occurrences zone) instant found
        ∧ found ≤ floorMinute instant + maxSearchMinutes * minuteLength := by
  have hsearch : c.nextAfter zones instant timezoneName = .ok found ↔
      search (c.matchesInZone zone) minuteLength maxSearchMinutes
        (floorMinute instant + minuteLength) = some found := by
    unfold nextAfter zoneOf
    rw [hzone]
    exact demand_eq_ok
  obtain ⟨k, hfloor, hlow, hhigh⟩ := exists_floorMinute instant
  rw [hsearch, search_eq_some, hfloor]
  unfold minuteLength at *
  generalize maxSearchMinutes = window
  constructor
  · rintro ⟨i, hi, rfl, hmatching, hbefore⟩
    refine ⟨⟨⟨⟨?_, hmatching⟩, ?_⟩, fun m hm => ?_⟩, ?_⟩
    · unfold minuteLength
      omega
    · omega
    · obtain ⟨⟨hminute, hmatch⟩, hlater⟩ := hm
      obtain ⟨k', rfl⟩ := exists_minute hminute
      unfold minuteLength at *
      -- a whole minute later than the instant is one of the candidates
      obtain ⟨j, hj⟩ : ∃ j : Nat, k' = k + 1 + j := ⟨(k' - k - 1).toNat, by omega⟩
      have hcandidate : k' * 60000000 = k * 60000000 + 60000000 + j * 60000000 := by omega
      by_contra hlt
      have hnone := hbefore j (by omega)
      rw [← hcandidate, hmatch] at hnone
      cases hnone
    · omega
  · rintro ⟨⟨⟨⟨hminute, hmatching⟩, hlater⟩, hleast⟩, hwindow⟩
    obtain ⟨k', rfl⟩ := exists_minute hminute
    unfold minuteLength at *
    obtain ⟨i, hi⟩ : ∃ i : Nat, k' = k + 1 + i := ⟨(k' - k - 1).toNat, by omega⟩
    have hcandidate : k' * 60000000 = k * 60000000 + 60000000 + i * 60000000 := by omega
    refine ⟨i, by omega, hcandidate, hmatching, fun j hj => ?_⟩
    by_contra hmatch
    have hbelow := hleast ⟨⟨?_, Bool.of_not_eq_false hmatch⟩, ?_⟩
    · omega
    · unfold minuteLength
      omega
    · omega

theorem previousAtOrBefore_eq_ok (hzone : zones timezoneName = some zone) :
    c.previousAtOrBefore zones instant timezoneName = .ok found ↔
      IsPrevious (c.occurrences zone) instant found
        ∧ floorMinute instant < found + maxSearchMinutes * minuteLength := by
  have hsearch : c.previousAtOrBefore zones instant timezoneName = .ok found ↔
      search (c.matchesInZone zone) (-minuteLength) maxSearchMinutes (floorMinute instant)
        = some found := by
    unfold previousAtOrBefore zoneOf
    rw [hzone]
    exact demand_eq_ok
  obtain ⟨k, hfloor, hlow, hhigh⟩ := exists_floorMinute instant
  rw [hsearch, search_eq_some, hfloor]
  unfold minuteLength at *
  generalize maxSearchMinutes = window
  constructor
  · rintro ⟨i, hi, rfl, hmatching, hbefore⟩
    refine ⟨⟨⟨⟨?_, hmatching⟩, ?_⟩, fun m hm => ?_⟩, ?_⟩
    · unfold minuteLength
      omega
    · omega
    · obtain ⟨⟨hminute, hmatch⟩, hearlier⟩ := hm
      obtain ⟨k', rfl⟩ := exists_minute hminute
      unfold minuteLength at *
      obtain ⟨j, hj⟩ : ∃ j : Nat, k' = k - j := ⟨(k - k').toNat, by omega⟩
      have hcandidate : k' * 60000000 = k * 60000000 + j * -60000000 := by omega
      by_contra hlt
      have hnone := hbefore j (by omega)
      rw [← hcandidate, hmatch] at hnone
      cases hnone
    · show k * 60000000 < k * 60000000 + i * -60000000 + window * 60000000
      omega
  · rintro ⟨⟨⟨⟨hminute, hmatching⟩, hearlier⟩, hgreatest⟩, hwindow⟩
    obtain ⟨k', rfl⟩ := exists_minute hminute
    unfold minuteLength at *
    obtain ⟨i, hi⟩ : ∃ i : Nat, k' = k - i := ⟨(k - k').toNat, by omega⟩
    have hcandidate : k' * 60000000 = k * 60000000 + i * -60000000 := by omega
    have hroom : k * 60000000 < k' * 60000000 + window * 60000000 := hwindow
    refine ⟨i, by omega, hcandidate, hmatching, fun j hj => ?_⟩
    by_contra hmatch
    have habove := hgreatest ⟨⟨?_, Bool.of_not_eq_false hmatch⟩, ?_⟩
    · omega
    · unfold minuteLength
      omega
    · omega

/-- There is a next occurrence when the search window has one. -/
theorem exists_nextAfter_iff (hzone : zones timezoneName = some zone) :
    (∃ next, c.nextAfter zones instant timezoneName = .ok next) ↔
      ∃ p ∈ c.occurrences zone, instant < p
        ∧ p ≤ floorMinute instant + maxSearchMinutes * minuteLength := by
  constructor
  · rintro ⟨next, hnext⟩
    obtain ⟨hleast, hwindow⟩ := (nextAfter_eq_ok hzone).mp hnext
    exact ⟨next, hleast.mem, hleast.lt, hwindow⟩
  · rintro ⟨p, ⟨hminute, hmatching⟩, hlater, hwindow⟩
    unfold nextAfter zoneOf
    rw [hzone]
    cases hsearch : search (c.matchesInZone zone) minuteLength maxSearchMinutes
        (floorMinute instant + minuteLength) with
    | some found => exact ⟨found, demand_eq_ok.mpr hsearch⟩
    | none =>
      obtain ⟨k, hfloor, hlow, hhigh⟩ := exists_floorMinute instant
      obtain ⟨k', rfl⟩ := exists_minute hminute
      rw [hfloor] at hsearch hwindow
      unfold minuteLength at *
      generalize maxSearchMinutes = window at hsearch hwindow
      obtain ⟨i, hi⟩ : ∃ i : Nat, k' = k + 1 + i := ⟨(k' - k - 1).toNat, by omega⟩
      have hcandidate : k' * 60000000 = k * 60000000 + 60000000 + i * 60000000 := by omega
      have hnone := search_eq_none hsearch (i := i) (by omega)
      rw [← hcandidate, hmatching] at hnone
      cases hnone

theorem nextAfter_eq_error (hzone : zones timezoneName = some zone)
    (h : ¬ ∃ next, c.nextAfter zones instant timezoneName = .ok next) :
    c.nextAfter zones instant timezoneName = .error noFireTime := by
  unfold nextAfter zoneOf at h ⊢
  rw [hzone] at h ⊢
  cases hsearch : search (c.matchesInZone zone) minuteLength maxSearchMinutes
      (floorMinute instant + minuteLength) with
  | some found => exact absurd ⟨found, demand_eq_ok.mpr hsearch⟩ h
  | none =>
    show demand noFireTime (search _ _ _ _) = _
    rw [hsearch]
    rfl

/-- From just before an occurrence the next one is that occurrence. -/
theorem nextAfter_of_occurrence (hzone : zones timezoneName = some zone) {p : Int}
    (hp : p ∈ c.occurrences zone) : c.nextAfter zones (p - 1) timezoneName = .ok p := by
  rw [nextAfter_eq_ok hzone]
  refine ⟨⟨⟨hp, by omega⟩, fun m hm => ?_⟩, ?_⟩
  · obtain ⟨-, hlater⟩ := hm
    omega
  · have hminute : p % 60000000 = 0 := hp.1
    show p ≤ p - 1 - (p - 1) % 60000000 + 2635200 * 60000000
    omega

/-- At an occurrence the previous one is that occurrence. -/
theorem previousAtOrBefore_of_occurrence (hzone : zones timezoneName = some zone) {p : Int}
    (hp : p ∈ c.occurrences zone) : c.previousAtOrBefore zones p timezoneName = .ok p := by
  rw [previousAtOrBefore_eq_ok hzone]
  refine ⟨⟨⟨hp, le_rfl⟩, fun m hm => hm.2⟩, ?_⟩
  rw [floorMinute_of_emod hp.1]
  show p < p + 2635200 * 60000000
  omega

/-- The searches return the nearest occurrences, whatever the seconds of the instant and
whatever the time zone does. -/
theorem searches_exact (hzone : zones timezoneName = some zone) (instant : Int) :
    (∀ next, c.nextAfter zones instant timezoneName = .ok next →
      IsLeast {m : Int | m % minuteLength = 0 ∧ c.matchesInZone zone m = true ∧ instant < m} next
      ∧ c.previousAtOrBefore zones next timezoneName = .ok next)
    ∧ (∀ previous, c.previousAtOrBefore zones instant timezoneName = .ok previous →
      IsGreatest {m : Int | m % minuteLength = 0 ∧ c.matchesInZone zone m = true ∧ m ≤ instant}
        previous)
    ∧ ∀ p : Int, p % minuteLength = 0 → c.matchesInZone zone p = true →
      c.nextAfter zones (p - 1) timezoneName = .ok p := by
  refine ⟨fun next hnext => ?_, fun previous hprevious => ?_, fun p hminute hmatching => ?_⟩
  · obtain ⟨hleast, -⟩ := (nextAfter_eq_ok hzone).mp hnext
    refine ⟨⟨⟨hleast.mem.1, hleast.mem.2, hleast.lt⟩, fun m hm => ?_⟩,
      previousAtOrBefore_of_occurrence hzone hleast.mem⟩
    exact hleast.2 ⟨⟨hm.1, hm.2.1⟩, hm.2.2⟩
  · obtain ⟨hgreatest, -⟩ := (previousAtOrBefore_eq_ok hzone).mp hprevious
    refine ⟨⟨hgreatest.1.1.1, hgreatest.1.1.2, hgreatest.1.2⟩, fun m hm => ?_⟩
    exact hgreatest.2 ⟨⟨hm.1, hm.2.1⟩, hm.2.2⟩
  · exact nextAfter_of_occurrence hzone ⟨hminute, hmatching⟩

end

/-- Every hour at a quarter past, in a zone whose clock shows each hour twice. -/
theorem searches_exact_repeated :
    let zone : Zone := fun instant => ⟨(instant / minuteLength % 60).toNat,
      (instant / minuteLength / 120 % 24).toNat, 1, 1, 0⟩
    let hourly : CronExpression :=
      { minute := ⟨{15}, false⟩, hour := ⟨Finset.Icc 0 23, true⟩
        dayOfMonth := ⟨Finset.Icc 1 31, true⟩, month := ⟨Finset.Icc 1 12, true⟩
        dayOfWeek := ⟨Finset.Icc 0 6, true⟩ }
    hourly.nextAfter (fun _ => some zone) 900000001 "Zone" = .ok 4500000000
      ∧ IsLeast {m : Int | m % minuteLength = 0 ∧ hourly.matchesInZone zone m = true
          ∧ 900000001 < m} 4500000000 := by
  intro zone hourly
  have hnext : hourly.nextAfter (fun _ => some zone) 900000001 "Zone" = .ok 4500000000 := by
    decide +kernel
  exact ⟨hnext, ((searches_exact rfl 900000001).1 _ hnext).1⟩

end CronExpression

end QaPlatform.Automation
