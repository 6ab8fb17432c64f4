import QaPlatform.Runtime.DeviceConsistency

/-!
# What device views promise

A device that the views report as idle is one that the candidate query finds. The views derive
the status from the row and the clock, the query reads the stored one. Two kinds of PATCH leave
them apart: one that ends the maintenance of a leased device, and one that enables a device without
looking at its heartbeat.

`Shown` says of a row that what the views derive from it is what is stored, as far as idle
devices go. Every transaction writes rows that are shown as they are stored but for the PATCHes
of `Misleads`; time takes nothing away, because a heartbeat only gets older. When all rows are
shown so, the first candidate that has what is required is a device that the views report as
idle.
-/

namespace QaPlatform.Runtime.DeviceStore

open Automation (DeviceStatus)

/-- The stored status is the one that the views derive, as far as idle devices go. -/
structure Shown (offlineAfter : Int) (now : Instant) (d : DeviceRecord) : Prop where
  leased : d.activeLeaseId.isSome = true → d.status ≠ .idle
  free : d.activeLeaseId = none → d.enabled = true → d.Heartbeating offlineAfter now →
    d.status ≠ .maintenance → d.status = .idle

/-- Every device is shown as it is stored. -/
def AllShown (offlineAfter : Int) (now : Instant) (s : DeviceStore) : Prop :=
  ∀ d ∈ s.devices.rows, Shown offlineAfter now d

variable {offlineAfter : Int} {now later : Instant} {d : DeviceRecord} {s s' : DeviceStore}

/-- A heartbeat does not get younger. -/
theorem Shown.mono (h : Shown offlineAfter now d) (hle : now ≤ later) :
    Shown offlineAfter later d where
  leased := h.leased
  free hlease henabled hbeat := by
    refine h.free hlease henabled ?_
    unfold DeviceRecord.Heartbeating at hbeat ⊢
    obtain ⟨heartbeat, hsome, hfresh⟩ := (Option.any_eq_true _ _).mp hbeat
    refine (Option.any_eq_true _ _).mpr ⟨heartbeat, hsome, decide_eq_true ?_⟩
    exact lt_of_le_of_lt hle (of_decide_eq_true hfresh)

/-- What the views report as idle is a candidate. -/
theorem Shown.candidate (h : Shown offlineAfter now d)
    (hidle : effectiveDeviceStatus offlineAfter d now = .idle) :
    Candidate (now - offlineAfter) d := by
  unfold effectiveDeviceStatus at hidle
  split at hidle
  · cases hidle
  next hmaintenance =>
  split at hidle
  · cases hidle
  next henabled =>
  split at hidle
  · cases hidle
  next hbeat =>
  rw [not_not] at henabled hbeat
  have hfree : d.activeLeaseId = none := by
    cases hlease : d.activeLeaseId with
    | none => rfl
    | some l =>
      rw [hlease] at hidle
      exact absurd hidle (h.leased (by rw [hlease]; rfl))
  refine ⟨henabled, h.free hfree henabled hbeat hmaintenance, hfree, ?_⟩
  obtain ⟨heartbeat, hsome, hfresh⟩ := (Option.any_eq_true _ _).mp hbeat
  refine (Option.any_eq_true _ _).mpr ⟨heartbeat, hsome, decide_eq_true ?_⟩
  exact Int.sub_right_lt_of_lt_add (of_decide_eq_true hfresh)

theorem availableDeviceStatus_eq_idle (henabled : d.enabled = true)
    (hbeat : d.Heartbeating offlineAfter now) :
    availableDeviceStatus offlineAfter d now = .idle := by
  unfold availableDeviceStatus
  rw [if_neg (not_not.mpr henabled), if_neg (not_not.mpr hbeat)]

theorem of_availableDeviceStatus (h : availableDeviceStatus offlineAfter d now = .idle) :
    d.enabled = true ∧ d.Heartbeating offlineAfter now := by
  unfold availableDeviceStatus at h
  split at h
  · cases h
  next henabled =>
  split at h
  · cases h
  next hbeat => exact ⟨not_not.mp henabled, not_not.mp hbeat⟩

/-- The row that a release or an expiry leaves. -/
theorem shown_available (d : DeviceRecord) (version : Nat) (updatedAt : Instant) :
    Shown offlineAfter now { d with
      activeLeaseId := none
      status := availableDeviceStatus offlineAfter d now
      version
      updatedAt } where
  leased h := (nomatch h)
  free _ henabled hbeat _ := availableDeviceStatus_eq_idle (d := d) henabled hbeat

/-- The row of a device that somebody works on. -/
theorem shown_held (hlease : d.activeLeaseId.isSome = true) (hstatus : d.status ≠ .idle) :
    Shown offlineAfter now d where
  leased _ := hstatus
  free hnone := by
    rw [hnone] at hlease
    cases hlease

/-- Writing a row that is shown as it is stored. -/
theorem AllShown.put (h : AllShown offlineAfter now s) (hd : Shown offlineAfter now d)
    (hdevices : s'.devices = s.devices.put d) : AllShown offlineAfter now s' := by
  intro x hx
  rw [hdevices] at hx
  obtain rfl | ⟨hold, -⟩ := Table.mem_put hx
  · exact hd
  · exact h x hold

/-! ## The two kinds of PATCH -/

/-- The PATCH leaves the device enabled with a fresh heartbeat, and ends the maintenance of a leased
device or enables one that is free without ending a maintenance. -/
def Misleads (offlineAfter : Int) (s : DeviceStore) (e : Instant × Call) : Prop :=
  match e.2 with
  | .updateDevice deviceId payload => ∃ d ∈ s.devices.get? deviceId, s.PatchAccepted d payload
      ∧ (patchFields d payload).enabled = true ∧ d.Heartbeating offlineAfter e.1
      ∧ (payload.maintenance = some false ∧ d.activeLeaseId.isSome = true
        ∨ payload.maintenance = none ∧ d.activeLeaseId = none ∧ d.enabled = false
          ∧ d.status ≠ .maintenance)
  | _ => False

theorem updateDevice_shown (h : AllShown offlineAfter now s) {deviceId : Uuid}
    {payload : DevicePatch}
    (hkeep : ¬ s.Misleads offlineAfter (now, .updateDevice deviceId payload))
    (hs : s.updateDevice offlineAfter deviceId payload now = .ok s') :
    AllShown offlineAfter now s' := by
  obtain ⟨d, hd, hacc, hmaint, rfl⟩ := updateDevice_eq_ok.mp hs
  obtain ⟨hleased, hfree⟩ := h d (Table.mem_of_get? hd)
  refine h.put ?_ rfl
  constructor
  · intro hlease hidle
    have hstatus : patchedStatus offlineAfter d payload now = .idle := hidle
    unfold patchedStatus at hstatus
    split at hstatus
    · cases hstatus
    · next hends =>
      obtain ⟨henabled, hbeat⟩ := of_availableDeviceStatus hstatus
      exact hkeep ⟨d, hd, hacc, henabled, hbeat, .inl ⟨hends, hlease⟩⟩
    · split at hstatus
      · cases hstatus
      · exact hleased hlease hstatus
  · intro hlease henabled hbeat hmaintenance
    show patchedStatus offlineAfter d payload now = .idle
    have hother : patchedStatus offlineAfter d payload now ≠ .maintenance := hmaintenance
    unfold patchedStatus at hother ⊢
    split
    · next hstarts =>
      rw [hstarts] at hother
      exact absurd rfl hother
    · exact availableDeviceStatus_eq_idle (d := patchFields d payload) henabled hbeat
    · next hkeeps =>
      rw [hkeeps] at hother
      dsimp only at hother
      have hkept : ¬ (¬ (patchFields d payload).enabled = true ∧ d.activeLeaseId = none) :=
        fun h => h.1 henabled
      rw [if_neg hkept] at hother ⊢
      -- a device that was enabled before is shown as it was
      cases hbefore : d.enabled with
      | true => exact hfree hlease hbefore hbeat hother
      | false => exact absurd ⟨d, hd, hacc, henabled, hbeat,
        .inr ⟨hkeeps, hlease, hbefore, hother⟩⟩ hkeep

/-! ## The other transactions -/

theorem createDevice_shown (h : AllShown offlineAfter now s) {payload : DeviceCreate}
    (hs : s.createDevice payload now = .ok s') : AllShown offlineAfter now s' := by
  unfold createDevice at hs
  obtain ⟨-, -, hs⟩ := bind_eq_ok.mp hs
  rw [refuse_bind_eq_ok, refuse_bind_eq_ok, pure_eq_ok] at hs
  obtain ⟨-, -, rfl⟩ := hs
  intro x hx
  obtain hold | rfl := Table.mem_add hx
  · exact h x hold
  · exact ⟨fun hlease => (nomatch hlease), fun _ _ hbeat => (nomatch hbeat)⟩

theorem deleteDevice_shown (h : AllShown offlineAfter now s) {deviceId : Uuid}
    (hs : s.deleteDevice deviceId = .ok s') : AllShown offlineAfter now s' := by
  unfold deleteDevice at hs
  obtain ⟨d, -, hs⟩ := bind_eq_ok.mp hs
  rw [refuse_bind_eq_ok, pure_eq_ok] at hs
  obtain ⟨-, rfl⟩ := hs
  exact fun x hx => h x (List.mem_of_mem_filter hx)

theorem heartbeatDevice_shown (h : AllShown offlineAfter now s) {deviceId : Uuid} {agentId : String}
    (hs : s.heartbeatDevice deviceId agentId now = .ok s') : AllShown offlineAfter now s' := by
  unfold heartbeatDevice at hs
  simp only [bind_eq_ok, refuse_eq_ok, pure_eq_ok, requireDevice_eq_ok] at hs
  obtain ⟨d, hd, -, -, -, -, rfl⟩ := hs
  obtain ⟨hleased, -⟩ := h d (Table.mem_of_get? hd)
  refine h.put ?_ rfl
  constructor
  · intro hlease hidle
    dsimp only at hlease hidle
    rw [if_neg fun hfree => by rw [hfree.2] at hlease; cases hlease] at hidle
    exact hleased hlease hidle
  · intro hlease henabled _ hmaintenance
    dsimp only at hlease henabled hmaintenance ⊢
    by_cases hstatus : d.status = .maintenance
    · rw [if_neg fun hfree => hfree.1 hstatus] at hmaintenance
      exact absurd hstatus hmaintenance
    · rw [if_pos ⟨hstatus, hlease⟩, if_pos henabled]

theorem expireDeviceLease_shown (h : AllShown offlineAfter now s) {leaseId : Uuid}
    (hs : s.expireDeviceLease offlineAfter leaseId now = .ok s') :
    AllShown offlineAfter now s' := by
  unfold expireDeviceLease at hs
  split at hs
  · cases hs
    exact h
  split at hs
  · split at hs
    · cases hs
      exact h
    dsimp only at hs
    split at hs
    · cases hs
      exact h.put (shown_available _ _ _) rfl
    · cases hs
      exact h
  · cases hs

theorem acquireDevice_shown (h : AllShown offlineAfter now s) {lower : String → String}
    {payload : DeviceAcquire} {token : String} {skipped : List Uuid} {r : Option ClaimedDevice}
    (hs : s.acquireDevice lower offlineAfter payload token now skipped = .ok (s', r)) :
    AllShown offlineAfter now s' := by
  unfold acquireDevice at hs
  simp only [bind_eq_ok, refuse_eq_ok] at hs
  obtain ⟨-, -, task, -, -, -, hs⟩ := hs
  split at hs
  · obtain ⟨rfl, -⟩ : s = s' ∧ none = r := by simpa [pure, Except.pure] using hs
    exact h
  · simp only [bind_eq_ok, refuse_eq_ok, pure_eq_ok, Prod.mk.injEq] at hs
    obtain ⟨-, -, rfl, -⟩ := hs
    refine h.put (shown_held ?_ ?_) rfl
    · rfl
    · simp

theorem startDeviceWork_shown (h : AllShown offlineAfter now s) {leaseId : Uuid}
    {owner token : String} {r : ClaimedDevice}
    (hs : s.startDeviceWork offlineAfter leaseId owner token now = .ok (s', r)) :
    AllShown offlineAfter now s' := by
  unfold startDeviceWork at hs
  simp only [bind_eq_ok, pure_eq_ok, Prod.exists, Prod.mk.injEq] at hs
  obtain ⟨l, d, task, hreq, -, -, -, -, rfl, -⟩ := hs
  obtain ⟨-, -, -, hptr⟩ := requireDeviceLease_ok hreq
  refine h.put (shown_held ?_ ?_) rfl
  · exact Option.isSome_of_eq_some hptr
  · simp

theorem renewDeviceLease_shown (h : AllShown offlineAfter now s) {leaseId : Uuid}
    {owner token taskToken : String} {leaseSeconds : Int} {r : DeviceLeaseRecord}
    (hs : s.renewDeviceLease offlineAfter leaseId owner token taskToken leaseSeconds now
      = .ok (s', r)) : AllShown offlineAfter now s' := by
  unfold renewDeviceLease at hs
  simp only [bind_eq_ok, pure_eq_ok, Prod.exists, Prod.mk.injEq] at hs
  obtain ⟨l, d, task, -, -, -, -, -, -, -, rfl, -⟩ := hs
  exact h

theorem releaseDeviceLease_shown (h : AllShown offlineAfter now s) {leaseId : Uuid}
    {owner token : String} {r : DeviceLeaseRecord}
    (hs : s.releaseDeviceLease offlineAfter leaseId owner token now = .ok (s', r)) :
    AllShown offlineAfter now s' := by
  unfold releaseDeviceLease at hs
  simp only [bind_eq_ok, pure_eq_ok, Prod.exists, Prod.mk.injEq] at hs
  obtain ⟨l, d, task, -, rfl, -⟩ := hs
  exact h.put (shown_available d _ _) rfl

theorem call_shown (cfg : Config) (h : AllShown cfg.offlineAfter now s) {c : Call}
    (hkeep : ¬ s.Misleads cfg.offlineAfter (now, c)) (hs : s.call cfg now c = .ok s') :
    AllShown cfg.offlineAfter now s' := by
  cases c with
  | task c =>
    obtain ⟨queue, -, rfl⟩ := map_eq_ok.mp hs
    exact h
  | createDevice payload => exact createDevice_shown h hs
  | updateDevice deviceId payload => exact updateDevice_shown h hkeep hs
  | deleteDevice deviceId => exact deleteDevice_shown h hs
  | heartbeatDevice deviceId agentId => exact heartbeatDevice_shown h hs
  | expireDeviceLease leaseId => exact expireDeviceLease_shown h hs
  | acquireDevice payload token skipped =>
    obtain ⟨⟨s₁, r⟩, hr, rfl⟩ := map_eq_ok.mp hs
    exact acquireDevice_shown h hr
  | startDeviceWork leaseId owner leaseToken =>
    obtain ⟨⟨s₁, r⟩, hr, rfl⟩ := map_eq_ok.mp hs
    exact startDeviceWork_shown h hr
  | renewDeviceLease leaseId owner leaseToken taskLeaseToken leaseSeconds =>
    obtain ⟨⟨s₁, r⟩, hr, rfl⟩ := map_eq_ok.mp hs
    exact renewDeviceLease_shown h hr
  | releaseDeviceLease leaseId owner leaseToken =>
    obtain ⟨⟨s₁, r⟩, hr, rfl⟩ := map_eq_ok.mp hs
    exact releaseDeviceLease_shown h hr

/-! ## Runs -/

theorem AllShown.mono (h : AllShown offlineAfter now s) (hle : now ≤ later) :
    AllShown offlineAfter later s :=
  fun d hd => (h d hd).mono hle

theorem step_shown (cfg : Config) (h : AllShown cfg.offlineAfter now s) {e : Instant × Call}
    (hle : now ≤ e.1) (hkeep : ¬ s.Misleads cfg.offlineAfter e) :
    AllShown cfg.offlineAfter e.1 (s.step cfg e) := by
  unfold step
  cases hs : s.call cfg e.1 e.2 with
  | error _ => exact h.mono hle
  | ok s' => exact call_shown cfg (h.mono hle) hkeep hs

/-- Along a run whose clock does not run back. -/
theorem run_shown (cfg : Config) {es : List (Instant × Call)} (h : AllShown cfg.offlineAfter now s)
    (hclock : ((es.map Prod.fst) ++ [later]).Pairwise (· ≤ ·)) (hle : ∀ e ∈ es, now ≤ e.1)
    (hlater : now ≤ later)
    (hkeep : Transition.Along (fun s e => ¬ s.Misleads cfg.offlineAfter e) (step cfg) s es) :
    AllShown cfg.offlineAfter later (Transition.run (step cfg) s es) := by
  induction es generalizing s now with
  | nil => exact h.mono hlater
  | cons e es ih =>
    rw [List.map_cons, List.cons_append, List.pairwise_cons] at hclock
    have hnext := step_shown cfg h (hle e List.mem_cons_self) hkeep.1
    refine ih hnext hclock.2 (fun e' he' => ?_) ?_ hkeep.2
    · exact hclock.1 e'.1 (List.mem_append_left _ (List.mem_map_of_mem he'))
    · exact hclock.1 later (List.mem_append_right _ (List.mem_singleton_self later))

/-! ## Acquisition -/

/-- A candidate is idle. -/
theorem Candidate.idle (h : Candidate (now - offlineAfter) d) :
    effectiveDeviceStatus offlineAfter d now = .idle := by
  obtain ⟨henabled, hstatus, hfree, hbeat⟩ := h
  have hfresh : d.Heartbeating offlineAfter now := by
    obtain ⟨heartbeat, hsome, hlt⟩ := (Option.any_eq_true _ _).mp hbeat
    refine (Option.any_eq_true _ _).mpr ⟨heartbeat, hsome, decide_eq_true ?_⟩
    exact Int.lt_add_of_sub_right_lt (of_decide_eq_true hlt)
  unfold effectiveDeviceStatus
  rw [hstatus, if_neg (by decide), if_neg (not_not.mpr henabled), if_neg (not_not.mpr hfresh)]
  split
  · rfl
  · rfl

/-- The loop takes the first candidate when all of them will do. -/
theorem claimLoop_ne_none {lower : String → String} {required : Finset String} {ids : List Uuid}
    {rounds : Nat} (hids : ∀ x ∈ s.devices.rows, x.id ∈ ids → required ⊆ x.capabilities)
    (hd : d ∈ s.devices.rows) (hmem : d.id ∈ ids) (hcandidate : Candidate (now - offlineAfter) d) :
    s.claimLoop lower offlineAfter required now [] (rounds + 1) ids ≠ none := by
  unfold claimLoop
  cases hclaim : s.claimDeviceCandidate lower ids (now - offlineAfter) [] with
  | none =>
    have hempty := List.argmin_eq_none.mp hclaim
    have hin : d ∈ s.devices.rows.filter fun d =>
        d.id ∈ ids ∧ Candidate (now - offlineAfter) d ∧ d.id ∉ ([] : List Uuid) :=
      List.mem_filter.mpr ⟨hd, decide_eq_true ⟨hmem, hcandidate, List.not_mem_nil⟩⟩
    rw [hempty] at hin
    cases hin
  | some c =>
    obtain ⟨hrow, hchosen⟩ := List.mem_filter.mp (List.argmin_mem hclaim)
    obtain ⟨hid, hchosen, -⟩ := of_decide_eq_true hchosen
    dsimp only
    rw [if_pos ⟨hchosen.1, Candidate.idle hchosen, hids c hrow hid⟩]
    exact Option.some_ne_none c

/-- When every device is shown as it is stored, the request gets a device unless none that is shown
as idle will do. -/
theorem AllShown.acquires (h : AllShown offlineAfter now s) {lower : String → String}
    {payload : DeviceAcquire} {token : String}
    (hnone : s.acquireDevice lower offlineAfter payload token now [] = .ok (s', none)) :
    ∀ d ∈ s.devices.rows, effectiveDeviceStatus offlineAfter d now = .idle →
      ¬ payload.requiredCapabilities ⊆ d.capabilities := by
  intro d hd hidle hcapable
  have hcandidate := (h d hd).candidate hidle
  unfold acquireDevice at hnone
  simp only [bind_eq_ok, refuse_eq_ok] at hnone
  obtain ⟨-, -, task, -, -, -, hnone⟩ := hnone
  have hmem : d.id ∈ (s.devices.rows.filter fun d => Candidate (now - offlineAfter) d
      ∧ payload.requiredCapabilities ⊆ d.capabilities).map DeviceRecord.id :=
    List.mem_map_of_mem (List.mem_filter.mpr ⟨hd, decide_eq_true ⟨hcandidate, hcapable⟩⟩)
  have hids : ∀ x ∈ s.devices.rows, x.id ∈ (s.devices.rows.filter fun d =>
      Candidate (now - offlineAfter) d ∧ payload.requiredCapabilities ⊆ d.capabilities).map
        DeviceRecord.id → payload.requiredCapabilities ⊆ x.capabilities := by
    intro x hx hxid
    obtain ⟨y, hy, hsame⟩ := List.mem_map.mp hxid
    obtain ⟨hrow, hfits⟩ := List.mem_filter.mp hy
    have hxy : some y = some x := by
      rw [← Table.get?_key hrow, ← Table.get?_key hx]
      exact congrArg s.devices.get? hsame
    obtain rfl := Option.some.inj hxy
    exact (of_decide_eq_true hfits).2
  split at hnone
  · next hloop =>
    obtain ⟨rounds, hrounds⟩ := Nat.exists_eq_succ_of_ne_zero
      (Nat.ne_of_gt (List.length_pos_of_mem hmem))
    rw [hrounds] at hloop
    exact claimLoop_ne_none hids hd hmem hcandidate hloop
  · simp only [bind_eq_ok, refuse_eq_ok, pure_eq_ok, Prod.mk.injEq] at hnone
    obtain ⟨-, -, -, hsome⟩ := hnone
    cases hsome

/-- In every run without the two kinds of PATCH and with a clock that does not run back, a request
that nobody interferes with gets a device unless no device shown as idle has what it requires. The
sweep of the expired leases that the request begins with is the end of the run. -/
theorem acquireDevice_finds (cfg : Config) (es : List (Instant × Call)) (now : Instant)
    (hclock : ((es.map Prod.fst) ++ [now]).Pairwise (· ≤ ·))
    (hkeep : Transition.Along (fun s e => ¬ s.Misleads cfg.offlineAfter e) (step cfg) empty es) :
    let s := Transition.run (step cfg) empty es
    ∀ (payload : DeviceAcquire) (token : String) (s' : DeviceStore),
      s.acquireDevice cfg.lower cfg.offlineAfter payload token now [] = .ok (s', none) →
      ∀ d ∈ s.devices.rows, effectiveDeviceStatus cfg.offlineAfter d now = .idle →
        ¬ payload.requiredCapabilities ⊆ d.capabilities := by
  intro s payload token s' hnone
  refine AllShown.acquires ?_ hnone
  have hempty : ∀ t, AllShown cfg.offlineAfter t empty := fun t d hd => absurd hd List.not_mem_nil
  cases es with
  | nil => exact hempty now
  | cons e es =>
    have hfirst := hclock
    rw [List.map_cons, List.cons_append, List.pairwise_cons] at hfirst
    refine run_shown cfg (hempty e.1) hclock (fun e' he' => ?_) ?_ hkeep
    · obtain rfl | he' := List.mem_cons.mp he'
      · exact le_rfl
      · exact hfirst.1 e'.1 (List.mem_append_left _ (List.mem_map_of_mem he'))
    · exact hfirst.1 now (List.mem_append_right _ (List.mem_singleton_self now))

/-- A device that beats, and a task whose worker looks for another kind of device. -/
def freeDevice : List (Instant × Call) :=
  [(0, .createDevice ⟨"rig", "agent", "device", "linux", {"usb"}⟩),
    (1, .heartbeatDevice 0 "agent"),
    (2, .task (.enqueueTask ⟨"qa.device.execute", "\x7b\x7d", "default", 50, 3, none, none⟩)),
    (3, .task (.claimTask "worker" ["default"] 60 "task token" []))]

theorem acquireDevice_finds_freeDevice :
    let s := Transition.run (step lesson) empty freeDevice
    ∀ d ∈ s.devices.rows, effectiveDeviceStatus lesson.offlineAfter d 4 = .idle →
      ¬ {"gpu"} ⊆ d.capabilities := by
  intro s
  have hnone : ((s.acquireDevice lesson.lower lesson.offlineAfter
      ⟨0, "worker", "task token", {"gpu"}, 60⟩ "lease token" 4 []).map (·.2.isNone))
      = .ok true := by
    decide +kernel
  cases hresult : s.acquireDevice lesson.lower lesson.offlineAfter
      ⟨0, "worker", "task token", {"gpu"}, 60⟩ "lease token" 4 [] with
  | error e =>
    rw [hresult] at hnone
    cases hnone
  | ok result =>
    obtain ⟨s', claimed⟩ := result
    rw [hresult] at hnone
    have hclaimed : claimed = none := Option.isNone_iff_eq_none.mp (Except.ok.inj hnone)
    rw [hclaimed] at hresult
    exact acquireDevice_finds lesson freeDevice 4 (by decide)
      ⟨id, id, id, id, trivial⟩ _ _ _ hresult

/-- A device that was disabled and enabled again reads as idle, and the request gets nothing. -/
theorem acquireDevice_misses :
    let s := Transition.run (step lesson) empty (freeDevice ++
      [(4, .updateDevice 0 ⟨.unset, .unset, .unset, .unset, .value false, none, 1⟩),
        (5, .updateDevice 0 ⟨.unset, .unset, .unset, .unset, .value true, none, 2⟩)])
    (s.acquireDevice lesson.lower lesson.offlineAfter ⟨0, "worker", "task token", {"usb"}, 60⟩
        "lease token" 6 []).map (·.2.isNone) = .ok true
      ∧ s.devices.rows.map
        (fun d => (effectiveDeviceStatus lesson.offlineAfter d 6, d.capabilities))
        = [(.idle, {"usb"})] := by
  decide +kernel

end QaPlatform.Runtime.DeviceStore
