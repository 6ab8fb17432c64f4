import QaPlatform.Base.LeasePool
import QaPlatform.Base.Transition
import QaPlatform.Runtime.Devices

/-!
# Devices and their leases agree

The joint invariant of device status, `active_lease_id` and lease rows. The
tables form a sound lease pool whose live leases are the active ones; the status
follows the pointer. Every transaction keeps this but one: a PATCH that ends the
maintenance of a leased device sets its status from a helper that does not look
at the lease.

The pool gives the rules for pointers and leases; each of them gets its counterpart here for the
status (`DevicesAgree.putDevice`, `.putLease`, `.endLease`, `.grant`), and the transactions are
sequences of these. `DropsLease` is the one PATCH that is none of them. That the holder of a
live lease can start work and renew it follows from the agreement, so it is a part of the run
theorem.
-/

namespace QaPlatform.Runtime

open Automation (TaskStatus DeviceStatus DeviceLeaseStatus)

/-- The statuses of a device that somebody works on. -/
def DeviceHeld (status : DeviceStatus) : Prop := status = .reserved ∨ status = .busy

instance (status : DeviceStatus) : Decidable (DeviceHeld status) := by
  unfold DeviceHeld
  infer_instance

/-- The pool of the device tables: the live leases are those still `active`. -/
def devicePool (devices : Table DeviceRecord) (leases : Table DeviceLeaseRecord) :
    LeasePool Uuid Uuid :=
  Table.leasePool DeviceRecord.activeLeaseId DeviceLeaseRecord.deviceId (·.status = .active)
    devices leases

/-- Devices and leases point at each other. -/
structure DevicesAgree (devices : Table DeviceRecord) (leases : Table DeviceLeaseRecord) :
    Prop where
  sound : (devicePool devices leases).Sound
  /-- No device points at a lease that has ended. -/
  active : ∀ d ∈ devices.rows, ∀ l, d.activeLeaseId = some l →
    ∀ x, leases.get? l = some x → x.status = .active
  held : ∀ d ∈ devices.rows, d.activeLeaseId.isSome ↔ DeviceHeld d.status

variable {devices : Table DeviceRecord} {leases : Table DeviceLeaseRecord}

/-- What a device points at: an active lease of its own. -/
theorem DevicesAgree.lease_of_pointer (h : DevicesAgree devices leases) {d : DeviceRecord}
    (hd : d ∈ devices.rows) {l : Uuid} (hl : d.activeLeaseId = some l) :
    ∃ x, leases.get? l = some x ∧ x.status = .active ∧ x.deviceId = d.id := by
  have hptr : (devicePool devices leases).holder d.id = some l :=
    (Table.leasePool_holder (Table.get?_key hd)).trans hl
  have hres : (leases.get? l).map DeviceLeaseRecord.deviceId = some d.id := h.sound.owned hptr
  obtain ⟨x, hx, hdev⟩ := Option.map_eq_some_iff.mp hres
  exact ⟨x, hx, h.active d hd l hl x hx, hdev⟩

/-- The device of an active lease points at it. -/
theorem DevicesAgree.pointer_of_lease (h : DevicesAgree devices leases) {l : DeviceLeaseRecord}
    (hl : leases.get? l.id = some l) (hactive : l.status = .active) {d : DeviceRecord}
    (hd : devices.get? l.deviceId = some d) : d.activeLeaseId = some l.id := by
  have hid : d.id = l.deviceId := Table.key_of_get? hd
  have hptr := h.sound.pointed ⟨l, hl, hactive⟩ (Table.leasePool_resource hl)
  rw [← hid] at hd hptr
  exact (Table.leasePool_holder hd).symm.trans hptr

theorem devicesAgree_empty : DevicesAgree Table.empty Table.empty where
  sound := Table.sound_empty
  active := by
    intro d hd
    simp [Table.empty] at hd
  held := by
    intro d hd
    simp [Table.empty] at hd

/-! ## Writes -/

/-- Rewriting a device that keeps its pointer and a status that goes with it. -/
theorem DevicesAgree.putDevice (h : DevicesAgree devices leases) {k : Uuid} {d d' : DeviceRecord}
    (hd : devices.get? k = some d) (hid : d'.id = d.id)
    (hptr : d'.activeLeaseId = d.activeLeaseId)
    (hheld : d.activeLeaseId.isSome ↔ DeviceHeld d'.status) :
    DevicesAgree (devices.put d') leases where
  sound := Table.sound_putResource h.sound (Table.get?_key (Table.mem_of_get? hd)) hid (.inl hptr)
  active := by
    intro x hx l hl
    rcases Table.mem_put hx with rfl | ⟨hold, -⟩
    · exact h.active d (Table.mem_of_get? hd) l (hptr ▸ hl)
    · exact h.active x hold l hl
  held := by
    intro x hx
    rcases Table.mem_put hx with rfl | ⟨hold, -⟩
    · rw [hptr]
      exact hheld
    · exact h.held x hold

/-- Rewriting an active lease that stays active and where it is. -/
theorem DevicesAgree.putLease (h : DevicesAgree devices leases) {l l' : DeviceLeaseRecord}
    (hl : leases.get? l.id = some l) (hid : l'.id = l.id) (hdev : l'.deviceId = l.deviceId)
    (hstatus : l'.status = l.status) : DevicesAgree devices (leases.put l') where
  sound := Table.sound_putLease h.sound hl hid hdev (fun hlive => hstatus ▸ hlive)
  active := by
    intro d hd k hk x hx
    rw [Table.get?_put] at hx
    split at hx
    · next hlk =>
      obtain rfl : l.id = k := hid ▸ hlk
      obtain rfl : l' = x := by simpa [hl] using hx
      rw [hstatus]
      exact h.active d hd l.id hk l hl
    · exact h.active d hd k hk x hx
  held := h.held

/-- Ending a lease and dropping its device's pointer to it. -/
theorem DevicesAgree.endLease (h : DevicesAgree devices leases) {l l' : DeviceLeaseRecord}
    {d d' : DeviceRecord} (hl : leases.get? l.id = some l) (hid : l'.id = l.id)
    (hdev : l'.deviceId = l.deviceId) (hdead : l'.status ≠ .active)
    (hd : devices.get? l.deviceId = some d) (hdid : d'.id = d.id) (hnone : d'.activeLeaseId = none)
    (hptr : d.activeLeaseId = some l.id) (hheld : ¬ DeviceHeld d'.status) :
    DevicesAgree (devices.put d') (leases.put l') := by
  have hkey : d.id = l.deviceId := Table.key_of_get? hd
  rw [← hkey] at hd
  have hput := Table.sound_putLease h.sound hl hid hdev (fun hlive => absurd hlive hdead)
  constructor
  · refine Table.sound_putResource hput hd hdid (.inr ⟨hnone, fun k x hk hx => ?_⟩)
    obtain rfl : l.id = k := by simpa [hptr] using hk
    rw [Table.get?_put_self hl hid] at hx
    exact Option.some.inj hx ▸ hdead
  · intro x hx k hk y hy
    rcases Table.mem_put hx with rfl | ⟨hold, hne⟩
    · simp [hnone] at hk
    · rw [Table.get?_put] at hy
      split at hy
      · next hlk =>
        -- only the lease's own device could point at it
        obtain rfl : l.id = k := hid ▸ hlk
        obtain ⟨z, hz, -, hzdev⟩ := h.lease_of_pointer hold hk
        obtain rfl : l = z := by simpa [hl] using hz
        exact absurd (hzdev.symm.trans hkey.symm) (by simpa [hdid] using hne)
      · exact h.active x hold k hk y hy
  · intro x hx
    rcases Table.mem_put hx with rfl | ⟨hold, -⟩
    · simpa [hnone] using hheld
    · exact h.held x hold

theorem DevicesAgree.addDevice (h : DevicesAgree devices leases) {f : Nat → DeviceRecord}
    {hf : ∀ k, key (f k) = k} (hnone : (f devices.next).activeLeaseId = none)
    (hheld : ¬ DeviceHeld (f devices.next).status) :
    DevicesAgree (devices.add f hf) leases where
  sound := Table.sound_addResource h.sound hnone
  active := by
    intro x hx l hl
    rcases Table.mem_add hx with hold | rfl
    · exact h.active x hold l hl
    · simp [hnone] at hl
  held := by
    intro x hx
    rcases Table.mem_add hx with hold | rfl
    · exact h.held x hold
    · simpa [hnone] using hheld

theorem DevicesAgree.eraseDevice (h : DevicesAgree devices leases) {k : Uuid}
    (hunused : ∀ l ∈ leases.rows, l.deviceId ≠ k) : DevicesAgree (devices.erase k) leases where
  sound := Table.sound_eraseResource h.sound hunused
  active := fun d hd => h.active d (List.mem_of_mem_filter hd)
  held := fun d hd => h.held d (List.mem_of_mem_filter hd)

/-- Giving a device that points at nothing to a new active lease. -/
theorem DevicesAgree.grant (h : DevicesAgree devices leases) {d d' : DeviceRecord}
    {f : Nat → DeviceLeaseRecord} {hf : ∀ k, key (f k) = k} (hd : d ∈ devices.rows)
    (hfree : d.activeLeaseId = none) (hid : d'.id = d.id)
    (hptr : d'.activeLeaseId = some leases.next) (hdev : (f leases.next).deviceId = d.id)
    (hactive : (f leases.next).status = .active) (hheld : DeviceHeld d'.status) :
    DevicesAgree (devices.put d') (leases.add f hf) where
  sound := by
    refine Table.sound_grant h.sound (Table.get?_key hd) (fun l x hl => ?_) hid hptr hdev
    simp [hfree] at hl
  active := by
    intro x hx k hk y hy
    rw [Table.get?_add] at hy
    split at hy
    · obtain rfl := Option.some.inj hy
      exact hactive
    · next hne =>
      rcases Table.mem_put hx with rfl | ⟨hold, -⟩
      · exact absurd (Option.some.inj (hptr.symm.trans hk)) hne
      · exact h.active x hold k hk y hy
  held := by
    intro x hx
    rcases Table.mem_put hx with rfl | ⟨hold, -⟩
    · simpa [hptr] using hheld
    · exact h.held x hold

namespace DeviceStore

/-! ## What a transaction that commits did -/

variable {s s' : DeviceStore} {offlineAfter : Int} {now : Instant}

theorem requireDevice_eq_ok {deviceId : Uuid} {d : DeviceRecord} :
    s.requireDevice deviceId = .ok d ↔ s.devices.get? deviceId = some d := by
  unfold requireDevice
  cases s.devices.get? deviceId with
  | none => simp
  | some x => simp

theorem requireDeviceLease_ok {leaseId : Uuid} {owner token : String} {l : DeviceLeaseRecord}
    {d : DeviceRecord} {task : AutomationTaskRecord}
    (h : s.requireDeviceLease leaseId owner token now = .ok (l, d, task)) :
    s.leases.get? l.id = some l ∧ s.devices.get? l.deviceId = some d ∧ l.status = .active
      ∧ d.activeLeaseId = some l.id := by
  unfold requireDeviceLease at h
  split at h
  · simp at h
  next x hx =>
  split at h
  · next t y ht hy =>
    split at h
    · simp at h
    next hgood =>
    simp only [not_or, not_not] at hgood
    obtain ⟨rfl, rfl, -⟩ : x = l ∧ y = d ∧ t = task := by simpa using h
    have hid : x.id = leaseId := Table.key_of_get? hx
    exact ⟨hid ▸ hx, hy, hgood.1, hgood.2.2.2.2⟩
  · simp at h

/-- What an update checks of a device and a PATCH besides the lease. -/
def PatchAccepted (s : DeviceStore) (d : DeviceRecord) (payload : DevicePatch) : Prop :=
  d.version = payload.version
    ∧ ¬ (payload.name.isNull ∨ payload.kind.isNull ∨ payload.platform.isNull
      ∨ payload.capabilities.isNull ∨ payload.enabled.isNull)
    ∧ CapabilitiesValid (payload.capabilities.getD ∅)
    ∧ ∀ x ∈ s.devices.rows, x.id ≠ d.id → x.name ≠ (patchFields d payload).name

instance (s : DeviceStore) (d : DeviceRecord) (payload : DevicePatch) :
    Decidable (s.PatchAccepted d payload) := by
  unfold PatchAccepted
  infer_instance

/-- The status that an update leaves. -/
def patchedStatus (offlineAfter : Int) (d : DeviceRecord) (payload : DevicePatch)
    (now : Instant) : DeviceStatus :=
  match payload.maintenance with
  | some true => .maintenance
  | some false => availableDeviceStatus offlineAfter (patchFields d payload) now
  | none =>
    if ¬ (patchFields d payload).enabled ∧ d.activeLeaseId = none then .offline else d.status

theorem check_capabilities_eq_ok {field : PatchField (Finset String)} {u : Unit} :
    field.check validateCapabilities = .ok u ↔ CapabilitiesValid (field.getD ∅) := by
  cases field with
  | value values => simp [PatchField.check, PatchField.getD, validateCapabilities]
  | unset | null =>
    simp only [PatchField.check, PatchField.getD, true_iff]
    decide

theorem updateDevice_eq_ok {deviceId : Uuid} {payload : DevicePatch} :
    s.updateDevice offlineAfter deviceId payload now = .ok s' ↔
      ∃ d, s.devices.get? deviceId = some d ∧ s.PatchAccepted d payload
        ∧ ¬ (payload.maintenance = some true ∧ d.activeLeaseId.isSome)
        ∧ s' = { s with devices := s.devices.put { patchFields d payload with
            status := patchedStatus offlineAfter d payload now
            version := d.version + 1
            updatedAt := now } } := by
  unfold updateDevice
  rw [bind_eq_ok]
  refine exists_congr fun d => ?_
  rw [requireDevice_eq_ok, refuse_bind_eq_ok, refuse_bind_eq_ok, bind_eq_ok]
  simp only [refuse_bind_eq_ok, check_capabilities_eq_ok, pure_eq_ok, exists_const, PatchAccepted,
    patchedStatus, List.any_eq_true, decide_eq_true_eq, not_exists, not_and, not_not, ne_eq]
  constructor
  · rintro ⟨hd, hv, hn, hc, hm, hname, rfl⟩
    exact ⟨hd, ⟨hv, hn, hc, hname⟩, hm, rfl⟩
  · rintro ⟨hd, ⟨hv, hn, hc, hname⟩, hm, rfl⟩
    exact ⟨hd, hv, hn, hc, hm, hname, rfl⟩

theorem claimLoop_some {lower : String → String} {required : Finset String}
    {skipped : List Uuid} {d : DeviceRecord} {rounds : Nat} {ids : List Uuid}
    (h : s.claimLoop lower offlineAfter required now skipped rounds ids = some d) :
    d ∈ s.devices.rows ∧ Candidate (now - offlineAfter) d := by
  induction rounds generalizing ids with
  | zero => simp [claimLoop] at h
  | succ rounds ih =>
    unfold claimLoop at h
    split at h
    · simp at h
    next c hc =>
    split at h
    · obtain rfl := Option.some.inj h
      have hmem := List.argmin_mem hc
      simp only [List.mem_filter, decide_eq_true_eq] at hmem
      exact ⟨hmem.1, hmem.2.2.1⟩
    · exact ih h

/-! ## Every transaction but one keeps the agreement -/

/-- Device status, pointers and lease rows agree. -/
def Agrees (s : DeviceStore) : Prop := DevicesAgree s.devices s.leases

theorem not_held_available (d : DeviceRecord) :
    ¬ DeviceHeld (availableDeviceStatus offlineAfter d now) := by
  unfold availableDeviceStatus
  split
  · decide
  split
  · decide
  · decide

theorem createDevice_agrees (h : s.Agrees) {payload : DeviceCreate}
    (hs : s.createDevice payload now = .ok s') : s'.Agrees := by
  unfold createDevice at hs
  rw [bind_eq_ok] at hs
  obtain ⟨-, -, hs⟩ := hs
  rw [refuse_bind_eq_ok, refuse_bind_eq_ok, pure_eq_ok] at hs
  obtain ⟨-, -, rfl⟩ := hs
  simp only [Agrees]
  refine h.addDevice ?_ ?_
  · rfl
  · simp [DeviceHeld]

/-- The PATCH ends the maintenance of a device that holds a lease. -/
def DropsLease (s : DeviceStore) : Call → Prop
  | .updateDevice deviceId payload => payload.maintenance = some false
      ∧ ∃ d ∈ s.devices.get? deviceId, d.activeLeaseId.isSome ∧ s.PatchAccepted d payload
  | _ => False

theorem updateDevice_agrees (h : s.Agrees) {deviceId : Uuid} {payload : DevicePatch}
    (hkeep : ¬ s.DropsLease (.updateDevice deviceId payload))
    (hs : s.updateDevice offlineAfter deviceId payload now = .ok s') : s'.Agrees := by
  obtain ⟨d, hd, hacc, hmaint, rfl⟩ := updateDevice_eq_ok.mp hs
  have hheld := h.held d (Table.mem_of_get? hd)
  refine h.putDevice hd rfl rfl ?_
  show _ ↔ DeviceHeld (patchedStatus offlineAfter d payload now)
  unfold patchedStatus
  split
  · next hm =>
    have hfree : ¬ d.activeLeaseId.isSome := fun hl => hmaint ⟨hm, hl⟩
    exact ⟨fun hl => absurd hl hfree, fun hh => absurd hh (by decide)⟩
  · next hm =>
    have hfree : ¬ d.activeLeaseId.isSome := fun hl => hkeep ⟨hm, d, hd, hl, hacc⟩
    exact ⟨fun hl => absurd hl hfree, fun hh => absurd hh (not_held_available _)⟩
  · split
    · next hidle =>
      have hfree : ¬ d.activeLeaseId.isSome := by simp [hidle.2]
      exact ⟨fun hl => absurd hl hfree, fun hh => absurd hh (by decide)⟩
    · exact hheld

theorem deleteDevice_agrees (h : s.Agrees) {deviceId : Uuid}
    (hs : s.deleteDevice deviceId = .ok s') : s'.Agrees := by
  unfold deleteDevice at hs
  rw [bind_eq_ok] at hs
  obtain ⟨d, -, hs⟩ := hs
  rw [refuse_bind_eq_ok, pure_eq_ok] at hs
  obtain ⟨hunused, rfl⟩ := hs
  refine h.eraseDevice (fun l hl hdev => hunused ?_)
  simp only [List.any_eq_true, decide_eq_true_eq]
  exact ⟨l, hl, hdev⟩

theorem heartbeatDevice_agrees (h : s.Agrees) {deviceId : Uuid} {agentId : String}
    (hs : s.heartbeatDevice deviceId agentId now = .ok s') : s'.Agrees := by
  unfold heartbeatDevice at hs
  simp only [bind_eq_ok, refuse_eq_ok, pure_eq_ok, requireDevice_eq_ok] at hs
  obtain ⟨d, hd, -, -, -, -, rfl⟩ := hs
  refine h.putDevice hd rfl rfl ?_
  dsimp only
  split
  · next hfree =>
    have hidle : ¬ DeviceHeld (if d.enabled then .idle else .offline) := by
      split
      · decide
      · decide
    simpa [hfree.2] using hidle
  · exact h.held d (Table.mem_of_get? hd)

theorem expireDeviceLease_agrees (h : s.Agrees) {leaseId : Uuid}
    (hs : s.expireDeviceLease offlineAfter leaseId now = .ok s') : s'.Agrees := by
  unfold expireDeviceLease at hs
  split at hs
  · cases hs
    exact h
  next l hl =>
  split at hs
  · next t d ht hd =>
    have hid : l.id = leaseId := Table.key_of_get? hl
    split at hs
    · cases hs
      exact h
    next hdue =>
    simp only [not_or, not_not] at hdue
    have hptr : d.activeLeaseId = some l.id := h.pointer_of_lease (hid ▸ hl) hdue.1 hd
    dsimp only at hs
    rw [if_pos hptr] at hs
    cases hs
    exact h.endLease (l := l) (hid ▸ hl) rfl rfl (by simp) hd rfl rfl hptr (not_held_available d)
  · simp at hs

theorem acquireDevice_agrees (h : s.Agrees) {lower : String → String} {payload : DeviceAcquire}
    {token : String} {skipped : List Uuid} {r : Option ClaimedDevice}
    (hs : s.acquireDevice lower offlineAfter payload token now skipped = .ok (s', r)) :
    s'.Agrees := by
  unfold acquireDevice at hs
  simp only [bind_eq_ok, refuse_eq_ok] at hs
  obtain ⟨-, -, task, -, -, -, hs⟩ := hs
  split at hs
  · obtain ⟨rfl, -⟩ : s = s' ∧ none = r := by simpa [pure, Except.pure] using hs
    exact h
  next d hloop =>
  obtain ⟨hd, -, -, hfree, -⟩ := claimLoop_some hloop
  simp only [bind_eq_ok, refuse_eq_ok, pure_eq_ok, Prod.mk.injEq] at hs
  obtain ⟨-, -, rfl, -⟩ := hs
  simp only [Agrees]
  refine h.grant hd hfree ?_ ?_ ?_ ?_ ?_
  · rfl
  · rfl
  · rfl
  · rfl
  · simp [DeviceHeld]

theorem startDeviceWork_agrees (h : s.Agrees) {leaseId : Uuid} {owner token : String}
    {r : ClaimedDevice}
    (hs : s.startDeviceWork offlineAfter leaseId owner token now = .ok (s', r)) :
    s'.Agrees := by
  unfold startDeviceWork at hs
  simp only [bind_eq_ok, pure_eq_ok, Prod.exists, Prod.mk.injEq] at hs
  obtain ⟨l, d, task, hreq, -, -, -, -, rfl, -⟩ := hs
  obtain ⟨-, hd, -, hptr⟩ := requireDeviceLease_ok hreq
  refine h.putDevice hd rfl rfl ?_
  simp [hptr, DeviceHeld]

theorem renewDeviceLease_agrees (h : s.Agrees) {leaseId : Uuid}
    {owner token taskToken : String} {leaseSeconds : Int} {r : DeviceLeaseRecord}
    (hs : s.renewDeviceLease offlineAfter leaseId owner token taskToken leaseSeconds now
      = .ok (s', r)) : s'.Agrees := by
  unfold renewDeviceLease at hs
  simp only [bind_eq_ok, pure_eq_ok, Prod.exists, Prod.mk.injEq] at hs
  obtain ⟨l, d, task, hreq, -, -, -, -, -, -, rfl, -⟩ := hs
  obtain ⟨hl, -⟩ := requireDeviceLease_ok hreq
  exact h.putLease hl rfl rfl rfl

theorem releaseDeviceLease_agrees (h : s.Agrees) {leaseId : Uuid} {owner token : String}
    {r : DeviceLeaseRecord}
    (hs : s.releaseDeviceLease offlineAfter leaseId owner token now = .ok (s', r)) :
    s'.Agrees := by
  unfold releaseDeviceLease at hs
  simp only [bind_eq_ok, pure_eq_ok, Prod.exists, Prod.mk.injEq] at hs
  obtain ⟨l, d, task, hreq, rfl, -⟩ := hs
  obtain ⟨hl, hd, -, hptr⟩ := requireDeviceLease_ok hreq
  exact h.endLease hl rfl rfl (by simp) hd rfl rfl hptr (not_held_available d)

theorem call_agrees (cfg : Config) (h : s.Agrees) {c : Call} (hkeep : ¬ s.DropsLease c)
    (hs : s.call cfg now c = .ok s') : s'.Agrees := by
  cases c with
  | task c =>
    -- the task methods write no device and no lease
    obtain ⟨queue, -, rfl⟩ := map_eq_ok.mp hs
    exact h
  | createDevice payload => exact createDevice_agrees h hs
  | updateDevice deviceId payload => exact updateDevice_agrees h hkeep hs
  | deleteDevice deviceId => exact deleteDevice_agrees h hs
  | heartbeatDevice deviceId agentId => exact heartbeatDevice_agrees h hs
  | expireDeviceLease leaseId => exact expireDeviceLease_agrees h hs
  | acquireDevice payload token skipped =>
    obtain ⟨⟨s₁, r⟩, hr, rfl⟩ := map_eq_ok.mp hs
    exact acquireDevice_agrees h hr
  | startDeviceWork leaseId owner leaseToken =>
    obtain ⟨⟨s₁, r⟩, hr, rfl⟩ := map_eq_ok.mp hs
    exact startDeviceWork_agrees h hr
  | renewDeviceLease leaseId owner leaseToken taskLeaseToken leaseSeconds =>
    obtain ⟨⟨s₁, r⟩, hr, rfl⟩ := map_eq_ok.mp hs
    exact renewDeviceLease_agrees h hr
  | releaseDeviceLease leaseId owner leaseToken =>
    obtain ⟨⟨s₁, r⟩, hr, rfl⟩ := map_eq_ok.mp hs
    exact releaseDeviceLease_agrees h hr

theorem step_agrees (cfg : Config) (h : s.Agrees) {e : Instant × Call}
    (hkeep : ¬ s.DropsLease e.2) : (s.step cfg e).Agrees := by
  unfold step
  cases hs : s.call cfg e.1 e.2 with
  | error _ => exact h
  | ok s' => exact call_agrees cfg h hkeep hs

/-! ## Runs -/

/-- The tables after the migration. -/
def empty : DeviceStore := ⟨⟨Table.empty, Table.empty⟩, Table.empty, Table.empty⟩

/-- Devices, leases and tasks agree with each other. -/
structure Consistent (s : DeviceStore) : Prop where
  /-- `active_lease_id` is set exactly on devices that are reserved or busy. -/
  held : ∀ d ∈ s.devices.rows, d.activeLeaseId.isSome ↔ DeviceHeld d.status
  /-- It refers to an active lease of the device. -/
  lease : ∀ d ∈ s.devices.rows, ∀ l, d.activeLeaseId = some l →
    ∃ x, s.leases.get? l = some x ∧ x.status = .active ∧ x.deviceId = d.id

/-- The task's lease is live, held by `owner` with `token`, and not cancelled. -/
structure TaskLeaseLive (task : AutomationTaskRecord) (owner token : String) (now : Instant) :
    Prop where
  running : task.status = .running
  owner : task.leaseOwner = some owner
  token : task.leaseTokenHash = some (tokenHash token)
  unexpired : task.leaseExpiresAt.any (now < ·)
  uncancelled : task.cancelRequested = false

/-- The holder of an unexpired active lease on an enabled, heartbeating device
can start work on it and renew it while its task's lease is live. -/
def HoldersCanWork (offlineAfter : Int) (s : DeviceStore) : Prop :=
  ∀ l ∈ s.leases.rows, ∀ d, s.devices.get? l.deviceId = some d →
    ∀ task, s.queue.tasks.get? l.taskId = some task →
    ∀ (now : Instant) (token taskToken : String) (leaseSeconds : Int),
      l.status = .active → now < l.expiresAt → l.tokenHash = tokenHash token →
      d.enabled → d.Heartbeating offlineAfter now → TaskLeaseLive task l.owner taskToken now →
      (s.startDeviceWork offlineAfter l.id l.owner token now).isOk
        ∧ (s.renewDeviceLease offlineAfter l.id l.owner token taskToken leaseSeconds now).isOk

theorem Agrees.consistent (h : s.Agrees) : s.Consistent where
  held := h.held
  lease := fun _ hd _ hl => h.lease_of_pointer hd hl

theorem Agrees.requireDeviceLease (h : s.Agrees) {l : DeviceLeaseRecord} {d : DeviceRecord}
    {task : AutomationTaskRecord} {token : String} (hl : s.leases.get? l.id = some l)
    (hd : s.devices.get? l.deviceId = some d) (ht : s.queue.tasks.get? l.taskId = some task)
    (hactive : l.status = .active) (hexp : now < l.expiresAt)
    (htok : l.tokenHash = tokenHash token) :
    s.requireDeviceLease l.id l.owner token now = .ok (l, d, task) := by
  have hptr : d.activeLeaseId = some l.id := h.pointer_of_lease hl hactive hd
  have hle : ¬ l.expiresAt ≤ now := Int.not_le.mpr hexp
  unfold DeviceStore.requireDeviceLease
  simp [hl, hd, ht, hactive, hle, htok, hptr]

/-- A leased device that is enabled and heartbeating reads as it is stored. -/
theorem Agrees.validateLeasedDeviceState (h : s.Agrees) {d : DeviceRecord}
    (hd : d ∈ s.devices.rows) (hl : d.activeLeaseId.isSome) (hen : d.enabled)
    (hbeat : d.Heartbeating offlineAfter now) :
    validateLeasedDeviceState offlineAfter d now = .ok () := by
  have hheld : DeviceHeld d.status := (h.held d hd).mp hl
  have hmaint : d.status ≠ .maintenance := by
    intro he
    rw [he] at hheld
    exact absurd hheld (by decide)
  have hstatus : effectiveDeviceStatus offlineAfter d now = d.status := by
    unfold effectiveDeviceStatus
    simp [hmaint, hen, hbeat, hl]
  unfold Runtime.validateLeasedDeviceState
  rw [refuse_eq_ok, hstatus, not_not]
  exact hheld

theorem Agrees.holdersCanWork (h : s.Agrees) : s.HoldersCanWork offlineAfter := by
  intro l hl d hd task ht now token taskToken leaseSeconds hactive hexp htok hen hbeat hlive
  have hreq := h.requireDeviceLease (Table.get?_key hl) hd ht hactive hexp htok
  have hptr : d.activeLeaseId = some l.id := h.pointer_of_lease (Table.get?_key hl) hactive hd
  have hstate := h.validateLeasedDeviceState (Table.mem_of_get? hd) (by simp [hptr]) hen hbeat
  obtain ⟨hrun, howner, htask, hunexp, hcancel⟩ := hlive
  obtain ⟨t, ht', hlt⟩ := (Option.any_eq_true _ _).mp hunexp
  have hnle : ¬ t ≤ now := Int.not_le.mpr (by simpa using hlt)
  have htstate : validateDeviceTaskState task l.owner now = .ok () := by
    simp [validateDeviceTaskState, refuse_bind_eq_ok, hrun, howner, htask, ht', hnle, hcancel]
  have htlease : validateTaskLeaseRecord task l.owner taskToken now = .ok () := by
    simp [validateTaskLeaseRecord, hrun, howner, htask, ht', hnle]
  constructor
  · unfold startDeviceWork
    simp [hreq, htstate, hstate, bind, Except.bind, pure, Except.pure, Except.isOk, Except.toBool]
  · unfold renewDeviceLease
    simp [hreq, htlease, hstate, hcancel, refuse, bind, Except.bind, pure, Except.pure,
      Except.isOk, Except.toBool]

/-- While no PATCH ends the maintenance of a leased device, devices and leases
are consistent in every state and the holders of live leases can work. -/
theorem consistent_of_keeping (cfg : Config) (es : List (Instant × Call))
    (h : Transition.Along (fun s e => ¬ s.DropsLease e.2) (step cfg) empty es) :
    let s := Transition.run (step cfg) empty es
    s.Consistent ∧ s.HoldersCanWork cfg.offlineAfter := by
  intro s
  have hagrees : s.Agrees :=
    Transition.invariant_along (I := Agrees) (fun _ _ hs hkeep => step_agrees cfg hs hkeep)
      devicesAgree_empty h
  exact ⟨hagrees.consistent, hagrees.holdersCanWork⟩

/-- A device leased to the worker of a running task. -/
def leasedDevice : List (Instant × Call) :=
  [(0, .createDevice ⟨"rig", "agent", "device", "linux", ∅⟩),
    (1, .heartbeatDevice 0 "agent"),
    (2, .task (.enqueueTask ⟨"qa.device.execute", "\x7b\x7d", "default", 50, 3, none, none⟩)),
    (3, .task (.claimTask "worker" ["default"] 60 "task token" [])),
    (4, .acquireDevice ⟨0, "worker", "task token", ∅, 60⟩ "lease token" [])]

/-- A configuration with one task type, whose texts are of no interest. -/
def lesson : Config := ⟨["qa.device.execute"], ⟨fun _ => "", fun _ => ""⟩, id, seconds 90⟩

theorem consistent_of_keeping_leasedDevice :
    let s := Transition.run (step lesson) empty leasedDevice
    s.Consistent ∧ s.HoldersCanWork lesson.offlineAfter :=
  consistent_of_keeping lesson leasedDevice ⟨id, id, id, id, id, trivial⟩

/-- Ending the maintenance of a leased device that was never in maintenance
leaves it idle with its lease. -/
theorem not_consistent_after_updateDevice :
    ¬ ∀ (cfg : Config) (es : List (Instant × Call)), (es.map Prod.fst).Pairwise (· ≤ ·) →
      (Transition.run (step cfg) empty es).Consistent := by
  intro h
  have hrun := h lesson (leasedDevice ++ [(5, .updateDevice 0
    ⟨.unset, .unset, .unset, .unset, .unset, some false, 2⟩)]) (by decide)
  exact absurd hrun.held (by decide +kernel)

end DeviceStore

end QaPlatform.Runtime
