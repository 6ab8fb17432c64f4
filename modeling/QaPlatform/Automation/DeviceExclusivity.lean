import QaPlatform.Automation.DeviceManager
import QaPlatform.Base.LeasePool
import QaPlatform.Base.Transition

/-!
# Exclusive device leases

Whether a device of the in-memory manager can be leased twice at a time. The
manager is a lease pool; every method keeps the pool sound except for one:
`set_maintenance(false)` recomputes a leased device's status without looking at
the lease, which may put the device back among the idle ones.

`Inv` is the pool's soundness and that no leased device is idle, which is what `acquire` asks
for. Every method is taken apart into writes of one row, and each of these is one of the pool's
rules for the end or the beginning of leases. Time that passes ends leases and does nothing
else, as long as it does not turn back.
-/

namespace QaPlatform.Automation

/-- A lease that its holder still has at time `t`. -/
def DeviceLease.Live (l : DeviceLease) (t : Instant) : Prop :=
  l.status = .active ∧ t < l.expiresAt

instance (l : DeviceLease) (t : Instant) : Decidable (l.Live t) := by
  unfold DeviceLease.Live
  infer_instance

theorem DeviceLease.Live.anti {l : DeviceLease} {t t' : Instant} (h : l.Live t') (ht : t ≤ t') :
    l.Live t :=
  ⟨h.1, Int.lt_of_le_of_lt ht h.2⟩

theorem DeviceLease.not_live_expire (l : DeviceLease) (t : Instant) : ¬ (l.expire t).Live t := by
  simp [DeviceLease.expire, DeviceLease.Live]

namespace InMemoryDeviceManager

/-- The manager as a lease pool at a time. -/
def pool (m : InMemoryDeviceManager) (t : Instant) : LeasePool Uuid Uuid :=
  Table.leasePool Device.activeLeaseId DeviceLease.deviceId (·.Live t) m.devices m.leases

/-- No device has two leases that are both live. -/
def Exclusive (m : InMemoryDeviceManager) (t : Instant) : Prop :=
  ∀ l₁ ∈ m.leases.rows, ∀ l₂ ∈ m.leases.rows, l₁.deviceId = l₂.deviceId →
    l₁.Live t → l₂.Live t → l₁ = l₂

instance (m : InMemoryDeviceManager) (t : Instant) : Decidable (m.Exclusive t) := by
  unfold Exclusive
  infer_instance

/-- The device's `active_lease_id` points at a live lease. -/
def Leased (m : InMemoryDeviceManager) (t : Instant) (d : Device) : Prop :=
  ∃ l ∈ d.activeLeaseId, ∃ lease ∈ m.leases.get? l, lease.Live t

instance (m : InMemoryDeviceManager) (t : Instant) (d : Device) : Decidable (m.Leased t d) :=
  match hl : d.activeLeaseId with
  | none => .isFalse (by simp [Leased, hl])
  | some l =>
    match hg : m.leases.get? l with
    | none => .isFalse (by simp [Leased, hl, hg])
    | some lease => decidable_of_iff (lease.Live t) (by simp [Leased, hl, hg])

/-- What every method keeps: a sound pool in which no leased device is idle. -/
structure Inv (m : InMemoryDeviceManager) (t : Instant) : Prop where
  sound : (m.pool t).Sound
  reserved : ∀ d ∈ m.devices.rows, m.Leased t d → d.status ≠ .idle

theorem Inv.exclusive {m : InMemoryDeviceManager} {t : Instant} (h : m.Inv t) :
    m.Exclusive t := by
  intro l₁ h₁ l₂ h₂ hdev hlive₁ hlive₂
  have g₁ : m.leases.get? l₁.id = some l₁ := Table.get?_key h₁
  have g₂ : m.leases.get? l₂.id = some l₂ := Table.get?_key h₂
  have hid : l₁.id = l₂.id := by
    refine h.sound.exclusive (d := l₁.deviceId) ⟨l₁, g₁, hlive₁⟩ ⟨l₂, g₂, hlive₂⟩ ?_ ?_
    · exact Table.leasePool_resource g₁
    · rw [hdev]
      exact Table.leasePool_resource g₂
  rw [hid, g₂] at g₁
  exact (Option.some.inj g₁).symm

/-- A leased device is not idle to `acquire`. -/
theorem effectiveStatus_ne_idle {m : InMemoryDeviceManager} {d : Device} {t : Instant}
    (hl : d.activeLeaseId.isSome) (hs : d.status ≠ .idle) : m.effectiveStatus d t ≠ .idle := by
  unfold effectiveStatus
  split
  · simp
  split
  · simp
  split
  · simp
  split
  · simp
  · simpa only [hl, if_pos] using hs

theorem Inv.not_candidate {m : InMemoryDeviceManager} {t : Instant} (h : m.Inv t)
    {required : Finset String} {d : Device} (hd : d ∈ m.acquireCandidates required t) :
    ¬ m.Leased t d := by
  intro hleased
  simp only [acquireCandidates, List.mem_filter, decide_eq_true_eq] at hd
  obtain ⟨hmem, -, hidle, -⟩ := hd
  have hsome : d.activeLeaseId.isSome := by
    obtain ⟨l, hl, -⟩ := hleased
    exact Option.isSome_iff_exists.mpr ⟨l, hl⟩
  exact effectiveStatus_ne_idle hsome (h.reserved d hmem hleased) hidle

/-- Time passing ends leases and changes nothing else. -/
theorem Inv.later {m : InMemoryDeviceManager} {t t' : Instant} (h : m.Inv t) (ht : t ≤ t') :
    m.Inv t' where
  sound := by
    refine h.sound.shrink (fun _ => rfl) ?_ (fun _ => .inl rfl)
    rintro l ⟨lease, hg, hlive⟩
    exact ⟨lease, hg, hlive.anti ht⟩
  reserved := by
    rintro d hd ⟨l, hl, lease, hg, hlive⟩
    exact h.reserved d hd ⟨l, hl, lease, hg, hlive.anti ht⟩

/-! ## Writes -/

variable {m : InMemoryDeviceManager} {t : Instant}

theorem free_of_not_leased {d : Device} (h : ¬ m.Leased t d) :
    Table.Free Device.activeLeaseId (·.Live t) m.leases d :=
  fun l x hl hx hlive => h ⟨l, hl, x, hx, hlive⟩

/-- Rewriting a device that keeps its pointer, or drops one that is not live. -/
theorem Inv.putDevice (h : m.Inv t) {d d' : Device} (hd : m.devices.get? d.id = some d)
    (hid : d'.id = d.id)
    (hptr : d'.activeLeaseId = d.activeLeaseId ∨ d'.activeLeaseId = none ∧ ¬ m.Leased t d)
    (hstatus : m.Leased t d' → d'.status ≠ .idle) :
    Inv { m with devices := m.devices.put d' } t where
  sound := Table.sound_putResource h.sound hd hid
    (hptr.imp id (fun hdrop => ⟨hdrop.1, free_of_not_leased hdrop.2⟩))
  reserved := by
    intro x hx hleased
    rcases Table.mem_put hx with rfl | ⟨hold, -⟩
    · exact hstatus hleased
    · exact h.reserved x hold hleased

/-- Rewriting a lease, which stays on its device and does not come back to life. -/
theorem Inv.putLease (h : m.Inv t) {l l' : DeviceLease} (hl : m.leases.get? l.id = some l)
    (hid : l'.id = l.id) (hdev : l'.deviceId = l.deviceId) (hlive : l'.Live t → l.Live t) :
    Inv { m with leases := m.leases.put l' } t where
  sound := Table.sound_putLease h.sound hl hid hdev hlive
  reserved := by
    rintro d hd ⟨k, hk, x, hx, hxlive⟩
    have hx : (m.leases.put l').get? k = some x := hx
    rw [Table.get?_put] at hx
    split at hx
    · next hlk =>
      obtain rfl : l.id = k := hid ▸ hlk
      obtain rfl : l' = x := by simpa [hl] using hx
      exact h.reserved d hd ⟨l.id, hk, l, hl, hlive hxlive⟩
    · exact h.reserved d hd ⟨k, hk, x, hx, hxlive⟩

/-- Ending a lease and dropping its device's pointer to it. -/
theorem Inv.endLease (h : m.Inv t) {l l' : DeviceLease} {d d' : Device}
    (hl : m.leases.get? l.id = some l) (hid : l'.id = l.id) (hdev : l'.deviceId = l.deviceId)
    (hdead : ¬ l'.Live t) (hd : m.devices.get? d.id = some d) (hptr : d.activeLeaseId = some l.id)
    (hdid : d'.id = d.id) (hnone : d'.activeLeaseId = none) :
    Inv { m with leases := m.leases.put l', devices := m.devices.put d' } t := by
  have hput := h.putLease hl hid hdev (fun hlive => absurd hlive hdead)
  refine hput.putDevice hd hdid (.inr ⟨hnone, ?_⟩) ?_
  · rintro ⟨k, hk, x, hx, hlive⟩
    obtain rfl : l.id = k := by simpa [hptr] using hk
    have hx : (m.leases.put l').get? l.id = some x := hx
    rw [Table.get?_put_self hl hid] at hx
    obtain rfl := Option.some.inj hx
    exact hdead hlive
  · rintro ⟨k, hk, -⟩
    simp [hnone] at hk

/-! ## The sweep -/

/-- A lease row whose device is the one the manager has it on. -/
def Placed (m : InMemoryDeviceManager) (l : DeviceLease) : Prop :=
  ∃ stored, m.leases.get? l.id = some stored ∧ stored.deviceId = l.deviceId

theorem expireOne_inv (h : m.Inv t) {l : DeviceLease} (hl : m.Placed l) :
    (expireOne t m l).Inv t := by
  obtain ⟨stored, hstored, hdev⟩ := hl
  have hid : stored.id = l.id := Table.key_of_get? hstored
  rw [← hid] at hstored
  have hput : Inv { m with leases := m.leases.put (l.expire t) } t :=
    h.putLease hstored hid.symm hdev.symm (fun hlive => absurd hlive (l.not_live_expire t))
  unfold expireOne
  split
  · dsimp only
    cases hd : m.devices.get? l.deviceId with
    | none => exact hput
    | some d =>
      dsimp only
      split
      · next hptr =>
        have hdid : d.id = l.deviceId := Table.key_of_get? hd
        have hget : m.devices.get? d.id = some d := by rw [hdid, hd]
        have hptr : d.activeLeaseId = some stored.id := by rw [hid, hptr]
        exact h.endLease hstored hid.symm hdev.symm (l.not_live_expire t) hget hptr rfl rfl
      · exact hput
  · exact h

theorem expireOne_placed {l l' : DeviceLease} (hl : m.Placed l) (hl' : m.Placed l') :
    (expireOne t m l).Placed l' := by
  have hput : ∃ stored, (m.leases.put (l.expire t)).get? l'.id = some stored
      ∧ stored.deviceId = l'.deviceId := by
    obtain ⟨stored', hs', hdev'⟩ := hl'
    rw [Table.get?_put]
    split
    · next hk =>
      obtain ⟨stored, hs, hdev⟩ := hl
      have hk : l.id = l'.id := hk
      rw [hk, hs'] at hs
      obtain rfl := Option.some.inj hs
      exact ⟨l.expire t, by simp [hs'], by rw [← hdev', hdev]; rfl⟩
    · exact ⟨stored', hs', hdev'⟩
  unfold expireOne
  split
  · dsimp only
    cases m.devices.get? l.deviceId with
    | none => exact hput
    | some d =>
      dsimp only
      split
      · exact hput
      · exact hput
  · exact hl'

theorem expireLocked_inv (h : m.Inv t) : (m.expireLocked t).1.Inv t := by
  have hfold : ∀ (ls : List DeviceLease) (m : InMemoryDeviceManager), m.Inv t →
      (∀ l ∈ ls, m.Placed l) → (ls.foldl (expireOne t) m).Inv t := by
    intro ls
    induction ls with
    | nil => exact fun m h _ => h
    | cons l ls ih =>
      intro m h hls
      have hl : m.Placed l := hls l (by simp)
      refine ih _ (expireOne_inv h hl) (fun l' hl' => expireOne_placed hl (hls l' (by simp [hl'])))
  exact hfold m.leases.rows m h (fun l hl => ⟨l, Table.get?_key hl, rfl⟩)

/-! ## Methods -/

theorem requireDevice_ok {deviceId : Uuid} {d : Device}
    (h : m.requireDevice deviceId = .ok d) : d.id = deviceId ∧ m.devices.get? d.id = some d := by
  unfold requireDevice at h
  cases hd : m.devices.get? deviceId with
  | none => simp [hd] at h
  | some x =>
    obtain rfl : x = d := by simpa [hd] using h
    have hid : x.id = deviceId := Table.key_of_get? hd
    exact ⟨hid, hid ▸ hd⟩

/-- What a lease must satisfy to be used: live, stored, and pointed at. -/
theorem requireLease_ok {leaseId : Uuid} {owner token : String} {l : DeviceLease} {d : Device}
    (h : m.requireLease leaseId owner token t = .ok (l, d)) :
    m.leases.get? l.id = some l ∧ l.Live t ∧ m.devices.get? d.id = some d
      ∧ d.id = l.deviceId ∧ d.activeLeaseId = some l.id := by
  unfold requireLease at h
  cases hl : m.leases.get? leaseId with
  | none => simp [hl] at h
  | some x =>
    simp only [hl] at h
    split at h
    · simp at h
    next hgood =>
    cases hd : m.devices.get? x.deviceId with
    | none => simp [hd] at h
    | some y =>
      simp only [hd] at h
      split at h
      · simp at h
      next hptr =>
      obtain ⟨rfl, rfl⟩ : x = l ∧ y = d := by simpa using h
      have hid : x.id = leaseId := Table.key_of_get? hl
      have hdid : y.id = x.deviceId := Table.key_of_get? hd
      simp only [not_or, not_not, Int.not_le] at hgood hptr
      exact ⟨hid ▸ hl, ⟨hgood.1, hgood.2.2.1⟩, hdid ▸ hd, hdid, hptr⟩

theorem register_inv (h : m.Inv t) (casefold : String → String)
    (name agentId kind platform : String) (capabilities : Finset String) :
    (m.register casefold name agentId kind platform capabilities t).1.Inv t := by
  unfold register
  split
  · exact h
  split
  · exact h
  dsimp only
  split
  · exact h
  refine ⟨Table.sound_addResource h.sound rfl, ?_⟩
  · intro d hd hleased
    rcases Table.mem_add hd with hold | rfl
    · exact h.reserved d hold hleased
    · obtain ⟨l, hl, -⟩ := hleased
      simp at hl

theorem heartbeat_inv (h : m.Inv t) (deviceId : Uuid) (agentId : String) :
    (m.heartbeat deviceId agentId t).1.Inv t := by
  unfold heartbeat
  cases hd : m.requireDevice deviceId with
  | error e => exact h
  | ok d =>
    dsimp only
    split
    · exact h
    split
    · exact h
    obtain ⟨-, hget⟩ := requireDevice_ok hd
    refine h.putDevice (d := d) hget rfl (.inl rfl) ?_
    rintro ⟨l, hl, hlease⟩
    have hptr : d.activeLeaseId = some l := hl
    have hidle : d.status ≠ .idle :=
      h.reserved d (Table.mem_of_get? hget) ⟨l, hl, hlease⟩
    simpa [hptr] using hidle

theorem acquire_inv (h : m.Inv t) (casefold : String → String) (taskId owner : String)
    (required : Finset String) (leaseSeconds : Int) (leaseToken : String) :
    (m.acquire casefold taskId owner required leaseSeconds leaseToken t).1.Inv t := by
  unfold acquire
  split
  · exact h
  have hsweep := expireLocked_inv h
  dsimp only
  generalize (m.expireLocked t).1 = m at hsweep
  split
  · exact hsweep
  next d hmin =>
  have hcand : d ∈ m.acquireCandidates required t := List.argmin_mem hmin
  have hfree : ¬ m.Leased t d := hsweep.not_candidate hcand
  have hget : m.devices.get? d.id = some d := Table.get?_key (List.mem_filter.mp hcand).1
  refine ⟨Table.sound_grant hsweep.sound hget (free_of_not_leased hfree) rfl rfl rfl, ?_⟩
  intro x hx
  rcases Table.mem_put hx with rfl | ⟨hmem, -⟩
  · simp
  · rintro ⟨k, hk, y, hy, hlive⟩
    have hy : (m.leases.add _ _).get? k = some y := hy
    rw [Table.get?_add] at hy
    split at hy
    · next hnext =>
      -- no device points at an identifier that is not in use yet
      have hptr : (m.pool t).holder x.id = some k :=
        (Table.leasePool_holder (Table.get?_key hmem)).trans hk
      have hres : (m.leases.get? k).map DeviceLease.deviceId = some x.id := hsweep.sound.owned hptr
      simp [← hnext] at hres
    · exact hsweep.reserved x hmem ⟨k, hk, y, hy, hlive⟩

theorem startWork_inv (h : m.Inv t) (leaseId : Uuid) (owner leaseToken : String) :
    (m.startWork leaseId owner leaseToken t).1.Inv t := by
  unfold startWork
  cases hr : m.requireLease leaseId owner leaseToken t with
  | error e => exact h
  | ok p =>
    obtain ⟨-, -, hd, -, -⟩ := requireLease_ok hr
    refine h.putDevice (d := p.2) hd rfl (.inl rfl) (fun _ => ?_)
    simp

theorem renew_inv (h : m.Inv t) (leaseId : Uuid) (owner leaseToken : String)
    (leaseSeconds : Int) : (m.renew leaseId owner leaseToken leaseSeconds t).1.Inv t := by
  unfold renew
  split
  · exact h
  cases hr : m.requireLease leaseId owner leaseToken t with
  | error e => exact h
  | ok p =>
    obtain ⟨hl, hlive, -⟩ := requireLease_ok hr
    exact h.putLease (l := p.1) hl rfl rfl (fun _ => hlive)

theorem release_inv (h : m.Inv t) (leaseId : Uuid) (owner leaseToken : String) :
    (m.release leaseId owner leaseToken t).1.Inv t := by
  unfold release
  cases hr : m.requireLease leaseId owner leaseToken t with
  | error e => exact h
  | ok p =>
    obtain ⟨hl, -, hd, -, hptr⟩ := requireLease_ok hr
    refine h.endLease (l := p.1) (d := p.2) hl rfl rfl ?_ hd hptr rfl rfl
    simp [DeviceLease.Live]

/-! ## Leaving maintenance -/

/-- `device` heartbeated less than the offline threshold ago. -/
def Fresh (m : InMemoryDeviceManager) (device : Device) (now : Instant) : Prop :=
  ∃ heartbeat ∈ device.lastHeartbeatAt, now < heartbeat + m.offlineAfter

instance (m : InMemoryDeviceManager) (d : Device) (now : Instant) : Decidable (m.Fresh d now) :=
  match hb : d.lastHeartbeatAt with
  | none => .isFalse (by simp [Fresh, hb])
  | some b => decidable_of_iff (now < b + m.offlineAfter) (by simp [Fresh, hb])

/-- The call takes an enabled, heartbeating device out of maintenance while its
`active_lease_id` points at a live lease. -/
def FreesLeased (m : InMemoryDeviceManager) (now : Instant) : Call → Prop
  | .setMaintenance deviceId false =>
    ∃ d ∈ m.devices.get? deviceId,
      d.status ≠ .maintenance ∧ d.enabled ∧ m.Fresh d now ∧ m.Leased now d
  | _ => False

instance (m : InMemoryDeviceManager) (now : Instant) : ∀ c, Decidable (m.FreesLeased now c)
  | .setMaintenance deviceId false =>
    match hd : m.devices.get? deviceId with
    | none => .isFalse (by simp [FreesLeased, hd])
    | some d => decidable_of_iff
        (d.status ≠ .maintenance ∧ d.enabled ∧ m.Fresh d now ∧ m.Leased now d)
        (by simp [FreesLeased, hd])
  | .setMaintenance _ true | .register .. | .heartbeat .. | .get _ | .listDevices | .acquire ..
  | .startWork .. | .renew .. | .release .. | .expireLeases => .isFalse id

theorem availableStatus_eq_idle {d : Device} :
    m.availableStatus d t = .idle ↔ d.status ≠ .maintenance ∧ d.enabled ∧ m.Fresh d t := by
  unfold availableStatus Fresh
  split
  · simp_all
  split
  · simp_all
  split
  · simp_all
  · simp_all

theorem setMaintenance_inv (h : m.Inv t) (deviceId : Uuid) (enabled : Bool)
    (hfree : ¬ m.FreesLeased t (.setMaintenance deviceId enabled)) :
    (m.setMaintenance deviceId enabled t).1.Inv t := by
  unfold setMaintenance
  cases hd : m.requireDevice deviceId with
  | error e => exact h
  | ok d =>
    dsimp only
    split
    · exact h
    obtain ⟨hid, hget⟩ := requireDevice_ok hd
    refine h.putDevice (d := d) hget rfl (.inl rfl) (fun hleased => ?_)
    cases enabled with
    | true => simp
    | false =>
      intro hidle
      obtain ⟨hm, hen, hfresh⟩ := availableStatus_eq_idle.mp hidle
      exact hfree ⟨d, hid ▸ hget, hm, hen, hfresh, hleased⟩

theorem call_inv (h : m.Inv t) (casefold : String → String) (c : Call)
    (hfree : ¬ m.FreesLeased t c) : (m.call casefold t c).Inv t := by
  cases c with
  | register name agentId kind platform capabilities =>
    exact register_inv h casefold name agentId kind platform capabilities
  | heartbeat deviceId agentId => exact heartbeat_inv h deviceId agentId
  | get deviceId => exact expireLocked_inv h
  | listDevices => exact expireLocked_inv h
  | acquire taskId owner required leaseSeconds leaseToken =>
    exact acquire_inv h casefold taskId owner required leaseSeconds leaseToken
  | startWork leaseId owner leaseToken => exact startWork_inv h leaseId owner leaseToken
  | renew leaseId owner leaseToken leaseSeconds =>
    exact renew_inv h leaseId owner leaseToken leaseSeconds
  | release leaseId owner leaseToken => exact release_inv h leaseId owner leaseToken
  | setMaintenance deviceId enabled => exact setMaintenance_inv h deviceId enabled hfree
  | expireLeases => exact expireLocked_inv h

/-! ## Runs -/

/-- A manager and the time of the latest call. -/
structure Timed where
  clock : Instant
  manager : InMemoryDeviceManager

/-- A call at a time. -/
def Timed.step (casefold : String → String) (s : Timed) (e : Instant × Call) : Timed :=
  ⟨e.1, s.manager.call casefold e.1 e.2⟩

/-- The call does not turn back time, and frees no leased device. -/
def Timed.Orderly (s : Timed) (e : Instant × Call) : Prop :=
  s.clock ≤ e.1 ∧ ¬ s.manager.FreesLeased e.1 e.2

instance (s : Timed) (e : Instant × Call) : Decidable (s.Orderly e) :=
  inferInstanceAs (Decidable (s.clock ≤ e.1 ∧ ¬ s.manager.FreesLeased e.1 e.2))

theorem init_inv {offlineAfterSeconds : Nat} (h : init offlineAfterSeconds = .ok m) :
    m.Inv t := by
  unfold init at h
  split at h
  · simp at h
  · cases h
    refine ⟨Table.sound_empty, fun d hd => ?_⟩
    simp [Table.empty] at hd

/-- While no call takes a leased, heartbeating device out of maintenance, no
device ever has two live leases and `acquire` chooses among unleased devices. -/
theorem exclusive_of_orderly (casefold : String → String) (offlineAfterSeconds : Nat)
    (m : InMemoryDeviceManager) (hm : init offlineAfterSeconds = .ok m) (start : Instant)
    (es : List (Instant × Call))
    (h : Transition.Along Timed.Orderly (Timed.step casefold) ⟨start, m⟩ es) :
    let s := Transition.run (Timed.step casefold) ⟨start, m⟩ es
    ∀ t, s.clock ≤ t → s.manager.Exclusive t
      ∧ ∀ required, ∀ d ∈ (s.manager.expireLocked t).1.acquireCandidates required t,
        ¬ (s.manager.expireLocked t).1.Leased t d := by
  intro s t ht
  have hinv : s.manager.Inv s.clock := by
    refine Transition.invariant_along (I := fun s : Timed => s.manager.Inv s.clock) ?_ (init_inv hm)
      h
    rintro s ⟨now, c⟩ hs ⟨hnow, hfree⟩
    exact call_inv (hs.later hnow) casefold c hfree
  have hlater := hinv.later ht
  exact ⟨hlater.exclusive, fun required d hd => (expireLocked_inv hlater).not_candidate hd⟩

/-- One device, heartbeating, leased for a minute. -/
def leasedOnce : List (Instant × Call) :=
  [(0, .register "rig" "agent" "device" "linux" ∅), (0, .heartbeat 0 "agent"),
    (1, .acquire "task" "owner" ∅ 60 "token")]

theorem exclusive_of_orderly_leasedOnce :
    let s := Transition.run (Timed.step id) ⟨0, ⟨Table.empty, Table.empty, [], 90⟩⟩ leasedOnce
    s.manager.Exclusive 2 ∧ ∀ d ∈ (s.manager.expireLocked 2).1.acquireCandidates ∅ 2,
      ¬ (s.manager.expireLocked 2).1.Leased 2 d :=
  have h := exclusive_of_orderly id 90 _ rfl 0 leasedOnce (by decide +kernel) 2 (by decide +kernel)
  ⟨h.1, h.2 ∅⟩

/-- Ending a maintenance that never began makes the leased device idle: the next
`acquire` leases it a second time. -/
theorem not_exclusive_after_setMaintenance :
    ¬ ∀ (m : InMemoryDeviceManager), init 90 = .ok m → ∀ es : List (Instant × Call),
      Transition.Along (fun s e => s.clock ≤ e.1) (Timed.step id) ⟨0, m⟩ es →
      let s := Transition.run (Timed.step id) ⟨0, m⟩ es
      s.manager.Exclusive s.clock := by
  intro h
  have hrun := h _ rfl (leasedOnce ++ [(2, .setMaintenance 0 false),
    (3, .acquire "other task" "other owner" ∅ 60 "other token")]) (by decide +kernel)
  exact absurd hrun (by decide +kernel)

end InMemoryDeviceManager

end QaPlatform.Automation
