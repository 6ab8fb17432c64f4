import QaPlatform.Automation.DeviceExclusivity
import QaPlatform.Base.Guard

/-!
# Maintenance

Which devices of the in-memory manager are reported as in maintenance. Nothing takes
a device out of it: `set_maintenance(false)` asks for the status that the device has
when it is available, and that is maintenance while it is in maintenance. Every other
method keeps who is in maintenance, as a device that is leased is not.

A history remembers for each device the value of the last `set_maintenance` that has succeeded,
and `Follows` compares it with what is reported. Every method but the beginning of a maintenance
keeps who is in maintenance (`call_keeps`), so one call can part the two: the one that tells a
device in maintenance to leave. `maintenance_follows_iff` has both directions.
-/

namespace QaPlatform.Automation.InMemoryDeviceManager

/-- The device is there and its status is maintenance. -/
def InMaintenance (m : InMemoryDeviceManager) (deviceId : Uuid) : Prop :=
  ∃ d, m.devices.get? deviceId = some d ∧ d.status = .maintenance

instance (m : InMemoryDeviceManager) (deviceId : Uuid) : Decidable (m.InMaintenance deviceId) :=
  match hd : m.devices.get? deviceId with
  | none => .isFalse (by simp [InMaintenance, hd])
  | some d => decidable_of_iff (d.status = .maintenance) (by simp [InMaintenance, hd])

/-- No device that points at a lease is in maintenance. -/
def LeasedAway (m : InMemoryDeviceManager) : Prop :=
  ∀ d ∈ m.devices.rows, d.activeLeaseId.isSome = true → d.status ≠ .maintenance

/-- The same devices are in maintenance, and no leased one has become one of them. -/
structure KeepsMaintenance (m m' : InMemoryDeviceManager) : Prop where
  same : ∀ k, m'.InMaintenance k ↔ m.InMaintenance k
  leased : m.LeasedAway → m'.LeasedAway

variable {m m' : InMemoryDeviceManager} {t : Instant}

theorem KeepsMaintenance.refl (m : InMemoryDeviceManager) : KeepsMaintenance m m :=
  ⟨fun _ => Iff.rfl, id⟩

theorem KeepsMaintenance.trans {a b c : InMemoryDeviceManager} (h : KeepsMaintenance a b)
    (h' : KeepsMaintenance b c) : KeepsMaintenance a c :=
  ⟨fun k => (h'.same k).trans (h.same k), fun hleased => h'.leased (h.leased hleased)⟩

/-- Only the devices matter. -/
theorem KeepsMaintenance.of_devices (h : m'.devices = m.devices) : KeepsMaintenance m m' where
  same k := by
    unfold InMaintenance
    rw [h]
  leased hleased := by
    unfold LeasedAway
    rw [h]
    exact hleased

/-- Who is in maintenance after a device is rewritten. -/
theorem inMaintenance_put {d d' : Device} (hd : m.devices.get? d.id = some d)
    (hdevices : m'.devices = m.devices.put d') (hid : d'.id = d.id) (k : Uuid) :
    m'.InMaintenance k ↔ if d.id = k then d'.status = .maintenance else m.InMaintenance k := by
  unfold InMaintenance
  rw [hdevices]
  by_cases hk : d.id = k
  · subst hk
    rw [Table.get?_put_self hd hid, if_pos rfl]
    simp
  · rw [Table.get?_put_of_ne (by rw [Device.key_eq, hid]; exact hk), if_neg hk]

/-- A device is rewritten, in maintenance as before. -/
theorem KeepsMaintenance.put {d d' : Device} (hd : m.devices.get? d.id = some d)
    (hdevices : m'.devices = m.devices.put d') (hid : d'.id = d.id)
    (hstatus : d'.status = .maintenance ↔ d.status = .maintenance)
    (hleased : m.LeasedAway → d'.activeLeaseId.isSome = true → d'.status ≠ .maintenance) :
    KeepsMaintenance m m' where
  same k := by
    rw [inMaintenance_put hd hdevices hid]
    split
    · next hk =>
      subst hk
      unfold InMaintenance
      rw [hstatus, hd]
      simp
    · rfl
  leased h x hx hsome := by
    rw [hdevices] at hx
    rcases Table.mem_put hx with rfl | ⟨hold, -⟩
    · exact hleased h hsome
    · exact h x hold hsome

/-! ## Status -/

theorem effectiveStatus_eq_maintenance {d : Device} :
    m.effectiveStatus d t = .maintenance ↔
      d.status = .maintenance := by
  unfold effectiveStatus
  split
  · next h => simp [h]
  · next h =>
    split
    · simp [h]
    · split
      · simp [h]
      · split
        · simp [h]
        · split
          · rfl
          · simp [h]

theorem availableStatus_eq_maintenance {d : Device} :
    m.availableStatus d t = .maintenance ↔ d.status = .maintenance := by
  unfold availableStatus
  split
  · next h => simp [h]
  · next h =>
    split
    · simp [h]
    · split
      · simp [h]
      · split
        · simp [h]
        · simp [h]

/-! ## Methods -/

theorem expireOne_keeps (m : InMemoryDeviceManager) (t : Instant) (l : DeviceLease) :
    KeepsMaintenance m (expireOne t m l) := by
  unfold expireOne
  split
  · dsimp only
    cases hd : m.devices.get? l.deviceId with
    | none => exact .of_devices rfl
    | some d =>
      dsimp only
      split
      · have hget : m.devices.get? d.id = some d := Table.get?_key (Table.mem_of_get? hd)
        refine .put hget rfl rfl availableStatus_eq_maintenance fun _ hsome => ?_
        exact absurd hsome (by simp)
      · exact .of_devices rfl
  · exact .refl m

theorem expireLocked_keeps (m : InMemoryDeviceManager) (t : Instant) :
    KeepsMaintenance m (m.expireLocked t).1 := by
  have hfold : ∀ (ls : List DeviceLease) (m : InMemoryDeviceManager),
      KeepsMaintenance m (ls.foldl (expireOne t) m) := by
    intro ls
    induction ls with
    | nil => exact .refl
    | cons l ls ih => exact fun m => (m.expireOne_keeps t l).trans (ih _)
  exact hfold m.leases.rows m

theorem heartbeat_keeps (m : InMemoryDeviceManager) (deviceId : Uuid) (agentId : String) :
    KeepsMaintenance m (m.heartbeat deviceId agentId t).1 := by
  unfold heartbeat
  cases hd : m.requireDevice deviceId with
  | error e => exact .refl m
  | ok d =>
    dsimp only
    split
    · exact .refl m
    split
    · exact .refl m
    obtain ⟨-, hget⟩ := requireDevice_ok hd
    refine .put (d := d) hget rfl rfl ?_ fun hleased hsome => ?_
    · dsimp only
      split
      · next hfree =>
        have hother : (if d.enabled then DeviceStatus.idle else .offline) ≠ .maintenance := by
          split
          · simp
          · simp
        simp [hother, hfree.1]
      · rfl
    · dsimp only
      rw [if_neg fun hfree => by simp [hfree.2] at hsome]
      exact hleased d (Table.mem_of_get? hget) hsome

theorem acquire_keeps (m : InMemoryDeviceManager) (casefold : String → String)
    (taskId owner : String) (required : Finset String) (leaseSeconds : Int) (leaseToken : String) :
    KeepsMaintenance m
      (m.acquire casefold taskId owner required leaseSeconds leaseToken t).1 := by
  unfold acquire
  split
  · exact .refl m
  refine (m.expireLocked_keeps t).trans ?_
  dsimp only
  generalize (m.expireLocked t).1 = m
  split
  · exact .refl m
  next d hmin =>
  have hcandidate : d ∈ m.acquireCandidates required t := List.argmin_mem hmin
  simp only [acquireCandidates, List.mem_filter, decide_eq_true_eq] at hcandidate
  obtain ⟨hmem, -, hidle, -⟩ := hcandidate
  have hnot : d.status ≠ .maintenance := by
    intro hmaintenance
    rw [effectiveStatus_eq_maintenance.mpr hmaintenance] at hidle
    simp at hidle
  exact .put (Table.get?_key hmem) rfl rfl (by simp [hnot]) (by simp)

/-- A leased device is not in maintenance when its work starts. -/
theorem startWork_keeps (hleased : m.LeasedAway) (leaseId : Uuid) (owner leaseToken : String) :
    KeepsMaintenance m (m.startWork leaseId owner leaseToken t).1 := by
  unfold startWork
  cases hr : m.requireLease leaseId owner leaseToken t with
  | error e => exact .refl m
  | ok p =>
    obtain ⟨-, -, hd, -, hptr⟩ := requireLease_ok hr
    have hnot : p.2.status ≠ .maintenance := hleased p.2 (Table.mem_of_get? hd) (by simp [hptr])
    exact .put (d := p.2) hd rfl rfl (by simp [hnot]) (by simp)

theorem renew_keeps (m : InMemoryDeviceManager) (leaseId : Uuid) (owner leaseToken : String)
    (leaseSeconds : Int) :
    KeepsMaintenance m (m.renew leaseId owner leaseToken leaseSeconds t).1 := by
  unfold renew
  split
  · exact .refl m
  cases m.requireLease leaseId owner leaseToken t with
  | error e => exact .refl m
  | ok p => exact .of_devices rfl

theorem release_keeps (m : InMemoryDeviceManager) (leaseId : Uuid) (owner leaseToken : String) :
    KeepsMaintenance m (m.release leaseId owner leaseToken t).1 := by
  unfold release
  cases hr : m.requireLease leaseId owner leaseToken t with
  | error e => exact .refl m
  | ok p =>
    obtain ⟨-, -, hd, -⟩ := requireLease_ok hr
    refine .put (d := p.2) hd rfl rfl availableStatus_eq_maintenance fun _ hsome => ?_
    exact absurd hsome (by simp)

theorem register_keeps (m : InMemoryDeviceManager) (casefold : String → String)
    (name agentId kind platform : String) (capabilities : Finset String) :
    KeepsMaintenance m (m.register casefold name agentId kind platform capabilities t).1 := by
  unfold register
  split
  · exact .refl m
  split
  · exact .refl m
  dsimp only
  split
  · exact .refl m
  refine ⟨fun k => ?_, fun hleased d hd hsome => ?_⟩
  · unfold InMaintenance
    dsimp only
    rw [Table.get?_add]
    split
    · next hk =>
      subst hk
      simp
    · rfl
  · rcases Table.mem_add hd with hold | rfl
    · exact hleased d hold hsome
    · simp at hsome

/-- The end of a maintenance is none. -/
theorem setMaintenance_false_keeps (m : InMemoryDeviceManager) (deviceId : Uuid) :
    KeepsMaintenance m (m.setMaintenance deviceId false t).1 := by
  unfold setMaintenance
  cases hd : m.requireDevice deviceId with
  | error e => exact .refl m
  | ok d =>
    obtain ⟨-, hget⟩ := requireDevice_ok hd
    refine .put (d := d) hget rfl rfl availableStatus_eq_maintenance fun hleased hsome => ?_
    intro hmaintenance
    have hold := availableStatus_eq_maintenance.mp hmaintenance
    exact hleased d (Table.mem_of_get? hget) hsome hold

/-- Its beginning puts one device there. -/
theorem setMaintenance_true {deviceId : Uuid} {reported : Device}
    (hok : (m.setMaintenance deviceId true t).2 = .ok reported) :
    (∀ k, (m.setMaintenance deviceId true t).1.InMaintenance k ↔ k = deviceId ∨ m.InMaintenance k)
      ∧ (m.LeasedAway → (m.setMaintenance deviceId true t).1.LeasedAway) := by
  unfold setMaintenance at hok ⊢
  cases hd : m.requireDevice deviceId with
  | error e =>
    rw [hd] at hok
    nomatch hok
  | ok d =>
    rw [hd] at hok
    dsimp only at hok ⊢
    split at hok
    · nomatch hok
    next hfree =>
    rw [if_neg hfree]
    obtain ⟨rfl, hget⟩ := requireDevice_ok hd
    refine ⟨fun k => ?_, fun hleased x hx hsome => ?_⟩
    · refine (@inMaintenance_put m _ d { d with
          status := .maintenance
          version := d.version + 1
          updatedAt := t } hget rfl rfl k).trans ?_
      split
      · next hk => simp [hk]
      · next hk => simp [Ne.symm hk]
    · rcases Table.mem_put hx with rfl | ⟨hold, -⟩
      · simp at hfree
        simp [hfree] at hsome
      · exact hleased x hold hsome

theorem setMaintenance_error {deviceId : Uuid} {enabled : Bool} {e : ManagerError}
    (herror : (m.setMaintenance deviceId enabled t).2 = .error e) :
    (m.setMaintenance deviceId enabled t).1 = m := by
  unfold setMaintenance at herror ⊢
  cases hd : m.requireDevice deviceId with
  | error e => rfl
  | ok d =>
    rw [hd] at herror
    dsimp only at herror ⊢
    split at herror
    · next hleased => rw [if_pos hleased]
    · nomatch herror

/-- The end of a maintenance is refused to no device. -/
theorem setMaintenance_false_ok {deviceId : Uuid} (h : m.InMaintenance deviceId) :
    ∃ reported, (m.setMaintenance deviceId false t).2 = .ok reported := by
  obtain ⟨d, hd, -⟩ := h
  unfold setMaintenance requireDevice
  rw [hd]
  exact ⟨_, rfl⟩

/-- Every method but the beginning of a maintenance keeps who is in maintenance. -/
theorem call_keeps (hleased : m.LeasedAway) (casefold : String → String) (c : Call)
    (hc : ∀ deviceId, c ≠ .setMaintenance deviceId true) :
    KeepsMaintenance m (m.call casefold t c) := by
  cases c with
  | register name agentId kind platform capabilities =>
    exact m.register_keeps casefold name agentId kind platform capabilities
  | heartbeat deviceId agentId => exact m.heartbeat_keeps deviceId agentId
  | get deviceId => exact m.expireLocked_keeps t
  | listDevices => exact m.expireLocked_keeps t
  | acquire taskId owner required leaseSeconds leaseToken =>
    exact m.acquire_keeps casefold taskId owner required leaseSeconds leaseToken
  | startWork leaseId owner leaseToken => exact startWork_keeps hleased leaseId owner leaseToken
  | renew leaseId owner leaseToken leaseSeconds =>
    exact m.renew_keeps leaseId owner leaseToken leaseSeconds
  | release leaseId owner leaseToken => exact m.release_keeps leaseId owner leaseToken
  | setMaintenance deviceId enabled =>
    cases enabled with
    | true => exact absurd rfl (hc deviceId)
    | false => exact m.setMaintenance_false_keeps deviceId
  | expireLeases => exact m.expireLocked_keeps t

/-! ## Runs -/

/-- A manager, and for each device the value of its most recent `set_maintenance` that
succeeded. -/
structure MaintenanceHistory where
  manager : InMemoryDeviceManager
  lastSet : Uuid → Option Bool

namespace MaintenanceHistory

/-- A history begins with a manager that knows no device. -/
def start (offlineAfterSeconds : Nat) : MaintenanceHistory :=
  ⟨⟨Table.empty, Table.empty, [], offlineAfterSeconds⟩, fun _ => none⟩

/-- A call at a time. -/
def step (casefold : String → String) (h : MaintenanceHistory) (e : Instant × Call) :
    MaintenanceHistory where
  manager := h.manager.call casefold e.1 e.2
  lastSet :=
    match e.2 with
    | .setMaintenance deviceId enabled =>
      if (h.manager.setMaintenance deviceId enabled e.1).2.isOk then
        Function.update h.lastSet deviceId (some enabled)
      else h.lastSet
    | _ => h.lastSet

/-- A device is reported as in maintenance exactly if it was last put there. -/
def Follows (h : MaintenanceHistory) : Prop :=
  ∀ deviceId now device, (h.manager.get deviceId now).2 = .ok device →
    (device.status = .maintenance ↔ h.lastSet deviceId = some true)

/-- The call does not ask a device that is in maintenance to leave it. -/
def Stays (h : MaintenanceHistory) (e : Instant × Call) : Prop :=
  ∀ deviceId, e.2 = .setMaintenance deviceId false → ¬ h.manager.InMaintenance deviceId

/-- What every history has: a device that was last put into maintenance is there. -/
structure Sound (h : MaintenanceHistory) : Prop where
  leased : h.manager.LeasedAway
  there : ∀ k, h.lastSet k = some true → h.manager.InMaintenance k

variable {h : MaintenanceHistory}

/-- What is reported of a device is what its row says. -/
theorem follows_iff (hs : h.Sound) :
    h.Follows ↔ ∀ k, h.manager.InMaintenance k → h.lastSet k = some true := by
  have hreport : ∀ deviceId now device, (h.manager.get deviceId now).2 = .ok device →
      (device.status = .maintenance ↔ h.manager.InMaintenance deviceId) := by
    intro deviceId now device hget
    rw [← (h.manager.expireLocked_keeps now).same deviceId]
    unfold InMemoryDeviceManager.get at hget
    obtain ⟨d, hd, rfl⟩ := map_eq_ok.mp hget
    obtain ⟨rfl, hrow⟩ := requireDevice_ok hd
    unfold InMaintenance
    rw [hrow]
    refine effectiveStatus_eq_maintenance.trans ?_
    simp
  constructor
  · intro hfollows k hk
    obtain ⟨d, hd, -⟩ := ((h.manager.expireLocked_keeps 0).same k).mpr hk
    have hget : (h.manager.get k 0).2
        = .ok ((h.manager.expireLocked 0).1.effectiveCopy d 0) := by
      unfold InMemoryDeviceManager.get requireDevice
      dsimp only
      rw [hd]
      rfl
    exact (hfollows k 0 _ hget).mp ((hreport k 0 _ hget).mpr hk)
  · intro hlast deviceId now device hget
    rw [hreport deviceId now device hget]
    exact ⟨hlast deviceId, hs.there deviceId⟩

/-- The step lemma: what a step has to do for the reports to follow the settings. -/
theorem step_follows (hs : h.Sound) (casefold : String → String) (e : Instant × Call) :
    (h.step casefold e).Sound ∧ (h.Follows → ((h.step casefold e).Follows ↔ h.Stays e)) := by
  obtain ⟨now, c⟩ := e
  by_cases htrue : ∃ deviceId, c = .setMaintenance deviceId true
  · obtain ⟨deviceId, rfl⟩ := htrue
    have hstays : h.Stays (now, .setMaintenance deviceId true) := fun k hk => by nomatch hk
    -- a call that is refused sets nothing, and a device that is put there is reported so
    cases hresult : (h.manager.setMaintenance deviceId true now).2 with
    | error e =>
      have hsame : h.step casefold (now, .setMaintenance deviceId true) = h := by
        unfold step
        dsimp only [call]
        rw [setMaintenance_error hresult, hresult]
        rfl
      rw [hsame]
      exact ⟨hs, fun hfollows => iff_of_true hfollows hstays⟩
    | ok reported =>
      obtain ⟨hthere, hleased⟩ := setMaintenance_true hresult
      have hlast : (h.step casefold (now, .setMaintenance deviceId true)).lastSet
          = Function.update h.lastSet deviceId (some true) := by
        unfold step
        dsimp only
        rw [hresult]
        rfl
      have hsound : (h.step casefold (now, .setMaintenance deviceId true)).Sound := by
        refine ⟨hleased hs.leased, fun k hk => (hthere k).mpr ?_⟩
        by_cases hid : k = deviceId
        · exact .inl hid
        · rw [hlast, Function.update_of_ne hid] at hk
          exact .inr (hs.there k hk)
      refine ⟨hsound, fun hfollows => iff_of_true ?_ hstays⟩
      rw [follows_iff hsound]
      intro k hk
      rw [hlast]
      rcases (hthere k).mp hk with rfl | hold
      · exact Function.update_self k _ _
      · by_cases hid : k = deviceId
        · subst hid
          exact Function.update_self k _ _
        · rw [Function.update_of_ne hid]
          exact (follows_iff hs).mp hfollows k hold
  -- any other call keeps who is in maintenance
  have hkeeps := call_keeps (t := now) hs.leased casefold c fun k hk => htrue ⟨k, hk⟩
  by_cases hfalse : ∃ deviceId, c = .setMaintenance deviceId false
  · obtain ⟨deviceId, rfl⟩ := hfalse
    have hstays : h.Stays (now, .setMaintenance deviceId false)
        ↔ ¬ h.manager.InMaintenance deviceId := by
      refine ⟨fun hstays => hstays deviceId rfl, fun hnot k hk => ?_⟩
      obtain ⟨rfl, -⟩ := Call.setMaintenance.inj hk
      exact hnot
    rw [hstays]
    cases hresult : (h.manager.setMaintenance deviceId false now).2 with
    | error e =>
      have hsame : h.step casefold (now, .setMaintenance deviceId false) = h := by
        unfold step
        dsimp only [call]
        rw [setMaintenance_error hresult, hresult]
        rfl
      rw [hsame]
      -- a device in maintenance would not have been refused
      refine ⟨hs, fun hfollows => iff_of_true hfollows fun hin => ?_⟩
      obtain ⟨reported, hok⟩ := setMaintenance_false_ok (t := now) hin
      rw [hok] at hresult
      nomatch hresult
    | ok reported =>
      have hlast : (h.step casefold (now, .setMaintenance deviceId false)).lastSet
          = Function.update h.lastSet deviceId (some false) := by
        unfold step
        dsimp only
        rw [hresult]
        rfl
      have hsound : (h.step casefold (now, .setMaintenance deviceId false)).Sound := by
        refine ⟨hkeeps.leased hs.leased, fun k hk => (hkeeps.same k).mpr ?_⟩
        by_cases hid : k = deviceId
        · subst hid
          rw [hlast, Function.update_self] at hk
          nomatch hk
        · rw [hlast, Function.update_of_ne hid] at hk
          exact hs.there k hk
      refine ⟨hsound, fun hfollows => ?_⟩
      rw [follows_iff hsound]
      constructor
      · -- the device is still in maintenance, and was last told to leave it
        intro hafter hin
        have hset := hafter deviceId ((hkeeps.same deviceId).mpr hin)
        rw [hlast, Function.update_self] at hset
        nomatch hset
      · intro hnot k hk
        have hin := (hkeeps.same k).mp hk
        have hne : k ≠ deviceId := fun he => hnot (he ▸ hin)
        rw [hlast, Function.update_of_ne hne]
        exact (follows_iff hs).mp hfollows k hin
  · have hlast : (h.step casefold (now, c)).lastSet = h.lastSet := by
      cases c with
      | setMaintenance deviceId enabled =>
        cases enabled with
        | true => exact absurd ⟨deviceId, rfl⟩ htrue
        | false => exact absurd ⟨deviceId, rfl⟩ hfalse
      | _ => rfl
    have hsound : (h.step casefold (now, c)).Sound :=
      ⟨hkeeps.leased hs.leased, fun k hk => (hkeeps.same k).mpr (hs.there k (hlast ▸ hk))⟩
    refine ⟨hsound, fun hfollows => iff_of_true ?_ fun k hk => absurd ⟨k, hk⟩ hfalse⟩
    rw [follows_iff hsound]
    intro k hk
    rw [hlast]
    exact (follows_iff hs).mp hfollows k ((hkeeps.same k).mp hk)

theorem start_sound (offlineAfterSeconds : Nat) : (start offlineAfterSeconds).Sound where
  leased d hd := by nomatch hd
  there k hk := by nomatch hk

theorem start_follows (offlineAfterSeconds : Nat) : (start offlineAfterSeconds).Follows := by
  rw [follows_iff (start_sound offlineAfterSeconds)]
  rintro k ⟨d, hd, -⟩
  nomatch hd

/-- The reports follow the settings all along a run exactly if no call of it asks a
device that is in maintenance to leave it. -/
theorem maintenance_follows_iff (casefold : String → String) (offlineAfterSeconds : Nat)
    (es : List (Instant × Call)) :
    (∀ fs, fs <+: es → (Transition.run (step casefold) (start offlineAfterSeconds) fs).Follows)
      ↔ Transition.Along Stays (step casefold) (start offlineAfterSeconds) es :=
  Transition.prefixes_iff_along (I := Follows) (J := Sound)
    (fun _ e hs => (step_follows hs casefold e).1)
    (fun _ e hs hfollows => (step_follows hs casefold e).2 hfollows)
    (start_follows offlineAfterSeconds) (start_sound offlineAfterSeconds) es

/-- A device enters maintenance, is told to leave it, and stays. -/
theorem maintenance_not_left :
    let h := Transition.run (step id) (start 90)
      [(0, .register "rig" "agent" "device" "linux" ∅), (1, .setMaintenance 0 true),
        (2, .setMaintenance 0 false)]
    h.lastSet 0 = some false
      ∧ ((h.manager.get 0 3).2.map Device.status) = .ok .maintenance
      ∧ ¬ h.Follows := by
  intro h
  have hlast : h.lastSet 0 = some false := by decide +kernel
  have hstatus : (h.manager.get 0 3).2.map Device.status = .ok .maintenance := by decide +kernel
  refine ⟨hlast, hstatus, fun hfollows => ?_⟩
  obtain ⟨device, hdevice, hmaintenance⟩ := map_eq_ok.mp hstatus
  rw [(hfollows 0 3 device hdevice).mp hmaintenance] at hlast
  nomatch hlast

end MaintenanceHistory

end QaPlatform.Automation.InMemoryDeviceManager
