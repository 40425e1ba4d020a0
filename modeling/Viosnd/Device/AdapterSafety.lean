import Viosnd.Device.AdapterStart
import Viosnd.Device.Negotiation

/-!
# A start keeps its device or gives everything back

However a start fails, the device follows the protocol, nothing is freed that the device may access,
and all that the start has taken is given back. Only the subdevices that it has registered stay, and
a wave miniport among them points to a device that is freed.
-/

namespace Viosnd.Startup

open StepRun Viosnd.Device

/-! ## What a start is for -/

/-- A device of a start that failed. -/
structure WaveReleased (d : WaveDevice) : Prop where
  freed : d.freed = true
  holds : d.physicalDevice = false ∧ d.pciBus = false ∧ d.dmaAdapter = false
  memory : d.bars = 0 ∧ d.messages = 0 ∧ d.vio.queues = [] ∧ d.vio.mapped = false
  noFault : d.vio.faults = []

/-- A device of a start that succeeded. -/
structure WaveWorks (d : WaveDevice) : Prop where
  kept : d.freed = false ∧ d.virtioInitialized = true
  holds : d.physicalDevice = true ∧ d.pciBus = true ∧ d.dmaAdapter = true
  mapped : d.vio.mapped = true
  queues : d.vio.queues = sndQueues ∧ d.vio.registers.queues = sndQueues
  status : d.vio.registers.status &&& 0x87 = 7
  confirmed : isFeatureEnabled d.vio.registers.driverFeatures fVersion1 = true →
    d.vio.registers.status &&& sFeaturesOk ≠ 0
  features : FeaturesIn d.vio.registers.driverFeatures d.vio.registers.offered
  rings : d.vio.packedRing = false ∧ d.vio.eventSuppression = false
  /-- No queue was notified before the driver was ready. -/
  early : d.vio.registers.earlyKicks = []
  noFault : d.vio.faults = []

structure AdapterSafety (w : Adapter) : Prop where
  released : ∀ n d, w.devices[n]? = some d → n ∉ w.started → WaveReleased d
  working : ∀ n ∈ w.started, ∃ d, w.devices[n]? = some d ∧ WaveWorks d
  /-- `g_ViosndDevice` is the last one; nothing points to those before it. -/
  current : w.current = w.started.getLast?
  balanced : w.references = 0
  /-- Queues that the hardware may access belong to a device that is kept. -/
  reach : w.registers.Live → w.registers.queues ≠ [] →
    ∃ n ∈ w.started, ∃ d, w.devices[n]? = some d ∧ w.registers = d.vio.registers

/-- The device of a registered wave miniport is there. -/
def EndpointsLive (w : Adapter) : Prop := ∀ capture n, .wave capture n ∈ w.subdevices →
  ∃ d, w.devices[n]? = some d ∧ d.freed = false

/-! ## When a start loses an endpoint -/

def SubdeviceAnswers.succeeds (a : SubdeviceAnswers) : Bool :=
  a.port.isNone && a.miniport && a.init.isNone && a.register.isNone

def EndpointAnswers.registers (a : EndpointAnswers) : Bool :=
  a.topology.succeeds && a.wave.succeeds

def EndpointAnswers.connects (a : EndpointAnswers) : Bool :=
  a.registers && a.connection.isNone

def QueueAnswer.isAll : QueueAnswer → Bool
  | .all => true
  | .failed _ _ => false

/-- The device shows `VIRTIO_F_VERSION_1`, or is a legacy one. -/
def StartAnswers.agrees (a : StartAnswers) (r : Registers) : Bool :=
  if isFeatureEnabled r.features fVersion1 then !a.refusesFeatures else !r.modern

def StartAnswers.comesUp (a : StartAnswers) (r : Registers) : Bool :=
  a.physicalDevice.isNone && a.memory && a.busInterface.isNone && a.header && a.dmaAdapter &&
    decide (a.transport = .success) && a.agrees r && a.queues.isAll &&
    decide (a.query.status = .success) && !a.lacksStream

/-- An endpoint is registered, and registering the endpoints fails behind it. -/
def StartAnswers.orphans (a : StartAnswers) : Bool :=
  if a.enableRender then
    if a.render.connects then a.enableCapture && !a.capture.connects else a.render.registers
  else a.enableCapture && a.capture.registers && !a.capture.connects

def StartAnswers.losesEndpoint (a : StartAnswers) (r : Registers) : Bool :=
  a.comesUp r && a.orphans

/-! ## The virtio device -/

section

variable {v : VioDevice} {a : StartAnswers}

def VioDevice.introduced (v : VioDevice) : VioDevice := { v with
  registers := { v.registers.reset with
    status := 3 }
  mapped := true
  packedRing := false
  eventSuppression := false
  queues := [] }

private theorem introduce_eq (hmapped : v.mapped = true) :
    virtioAddStatus sDriver (virtioAddStatus sAcknowledge (virtioDeviceReset v)) = { v with
      registers := { v.registers.reset with
        status := 3 } } := by
  simp [virtioDeviceReset, virtioAddStatus, VioDevice.access, hmapped, Registers.setStatus,
    Registers.reset, sAcknowledge, sDriver]

private theorem deviceInitialize_eq (transport : NtStatus) (v : VioDevice) :
    virtioDeviceInitialize transport v =
      if transport = .success then (.success, v.introduced)
      else (transport, { v with
        packedRing := false
        eventSuppression := false
        queues := [] }) := by
  unfold virtioDeviceInitialize
  dsimp only
  split
  · have hintroduced := introduce_eq (v := { v with
      packedRing := false
      eventSuppression := false
      queues := []
      mapped := true }) rfl
    rw [hintroduced]
    rfl
  · rfl

private theorem version_acceptable (shown : BitVec 64) :
    Acceptable (shown &&& 1#64 <<< fVersion1) shown := by
  intro i hi
  rw [BitVec.getLsbD_and, Bool.and_eq_true, ← BitVec.twoPow_eq, BitVec.getLsbD_twoPow] at hi
  have heq : fVersion1 = i := by simp_all
  exact ⟨hi.1, by simp [← heq, fVersion1]⟩

private theorem version_enabled (shown : BitVec 64) :
    isFeatureEnabled (shown &&& 1#64 <<< fVersion1) fVersion1 =
      isFeatureEnabled shown fVersion1 := by
  unfold isFeatureEnabled
  rw [BitVec.getLsbD_and, ← BitVec.twoPow_eq, BitVec.getLsbD_twoPow]
  simp [fVersion1]

private theorem not_live_of_status {r : Registers} (hstatus : r.status &&& 0x84 = 0)
    (hearly : r.earlyKicks = []) : ¬r.Live := by
  rintro (hready | hkicked)
  · have hclear : ∀ s : BitVec 8, s &&& 0x84 = 0 → s &&& sDriverOk = 0 := by decide
    exact hready (hclear r.status hstatus)
  · exact hkicked hearly

/-- The reset takes the device's access before the queues go. -/
private theorem resetAndDelete_eq (hmapped : v.mapped = true) :
    ∃ queues, resetAndDelete v = { v with
      registers := { v.registers.reset with
        queues := queues }
      queues := [] } := by
  unfold resetAndDelete virtioDeviceReset
  rw [access_mapped hmapped]
  apply deleteQueues_of_idle (by exact hmapped)
  exact not_live_of_status BitVec.zero_and rfl

private theorem setFeatures_success_iff {features : BitVec 64} (hmapped : v.mapped = true)
    (hearly : v.registers.modern = true → v.registers.status &&& sFeaturesOk = 0)
    (hfeatures : Acceptable features v.registers.features) (refuses : Bool) :
    (virtioSetFeatures refuses features v).1 = .success ↔
      (if isFeatureEnabled features fVersion1 then !refuses else !v.registers.modern) = true := by
  have hsuppression : isFeatureEnabled features ringFEventIdx = false :=
    hfeatures.disabled (by decide)
  have hpacked : isFeatureEnabled features fRingPacked = false := hfeatures.disabled (by decide)
  have htransport := transportSetFeatures_acceptable (v := { v with
    eventSuppression := false
    packedRing := false }) hmapped hearly hfeatures
  unfold virtioSetFeatures
  rw [hsuppression, hpacked]
  dsimp only
  rw [htransport]
  dsimp only
  cases hversion : isFeatureEnabled features fVersion1 with
  | false =>
      cases hmodern : v.registers.modern with
      | false => simp
      | true => simp
  | true =>
      have hset : ∀ s : BitVec 8, (s ||| 8) &&& 8 ≠ 0 := by decide
      have hcleared : ∀ s : BitVec 8, (s ||| 8) &&& ~~~8 &&& 8 = 0 := by decide
      rw [if_neg (by simp)]
      dsimp only
      rw [if_neg (by simp), access_mapped (by exact hmapped)]
      cases refuses with
      | false =>
          rw [if_neg (by exact hset _)]
          simp
      | true =>
          rw [if_pos (by exact hcleared _)]
          simp

private theorem findQueues_of_idle (hmapped : v.mapped = true) (hidle : ¬v.registers.Live)
    (answer : QueueAnswer) :
    (answer = .all ∧ virtioFindQueues answer v = (.success, { v with
      registers := { v.registers with
        queues := sndQueues }
      queues := sndQueues })) ∨
    answer.isAll = false ∧ ∃ status queues, status ≠ .success ∧
      virtioFindQueues answer v = (status, { v with
        registers := { v.registers with
          queues := queues }
        queues := [] }) := by
  unfold virtioFindQueues
  cases answer with
  | all =>
      left
      dsimp only
      rw [access_mapped hmapped]
      exact ⟨rfl, rfl⟩
  | failed status count =>
      right
      obtain ⟨queues, hdeleted⟩ := deleteQueues_of_idle (v := { v with
        registers := { v.registers with
          queues := sndQueues.take count }
        queues := sndQueues.take count }) hmapped hidle
      dsimp only at hdeleted ⊢
      rw [access_mapped hmapped]
      dsimp only
      rw [hdeleted]
      exact ⟨rfl, status.val, queues, status.property, rfl⟩

private theorem deviceReady_eq (hmapped : v.mapped = true)
    (hready : v.registers.status &&& sDriverOk = 0) :
    virtioDeviceReady v = { v with
      registers := v.registers.setStatus false (v.registers.status ||| sDriverOk) } := by
  unfold virtioDeviceReady
  rw [check_of_good (by simp [hready])]
  exact access_mapped hmapped _

end

/-! ## The device -/

section

variable {d : WaveDevice} {a : StartAnswers}

structure Created (d : WaveDevice) : Prop where
  kept : d.freed = false ∧ d.virtioInitialized = false
  holds : d.physicalDevice = true ∧ d.pciBus = true ∧ d.dmaAdapter = true
  memory : d.messages = 0
  noFault : d.vio.faults = []

/-- A device whose initialization failed: the hardware accesses no memory, or was not touched. -/
structure Uninitialized (r : Registers) (d : WaveDevice) : Prop where
  initialized : d.virtioInitialized = false
  memory : d.messages = 0 ∧ d.vio.queues = []
  noFault : d.vio.faults = []
  idle : ¬d.vio.registers.Live ∨ d.vio.registers = r

private theorem driverReady (s : BitVec 8) (hknown : s &&& 3 = 3) (hquiet : s &&& 0x84 = 0) :
    (s ||| sDriverOk) &&& 0x87 = 7 := by
  decide +revert

private theorem initVirtio_sound (hcreated : Created d) (a : StartAnswers) :
    let r := viosndInitVirtio a d
    (r.1 = .success ↔ (decide (a.transport = .success) && a.agrees d.vio.registers &&
      a.queues.isAll) = true) ∧
    (r.1 = .success → WaveWorks r.2) ∧ (r.1 ≠ .success → Uninitialized d.vio.registers r.2) := by
  unfold viosndInitVirtio
  rw [deviceInitialize_eq]
  by_cases htransport : a.transport = .success
  · rw [if_pos htransport]
    dsimp only
    rw [if_neg (not_not.mpr rfl), introduce_eq rfl, access_id rfl]
    have hsame : ({ d.vio.introduced with
        registers := { d.vio.introduced.registers.reset with
          status := 3 } } : VioDevice) = d.vio.introduced := rfl
    rw [hsame]
    have hshown : d.vio.introduced.registers.features = d.vio.registers.features := rfl
    have hacceptable := version_acceptable d.vio.introduced.registers.features
    have hfirst : d.vio.introduced.registers.status &&& sFeaturesOk = 0 :=
      (by decide : (3 : BitVec 8) &&& 8 = 0)
    have hpasses := setFeatures_success_iff (v := d.vio.introduced) rfl (fun _ => hfirst)
      hacceptable a.refusesFeatures
    have hset := virtioSetFeatures_negotiates (v := d.vio.introduced) rfl
      (by decide : (3 : BitVec 8) &&& 3 = 3) (fun _ => hfirst) hacceptable a.refusesFeatures
    rw [version_enabled, hshown] at hpasses
    have hagrees : (virtioSetFeatures a.refusesFeatures
        (d.vio.introduced.registers.features &&& 1#64 <<< fVersion1) d.vio.introduced).1 =
          .success ↔ a.agrees d.vio.registers = true := hpasses
    generalize virtioSetFeatures a.refusesFeatures
      (d.vio.introduced.registers.features &&& 1#64 <<< fVersion1) d.vio.introduced = written
      at hagrees hset ⊢
    obtain ⟨status, v⟩ := written
    obtain ⟨hnegotiates, hnegotiated⟩ := hset
    dsimp only at hagrees hnegotiates hnegotiated ⊢
    have hmapped : v.mapped = true := hnegotiates.mapped rfl
    have hquiet : v.registers.status &&& 0x84 = 0 :=
      (hnegotiates.status 0x84 rfl).trans (by decide : (3 : BitVec 8) &&& 0x84 = 0)
    have hearly : v.registers.earlyKicks = [] := by rw [hnegotiates.same]; rfl
    have hqueues : v.queues = [] := by rw [hnegotiates.same]; rfl
    have hfaults : v.faults = [] := by rw [hnegotiates.same]; exact hcreated.noFault
    have hidle := not_live_of_status hquiet hearly
    by_cases hwritten : status = .success
    · have hn := hnegotiated hwritten
      rw [if_neg (not_not.mpr hwritten)]
      rcases findQueues_of_idle hmapped hidle a.queues with
        ⟨hall, hfound⟩ | ⟨hsome, failure, queues, hfailure, hfound⟩
      · have hready : v.registers.status &&& sDriverOk = 0 :=
          Decidable.not_not.mp fun h => hidle (Or.inl h)
        have hfeatures : FeaturesIn v.registers.driverFeatures v.registers.offered := by
          have hshows := hnegotiates.features fun i hi => absurd hi (by simp [VioDevice.introduced,
            Registers.reset])
          rw [hnegotiates.same]
          exact hshows
        have hrings := hnegotiates.rings ⟨rfl, rfl⟩
        rw [hfound]
        dsimp only
        rw [if_neg (not_not.mpr rfl)]
        rw [deviceReady_eq (by exact hmapped) (by exact hready), access_id (by exact hmapped)]
        refine ⟨?_, fun _ => ?_, fun h => absurd rfl h⟩
        · simp [htransport, hagrees.mp hwritten, hall, QueueAnswer.isAll]
        · refine ⟨⟨hcreated.kept.1, rfl⟩, hcreated.holds, hmapped, ⟨rfl, rfl⟩,
            driverReady _ hn.known hquiet, ?_, hfeatures, hrings, hearly, hfaults⟩
          intro hversion
          dsimp only [Registers.setStatus] at hversion ⊢
          rw [hn.written] at hversion
          rw [if_neg Bool.false_ne_true, or_and_of_disjoint _ rfl]
          exact hn.confirmed hversion
      · obtain ⟨left, hdeleted⟩ := resetAndDelete_eq (v := { v with
          registers := { v.registers with
            queues := queues }
          queues := [] }) hmapped
        rw [hfound]
        dsimp only
        rw [if_pos hfailure, hdeleted]
        refine ⟨by simp [hfailure, hsome], fun h => absurd h hfailure, fun _ => ?_⟩
        exact ⟨hcreated.kept.2, ⟨hcreated.memory, rfl⟩, hfaults,
          Or.inl (not_live_of_status BitVec.zero_and rfl)⟩
    · obtain ⟨queues, hdeleted⟩ := resetAndDelete_eq hmapped
      rw [if_pos hwritten, hdeleted]
      refine ⟨by simp [hwritten, ← hagrees], fun h => absurd h hwritten, fun _ => ?_⟩
      exact ⟨hcreated.kept.2, ⟨hcreated.memory, rfl⟩, hfaults,
        Or.inl (not_live_of_status BitVec.zero_and rfl)⟩
  · rw [if_neg htransport]
    dsimp only
    rw [if_pos htransport]
    refine ⟨by simp [htransport], fun h => absurd h htransport, fun _ => ?_⟩
    exact ⟨hcreated.kept.2, ⟨hcreated.memory, rfl⟩, hcreated.noFault, Or.inr rfl⟩

private theorem queryStreams_vio (hworks : WaveWorks d) (q : QueryRun) :
    (queryStreams q d).vio = d.vio := by
  have hready : d.vio.registers.status &&& sDriverOk ≠ 0 := by
    have hset : ∀ s : BitVec 8, s &&& 0x87 = 7 → s &&& 4 ≠ 0 := by decide
    exact hset _ hworks.status
  unfold queryStreams
  dsimp only
  induction q.sent with
  | zero => rfl
  | succ sent ih =>
      rw [List.replicate_succ, List.foldl_cons, notify_ready hworks.mapped hready]
      exact ih

private theorem queryStreams_works (hworks : WaveWorks d) (q : QueryRun) :
    WaveWorks (queryStreams q d) := by
  have hvio := queryStreams_vio hworks q
  refine ⟨hworks.kept, hworks.holds, ?_, ?_, ?_, ?_, ?_, ?_, ?_, ?_⟩ <;> rw [hvio]
  · exact hworks.mapped
  · exact hworks.queues
  · exact hworks.status
  · exact hworks.confirmed
  · exact hworks.features
  · exact hworks.rings
  · exact hworks.early
  · exact hworks.noFault

/-- The reset stands before everything that is freed. -/
private theorem destroyDevice_of_works (hworks : WaveWorks d) :
    WaveReleased (viosndDestroyDevice d) ∧ ¬(viosndDestroyDevice d).vio.registers.Live := by
  obtain ⟨queues, hreset⟩ := resetAndDelete_eq hworks.mapped
  have hidle : ¬({ d.vio.registers.reset with
      queues := queues } : Registers).Live := not_live_of_status BitVec.zero_and rfl
  unfold viosndDestroyDevice
  rw [if_pos hworks.kept.2, hreset]
  dsimp only at hidle ⊢
  rw [check_of_good (by simp [hidle])]
  exact ⟨⟨rfl, ⟨rfl, rfl, rfl⟩, ⟨rfl, rfl, rfl, rfl⟩, hworks.noFault⟩, hidle⟩

private theorem destroyDevice_of_uninitialized {r : Registers} (h : Uninitialized r d) :
    WaveReleased (viosndDestroyDevice d) ∧
      (¬(viosndDestroyDevice d).vio.registers.Live ∨
        (viosndDestroyDevice d).vio.registers = r) := by
  unfold viosndDestroyDevice
  rw [if_neg (by simp [h.initialized])]
  dsimp only
  rw [check_of_good (by simp [h.memory.1])]
  exact ⟨⟨rfl, ⟨rfl, rfl, rfl⟩, ⟨rfl, rfl, h.memory.2, rfl⟩, h.noFault⟩, h.idle⟩

private theorem createDevice_cases (a : StartAnswers) (r : Registers) :
    (viosndCreateDevice a r = (some (.status .insufficientResources), none) ∧ a.memory = false) ∨
    (∃ failure d, viosndCreateDevice a r = (some failure, some (viosndDestroyDevice d)) ∧
      Uninitialized r d ∧ (a.busInterface.isNone && a.header && a.dmaAdapter) = false) ∨
    ∃ d, viosndCreateDevice a r = (none, some d) ∧ Created d ∧ d.vio.registers = r ∧
      (a.memory && a.busInterface.isNone && a.header && a.dmaAdapter) = true := by
  have hnew : Uninitialized r (newDevice r) := ⟨rfl, ⟨rfl, rfl⟩, rfl, Or.inr rfl⟩
  have hbus : Uninitialized r { newDevice r with
      pciBus := true } := ⟨rfl, ⟨rfl, rfl⟩, rfl, Or.inr rfl⟩
  unfold viosndCreateDevice
  cases hmemory : a.memory with
  | false => simp
  | true =>
      right
      dsimp only
      rw [if_neg (by simp)]
      cases hinterface : a.busInterface with
      | some failure => exact Or.inl ⟨_, _, rfl, hnew, rfl⟩
      | none =>
          cases hheader : a.header with
          | false => exact Or.inl ⟨_, _, rfl, hbus, rfl⟩
          | true =>
              cases hadapter : a.dmaAdapter with
              | false => exact Or.inl ⟨_, _, rfl, hbus, rfl⟩
              | true =>
                  right
                  exact ⟨_, rfl, ⟨⟨rfl, rfl⟩, ⟨rfl, rfl, rfl⟩, rfl, rfl⟩, rfl, rfl⟩

end

/-! ## The endpoints -/

section

variable {w : Adapter} {device : ℕ}

private theorem createAndRegister_eq (subdevice : Subdevice) (a : SubdeviceAnswers) (w : Adapter) :
    ∃ status, createAndRegister subdevice a w = (status, if a.succeeds then { w with
        references := w.references + 2
        subdevices := w.subdevices ++ [subdevice] }
      else w) ∧ (status = .success ↔ a.succeeds = true) := by
  unfold createAndRegister SubdeviceAnswers.succeeds
  cases a.port with
  | some failure => exact ⟨failure.val, rfl, by simp [failure.property]⟩
  | none =>
      cases a.miniport with
      | false =>
          refine ⟨.insufficientResources, ?_, by simp⟩
          simp
      | true =>
          cases a.init with
          | some failure =>
              refine ⟨failure.val, ?_, by simp [failure.property]⟩
              simp [add_assoc]
          | none =>
              cases a.register with
              | some failure =>
                  refine ⟨failure.val, ?_, by simp [failure.property]⟩
                  simp [add_assoc]
              | none =>
                  refine ⟨.success, ?_, by simp⟩
                  simp [add_assoc]

def EndpointAnswers.added (a : EndpointAnswers) (capture : Bool) (device : ℕ) : List Subdevice :=
  if a.topology.succeeds = false then []
  else if a.wave.succeeds = false then [.topology capture]
  else [.topology capture, .wave capture device]

private theorem wave_mem_added {a : EndpointAnswers} {capture c : Bool} {n : ℕ} :
    .wave c n ∈ a.added capture device ↔
      a.registers = true ∧ c = capture ∧ n = device := by
  unfold EndpointAnswers.added EndpointAnswers.registers
  cases a.topology.succeeds <;> cases a.wave.succeeds <;> simp

private theorem registerAudioEndpoint_eq (a : EndpointAnswers) (capture : Bool) (device : ℕ)
    (w : Adapter) :
    ∃ status, viosndRegisterAudioEndpoint a capture device w = (status, { w with
        subdevices := w.subdevices ++ a.added capture device }) ∧
      (status = .success ↔ a.connects = true) := by
  obtain ⟨status, htopology, hsuccess⟩ := createAndRegister_eq (.topology capture) a.topology w
  unfold viosndRegisterAudioEndpoint EndpointAnswers.added EndpointAnswers.connects
    EndpointAnswers.registers
  rw [htopology]
  dsimp only
  by_cases hfirst : a.topology.succeeds = true
  · rw [if_neg (not_not.mpr (hsuccess.mpr hfirst)), hfirst]
    obtain ⟨status', hwave, hsuccess'⟩ := createAndRegister_eq (.wave capture device) a.wave
      { w with
        references := w.references + 2
        subdevices := w.subdevices ++ [.topology capture] }
    rw [if_pos rfl, hwave]
    dsimp only
    by_cases hsecond : a.wave.succeeds = true
    · rw [if_neg (not_not.mpr (hsuccess'.mpr hsecond)), hsecond]
      cases a.connection with
      | some failure =>
          refine ⟨failure.val, ?_, by simp [failure.property]⟩
          simp [add_assoc]
      | none =>
          refine ⟨.success, ?_, by simp⟩
          simp [add_assoc]
    · rw [if_pos fun h => hsecond (hsuccess'.mp h), Bool.eq_false_of_not_eq_true hsecond]
      refine ⟨status', ?_, by simp [hsuccess', hsecond]⟩
      simp
  · have hfailed := Bool.eq_false_of_not_eq_true hfirst
    rw [if_pos fun h => hfirst (hsuccess.mp h), hfailed]
    refine ⟨status, ?_, by simp [hsuccess, hfailed]⟩
    simp

private theorem EndpointAnswers.registers_of_connects {a : EndpointAnswers}
    (h : a.connects = true) :
    a.registers = true := by
  unfold EndpointAnswers.connects at h
  simp_all

private theorem registerEndpoints_eq {a : StartAnswers} (hstreams : a.lacksStream = false)
    (device : ℕ) (w : Adapter) :
    ∃ status added, registerEndpoints a device w = (status, { w with
        subdevices := w.subdevices ++ added }) ∧
      (∀ c n, .wave c n ∈ added → n = device) ∧
      ((status ≠ .success ∧ ∃ c n, .wave c n ∈ added) ↔ a.orphans = true) := by
  unfold StartAnswers.lacksStream at hstreams
  rw [Bool.or_eq_false_iff] at hstreams
  obtain ⟨hrender, hcapture⟩ := hstreams
  unfold registerEndpoints StartAnswers.orphans
  obtain ⟨first, hfirst, hconnects⟩ := registerAudioEndpoint_eq a.render false device w
  cases henabled : a.enableRender with
  | false =>
      obtain ⟨second, hsecond, hconnects'⟩ := registerAudioEndpoint_eq a.capture true device w
      rw [Bool.false_and, if_neg Bool.false_ne_true]
      dsimp only
      rw [if_neg (not_not.mpr rfl)]
      cases henabled' : a.enableCapture with
      | false => exact ⟨.success, [], by simp, by simp, by simp⟩
      | true =>
          have hthere : a.query.streams.hasCapture = true := by simp_all
          rw [hthere, Bool.and_true, if_pos rfl, hsecond]
          refine ⟨second, _, rfl, fun c n h => (wave_mem_added.mp h).2.2, ?_⟩
          simp [wave_mem_added, hconnects', and_comm]
  | true =>
      have hthere : a.query.streams.hasRender = true := by simp_all
      rw [hthere, Bool.and_true, if_pos rfl, hfirst]
      dsimp only
      by_cases hconnected : a.render.connects = true
      · rw [if_neg (not_not.mpr (hconnects.mpr hconnected)), hconnected]
        have hregistered := EndpointAnswers.registers_of_connects hconnected
        cases henabled' : a.enableCapture with
        | false =>
            refine ⟨first, _, rfl, fun c n h => (wave_mem_added.mp h).2.2, ?_⟩
            simp [hconnects, hconnected]
        | true =>
            have hthere' : a.query.streams.hasCapture = true := by simp_all
            obtain ⟨second, hsecond, hconnects'⟩ := registerAudioEndpoint_eq a.capture true device
              { w with
                subdevices := w.subdevices ++ a.render.added false device }
            rw [hthere', Bool.and_true, if_pos rfl, hsecond]
            refine ⟨second, a.render.added false device ++ a.capture.added true device,
              by rw [List.append_assoc], fun c n h => ?_, ?_⟩
            · cases List.mem_append.mp h with
              | inl hold => exact (wave_mem_added.mp hold).2.2
              | inr hnew => exact (wave_mem_added.mp hnew).2.2
            · have hwave : ∃ c n, .wave c n ∈ a.render.added false device ++
                  a.capture.added true device :=
                ⟨false, device, List.mem_append_left _ (wave_mem_added.mpr ⟨hregistered, rfl, rfl⟩)⟩
              rw [and_iff_left hwave]
              simp [hconnects']
      · rw [if_pos fun h => hconnected (hconnects.mp h), if_neg hconnected]
        refine ⟨first, _, rfl, fun c n h => (wave_mem_added.mp h).2.2, ?_⟩
        simp [wave_mem_added, hconnects, hconnected]

end

/-! ## Every start -/

section

variable {w : Adapter} {d : WaveDevice}

/-- What a start can do: nothing, give its device back, or go as far as the endpoints with a device
that works, which it keeps if these are registered. -/
private theorem startDevice_cases (a : StartAnswers) (w : Adapter) :
    (w.step a = w ∧ a.comesUp w.registers = false) ∨
    (∃ d, w.step a = w.add d ∧ WaveReleased d ∧
      (¬d.vio.registers.Live ∨ d.vio.registers = w.registers) ∧ a.comesUp w.registers = false) ∨
    a.comesUp w.registers = true ∧ ∃ (d : WaveDevice) (status : NtStatus) (added : List Subdevice),
      WaveWorks d ∧
      (∀ c n, .wave c n ∈ added → n = w.devices.length) ∧
      ((status ≠ .success ∧ ∃ c n, .wave c n ∈ added) ↔ a.orphans = true) ∧
      w.step a = (if status ≠ .success then { w with
          subdevices := w.subdevices ++ added }.add (viosndDestroyDevice d)
        else { { w with
            subdevices := w.subdevices ++ added }.add d with
          current := some w.devices.length
          started := w.started ++ [w.devices.length] }) := by
  unfold Adapter.step startDevice StartAnswers.comesUp
  cases hobject : a.physicalDevice with
  | some failure => exact Or.inl ⟨rfl, by simp⟩
  | none =>
      rcases createDevice_cases a w.registers with
        ⟨hcreate, hmemory⟩ | ⟨failure, d, hcreate, hd, hfailed⟩ | ⟨d, hcreate, hd, hsame, hpassed⟩
      · left
        rw [hcreate]
        exact ⟨rfl, by simp [hmemory]⟩
      · right; left
        rw [hcreate]
        obtain ⟨hreleased, hidle⟩ := destroyDevice_of_uninitialized hd
        exact ⟨_, rfl, hreleased, hidle, by simp_all⟩
      · right
        rw [hcreate]
        obtain ⟨hsuccess, hworks, hfails⟩ := initVirtio_sound hd a
        rw [hsame] at hsuccess hfails
        unfold startCreated
        dsimp only
        by_cases hinitialized : (viosndInitVirtio a d).1 = .success
        · rw [if_neg (not_not.mpr hinitialized)]
          have hup := hsuccess.mp hinitialized
          have hqueried := queryStreams_works (hworks hinitialized) a.query
          by_cases hquery : a.query.status = .success
          · rw [if_neg (not_not.mpr hquery)]
            cases hstreams : a.lacksStream with
            | true =>
                left
                obtain ⟨hreleased, hidle⟩ := destroyDevice_of_works hqueried
                exact ⟨_, rfl, hreleased, Or.inl hidle, by simp⟩
            | false =>
                right
                obtain ⟨status, added, hregister, hwaves, horphans⟩ :=
                  registerEndpoints_eq hstreams w.devices.length w
                rw [if_neg Bool.false_ne_true, hregister]
                refine ⟨by simp_all, _, status, added, hqueried, hwaves, horphans, ?_⟩
                split <;> rfl
          · left
            obtain ⟨hreleased, hidle⟩ := destroyDevice_of_works hqueried
            rw [if_pos hquery]
            exact ⟨_, rfl, hreleased, Or.inl hidle, by simp [hquery]⟩
        · left
          obtain ⟨hreleased, hidle⟩ := destroyDevice_of_uninitialized (hfails hinitialized)
          rw [if_pos hinitialized]
          refine ⟨_, rfl, hreleased, hidle, ?_⟩
          have hdown := Bool.eq_false_of_not_eq_true fun h => hinitialized (hsuccess.mpr h)
          simp_all

private theorem loaded_safety (modern : Bool) (offered : BitVec 64) (status : BitVec 8) :
    AdapterSafety (Adapter.loaded modern offered status) := by
  refine ⟨?_, ?_, rfl, rfl, ?_⟩
  · intro n d hd
    simp [Adapter.loaded] at hd
  · intro n hn
    simp [Adapter.loaded] at hn
  · intro _ hqueues
    exact absurd rfl hqueues

theorem AdapterSafety.subdevices (h : AdapterSafety w) (subdevices : List Subdevice) :
    AdapterSafety { w with
      subdevices := subdevices } :=
  ⟨h.released, h.working, h.current, h.balanced, h.reach⟩

private theorem add_devices_iff {n : ℕ} {d' : WaveDevice} : (w.add d).devices[n]? = some d' ↔
    w.devices[n]? = some d' ∨ n = w.devices.length ∧ d' = d := by
  unfold Adapter.add
  dsimp only
  by_cases hlt : n < w.devices.length
  · rw [List.getElem?_append_left hlt]
    simp [hlt.ne]
  · have hnone : w.devices[n]? = none := List.getElem?_eq_none (by omega)
    rw [List.getElem?_append_right (by omega), List.getElem?_singleton, hnone]
    have hindex : n - w.devices.length = 0 ↔ n = w.devices.length := by omega
    simp [hindex, eq_comm]

private theorem AdapterSafety.add_released (h : AdapterSafety w) (hd : WaveReleased d)
    (hidle : ¬d.vio.registers.Live ∨ d.vio.registers = w.registers) : AdapterSafety (w.add d) := by
  refine ⟨?_, ?_, h.current, h.balanced, ?_⟩
  · intro n d' hd' hn
    cases add_devices_iff.mp hd' with
    | inl hold => exact h.released n d' hold hn
    | inr hnew =>
        rw [hnew.2]
        exact hd
  · intro n hn
    obtain ⟨d', hd', hworks⟩ := h.working n hn
    exact ⟨d', add_devices_iff.mpr (Or.inl hd'), hworks⟩
  · intro hlive hqueues
    cases hidle with
    | inl hidle => exact absurd hlive hidle
    | inr hsame =>
        have hregisters : (w.add d).registers = w.registers := hsame
        rw [hregisters] at hlive hqueues ⊢
        obtain ⟨n, hn, d', hd', heq⟩ := h.reach hlive hqueues
        exact ⟨n, hn, d', add_devices_iff.mpr (Or.inl hd'), heq⟩

private theorem AdapterSafety.add_works (h : AdapterSafety w) (hd : WaveWorks d) :
    AdapterSafety { w.add d with
      current := some w.devices.length
      started := w.started ++ [w.devices.length] } := by
  have hnew : (w.add d).devices[w.devices.length]? = some d :=
    add_devices_iff.mpr (Or.inr ⟨rfl, rfl⟩)
  refine ⟨?_, ?_, by simp, h.balanced, ?_⟩
  · intro n d' hd' hn
    rw [List.mem_append, List.mem_singleton, not_or] at hn
    cases add_devices_iff.mp hd' with
    | inl hold => exact h.released n d' hold hn.1
    | inr hlast => exact absurd hlast.1 hn.2
  · intro n hn
    cases List.mem_append.mp hn with
    | inl hold =>
        obtain ⟨d', hd', hworks⟩ := h.working n hold
        exact ⟨d', add_devices_iff.mpr (Or.inl hd'), hworks⟩
    | inr hlast =>
        rw [List.mem_singleton.mp hlast]
        exact ⟨d, hnew, hd⟩
  · intro _ _
    exact ⟨_, List.mem_append_right _ (List.mem_singleton_self _), d, hnew, rfl⟩

private theorem step_keepsOrReleases (a : StartAnswers) (h : AdapterSafety w) :
    AdapterSafety (w.step a) := by
  rcases startDevice_cases a w with
    ⟨hsame, _⟩ | ⟨d, hstep, hd, hidle, _⟩ | ⟨_, d, status, added, hd, _, _, hstep⟩
  · rw [hsame]
    exact h
  · rw [hstep]
    exact h.add_released hd hidle
  · rw [hstep]
    split
    · obtain ⟨hreleased, hidle⟩ := destroyDevice_of_works hd
      exact (h.subdevices _).add_released hreleased (Or.inl hidle)
    · exact (h.subdevices _).add_works hd

/-- Over all starts of a device: one that fails gives everything back but for the subdevices that
are registered, whatever it has reached; one that succeeds keeps a device that follows the protocol.
The hardware reaches no queue of another. -/
theorem run_keepsOrReleases (modern : Bool) (offered : BitVec 64) (status : BitVec 8)
    (starts : List StartAnswers) :
    AdapterSafety (run Adapter.step (Adapter.loaded modern offered status) starts) :=
  run_invariant (fun _ a h => step_keepsOrReleases a h) starts (loaded_safety modern offered status)

/-! ## Wave miniports without a device -/

private theorem EndpointsLive.device_exists (h : EndpointsLive w) {capture : Bool} {n : ℕ}
    (hwave : .wave capture n ∈ w.subdevices) (d : WaveDevice) :
    ∃ d', (w.add d).devices[n]? = some d' ∧ d'.freed = false := by
  obtain ⟨d', hd', hkept⟩ := h capture n hwave
  exact ⟨d', add_devices_iff.mpr (Or.inl hd'), hkept⟩

private theorem EndpointsLive.add_kept (h : EndpointsLive w) {added : List Subdevice}
    (hwaves : ∀ c n, .wave c n ∈ added → n = w.devices.length) (hkept : d.freed = false) :
    EndpointsLive ({ w with
      subdevices := w.subdevices ++ added }.add d) := by
  intro capture n hwave
  cases List.mem_append.mp hwave with
  | inl hold => exact h.device_exists hold d
  | inr hnew => exact ⟨d, add_devices_iff.mpr (Or.inr ⟨hwaves capture n hnew, rfl⟩), hkept⟩

/-- The device of a start that failed is gone. -/
private theorem EndpointsLive.add_freed_iff (h : EndpointsLive w) {added : List Subdevice}
    (hwaves : ∀ c n, .wave c n ∈ added → n = w.devices.length) (hfreed : d.freed = true) :
    EndpointsLive ({ w with
      subdevices := w.subdevices ++ added }.add d) ↔ ¬∃ c n, .wave c n ∈ added := by
  constructor
  · rintro hlive ⟨c, n, hnew⟩
    obtain ⟨d', hd', hkept⟩ := hlive c n (List.mem_append_right _ hnew)
    have hlast : d' = d := by
      cases add_devices_iff.mp hd' with
      | inl hold =>
          rw [hwaves c n hnew, List.getElem?_eq_none le_rfl] at hold
          cases hold
      | inr hlast => exact hlast.2
    rw [hlast, hfreed] at hkept
    cases hkept
  · intro hnone capture n hwave
    cases List.mem_append.mp hwave with
    | inl hold => exact h.device_exists hold d
    | inr hnew => exact absurd ⟨capture, n, hnew⟩ hnone

private theorem step_endpointsLive_iff (a : StartAnswers) (h : EndpointsLive w) :
    EndpointsLive (w.step a) ↔ a.losesEndpoint w.registers = false := by
  unfold StartAnswers.losesEndpoint
  rcases startDevice_cases a w with
    ⟨hsame, hdown⟩ | ⟨d, hstep, hd, _, hdown⟩ | ⟨hup, d, status, added, hd, hwaves, horphans, hstep⟩
  · rw [hsame, hdown, Bool.false_and]
    exact iff_of_true h rfl
  · rw [hstep, hdown, Bool.false_and]
    exact iff_of_true (fun capture n hwave => h.device_exists hwave d) rfl
  · rw [hstep, hup, Bool.true_and, ← Bool.not_eq_true, ← horphans]
    by_cases hfails : status ≠ .success
    · rw [if_pos hfails, and_iff_right hfails]
      exact h.add_freed_iff hwaves (destroyDevice_of_works hd).1.freed
    · rw [if_neg hfails]
      exact iff_of_true (h.add_kept hwaves hd.kept.1) fun hlost => hfails hlost.1

/-- Registered wave miniports have their device all along exactly when no start registers an
endpoint and fails behind it. -/
theorem run_endpointsLive_iff (modern : Bool) (offered : BitVec 64) (status : BitVec 8)
    (starts : List StartAnswers) :
    (∀ first, first <+: starts →
      EndpointsLive (run Adapter.step (Adapter.loaded modern offered status) first)) ↔
    Guarded Adapter.step (fun w a => a.losesEndpoint w.registers = false)
      (Adapter.loaded modern offered status) starts := by
  apply forall_prefix_iff_guarded fun w (h : EndpointsLive w) => h
  · intro w a h hguard
    exact (step_endpointsLive_iff a h).mpr hguard
  · intro w a h hguard hlive
    exact hguard ((step_endpointsLive_iff a h).mp hlive)
  · intro capture n hwave
    simp [Adapter.loaded] at hwave

end

end Viosnd.Startup
