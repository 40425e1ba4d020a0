import Viosnd.Acx.Lifecycle
import Viosnd.Device.Negotiation

/-!
# The ACX device is safe to power up and down

In whatever way the callbacks fail, and however often the device is started, suspended and released,
no register is accessed that is not mapped, no queue or event pool is freed that the device may
access, and nothing is held without hardware. But the device is notified before the driver says it
is ready. The DMA memory of a control message, which a query that times out frees while the device
may still have it, is not part of this state.
-/

namespace Viosnd.Startup

open StepRun Viosnd.Device

/-! ## What the callbacks are for -/

/-- What must hold of the device at all times. -/
structure Sound (d : AcxDevice) : Prop where
  noFault : d.vio.faults = []
  /-- The features were offered, and leave the rings as they are. -/
  features : FeaturesIn d.vio.registers.driverFeatures d.vio.registers.offered
  rings : d.vio.packedRing = false ∧ d.vio.eventSuppression = false
  /-- The queues and the event pool are held as long as the device may access them. -/
  reach : d.vio.registers.Live → d.vio.registers.queues ⊆ d.vio.queues ∧
    (d.vio.registers.eventPool = true → d.eventPool = true)
  /-- One descriptor is lost for each resource that belongs to no BAR. -/
  ledger : d.barsAllocated = d.barsFreed + d.bars + d.unknownResources

structure Running (d : AcxDevice) : Prop where
  mapped : d.vio.mapped = true
  ready : d.queuesReady = true ∧ d.virtioReady = true
  memory : d.vio.queues = sndQueues ∧ d.eventPool = true
  queues : d.vio.registers.queues = sndQueues ∧ d.vio.registers.eventPool = true
  /-- The driver has said that it knows the device and is ready for it, and not that it failed. -/
  status : d.vio.registers.status &&& 0x87 = 7
  confirmed : isFeatureEnabled d.vio.registers.driverFeatures fVersion1 = true →
    d.vio.registers.status &&& sFeaturesOk ≠ 0
  /-- The event queue and the control queue were notified before that. -/
  early : d.vio.registers.earlyKicks = [eventQueue, controlQueue]

structure Halted (d : AcxDevice) : Prop where
  mapped : d.vio.mapped = false
  memory : d.vio.queues = [] ∧ d.eventPool = false
  ready : d.queuesReady = false ∧ d.virtioReady = false

structure Released (d : AcxDevice) : Prop extends Halted d where
  bars : d.bars = 0

structure AcxSafety (w : AcxWorld) : Prop where
  sound : Sound w.device
  /-- An interrupt is served by a device that works. -/
  ready : w.device.virtioReady = true → Running w.device
  poweredUp : w.phase = .poweredUp → w.device.virtioReady = true
  released : w.phase = .noHardware → Released w.device

/-! ## Features -/

section

variable {v : VioDevice}

private theorem flag_cases (s : BitVec 8) :
    (s &&& 1 = 0 ∨ s &&& 1 = 1) ∧ (s &&& 2 = 0 ∨ s &&& 2 = 2) := by
  decide +revert

private theorem known_of_flags (s : BitVec 8) (hfirst : s &&& 1 = 1) (hsecond : s &&& 2 = 2) :
    s &&& 3 = 3 := by
  decide +revert

private theorem addMissing_negotiates (hmapped : v.mapped = true) (flag : BitVec 8) (missing : Prop)
    [Decidable missing] (hflag : flag &&& 11#8 = flag) (hfeatures : flag &&& sFeaturesOk = 0#8)
    (hmissing : ¬missing → v.registers.status &&& flag = flag) :
    let w := if missing then virtioAddStatus flag v else v
    Negotiates v w ∧ w.registers.status &&& flag = flag ∧
      w.registers.status &&& sFeaturesOk = v.registers.status &&& sFeaturesOk ∧
      w.registers.driverFeatures = v.registers.driverFeatures := by
  dsimp only
  split
  · refine ⟨addStatus_negotiates hmapped hflag, ?_⟩
    rw [addStatus_status hmapped]
    refine ⟨or_and_self _ _, or_and_of_disjoint _ hfeatures, ?_⟩
    unfold virtioAddStatus
    rw [access_mapped hmapped]
    rfl
  · exact ⟨Negotiates.refl v, hmissing ‹_›, rfl, rfl⟩

private theorem followStatusProtocol_negotiates (hmapped : v.mapped = true) :
    Negotiates v (followStatusProtocol v) ∧
      (followStatusProtocol v).registers.status &&& 3 = 3 ∧
      (followStatusProtocol v).registers.status &&& sFeaturesOk =
        v.registers.status &&& sFeaturesOk ∧
      (followStatusProtocol v).registers.driverFeatures = v.registers.driverFeatures := by
  have hflags := flag_cases v.registers.status
  have hfirst := addMissing_negotiates hmapped sAcknowledge
    (v.registers.status &&& sAcknowledge = 0) rfl rfl hflags.1.resolve_left
  unfold followStatusProtocol
  rw [access_mapped hmapped]
  dsimp only [id] at hfirst ⊢
  generalize hw : (if v.registers.status &&& sAcknowledge = 0 then
    virtioAddStatus sAcknowledge v else v) = w at hfirst ⊢
  have hsecond := addMissing_negotiates (hfirst.1.mapped hmapped) sDriver
    (v.registers.status &&& sDriver = 0) rfl rfl fun hset =>
      hfirst.1.known sDriver rfl (hflags.2.resolve_left hset)
  refine ⟨hfirst.1.trans hsecond.1, known_of_flags _ ?_ hsecond.2.1,
    hsecond.2.2.1.trans hfirst.2.2.1, hsecond.2.2.2.trans hfirst.2.2.2⟩
  exact hsecond.1.known 1 rfl hfirst.2.1

private theorem ownFeatures_acceptable (shown : BitVec 64) :
    Acceptable (ownFeatures shown) shown := by
  unfold ownFeatures
  apply Acceptable.enable
  · apply Acceptable.enable
    · apply Acceptable.enable (acceptable_zero shown)
      simp [fVersion1]
    · simp [fAnyLayout]
  · simp [fAccessPlatform]

end

/-! ## Powering up -/

section

variable {d : AcxDevice} {v : VioDevice}

/-- The registers are mapped, and the device is not in use. -/
structure Quiet (d : AcxDevice) : Prop where
  mapped : d.vio.mapped = true
  status : d.vio.registers.status &&& 0x84 = 0
  memory : d.vio.queues = [] ∧ d.eventPool = false
  ready : d.queuesReady = false ∧ d.virtioReady = false
  early : d.vio.registers.earlyKicks = []

structure Fresh (d : AcxDevice) : Prop extends Quiet d where
  features : d.vio.registers.status &&& sFeaturesOk = 0

private theorem Sound.negotiates (hsound : Sound d) (h : Negotiates d.vio v)
    (uFeatures : BitVec 64) :
    Sound { d with
      vio := v
      uFeatures := uFeatures } := by
  have hoffered : v.registers.offered = d.vio.registers.offered := by rw [h.same]
  have hqueues : v.registers.queues = d.vio.registers.queues ∧ v.queues = d.vio.queues ∧
      v.registers.eventPool = d.vio.registers.eventPool := by
    rw [h.same]
    simp
  have hlive : v.registers.Live ↔ d.vio.registers.Live := by
    apply live_congr (h.status sDriverOk rfl)
    rw [h.same]
  refine ⟨?_, ?_, h.rings hsound.rings, fun hreach => ?_, hsound.ledger⟩
  · dsimp only
    rw [h.same]
    exact hsound.noFault
  · dsimp only
    rw [hoffered]
    exact h.features hsound.features
  · dsimp only at hreach ⊢
    rw [hqueues.1, hqueues.2.1, hqueues.2.2]
    exact hsound.reach (hlive.mp hreach)

private theorem Quiet.negotiates (hquiet : Quiet d) (h : Negotiates d.vio v)
    (uFeatures : BitVec 64) :
    Quiet { d with
      vio := v
      uFeatures := uFeatures } := by
  refine ⟨h.mapped hquiet.mapped, (h.status 0x84 rfl).trans hquiet.status, ?_, hquiet.ready, ?_⟩
  · dsimp only
    rw [h.same]
    exact hquiet.memory
  · dsimp only
    rw [h.same]
    exact hquiet.early

private theorem setDriverFeatures_sound (hsound : Sound d) (hquiet : Quiet d)
    (hearly : d.vio.registers.modern = true → d.vio.registers.status &&& sFeaturesOk = 0)
    {privateOn : BitVec 64} (hprivate : Acceptable privateOn d.vio.registers.features)
    (refuses : Bool) (off : BitVec 64) :
    let r := virtIOWdfSetDriverFeatures refuses privateOn off d
    Sound r.2 ∧ Quiet r.2 ∧ (r.1 = .success → Negotiated r.2.uFeatures r.2.vio) := by
  unfold virtIOWdfSetDriverFeatures
  rw [access_id hquiet.mapped]
  dsimp only
  split
  · exact ⟨hsound, hquiet, fun h => by cases h⟩
  have hfollow := followStatusProtocol_negotiates hquiet.mapped
  have hfeatures : Acceptable
      ((ownFeatures d.vio.registers.features ||| privateOn) &&& ~~~off)
      (followStatusProtocol d.vio).registers.features := by
    rw [hfollow.1.readable]
    exact ((ownFeatures_acceptable _).or hprivate).and_left _
  have hstill : (followStatusProtocol d.vio).registers.modern = true →
      (followStatusProtocol d.vio).registers.status &&& sFeaturesOk = 0 := by
    rw [hfollow.2.2.1, hfollow.1.same]
    exact hearly
  have hset := virtioSetFeatures_negotiates (hfollow.1.mapped hquiet.mapped) hfollow.2.1 hstill
    hfeatures refuses
  have hall := hfollow.1.trans hset.1
  exact ⟨hsound.negotiates hall _, hquiet.negotiates hall _, hset.2⟩

private theorem finalizeFeatures_sound (hsound : Sound d) (hquiet : Quiet d)
    (hnegotiated : Negotiated d.uFeatures d.vio) (refuses : Bool) :
    let r := virtIOWdfFinalizeFeatures refuses d
    Sound r.2 ∧ Quiet r.2 ∧ (r.1 = .success → Negotiated r.2.uFeatures r.2.vio) := by
  have hfirst : let r := if d.uFeatures = 0 then virtIOWdfSetDriverFeatures refuses 0 0 d
        else (.success, d)
      Sound r.2 ∧ Quiet r.2 ∧ (r.1 = .success → Negotiated r.2.uFeatures r.2.vio) := by
    dsimp only
    split
    · rename_i hnone
      apply setDriverFeatures_sound hsound hquiet _ (acceptable_zero _)
      intro hmodern
      have hversion := hnegotiated.modern hmodern
      rw [hnone] at hversion
      cases hversion
    · exact ⟨hsound, hquiet, fun _ => hnegotiated⟩
  unfold virtIOWdfFinalizeFeatures
  dsimp only at hfirst ⊢
  generalize (if d.uFeatures = 0 then virtIOWdfSetDriverFeatures refuses 0 0 d
    else (NtStatus.success, d)) = first at hfirst ⊢
  obtain ⟨status, d⟩ := first
  obtain ⟨hsound, hquiet, hnegotiated⟩ := hfirst
  by_cases hsuccess : status = .success
  · rw [hsuccess] at hnegotiated ⊢
    have hn := hnegotiated rfl
    have hfollow := followStatusProtocol_negotiates hquiet.mapped
    dsimp only
    split
    · rename_i hmissing
      have hlegacy : (followStatusProtocol d.vio).registers.modern = true →
          (followStatusProtocol d.vio).registers.status &&& sFeaturesOk = 0 := by
        rw [hfollow.2.2.1]
        exact fun _ => hmissing
      have hfeatures := hn.acceptable
      rw [← hfollow.1.readable] at hfeatures
      have hset := virtioSetFeatures_negotiates (hfollow.1.mapped hquiet.mapped) hfollow.2.1
        hlegacy hfeatures refuses
      have hall := hfollow.1.trans hset.1
      exact ⟨hsound.negotiates hall _, hquiet.negotiates hall _, hset.2⟩
    · refine ⟨hsound.negotiates hfollow.1 _, hquiet.negotiates hfollow.1 _, fun _ => ?_⟩
      have hsame : (followStatusProtocol d.vio).registers.modern = d.vio.registers.modern := by
        rw [hfollow.1.same]
      refine ⟨?_, hfollow.2.1, ?_, ?_, hfollow.2.2.2.trans hn.written⟩
      · dsimp only
        rw [hfollow.1.readable]
        exact hn.acceptable
      · dsimp only
        rw [hsame]
        exact hn.modern
      · dsimp only
        rw [hfollow.2.2.1]
        exact hn.confirmed
  · cases status <;> first | exact absurd rfl hsuccess | exact ⟨hsound, hquiet, hnegotiated⟩

/-! ## The queues -/

/-- The queues and the event pool are there, and nobody has said so yet. -/
structure Started (d : AcxDevice) (kicks : List ℕ) : Prop where
  mapped : d.vio.mapped = true
  ready : d.queuesReady = true ∧ d.virtioReady = false
  memory : d.vio.queues = sndQueues ∧ d.eventPool = true
  queues : d.vio.registers.queues = sndQueues ∧ d.vio.registers.eventPool = true
  status : d.vio.registers.status &&& 0x87 = 3
  confirmed : isFeatureEnabled d.vio.registers.driverFeatures fVersion1 = true →
    d.vio.registers.status &&& sFeaturesOk ≠ 0
  early : d.vio.registers.earlyKicks = kicks

structure Destroyable (d : AcxDevice) : Prop where
  mapped : d.queuesReady = true → d.vio.mapped = true
  ready : d.virtioReady = true → d.queuesReady = true ∧
    d.vio.registers.status &&& sDriverOk ≠ 0
  memory : d.queuesReady = false → d.vio.queues = [] ∧ d.eventPool = false

private theorem Quiet.destroyable (h : Quiet d) : Destroyable d :=
  ⟨fun _ => h.mapped, fun hready => absurd hready (by simp [h.ready.2]), fun _ => h.memory⟩

private theorem Halted.destroyable (h : Halted d) : Destroyable d :=
  ⟨fun hready => absurd hready (by simp [h.ready.1]),
    fun hready => absurd hready (by simp [h.ready.2]), fun _ => h.memory⟩

private theorem ready_of_running (s : BitVec 8) (h : s &&& 0x87 = 7) : s &&& sDriverOk ≠ 0 := by
  decide +revert

private theorem Running.destroyable (h : Running d) : Destroyable d :=
  ⟨fun _ => h.mapped, fun _ => ⟨h.ready.1, ready_of_running _ h.status⟩,
    fun hready => absurd hready (by simp [h.ready.1])⟩

private theorem Started.destroyable {kicks : List ℕ} (h : Started d kicks) : Destroyable d :=
  ⟨fun _ => h.mapped, fun hready => absurd hready (by simp [h.ready.2]),
    fun hready => absurd hready (by simp [h.ready.1])⟩

private theorem not_ready_of_quiet (s : BitVec 8) (h : s &&& 0x84 = 0) : s &&& sDriverOk = 0 := by
  decide +revert

private theorem known_of_quiet (s : BitVec 8) (hquiet : s &&& 0x84 = 0) (hknown : s &&& 3 = 3) :
    s &&& 0x87 = 3 := by
  decide +revert

private theorem Quiet.not_live (h : Quiet d) : ¬d.vio.registers.Live := by
  intro hlive
  rcases hlive with hready | hkicked
  · exact hready (not_ready_of_quiet _ h.status)
  · exact hkicked h.early

private theorem findQueues_of_quiet (hsound : Sound d) (hquiet : Quiet d) (answer : QueueAnswer) :
    let r := virtioFindQueues answer d.vio
    Sound { d with
      vio := r.2 } ∧ (r.1 ≠ .success → Quiet { d with
      vio := r.2 }) ∧ (r.1 = .success → r.2 = { d.vio with
        registers := { d.vio.registers with
          queues := sndQueues }
        queues := sndQueues }) := by
  unfold virtioFindQueues
  cases answer with
  | all =>
      dsimp only
      rw [access_mapped hquiet.mapped]
      refine ⟨⟨hsound.noFault, hsound.features, hsound.rings, ?_, hsound.ledger⟩,
        fun h => absurd rfl h, fun _ => rfl⟩
      intro hlive
      exact absurd hlive hquiet.not_live
  | failed status count =>
      obtain ⟨queues, hdeleted⟩ := deleteQueues_of_idle (v := { d.vio with
        registers := { d.vio.registers with
          queues := sndQueues.take count }
        queues := sndQueues.take count }) hquiet.mapped hquiet.not_live
      dsimp only at hdeleted ⊢
      rw [access_mapped hquiet.mapped]
      dsimp only
      rw [hdeleted]
      refine ⟨⟨hsound.noFault, hsound.features, hsound.rings, ?_, hsound.ledger⟩,
        fun _ => ⟨hquiet.mapped, hquiet.status, ⟨rfl, hquiet.memory.2⟩, hquiet.ready,
          hquiet.early⟩, fun h => absurd h status.property⟩
      intro hlive
      exact absurd hlive hquiet.not_live

/-- The queues are there, and the driver does not know yet. -/
structure Queued (d : AcxDevice) : Prop where
  mapped : d.vio.mapped = true
  ready : d.queuesReady = false ∧ d.virtioReady = false
  memory : d.vio.queues = sndQueues ∧ d.eventPool = false
  queues : d.vio.registers.queues = sndQueues
  status : d.vio.registers.status &&& 0x87 = 3
  confirmed : isFeatureEnabled d.vio.registers.driverFeatures fVersion1 = true →
    d.vio.registers.status &&& sFeaturesOk ≠ 0
  early : d.vio.registers.earlyKicks = []

private theorem initQueues_sound (hsound : Sound d) (hquiet : Quiet d)
    (hnegotiated : Negotiated d.uFeatures d.vio) (a : PowerAnswers) :
    let r := virtIOWdfInitQueues a d
    Sound r.2 ∧ (r.1 ≠ .success → Quiet r.2) ∧ (r.1 = .success → Queued r.2) := by
  have hfinal := finalizeFeatures_sound hsound hquiet hnegotiated a.refusesFeatures
  unfold virtIOWdfInitQueues
  dsimp only at hfinal ⊢
  generalize virtIOWdfFinalizeFeatures a.refusesFeatures d = final at hfinal ⊢
  obtain ⟨status, d⟩ := final
  obtain ⟨hsound, hquiet, hnegotiated⟩ := hfinal
  by_cases hsuccess : status = .success
  · rw [hsuccess] at hnegotiated ⊢
    have hn := hnegotiated rfl
    dsimp only
    cases a.interrupts with
    | some failure =>
        exact ⟨hsound, fun _ => hquiet, fun h => absurd h failure.property⟩
    | none =>
        have hfind := findQueues_of_quiet hsound hquiet a.queues
        refine ⟨hfind.1, hfind.2.1, fun hfound => ?_⟩
        have hqueues := hfind.2.2 hfound
        dsimp only at hqueues ⊢
        rw [hqueues]
        refine ⟨hquiet.mapped, hquiet.ready, ⟨rfl, hquiet.memory.2⟩, rfl,
          known_of_quiet _ hquiet.status hn.known, ?_, hquiet.early⟩
        intro hversion
        dsimp only at hversion ⊢
        rw [hn.written] at hversion
        exact hn.confirmed hversion
  · cases status <;> first
      | exact absurd rfl hsuccess
      | exact ⟨hsound, fun _ => hquiet, fun h => absurd h hsuccess⟩

private theorem not_ready_of_known (s : BitVec 8) (h : s &&& 0x87 = 3) : s &&& sDriverOk = 0 := by
  decide +revert

/-- The event queue is the first that the device is notified of. -/
private theorem initializeEventQueue_sound (hsound : Sound d) (hqueued : Queued d)
    (a : PowerAnswers) :
    let r := initializeEventQueue a { d with
      queuesReady := true }
    Sound r.2 ∧ Destroyable r.2 ∧ r.2.virtioReady = false ∧ r.2.vio.mapped = true ∧
      (r.1 = .success → Started r.2 [eventQueue]) := by
  have hcontains : d.vio.queues.contains eventQueue = true := by
    rw [hqueued.memory.1]
    rfl
  have hunready := not_ready_of_known _ hqueued.status
  have hidle : ¬d.vio.registers.Live := by
    intro hlive
    exact hlive.elim (fun h => h hunready) fun h => h hqueued.early
  unfold initializeEventQueue
  dsimp only
  rw [hcontains, if_neg Bool.true_eq_false.mp]
  split
  · refine ⟨⟨hsound.noFault, hsound.features, hsound.rings, fun h => absurd h hidle,
      hsound.ledger⟩, ?_, hqueued.ready.2, hqueued.mapped, fun h => by cases h⟩
    exact ⟨fun _ => hqueued.mapped, fun h => absurd h (by simp [hqueued.ready.2]),
      fun h => by cases h⟩
  · cases a.eventPosts with
    | some failure =>
        refine ⟨⟨hsound.noFault, hsound.features, hsound.rings, fun h => absurd h hidle,
          hsound.ledger⟩, ?_, hqueued.ready.2, hqueued.mapped, fun h => absurd h failure.property⟩
        exact ⟨fun _ => hqueued.mapped, fun h => absurd h (by simp [hqueued.ready.2]),
      fun h => by cases h⟩
    | none =>
        dsimp only
        rw [notify_unready (by exact hqueued.mapped) (by exact hunready)]
        have hstarted : Started { d with
            queuesReady := true
            eventPool := true
            vio := { d.vio with
              registers := { d.vio.registers with
                eventPool := true
                earlyKicks := d.vio.registers.earlyKicks ++ [eventQueue] } } } [eventQueue] := by
          refine ⟨hqueued.mapped, ⟨rfl, hqueued.ready.2⟩, ⟨hqueued.memory.1, rfl⟩,
            ⟨hqueued.queues, rfl⟩, hqueued.status, hqueued.confirmed, ?_⟩
          dsimp only
          rw [hqueued.early]
          rfl
        refine ⟨⟨hsound.noFault, hsound.features, hsound.rings, fun _ => ?_, hsound.ledger⟩,
          hstarted.destroyable, hqueued.ready.2, hqueued.mapped, fun _ => hstarted⟩
        refine ⟨?_, fun _ => rfl⟩
        dsimp only
        rw [hqueued.queues, hqueued.memory.1]
        exact List.Subset.refl _

private theorem initializeVirtio_sound (hsound : Sound d) (hfresh : Fresh d) (a : PowerAnswers) :
    let r := viosndAcxInitializeVirtio a d
    Sound r.2 ∧ Destroyable r.2 ∧ r.2.virtioReady = false ∧ r.2.vio.mapped = true ∧
      (r.1 = .success → Started r.2 [eventQueue]) := by
  have hquiet := hfresh.toQuiet
  have hprivate : Acceptable (if isFeatureEnabled d.vio.registers.features fVersion1 then
      featureEnable 0 fVersion1 else 0) d.vio.registers.features :=
    (acceptable_zero _).enable (by simp [fVersion1])
  have hset := setDriverFeatures_sound hsound hquiet (fun _ => hfresh.features) hprivate
    a.refusesFeatures 0
  unfold viosndAcxInitializeVirtio
  rw [access_id hquiet.mapped]
  dsimp only at hset ⊢
  generalize virtIOWdfSetDriverFeatures a.refusesFeatures _ 0 d = first at hset ⊢
  obtain ⟨status, d₁⟩ := first
  obtain ⟨hsound₁, hquiet₁, hnegotiated⟩ := hset
  have hfailed : ∀ (status : NtStatus) (d' : AcxDevice), status ≠ .success → Sound d' →
      Quiet d' → Sound d' ∧ Destroyable d' ∧ d'.virtioReady = false ∧ d'.vio.mapped = true ∧
        (status = .success → Started d' [eventQueue]) :=
    fun _ _ hstatus hs hq => ⟨hs, hq.destroyable, hq.ready.2, hq.mapped, fun h => absurd h hstatus⟩
  by_cases hsuccess : status = .success
  · rw [hsuccess] at hnegotiated ⊢
    have hinit := initQueues_sound hsound₁ hquiet₁ (hnegotiated rfl) a
    dsimp only at hinit ⊢
    generalize virtIOWdfInitQueues a d₁ = second at hinit ⊢
    obtain ⟨status₂, d₂⟩ := second
    obtain ⟨hsound₂, hquiet₂, hqueued⟩ := hinit
    by_cases hsuccess₂ : status₂ = .success
    · rw [hsuccess₂] at hqueued ⊢
      dsimp only
      rw [access_id (hqueued rfl).mapped]
      exact initializeEventQueue_sound hsound₂ (hqueued rfl) a
    · have hall := hfailed status₂ d₂ hsuccess₂ hsound₂ (hquiet₂ hsuccess₂)
      cases status₂ <;> first
        | exact absurd rfl hsuccess₂
        | exact hall
  · have hall := hfailed status d₁ hsuccess hsound₁ hquiet₁
    cases status <;> first
      | exact absurd rfl hsuccess
      | exact hall

/-- The control queue is the second. -/
private theorem queryPcmStreams_sound (hsound : Sound d) (hstarted : Started d [eventQueue])
    (a : QueryAnswer) :
    let r := queryPcmStreams a d
    Sound r.2 ∧ Destroyable r.2 ∧ r.2.virtioReady = false ∧ r.2.vio.mapped = true ∧
      (r.1 = .success → Started r.2 [eventQueue, controlQueue]) := by
  have hfailed : ∀ status : NtStatus, status ≠ .success → Sound d ∧ Destroyable d ∧
      d.virtioReady = false ∧ d.vio.mapped = true ∧
      (status = .success → Started d [eventQueue, controlQueue]) :=
    fun _ hstatus => ⟨hsound, hstarted.destroyable, hstarted.ready.2, hstarted.mapped,
      fun h => absurd h hstatus⟩
  unfold queryPcmStreams
  cases a with
  | noStreams => exact hfailed _ (by simp)
  | noMemory => exact hfailed _ (by simp)
  | busy => exact hfailed _ (by simp)
  | answered control found =>
      dsimp only
      rw [notify_unready hstarted.mapped (not_ready_of_known _ hstarted.status)]
      have hnotified : ∀ streams : StreamPair, Started { d with
          vio := { d.vio with
            registers := { d.vio.registers with
              earlyKicks := d.vio.registers.earlyKicks ++ [controlQueue] } }
          streams := streams } [eventQueue, controlQueue] := by
        intro streams
        refine ⟨hstarted.mapped, hstarted.ready, hstarted.memory, hstarted.queues,
          hstarted.status, hstarted.confirmed, ?_⟩
        dsimp only
        rw [hstarted.early]
        rfl
      have hkept : ∀ streams : StreamPair, Sound { d with
          vio := { d.vio with
            registers := { d.vio.registers with
              earlyKicks := d.vio.registers.earlyKicks ++ [controlQueue] } }
          streams := streams } := by
        intro streams
        refine ⟨hsound.noFault, hsound.features, hsound.rings, fun _ => ?_, hsound.ledger⟩
        refine ⟨?_, fun _ => hstarted.memory.2⟩
        dsimp only
        rw [hstarted.queues.1, hstarted.memory.1]
        exact List.Subset.refl _
      split
      · exact ⟨hkept d.streams, (hnotified d.streams).destroyable, hstarted.ready.2,
          hstarted.mapped, fun h => absurd h ‹_›⟩
      · exact ⟨hkept found.2, (hnotified found.2).destroyable, hstarted.ready.2,
          hstarted.mapped, fun _ => hnotified found.2⟩

private theorem addStaticCircuits_frame (a : CircuitAnswers) (d : AcxDevice) :
    ∃ render capture, (addStaticCircuits a d).2 = { d with
      renderCircuitAdded := render
      captureCircuitAdded := capture } := by
  unfold addStaticCircuits
  dsimp only
  split
  · rename_i d' hadded
    have hrender : ∃ render, d' = { d with
        renderCircuitAdded := render } := by
      split at hadded
      · split at hadded
        · rename_i failure _
          exact absurd (congrArg Prod.fst hadded) failure.property
        · exact ⟨true, (congrArg Prod.snd hadded).symm⟩
      · exact ⟨d.renderCircuitAdded, (congrArg Prod.snd hadded).symm⟩
    obtain ⟨render, rfl⟩ := hrender
    split
    · split
      · exact ⟨render, d.captureCircuitAdded, rfl⟩
      · exact ⟨render, true, rfl⟩
    · exact ⟨render, d.captureCircuitAdded, rfl⟩
  · split
    · split
      · exact ⟨d.renderCircuitAdded, d.captureCircuitAdded, rfl⟩
      · exact ⟨true, d.captureCircuitAdded, rfl⟩
    · exact ⟨d.renderCircuitAdded, d.captureCircuitAdded, rfl⟩

private theorem ready_status (s : BitVec 8) (h : s &&& 0x87 = 3) :
    (s ||| sDriverOk) &&& 0x87 = 7 := by
  decide +revert

private theorem setDriverOk_sound (hsound : Sound d)
    (hstarted : Started d [eventQueue, controlQueue]) :
    Sound (setDriverOk d) ∧ Running (setDriverOk d) := by
  have hunready := not_ready_of_known _ hstarted.status
  unfold setDriverOk virtioDeviceReady
  rw [access_id hstarted.mapped]
  dsimp only
  rw [check_of_good (by simp [hunready]), access_mapped hstarted.mapped]
  refine ⟨⟨hsound.noFault, hsound.features, hsound.rings, fun _ => ?_, hsound.ledger⟩, ?_⟩
  · refine ⟨?_, fun _ => hstarted.memory.2⟩
    dsimp only [Registers.setStatus]
    rw [hstarted.queues.1, hstarted.memory.1]
    exact List.Subset.refl _
  · refine ⟨hstarted.mapped, ⟨hstarted.ready.1, rfl⟩, hstarted.memory, hstarted.queues,
      ready_status _ hstarted.status, fun hversion => ?_, hstarted.early⟩
    have hflag : (d.vio.registers.status ||| sDriverOk) &&& sFeaturesOk =
        d.vio.registers.status &&& sFeaturesOk := or_and_of_disjoint _ rfl
    dsimp only [Registers.setStatus]
    rw [if_neg Bool.false_ne_true, hflag]
    exact hstarted.confirmed hversion

/-! ## Letting go -/

private theorem notifyAll_ready (hmapped : v.mapped = true)
    (hready : v.registers.status &&& sDriverOk ≠ 0) (kicks : List ℕ) :
    kicks.foldl (fun v queue => virtqueueNotify queue v) v = v := by
  induction kicks with
  | nil => rfl
  | cons queue kicks ih => rw [List.foldl_cons, notify_ready hmapped hready, ih]

private theorem stopWhenReady_eq (hdestroyable : Destroyable d) (kicks : List ℕ) :
    stopWhenReady kicks d = { d with
      virtioReady := false } := by
  unfold stopWhenReady
  split
  · rename_i hready
    obtain ⟨hqueues, hok⟩ := hdestroyable.ready hready
    unfold stopStreams
    rw [notifyAll_ready (hdestroyable.mapped hqueues) hok]
  · rename_i hready
    rw [← Bool.eq_false_of_not_eq_true hready]

private theorem not_live_reset (r : Registers) : ¬r.reset.Live := by
  intro hlive
  exact hlive.elim (fun h => h BitVec.zero_and) fun h => h rfl

private theorem destroyQueues_eq (hmapped : d.vio.mapped = true) :
    ∃ queues, destroyQueues d = { d with
      vio := { d.vio with
        registers := { d.vio.registers.reset with
          queues := queues }
        queues := [] }
      queuesReady := false } := by
  unfold destroyQueues virtioDeviceReset
  rw [access_mapped hmapped]
  obtain ⟨queues, hdeleted⟩ := deleteQueues_of_idle (v := { d.vio with
    registers := d.vio.registers.reset }) hmapped (not_live_reset _)
  exact ⟨queues, by rw [hdeleted]⟩

private theorem freeEventBuffers_eq (hidle : d.eventPool = true → ¬d.vio.registers.Live) :
    freeEventBuffers d = { d with
      eventPool := false } := by
  unfold freeEventBuffers
  split
  · rename_i hpool
    rw [check_of_good (by simp [hidle hpool])]
  · rename_i hpool
    rw [← Bool.eq_false_of_not_eq_true hpool]

/-- Whatever a callback got done, the device can be let go of. -/
private theorem destroyDevice_sound (hsound : Sound d) (hdestroyable : Destroyable d)
    (kicks : List ℕ) :
    Sound (viosndAcxDestroyDevice kicks d) ∧ Released (viosndAcxDestroyDevice kicks d) := by
  have hledger : d.barsAllocated = d.barsFreed + d.bars + 0 + d.unknownResources := hsound.ledger
  unfold viosndAcxDestroyDevice
  rw [stopWhenReady_eq hdestroyable]
  dsimp only
  split
  · rename_i hqueues
    obtain ⟨queues, hdestroyed⟩ := destroyQueues_eq (d := { d with
      virtioReady := false }) (hdestroyable.mapped hqueues)
    have hidle : ¬({ d.vio.registers.reset with
        queues := queues } : Registers).Live := not_live_reset d.vio.registers
    rw [hdestroyed, freeEventBuffers_eq fun _ => hidle]
    refine ⟨⟨hsound.noFault, ?_, hsound.rings, fun h => absurd h hidle, hledger⟩,
      ⟨⟨rfl, ⟨rfl, rfl⟩, rfl, rfl⟩, rfl⟩⟩
    intro i hi
    cases hi.symm.trans BitVec.getLsbD_zero
  · rename_i hqueues
    have hnone := hdestroyable.memory (Bool.eq_false_of_not_eq_true hqueues)
    rw [freeEventBuffers_eq fun h => by simp [hnone.2] at h]
    refine ⟨⟨hsound.noFault, hsound.features, hsound.rings, fun h => ?_, hledger⟩,
      ⟨⟨rfl, ⟨hnone.1, rfl⟩, Bool.eq_false_of_not_eq_true hqueues, rfl⟩, rfl⟩⟩
    have hreach := hsound.reach h
    rw [hnone.2] at hreach
    exact hreach

private theorem giveUp_sound (hsound : Sound d) (hdestroyable : Destroyable d)
    (hready : d.virtioReady = false) (hmapped : d.vio.mapped = true) :
    Sound (giveUp d) ∧ Released (giveUp d) := by
  unfold giveUp virtioAddStatus
  rw [access_mapped hmapped]
  have hlive : (d.vio.registers.setStatus false (d.vio.registers.status ||| sFailed)).Live ↔
      d.vio.registers.Live := live_congr (or_and_of_disjoint _ rfl) rfl
  apply destroyDevice_sound
  · exact ⟨hsound.noFault, hsound.features, hsound.rings, fun h => hsound.reach (hlive.mp h),
      hsound.ledger⟩
  · exact ⟨hdestroyable.mapped, fun h => absurd h (by simp [hready]), hdestroyable.memory⟩

private theorem d0Exit_sound (hsound : Sound d) (hrunning : Running d) (kicks : List ℕ) :
    Sound (viosndEvtDeviceD0Exit kicks d) ∧ Fresh (viosndEvtDeviceD0Exit kicks d) := by
  unfold viosndEvtDeviceD0Exit
  rw [stopWhenReady_eq hrunning.destroyable]
  dsimp only
  rw [if_pos hrunning.ready.1]
  obtain ⟨queues, hdestroyed⟩ := destroyQueues_eq (d := { d with
    virtioReady := false }) hrunning.mapped
  have hidle : ¬({ d.vio.registers.reset with
      queues := queues } : Registers).Live := not_live_reset d.vio.registers
  rw [hdestroyed, freeEventBuffers_eq fun _ => hidle]
  refine ⟨⟨hsound.noFault, ?_, hsound.rings, fun h => absurd h hidle, hsound.ledger⟩,
    ⟨⟨hrunning.mapped, BitVec.zero_and, ⟨rfl, rfl⟩, ⟨rfl, rfl⟩, rfl⟩, BitVec.zero_and⟩⟩
  intro i hi
  cases hi.symm.trans BitVec.getLsbD_zero

/-! ## The hardware -/

private theorem pciAllocBars_ledger (resources : List BarAnswer) (hmapped : d.vio.mapped = false)
    (hledger : d.barsAllocated = d.barsFreed + d.bars + d.unknownResources) :
    ∃ bars allocated freed unknown, allocated = freed + bars + unknown ∧
      (pciAllocBars resources d).2 = { d with
        bars := bars
        barsAllocated := allocated
        barsFreed := freed
        unknownResources := unknown } := by
  induction resources generalizing d with
  | nil => exact ⟨d.bars, d.barsAllocated, d.barsFreed, d.unknownResources, hledger, rfl⟩
  | cons answer rest ih =>
      cases answer with
      | granted =>
          apply ih (d := { d with
            bars := d.bars + 1
            barsAllocated := d.barsAllocated + 1 }) hmapped
          dsimp only
          omega
      | noMemory =>
          refine ⟨0, d.barsAllocated, d.barsFreed + d.bars, d.unknownResources, by omega, ?_⟩
          unfold pciAllocBars pciFreeBars
          rw [← hmapped]
      | unknown =>
          refine ⟨0, d.barsAllocated + 1, d.barsFreed + d.bars, d.unknownResources + 1,
            by omega, ?_⟩
          unfold pciAllocBars pciFreeBars
          rw [← hmapped]

private theorem deviceInitialize_success (v : VioDevice) :
    virtioDeviceInitialize .success v = (.success, { v with
      registers := { v.registers.reset with
        status := 3 }
      mapped := true
      packedRing := false
      eventSuppression := false
      queues := [] }) := by
  simp [virtioDeviceInitialize, virtioDeviceReset, virtioAddStatus, VioDevice.access,
    Registers.setStatus, Registers.reset, sAcknowledge, sDriver]

private theorem freeBars_sound (hsound : Sound d)
    (hmemory : d.vio.queues = [] ∧ d.eventPool = false)
    (hready : d.queuesReady = false ∧ d.virtioReady = false) :
    Sound (pciFreeBars d) ∧ Halted (pciFreeBars d) := by
  have hledger : d.barsAllocated = d.barsFreed + d.bars + 0 + d.unknownResources := hsound.ledger
  exact ⟨⟨hsound.noFault, hsound.features, hsound.rings, hsound.reach, hledger⟩,
    ⟨rfl, hmemory, hready⟩⟩

private theorem deviceInitialize_fresh (hsound : Sound d) (hhalted : Halted d) :
    let d' := { d with
      vio := (virtioDeviceInitialize .success d.vio).2 }
    Sound d' ∧ Fresh d' := by
  rw [deviceInitialize_success]
  refine ⟨⟨hsound.noFault, ?_, ⟨rfl, rfl⟩, ?_, hsound.ledger⟩,
    ⟨⟨rfl, show 3#8 &&& 0x84 = 0 by decide, ⟨rfl, hhalted.memory.2⟩, hhalted.ready, rfl⟩,
      show 3#8 &&& sFeaturesOk = 0 by decide⟩⟩
  · intro i hi
    cases hi.symm.trans BitVec.getLsbD_zero
  · intro hlive
    exact (hlive.elim (fun h => h (show 3#8 &&& sDriverOk = 0 by decide)) fun h => h rfl).elim

private theorem initialize_sound (hsound : Sound d) (hreleased : Released d) (a : HardwareAnswers) :
    let r := virtIOWdfInitialize a d
    Sound r.2 ∧ (r.1 = .success → Fresh r.2) ∧ (r.1 ≠ .success → Halted r.2) := by
  have hcheck : d.vio.check .lostMemory (d.bars == 0 && d.vio.queues == []) = d.vio := by
    rw [check_of_good (by simp [hreleased.bars, hreleased.memory.1])]
  have hreach := hsound.reach
  rw [hreleased.memory.1] at hreach
  have hledger := hsound.ledger
  rw [hreleased.bars] at hledger
  unfold virtIOWdfInitialize
  rw [hcheck]
  dsimp only
  -- whatever becomes of the descriptors, the device is sound and without the driver
  have hzeroed : ∀ bars allocated freed unknown : ℕ, allocated = freed + bars + unknown →
      let d' := { d with
        vio := { d.vio with
          mapped := false
          packedRing := false
          eventSuppression := false
          queues := [] }
        bars := bars
        barsAllocated := allocated
        barsFreed := freed
        unknownResources := unknown
        uFeatures := 0 }
      Sound d' ∧ Halted d' := by
    intro bars allocated freed unknown hsum
    exact ⟨⟨hsound.noFault, hsound.features, ⟨rfl, rfl⟩, hreach, hsum⟩,
      ⟨rfl, ⟨rfl, hreleased.memory.2⟩, hreleased.ready⟩⟩
  have hfailed : ∀ (failure : Failure) (d' : AcxDevice), Sound d' ∧ Halted d' → Sound d' ∧
      (failure.val = .success → Fresh d') ∧ (failure.val ≠ .success → Halted d') :=
    fun failure _ h => ⟨h.1, fun hs => absurd hs failure.property, fun _ => h.2⟩
  cases a.bus with
  | some failure => exact hfailed failure _ (hzeroed _ _ _ _ hledger)
  | none =>
      cases a.interrupt with
      | some failure => exact hfailed failure _ (hzeroed _ _ _ _ hledger)
      | none =>
          cases a.header with
          | some failure => exact hfailed failure _ (hzeroed _ _ _ _ hledger)
          | none =>
              dsimp only
              obtain ⟨bars, allocated, freed, unknown, hsum, hallocated⟩ :=
                pciAllocBars_ledger a.resources (d := { d with
                  vio := { d.vio with
                    mapped := false
                    packedRing := false
                    eventSuppression := false
                    queues := [] }
                  bars := 0
                  uFeatures := 0 }) rfl hledger
              dsimp only at hallocated
              generalize pciAllocBars a.resources _ = allocation at hallocated ⊢
              obtain ⟨status, d₁⟩ := allocation
              dsimp only at hallocated
              rw [hallocated]
              have hgranted := hzeroed bars allocated freed unknown hsum
              by_cases hsuccess : status = .success
              · rw [hsuccess]
                dsimp only
                cases a.objects with
                | some failure => exact hfailed failure _ hgranted
                | none =>
                    by_cases htransport : a.transport = .success
                    · have hfresh := deviceInitialize_fresh hgranted.1 hgranted.2
                      have hmapped := hfresh.2.mapped
                      rw [htransport]
                      rw [deviceInitialize_success] at hfresh hmapped ⊢
                      dsimp only at hfresh hmapped ⊢
                      rw [access_id hmapped]
                      cases a.iommu with
                      | some failure =>
                          exact hfailed failure _
                            (freeBars_sound hfresh.1 hfresh.2.memory hfresh.2.ready)
                      | none => exact ⟨hfresh.1, fun _ => hfresh.2, fun h => absurd rfl h⟩
                    · have hfreed := hfailed ⟨_, htransport⟩ _
                        (freeBars_sound hgranted.1 hgranted.2.memory hgranted.2.ready)
                      unfold virtioDeviceInitialize
                      rw [if_neg htransport]
                      generalize a.transport = status at htransport hfreed
                      cases status <;> first
                        | exact absurd rfl htransport
                        | exact hfreed
              · cases status <;> first
                  | exact absurd rfl hsuccess
                  | exact hfailed ⟨_, hsuccess⟩ _ hgranted

/-! ## The callbacks -/

structure BroughtUp (r : NtStatus × AcxDevice) : Prop where
  sound : Sound r.2
  running : r.1 = .success → Running r.2
  halted : r.1 ≠ .success → Halted r.2

private theorem giveUp_broughtUp {status : NtStatus} (hstatus : status ≠ .success)
    (hsound : Sound d) (hdestroyable : Destroyable d) (hready : d.virtioReady = false)
    (hmapped : d.vio.mapped = true) : BroughtUp (status, giveUp d) := by
  have hgiven := giveUp_sound hsound hdestroyable hready hmapped
  exact ⟨hgiven.1, fun hsuccess => absurd hsuccess hstatus, fun _ => hgiven.2.toHalted⟩

/-- The two callbacks bring the device up in the same way, and differ in what comes last. -/
private theorem bringUp_sound (hsound : Sound d) (hfresh : Fresh d) (p : PowerAnswers)
    {last : AcxDevice → NtStatus × AcxDevice}
    (hlast : ∀ d, Sound d → Started d [eventQueue, controlQueue] → BroughtUp (last d)) :
    BroughtUp (match viosndAcxInitializeVirtio p d with
      | (.success, d) =>
          match queryPcmStreams p.query d with
          | (.success, d) => last d
          | (status, d) => (status, giveUp d)
      | (status, d) => (status, giveUp d)) := by
  have hvirtio := initializeVirtio_sound hsound hfresh p
  dsimp only at hvirtio
  generalize viosndAcxInitializeVirtio p d = first at hvirtio ⊢
  obtain ⟨status, d₁⟩ := first
  obtain ⟨hsound₁, hdestroyable₁, hready₁, hmapped₁, hstarted⟩ := hvirtio
  by_cases hsuccess : status = .success
  · rw [hsuccess] at hstarted ⊢
    have hquery := queryPcmStreams_sound hsound₁ (hstarted rfl) p.query
    dsimp only at hquery ⊢
    generalize queryPcmStreams p.query d₁ = second at hquery ⊢
    obtain ⟨status₂, d₂⟩ := second
    obtain ⟨hsound₂, hdestroyable₂, hready₂, hmapped₂, hknown⟩ := hquery
    by_cases hsuccess₂ : status₂ = .success
    · rw [hsuccess₂] at hknown ⊢
      exact hlast d₂ hsound₂ (hknown rfl)
    · have hgiven := giveUp_broughtUp hsuccess₂ hsound₂ hdestroyable₂ hready₂ hmapped₂
      cases status₂ <;> first
        | exact absurd rfl hsuccess₂
        | exact hgiven
  · have hgiven := giveUp_broughtUp hsuccess hsound₁ hdestroyable₁ hready₁ hmapped₁
    cases status <;> first
      | exact absurd rfl hsuccess
      | exact hgiven

private theorem setDriverOk_broughtUp (hsound : Sound d)
    (hstarted : Started d [eventQueue, controlQueue]) : BroughtUp (.success, setDriverOk d) :=
  ⟨(setDriverOk_sound hsound hstarted).1, fun _ => (setDriverOk_sound hsound hstarted).2,
    fun h => absurd rfl h⟩

private theorem d0Entry_sound (hsound : Sound d) (hfresh : Fresh d) (p : PowerAnswers) :
    BroughtUp (viosndEvtDeviceD0Entry p d) := by
  unfold viosndEvtDeviceD0Entry
  rw [if_neg (by simp [hfresh.ready.1])]
  exact bringUp_sound hsound hfresh p fun _ hs hstarted => setDriverOk_broughtUp hs hstarted

/-- A circuit that cannot be added costs the device. -/
private theorem addCircuits_broughtUp (add remove : CircuitAnswers) (hsound : Sound d)
    (hstarted : Started d [eventQueue, controlQueue]) :
    BroughtUp (match addStaticCircuits add d with
      | (.success, d) => (.success, setDriverOk d)
      | (status, d) => (status, giveUp (removeStaticCircuits remove d))) := by
  obtain ⟨render, capture, hframe⟩ := addStaticCircuits_frame add d
  generalize addStaticCircuits add d = added at hframe ⊢
  obtain ⟨status, d'⟩ := added
  dsimp only at hframe
  rw [hframe]
  by_cases hsuccess : status = .success
  · rw [hsuccess]
    apply setDriverOk_broughtUp
    · exact ⟨hsound.noFault, hsound.features, hsound.rings, hsound.reach, hsound.ledger⟩
    · exact ⟨hstarted.mapped, hstarted.ready, hstarted.memory, hstarted.queues, hstarted.status,
        hstarted.confirmed, hstarted.early⟩
  · have hgiven : BroughtUp (status, giveUp (removeStaticCircuits remove { d with
        renderCircuitAdded := render
        captureCircuitAdded := capture })) := by
      have hdestroyable := hstarted.destroyable
      apply giveUp_broughtUp hsuccess
      · exact ⟨hsound.noFault, hsound.features, hsound.rings, hsound.reach, hsound.ledger⟩
      · exact ⟨hdestroyable.mapped, hdestroyable.ready, hdestroyable.memory⟩
      · exact hstarted.ready.2
      · exact hstarted.mapped
    cases status <;> first
      | exact absurd rfl hsuccess
      | exact hgiven

private theorem prepareHardware_sound (hsound : Sound d) (hreleased : Released d)
    (h : HardwareAnswers) (p : PowerAnswers) (add remove : CircuitAnswers) :
    BroughtUp (viosndEvtDevicePrepareHardware h p add remove d) := by
  have hinit := initialize_sound hsound hreleased h
  unfold viosndEvtDevicePrepareHardware
  dsimp only at hinit ⊢
  generalize virtIOWdfInitialize h d = r at hinit ⊢
  obtain ⟨status, d₁⟩ := r
  obtain ⟨hsound₁, hfresh, hhalted⟩ := hinit
  by_cases hsuccess : status = .success
  · rw [hsuccess] at hfresh ⊢
    exact bringUp_sound hsound₁ (hfresh rfl) p
      fun _ hs hstarted => addCircuits_broughtUp add remove hs hstarted
  · cases status <;> first
      | exact absurd rfl hsuccess
      | exact ⟨hsound₁, fun h => absurd h hsuccess, hhalted⟩

private theorem releaseHardware_sound (hsound : Sound d) (hdestroyable : Destroyable d)
    (remove : CircuitAnswers) (kicks : List ℕ) :
    Sound (viosndEvtDeviceReleaseHardware remove kicks d) ∧
      Released (viosndEvtDeviceReleaseHardware remove kicks d) := by
  apply destroyDevice_sound
  · exact ⟨hsound.noFault, hsound.features, hsound.rings, hsound.reach, hsound.ledger⟩
  · exact ⟨hdestroyable.mapped, hdestroyable.ready, hdestroyable.memory⟩

private theorem interrupt_eq (hready : d.virtioReady = true → Running d) (kicks : List ℕ) :
    interrupt kicks d = d := by
  unfold interrupt
  split
  · rename_i hserved
    have hrunning := hready hserved
    unfold stopStreams
    dsimp only
    rw [access_id hrunning.mapped, notifyAll_ready hrunning.mapped
      (ready_of_running _ hrunning.status)]
  · rfl

end

/-! ## Whole runs -/

section

variable {w w' : AcxWorld}

def Phase.Holds : Phase → AcxDevice → Prop
  | .noHardware, d => Released d
  | .poweredDown, d => Running d ∨ Fresh d
  | .poweredUp, d => Running d
  | .failed, d => Halted d

structure AcxKept (w : AcxWorld) : Prop where
  sound : Sound w.device
  phase : w.phase.Holds w.device

theorem Phase.Holds.running {phase : Phase} {d : AcxDevice} (h : phase.Holds d)
    (hready : d.virtioReady = true) : Running d := by
  cases phase with
  | noHardware => exact absurd hready (by simp [(show Released d from h).ready.2])
  | poweredDown =>
      rcases h with hrunning | hfresh
      · exact hrunning
      · exact absurd hready (by simp [hfresh.ready.2])
  | poweredUp => exact h
  | failed => exact absurd hready (by simp [(show Halted d from h).ready.2])

theorem BroughtUp.kept {r : NtStatus × AcxDevice} (h : BroughtUp r) {up : Phase}
    (hup : ∀ d, Running d → up.Holds d) :
    AcxKept ⟨r.2, if r.1 = .success then up else .failed⟩ := by
  refine ⟨h.sound, ?_⟩
  dsimp only
  split
  · exact hup _ (h.running ‹_›)
  · exact h.halted ‹_›

private theorem added_kept (modern : Bool) (offered : BitVec 64) (status : BitVec 8) :
    AcxKept (AcxWorld.added modern offered status) := by
  refine ⟨⟨rfl, ?_, ⟨rfl, rfl⟩, fun _ => ⟨List.Subset.refl _, fun h => by cases h⟩, rfl⟩,
    ⟨⟨rfl, ⟨rfl, rfl⟩, rfl, rfl⟩, rfl⟩⟩
  intro i hi
  cases hi.symm.trans BitVec.getLsbD_zero

private theorem needsReset_sound {d : AcxDevice} (hsound : Sound d) {phase : Phase}
    (hphase : phase.Holds d) :
    let d' := { d with
      vio := { d.vio with
        registers := { d.vio.registers with
          status := d.vio.registers.status ||| sNeedsReset } } }
    Sound d' ∧ phase.Holds d' := by
  have hflag : ∀ flag : BitVec 8, sNeedsReset &&& flag = 0#8 →
      (d.vio.registers.status ||| sNeedsReset) &&& flag = d.vio.registers.status &&& flag :=
    fun flag h => or_and_of_disjoint _ h
  have hlive : ({ d.vio.registers with
      status := d.vio.registers.status ||| sNeedsReset } : Registers).Live ↔
      d.vio.registers.Live := live_congr (hflag sDriverOk rfl) rfl
  have hrunning : ∀ h : Running d, Running { d with
      vio := { d.vio with
        registers := { d.vio.registers with
          status := d.vio.registers.status ||| sNeedsReset } } } := by
    intro h
    refine ⟨h.mapped, h.ready, h.memory, h.queues, (hflag 0x87 rfl).trans h.status, ?_, h.early⟩
    intro hversion
    dsimp only
    rw [hflag sFeaturesOk rfl]
    exact h.confirmed hversion
  refine ⟨⟨hsound.noFault, hsound.features, hsound.rings, fun h => hsound.reach (hlive.mp h),
    hsound.ledger⟩, ?_⟩
  cases phase with
  | noHardware =>
      have h : Released d := hphase
      exact ⟨⟨h.mapped, h.memory, h.ready⟩, h.bars⟩
  | poweredDown =>
      rcases hphase with h | h
      · exact Or.inl (hrunning h)
      · exact Or.inr ⟨⟨h.mapped, (hflag 0x84 rfl).trans h.status, h.memory, h.ready, h.early⟩,
          (hflag sFeaturesOk rfl).trans h.features⟩
  | poweredUp => exact hrunning hphase
  | failed =>
      have h : Halted d := hphase
      exact ⟨h.mapped, h.memory, h.ready⟩

theorem step_kept (input : AcxInput) (h : AcxKept w) : AcxKept (w.step input) := by
  obtain ⟨d, phase⟩ := w
  obtain ⟨hsound, hphase⟩ := h
  unfold AcxWorld.step
  cases input with
  | prepareHardware hardware power add remove =>
      dsimp only at hsound hphase ⊢
      split
      · rename_i hnone
        subst hnone
        exact (prepareHardware_sound hsound hphase hardware power add remove).kept
          fun _ hrunning => Or.inl hrunning
      · exact ⟨hsound, hphase⟩
  | releaseHardware remove kicks =>
      dsimp only at hsound hphase ⊢
      split
      · rename_i hdown
        have hdestroyable : Destroyable d := by
          rcases hdown with hdown | hfailed
          · subst hdown
            exact hphase.elim Running.destroyable fun h => h.toQuiet.destroyable
          · subst hfailed
            exact Halted.destroyable hphase
        have hreleased := releaseHardware_sound hsound hdestroyable remove kicks
        exact ⟨hreleased.1, hreleased.2⟩
      · exact ⟨hsound, hphase⟩
  | d0Entry power =>
      dsimp only at hsound hphase ⊢
      split
      · rename_i hdown
        subst hdown
        have hup : BroughtUp (viosndEvtDeviceD0Entry power d) := by
          rcases hphase with hrunning | hfresh
          · unfold viosndEvtDeviceD0Entry
            rw [if_pos hrunning.ready.1]
            exact ⟨hsound, fun _ => hrunning, fun h => absurd rfl h⟩
          · exact d0Entry_sound hsound hfresh power
        exact hup.kept fun _ hrunning => hrunning
      · exact ⟨hsound, hphase⟩
  | d0Exit kicks =>
      dsimp only at hsound hphase ⊢
      split
      · rename_i hup
        subst hup
        have hexit := d0Exit_sound hsound hphase kicks
        exact ⟨hexit.1, Or.inr hexit.2⟩
      · exact ⟨hsound, hphase⟩
  | interrupt kicks =>
      dsimp only at hsound hphase ⊢
      rw [interrupt_eq hphase.running]
      exact ⟨hsound, hphase⟩
  | needsReset =>
      have hset := needsReset_sound hsound hphase
      exact ⟨hset.1, hset.2⟩

private theorem run_kept (inputs : List AcxInput) (h : AcxKept w) :
    AcxKept (inputs.foldl AcxWorld.step w) := by
  induction inputs generalizing w with
  | nil => exact h
  | cons input rest ih => exact ih (step_kept input h)

/-- However the ACX device is started, suspended and released, and whatever fails on the way, it is
safe and it works when it says so. -/
theorem run_worksWhenReady (modern : Bool) (offered : BitVec 64) (status : BitVec 8)
    (inputs : List AcxInput) :
    AcxSafety (inputs.foldl AcxWorld.step (AcxWorld.added modern offered status)) := by
  have h := run_kept inputs (added_kept modern offered status)
  refine ⟨h.sound, h.phase.running, ?_, ?_⟩
  · intro hup
    have hphase := h.phase
    rw [hup] at hphase
    exact (show Running _ from hphase).ready.2
  · intro hnone
    have hphase := h.phase
    rw [hnone] at hphase
    exact hphase

end

end Viosnd.Startup
