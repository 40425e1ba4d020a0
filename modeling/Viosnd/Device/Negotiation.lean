import Viosnd.Device.Registers

/-!
# Negotiating with the device

What setting the status, the features and the queues changes in the registers. The driver writes
features that the device shows and that leave the rings as they are; a device may refuse them.
-/

namespace Viosnd.Startup

/-- Every feature of the first is one of the second. -/
def FeaturesIn (features offered : BitVec 64) : Prop :=
  ∀ i, features.getLsbD i = true → offered.getLsbD i = true

/-! ## Flags and features -/

section

variable {features offered : BitVec 64}

theorem or_and_of_disjoint (s : BitVec 8) {a b : BitVec 8} (h : a &&& b = 0#8) :
    (s ||| a) &&& b = s &&& b := by
  apply BitVec.eq_of_getLsbD_eq
  intro i _
  have hbit : (a &&& b).getLsbD i = false := by
    rw [h]
    exact BitVec.getLsbD_zero
  rw [BitVec.getLsbD_and] at hbit
  simp only [BitVec.getLsbD_and, BitVec.getLsbD_or]
  cases ha : a.getLsbD i <;> cases hb : b.getLsbD i <;> simp_all

private theorem and_not_and_of_disjoint (s : BitVec 8) {a b : BitVec 8} (h : a &&& b = 0#8) :
    (s &&& ~~~a) &&& b = s &&& b := by
  apply BitVec.eq_of_getLsbD_eq
  intro i hi
  have hbit : (a &&& b).getLsbD i = false := by
    rw [h]
    exact BitVec.getLsbD_zero
  rw [BitVec.getLsbD_and] at hbit
  simp only [BitVec.getLsbD_and, BitVec.getLsbD_not]
  cases ha : a.getLsbD i <;> cases hb : b.getLsbD i <;> simp_all

theorem or_and_self (s a : BitVec 8) : (s ||| a) &&& a = a := by
  apply BitVec.eq_of_getLsbD_eq
  intro i _
  simp only [BitVec.getLsbD_and, BitVec.getLsbD_or]
  cases s.getLsbD i <;> cases a.getLsbD i <;> rfl

private theorem and_or_of_and_eq {s a : BitVec 8} (h : s &&& a = a) (b : BitVec 8) :
    (s ||| b) &&& a = a := by
  rw [BitVec.and_comm, BitVec.and_or_distrib_left, BitVec.and_comm a s, h]
  apply BitVec.eq_of_getLsbD_eq
  intro i _
  simp only [BitVec.getLsbD_and, BitVec.getLsbD_or]
  cases a.getLsbD i <;> rfl

theorem FeaturesIn.trans {middle : BitVec 64} (h : FeaturesIn features middle)
    (hmiddle : FeaturesIn middle offered) : FeaturesIn features offered :=
  fun i hi => hmiddle i (h i hi)

/-- The legacy register shows features that were offered. -/
private theorem registers_featuresIn (r : Registers) : FeaturesIn r.features r.offered := by
  intro i hi
  unfold Registers.features at hi
  split at hi
  · exact hi
  · rw [BitVec.getLsbD_setWidth, BitVec.getLsbD_setWidth] at hi
    simp_all

end

/-! ## Negotiation -/

section

variable {v v' v'' : VioDevice} {features : BitVec 64}

theorem access_mapped (hmapped : v.mapped = true) (f : Registers → Registers) :
    v.access f = { v with
      registers := f v.registers } := if_pos hmapped

/-- What a negotiation changes: the status, but for flags beside the first two and
`VIRTIO_CONFIG_S_FEATURES_OK`, and the features. -/
structure Negotiates (v v' : VioDevice) : Prop where
  same : v' = { v with
    registers := { v.registers with
      status := v'.registers.status
      driverFeatures := v'.registers.driverFeatures }
    packedRing := v'.packedRing
    eventSuppression := v'.eventSuppression }
  status : ∀ flag, 11#8 &&& flag = 0#8 → v'.registers.status &&& flag = v.registers.status &&& flag
  known : ∀ flag, flag &&& 3#8 = flag → v.registers.status &&& flag = flag →
    v'.registers.status &&& flag = flag
  features : FeaturesIn v.registers.driverFeatures v.registers.offered →
    FeaturesIn v'.registers.driverFeatures v.registers.offered
  rings : v.packedRing = false ∧ v.eventSuppression = false →
    v'.packedRing = false ∧ v'.eventSuppression = false

theorem Negotiates.refl (v : VioDevice) : Negotiates v v :=
  ⟨rfl, fun _ _ => rfl, fun _ _ h => h, id, id⟩

theorem Negotiates.trans (first : Negotiates v v') (second : Negotiates v' v'') :
    Negotiates v v'' := by
  have hoffered : v'.registers.offered = v.registers.offered := by rw [first.same]
  refine ⟨?_, ?_, fun flag hflag h => second.known flag hflag (first.known flag hflag h),
    fun h => ?_, fun h => second.rings (first.rings h)⟩
  · have hsecond := second.same
    rw [first.same] at hsecond
    exact hsecond
  · intro flag hflag
    rw [second.status flag hflag, first.status flag hflag]
  · have hfirst := first.features h
    rw [← hoffered] at hfirst ⊢
    exact second.features hfirst

theorem Negotiates.mapped (h : Negotiates v v') (hmapped : v.mapped = true) :
    v'.mapped = true := by
  rw [h.same]
  exact hmapped

theorem Negotiates.readable (h : Negotiates v v') :
    v'.registers.features = v.registers.features := by
  rw [h.same]
  rfl

theorem addStatus_negotiates (hmapped : v.mapped = true) {flag : BitVec 8}
    (hflag : flag &&& 11#8 = flag) : Negotiates v (virtioAddStatus flag v) := by
  unfold virtioAddStatus
  rw [access_mapped hmapped]
  refine ⟨rfl, ?_, ?_, id, id⟩
  · intro other hother
    apply or_and_of_disjoint
    rw [← hflag, BitVec.and_assoc, hother, BitVec.and_zero]
  · intro other _ hknown
    exact and_or_of_and_eq hknown flag

theorem addStatus_status (hmapped : v.mapped = true) (flag : BitVec 8) :
    (virtioAddStatus flag v).registers.status = v.registers.status ||| flag := by
  unfold virtioAddStatus
  rw [access_mapped hmapped]
  rfl

/-- Features that the driver may write: the device shows them, and they leave the rings as they
are. -/
def Acceptable (features shown : BitVec 64) : Prop :=
  ∀ i, features.getLsbD i = true → shown.getLsbD i = true ∧ (i = 27 ∨ i = 32 ∨ i = 33)

private theorem Acceptable.featuresIn {shown : BitVec 64} (h : Acceptable features shown) :
    FeaturesIn features shown :=
  fun i hi => (h i hi).1

theorem Acceptable.disabled {shown : BitVec 64} (h : Acceptable features shown) {bit : ℕ}
    (hbit : bit ≠ 27 ∧ bit ≠ 32 ∧ bit ≠ 33) : isFeatureEnabled features bit = false := by
  by_contra hset
  have hcases := (h bit (Bool.eq_true_of_not_eq_false hset)).2
  omega

theorem Acceptable.enable {shown : BitVec 64} (h : Acceptable features shown) {bit : ℕ}
    (hbit : bit = 27 ∨ bit = 32 ∨ bit = 33) :
    Acceptable (if isFeatureEnabled shown bit then featureEnable features bit else features)
      shown := by
  split
  · intro i hi
    rename_i hshown
    unfold featureEnable at hi
    rw [BitVec.getLsbD_or, ← BitVec.twoPow_eq, BitVec.getLsbD_twoPow, Bool.or_eq_true] at hi
    rcases hi with hold | hnew
    · exact h i hold
    · have heq : bit = i := by simp_all
      rw [← heq]
      exact ⟨hshown, hbit⟩
  · exact h

theorem acceptable_zero (shown : BitVec 64) : Acceptable 0 shown := by
  intro i hi
  cases hi.symm.trans BitVec.getLsbD_zero

theorem Acceptable.or {shown more : BitVec 64} (h : Acceptable features shown)
    (hmore : Acceptable more shown) : Acceptable (features ||| more) shown := by
  intro i hi
  rw [BitVec.getLsbD_or, Bool.or_eq_true] at hi
  exact hi.elim (h i) (hmore i)

theorem Acceptable.and_left {shown : BitVec 64} (h : Acceptable features shown)
    (mask : BitVec 64) : Acceptable (features &&& mask) shown := by
  intro i hi
  rw [BitVec.getLsbD_and, Bool.and_eq_true] at hi
  exact h i hi.1

theorem Acceptable.transport {shown : BitVec 64} (h : Acceptable features shown) :
    vringTransportFeatures features = features := by
  unfold vringTransportFeatures
  apply BitVec.eq_of_getLsbD_eq
  intro i hi
  rw [BitVec.getLsbD_and, BitVec.getLsbD_and, BitVec.getLsbD_not, BitVec.getLsbD_not,
    ← BitVec.twoPow_eq, ← BitVec.twoPow_eq, BitVec.getLsbD_twoPow, BitVec.getLsbD_twoPow]
  by_cases hset : features.getLsbD i = true
  · have hcases := (h i hset).2
    rw [hset]
    rcases hcases with rfl | rfl | rfl <;> rfl
  · simp [hset]

private theorem legacy_writes {r : Registers} (hlegacy : r.modern = false)
    (h : FeaturesIn features r.features) : (features.setWidth 32).setWidth 64 = features := by
  apply BitVec.eq_of_getLsbD_eq
  intro i hi
  rw [BitVec.getLsbD_setWidth, BitVec.getLsbD_setWidth]
  by_cases hset : features.getLsbD i = true
  · have hshown := h i hset
    rw [Registers.features, if_neg (by simp [hlegacy]), BitVec.getLsbD_setWidth,
      BitVec.getLsbD_setWidth] at hshown
    simp_all
  · simp [hset]

structure Negotiated (features : BitVec 64) (v : VioDevice) : Prop where
  acceptable : Acceptable features v.registers.features
  known : v.registers.status &&& 3 = 3
  modern : v.registers.modern = true → isFeatureEnabled features fVersion1 = true
  confirmed : isFeatureEnabled features fVersion1 = true → v.registers.status &&& sFeaturesOk ≠ 0
  written : v.registers.driverFeatures = features

theorem check_of_good {fault : Fault} {good : Bool} (h : good = true) : v.check fault good = v :=
  if_pos h

/-- The transport writes features that are acceptable, unless it is modern and they lack
`VIRTIO_F_VERSION_1`. -/
theorem transportSetFeatures_acceptable (hmapped : v.mapped = true)
    (hearly : v.registers.modern = true → v.registers.status &&& sFeaturesOk = 0)
    (hfeatures : Acceptable features v.registers.features) :
    transportSetFeatures features v =
      if v.registers.modern = true ∧ isFeatureEnabled features fVersion1 = false then
        (.invalidParameter, v)
      else (.success, { v with
        registers := { v.registers with
          driverFeatures := features } }) := by
  unfold transportSetFeatures
  rw [hfeatures.transport]
  by_cases hmodern : v.registers.modern = true
  · rw [if_pos hmodern]
    by_cases hversion : isFeatureEnabled features fVersion1 = false
    · rw [if_pos hversion, if_pos ⟨hmodern, hversion⟩]
    · rw [if_neg hversion, if_neg fun h => hversion h.2]
      dsimp only
      rw [check_of_good (by simp [hearly hmodern]), access_mapped hmapped]
  · have hlegacy := legacy_writes (Bool.eq_false_of_not_eq_true hmodern) hfeatures.featuresIn
    rw [if_neg hmodern, if_neg fun h => hmodern h.1]
    dsimp only
    rw [hlegacy, check_of_good (by simp), access_mapped hmapped]

private theorem setStatus_and {other : BitVec 8} (hother : sFeaturesOk &&& other = 0#8)
    (refuses : Bool) (s : BitVec 8) (r : Registers) :
    (r.setStatus refuses (s ||| sFeaturesOk)).status &&& other = s &&& other := by
  unfold Registers.setStatus
  cases refuses with
  | false => exact or_and_of_disjoint s hother
  | true =>
      simp only [if_true]
      rw [and_not_and_of_disjoint _ hother]
      exact or_and_of_disjoint s hother

/-- Writing acceptable features is a step of the negotiation, and completes it on success. -/
theorem virtioSetFeatures_negotiates (hmapped : v.mapped = true)
    (hknown : v.registers.status &&& 3 = 3)
    (hearly : v.registers.modern = true → v.registers.status &&& sFeaturesOk = 0)
    (hfeatures : Acceptable features v.registers.features) (refuses : Bool) :
    Negotiates v (virtioSetFeatures refuses features v).2 ∧
      ((virtioSetFeatures refuses features v).1 = .success →
        Negotiated features (virtioSetFeatures refuses features v).2) := by
  have hsuppression : isFeatureEnabled features ringFEventIdx = false :=
    hfeatures.disabled (by decide)
  have hpacked : isFeatureEnabled features fRingPacked = false := hfeatures.disabled (by decide)
  have hoffered : FeaturesIn features v.registers.offered :=
    hfeatures.featuresIn.trans (registers_featuresIn v.registers)
  have htransport := transportSetFeatures_acceptable (v := { v with
    eventSuppression := false
    packedRing := false }) hmapped hearly hfeatures
  unfold virtioSetFeatures
  rw [hsuppression, hpacked]
  dsimp only
  rw [htransport]
  dsimp only
  by_cases hrefused : v.registers.modern = true ∧ isFeatureEnabled features fVersion1 = false
  · rw [if_pos hrefused]
    refine ⟨⟨rfl, fun _ _ => rfl, fun _ _ h => h, id, fun _ => ⟨rfl, rfl⟩⟩, ?_⟩
    intro hsuccess
    cases hsuccess
  rw [if_neg hrefused]
  dsimp only
  by_cases hversion : isFeatureEnabled features fVersion1 = false
  · rw [if_pos hversion]
    refine ⟨⟨rfl, fun _ _ => rfl, fun _ _ h => h, fun _ => hoffered, fun _ => ⟨rfl, rfl⟩⟩, ?_⟩
    intro _
    refine ⟨hfeatures, hknown, fun hmodern => absurd ⟨hmodern, hversion⟩ hrefused, ?_, rfl⟩
    intro h
    rw [hversion] at h
    cases h
  rw [if_neg hversion, access_mapped (by exact hmapped)]
  dsimp only
  generalize hr : Registers.setStatus refuses (v.registers.status ||| sFeaturesOk)
    { v.registers with
      driverFeatures := features } = r
  have hsame : r = { v.registers with
      status := r.status
      driverFeatures := r.driverFeatures } := by
    rw [← hr]
    rfl
  have hwritten : r.driverFeatures = features := by
    rw [← hr]
    rfl
  have hflags : ∀ other, sFeaturesOk &&& other = 0#8 →
      r.status &&& other = v.registers.status &&& other := by
    intro other hother
    rw [← hr]
    exact setStatus_and hother refuses _ _
  have hnegotiates : Negotiates v { v with
      registers := r
      packedRing := false
      eventSuppression := false } := by
    refine ⟨?_, ?_, ?_, ?_, fun _ => ⟨rfl, rfl⟩⟩
    · exact congrArg (fun r' => { v with
        registers := r'
        packedRing := false
        eventSuppression := false }) hsame
    · intro flag hflag
      apply hflags
      calc sFeaturesOk &&& flag = sFeaturesOk &&& (11#8 &&& flag) := by
            rw [← BitVec.and_assoc]
            rfl
        _ = 0#8 := by rw [hflag, BitVec.and_zero]
    · intro flag hflag hset
      rw [hflags flag]
      · exact hset
      · calc sFeaturesOk &&& flag = sFeaturesOk &&& (flag &&& 3#8) := by rw [hflag]
          _ = flag &&& (sFeaturesOk &&& 3#8) := by rw [← BitVec.and_assoc,
                BitVec.and_comm sFeaturesOk flag, BitVec.and_assoc]
          _ = 0#8 := BitVec.and_zero
    · intro _
      dsimp only
      rw [hwritten]
      exact hoffered
  split
  · refine ⟨hnegotiates, ?_⟩
    intro hsuccess
    cases hsuccess
  · rename_i hconfirmed
    refine ⟨hnegotiates, ?_⟩
    intro _
    refine ⟨?_, (hflags 3 rfl).trans hknown, fun _ => Bool.eq_true_of_not_eq_false hversion,
      fun _ => hconfirmed, ?_⟩
    · rw [hnegotiates.readable]
      exact hfeatures
    · exact hwritten

/-! ## Queues and notifications -/

theorem access_id (hmapped : v.mapped = true) : v.access id = v :=
  access_mapped hmapped id

theorem live_congr {r r' : Registers} (hstatus : r'.status &&& sDriverOk = r.status &&& sDriverOk)
    (hearly : r'.earlyKicks = r.earlyKicks) : r'.Live ↔ r.Live := by
  unfold Registers.Live
  rw [hstatus, hearly]

theorem deleteQueues_of_idle (hmapped : v.mapped = true) (hidle : ¬v.registers.Live) :
    ∃ queues, virtioDeleteQueues v = { v with
      registers := { v.registers with
        queues := queues }
      queues := [] } := by
  unfold virtioDeleteQueues
  split
  · rename_i hnone
    refine ⟨v.registers.queues, ?_⟩
    rw [← hnone]
  rw [access_mapped hmapped]
  have hregisters : ∃ queues, (if v.registers.modern = true then v.registers else { v.registers with
      queues := v.registers.queues.filter fun q => !v.queues.contains q }) = { v.registers with
      queues := queues } := by
    split
    · exact ⟨v.registers.queues, rfl⟩
    · exact ⟨_, rfl⟩
  obtain ⟨queues, hregisters⟩ := hregisters
  refine ⟨queues, ?_⟩
  rw [hregisters]
  have hlive : ¬({ v.registers with
      queues := queues } : Registers).Live := hidle
  dsimp only at hlive ⊢
  rw [check_of_good (by simp [hlive])]

theorem notify_unready (hmapped : v.mapped = true) (hready : v.registers.status &&& sDriverOk = 0)
    (queue : ℕ) : virtqueueNotify queue v = { v with
      registers := { v.registers with
        earlyKicks := v.registers.earlyKicks ++ [queue] } } := by
  unfold virtqueueNotify
  rw [access_mapped hmapped, if_pos hready]

theorem notify_ready (hmapped : v.mapped = true) (hready : v.registers.status &&& sDriverOk ≠ 0)
    (queue : ℕ) : virtqueueNotify queue v = v := by
  unfold virtqueueNotify
  rw [access_mapped hmapped, if_neg hready]

end

end Viosnd.Startup
