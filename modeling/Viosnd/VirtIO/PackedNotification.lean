import Viosnd.VirtIO.Notification
import Viosnd.VirtIO.RingsAgree

/-!
# Notifications of the packed virtqueue

The device names the descriptor it waits for by its index and by the wrap counter it will be made
available with. The driver keeps its own lap twice, in `avail_wrap_counter` and in the two bits of
`avail_used_flags`.
-/

namespace Viosnd.VirtIO

open EventIndex StepRun Laps Machine BoundedQueue

variable {β : Type}

/-- `VRING_PACKED_EVENT_FLAG_DISABLE`. -/
def packedEventFlagDisable : U16 := 1

/-- `vring.device`, the event suppression area of the device. -/
structure PackedNotice where
  offWrap : U16
  flags : U16

/-- `event_idx`, before the wrap counter is looked at. -/
def PackedNotice.eventIdx (notice : PackedNotice) : U16 :=
  notice.offWrap &&& ~~~((1 : U16) <<< 15)

def PackedNotice.wrapCounter (notice : PackedNotice) : U16 := notice.offWrap >>> 15

/-- `virtqueue_kick_prepare_packed`. -/
def virtqueueKickPreparePacked (notice : PackedNotice) (q : PackedRing β) :
    Bool × PackedRing β :=
  let old : U16 := (BitVec.ofNat 32 q.nextAvailIdx - q.numAdded).setWidth 16
  let new : U16 := BitVec.ofNat 16 q.nextAvailIdx
  let eventIdx :=
    if notice.wrapCounter ≠ (BitVec.ofBool q.availWrapCounter).setWidth 16 then
      notice.eventIdx - BitVec.ofNat 16 q.num
    else notice.eventIdx
  let needsKick :=
    if notice.flags ≠ packedEventFlagDesc then notice.flags != packedEventFlagDisable
    else vringNeedEvent eventIdx new old
  (needsKick, { q with numAdded := 0 })

/-- `virtqueue_kick_always_packed`; the notification itself leaves the ring alone. -/
def virtqueueKickAlwaysPacked (q : PackedRing β) : PackedRing β := { q with numAdded := 0 }

/-- The descriptor an event names: its index and the wrap counter. -/
def PackedNotice.event (notice : PackedNotice) : ℕ × Bool :=
  (notice.offWrap.toNat % 2 ^ 15, notice.offWrap.msb)

private theorem PackedNotice.eventIdx_eq (notice : PackedNotice) :
    notice.eventIdx = BitVec.ofNat 16 notice.event.1 := by
  apply BitVec.eq_of_toNat_eq
  have hmask : (~~~((1 : U16) <<< 15)).toNat = 2 ^ 15 - 1 := by decide
  unfold PackedNotice.eventIdx PackedNotice.event
  rw [BitVec.toNat_and, hmask, Nat.and_two_pow_sub_one_eq_mod, BitVec.toNat_ofNat]
  omega

private theorem PackedNotice.wrapCounter_eq_iff (notice : PackedNotice) (wrap : Bool) :
    notice.wrapCounter = (BitVec.ofBool wrap).setWidth 16 ↔ notice.event.2 = wrap := by
  have hmsb : notice.offWrap.msb = decide (2 ^ 15 ≤ notice.offWrap.toNat) :=
    BitVec.msb_eq_decide _
  have hlt := notice.offWrap.isLt
  have hbit : notice.wrapCounter.toNat = notice.offWrap.toNat / 2 ^ 15 := by
    unfold PackedNotice.wrapCounter
    rw [BitVec.toNat_ushiftRight, Nat.shiftRight_eq_div_pow]
  have hwrap : ((BitVec.ofBool wrap).setWidth 16).toNat = wrap.toNat := by
    cases wrap <;> rfl
  rw [← BitVec.toNat_inj, hbit, hwrap]
  unfold PackedNotice.event
  rw [hmsb]
  cases wrap
  · simp only [Bool.toNat_false, decide_eq_false_iff_not]
    omega
  · simp only [Bool.toNat_true, decide_eq_true_eq]
    omega

private theorem exists_notice (index : ℕ) (wrap : Bool) (hindex : index < 2 ^ 15) :
    ∃ notice : PackedNotice, notice.flags = packedEventFlagDesc ∧
      notice.event = (index, wrap) := by
  refine ⟨⟨BitVec.ofNat 16 (index + wrap.toNat * 2 ^ 15), packedEventFlagDesc⟩, rfl, ?_⟩
  unfold PackedNotice.event
  rw [BitVec.msb_eq_decide, BitVec.toNat_ofNat]
  cases wrap
  · simp only [Bool.toNat_false, Prod.mk.injEq, decide_eq_false_iff_not]
    omega
  · simp only [Bool.toNat_true, Prod.mk.injEq, decide_eq_true_eq]
    omega

/-! ## Positions and events -/

/-- The `n` positions before `e`, as the descriptors that were made available there. -/
def marks (num first n : ℕ) : List (ℕ × Bool) :=
  (List.range' first n).map fun p => (slot num p, phase num p)

private theorem mem_marks {num first n : ℕ} {event : ℕ × Bool} :
    event ∈ marks num first n ↔
      ∃ p, first ≤ p ∧ p < first + n ∧ slot num p = event.1 ∧ phase num p = event.2 := by
  simp only [marks, List.mem_map, List.mem_range'_1, Prod.ext_iff, and_assoc]

private theorem marks_append (num first m n : ℕ) :
    marks num first m ++ marks num (first + m) n = marks num first (m + n) := by
  unfold marks
  rw [← List.map_append, List.range'_append_1]

/-- The driver's answer about a descriptor, when it stands at position `e` and added `n`
descriptors since the last kick. -/
def asksKick (num e n : ℕ) (event : ℕ × Bool) : Bool :=
  let eventIdx := if event.2 ≠ phase num e then BitVec.ofNat 16 event.1 - BitVec.ofNat 16 num
    else BitVec.ofNat 16 event.1
  crosses eventIdx (BitVec.ofNat 16 (slot num e))
    (BitVec.ofNat 16 (slot num e) - BitVec.ofNat 16 n)

/-- The event is `distance` descriptors back in the 16-bit arithmetic of the driver. -/
private theorem asksKick_iff {num e n distance : ℕ} {event : ℕ × Bool}
    (hevent : (if event.2 ≠ phase num e then BitVec.ofNat 16 event.1 - BitVec.ofNat 16 num
      else BitVec.ofNat 16 event.1) =
        BitVec.ofNat 16 (slot num e) - BitVec.ofNat 16 distance) :
    asksKick num e n event = true ↔ (n + 2 ^ 16 - distance % 2 ^ 16) % 2 ^ 16 < n % 2 ^ 16 := by
  unfold asksKick
  dsimp only
  rw [hevent, crosses_iff]
  have hnear : BitVec.ofNat 16 (slot num e) - BitVec.ofNat 16 distance -
      (BitVec.ofNat 16 (slot num e) - BitVec.ofNat 16 n) =
      BitVec.ofNat 16 n - BitVec.ofNat 16 distance := sub_sub_sub_cancel_left _ _ _
  have hfar : BitVec.ofNat 16 (slot num e) -
      (BitVec.ofNat 16 (slot num e) - BitVec.ofNat 16 n) = BitVec.ofNat 16 n :=
    sub_sub_cancel _ _
  rw [hnear, hfar, BitVec.toNat_sub, BitVec.toNat_ofNat, BitVec.toNat_ofNat]
  omega

/-- Few enough descriptors since the last kick for the answer to be right about each of them. -/
def FewMade (num nextAvailIdx n : ℕ) : Prop :=
  n ≤ num + nextAvailIdx ∨ num = 2 ^ 15 ∧ n < 2 ^ 16

private theorem event_near {num p e a : ℕ} (hnum : 0 < num) (hp : p + a = e)
    (ha : a ≤ slot num e + num) :
    (if phase num p ≠ phase num e then BitVec.ofNat 16 (slot num p) - BitVec.ofNat 16 num
      else BitVec.ofNat 16 (slot num p)) =
        BitVec.ofNat 16 (slot num e) - BitVec.ofNat 16 a := by
  rcases Nat.lt_or_ge (slot num e) a with hfar | hnear
  · obtain ⟨hslot, hphase⟩ := back_one hp hfar ha
    rw [hphase, if_pos (by cases phase num e <;> decide), sub_eq_sub_iff_add_eq_add,
      ← BitVec.ofNat_add, ← BitVec.ofNat_add, hslot]
  · obtain ⟨hslot, hphase⟩ := back_zero hp hnum hnear
    rw [hphase, if_neg (by simp), eq_sub_iff_add_eq, ← BitVec.ofNat_add, hslot]

/-- Two laps before, the event looks as if it were still ahead. -/
private theorem event_far {num p e a : ℕ} (hsize : num ≤ 2 ^ 15) (hp : p + a = e)
    (ha : slot num e + num < a)
    (ha' : a ≤ slot num e + 2 * num) :
    (if phase num p ≠ phase num e then BitVec.ofNat 16 (slot num p) - BitVec.ofNat 16 num
      else BitVec.ofNat 16 (slot num p)) =
        BitVec.ofNat 16 (slot num e) - BitVec.ofNat 16 (a + 2 ^ 16 - 2 * num) := by
  obtain ⟨hslot, hphase⟩ := back_two hp ha ha'
  rw [hphase, if_neg (by simp), eq_sub_iff_add_eq, ← BitVec.ofNat_add]
  apply BitVec.eq_of_toNat_eq
  rw [BitVec.toNat_ofNat, BitVec.toNat_ofNat]
  omega

private theorem asksKick_marked {num first e n : ℕ} (hnum : 0 < num) (hsize : num ≤ 2 ^ 15)
    (hfirst : first + n = e) (hfew : FewMade num (slot num e) n) :
    ∀ event ∈ marks num first n, asksKick num e n event = true := by
  intro event hevent
  obtain ⟨p, hp, hp', hslot, hphase⟩ := mem_marks.mp hevent
  obtain ⟨a, ha⟩ : ∃ a, p + a = e := ⟨e - p, by omega⟩
  have hlt := slot_lt hnum e
  have hn : n < 2 ^ 16 := by
    rcases hfew with hlap | ⟨-, hn⟩
    · omega
    · exact hn
  rcases Nat.lt_or_ge (slot num e + num) a with hfar | hnear
  · -- only in the largest ring: two of its laps are all the 16-bit indices
    have hlargest : num = 2 ^ 15 := by
      rcases hfew with hlap | ⟨hlargest, -⟩
      · omega
      · exact hlargest
    have hback := event_far hsize ha hfar (by omega)
    rw [hslot, hphase] at hback
    rw [asksKick_iff hback]
    omega
  · have hback := event_near hnum ha hnear
    rw [hslot, hphase] at hback
    rw [asksKick_iff hback]
    omega

private theorem exists_not_asksKick {num first e n : ℕ} (hpower : num = 2 ^ 15 ∨ num ≤ 2 ^ 14)
    (hnum : 0 < num) (hfirst : first + n = e) (hmany : ¬ FewMade num (slot num e) n) :
    ∃ event ∈ marks num first n, asksKick num e n event = false := by
  have hlt := slot_lt hnum e
  have hsize : num ≤ 2 ^ 15 := by omega
  unfold FewMade at hmany
  rcases Nat.lt_or_ge n (2 * num) with hless | hlaps
  · -- the last descriptor of the lap two before
    obtain ⟨p, hp⟩ : ∃ p, p + (slot num e + num + 1) = e := ⟨e - (slot num e + num + 1), by omega⟩
    refine ⟨(slot num p, phase num p), mem_marks.mpr ⟨p, by omega, by omega, rfl, rfl⟩, ?_⟩
    have hback := event_far hsize hp (by omega) (by omega)
    rw [← Bool.not_eq_true, asksKick_iff hback]
    omega
  · -- the descriptor where the driver stands, two laps before
    obtain ⟨p, hp⟩ : ∃ p, p + 2 * num = e := ⟨e - 2 * num, by omega⟩
    refine ⟨(slot num p, phase num p), mem_marks.mpr ⟨p, by omega, by omega, rfl, rfl⟩, ?_⟩
    have hback := event_far hsize hp (by omega) (by omega)
    rw [← Bool.not_eq_true, asksKick_iff hback]
    omega

/-! ## Runs -/

/-- The descriptors that were free in `q` and are made available in `q'`, each by its index and by
the `AVAIL` bit the device finds there. -/
def newlyMade (q q' : PackedRing β) : List (ℕ × Bool) :=
  (List.range (q.numFree - q'.numFree)).map fun i =>
    let index := (q.nextAvailIdx + i) % q.num
    (index, (q'.desc index).flags.avail)

/-- A ring in use with its device, and the descriptors made available since the last kick. -/
structure PackedKickState (β : Type) where
  queue : PackedQueue β
  made : List (ℕ × Bool)

def PackedKickState.new (β : Type) (num : ℕ) : PackedKickState β where
  queue := PackedQueue.new β num
  made := []

inductive PackedKickInput (β : Type) where
  /-- `virtqueue_add_buf`, `virtqueue_get_buf` or a step of the device. -/
  | ring (input : QueueInput β)
  | kickPrepare (notice : PackedNotice)
  | kickAlways

/-- A routine of the driver that does not end changes nothing more. -/
def packedKickStep (s : PackedKickState β) : PackedKickInput β → PackedKickState β
  | .ring input =>
      match packedStep s.queue input with
      | none => s
      | some (queue, _) =>
          { queue, made := s.made ++ newlyMade s.queue.ring queue.ring }
  | .kickPrepare notice =>
      { queue := { s.queue with ring := (virtqueueKickPreparePacked notice s.queue.ring).2 }
        made := [] }
  | .kickAlways =>
      { queue := { s.queue with ring := virtqueueKickAlwaysPacked s.queue.ring }
        made := [] }

/-- What the bits of `avail_used_flags` say is what the wrap counter says. -/
def PackedRing.FlagsAgree (q : PackedRing β) : Prop :=
  q.availUsedFlags.avail = q.availWrapCounter ∧ q.availUsedFlags.used = !q.availWrapCounter

/-- The device is notified whenever it waits for a descriptor made available since the last
kick. -/
def PackedKickState.NotifiesMade (s : PackedKickState β) : Prop :=
  ∀ notice : PackedNotice, notice.flags = packedEventFlagDesc → notice.event ∈ s.made →
    (virtqueueKickPreparePacked notice s.queue.ring).1 = true

def PackedKickState.Sound (s : PackedKickState β) : Prop :=
  s.queue.ring.FlagsAgree ∧ s.NotifiesMade

/-- A granted request is no direct chain over the whole ring, and does not make too many
descriptors available since the last kick. -/
def keepsLaps (s : PackedKickState β) : PackedKickInput β → Prop
  | .ring (.add r) =>
      let q := s.queue.ring
      let count := addCost r.rest r.indirect
      count ≤ q.numFree → (r.indirect = none → count ≠ q.num) ∧
        FewMade q.num ((q.nextAvailIdx + count) % q.num) (s.made.length + count)
  | _ => True

/-! ## What an added chain does to the laps -/

theorem fillPackedDescs_frame (out count id n : ℕ) (sgs : List Scatter) (place : FillPlace)
    (q : PackedRing β) :
    (fillPackedDescs out count id n sgs place q).2 = { q with
      desc := (fillPackedDescs out count id n sgs place q).2.desc
      availUsedFlags := (fillPackedDescs out count id n sgs place q).2.availUsedFlags } := by
  induction sgs generalizing n place q with
  | nil => rfl
  | cons sg sgs ih =>
      unfold fillPackedDescs
      dsimp only
      rw [ih]
      unfold fillPackedDesc
      dsimp only
      split_ifs <;> rfl

/-- The wrap counter and the counts after a request of `count` descriptors. -/
structure Counts (count : ℕ) (direct : Bool) (q q' : PackedRing β) : Prop where
  numAdded : q'.numAdded = q.numAdded + BitVec.ofNat 32 count
  numFree : q'.numFree = q.numFree - count
  wrap : q'.availWrapCounter =
    if (if direct then q'.nextAvailIdx < q.nextAvailIdx else q.num ≤ q.nextAvailIdx + 1) then
      !q.availWrapCounter
    else q.availWrapCounter

private theorem addPackedDirect_counts {sgs : List Scatter} {out id : ℕ} {io : β}
    {q q' : PackedRing β} (h : addPackedDirect sgs out io id q = some q') :
    Counts sgs.length true q q' := by
  unfold addPackedDirect at h
  dsimp only at h
  by_cases hroom : q.numFree < sgs.length
  · rw [if_pos hroom] at h
    cases h
  rw [if_neg hroom] at h
  obtain rfl := Option.some.inj h
  have hframe := fillPackedDescs_frame out sgs.length id 0 sgs ⟨q.nextAvailIdx, id, 0⟩ q
  generalize fillPackedDescs out sgs.length id 0 sgs ⟨q.nextAvailIdx, id, 0⟩ q = filled at *
  rw [hframe]
  exact ⟨rfl, rfl, rfl⟩

private theorem addPackedIndirect_counts (sgs : List Scatter) (out id : ℕ) (io : β)
    (page : IndirectPage) (q : PackedRing β) :
    Counts 1 false q (addPackedIndirect sgs out io page id q) := by
  refine ⟨rfl, rfl, ?_⟩
  simp [addPackedIndirect]

/-- The driver goes on by the descriptors of a granted request, and counts them. -/
structure Advances (q q' : PackedRing β) (e count : ℕ) (direct : Bool) : Prop extends
    Counts count direct q q' where
  num : q'.num = q.num
  next : At q.num (e + count) q'.nextAvailIdx q'.availUsedFlags.avail
  flipped : q'.availUsedFlags.used = !q'.availUsedFlags.avail
  avail : ∀ j < count, (q'.at (e + j)).flags.avail = phase q.num (e + j)

private theorem Counts.advances {q q' : PackedRing β} {c : Chain β} {e count : ℕ} {direct : Bool}
    (hcounts : Counts count direct q q') (h : Appends q q' e c)
    (hlength : c.descs.length = count) : Advances q q' e count direct := by
  subst hlength
  exact ⟨hcounts, h.num, h.next, h.flipped, h.avail⟩

section

variable {w : PackedQueue β} {free : List ℕ} {untaken held : List (Chain β)}
  {returned : List (Chain β × BitVec 32)} {start e : ℕ}

private theorem addBufPacked_advances (h : w.Consistent free untaken held returned start)
    (r : AddRequest β) (hroom : addCost r.rest r.indirect ≤ w.ring.numFree)
    (hplace : At w.ring.num e w.ring.nextAvailIdx w.ring.availUsedFlags.avail) :
    ∃ ring, virtqueueAddBufPacked r.sg r.rest r.out r.io r.indirect w.ring = some (some ring) ∧
      Advances w.ring ring e (addCost r.rest r.indirect) r.indirect.isNone := by
  have hsize := h.size
  have hfirst := h.layout.freeHead_lt
  have hid : w.ring.freeHead % 2 ^ 16 = w.ring.freeHead := Nat.mod_eq_of_lt (by omega)
  unfold virtqueueAddBufPacked
  simp only [hid, if_neg (Nat.not_le.mpr hfirst)]
  cases hind : r.indirect with
  | none =>
      rw [hind] at hroom
      obtain ⟨c, free', ring, hadd, -, hcost, -, happ⟩ :=
        addPackedDirect_appends h.layout hsize hplace h.flipped r.sg r.rest r.out r.io hroom
      exact ⟨ring, congrArg some hadd, (addPackedDirect_counts hadd).advances happ hcost⟩
  | some page =>
      have hfits := r.fits (by rw [hind]; rfl)
      rw [hind] at hroom
      have hfree : 0 < w.ring.numFree := hroom
      obtain ⟨c, free', -, hcost, -, happ⟩ :=
        addPackedIndirect_appends h.layout hsize hplace h.flipped (r.sg :: r.rest) r.out r.io page
          hfree
      refine ⟨_, ?_, (addPackedIndirect_counts (r.sg :: r.rest) r.out w.ring.freeHead r.io page
        w.ring).advances happ hcost⟩
      dsimp only
      rw [if_pos hfree, if_neg (Nat.not_le.mpr hfits)]

end

/-- The wrap counter follows the lap, but for a direct chain over the whole ring. -/
private theorem Advances.wrap_iff {q q' : PackedRing β} {e count : ℕ} {direct : Bool}
    (h : Advances q q' e count direct) (hplace : At q.num e q.nextAvailIdx q.availWrapCounter)
    (hpos : 0 < count) (hfit : count ≤ q.num) (hone : direct = false → count = 1) :
    q'.availWrapCounter = phase q.num (e + count) ↔ ¬ (direct = true ∧ count = q.num) := by
  have hnum : 0 < q.num := by omega
  have hlt : q.nextAvailIdx < q.num := by
    rw [hplace.index_eq]
    exact slot_lt hnum e
  have hnext := hplace.advance hnum hfit
  have hidx := h.next.index_eq
  rw [← hnext.index_eq] at hidx
  rw [← hnext.wrap_eq, h.wrap]
  rcases Nat.lt_or_ge (q.nextAvailIdx + count) q.num with hstay | hwrap
  · have hadvance : advance q.num q.nextAvailIdx q.availWrapCounter count =
        (q.nextAvailIdx + count, q.availWrapCounter) := if_neg (Nat.not_le.mpr hstay)
    rw [hadvance] at hidx ⊢
    dsimp only at hidx ⊢
    have hsmall : ¬ (direct = true ∧ count = q.num) := by omega
    rw [iff_true_right hsmall]
    apply if_neg
    cases direct with
    | false =>
        rw [if_neg Bool.false_ne_true, ← hone rfl]
        omega
    | true =>
        rw [if_pos rfl, hidx]
        omega
  · have hadvance : advance q.num q.nextAvailIdx q.availWrapCounter count =
        (q.nextAvailIdx + count - q.num, !q.availWrapCounter) := if_pos hwrap
    rw [hadvance] at hidx ⊢
    dsimp only at hidx ⊢
    cases direct with
    | false =>
        rw [hone rfl] at hwrap
        simp [hwrap]
    | true =>
        simp only [if_true, hidx, true_and]
        by_cases hfull : count = q.num
        · rw [if_neg (by omega)]
          simp [hfull]
        · rw [if_pos (by omega)]
          simp [hfull]

/-! ## What leaves the laps alone -/

/-- Nothing is made available. -/
structure SameLaps (q q' : PackedRing β) : Prop where
  num : q'.num = q.num
  nextAvailIdx : q'.nextAvailIdx = q.nextAvailIdx
  availUsedFlags : q'.availUsedFlags = q.availUsedFlags
  availWrapCounter : q'.availWrapCounter = q.availWrapCounter
  numAdded : q'.numAdded = q.numAdded
  numFree : q.numFree ≤ q'.numFree

theorem SameLaps.refl (q : PackedRing β) : SameLaps q q :=
  ⟨rfl, rfl, rfl, rfl, rfl, Nat.le_refl _⟩

private theorem SameLaps.newlyMade {q q' : PackedRing β} (h : SameLaps q q') :
    newlyMade q q' = [] := by
  unfold VirtIO.newlyMade
  rw [Nat.sub_eq_zero_of_le h.numFree]
  rfl

private theorem takePacked_ring (w : PackedQueue β) : (takePacked w).ring = w.ring := by
  unfold takePacked
  split_ifs <;> rfl

private theorem iterate_takePacked_ring (n : ℕ) (w : PackedQueue β) :
    (takePacked^[n] w).ring = w.ring := by
  induction n generalizing w with
  | zero => rfl
  | succ n ih => rw [Function.iterate_succ_apply, ih, takePacked_ring]

private theorem giveBackPacked_sameLaps (k : ℕ) (len : BitVec 32) (w : PackedQueue β) :
    SameLaps w.ring (giveBackPacked k len w).ring := by
  unfold giveBackPacked
  split
  · exact SameLaps.refl _
  · exact ⟨rfl, rfl, rfl, rfl, rfl, Nat.le_refl _⟩

private theorem getBufPacked_sameLaps {q : PackedRing β} {r : Option (β × BitVec 32) × PackedRing β}
    (h : virtqueueGetBufPacked q = some r) : SameLaps q r.2 := by
  unfold virtqueueGetBufPacked at h
  dsimp only at h
  split_ifs at h with hused hbad
  · obtain rfl := Option.some.inj h
    exact SameLaps.refl q
  · split at h
    · cases h
    · obtain rfl := Option.some.inj h
      unfold expectUsed passUsed
      dsimp only
      split_ifs <;> exact ⟨rfl, rfl, rfl, rfl, rfl, Nat.le_add_right _ _⟩

private theorem packedStep_sameLaps {w w' : PackedQueue β} {input : QueueInput β}
    {answer : Answer β (BitVec 32)} (hstep : packedStep w input = some (w', answer))
    (hquiet : ∀ r, input = .add r →
      virtqueueAddBufPacked r.sg r.rest r.out r.io r.indirect w.ring = some none) :
    SameLaps w.ring w'.ring := by
  cases input with
  | add r =>
      unfold packedStep at hstep
      simp only [hquiet r rfl, Option.some.injEq, Prod.mk.injEq] at hstep
      obtain ⟨rfl, -⟩ := hstep
      exact SameLaps.refl _
  | take =>
      simp only [packedStep, Option.some.injEq, Prod.mk.injEq] at hstep
      obtain ⟨rfl, -⟩ := hstep
      rw [takePacked_ring]
      exact SameLaps.refl _
  | complete k len =>
      simp only [packedStep, Option.some.injEq, Prod.mk.injEq] at hstep
      obtain ⟨rfl, -⟩ := hstep
      have hsame := giveBackPacked_sameLaps k len (takePacked^[k + 1 - w.held.length] w)
      rwa [iterate_takePacked_ring] at hsame
  | get =>
      simp only [packedStep] at hstep
      split at hstep
      · cases hstep
      · rename_i ring hget
        obtain ⟨rfl, -⟩ := Prod.mk.inj (Option.some.inj hstep)
        exact getBufPacked_sameLaps hget
      · rename_i io len ring hget
        obtain ⟨rfl, -⟩ := Prod.mk.inj (Option.some.inj hstep)
        exact getBufPacked_sameLaps hget

/-! ## The invariant -/

/-- The driver stands at position `e`; the descriptors made available since the last kick are those
from `first` on, and are counted. -/
structure PackedKickState.Marked (size : QueueSize) (s : PackedKickState β) (first e : ℕ) :
    Prop where
  num : s.queue.ring.num = size.num
  mirrors : ∃ q, PackedMirrors s.queue q
  position : first + s.made.length = e
  made : s.made = marks size.num first s.made.length
  next : At size.num e s.queue.ring.nextAvailIdx s.queue.ring.availUsedFlags.avail
  flipped : s.queue.ring.availUsedFlags.used = !s.queue.ring.availUsedFlags.avail
  counted : s.queue.ring.numAdded = BitVec.ofNat 32 s.made.length

private theorem PackedKickState.new_marked (size : QueueSize) :
    (PackedKickState.new β size.num).Marked size 0 0 where
  num := rfl
  mirrors := ⟨_, List.range size.num, [], [], [], 0,
    PackedQueue.new_consistent size.pos size.le, mirrors_new β size.num⟩
  position := rfl
  made := rfl
  next := at_zero size.num
  flipped := rfl
  counted := rfl

/-- What the driver computes about an event it computes about its position. -/
private theorem kickPreparePacked_eq {q : PackedRing β} {e n : ℕ} {notice : PackedNotice}
    (hplace : At q.num e q.nextAvailIdx q.availWrapCounter)
    (hcounted : q.numAdded = BitVec.ofNat 32 n) (hdesc : notice.flags = packedEventFlagDesc) :
    (virtqueueKickPreparePacked notice q).1 = asksKick q.num e n notice.event := by
  have hold : (BitVec.ofNat 32 q.nextAvailIdx - q.numAdded).setWidth 16 =
      BitVec.ofNat 16 q.nextAvailIdx - BitVec.ofNat 16 n := by
    rw [hcounted]
    apply BitVec.eq_of_toNat_eq
    simp only [BitVec.toNat_setWidth, BitVec.toNat_sub, BitVec.toNat_ofNat]
    omega
  have hwrap := notice.wrapCounter_eq_iff q.availWrapCounter
  unfold virtqueueKickPreparePacked asksKick
  dsimp only
  rw [if_neg (not_not.mpr hdesc), hold, notice.eventIdx_eq, ← hplace.index_eq, ← hplace.wrap_eq,
    vringNeedEvent_eq]
  by_cases hsame : notice.event.2 = q.availWrapCounter
  · rw [if_neg (not_not.mpr (hwrap.mpr hsame)), if_neg (not_not.mpr hsame)]
  · rw [if_pos (hwrap.not.mpr hsame), if_pos hsame]

/-- In one state: the laps agree and few enough descriptors were made available. -/
private theorem PackedKickState.Marked.sound_iff {size : QueueSize} {s : PackedKickState β}
    {first e : ℕ} (h : s.Marked size first e) :
    s.Sound ↔ s.queue.ring.FlagsAgree ∧
      FewMade size.num s.queue.ring.nextAvailIdx s.made.length := by
  have hpos := size.pos
  have hsize := size.le
  unfold PackedKickState.Sound
  refine and_congr_right fun hagree => ?_
  have hplace : At s.queue.ring.num e s.queue.ring.nextAvailIdx s.queue.ring.availWrapCounter := by
    rw [h.num, ← hagree.1]
    exact h.next
  have hanswer : ∀ notice : PackedNotice, notice.flags = packedEventFlagDesc →
      (virtqueueKickPreparePacked notice s.queue.ring).1 =
        asksKick size.num e s.made.length notice.event := by
    intro notice hdesc
    rw [kickPreparePacked_eq hplace h.counted hdesc, h.num]
  rw [h.next.index_eq]
  constructor
  · intro hnotifies
    by_contra hmany
    have hpower : size.num = 2 ^ 15 ∨ size.num ≤ 2 ^ 14 := by
      obtain ⟨k, hk, hnum⟩ := size.power
      rcases Nat.lt_or_ge k 15 with hlt | hge
      · right
        rw [hnum]
        exact Nat.pow_le_pow_right (by decide) (by omega)
      · left
        rw [hnum, Nat.le_antisymm hk hge]
    obtain ⟨event, hmade, hlost⟩ := exists_not_asksKick hpower hpos h.position hmany
    obtain ⟨p, -, -, hslot, -⟩ := mem_marks.mp hmade
    have hlt := slot_lt hpos p
    obtain ⟨notice, hdesc, hevent⟩ := exists_notice event.1 event.2 (by omega)
    have hasked := hnotifies notice hdesc (by rw [hevent, h.made]; exact hmade)
    rw [hanswer notice hdesc, hevent, hlost] at hasked
    exact Bool.noConfusion hasked
  · intro hfew notice hdesc hmade
    rw [hanswer notice hdesc]
    rw [h.made] at hmade
    exact asksKick_marked hpos hsize h.position hfew notice.event hmade

/-! ## Steps -/

section

variable {size : QueueSize} {s : PackedKickState β} {first e : ℕ}

theorem PackedKickState.Marked.same (h : s.Marked size first e) {w : PackedQueue β}
    (hmirrors : ∃ q, PackedMirrors w q) (hsame : SameLaps s.queue.ring w.ring) :
    PackedKickState.Marked size ⟨w, s.made ++ newlyMade s.queue.ring w.ring⟩ first e ∧
      (w.ring.FlagsAgree ↔ s.queue.ring.FlagsAgree) := by
  rw [hsame.newlyMade, List.append_nil]
  unfold PackedRing.FlagsAgree
  rw [hsame.availUsedFlags, hsame.availWrapCounter]
  refine ⟨⟨hsame.num.trans h.num, hmirrors, h.position, h.made, ?_, ?_, ?_⟩, Iff.rfl⟩
  · show At size.num e w.ring.nextAvailIdx w.ring.availUsedFlags.avail
    rw [hsame.nextAvailIdx, hsame.availUsedFlags]
    exact h.next
  · show w.ring.availUsedFlags.used = !w.ring.availUsedFlags.avail
    rw [hsame.availUsedFlags]
    exact h.flipped
  · exact hsame.numAdded.trans h.counted

theorem PackedKickState.Marked.kick (h : s.Marked size first e) :
    PackedKickState.Marked size
      ⟨{ s.queue with ring := { s.queue.ring with numAdded := 0 } }, []⟩ e e := by
  obtain ⟨q, free, untaken, held, returned, start, hw, hq⟩ := h.mirrors
  refine ⟨h.num, ⟨q, free, untaken, held, returned, start, ?_, hq⟩, rfl, rfl, h.next, h.flipped,
    rfl⟩
  exact ⟨hw.layout.congr rfl rfl rfl rfl, hw.size, hw.lastUsed, hw.used, hw.taken, hw.nextAvail,
    hw.flipped, hw.avail, hw.stale, hw.unused, hw.held_eq,
    hw.returned_at.congr rfl fun _ _ _ => rfl, hw.untaken_at.congr fun _ _ _ => rfl⟩

private theorem Advances.newlyMade {q q' : PackedRing β} {count : ℕ} {direct : Bool}
    (h : Advances q q' e count direct) (hindex : q.nextAvailIdx = slot q.num e)
    (hroom : count ≤ q.numFree) : newlyMade q q' = marks q.num e count := by
  unfold VirtIO.newlyMade marks
  rw [h.numFree, Nat.sub_sub_self hroom, List.range'_eq_map_range, List.map_map]
  apply List.map_congr_left
  intro i hi
  have hslot : (q.nextAvailIdx + i) % q.num = slot q.num (e + i) := by
    rw [hindex]
    exact Nat.mod_add_mod e q.num i
  have havail := h.avail i (List.mem_range.mp hi)
  unfold PackedRing.at at havail
  rw [h.num] at havail
  simp only [Function.comp_apply, hslot, havail]

theorem PackedKickState.Marked.granted (h : s.Marked size first e) (r : AddRequest β)
    (hroom : addCost r.rest r.indirect ≤ s.queue.ring.numFree) :
    ∃ w, packedStep s.queue (.add r) = some (w, .added) ∧
      PackedKickState.Marked size ⟨w, s.made ++ newlyMade s.queue.ring w.ring⟩ first
        (e + addCost r.rest r.indirect) ∧
      (s.queue.ring.FlagsAgree → (w.ring.FlagsAgree ↔
        (r.indirect = none → addCost r.rest r.indirect ≠ s.queue.ring.num))) := by
  obtain ⟨q, hmirrors⟩ := h.mirrors
  obtain ⟨w, hstep, hnext⟩ := packed_simulates s.queue q (.add r) hmirrors
  obtain ⟨free, untaken, held, returned, start, hw, -⟩ := hmirrors
  have hplace := h.next
  rw [← h.num] at hplace
  obtain ⟨ring, hadd, hring⟩ := addBufPacked_advances hw r hroom hplace
  have hadded : packedStep s.queue (.add r) = some ({ s.queue with ring }, .added) := by
    simp only [packedStep, hadd]
  obtain ⟨rfl, -⟩ := Prod.mk.inj (Option.some.inj (hstep.symm.trans hadded))
  have hcost : 0 < addCost r.rest r.indirect := by
    unfold addCost
    split_ifs <;> omega
  have hfit := hw.layout.size_eq
  have hmade := hring.newlyMade hplace.index_eq hroom
  rw [h.num] at hmade
  have hlength : (s.made ++ marks size.num e (addCost r.rest r.indirect)).length =
      s.made.length + addCost r.rest r.indirect := by
    simp [marks]
  have hposition := h.position
  refine ⟨_, hadded, ?_, fun hagree => ?_⟩
  · dsimp only
    rw [hmade]
    refine ⟨hring.num.trans h.num, ⟨_, hnext⟩, ?_, ?_, ?_, hring.flipped, ?_⟩
    · show first + (s.made ++ _).length = _
      rw [hlength]
      omega
    · show s.made ++ _ = marks size.num first (s.made ++ _).length
      rw [hlength, ← marks_append, ← h.made, h.position]
    · rw [← h.num]
      exact hring.next
    · show ring.numAdded = BitVec.ofNat 32 (s.made ++ _).length
      rw [hlength, hring.numAdded, h.counted, BitVec.ofNat_add]
  · have hcounter : At s.queue.ring.num e s.queue.ring.nextAvailIdx
        s.queue.ring.availWrapCounter := hagree.1 ▸ hplace
    have hone : r.indirect.isNone = false → addCost r.rest r.indirect = 1 := by
      intro hsome
      unfold addCost
      rw [if_pos (by simpa using hsome)]
    have hwrap := hring.wrap_iff hcounter hcost (by omega) hone
    have hflags : ring.FlagsAgree ↔ ring.availWrapCounter =
        phase s.queue.ring.num (e + addCost r.rest r.indirect) := by
      unfold PackedRing.FlagsAgree
      rw [hring.flipped, hring.next.wrap_eq]
      constructor
      · intro hboth
        exact hboth.1.symm
      · intro heq
        rw [heq]
        exact ⟨rfl, rfl⟩
    rw [hflags, hwrap, Option.isNone_iff_eq_none, not_and]

/-- A step of a sound state leads to a sound one exactly when it keeps the laps. -/
private theorem packedKickStep_marked (h : s.Marked size first e) (i : PackedKickInput β) :
    ∃ first' e', (packedKickStep s i).Marked size first' e' ∧
      (s.Sound → ((packedKickStep s i).Sound ↔ keepsLaps s i)) := by
  have hquiet : ∀ {w : PackedQueue β}, PackedKickState.Marked size
      ⟨w, s.made ++ newlyMade s.queue.ring w.ring⟩ first e →
      SameLaps s.queue.ring w.ring → (w.ring.FlagsAgree ↔ s.queue.ring.FlagsAgree) →
      s.Sound → PackedKickState.Sound ⟨w, s.made ++ newlyMade s.queue.ring w.ring⟩ := by
    intro w hnext hsame hflags hsound
    rw [h.sound_iff] at hsound
    rw [hnext.sound_iff]
    dsimp only
    rw [hsame.newlyMade, List.append_nil, hsame.nextAvailIdx, hflags]
    exact hsound
  have hkick : s.Sound → PackedKickState.Sound
      ⟨{ s.queue with ring := { s.queue.ring with numAdded := 0 } }, []⟩ := by
    intro hsound
    rw [h.sound_iff] at hsound
    rw [h.kick.sound_iff]
    exact ⟨hsound.1, Or.inl (Nat.zero_le _)⟩
  cases i with
  | kickPrepare notice => exact ⟨e, e, h.kick, fun hsound => iff_of_true (hkick hsound) trivial⟩
  | kickAlways => exact ⟨e, e, h.kick, fun hsound => iff_of_true (hkick hsound) trivial⟩
  | ring input =>
      obtain ⟨q, hmirrors⟩ := h.mirrors
      obtain ⟨w, hstep, hnext⟩ := packed_simulates s.queue q input hmirrors
      by_cases hgranted : ∃ r, input = .add r ∧ addCost r.rest r.indirect ≤ s.queue.ring.numFree
      · obtain ⟨r, rfl, hroom⟩ := hgranted
        obtain ⟨w', hadded, hmarked, hflags⟩ := h.granted r hroom
        refine ⟨first, e + addCost r.rest r.indirect, ?_⟩
        simp only [packedKickStep, hadded]
        refine ⟨hmarked, fun hsound => ?_⟩
        rw [h.sound_iff] at hsound
        have hplace := h.next.index_eq
        have hend : w'.ring.nextAvailIdx =
            (s.queue.ring.nextAvailIdx + addCost r.rest r.indirect) % size.num := by
          rw [hmarked.next.index_eq, hplace]
          exact (Nat.mod_add_mod e size.num _).symm
        have hlength : (s.made ++ newlyMade s.queue.ring w'.ring).length =
            s.made.length + addCost r.rest r.indirect := by
          have hbefore := h.position
          have hafter := hmarked.position
          dsimp only at hafter
          omega
        rw [hmarked.sound_iff, hflags hsound.1]
        dsimp only [keepsLaps]
        rw [hend, hlength, h.num]
        exact ⟨fun hboth _ => hboth, fun hkept => hkept hroom⟩
      · have hrefused : ∀ r, input = .add r →
            virtqueueAddBufPacked r.sg r.rest r.out r.io r.indirect s.queue.ring = some none := by
          intro r heq
          obtain ⟨free, untaken, held, returned, start, hw, -⟩ := hmirrors
          exact addBufPacked_refused hw r (Nat.lt_of_not_le fun hroom => hgranted ⟨r, heq, hroom⟩)
        have hsame := packedStep_sameLaps hstep hrefused
        obtain ⟨hmarked, hflags⟩ := h.same ⟨_, hnext⟩ hsame
        refine ⟨first, e, ?_⟩
        simp only [packedKickStep, hstep]
        refine ⟨hmarked, fun hsound => iff_of_true (hquiet hmarked hsame hflags hsound) ?_⟩
        cases input with
        | add r => exact fun hroom => absurd ⟨r, rfl, hroom⟩ hgranted
        | take => trivial
        | complete k len => trivial
        | get => trivial

end

def PackedKickState.Kept (size : QueueSize) (s : PackedKickState β) : Prop :=
  (∃ first e, s.Marked size first e) ∧ s.Sound

/-- The laps agree in every state of a run, and no notification is lost there, exactly when no
granted request is a direct chain over the whole ring or makes too many descriptors available
since the last kick. -/
theorem packedKick_sound_iff (size : QueueSize) (inputs : List (PackedKickInput β)) :
    (∀ first, first <+: inputs →
      (run packedKickStep (PackedKickState.new β size.num) first).Sound) ↔
        Guarded packedKickStep keepsLaps (PackedKickState.new β size.num) inputs := by
  have hnew := PackedKickState.new_marked (β := β) size
  have hsound : (PackedKickState.new β size.num).Sound := by
    rw [hnew.sound_iff]
    exact ⟨⟨rfl, rfl⟩, Or.inl (Nat.zero_le _)⟩
  have hstep : ∀ s (i : PackedKickInput β), s.Kept size → keepsLaps s i →
      (packedKickStep s i).Kept size := by
    intro s i hs hkept
    obtain ⟨⟨first, e, hmarked⟩, hsound⟩ := hs
    obtain ⟨first', e', hnext, hiff⟩ := packedKickStep_marked hmarked i
    exact ⟨⟨first', e', hnext⟩, (hiff hsound).mpr hkept⟩
  have hbreak : ∀ s (i : PackedKickInput β), s.Kept size → ¬ keepsLaps s i →
      ¬ (packedKickStep s i).Sound := by
    intro s i hs hbroken
    obtain ⟨⟨first, e, hmarked⟩, hsound⟩ := hs
    obtain ⟨first', e', hnext, hiff⟩ := packedKickStep_marked hmarked i
    exact (hiff hsound).not.mpr hbroken
  exact forall_prefix_iff_guarded (fun s hs => hs.2) hstep hbreak ⟨⟨0, 0, hnew⟩, hsound⟩ inputs

/-- A ring of two, and a direct chain over both descriptors. -/
def wholeRing : List (PackedKickInput Unit) :=
  [.ring (.add ⟨⟨0, 1⟩, [⟨4096, 1⟩], 2, (), none, fun h => Bool.noConfusion h⟩)]

/-- The wrap counter stays behind, and the device that waits for the first descriptor is not
told. -/
theorem wholeRing_not_sound :
    let s := run packedKickStep (PackedKickState.new Unit 2) wholeRing
    let notice : PackedNotice := ⟨0x8000, packedEventFlagDesc⟩
    s.queue.ring.availUsedFlags = ⟨false, true⟩ ∧ s.queue.ring.availWrapCounter = true ∧
      notice.event ∈ s.made ∧ (virtqueueKickPreparePacked notice s.queue.ring).1 = false := by
  decide

end Viosnd.VirtIO
