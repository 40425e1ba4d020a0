import Viosnd.Acx.Moves
import Viosnd.Lib.QueueLedger

/-!
# Which packet the pump submits

The pump peeks the oldest packet, submits it and pops the oldest packet, each in a section of its
own. A producer that finds the queue full drops the oldest packet between any two of them. The pump
and the drains store `XrunCount` without the lock under which the producers store it.
-/

namespace Viosnd.Acx

open StepRun

/-! ## What the queue is for -/

/-- `RenderReadyQueue`, from the head on. -/
def RenderStream.ready (s : RenderStream) : List Ready :=
  RingQueue.contents s.renderReadyQueue s.renderReadyCapacity s.renderReadyHead
    s.renderReadyCount

/-- The thread found something to count and has not stored `XrunCount` yet. -/
def Place.counting : Place → Bool
  | .storeOverflow _ _ => true
  | .pump (.countFailure _) => true
  | .pump (.storeFailure _ _) => true
  | .drain .countError _ _ => true
  | .drain (.storeError _) _ _ => true
  | _ => false

/-- `XrunCount` is the number of things found to count, but for those on their way into it. -/
def Counted (xrunCount : ULONG) (counting found : ℕ) : Prop :=
  xrunCount + BitVec.ofNat 32 counting = BitVec.ofNat 32 found

/-- Every pop removes what was peeked, and every queued packet is submitted once and in order, or
dropped and counted once, or still waits. -/
structure SubmissionIdentity (w : World) : Prop where
  popped : ∀ pair ∈ w.stream.log.popped, pair.1 = pair.2
  inOrder : w.stream.log.submitted.Sublist w.stream.log.queued
  once : (w.stream.log.submitted ++ w.stream.log.dropped).Nodup
  settled : ∀ packet ∈ w.stream.log.queued, packet ∈ w.stream.log.submitted ∨
    packet ∈ w.stream.log.dropped ∨ packet ∈ w.stream.ready
  counted : Counted w.stream.xrunCount (w.threads.countP Place.counting)
    (w.stream.log.dropped.length + w.stream.log.badStatuses)

/-- The packet that was submitted or given up and is not popped yet. -/
def Place.decided : Place → Option Ready
  | .pump (.countFailure packet) => some packet
  | .pump (.storeFailure packet _) => some packet
  | .pump (.pop packet _) => some packet
  | _ => none

/-- The submission finds every period in flight, or no room on the virtqueue. -/
def RenderStream.SubmitBusy (s : RenderStream) (packet : ULONG) : Prop :=
  s.submitSource packet ≠ none ∧ (s.freePeriod = none ∨ ¬ s.TxHasRoom)

instance (s : RenderStream) (packet : ULONG) : Decidable (s.SubmitBusy packet) :=
  inferInstanceAs (Decidable (_ ≠ none ∧ _))

/-- No overflow takes away a packet the pump has in its hands, and no update of `XrunCount` falls
between the read and the store of another. `decided` is what the pump has decided on. -/
def MoveGuard (s : RenderStream) (decided : List Ready) : Place → Prop
  | .setRenderPacket _ => s.QueueFull → decided = []
  | .storeOverflow _ xrunCount => s.xrunCount = xrunCount
  | .pump (.submit packet) =>
      s.SubmitBusy packet.packet ∨ peekRenderPacket s = some packet
  | .pump (.storeFailure _ xrunCount) => s.xrunCount = xrunCount
  | .drain (.storeError xrunCount) _ _ => s.xrunCount = xrunCount
  | _ => True

def SubmissionGuard (w : World) : Input → Prop
  | .move thread => ∀ a ∈ w.threads[thread]?, w.waits a = false →
      MoveGuard w.stream (w.threads.filterMap Place.decided) a
  | _ => True

instance (s : RenderStream) (decided : List Ready) (a : Place) :
    Decidable (MoveGuard s decided a) :=
  match a with
  | .setRenderPacket _ => inferInstanceAs (Decidable (s.QueueFull → decided = []))
  | .storeOverflow _ xrunCount => inferInstanceAs (Decidable (s.xrunCount = xrunCount))
  | .pump (.submit packet) =>
      inferInstanceAs (Decidable (s.SubmitBusy packet.packet ∨ peekRenderPacket s = some packet))
  | .pump (.storeFailure _ xrunCount) => inferInstanceAs (Decidable (s.xrunCount = xrunCount))
  | .drain (.storeError xrunCount) _ _ => inferInstanceAs (Decidable (s.xrunCount = xrunCount))
  | .idle | .queued | .pumpRenderQueue | .drainRenderQueue => isTrue trivial
  | .pump .peek | .pump (.countFailure _) | .pump (.pop _ _) | .pump .release => isTrue trivial
  | .drain .readStatus _ _ | .drain .countError _ _ | .drain .readLatency _ _ => isTrue trivial
  | .drain .comparePacketNumber _ _ | .drain .storePacketsCompleted _ _ => isTrue trivial
  | .drain .storePosition _ _ | .drain .notify _ _ => isTrue trivial

instance (w : World) (i : Input) : Decidable (SubmissionGuard w i) :=
  match i with
  | .move thread => inferInstanceAs (Decidable (∀ a ∈ w.threads[thread]?, w.waits a = false →
      MoveGuard w.stream (w.threads.filterMap Place.decided) a))
  | .call _ _ | .complete _ _ _ | .write _ _ => isTrue trivial

/-! ## Counting -/

section

variable {xrunCount stored : ULONG} {counting found : ℕ}

theorem Counted.find (h : Counted xrunCount counting found) :
    Counted xrunCount (counting + 1) (found + 1) := by
  unfold Counted at h ⊢
  rw [BitVec.ofNat_add, BitVec.ofNat_add, ← h, BitVec.add_assoc]

private theorem counted_store : Counted (xrunCount + 1) counting found ↔
    Counted xrunCount (counting + 1) found := by
  unfold Counted
  rw [BitVec.ofNat_add, BitVec.add_assoc, BitVec.add_comm 1]
  exact Iff.rfl

theorem Counted.unique (h : Counted xrunCount counting found)
    (hstored : Counted stored counting found) : xrunCount = stored := by
  unfold Counted at h hstored
  rw [← hstored] at h
  exact (BitVec.add_left_inj _).mp h

end

/-! ## The ring -/

/-- The fields of the ring hold the list. -/
def RenderStream.Holds (s : RenderStream) (l : List Ready) : Prop :=
  RingQueue.Holds s.renderReadyQueue s.renderReadyCapacity s.renderReadyHead s.renderReadyTail
    s.renderReadyCount l

variable {s s' : RenderStream} {l : List Ready}

private theorem RenderStream.Holds.ready_eq (h : s.Holds l) : s.ready = l :=
  (RingQueue.Holds.eq_contents h).symm

private theorem peek_of_holds (h : s.Holds l) : peekRenderPacket s = l.head? := by
  unfold peekRenderPacket
  by_cases hcount : s.renderReadyCount = 0
  · rw [if_neg (by simpa using hcount), RingQueue.Holds.eq_nil h hcount]
    rfl
  · obtain ⟨rest, hl⟩ := RingQueue.Holds.front h hcount
    rw [if_pos hcount, hl]
    rfl

private theorem holds_full (h : s.Holds l) (hfull : s.QueueFull) :
    s.renderReadyCount ≠ 0 ∧ ∃ rest, l = s.renderReadyQueue s.renderReadyHead :: rest := by
  have hcount : s.renderReadyCount ≠ 0 := by
    have hpos := RingQueue.Holds.head_lt h
    unfold RenderStream.QueueFull at hfull
    omega
  exact ⟨hcount, RingQueue.Holds.front h hcount⟩

private theorem dropOldest_holds (h : s.Holds l) (hfull : s.QueueFull) :
    s.dropOldest.Holds l.tail :=
  RingQueue.Holds.pop h (holds_full h hfull).1

private theorem storeReady_holds (h : s.Holds l) (hroom : ¬ s.QueueFull) (packet : ULONG) :
    (s.storeReady packet).Holds (l ++ [⟨packet, s.nextSerial⟩]) :=
  RingQueue.Holds.push h (Nat.lt_of_not_le hroom) _

private theorem dropOldest_not_full (h : s.Holds l) (hfull : s.QueueFull) :
    ¬ s.dropOldest.QueueFull := by
  have hcount := (holds_full h hfull).1
  have hfits := RingQueue.Holds.fits h
  unfold RenderStream.QueueFull RenderStream.dropOldest
  dsimp only
  omega

private theorem popRenderPacket_eq (h : s.Holds l) {front : Ready} {rest : List Ready}
    (hl : l = front :: rest) (peeked : Ready) : popRenderPacket s peeked = { s with
      renderReadyHead := (s.renderReadyHead + 1) % s.renderReadyCapacity
      renderReadyCount := s.renderReadyCount - 1
      log := { s.log with
        popped := s.log.popped ++ [(front, peeked)] } } := by
  have hcount : s.renderReadyCount ≠ 0 := by
    intro hzero
    rw [RingQueue.Holds.eq_nil h hzero] at hl
    cases hl
  obtain ⟨rest', hfront⟩ := RingQueue.Holds.front h hcount
  rw [hl] at hfront
  unfold popRenderPacket
  rw [if_pos hcount, (List.cons.inj hfront).1]

private theorem popRenderPacket_holds (h : s.Holds l) {front : Ready} {rest : List Ready}
    (hl : l = front :: rest) (peeked : Ready) : (popRenderPacket s peeked).Holds rest := by
  have hcount : s.renderReadyCount ≠ 0 := by
    intro hzero
    rw [RingQueue.Holds.eq_nil h hzero] at hl
    cases hl
  have hpop := RingQueue.Holds.pop h hcount
  rw [hl] at hpop
  rw [popRenderPacket_eq h hl]
  exact hpop

/-! ## The ledger -/

/-- The accounts of the queue when `decided` is what the pump has submitted or given up and not
popped, and `counting` threads have yet to store `XrunCount`. -/
structure Ledger (s : RenderStream) (decided : List Ready) (counting : ℕ) : Prop where
  holds : s.Holds s.ready
  balanced : QueueLedger.Balanced s.log.queued s.log.submitted s.log.dropped s.ready decided
  serials : s.log.queued.map Ready.serial = List.range s.nextSerial
  popped : ∀ pair ∈ s.log.popped, pair.1 = pair.2
  counted : Counted s.xrunCount counting (s.log.dropped.length + s.log.badStatuses)

variable {decided : List Ready} {counting : ℕ}

private theorem Ledger.queued_nodup (h : Ledger s decided counting) : s.log.queued.Nodup := by
  apply List.Nodup.of_map Ready.serial
  rw [h.serials]
  exact List.nodup_range

theorem Ledger.store (h : Ledger s decided counting) (hroom : ¬ s.QueueFull) (packet : ULONG) :
    Ledger (s.storeReady packet) decided counting := by
  have hholds := storeReady_holds h.holds hroom packet
  have hready := hholds.ready_eq
  refine ⟨?_, ?_, ?_, h.popped, h.counted⟩
  · rw [hready]
    exact hholds
  · rw [hready]
    exact h.balanced.queue _
  · show (s.log.queued ++ [_]).map Ready.serial = List.range (s.nextSerial + 1)
    rw [List.map_append, h.serials, List.range_succ]
    rfl

theorem Ledger.overflow (h : Ledger s [] counting) (hfull : s.QueueFull) :
    Ledger s.dropOldest [] (counting + 1) := by
  obtain ⟨-, rest, hready⟩ := holds_full h.holds hfull
  have hholds := dropOldest_holds h.holds hfull
  have hdropped := hholds.ready_eq
  have hbalanced := h.balanced
  rw [hready] at hbalanced
  refine ⟨?_, ?_, h.serials, h.popped, ?_⟩
  · rw [hdropped]
    exact hholds
  · rw [hdropped, hready]
    exact hbalanced.drop.remove
  · show Counted s.xrunCount (counting + 1) ((s.log.dropped ++ [_]).length + s.log.badStatuses)
    rw [List.length_append, List.length_singleton, Nat.add_right_comm]
    exact h.counted.find

theorem Ledger.count (h : Ledger s decided (counting + 1)) : Ledger { s with
    xrunCount := s.xrunCount + 1 } decided counting :=
  ⟨h.holds, h.balanced, h.serials, h.popped, counted_store.mpr h.counted⟩

theorem Ledger.submit (h : Ledger s [] counting) {packet : Ready}
    (hpeek : peekRenderPacket s = some packet) (i : ℕ) (audio : List Byte) :
    Ledger ((s.fillPeriod i packet.packet audio).addChain i packet) [packet] counting := by
  obtain ⟨rest, hready⟩ := List.head?_eq_some_iff.mp ((peek_of_holds h.holds).symm.trans hpeek)
  have hbalanced := h.balanced
  rw [hready] at hbalanced
  refine ⟨h.holds, ?_, h.serials, h.popped, h.counted⟩
  show QueueLedger.Balanced s.log.queued (s.log.submitted ++ [packet]) s.log.dropped s.ready
    [packet]
  rw [hready]
  exact hbalanced.take

theorem Ledger.fail (h : Ledger s [] counting) {packet : Ready}
    (hpeek : peekRenderPacket s = some packet) :
    Ledger { s with
      log := { s.log with
        dropped := s.log.dropped ++ [packet] } } [packet] (counting + 1) := by
  obtain ⟨rest, hready⟩ := List.head?_eq_some_iff.mp ((peek_of_holds h.holds).symm.trans hpeek)
  have hbalanced := h.balanced
  rw [hready] at hbalanced
  refine ⟨h.holds, ?_, h.serials, h.popped, ?_⟩
  · show QueueLedger.Balanced s.log.queued s.log.submitted (s.log.dropped ++ [packet]) s.ready
      [packet]
    rw [hready]
    exact hbalanced.drop
  · show Counted s.xrunCount (counting + 1) ((s.log.dropped ++ [packet]).length + s.log.badStatuses)
    rw [List.length_append, List.length_singleton, Nat.add_right_comm]
    exact h.counted.find

theorem Ledger.pop {packet : Ready} (h : Ledger s [packet] counting) :
    Ledger (popRenderPacket s packet) [] counting := by
  obtain ⟨rest, hready⟩ := h.balanced.front
  have hready : s.ready = packet :: rest := hready.symm
  have hholds := popRenderPacket_holds h.holds hready packet
  have hrest := hholds.ready_eq
  have hbalanced := h.balanced
  rw [hready] at hbalanced
  refine ⟨?_, ?_, ?_, ?_, ?_⟩
  · rw [hrest]
    exact hholds
  · rw [hrest, popRenderPacket_eq h.holds hready]
    exact hbalanced.remove
  · rw [popRenderPacket_eq h.holds hready]
    exact h.serials
  · rw [popRenderPacket_eq h.holds hready]
    intro pair hpair
    rcases List.mem_append.mp hpair with hold | hnew
    · exact h.popped pair hold
    · rw [List.mem_singleton.mp hnew]
  · rw [popRenderPacket_eq h.holds hready]
    exact h.counted

/-- A guarded step keeps the accounts. The other threads have decided nothing while this one is in
the pump loop. -/
theorem Moves.ledger {a b : Place} {others : List Ready} (hmoves : Moves s a s' b)
    (h : Ledger s (a.decided.toList ++ others) (counting + a.counting.toNat))
    (halone : a.pumping = true → others = []) (hlocked : a.holdsTxLock = true → ¬ s.QueueFull)
    (hg : MoveGuard s (a.decided.toList ++ others) a) :
    Ledger s' (b.decided.toList ++ others) (counting + b.counting.toNat) := by
  cases hmoves with
  | queue packet hcapacity hfull => exact h.store hfull packet
  | overflow packet hcapacity hfull =>
      obtain rfl := hg hfull
      exact h.overflow hfull
  | storeOverflow packet xrunCount =>
      obtain rfl : s.xrunCount = xrunCount := hg
      exact h.count.store (hlocked rfl) packet
  | submit packet audio i hsource hfree hroom =>
      obtain rfl := halone rfl
      have hpeek : peekRenderPacket s = some packet := by
        apply hg.resolve_left
        rintro ⟨-, hnone | hfull⟩
        · rw [hfree] at hnone
          cases hnone
        · exact hfull hroom
      exact h.submit hpeek i audio
  | fail packet hsource =>
      obtain rfl := halone rfl
      exact h.fail (hg.resolve_left fun hbusy => hbusy.1 hsource)
  | storeFailure packet xrunCount =>
      obtain rfl : s.xrunCount = xrunCount := hg
      exact h.count
  | pop packet last =>
      obtain rfl := halone rfl
      cases last with
      | false => exact h.pop
      | true => exact h.pop
  | badStatus taken seen hstatus =>
      exact ⟨h.holds, h.balanced, h.serials, h.popped, h.counted.find⟩
  | storeError taken seen xrunCount =>
      obtain rfl : s.xrunCount = xrunCount := hg
      exact h.count
  | _ => exact ⟨h.holds, h.balanced, h.serials, h.popped, h.counted⟩

/-! ## Steps the guard forbids -/

private theorem Ledger.decided_head (h : Ledger s decided counting) (hfull : s.QueueFull)
    (hdecided : decided ≠ []) : s.renderReadyQueue s.renderReadyHead ∈ decided := by
  obtain ⟨-, rest, hready⟩ := holds_full h.holds hfull
  obtain ⟨tail, htail⟩ := h.balanced.front
  obtain ⟨packet, others, rfl⟩ := List.exists_cons_of_ne_nil hdecided
  rw [hready, List.cons_append] at htail
  rw [← (List.cons.inj htail).1]
  exact List.mem_cons_self

/-- After a step the guard forbids some packet is settled twice, or `XrunCount` is wrong. -/
theorem Moves.breaks {a b : Place} {others : List Ready} (hmoves : Moves s a s' b)
    (h : Ledger s (a.decided.toList ++ others) (counting + a.counting.toNat))
    (hpeeked : ∀ packet, a = .pump (.submit packet) →
      packet ∈ s.log.dropped ∨ peekRenderPacket s = some packet)
    (hg : ¬ MoveGuard s (a.decided.toList ++ others) a)
    (honce : (s'.log.submitted ++ s'.log.dropped).Nodup)
    (hcounted : Counted s'.xrunCount (counting + b.counting.toNat)
      (s'.log.dropped.length + s'.log.badStatuses)) : False := by
  have htwice : ∀ packet, packet ∈ s.log.submitted ++ s.log.dropped →
      ¬ (s.log.submitted ++ (s.log.dropped ++ [packet])).Nodup := by
    intro packet hmem hnodup
    rw [← List.append_assoc] at hnodup
    exact (List.nodup_append'.mp hnodup).2.2 hmem (List.mem_singleton_self packet)
  have hlost : ∀ packet, a = .pump (.submit packet) →
      ¬ (s.SubmitBusy packet.packet ∨ peekRenderPacket s = some packet) →
      packet ∈ s.log.dropped := by
    intro packet ha hnot
    exact (hpeeked packet ha).resolve_right fun hpeek => hnot (Or.inr hpeek)
  cases hmoves with
  | queue packet hcapacity hfull => exact hg fun hfull' => absurd hfull' hfull
  | overflow packet hcapacity hfull =>
      have hhead := h.decided_head hfull fun hnil => hg fun _ => hnil
      exact htwice _ (h.balanced.decided_mem hhead) honce
  | storeOverflow packet xrunCount =>
      have hsame : s.xrunCount + 1 = xrunCount + 1 := (counted_store.mpr h.counted).unique hcounted
      exact hg ((BitVec.add_left_inj 1).mp hsame)
  | refuse packet hcapacity =>
      have hpos := RingQueue.Holds.head_lt h.holds
      omega
  | noPeriod packet audio hsource hfree =>
      exact hg (Or.inl ⟨by rw [hsource]; simp, Or.inl hfree⟩)
  | noRoom packet audio i hsource hfree hroom =>
      exact hg (Or.inl ⟨by rw [hsource]; simp, Or.inr hroom⟩)
  | submit packet audio i hsource hfree hroom =>
      have hmem := hlost packet rfl hg
      have hboth := (List.nodup_append'.mp honce).2.2
      exact hboth (List.mem_append_right _ (List.mem_singleton_self packet)) hmem
  | fail packet hsource =>
      exact htwice packet (List.mem_append_right _ (hlost packet rfl hg)) honce
  | storeFailure packet xrunCount =>
      have hsame : s.xrunCount + 1 = xrunCount + 1 := (counted_store.mpr h.counted).unique hcounted
      exact hg ((BitVec.add_left_inj 1).mp hsame)
  | storeError taken seen xrunCount =>
      have hsame : s.xrunCount + 1 = xrunCount + 1 := (counted_store.mpr h.counted).unique hcounted
      exact hg ((BitVec.add_left_inj 1).mp hsame)
  | _ => exact hg trivial

/-! ## Runs -/

structure Submitting (w : World) : Prop where
  onePump : w.OnePump
  oneHolder : w.OneHolder
  /-- Whoever dropped a packet has room for its own. -/
  room : ∀ a ∈ w.threads, a.holdsTxLock = true → ¬ w.stream.QueueFull
  ledger : Ledger w.stream (w.threads.filterMap Place.decided) (w.threads.countP Place.counting)
  /-- What the pump is about to submit was dropped meanwhile or is at the head of the queue. -/
  peeked : ∀ packet, .pump (.submit packet) ∈ w.threads →
    packet ∈ w.stream.log.dropped ∨ peekRenderPacket w.stream = some packet

theorem Submitting.identity {w : World} (h : Submitting w) : SubmissionIdentity w where
  popped := h.ledger.popped
  inOrder := h.ledger.balanced.taken_sublist
  once := h.ledger.balanced.nodup h.ledger.queued_nodup
  settled := fun _ hpacket => h.ledger.balanced.complete hpacket
  counted := h.ledger.counted

private theorem Place.decided_pumping {a : Place} (h : a.pumping = false) : a.decided = none := by
  cases a with
  | pump place => simp at h
  | _ => rfl

private theorem Moves.decided_none {a b : Place} (h : Moves s a s' b) (ha : a.pumping = false) :
    b.decided = none := by
  cases h with
  | _ => first | rfl | exact absurd ha (by simp)

private theorem World.OnePump.decided_move {w : World} (h : w.OnePump) {t : ℕ} {a b : Place}
    (ha : w.threads[t]? = some a) (hmoves : Moves w.stream a s' b) :
    ∃ others, w.threads.filterMap Place.decided = a.decided.toList ++ others ∧
      (w.threads.set t b).filterMap Place.decided = b.decided.toList ++ others ∧
      (a.pumping = true → others = []) := by
  cases hpump : a.pumping with
  | false =>
      have hnone := Place.decided_pumping hpump
      have hnone' := hmoves.decided_none hpump
      refine ⟨w.threads.filterMap Place.decided, by rw [hnone]; rfl, ?_, by simp⟩
      rw [ThreadPool.filterMap_move_eq ha _ (hnone'.trans hnone.symm), hnone']
      rfl
  | true =>
      have hone : w.threads.countP Place.pumping ≤ 1 := by
        rw [h]
        exact Bool.toNat_le _
      have hsame : w.threads.set t a = w.threads := by
        obtain ⟨hlt, rfl⟩ := List.getElem?_eq_some_iff.mp ha
        exact List.set_getElem_self hlt
      have halone := ThreadPool.filterMap_alone ha hpump hone Place.decided
        fun c => Place.decided_pumping
      refine ⟨[], ?_, ?_, fun _ => rfl⟩
      · rw [List.append_nil, ← halone a, hsame]
      · rw [List.append_nil, halone b]

private theorem World.counting_move {w : World} {t : ℕ} {a : Place} (ha : w.threads[t]? = some a)
    (b : Place) : ∃ counting, w.threads.countP Place.counting = counting + a.counting.toNat ∧
      (w.threads.set t b).countP Place.counting = counting + b.counting.toNat := by
  have hcount := ThreadPool.countP_move ha Place.counting b
  have hself := ThreadPool.countP_move ha Place.counting .idle
  have hidle : Place.idle.counting = false := rfl
  rw [hidle, Bool.toNat_false, Nat.add_zero] at hself
  exact ⟨_, hself.symm, by omega⟩

private theorem peek_storeReady (h : s.Holds l) (hroom : ¬ s.QueueFull) (next : ULONG)
    {packet : Ready} (hpeek : peekRenderPacket s = some packet) :
    peekRenderPacket (s.storeReady next) = some packet := by
  rw [peek_of_holds h] at hpeek
  rw [peek_of_holds (storeReady_holds h hroom next)]
  obtain ⟨rest, hl⟩ := List.head?_eq_some_iff.mp hpeek
  rw [hl]
  rfl

/-- A step outside of the pump loop leaves a packet the pump peeked at the head of the queue, or
drops it. -/
theorem Moves.front {a b : Place} (hmoves : Moves s a s' b) (ha : a.pumping = false)
    (hroom : a.holdsTxLock = true → ¬ s.QueueFull) (h : s.Holds s.ready) {packet : Ready}
    (hpacket : packet ∈ s.log.dropped ∨ peekRenderPacket s = some packet) :
    packet ∈ s'.log.dropped ∨ peekRenderPacket s' = some packet := by
  cases hmoves with
  | queue next hcapacity hfull => exact hpacket.imp id (peek_storeReady h hfull next)
  | storeOverflow next xrunCount =>
      have hcounted : RenderStream.Holds { s with
        xrunCount := xrunCount + 1 } s.ready := h
      exact hpacket.imp id (peek_storeReady hcounted (hroom rfl) next)
  | overflow next hcapacity hfull =>
      obtain ⟨hcount, -, -⟩ := holds_full h hfull
      left
      rcases hpacket with hdropped | hpeek
      · exact List.mem_append_left _ hdropped
      · rw [peekRenderPacket, if_pos hcount] at hpeek
        rw [← Option.some.inj hpeek]
        exact List.mem_append_right _ (List.mem_singleton_self _)
  | _ => first | exact hpacket | exact absurd ha (by simp)

private theorem Moves.sameCount {a b : Place} (hmoves : Moves s a s' b)
    (htakes : a.takesTxLock s = false) (hholds : a.holdsTxLock = false) :
    s'.QueueFull ↔ s.QueueFull := by
  cases hmoves with
  | queue packet hcapacity hfull => exact absurd hcapacity (of_decide_eq_false htakes)
  | overflow packet hcapacity hfull => exact absurd hcapacity (of_decide_eq_false htakes)
  | storeOverflow packet xrunCount => cases hholds
  | pop packet last => cases htakes
  | _ => exact Iff.rfl

/-- Whoever drops a packet makes room, and nobody else queues before its own is stored. -/
private theorem Submitting.keepsRoom {w : World} (h : Submitting w) {t : ℕ} {a b : Place}
    (ha : w.threads[t]? = some a) (hfree : w.waits a = false) (hmoves : Moves w.stream a s' b) :
    ∀ c ∈ w.threads.set t b, c.holdsTxLock = true → ¬ s'.QueueFull := by
  intro c hc hholds
  cases hb : b.holdsTxLock with
  | true =>
      cases hmoves with
      | overflow packet hcapacity hfull => exact dropOldest_not_full h.ledger.holds hfull
      | pop packet last => cases last <;> cases hb
      | _ => cases hb
  | false =>
      rcases ThreadPool.mem_of_mem_move hc with hold | rfl
      · have hholder : 0 < w.threads.countP Place.holdsTxLock :=
          List.countP_pos_iff.mpr ⟨c, hold, hholds⟩
        have htakes : a.takesTxLock w.stream = false := by
          by_contra htakes
          have hnone := World.no_holder hfree (Bool.eq_true_of_not_eq_false htakes)
          omega
        have hother : a.holdsTxLock = false := by
          by_contra hself
          have hself : a.holdsTxLock = true := Bool.eq_true_of_not_eq_false hself
          have hsame := ThreadPool.mem_alone ha hself h.oneHolder hc hholds
          rw [hsame, hb] at hholds
          cases hholds
        rw [hmoves.sameCount htakes hother]
        exact h.room c hold hholds
      · rw [hb] at hholds
        cases hholds

private theorem Moves.to_submit {a b : Place} (hmoves : Moves s a s' b) {packet : Ready}
    (hb : b = .pump (.submit packet)) :
    a = .pump .peek ∧ s' = s ∧ peekRenderPacket s = some packet := by
  cases hmoves with
  | found hfound =>
      cases hb
      exact ⟨rfl, rfl, if_pos hfound⟩
  | pop peeked last => cases last <;> cases hb
  | _ => cases hb

theorem Submitting.call {w : World} (h : Submitting w) {t : ℕ} (c : Call)
    (hidle : w.threads[t]? = some .idle)
    (hone : World.OnePump ⟨w.stream, w.threads.set t c.entry⟩)
    (hholder : World.OneHolder ⟨w.stream, w.threads.set t c.entry⟩) :
    Submitting ⟨w.stream, w.threads.set t c.entry⟩ := by
  have hcounting := ThreadPool.countP_move hidle Place.counting c.entry
  have hentry : c.entry.decided = Place.idle.decided ∧
      c.entry.counting = Place.idle.counting := by
    cases c <;> exact ⟨rfl, rfl⟩
  rw [hentry.2] at hcounting
  refine ⟨hone, hholder, fun a ha hholds => ?_, ?_, fun packet hpacket => ?_⟩
  · rcases ThreadPool.mem_of_mem_move ha with hold | rfl
    · exact h.room a hold hholds
    · cases c <;> cases hholds
  · dsimp only
    rw [ThreadPool.filterMap_move_eq hidle _ hentry.1, Nat.add_right_cancel hcounting]
    exact h.ledger
  · rcases ThreadPool.mem_of_mem_move hpacket with hold | hnew
    · exact h.peeked packet hold
    · cases c <;> cases hnew

theorem Submitting.move {w : World} (h : Submitting w) {t : ℕ} {a b : Place}
    (ha : w.threads[t]? = some a) (hfree : w.waits a = false) (hmoves : Moves w.stream a s' b)
    (hone : World.OnePump ⟨s', w.threads.set t b⟩)
    (hholder : World.OneHolder ⟨s', w.threads.set t b⟩)
    (hg : MoveGuard w.stream (w.threads.filterMap Place.decided) a) :
    Submitting ⟨s', w.threads.set t b⟩ := by
  obtain ⟨others, hdecided, hdecided', halone⟩ := h.onePump.decided_move ha hmoves
  obtain ⟨counting, hcounting, hcounting'⟩ := World.counting_move ha b
  have hledger := h.ledger
  rw [hdecided, hcounting] at hledger
  rw [hdecided] at hg
  have hroom := h.room a (List.mem_of_getElem? ha)
  refine ⟨hone, hholder, h.keepsRoom ha hfree hmoves, ?_, fun packet hpacket => ?_⟩
  · dsimp only
    rw [hdecided', hcounting']
    exact hmoves.ledger hledger halone hroom hg
  · cases hpump : a.pumping with
    | false =>
        rcases ThreadPool.mem_of_mem_move hpacket with hold | hnew
        · exact hmoves.front hpump hroom h.ledger.holds (h.peeked packet hold)
        · obtain ⟨rfl, -, -⟩ := hmoves.to_submit hnew.symm
          cases hpump
    | true =>
        have hcount : w.threads.countP Place.pumping ≤ 1 := by
          rw [h.onePump]
          exact Bool.toNat_le _
        have hsubmit := ThreadPool.mem_alone ha hpump hcount hpacket rfl
        obtain ⟨-, rfl, hpeek⟩ := hmoves.to_submit hsubmit.symm
        exact Or.inr hpeek

theorem Submitting.step {w : World} (h : Submitting w) (i : Input) (hg : SubmissionGuard w i) :
    Submitting (w.step i) := by
  have hone := h.onePump.step i
  have hholder := h.oneHolder.step i
  revert hone hholder
  apply World.step_cases (P := fun w' => w'.OnePump → w'.OneHolder → Submitting w') w i
  · exact fun _ _ => h
  · intro t c _ hidle hone hholder
    exact h.call c hidle hone hholder
  · intro t a s' b hi ha hfree hmoves hone hholder
    subst hi
    exact h.move ha hfree hmoves hone hholder (hg a ha hfree)
  · intro k chain status latencyBytes _ hone hholder
    exact ⟨hone, hholder, h.room, ⟨h.ledger.holds, h.ledger.balanced, h.ledger.serials,
      h.ledger.popped, h.ledger.counted⟩, h.peeked⟩
  · intro index audio hone hholder
    exact ⟨hone, hholder, h.room, ⟨h.ledger.holds, h.ledger.balanced, h.ledger.serials,
      h.ledger.popped, h.ledger.counted⟩, h.peeked⟩

theorem Submitting.breaks {w : World} (h : Submitting w) (i : Input)
    (hg : ¬ SubmissionGuard w i) : ¬ SubmissionIdentity (w.step i) := by
  cases i with
  | move t =>
      intro hidentity
      cases ha : w.threads[t]? with
      | none => exact hg fun a hmem => by rw [ha] at hmem; cases hmem
      | some a =>
          have hmoves := stepPlace_moves w.stream a
          have hfree : w.waits a = false := by
            by_contra hwaits
            exact hg fun a' ha' hfree => by
              obtain rfl := Option.some.inj (ha.symm.trans ha')
              exact absurd hfree hwaits
          have hstep : w.step (.move t) =
              ⟨(stepPlace w.stream a).1, w.threads.set t (stepPlace w.stream a).2⟩ := by
            simp [World.step, ha, hfree]
          obtain ⟨others, hdecided, -, -⟩ := h.onePump.decided_move ha hmoves
          obtain ⟨counting, hcounting, hcounting'⟩ :=
            World.counting_move ha (stepPlace w.stream a).2
          have hledger := h.ledger
          rw [hdecided, hcounting] at hledger
          have hnot : ¬ MoveGuard w.stream (a.decided.toList ++ others) a := by
            rw [← hdecided]
            exact fun hmove => hg fun a' ha' _ => by
              obtain rfl := Option.some.inj (ha.symm.trans ha')
              exact hmove
          have honce := hidentity.once
          have hcounted := hidentity.counted
          rw [hstep] at honce hcounted
          dsimp only at honce hcounted
          rw [hcounting'] at hcounted
          refine hmoves.breaks hledger (fun packet hsubmit => ?_) hnot honce hcounted
          exact h.peeked packet (hsubmit ▸ List.mem_of_getElem? ha)
  | call t c => exact absurd trivial hg
  | complete k status latencyBytes => exact absurd trivial hg
  | write index audio => exact absurd trivial hg

private theorem World.fresh_submitting (setup : Setup) (hcapacity : 0 < setup.renderReadyCapacity)
    (threadCount : ℕ) : Submitting (World.fresh setup threadCount) := by
  have hidle : ∀ a ∈ (World.fresh setup threadCount).threads, a = .idle := fun a ha =>
    List.eq_of_mem_replicate ha
  have hdecided : (World.fresh setup threadCount).threads.filterMap Place.decided = [] := by
    rw [List.filterMap_eq_nil_iff]
    intro a ha
    rw [hidle a ha]
    rfl
  have hcounting : (World.fresh setup threadCount).threads.countP Place.counting = 0 := by
    rw [List.countP_eq_zero]
    intro a ha
    rw [hidle a ha]
    exact Bool.false_ne_true
  refine ⟨World.fresh_onePump setup threadCount, World.fresh_oneHolder setup threadCount, ?_, ?_,
    ?_⟩
  · intro a ha hholds
    rw [hidle a ha] at hholds
    cases hholds
  · rw [hdecided, hcounting]
    exact ⟨RingQueue.holds_nil _ hcapacity, QueueLedger.balanced_nil, rfl, by simp [World.fresh,
      RenderStream.fresh], rfl⟩
  · intro packet hpacket
    cases hidle _ hpacket

/-- Whatever the interleaving of the producers, the pump and the drains, the queue does what it is
for exactly as long as no step is one the guard forbids. -/
theorem run_submissionIdentity_iff (setup : Setup) (hcapacity : 0 < setup.renderReadyCapacity)
    (threadCount : ℕ) (inputs : List Input) :
    (∀ first, first <+: inputs →
        SubmissionIdentity (run World.step (World.fresh setup threadCount) first)) ↔
      Guarded World.step SubmissionGuard (World.fresh setup threadCount) inputs :=
  forall_prefix_iff_guarded (P := SubmissionIdentity) (fun w (h : Submitting w) => h.identity)
    (fun _ i h hg => h.step i hg) (fun _ i h hg => h.breaks i hg)
    (World.fresh_submitting setup hcapacity threadCount) inputs

/-- Two producers, the pump, a completion and an overflow that meets no pump. -/
theorem run_submissionIdentity_iff_overflow :
    let inputs : List Input :=
      [.call 0 (.setRenderPacket 5), .call 1 (.setRenderPacket 6), .move 0, .move 1, .move 0,
        .call 2 (.setRenderPacket 7), .move 2, .move 0, .move 2, .move 0, .move 0, .move 0, .move 1,
        .move 1, .move 0, .complete 0 0x8000 64, .call 1 .drainRenderQueue, .move 1, .move 1,
        .move 1, .move 1]
    ∀ first, first <+: inputs →
      SubmissionIdentity (run World.step (World.fresh Setup.twoPackets 3) first) := by
  apply (run_submissionIdentity_iff Setup.twoPackets (by decide) 3 _).mpr
  decide +kernel

/-- The pump has peeked packet 5 when a third packet overflows the queue. Packet 5 is dropped and
submitted, and the pop removes packet 6, which is never submitted and not counted. In the
second run a producer counts a dropped packet while a drain counts a bad status, and one of the two
is lost. -/
theorem run_not_submissionIdentity :
    (let w := run World.step (World.fresh Setup.twoPackets 2)
      [.call 0 (.setRenderPacket 5), .move 0, .move 0, .move 0, .move 0,
        .call 1 (.setRenderPacket 6), .move 1, .move 1, .move 1,
        .call 1 (.setRenderPacket 7), .move 1, .move 1, .move 0, .move 0]
    w.stream.log.popped = [(⟨6, 1⟩, ⟨5, 0⟩)] ∧ w.stream.log.submitted = [⟨5, 0⟩] ∧
      w.stream.log.dropped = [⟨5, 0⟩] ∧ w.stream.ready = [⟨7, 2⟩] ∧ w.stream.xrunCount = 1 ∧
      ¬ SubmissionIdentity w) ∧
    (let w := run World.step (World.fresh Setup.twoPackets 3)
      [.call 0 (.setRenderPacket 5), .move 0, .move 0, .move 0, .move 0, .move 0, .move 0,
        .complete 0 0x8001 64, .call 1 .drainRenderQueue, .move 1, .move 1,
        .call 2 (.setRenderPacket 6), .move 2, .move 2, .move 2,
        .call 2 (.setRenderPacket 7), .move 2, .move 2, .move 2,
        .call 2 (.setRenderPacket 8), .move 2, .move 1, .move 1, .move 2]
    w.stream.log.dropped = [⟨6, 1⟩] ∧ w.stream.log.badStatuses = 1 ∧ w.stream.xrunCount = 1 ∧
      ¬ SubmissionIdentity w) := by
  refine ⟨?_, ?_⟩
  · intro w
    have hpopped : w.stream.log.popped = [(⟨6, 1⟩, ⟨5, 0⟩)] := by decide +kernel
    refine ⟨hpopped, by decide +kernel, by decide +kernel, by decide +kernel, by decide +kernel, ?_⟩
    intro h
    have hsame := h.popped (⟨6, 1⟩, ⟨5, 0⟩) (by rw [hpopped]; exact List.mem_singleton_self _)
    exact absurd hsame (by decide)
  · intro w
    refine ⟨by decide +kernel, by decide +kernel, by decide +kernel, fun h => ?_⟩
    have hcounted := h.counted
    revert hcounted
    unfold Counted
    decide +kernel

end Viosnd.Acx
