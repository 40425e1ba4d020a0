import Viosnd.Circuit.Lending
import Viosnd.Lib.RingQueue

/-!
# Packets through runs and pauses

Every packet the render stream accepted is in one place: in the queue of ready packets, in a period
in flight, or it was notified, displaced, failed, or cleared by a pause. No callback comes while the
interrupt drains the queues.
-/

namespace Viosnd.Circuit

open StepRun EffectSystem RingQueue

open Acx (Ready sndStatusOk)

variable {s s' s'' : Stream}

/-! ## The queue of ready packets -/

/-- The slots hold the ready packets. -/
structure Ring (s : Stream) : Prop where
  empty : s.renderReadyCapacity = 0 → s.renderReadyCount = 0
  holds : s.renderReadyCapacity ≠ 0 → Holds s.renderReadyQueue s.renderReadyCapacity
    s.renderReadyHead s.renderReadyTail s.renderReadyCount s.ready

private theorem ready_of_empty (h : s.renderReadyCount = 0) : s.ready = [] := by
  unfold Stream.ready contents
  rw [h]
  rfl

private theorem ring_of_holds {l : List Ready} (h : Holds s.renderReadyQueue s.renderReadyCapacity
    s.renderReadyHead s.renderReadyTail s.renderReadyCount l) : Ring s ∧ s.ready = l := by
  have hready : l = s.ready := h.eq_contents
  subst hready
  exact ⟨⟨fun hzero => absurd h.head_lt (by omega), fun _ => h⟩, rfl⟩

private theorem Ring.oldest (h : Ring s) (hcount : s.renderReadyCount ≠ 0) :
    s.ready = s.renderReadyQueue s.renderReadyHead :: s.ready.tail ∧
      Holds s.renderReadyQueue s.renderReadyCapacity
        ((s.renderReadyHead + 1) % s.renderReadyCapacity) s.renderReadyTail
        (s.renderReadyCount - 1) s.ready.tail := by
  have hcapacity : s.renderReadyCapacity ≠ 0 := fun hzero => hcount (h.empty hzero)
  have hholds := h.holds hcapacity
  obtain ⟨rest, hfront⟩ := hholds.front hcount
  refine ⟨?_, hholds.pop hcount⟩
  rw [hfront]
  rfl

theorem Ring.pop (h : Ring s) {packet : Ready} (hpeek : peekRenderPacket s = some packet) :
    Ring (popRenderPacket s) ∧ s.ready = packet :: (popRenderPacket s).ready := by
  unfold peekRenderPacket at hpeek
  split at hpeek
  · rename_i hcount
    obtain ⟨hready, hrest⟩ := h.oldest hcount
    unfold popRenderPacket
    rw [if_pos hcount]
    obtain ⟨hring, htail⟩ := ring_of_holds (s := { s with
      renderReadyHead := (s.renderReadyHead + 1) % s.renderReadyCapacity
      renderReadyCount := s.renderReadyCount - 1 }) hrest
    refine ⟨hring, ?_⟩
    rw [htail, ← Option.some.inj hpeek]
    exact hready
  · cases hpeek

theorem Ring.store (h : Ring s) (hroom : s.renderReadyCount < s.renderReadyCapacity)
    (packet : ULONG) :
    Ring (s.storeReady packet) ∧
      (s.storeReady packet).ready = s.ready ++ [⟨packet, s.nextSerial⟩] :=
  ring_of_holds ((h.holds (by omega)).push hroom ⟨packet, s.nextSerial⟩)

/-- The oldest packet is displaced when the queue is full. -/
theorem Ring.queueRenderPacket (h : Ring s) (hcapacity : s.renderReadyCapacity ≠ 0)
    (packet : ULONG) :
    Ring (queueRenderPacket s packet) ∧ ∃ displaced,
      (queueRenderPacket s packet).log.overflowed = s.log.overflowed ++ displaced ∧
      displaced ++ (queueRenderPacket s packet).ready = s.ready ++ [⟨packet, s.nextSerial⟩] := by
  unfold Circuit.queueRenderPacket
  split
  · rename_i hfull
    have hcount : s.renderReadyCount ≠ 0 := by omega
    have hfits := (h.holds hcapacity).fits
    obtain ⟨hready, hrest⟩ := h.oldest hcount
    obtain ⟨hring, htail⟩ := ring_of_holds (s := s.dropOldest) hrest
    have hroom : s.dropOldest.renderReadyCount < s.dropOldest.renderReadyCapacity := by
      change s.renderReadyCount - 1 < s.renderReadyCapacity
      omega
    obtain ⟨hstored, hlast⟩ := hring.store hroom packet
    refine ⟨hstored, [s.renderReadyQueue s.renderReadyHead], rfl, ?_⟩
    rw [hlast, htail]
    conv_rhs => rw [hready]
    rfl
  · rename_i hroom
    obtain ⟨hstored, hlast⟩ := h.store (Nat.lt_of_not_le hroom) packet
    exact ⟨hstored, [], (List.append_nil _).symm, hlast⟩

theorem Ring.clear (h : Ring s) : Ring (clearRenderQueue s) := by
  unfold clearRenderQueue
  split
  · exact h
  · refine ⟨fun _ => rfl, fun hcapacity => ?_⟩
    have hnil := holds_nil s.renderReadyQueue (Nat.pos_of_ne_zero hcapacity)
    exact (ring_of_holds hnil).1.holds hcapacity

/-! ## The places of the packets -/

def Stream.inFlight (s : Stream) : List Ready := s.queue.items.map Chain.packet

def Stream.places (s : Stream) : List Ready :=
  s.ready ++ (s.inFlight ++ (s.log.notified ++ (s.log.overflowed ++
    (s.log.failed ++ s.log.cleared))))

structure Ledger (s : Stream) : Prop extends Lent s where
  render : s.capture = false
  ring : Ring s
  packets : s.log.accepted.Perm s.places
  serials : ∀ r ∈ s.log.accepted, r.serial < s.nextSerial
  nodup : s.log.accepted.Nodup

/-- The queue of ready packets, and what is noted about packets. -/
structure SameReady (s s' : Stream) : Prop where
  queue : s'.renderReadyQueue = s.renderReadyQueue
  capacity : s'.renderReadyCapacity = s.renderReadyCapacity
  head : s'.renderReadyHead = s.renderReadyHead
  tail : s'.renderReadyTail = s.renderReadyTail
  count : s'.renderReadyCount = s.renderReadyCount
  nextSerial : s'.nextSerial = s.nextSerial
  accepted : s'.log.accepted = s.log.accepted
  notified : s'.log.notified = s.log.notified
  overflowed : s'.log.overflowed = s.log.overflowed
  failed : s'.log.failed = s.log.failed
  cleared : s'.log.cleared = s.log.cleared

theorem SameReady.ready (h : SameReady s s') : s'.ready = s.ready := by
  unfold Stream.ready
  rw [h.queue, h.capacity, h.head, h.count]

theorem SameReady.ring (h : SameReady s s') (hring : Ring s) : Ring s' := by
  refine ⟨?_, ?_⟩
  · rw [h.capacity, h.count]
    exact hring.empty
  · rw [h.ready, h.queue, h.capacity, h.head, h.tail, h.count]
    exact hring.holds

theorem SameReady.trans {s'' : Stream} (first : SameReady s s') (second : SameReady s' s'') :
    SameReady s s'' where
  queue := second.queue.trans first.queue
  capacity := second.capacity.trans first.capacity
  head := second.head.trans first.head
  tail := second.tail.trans first.tail
  count := second.count.trans first.count
  nextSerial := second.nextSerial.trans first.nextSerial
  accepted := second.accepted.trans first.accepted
  notified := second.notified.trans first.notified
  overflowed := second.overflowed.trans first.overflowed
  failed := second.failed.trans first.failed
  cleared := second.cleared.trans first.cleared

private theorem fillRender_sameReady (s : Stream) (index i : ℕ) (packet : Ready) :
    SameReady s (s.fillRender index i packet) :=
  ⟨rfl, rfl, rfl, rfl, rfl, rfl, rfl, rfl, rfl, rfl, rfl⟩

private theorem sent_sameReady (s : Stream) (i : ℕ) (queue : BoundedQueue Chain Answer) :
    SameReady s (s.sent i queue) :=
  ⟨rfl, rfl, rfl, rfl, rfl, rfl, rfl, rfl, rfl, rfl, rfl⟩

theorem Ledger.same (h : Ledger s) (hlent : Lent s') (hcapture : s'.capture = s.capture)
    (hready : SameReady s s') (hflight : s'.inFlight.Perm s.inFlight) : Ledger s' := by
  refine ⟨hlent, hcapture.trans h.render, hready.ring h.ring, ?_, ?_, ?_⟩
  · rw [hready.accepted]
    refine h.packets.trans ?_
    unfold Stream.places
    rw [hready.ready, hready.notified, hready.overflowed, hready.failed, hready.cleared]
    exact (hflight.symm.append_right _).append_left _
  · rw [hready.accepted, hready.nextSerial]
    exact h.serials
  · rw [hready.accepted]
    exact h.nodup

theorem Ledger.move (h : Ledger s) (hlent : Lent s') (hcapture : s'.capture = s.capture)
    (hring : Ring s') (haccepted : s'.log.accepted = s.log.accepted)
    (hserial : s'.nextSerial = s.nextSerial) (hplaces : s.places.Perm s'.places) : Ledger s' := by
  refine ⟨hlent, hcapture.trans h.render, hring, ?_, ?_, ?_⟩
  · rw [haccepted]
    exact h.packets.trans hplaces
  · rw [haccepted, hserial]
    exact h.serials
  · rw [haccepted]
    exact h.nodup

/-! ## Changes -/

private theorem popRenderPacket_serial (s : Stream) :
    (popRenderPacket s).nextSerial = s.nextSerial := by
  unfold popRenderPacket
  split
  · rfl
  · rfl

private theorem queueRenderPacket_notes (s : Stream) (packet : ULONG) :
    (queueRenderPacket s packet).nextSerial = s.nextSerial + 1 ∧
      (queueRenderPacket s packet).log.accepted = s.log.accepted ++ [⟨packet, s.nextSerial⟩] ∧
      (queueRenderPacket s packet).log.notified = s.log.notified ∧
      (queueRenderPacket s packet).log.failed = s.log.failed ∧
      (queueRenderPacket s packet).log.cleared = s.log.cleared := by
  unfold queueRenderPacket
  split
  · exact ⟨rfl, rfl, rfl, rfl, rfl⟩
  · exact ⟨rfl, rfl, rfl, rfl, rfl⟩

theorem Ledger.accept (h : Ledger s) (hcapacity : s.renderReadyCapacity ≠ 0) (packet : ULONG)
    (hlent : Lent (queueRenderPacket s packet)) : Ledger (queueRenderPacket s packet) := by
  obtain ⟨hring, displaced, hoverflowed, hready⟩ := h.ring.queueRenderPacket hcapacity packet
  obtain ⟨hserial, haccepted, hnotified, hfailed, hcleared⟩ := queueRenderPacket_notes s packet
  have hqueue := (queueRenderPacket_aside s packet).queue
  have hnew : (⟨packet, s.nextSerial⟩ : Ready) ∉ s.log.accepted :=
    fun hmem => Nat.lt_irrefl _ (h.serials _ hmem)
  refine ⟨hlent, (queueRenderPacket_aside s packet).capture.trans h.render, hring, ?_, ?_, ?_⟩
  · rw [haccepted]
    refine (h.packets.append_right _).trans (List.perm_iff_count.mpr fun r => ?_)
    have hcount := congrArg (List.count r) hready
    unfold Stream.places Stream.inFlight
    rw [hoverflowed, hnotified, hfailed, hcleared, hqueue]
    simp only [List.count_append] at hcount ⊢
    omega
  · rw [haccepted, hserial]
    intro r hr
    rcases List.mem_append.mp hr with hold | hlast
    · exact Nat.lt_succ_of_lt (h.serials r hold)
    · rw [List.mem_singleton.mp hlast]
      exact Nat.lt_succ_self _
  · rw [haccepted]
    exact List.nodup_append.mpr ⟨h.nodup, List.nodup_singleton _, fun r hr other hother heq =>
      hnew (by rw [← List.mem_singleton.mp hother, ← heq]; exact hr)⟩

theorem Ledger.clear (h : Ledger s) (hlent : Lent (clearRenderQueue s)) :
    Ledger (clearRenderQueue s) := by
  have hring := h.ring.clear
  unfold clearRenderQueue at hlent hring ⊢
  rw [if_neg (by simp [h.render])] at hlent hring ⊢
  refine h.move hlent rfl hring rfl rfl (List.perm_iff_count.mpr fun r => ?_)
  unfold Stream.places
  rw [ready_of_empty (s := { s with
    renderReadyHead := 0
    renderReadyTail := 0
    renderReadyCount := 0
    log := { s.log with
      cleared := s.log.cleared ++ s.ready } }) rfl]
  simp only [List.count_append, List.count_nil, Stream.inFlight]
  omega

theorem Ledger.submit (h : Ledger s) {packet : Ready} {index i cost : ℕ}
    {queue : BoundedQueue Chain Answer} (hpeek : peekRenderPacket s = some packet)
    (hadd : (s.fillRender index i packet).queue.add ((s.fillRender index i packet).chain i) cost =
      some queue)
    (hlent : Lent (popRenderPacket ((s.fillRender index i packet).sent i queue))) :
    Ledger (popRenderPacket ((s.fillRender index i packet).sent i queue)) := by
  have hsame : SameReady s ((s.fillRender index i packet).sent i queue) :=
    (fillRender_sameReady s index i packet).trans (sent_sameReady _ i queue)
  have hpeek' : peekRenderPacket ((s.fillRender index i packet).sent i queue) = some packet := hpeek
  obtain ⟨hring, hready⟩ := (hsame.ring h.ring).pop hpeek'
  rw [hsame.ready] at hready
  have hpop := popRenderPacket_aside ((s.fillRender index i packet).sent i queue)
  have hlog := popRenderPacket_log ((s.fillRender index i packet).sent i queue)
  refine h.move hlent hpop.capture hring (by rw [hlog]; rfl) (popRenderPacket_serial _)
    (List.perm_iff_count.mpr fun r => ?_)
  have hitems := ((BoundedQueue.add_items hadd).map Chain.packet).count_eq r
  have hchain : ((s.fillRender index i packet).chain i).packet = packet := by
    simp [Stream.chain, Stream.fillRender, Stream.setPeriod]
  rw [List.map_cons, hchain] at hitems
  have hqueue : (popRenderPacket ((s.fillRender index i packet).sent i queue)).queue = queue :=
    hpop.queue
  unfold Stream.places Stream.inFlight
  rw [hlog, hqueue, hready]
  simp only [List.count_append, List.count_cons] at hitems ⊢
  change _ = _ + (_ + (List.count r s.log.notified + (List.count r s.log.overflowed +
    (List.count r s.log.failed + List.count r s.log.cleared))))
  have hflight : (s.fillRender index i packet).queue = s.queue := rfl
  rw [hflight] at hitems
  omega

theorem Ledger.fail (h : Ledger s) {packet : Ready} (hpeek : peekRenderPacket s = some packet)
    (hlent : Lent (popRenderPacket (s.fail packet))) :
    Ledger (popRenderPacket (s.fail packet)) := by
  have hring : Ring (s.fail packet) := ⟨h.ring.empty, h.ring.holds⟩
  have hpeek' : peekRenderPacket (s.fail packet) = some packet := hpeek
  obtain ⟨hrest, hready⟩ := hring.pop hpeek'
  have hpop := popRenderPacket_aside (s.fail packet)
  have hlog := popRenderPacket_log (s.fail packet)
  refine h.move hlent hpop.capture hrest (by rw [hlog]; rfl) (popRenderPacket_serial _)
    (List.perm_iff_count.mpr fun r => ?_)
  have hready' : s.ready = packet :: (popRenderPacket (s.fail packet)).ready := hready
  unfold Stream.places Stream.inFlight
  rw [hlog, hpop.queue, hready']
  simp only [Stream.fail, List.count_append, List.count_cons, List.count_nil]
  omega

theorem Ledger.take (h : Ledger s) {chain : Chain} {answer : Answer}
    {queue : BoundedQueue Chain Answer} (hget : s.queue.get = some ((chain, answer), queue))
    (hlent : Lent s') (hcapture : s'.capture = s.capture) (hqueue : s'.queue = queue)
    (hready : SameReady { s with
      log := { s.log with
        notified := s.log.notified ++ [(s.period chain.period).packet] } } s') : Ledger s' := by
  have hitems := BoundedQueue.get_items hget
  have hmem : chain ∈ s.queue.items := hitems.mem_iff.mpr List.mem_cons_self
  refine h.move hlent hcapture (hready.ring ⟨h.ring.empty, h.ring.holds⟩) hready.accepted
    hready.nextSerial (List.perm_iff_count.mpr fun r => ?_)
  have hcount := (hitems.map Chain.packet).count_eq r
  have hsame : s'.ready = s.ready := hready.ready
  unfold Stream.places Stream.inFlight
  rw [hsame, hready.notified, hready.overflowed, hready.failed, hready.cleared, hqueue,
    h.packet chain hmem]
  simp only [List.map_cons, List.count_append, List.count_cons, List.count_nil] at hcount ⊢
  omega

private theorem Ledger.places_nil (h : Ledger s) (hnone : s.log.accepted = []) : s.places = [] := by
  have hperm := h.packets
  rw [hnone] at hperm
  exact hperm.nil_eq.symm

theorem Ledger.reset (h : Ledger s) (hnone : s.log.accepted = []) (hlent : Lent s')
    (hcapture : s'.capture = s.capture) (hring : Ring s') (hcount : s'.renderReadyCount = 0)
    (hlog : s'.log = s.log) (hitems : s'.queue.items = []) : Ledger s' := by
  have hplaces := h.places_nil hnone
  unfold Stream.places at hplaces
  simp only [List.append_eq_nil_iff] at hplaces
  refine ⟨hlent, hcapture.trans h.render, hring, ?_, ?_, ?_⟩
  · unfold Stream.places Stream.inFlight
    rw [ready_of_empty hcount, hitems, hlog, hnone, hplaces.2.2.1, hplaces.2.2.2.1,
      hplaces.2.2.2.2.1, hplaces.2.2.2.2.2]
    exact List.Perm.refl _
  · rw [hlog, hnone]
    simp
  · rw [hlog, hnone]
    exact List.nodup_nil

def storage : Finset Kind := {.create, .allocatePackets, .freePackets}

private theorem Ledger.items_nil (h : Ledger s) (hnone : s.log.accepted = []) :
    s.queue.items = [] := by
  have hplaces := h.places_nil hnone
  unfold Stream.places Stream.inFlight at hplaces
  simp only [List.append_eq_nil_iff, List.map_eq_nil_iff] at hplaces
  exact hplaces.2.1

theorem Effect.ledger {k : Kind} (heffect : Effect k s s') (hunprepare : k ≠ .unprepare)
    (hcleanup : k ≠ .cleanup) (hstorage : k ∈ storage → s.log.accepted = []) (h : Ledger s) :
    Ledger s' := by
  have hlent := heffect.lent hunprepare hcleanup h.toLent
  cases heffect with
  | unprepare => exact absurd rfl hunprepare
  | cleanup => exact absurd rfl hcleanup
  | accept _ packet hcapacity => exact h.accept hcapacity packet hlent
  | clear => exact h.clear hlent
  | submitRender _ packet index i queue _ _ _ _ hpeek _ _ hadd => exact h.submit hpeek hadd hlent
  | fail _ packet hpeek => exact h.fail hpeek hlent
  | submitCapture _ i packetNumber queue hcapture =>
      exact absurd (h.render.symm.trans hcapture) (by decide)
  | takeRender _ chain answer queue hget _ =>
      exact h.take hget hlent rfl rfl ⟨rfl, rfl, rfl, rfl, rfl, rfl, rfl, rfl, rfl, rfl, rfl⟩
  | takeCapture _ chain answer queue hget _ =>
      have hcopy := copyCapture_aside ({ s with
        queue := queue }.release chain.period) (s.period chain.period).packetNumber
      refine h.take hget hlent hcopy.capture hcopy.queue ?_
      unfold copyCapture
      split
      · exact ⟨rfl, rfl, rfl, rfl, rfl, rfl, rfl, rfl, rfl, rfl, rfl⟩
      · exact ⟨rfl, rfl, rfl, rfl, rfl, rfl, rfl, rfl, rfl, rfl, rfl⟩
  | staleRender _ chain answer queue hget hperiods =>
      have hmem := (BoundedQueue.get_items hget).mem_iff.mpr List.mem_cons_self
      exact absurd (h.current chain hmem) hperiods
  | staleCapture _ chain answer queue hget hperiods =>
      have hmem := (BoundedQueue.get_items hget).mem_iff.mpr List.mem_cons_self
      exact absurd (h.current chain hmem) hperiods
  | deliver _ c =>
      exact h.same hlent rfl ⟨rfl, rfl, rfl, rfl, rfl, rfl, rfl, rfl, rfl, rfl, rfl⟩
        ((BoundedQueue.complete_items s.queue _ _).map Chain.packet)
  | freePeriods =>
      unfold freeStreamPeriods at hlent ⊢
      split
      · exact h
      · rename_i hperiods
        rw [if_neg hperiods] at hlent
        exact h.same hlent rfl ⟨rfl, rfl, rfl, rfl, rfl, rfl, rfl, rfl, rfl, rfl, rfl⟩
          (List.Perm.refl _)
  | allocatePackets _ packetCount packetSize hcount hsize hpage =>
      have hnone := hstorage (by decide)
      rw [allocateRtPackets_eq s hcount hsize hpage] at hlent ⊢
      refine h.reset hnone hlent rfl ⟨fun _ => rfl, fun hcapacity => ?_⟩ rfl rfl
        (h.items_nil hnone)
      exact (ring_of_holds (holds_nil _ (Nat.pos_of_ne_zero hcapacity))).1.holds hcapacity
  | freePackets =>
      exact h.reset (hstorage (by decide)) hlent rfl
        ⟨fun _ => rfl, fun hcapacity => absurd rfl hcapacity⟩ rfl rfl
        (h.items_nil (hstorage (by decide)))
  | create =>
      exact h.reset (hstorage (by decide)) hlent rfl
        ⟨fun _ => rfl, fun hcapacity => absurd rfl hcapacity⟩ rfl rfl
        (h.items_nil (hstorage (by decide)))
  | tune | flags | fillRender | fillCapture | newPeriods =>
      exact h.same hlent rfl ⟨rfl, rfl, rfl, rfl, rfl, rfl, rfl, rfl, rfl, rfl, rfl⟩
        (List.Perm.refl _)

/-! ## Runs -/

/-- The render stream is not released nor cleaned up, its packets are not freed, and they are
allocated before the first one is set. -/
def Streaming (w : World) : Input → Prop
  | .cleanup c => c = true
  | .freeRtPackets c => c = true
  | .releaseHardware c _ => c = true
  | .create c => c = false → (w.streams false).log.accepted = []
  | .allocateRtPackets c _ _ _ => c = false → (w.streams false).log.accepted = []
  | _ => True

private theorem Effect.keeps_accepted {k : Kind} (heffect : Effect k s s') (hk : k ∈ storage) :
    s'.log.accepted = s.log.accepted := by
  cases heffect with
  | create => rfl
  | allocatePackets _ packetCount packetSize _ _ _ =>
      exact congrArg Log.accepted (allocateRtPackets_log s packetCount packetSize true)
  | freePackets => rfl
  | _ => exact absurd hk (by decide)

def Plain (K : Finset Kind) : Prop := ∀ k ∈ K, k ≠ .unprepare ∧ k ≠ .cleanup ∧ k ∉ storage

instance (K : Finset Kind) : Decidable (Plain K) :=
  inferInstanceAs (Decidable (∀ k ∈ K, k ≠ .unprepare ∧ k ≠ .cleanup ∧ k ∉ storage))

private theorem Ledger.plain {K : Finset Kind} (hdoes : Does K s s') (hK : Plain K) (h : Ledger s) :
    Ledger s' := by
  refine hdoes.invariant (fun k hk a b heffect ha => ?_) h
  obtain ⟨hunprepare, hcleanup, hstorage⟩ := hK k hk
  exact heffect.ledger hunprepare hcleanup (fun hmem => absurd hmem hstorage) ha

theorem Ledger.stored {K : Finset Kind} (hdoes : Does K s s') (hK : K ⊆ storage)
    (hnone : s.log.accepted = []) (h : Ledger s) : Ledger s' := by
  have hstep : ∀ k ∈ K, ∀ a b, Effect k a b → Ledger a ∧ a.log.accepted = [] →
      Ledger b ∧ b.log.accepted = [] := by
    rintro k hk a b heffect ⟨ha, hempty⟩
    have hunprepare : k ≠ .unprepare := by
      rintro rfl
      exact absurd (hK hk) (by decide)
    have hcleanup : k ≠ .cleanup := by
      rintro rfl
      exact absurd (hK hk) (by decide)
    exact ⟨heffect.ledger hunprepare hcleanup (fun _ => hempty) ha,
      (heffect.keeps_accepted (hK hk)).trans hempty⟩
  exact (hdoes.invariant hstep ⟨h, hnone⟩).1

private theorem plain_background : Plain background := by decide

/-- A streaming input is plain, or it changes packet storage before the first packet. -/
private theorem streaming_kinds {w : World} {i : Input} (hstreaming : Streaming w i) :
    Plain (i.kinds false) ∨ i.kinds false ⊆ storage ∧ (w.streams false).log.accepted = [] := by
  have hempty : Plain ∅ := by decide
  have hambient : Plain ambient := by decide
  have hpausing : Plain (insert .clear background) := by decide
  have haccepting : Plain (insert .accept background) := by decide
  cases i with
  | cleanup c =>
      obtain rfl : c = true := hstreaming
      exact Or.inl hempty
  | freeRtPackets c =>
      obtain rfl : c = true := hstreaming
      exact Or.inl hempty
  | releaseHardware c stop =>
      obtain rfl : c = true := hstreaming
      exact Or.inl hambient
  | create c =>
      cases c with
      | false => exact Or.inr ⟨(by decide : {Kind.create} ⊆ storage), hstreaming rfl⟩
      | true => exact Or.inl hempty
  | allocateRtPackets c packetCount packetSize allocated =>
      cases c with
      | false =>
          have hstorage : {Kind.freePackets, Kind.allocatePackets} ⊆ storage := by decide
          exact Or.inr ⟨hstorage, hstreaming rfl⟩
      | true => exact Or.inl hempty
  | pause c stop =>
      cases c with
      | false => exact Or.inl hpausing
      | true => exact Or.inl hambient
  | setRenderPacket packet => exact Or.inl haccepting
  | prepareHardware | run | complete | interrupt => exact Or.inl plain_background

private theorem Effect.keeps_cleared {k : Kind} (heffect : Effect k s s') (hk : k ≠ .clear) :
    s'.log.cleared = s.log.cleared := by
  cases heffect with
  | accept _ packet _ => exact (queueRenderPacket_notes s packet).2.2.2.2
  | clear => exact absurd rfl hk
  | submitRender _ packet index i queue =>
      rw [popRenderPacket_log]
      rfl
  | fail _ packet _ =>
      rw [popRenderPacket_log]
      rfl
  | takeCapture _ chain answer queue _ _ =>
      unfold copyCapture
      split
      · rfl
      · rfl
  | staleCapture _ chain answer queue _ _ =>
      unfold copyCapture
      split
      · rfl
      · rfl
  | freePeriods =>
      unfold freeStreamPeriods
      split
      · rfl
      · rfl
  | allocatePackets _ packetCount packetSize _ _ _ =>
      exact congrArg Log.cleared (allocateRtPackets_log s packetCount packetSize true)
  | cleanup =>
      unfold evtStreamCleanup freeStreamPeriods
      dsimp only
      split
      · rfl
      · rfl
  | _ => rfl

private theorem Does.keeps_cleared {K : Finset Kind} (h : Does K s s') (hK : .clear ∉ K) :
    s'.log.cleared = s.log.cleared := by
  refine h.keeps (fun t => t.log.cleared) fun k hk a b heffect => ?_
  refine heffect.keeps_cleared ?_
  rintro rfl
  exact hK hk

/-- The packets a step clears: a pause of the prepared stream those that are ready. -/
def clearedBy (w : World) : Input → List Ready
  | .pause false _ =>
      if (w.streams false).present ∧ (w.streams false).prepared then (w.streams false).ready else []
  | _ => []

/-- A pause clears the packets that are ready when it begins. -/
private theorem halted_cleared (hrender : s.capture = false) (i : StopInput) :
    (s.halted false i).log.cleared = s.log.cleared ++ s.ready := by
  obtain ⟨queue, hstream, -⟩ := completeAll_eq i.meanwhile ({ s with
    running := false }.command .stop i.stop)
  unfold Stream.halted
  dsimp only
  rw [hstream]
  unfold clearRenderQueue
  rw [if_neg (by decide), if_neg (by simp [Stream.command, hrender])]
  rfl

private theorem pause_cleared (hwired : Wired s) (hrender : s.capture = false)
    (hpresent : s.present = true) (i : StopInput) :
    (drainStreamQueue ((stopStream false i s).completeAll i.last)).log.cleared =
      s.log.cleared ++ if s.prepared then s.ready else [] := by
  have hstop := (pauseStream_does hwired i).wired hwired
  have hdrained := (drained_does hstop i.last).keeps_cleared (by decide)
  rw [hdrained]
  cases hprepared : s.prepared with
  | false =>
      rw [stopStream_of_unprepared s false i hpresent hprepared]
      exact (List.append_nil _).symm
  | true =>
      have hhalted := (halted_does s false i).wired ((does_not_running s).wired hwired)
      have hwaited := (waitForStreamIdle_does pauseTimeoutMs i.sleeps hhalted).keeps_cleared
        (by decide)
      rw [stopStream_eq s false i hpresent hprepared]
      exact hwaited.trans (halted_cleared hrender i)

private theorem step_cleared {w : World} (hwired : AllWired w)
    (hrender : (w.streams false).capture = false) {i : Input} (hstreaming : Streaming w i) :
    ((w.step i).streams false).log.cleared = (w.streams false).log.cleared ++ clearedBy w i := by
  by_cases hpause : ∃ stop, i = .pause false stop
  · obtain ⟨stop, rfl⟩ := hpause
    dsimp only [World.step, clearedBy]
    by_cases hpresent : (w.streams false).present = true
    · rw [if_pos hpresent]
      unfold evtStreamPause
      rw [drainQueues_streams, on_self, pause_cleared (hwired false) hrender hpresent]
      simp only [hpresent, true_and]
    · rw [if_neg hpresent, if_neg (fun h => hpresent h.1), List.append_nil]
  · have hnone : clearedBy w i = [] := by
      cases i with
      | pause c stop =>
          cases c with
          | false => exact absurd ⟨stop, rfl⟩ hpause
          | true => rfl
      | _ => rfl
    have hkinds : .clear ∉ i.kinds false := by
      cases i with
      | pause c stop =>
          cases c with
          | false => exact absurd ⟨stop, rfl⟩ hpause
          | true => exact (by decide : Kind.clear ∉ ambient)
      | releaseHardware c stop =>
          obtain rfl : c = true := hstreaming
          exact (by decide : Kind.clear ∉ ambient)
      | prepareHardware | run | complete | interrupt =>
          exact (by decide : Kind.clear ∉ background)
      | _ =>
          dsimp only [Input.kinds]
          split_ifs <;> decide
    rw [hnone, List.append_nil]
    exact (step_does hwired i false).keeps_cleared hkinds

/-- The packet is ready, in a period in flight, or notified. -/
def Kept (s : Stream) (r : Ready) : Prop :=
  r ∈ s.ready ∨ (∃ i, s.Out i ∧ (s.period i).packet = r) ∨ r ∈ s.log.notified

/-- Every accepted packet is kept, or it was displaced, failed or cleared, and only one of these. -/
structure PacketsConserved (s : Stream) : Prop where
  kept : ∀ r ∈ s.log.accepted,
    r ∉ s.log.overflowed → r ∉ s.log.failed → r ∉ s.log.cleared → Kept s r
  nodup : s.log.accepted.Nodup
  once : s.log.accepted.Perm (s.ready ++ (s.inFlight ++ (s.log.notified ++ (s.log.overflowed ++
    (s.log.failed ++ s.log.cleared)))))

theorem Ledger.conserved (h : Ledger s) : PacketsConserved s := by
  refine ⟨fun r hr hoverflowed hfailed hcleared => ?_, h.nodup, h.packets⟩
  have hplace := h.packets.mem_iff.mp hr
  unfold Stream.places at hplace
  simp only [List.mem_append, hoverflowed, hfailed, hcleared, or_false] at hplace
  rcases hplace with hready | hflight | hnotified
  · exact Or.inl hready
  · obtain ⟨chain, hchain, rfl⟩ := List.mem_map.mp hflight
    exact Or.inr (Or.inl ⟨chain.period, h.matched.mem hchain, h.packet chain hchain⟩)
  · exact Or.inr (Or.inr hnotified)

def Streams (w : World) : Prop := AllWired w ∧ Ledger (w.streams false)

theorem Streams.step {w : World} (h : Streams w) {i : Input} (hstreaming : Streaming w i) :
    Streams (w.step i) := by
  refine ⟨h.1.step i, ?_⟩
  have hdoes := step_does h.1 i false
  rcases streaming_kinds hstreaming with hplain | ⟨hstorage, hnone⟩
  · exact h.2.plain hdoes hplain
  · exact h.2.stored hdoes hstorage hnone

theorem Streams.fresh (hasQueue : Bool → Bool) (queueSize : Bool → ℕ) :
    Streams (World.fresh hasQueue queueSize) := by
  refine ⟨fun c => Wired.fresh c (hasQueue c) (queueSize c), Lent.fresh _ _ _, rfl,
    ⟨fun _ => rfl, fun hcapacity => absurd rfl hcapacity⟩, List.Perm.refl _, ?_, List.nodup_nil⟩
  rintro r ⟨⟩

/-- In every run of the render stream no accepted packet is lost except the ready ones that a pause
clears. -/
theorem run_packetsConserved (hasQueue : Bool → Bool) (queueSize : Bool → ℕ) (inputs : List Input)
    (h : Guarded World.step Streaming (World.fresh hasQueue queueSize) inputs) :
    PacketsConserved ((run World.step (World.fresh hasQueue queueSize) inputs).streams false) ∧
    ∀ i, Streaming (run World.step (World.fresh hasQueue queueSize) inputs) i →
      (((run World.step (World.fresh hasQueue queueSize) inputs).step i).streams
          false).log.cleared =
        ((run World.step (World.fresh hasQueue queueSize) inputs).streams false).log.cleared ++
          clearedBy (run World.step (World.fresh hasQueue queueSize) inputs) i := by
  have hstreams := h.invariant (fun _ _ hw hstreaming => Streams.step hw hstreaming)
    (Streams.fresh hasQueue queueSize)
  exact ⟨hstreams.2.conserved, fun i hstreaming =>
    step_cleared hstreams.1 hstreams.2.render hstreaming⟩

/-- A stream of four periods runs and gets five packets. -/
def fivePackets : List Input :=
  [.create false, .allocateRtPackets false 4 1000 true,
    .prepareHardware false ⟨.all, .success, .success⟩,
    .run false ⟨⟨.all, .success, .success⟩, .success, []⟩, .setRenderPacket 0, .setRenderPacket 1,
    .setRenderPacket 2, .setRenderPacket 3, .setRenderPacket 4]

/-- A pause during which the device completes one packet. -/
def pauseFive : Input := .pause false ⟨.success, .success, [⟨0, ⟨sndStatusOk, 0⟩⟩], [], []⟩

/-- The stream runs again, gets another packet, and one comes back. -/
def resumeFive : List Input :=
  [.run false ⟨⟨.all, .success, .success⟩, .success, []⟩, .setRenderPacket 5,
    .complete false ⟨0, ⟨sndStatusOk, 0⟩⟩, .interrupt]

theorem run_packetsConserved_played :
    PacketsConserved ((run World.step (World.fresh (fun _ => true) (fun _ => 64))
      (fivePackets ++ pauseFive :: resumeFive)).streams false) ∧
    (((run World.step (World.fresh (fun _ => true) (fun _ => 64)) fivePackets).step
      pauseFive).streams false).log.cleared = [⟨4, 4⟩] ∧
    ((run World.step (World.fresh (fun _ => true) (fun _ => 64))
      (fivePackets ++ pauseFive :: resumeFive)).streams false).log.notified = [⟨0, 0⟩, ⟨1, 1⟩] := by
  have hplayed : Guarded World.step Streaming (World.fresh (fun _ => true) (fun _ => 64))
      fivePackets :=
    ⟨fun _ => rfl, fun _ => rfl, trivial, trivial, trivial, trivial, trivial, trivial, trivial,
      trivial⟩
  have hresumed : Guarded World.step Streaming (World.fresh (fun _ => true) (fun _ => 64))
      (fivePackets ++ pauseFive :: resumeFive) :=
    (guarded_append _ _ _).mpr ⟨hplayed, trivial, trivial, trivial, trivial, trivial, trivial⟩
  refine ⟨(run_packetsConserved (fun _ => true) (fun _ => 64) _ hresumed).1, ?_, by decide +kernel⟩
  rw [(run_packetsConserved (fun _ => true) (fun _ => 64) fivePackets hplayed).2 pauseFive trivial]
  decide +kernel

/-- A stream of four periods gets five packets and is paused, and the device completes nothing. -/
def pausedWhileReady : List Input :=
  [.create false, .allocateRtPackets false 4 1000 true,
    .prepareHardware false ⟨.all, .success, .success⟩,
    .run false ⟨⟨.all, .success, .success⟩, .success, []⟩, .setRenderPacket 0, .setRenderPacket 1,
    .setRenderPacket 2, .setRenderPacket 3, .setRenderPacket 4,
    .pause false ⟨.success, .success, [], [], []⟩]

def pausedStream : Stream :=
  (run World.step (World.fresh (fun _ => true) (fun _ => 64)) pausedWhileReady).streams false

theorem run_packetsConserved_paused :
    ∃ r ∈ pausedStream.log.accepted, r ∉ pausedStream.log.overflowed ∧
      r ∉ pausedStream.log.failed ∧ ¬ Kept pausedStream r := by
  refine ⟨⟨4, 4⟩, by decide +kernel, by decide +kernel, by decide +kernel, ?_⟩
  rintro (hready | ⟨i, ⟨hi, -⟩, hpacket⟩ | hnotified)
  · exact absurd hready (by decide +kernel)
  · have hall : ∀ j < pausedStream.periodCount, (pausedStream.period j).packet ≠ ⟨4, 4⟩ := by
      decide +kernel
    exact hall i hi hpacket
  · exact absurd hnotified (by decide +kernel)

end Viosnd.Circuit
