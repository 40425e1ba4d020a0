import Viosnd.Acx.RenderStream

/-!
# What a thread does in one step

Every step of a thread is one of the moves below. `RenderPumpActive` lets one thread at a time into
the loop of `ViosndPumpRenderQueue`, and `TxLock` one at a time into the count of an overflow.
-/

namespace Viosnd.Acx

/-- The steps of a thread, with the branch conditions they are taken under. -/
inductive Moves (s : RenderStream) : Place → RenderStream → Place → Prop where
  | rest : Moves s .idle s .idle
  | refuse (packet : ULONG) : s.renderReadyCapacity = 0 →
      Moves s (.setRenderPacket packet) s .idle
  | queue (packet : ULONG) : s.renderReadyCapacity ≠ 0 → ¬ s.QueueFull →
      Moves s (.setRenderPacket packet) (s.storeReady packet) .queued
  | overflow (packet : ULONG) : s.renderReadyCapacity ≠ 0 → s.QueueFull →
      Moves s (.setRenderPacket packet) s.dropOldest (.storeOverflow packet s.xrunCount)
  | storeOverflow (packet xrunCount : ULONG) :
      Moves s (.storeOverflow packet xrunCount) (storeOverflow s packet xrunCount) .queued
  | askPump : s.running = true → Moves s .queued s .pumpRenderQueue
  | stayQueued : s.running = false → Moves s .queued s .idle
  | unprepared : s.prepared = false → Moves s .pumpRenderQueue s .idle
  | turnedAway : s.renderPumpActive = true → Moves s .pumpRenderQueue s .idle
  | enterPump : s.renderPumpActive = false →
      Moves s .pumpRenderQueue
        { s with
          renderPumpActive := true }
        (.pump .peek)
  | foundNone : s.renderReadyCount = 0 → Moves s (.pump .peek) s (.pump .release)
  | found : s.renderReadyCount ≠ 0 →
      Moves s (.pump .peek) s (.pump (.submit (s.renderReadyQueue s.renderReadyHead)))
  | noPeriod (packet : Ready) (audio : List Byte) : s.submitSource packet.packet = some audio →
      s.freePeriod = none → Moves s (.pump (.submit packet)) s (.pump .release)
  | noRoom (packet : Ready) (audio : List Byte) (i : ℕ) :
      s.submitSource packet.packet = some audio → s.freePeriod = some i →
      ¬ (s.fillPeriod i packet.packet audio).TxHasRoom →
      Moves s (.pump (.submit packet)) (s.fillPeriod i packet.packet audio) (.pump .release)
  | submit (packet : Ready) (audio : List Byte) (i : ℕ) :
      s.submitSource packet.packet = some audio → s.freePeriod = some i →
      (s.fillPeriod i packet.packet audio).TxHasRoom →
      Moves s (.pump (.submit packet)) ((s.fillPeriod i packet.packet audio).addChain i packet)
        (.pump (.pop packet false))
  | fail (packet : Ready) : s.submitSource packet.packet = none →
      Moves s (.pump (.submit packet))
        { s with
          log := { s.log with
            dropped := s.log.dropped ++ [packet] } }
        (.pump (.countFailure packet))
  | countFailure (packet : Ready) :
      Moves s (.pump (.countFailure packet)) s (.pump (.storeFailure packet s.xrunCount))
  | storeFailure (packet : Ready) (xrunCount : ULONG) :
      Moves s (.pump (.storeFailure packet xrunCount))
        { s with
          xrunCount := xrunCount + 1 }
        (.pump (.pop packet true))
  | pop (packet : Ready) (last : Bool) :
      Moves s (.pump (.pop packet last)) (popRenderPacket s packet)
        (.pump (if last then .release else .peek))
  | release : Moves s (.pump .release)
      { s with
        renderPumpActive := false }
      .idle
  | noQueue : s.hasTxQueue = false → Moves s .drainRenderQueue s .idle
  | drained : s.txUsed = [] → Moves s .drainRenderQueue s .pumpRenderQueue
  | takeUsed (c : Completion) (rest : List Completion) : s.txUsed = c :: rest →
      Moves s .drainRenderQueue
        { s with
          txUsed := rest
          periods := Function.update s.periods c.period { s.periods c.period with
            inFlight := false } }
        (.drain .readStatus c ⟨c.period, 0, 0, 0⟩)
  | badStatus (taken seen : Completion) : (s.periods taken.period).status ≠ sndStatusOk →
      Moves s (.drain .readStatus taken seen)
        { s with
          log := { s.log with
            badStatuses := s.log.badStatuses + 1 } }
        (.drain .countError taken { seen with
          status := (s.periods taken.period).status })
  | goodStatus (taken seen : Completion) : (s.periods taken.period).status = sndStatusOk →
      Moves s (.drain .readStatus taken seen) s
        (.drain .readLatency taken { seen with
          status := (s.periods taken.period).status })
  | countError (taken seen : Completion) :
      Moves s (.drain .countError taken seen) s (.drain (.storeError s.xrunCount) taken seen)
  | storeError (taken seen : Completion) (xrunCount : ULONG) :
      Moves s (.drain (.storeError xrunCount) taken seen)
        { s with
          xrunCount := xrunCount + 1 }
        (.drain .readLatency taken seen)
  | readLatency (taken seen : Completion) :
      Moves s (.drain .readLatency taken seen)
        { s with
          lastLatencyBytes := (s.periods taken.period).latencyBytes }
        (.drain .comparePacketNumber taken { seen with
          latencyBytes := (s.periods taken.period).latencyBytes })
  | laterPacket (taken seen : Completion) :
      s.packetsCompleted < (s.periods taken.period).packetNumber + 1 →
      Moves s (.drain .comparePacketNumber taken seen) s (.drain .storePacketsCompleted taken seen)
  | earlierPacket (taken seen : Completion) :
      ¬ s.packetsCompleted < (s.periods taken.period).packetNumber + 1 →
      Moves s (.drain .comparePacketNumber taken seen) s (.drain .storePosition taken seen)
  | storePacketsCompleted (taken seen : Completion) :
      Moves s (.drain .storePacketsCompleted taken seen)
        { s with
          packetsCompleted := (s.periods taken.period).packetNumber + 1 }
        (.drain .storePosition taken seen)
  | storePosition (taken seen : Completion) :
      Moves s (.drain .storePosition taken seen)
        { s with
          positionBytes := s.packetsCompleted * s.periodBytes.setWidth 64 }
        (.drain .notify taken seen)
  | notify (taken seen : Completion) :
      Moves s (.drain .notify taken seen)
        { s with
          log := { s.log with
            notified := s.log.notified ++ [(taken, { seen with
              packetNumber := (s.periods taken.period).packetNumber })] } }
        .drainRenderQueue

private theorem stepPump_moves (s : RenderStream) (place : PumpPlace) :
    Moves s (.pump place) (stepPump s place).1 (stepPump s place).2 := by
  cases place with
  | peek =>
      by_cases hcount : s.renderReadyCount = 0
      · simpa [stepPump, peekRenderPacket, hcount] using Moves.foundNone hcount
      · simpa [stepPump, peekRenderPacket, hcount] using Moves.found hcount
  | submit packet =>
      cases hsource : s.submitSource packet.packet with
      | none => simpa [stepPump, submitRenderPacket, hsource] using Moves.fail packet hsource
      | some audio =>
          cases hfree : s.freePeriod with
          | none =>
              simpa [stepPump, submitRenderPacket, hsource, hfree] using
                Moves.noPeriod packet audio hsource hfree
          | some i =>
              by_cases hroom : (s.fillPeriod i packet.packet audio).TxHasRoom
              · simpa [stepPump, submitRenderPacket, hsource, hfree, hroom] using
                  Moves.submit packet audio i hsource hfree hroom
              · simpa [stepPump, submitRenderPacket, hsource, hfree, hroom] using
                  Moves.noRoom packet audio i hsource hfree hroom
  | countFailure packet => exact Moves.countFailure packet
  | storeFailure packet xrunCount => exact Moves.storeFailure packet xrunCount
  | pop packet last => exact Moves.pop packet last
  | release => exact Moves.release

private theorem stepDrain_moves (s : RenderStream) (taken seen : Completion) (place : DrainPlace) :
    Moves s (.drain place taken seen) (stepDrain s taken seen place).1
      (stepDrain s taken seen place).2 := by
  cases place with
  | readStatus =>
      by_cases hstatus : (s.periods taken.period).status = sndStatusOk
      · simpa [stepDrain, hstatus] using Moves.goodStatus taken seen hstatus
      · simpa [stepDrain, hstatus] using Moves.badStatus taken seen hstatus
  | countError => exact Moves.countError taken seen
  | storeError xrunCount => exact Moves.storeError taken seen xrunCount
  | readLatency => exact Moves.readLatency taken seen
  | comparePacketNumber =>
      by_cases hlater : s.packetsCompleted < (s.periods taken.period).packetNumber + 1
      · rw [stepDrain, if_pos hlater]
        exact Moves.laterPacket taken seen hlater
      · rw [stepDrain, if_neg hlater]
        exact Moves.earlierPacket taken seen hlater
  | storePacketsCompleted => exact Moves.storePacketsCompleted taken seen
  | storePosition => exact Moves.storePosition taken seen
  | notify => exact Moves.notify taken seen

theorem stepPlace_moves (s : RenderStream) (place : Place) :
    Moves s place (stepPlace s place).1 (stepPlace s place).2 := by
  cases place with
  | idle => exact Moves.rest
  | setRenderPacket packet =>
      by_cases hcapacity : s.renderReadyCapacity = 0
      · simpa [stepPlace, queueRenderPacket, hcapacity] using Moves.refuse packet hcapacity
      · by_cases hfull : s.QueueFull
        · simpa [stepPlace, queueRenderPacket, hcapacity, hfull] using
            Moves.overflow packet hcapacity hfull
        · simpa [stepPlace, queueRenderPacket, hcapacity, hfull] using
            Moves.queue packet hcapacity hfull
  | storeOverflow packet xrunCount => exact Moves.storeOverflow packet xrunCount
  | queued =>
      cases hrunning : s.running with
      | false => simpa [stepPlace, hrunning] using Moves.stayQueued hrunning
      | true => simpa [stepPlace, hrunning] using Moves.askPump hrunning
  | pumpRenderQueue =>
      cases hprepared : s.prepared with
      | false => simpa [stepPlace, hprepared] using Moves.unprepared hprepared
      | true =>
          cases hactive : s.renderPumpActive with
          | true => simpa [stepPlace, hprepared, hactive] using Moves.turnedAway hactive
          | false => simpa [stepPlace, hprepared, hactive] using Moves.enterPump hactive
  | pump place => exact stepPump_moves s place
  | drainRenderQueue =>
      cases hqueue : s.hasTxQueue with
      | false => simpa [stepPlace, hqueue] using Moves.noQueue hqueue
      | true =>
          cases hused : s.txUsed with
          | nil => simpa [stepPlace, hqueue, takeUsed, hused] using Moves.drained hused
          | cons c rest =>
              simpa [stepPlace, hqueue, takeUsed, hused] using Moves.takeUsed c rest hused
  | drain place taken seen => exact stepDrain_moves s taken seen place

/-- What holds of the world after a step, case by case. -/
theorem World.step_cases {P : World → Prop} (w : World) (i : Input) (hsame : P w)
    (hcall : ∀ t c, i = .call t c → w.threads[t]? = some .idle →
      P ⟨w.stream, w.threads.set t c.entry⟩)
    (hmove : ∀ t a s' b, i = .move t → w.threads[t]? = some a → w.waits a = false →
      Moves w.stream a s' b → P ⟨s', w.threads.set t b⟩)
    (hdeliver : ∀ k chain status latencyBytes, w.stream.txAvail[k]? = some chain →
      P ⟨w.stream.deliver k chain status latencyBytes, w.threads⟩)
    (hwrite : ∀ index audio, P ⟨w.stream.writePacket index audio, w.threads⟩) :
    P (w.step i) := by
  cases i with
  | call t c =>
      simp only [World.step]
      split
      · rename_i hidle
        exact hcall t c rfl hidle
      · exact hsame
  | move t =>
      simp only [World.step]
      cases ha : w.threads[t]? with
      | none => exact hsame
      | some a =>
          cases hwaits : w.waits a with
          | true => simpa [hwaits] using hsame
          | false =>
              simpa [hwaits] using hmove t a _ _ rfl ha hwaits (stepPlace_moves w.stream a)
  | complete k status latencyBytes =>
      simp only [World.step, RenderStream.complete]
      cases hchain : w.stream.txAvail[k]? with
      | none => exact hsame
      | some chain => exact hdeliver k chain status latencyBytes hchain
  | write index audio => exact hwrite index audio

/-! ## One pump at a time -/

/-- The thread is in the loop of `ViosndPumpRenderQueue`. -/
def Place.pumping : Place → Bool
  | .pump _ => true
  | _ => false

@[simp] theorem Place.pumping_pump (place : PumpPlace) : (Place.pump place).pumping = true := rfl

@[simp] theorem Call.entry_pumping (c : Call) : c.entry.pumping = false := by
  cases c <;> rfl

/-- As many threads are in the pump loop as `RenderPumpActive` says. -/
def World.OnePump (w : World) : Prop :=
  w.threads.countP Place.pumping = w.stream.renderPumpActive.toNat

private theorem popRenderPacket_pumpActive (s : RenderStream) (packet : Ready) :
    (popRenderPacket s packet).renderPumpActive = s.renderPumpActive := by
  unfold popRenderPacket
  split <;> rfl

/-- The compare-exchange and the release keep `RenderPumpActive` in step with the pump loop. -/
theorem Moves.pumping {s s' : RenderStream} {a b : Place} (h : Moves s a s' b)
    (hactive : a.pumping = true → s.renderPumpActive = true) :
    s'.renderPumpActive.toNat + a.pumping.toNat =
      s.renderPumpActive.toNat + b.pumping.toNat := by
  cases h with
  | pop packet last =>
      rw [popRenderPacket_pumpActive]
      rfl
  | enterPump hfree => simp [Place.pumping, hfree]
  | release => simp [Place.pumping, hactive rfl]
  | _ => rfl

theorem World.OnePump.active {w : World} (h : w.OnePump) {a : Place} (ha : a ∈ w.threads)
    (hpump : a.pumping = true) : w.stream.renderPumpActive = true := by
  have hpos : 0 < w.threads.countP Place.pumping := List.countP_pos_iff.mpr ⟨a, ha, hpump⟩
  rw [h] at hpos
  cases hactive : w.stream.renderPumpActive with
  | true => rfl
  | false => simp [hactive] at hpos

theorem World.OnePump.step {w : World} (h : w.OnePump) (i : Input) : (w.step i).OnePump := by
  apply World.step_cases w i h
  · intro t c _ hidle
    have hcount := ThreadPool.countP_move hidle Place.pumping c.entry
    rw [Call.entry_pumping] at hcount
    exact (Nat.add_right_cancel hcount).trans h
  · intro t a s' b _ ha _ hmoves
    have hcount := ThreadPool.countP_move ha Place.pumping b
    have hpumping := hmoves.pumping (h.active (List.mem_of_getElem? ha))
    rw [h] at hcount
    unfold World.OnePump
    dsimp only
    omega
  · intro k chain status latencyBytes _
    exact h
  · intro index audio
    exact h

theorem World.fresh_onePump (setup : Setup) (threadCount : ℕ) :
    (World.fresh setup threadCount).OnePump := by
  simp [World.OnePump, World.fresh, RenderStream.fresh, List.countP_replicate, Place.pumping]

/-! ## One overflow at a time -/

/-- At most one thread is inside of a section under `TxLock`. -/
def World.OneHolder (w : World) : Prop := w.threads.countP Place.holdsTxLock ≤ 1

theorem World.no_holder {w : World} {a : Place} (hfree : w.waits a = false)
    (htakes : a.takesTxLock w.stream = true) : w.threads.countP Place.holdsTxLock = 0 := by
  rw [World.waits, htakes, Bool.true_and, List.any_eq_false] at hfree
  exact List.countP_eq_zero.mpr hfree

private theorem Moves.to_holder {s s' : RenderStream} {a b : Place} (h : Moves s a s' b)
    (hb : b.holdsTxLock = true) : a.takesTxLock s = true := by
  cases h with
  | overflow packet hcapacity hfull => exact decide_eq_true hcapacity
  | pop packet last => cases last <;> cases hb
  | _ => cases hb

theorem World.OneHolder.step {w : World} (h : w.OneHolder) (i : Input) : (w.step i).OneHolder := by
  apply World.step_cases w i h
  · intro t c _ hidle
    have hcount := ThreadPool.countP_move hidle Place.holdsTxLock c.entry
    have hentry : c.entry.holdsTxLock = Place.idle.holdsTxLock := by cases c <;> rfl
    rw [hentry] at hcount
    exact (Nat.add_right_cancel hcount).trans_le h
  · intro t a s' b _ ha hfree hmoves
    have hcount := ThreadPool.countP_move ha Place.holdsTxLock b
    have hone : w.threads.countP Place.holdsTxLock ≤ 1 := h
    unfold World.OneHolder
    dsimp only
    cases hb : b.holdsTxLock with
    | true =>
        have hnone := World.no_holder hfree (hmoves.to_holder hb)
        simp [hb] at hcount
        omega
    | false =>
        simp [hb] at hcount
        omega
  · intro k chain status latencyBytes _
    exact h
  · intro index audio
    exact h

theorem World.fresh_oneHolder (setup : Setup) (threadCount : ℕ) :
    (World.fresh setup threadCount).OneHolder := by
  simp [World.OneHolder, World.fresh, List.countP_replicate, Place.holdsTxLock]

end Viosnd.Acx
