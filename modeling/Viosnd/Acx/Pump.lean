import Viosnd.Acx.Periods

/-!
# Who pumps the queue

`RenderPumpActive` turns away every call that asks for the pump while a thread is in its loop. The
thread in the loop looks at the queue again after each packet, but not once it has left the loop.
-/

namespace Viosnd.Acx

open StepRun

/-! ## What the pump is for -/

def RenderStream.SomeInFlight (s : RenderStream) : Prop :=
  ∃ i < s.periodCount, (s.periods i).inFlight = true

instance (s : RenderStream) : Decidable s.SomeInFlight :=
  inferInstanceAs (Decidable (∃ i < s.periodCount, _))

/-- No call is in progress, nobody holds the pump, and no used buffer waits for a drain. -/
structure World.Quiescent (w : World) : Prop where
  idle : ∀ a ∈ w.threads, a = .idle
  noPump : w.stream.renderPumpActive = false
  noUsed : w.stream.txUsed = []

/-- With packets in the queue a quiescent stream has a period in flight, whose completion will
pump the queue again. -/
def NothingStranded (w : World) : Prop :=
  w.Quiescent → w.stream.renderReadyCount ≠ 0 → w.stream.SomeInFlight

/-- The thread has yet to look at the queue, or to ask for the pump. -/
def Place.looks : Place → Bool
  | .idle => false
  | .pump (.countFailure _) => false
  | .pump (.storeFailure _ _) => false
  | .pump (.pop _ last) => !last
  | .pump .release => false
  | _ => true

/-- A call turned away after the pump has left its loop finds the queue empty, or a period in
flight, or another call that has yet to ask for the pump. -/
def PumpGuard (w : World) : Input → Prop
  | .move thread => w.threads[thread]? = some .pumpRenderQueue →
      w.stream.renderPumpActive = true → .pump .release ∈ w.threads →
        w.stream.renderReadyCount = 0 ∨ w.stream.SomeInFlight ∨
          ∃ a ∈ w.threads.set thread .idle, a.looks = true
  | _ => True

instance (w : World) (i : Input) : Decidable (PumpGuard w i) :=
  match i with
  | .move thread => inferInstanceAs (Decidable (w.threads[thread]? = some .pumpRenderQueue →
      w.stream.renderPumpActive = true → .pump .release ∈ w.threads →
        w.stream.renderReadyCount = 0 ∨ w.stream.SomeInFlight ∨
          ∃ a ∈ w.threads.set thread .idle, a.looks = true))
  | .call _ _ | .complete _ _ _ | .write _ _ => isTrue trivial

/-! ## A running stream -/

/-- What a running stream keeps while only packets and completions come and go. -/
structure RenderStream.Runs (s : RenderStream) : Prop where
  prepared : s.prepared = true
  running : s.running = true
  hasTxQueue : s.hasTxQueue = true
  packetCount : s.packetCount ≠ 0
  packetBuffers : ∀ i, s.packetBuffers i ≠ none
  periodCount : s.periodCount ≠ 0
  capacity : s.renderReadyCapacity ≠ 0
  room : s.periodCount ≤ s.txRoom
  lent : s.Lent

variable {s s' : RenderStream} {a b : Place}

theorem RenderStream.Runs.source (h : s.Runs) (packet : ULONG) : s.submitSource packet ≠ none := by
  unfold RenderStream.submitSource getPacketVa
  rw [if_neg (by simp [h.periodCount, h.hasTxQueue]), if_neg h.packetCount]
  exact h.packetBuffers _

private theorem popRenderPacket_runs (h : s.Runs) (packet : Ready) :
    (popRenderPacket s packet).Runs := by
  unfold popRenderPacket
  split
  · exact { h with lent := ⟨h.lent.nodup, h.lent.inFlight⟩ }
  · exact h

private theorem Moves.runs (hmoves : Moves s a s' b) (h : s.Runs) : s'.Runs := by
  have hlent := hmoves.lent h.lent
  cases hmoves with
  | pop packet last => exact popRenderPacket_runs h packet
  | _ => exact { h with lent := hlent }

/-! ## Nobody stops looking too early -/

/-- The queue is empty, or a period is in flight, or some thread has yet to look. -/
def World.Awake (w : World) : Prop :=
  w.stream.renderReadyCount = 0 ∨ w.stream.SomeInFlight ∨ ∃ a ∈ w.threads, a.looks = true

/-- No thread is on its way out of the pump after a failed submission. -/
def World.NoFailure (w : World) : Prop :=
  ∀ a ∈ w.threads, a.pumping = true → a.looks = true ∨ a = .pump .release

structure World.Pumped (w : World) : Prop where
  onePump : w.OnePump
  runs : w.stream.Runs
  noFailure : w.NoFailure
  awake : w.Awake

private theorem World.Pumped.not_stranded {w : World} (h : w.Pumped) : NothingStranded w := by
  intro hquiescent hcount
  rcases h.awake with hempty | hflight | ⟨a, ha, hlooks⟩
  · exact absurd hempty hcount
  · exact hflight
  · rw [hquiescent.idle a ha] at hlooks
    cases hlooks

private theorem Moves.noFailure (hmoves : Moves s a s' b) (h : s.Runs)
    (ha : a.pumping = true → a.looks = true ∨ a = .pump .release) (hb : b.pumping = true) :
    b.looks = true ∨ b = .pump .release := by
  cases hmoves with
  | fail packet hsource => exact absurd hsource (h.source _)
  | countFailure packet => simpa [Place.looks] using ha rfl
  | storeFailure packet xrunCount => simpa [Place.looks] using ha rfl
  | pop packet last =>
      cases last with
      | false => exact Or.inl rfl
      | true => exact Or.inr rfl
  | foundNone | noPeriod | noRoom => exact Or.inr rfl
  | release => cases hb
  | _ => first | exact Or.inl rfl | cases hb

/-- A thread that will not look again leaves the queue empty or a period in flight, or had stopped
looking before, or is turned away by the pump. -/
theorem Moves.stops (hmoves : Moves s a s' b) (h : s.Runs) (hb : b.looks = false) :
    s'.renderReadyCount = 0 ∨ s'.SomeInFlight ∨
      (a.looks = false ∧ (s'.renderReadyCount = s.renderReadyCount ∨
        s'.renderReadyCount = s.renderReadyCount - 1) ∧ (s.SomeInFlight → s'.SomeInFlight)) ∨
      a = .pumpRenderQueue ∧ s' = s ∧ b = .idle ∧ s.renderPumpActive = true := by
  cases hmoves with
  | refuse packet hcapacity => exact absurd hcapacity h.capacity
  | stayQueued hrunning => rw [h.running] at hrunning; cases hrunning
  | unprepared hprepared => rw [h.prepared] at hprepared; cases hprepared
  | turnedAway hactive => exact Or.inr (Or.inr (Or.inr ⟨rfl, rfl, rfl, hactive⟩))
  | foundNone hcount => exact Or.inl hcount
  | noPeriod packet audio hsource hfree =>
      have hfirst := Nat.pos_of_ne_zero h.periodCount
      exact Or.inr (Or.inl ⟨0, hfirst, freePeriod_none hfree hfirst⟩)
  | noRoom packet audio i hsource hfree hroom => exact absurd (h.lent.hasRoom hfree h.room) hroom
  | fail packet hsource => exact absurd hsource (h.source _)
  | noQueue hqueue => rw [h.hasTxQueue] at hqueue; cases hqueue
  | rest => exact Or.inr (Or.inr (Or.inl ⟨rfl, Or.inl rfl, id⟩))
  | countFailure packet => exact Or.inr (Or.inr (Or.inl ⟨rfl, Or.inl rfl, id⟩))
  | storeFailure packet xrunCount => exact Or.inr (Or.inr (Or.inl ⟨rfl, Or.inl rfl, id⟩))
  | release => exact Or.inr (Or.inr (Or.inl ⟨rfl, Or.inl rfl, id⟩))
  | pop packet last =>
      cases last with
      | false => cases hb
      | true =>
          refine Or.inr (Or.inr (Or.inl ⟨rfl, ?_, ?_⟩))
          · unfold popRenderPacket
            split
            · exact Or.inr rfl
            · exact Or.inl rfl
          · unfold popRenderPacket
            split <;> exact id
  | _ => cases hb

theorem World.Pumped.move {w : World} (h : w.Pumped) {t : ℕ} (ha : w.threads[t]? = some a)
    (hmoves : Moves w.stream a s' b) (hone : World.OnePump ⟨s', w.threads.set t b⟩)
    (hg : PumpGuard w (.move t)) : World.Pumped ⟨s', w.threads.set t b⟩ := by
  have hmem := List.mem_of_getElem? ha
  refine ⟨hone, hmoves.runs h.runs, fun c hc hpump => ?_, ?_⟩
  · rcases ThreadPool.mem_of_mem_move hc with hold | rfl
    · exact h.noFailure c hold hpump
    · exact hmoves.noFailure h.runs (h.noFailure a hmem) hpump
  · cases hlooks : b.looks with
    | true => exact Or.inr (Or.inr ⟨b, ThreadPool.moved_mem ha b, hlooks⟩)
    | false =>
        rcases hmoves.stops h.runs hlooks with hempty | hflight | ⟨hstopped, hcount, hkept⟩ |
          ⟨rfl, rfl, rfl, hactive⟩
        · exact Or.inl hempty
        · exact Or.inr (Or.inl hflight)
        · -- the thread had stopped looking before: whoever was to look still is
          rcases h.awake with hempty | hflight | ⟨c, hc, hlooks'⟩
          · refine Or.inl ?_
            dsimp only
            omega
          · exact Or.inr (Or.inl (hkept hflight))
          · rcases ThreadPool.mem_move_of_mem ha hc with rfl | hstill
            · rw [hstopped] at hlooks'
              cases hlooks'
            · exact Or.inr (Or.inr ⟨c, hstill, hlooks'⟩)
        · -- turned away: the thread in the pump looks again, or has left its loop
          have hpos : 0 < w.threads.countP Place.pumping := by
            rw [h.onePump, hactive]
            exact Nat.one_pos
          obtain ⟨c, hc, hpump⟩ := List.countP_pos_iff.mp hpos
          rcases h.noFailure c hc hpump with hlooks' | rfl
          · rcases ThreadPool.mem_move_of_mem (b := Place.idle) ha hc with rfl | hstill
            · cases hpump
            · exact Or.inr (Or.inr ⟨c, hstill, hlooks'⟩)
          · exact hg ha hactive hc

theorem World.Pumped.step {w : World} (h : w.Pumped) (i : Input) (hg : PumpGuard w i) :
    (w.step i).Pumped := by
  have hone := h.onePump.step i
  have hlent := World.lent_step w h.runs.lent i
  revert hone hlent
  apply World.step_cases (P := fun w' => w'.OnePump → w'.stream.Lent → w'.Pumped) w i
  · exact fun _ _ => h
  · intro t c hi hidle hone _
    refine ⟨hone, h.runs, fun a hmem hpump => ?_, ?_⟩
    · rcases ThreadPool.mem_of_mem_move hmem with hold | rfl
      · exact h.noFailure a hold hpump
      · simp at hpump
    · have hentry : c.entry.looks = true := by cases c <;> rfl
      exact Or.inr (Or.inr ⟨c.entry, ThreadPool.moved_mem hidle _, hentry⟩)
  · intro t a s' b hi ha _ hmoves hone _
    subst hi
    exact h.move ha hmoves hone hg
  · intro k chain status latencyBytes hchain hone hlent
    refine ⟨hone, { h.runs with lent := hlent }, h.noFailure, ?_⟩
    refine h.awake.imp id (Or.imp_left ?_)
    rintro ⟨i, hi, hflight⟩
    refine ⟨i, hi, ?_⟩
    unfold RenderStream.deliver
    by_cases hperiod : i = chain.period
    · subst hperiod
      simpa using hflight
    · simpa [Function.update_of_ne hperiod] using hflight
  · intro index audio hone hlent
    refine ⟨hone, { h.runs with lent := hlent, packetBuffers := fun i => ?_ }, h.noFailure, h.awake⟩
    unfold RenderStream.writePacket
    by_cases hindex : i = index
    · subst hindex
      simpa using h.runs.packetBuffers i
    · simpa [Function.update_of_ne hindex] using h.runs.packetBuffers i

private theorem clampPeriodCount_ne_zero (packetCount : ℕ) : clampPeriodCount packetCount ≠ 0 := by
  unfold clampPeriodCount
  split
  · omega
  · split <;> omega

private theorem World.fresh_pumped (packetCount : ℕ) (packets : ℕ → List Byte) (periodBytes : ULONG)
    (txRoom : ℕ) (hpackets : packetCount ≠ 0) (hroom : clampPeriodCount packetCount ≤ txRoom)
    (threadCount : ℕ) :
    (World.fresh (Setup.running packetCount packets periodBytes txRoom) threadCount).Pumped where
  onePump := World.fresh_onePump _ _
  runs := ⟨rfl, rfl, rfl, hpackets, fun i => by simp [World.fresh, RenderStream.fresh,
    Setup.running], clampPeriodCount_ne_zero packetCount, hpackets, hroom,
    RenderStream.fresh_lent _⟩
  noFailure := by
    intro a ha hpump
    rw [List.eq_of_mem_replicate ha] at hpump
    cases hpump
  awake := Or.inl rfl

/-- A running stream with room for all periods is never left with packets and nothing in flight,
as long as every call the pump turns away too late finds that there is nothing to do. -/
theorem run_nothingStranded (packetCount : ℕ) (packets : ℕ → List Byte) (periodBytes : ULONG)
    (txRoom : ℕ) (hpackets : packetCount ≠ 0) (hroom : clampPeriodCount packetCount ≤ txRoom)
    (threadCount : ℕ) (inputs : List Input)
    (hg : Guarded World.step PumpGuard
      (World.fresh (Setup.running packetCount packets periodBytes txRoom) threadCount) inputs) :
    NothingStranded (run World.step
      (World.fresh (Setup.running packetCount packets periodBytes txRoom) threadCount) inputs) :=
  have hfresh :=
    World.fresh_pumped packetCount packets periodBytes txRoom hpackets hroom threadCount
  (hg.invariant (P := World.Pumped) (fun _ i h hguard => h.step i hguard) hfresh).not_stranded

/-- A drain is turned away while the pump is in its loop, which then finds the next packet. -/
theorem run_nothingStranded_drain : NothingStranded (run World.step
    (World.fresh Setup.twoPackets 2)
    [.call 0 (.setRenderPacket 5), .move 0, .move 0, .move 0, .move 0, .move 0,
      .complete 0 0x8000 64, .call 1 .drainRenderQueue, .move 1, .move 1, .move 1, .move 1, .move 1,
      .move 1, .move 1, .move 1, .move 1, .call 1 (.setRenderPacket 6), .move 1, .move 0, .move 0,
      .move 0, .move 0, .move 1, .move 1, .move 0, .move 0]) := by
  apply run_nothingStranded 2 (fun _ => [1, 2, 3, 4]) 4 32
  · decide
  · decide
  · decide +kernel

/-- The pump has found the queue empty and is about to clear `RenderPumpActive`. Meanwhile its
period completes and is drained, and packet 6 is queued; both calls are turned away. Packet 6 stays
in the queue, and nothing is in flight. -/
theorem run_stranded :
    let w := run World.step (World.fresh Setup.twoPackets 2)
      [.call 0 (.setRenderPacket 5), .move 0, .move 0, .move 0, .move 0, .move 0, .move 0, .move 0,
        .complete 0 0x8000 64, .call 1 .drainRenderQueue, .move 1, .move 1, .move 1, .move 1,
        .move 1, .move 1, .move 1, .move 1, .move 1, .call 1 (.setRenderPacket 6), .move 1, .move 1,
        .move 1, .move 0]
    w.threads = [.idle, .idle] ∧ w.stream.renderReadyCount = 1 ∧ ¬ NothingStranded w := by
  intro w
  have hidle : w.threads = [.idle, .idle] := by decide +kernel
  refine ⟨hidle, by decide +kernel, fun h => ?_⟩
  have hquiescent : w.Quiescent := by
    refine ⟨fun a ha => ?_, by decide +kernel, by decide +kernel⟩
    rw [hidle] at ha
    simpa using ha
  have hflight : w.stream.SomeInFlight := h hquiescent (by decide +kernel)
  revert hflight
  decide +kernel

end Viosnd.Acx
