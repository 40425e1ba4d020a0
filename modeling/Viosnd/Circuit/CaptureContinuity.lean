import Viosnd.Circuit.Ownership

/-!
# A capture stream goes on

A pause leaves periods on the virtqueue when the device is slow, and the next run submits the others
behind them. As long as the device completes in the order of submission, the packets on the
virtqueue carry the numbers behind the last one that was captured, without a gap, and the client is
notified of each number once. `GetCurrentPacket` gives the number that comes back next,
`GetCapturePacket` the one before it. As everywhere in this model the callbacks and the interrupt
come one at a time, and fewer than 2^64 periods come back.
-/

namespace Viosnd.Circuit

open StepRun EffectSystem

open Acx (sndStatusOk)

/-! ## What the client asks -/

/-- `ViosndEvtStreamGetCurrentPacket`. -/
def evtStreamGetCurrentPacket (s : Stream) : ULONG := s.packetsCompleted.setWidth 32

/-- `ViosndEvtStreamGetCapturePacket`: the status, `LastCapturePacket` and `MoreData`. -/
def evtStreamGetCapturePacket (s : Stream) : NtStatus × Option (ULONG × Bool) :=
  if s.capture = false then (.invalidDeviceRequest, none)
  else if s.packetsCompleted = 0 then (.deviceNotReady, some (0, false))
  else (.success, some ((s.packetsCompleted - 1).setWidth 32, false))

/-- `VIOSND_DEFAULT_CHANNELS * VIOSND_DEFAULT_BITS_PER_SAMPLE / 8`. -/
def blockAlign : ULONGLONG := 4

/-- `ViosndEvtStreamGetPresentationPosition`. -/
def evtStreamGetPresentationPosition (s : Stream) : ULONGLONG := s.positionBytes / blockAlign

/-! ## Numbers without a gap -/

/-- The chains have the packet numbers from `first` on, and `next` comes behind them. -/
def Consecutive : ULONGLONG → List Chain → ULONGLONG → Prop
  | first, [], next => next = first
  | first, chain :: rest, next => chain.packetNumber = first ∧ Consecutive (first + 1) rest next

/-- The chains on the virtqueue in the order in which they come back. -/
def Stream.order (s : Stream) : List Chain :=
  (s.queue.completed.map fun c => c.1.1) ++ s.queue.inFlight.map Prod.fst

structure CaptureContinues (s : Stream) : Prop where
  numbers : Consecutive s.packetsCompleted s.order s.nextCapturePacket
  /-- The audio of a period goes to the packet that it was submitted for. -/
  recorded : ∀ chain ∈ s.order, (s.period chain.period).packetNumber = chain.packetNumber
  /-- The packet behind the one that `GetCapturePacket` gives comes back next. -/
  told : ∀ last more, evtStreamGetCapturePacket s = (.success, some (last, more)) →
    ∀ chain ∈ s.order.head?, chain.packetNumber.setWidth 32 = last + 1
  /-- The packet that `GetCurrentPacket` gives comes back next. -/
  current : ∀ chain ∈ s.order.head?,
    chain.packetNumber.setWidth 32 = evtStreamGetCurrentPacket s
  /-- The position is that of the packets that were captured. -/
  position : s.present = true → s.prepared = true → evtStreamGetPresentationPosition s =
    s.packetsCompleted * BitVec.ofNat 64 s.periodBytes / blockAlign

/-- The numbers that were captured since `s` were notified, in order and once each. -/
def Notifies (s s' : Stream) : Prop :=
  ∃ n, s'.packetsCompleted.toNat = s.packetsCompleted.toNat + n ∧
    s'.log.notifiedNumbers.map BitVec.toNat = s.log.notifiedNumbers.map BitVec.toNat ++
      List.range' s.packetsCompleted.toNat n

/-! ## One step -/

section

variable {s s' : Stream} {k : ℕ} {first next : ULONGLONG} {chains : List Chain} {chain : Chain}

theorem Consecutive.concat (h : Consecutive first chains next)
    (hchain : chain.packetNumber = next) : Consecutive first (chains ++ [chain]) (next + 1) := by
  induction chains generalizing first with
  | nil =>
      obtain rfl : next = first := h
      exact ⟨hchain, rfl⟩
  | cons c chains ih => exact ⟨h.1, ih h.2⟩

/-- The invariant: `k` completions were seen so far. -/
structure Continues (k : ℕ) (s : Stream) : Prop extends Lending s where
  capture : s.capture = true
  numbers : Consecutive s.packetsCompleted s.order s.nextCapturePacket
  recorded : ∀ chain ∈ s.order, (s.period chain.period).packetNumber = chain.packetNumber
  counted : s.packetsCompleted.toNat + s.queue.completed.length ≤ k
  position : s.present = true → s.prepared = true →
    s.positionBytes = s.packetsCompleted * BitVec.ofNat 64 s.periodBytes

private theorem mem_order (s : Stream) (chain : Chain) :
    chain ∈ s.order ↔ chain ∈ s.queue.items := by
  unfold Stream.order BoundedQueue.items
  rw [List.mem_append, List.mem_append, Or.comm]

private theorem Continues.comesNext (h : Continues k s) (hchain : chain ∈ s.order.head?) :
    chain.packetNumber = s.packetsCompleted := by
  have hnumbers := h.numbers
  cases horder : s.order with
  | nil => simp [horder] at hchain
  | cons c rest =>
      rw [horder] at hchain hnumbers
      obtain rfl : c = chain := by simpa using hchain
      exact hnumbers.1

private theorem Continues.continues (h : Continues k s) : CaptureContinues s := by
  refine ⟨h.numbers, h.recorded, ?_, ?_, ?_⟩
  · intro last more htold chain hchain
    unfold evtStreamGetCapturePacket at htold
    rw [if_neg (by simp [h.capture])] at htold
    split at htold
    · cases htold
    · obtain ⟨-, hlast⟩ := Prod.mk.inj htold
      obtain ⟨hlast, -⟩ := Prod.mk.inj (Option.some.inj hlast)
      rw [h.comesNext hchain, ← hlast]
      bv_omega
  · intro chain hchain
    rw [h.comesNext hchain]
    rfl
  · intro hpresent hprepared
    unfold evtStreamGetPresentationPosition
    rw [h.position hpresent hprepared]

theorem Continues.mono {k' : ℕ} (h : Continues k s) (hk : k ≤ k') : Continues k' s :=
  ⟨h.toLending, h.capture, h.numbers, h.recorded, h.counted.trans hk, h.position⟩

theorem Continues.congr (h : Continues k s) (hlending : Lending s')
    (hqueue : s'.queue = s.queue) (hperiod : s'.period = s.period)
    (hcapture : s'.capture = s.capture) (hcompleted : s'.packetsCompleted = s.packetsCompleted)
    (hnext : s'.nextCapturePacket = s.nextCapturePacket)
    (hposition : s'.present = true → s'.prepared = true →
      s'.positionBytes = s'.packetsCompleted * BitVec.ofNat 64 s'.periodBytes) :
    Continues k s' := by
  have horder : s'.order = s.order := by
    unfold Stream.order
    rw [hqueue]
  refine ⟨hlending, hcapture.trans h.capture, ?_, ?_, ?_, hposition⟩
  · rw [horder, hcompleted, hnext]
    exact h.numbers
  · rw [horder, hperiod]
    exact h.recorded
  · rw [hcompleted, hqueue]
    exact h.counted

/-- The device completes the chain that was submitted first. -/
def Completion.InOrder (c : Completion) : Prop := c.chain = 0

theorem Continues.complete (h : Continues k s) {c : Completion} (hc : c.InOrder) :
    Continues (k + 1) (s.complete c) := by
  have hlending : Lending (s.complete c) :=
    (Effect.deliver s c).lending (by rintro (h | h) <;> cases h) h.toLending
  have hqueue : (s.complete c).order = s.order ∧
      (s.complete c).queue.completed.length ≤ s.queue.completed.length + 1 := by
    unfold Stream.complete BoundedQueue.complete Stream.order
    rw [hc, Nat.zero_mod]
    cases hflight : s.queue.inFlight with
    | nil => simp [hflight]
    | cons entry rest => simp
  refine ⟨hlending, h.capture, ?_, ?_, ?_, h.position⟩
  · rw [hqueue.1]
    exact h.numbers
  · rw [hqueue.1]
    exact h.recorded
  · have hcounted := h.counted
    have hmore := hqueue.2
    change s.packetsCompleted.toNat + (s.complete c).queue.completed.length ≤ k + 1
    omega

theorem Notifies.of_same (hcompleted : s'.packetsCompleted = s.packetsCompleted)
    (hnotified : s'.log.notifiedNumbers = s.log.notifiedNumbers) : Notifies s s' := by
  refine ⟨0, ?_, ?_⟩
  · rw [hcompleted, Nat.add_zero]
  · rw [hnotified, List.range'_zero, List.append_nil]

theorem Notifies.refl (s : Stream) : Notifies s s := Notifies.of_same rfl rfl

theorem Notifies.trans {s₁ s₂ s₃ : Stream} (first : Notifies s₁ s₂) (second : Notifies s₂ s₃) :
    Notifies s₁ s₃ := by
  obtain ⟨m, hmiddle, hfirst⟩ := first
  obtain ⟨n, hlast, hsecond⟩ := second
  refine ⟨m + n, ?_, ?_⟩
  · rw [hlast, hmiddle, Nat.add_assoc]
  · rw [hsecond, hfirst, hmiddle, List.append_assoc, List.range'_append_1]

/-- The stream goes on with at most `n` completions. -/
def Advances (n : ℕ) (s s' : Stream) : Prop :=
  ∀ k, k + n < 2 ^ 64 → Continues k s → Continues (k + n) s' ∧ Notifies s s'

theorem Advances.refl (s : Stream) : Advances 0 s s := fun _ _ h => ⟨h, Notifies.refl s⟩

theorem Advances.mono {m n : ℕ} (h : Advances m s s') (hmn : m ≤ n) : Advances n s s' := by
  intro k hk hs
  obtain ⟨hnext, hnotifies⟩ := h k (by omega) hs
  exact ⟨hnext.mono (by omega), hnotifies⟩

theorem Advances.trans {m n : ℕ} {s₁ s₂ s₃ : Stream} (first : Advances m s₁ s₂)
    (second : Advances n s₂ s₃) : Advances (m + n) s₁ s₃ := by
  intro k hk h
  obtain ⟨hmiddle, hfirst⟩ := first k (by omega) h
  obtain ⟨hlast, hsecond⟩ := second (k + m) (by omega) hmiddle
  exact ⟨hlast.mono (by omega), hfirst.trans hsecond⟩

private theorem completeAll_advances (completions : List Completion)
    (hin : ∀ c ∈ completions, c.InOrder) (s : Stream) :
    Advances completions.length s (s.completeAll completions) := by
  induction completions generalizing s with
  | nil => exact Advances.refl s
  | cons c completions ih =>
      have hfirst : Advances 1 s (s.complete c) :=
        fun k _ h => ⟨h.complete (hin c List.mem_cons_self), Notifies.of_same rfl rfl⟩
      have hrest := ih (fun c hc => hin c (List.mem_cons_of_mem _ hc)) (s.complete c)
      exact (hfirst.trans hrest).mono (by simp [Nat.add_comm])

private theorem advances_of_same (hlending : Lending s → Lending s') (hqueue : s'.queue = s.queue)
    (hperiod : s'.period = s.period) (hcapture : s'.capture = s.capture)
    (hcompleted : s'.packetsCompleted = s.packetsCompleted)
    (hnext : s'.nextCapturePacket = s.nextCapturePacket)
    (hposition : s'.positionBytes = s.positionBytes) (hbytes : s'.periodBytes = s.periodBytes)
    (hset : s'.present = true → s'.prepared = true → s.present = true ∧ s.prepared = true)
    (hnotified : s'.log.notifiedNumbers = s.log.notifiedNumbers) : Advances 0 s s' := by
  intro k _ h
  refine ⟨h.congr (hlending h.toLending) hqueue hperiod hcapture hcompleted hnext ?_,
    Notifies.of_same hcompleted hnotified⟩
  intro hpresent hprepared
  obtain ⟨hpresent, hprepared⟩ := hset hpresent hprepared
  rw [hposition, hcompleted, hbytes]
  exact h.position hpresent hprepared

private theorem tune_lending {packetsCompleted nextCapturePacket positionBytes : ULONGLONG}
    {xrunCount : ULONG} {commands : List (PcmCommand × NtStatus)} (h : Lending s) :
    Lending { s with
      packetsCompleted := packetsCompleted
      nextCapturePacket := nextCapturePacket
      positionBytes := positionBytes
      xrunCount := xrunCount
      log := { s.log with
        commands := commands } } :=
  (Effect.tune s packetsCompleted nextCapturePacket positionBytes xrunCount commands).lending
    (by rintro (h | h) <;> cases h) h

private theorem command_advances (s : Stream) (c : PcmCommand) (answer : NtStatus) :
    Advances 0 s (s.command c answer) :=
  advances_of_same tune_lending rfl rfl rfl rfl rfl rfl rfl And.intro rfl

private theorem xrun_advances (s : Stream) : Advances 0 s { s with
    xrunCount := s.xrunCount + 1 } :=
  advances_of_same tune_lending rfl rfl rfl rfl rfl rfl rfl And.intro rfl

/-! ## Submission -/

theorem Continues.fillCapture (h : Continues k s) {i : ℕ} (packetNumber : ULONGLONG)
    (hfree : (s.period i).inFlight = false) : Continues k (s.fillCapture i packetNumber) := by
  have hlending := (Effect.fillCapture s i packetNumber hfree).lending
    (by rintro (h | h) <;> cases h) h.toLending
  refine ⟨hlending, h.capture, h.numbers, ?_, h.counted, h.position⟩
  intro chain hchain
  have hout := (h.matched.mem ((mem_order s chain).mp hchain)).2
  have hne : chain.period ≠ i := by
    rintro rfl
    rw [hfree] at hout
    cases hout
  change (Function.update s.period i _ chain.period).packetNumber = _
  rw [Function.update_of_ne hne]
  exact h.recorded chain hchain

theorem Continues.sent (h : Continues k s) {i : ℕ} {queue : BoundedQueue Chain Answer}
    (hprepared : s.prepared = true) (hperiods : s.periods ≠ none) (hqueue : s.hasQueue = true)
    (hi : i < s.periodCount) (hfree : (s.period i).inFlight = false)
    (hadd : (s.fillCapture i s.nextCapturePacket).queue.add
      ((s.fillCapture i s.nextCapturePacket).chain i) captureDescriptors = some queue) :
    Continues k { (s.fillCapture i s.nextCapturePacket).sent i queue with
      nextCapturePacket := s.nextCapturePacket + 1 } := by
  have hfilled := h.fillCapture s.nextCapturePacket hfree
  have hself : (s.fillCapture i s.nextCapturePacket).period i = { s.period i with
      packetNumber := s.nextCapturePacket } := Function.update_self _ _ _
  have hchain : ((s.fillCapture i s.nextCapturePacket).chain i).packetNumber =
      s.nextCapturePacket := congrArg Period.packetNumber hself
  have hsent := (Effect.submitCapture s i s.nextCapturePacket queue h.capture hprepared hperiods
    hqueue hi hfree hadd).lending (by rintro (h | h) <;> cases h) h.toLending
  have hsame := BoundedQueue.add_eq_some hadd
  have horder : ({ (s.fillCapture i s.nextCapturePacket).sent i queue with
      nextCapturePacket := s.nextCapturePacket + 1 } : Stream).order =
      s.order ++ [(s.fillCapture i s.nextCapturePacket).chain i] := by
    unfold Stream.order
    change queue.completed.map _ ++ queue.inFlight.map _ = _
    rw [hsame, List.map_append, ← List.append_assoc]
    rfl
  refine ⟨hsent.aside ⟨rfl, rfl, rfl, rfl, rfl, rfl, rfl, rfl, rfl, rfl⟩ rfl, h.capture, ?_, ?_, ?_,
    h.position⟩
  · rw [horder]
    exact h.numbers.concat hchain
  · rw [horder]
    intro chain hmem
    have hkept : ∀ j, (((s.fillCapture i s.nextCapturePacket).sent i queue).period j).packetNumber =
        ((s.fillCapture i s.nextCapturePacket).period j).packetNumber := by
      intro j
      unfold Stream.sent Stream.setPeriod
      dsimp only
      by_cases hj : j = i
      · subst hj
        rw [Function.update_self]
      · rw [Function.update_of_ne hj]
    change (((s.fillCapture i s.nextCapturePacket).sent i queue).period _).packetNumber = _
    rw [hkept]
    rcases List.mem_append.mp hmem with hold | hnew
    · exact hfilled.recorded chain hold
    · rw [List.mem_singleton.mp hnew]
      rfl
  · change s.packetsCompleted.toNat + queue.completed.length ≤ k
    rw [hsame]
    exact h.counted

private theorem submitNext_advances (hprepared : s.prepared = true) (hperiods : s.periods ≠ none)
    {i : ℕ} (hi : i < s.periodCount) :
    (∃ s', submitCapturePeriod s i s.nextCapturePacket = (.success, s') ∧ Advances 0 s { s' with
      nextCapturePacket := s'.nextCapturePacket + 1 }) ∨
    (∃ s', submitCapturePeriod s i s.nextCapturePacket = (.deviceBusy, s') ∧ Advances 0 s s') ∨
    submitCapturePeriod s i s.nextCapturePacket = (.deviceNotReady, s) := by
  rcases submitCapturePeriod_cases s i s.nextCapturePacket with hsubmit | hsubmit |
    ⟨-, hqueue, hfree, hsubmit | ⟨queue, hadd, hsubmit⟩⟩
  · exact Or.inr (Or.inr hsubmit)
  · exact Or.inr (Or.inl ⟨s, hsubmit, Advances.refl s⟩)
  · refine Or.inr (Or.inl ⟨_, hsubmit, fun k _ h => ⟨?_, Notifies.of_same rfl rfl⟩⟩)
    exact h.fillCapture _ hfree
  · refine Or.inl ⟨_, hsubmit, fun k _ h => ⟨?_, Notifies.of_same rfl rfl⟩⟩
    exact h.sent hprepared hperiods hqueue hi hfree hadd

private theorem resubmitCapture_advances (hwired : Wired s) (hperiods : s.periods ≠ none) {i : ℕ}
    (hi : i < s.periodCount) : Advances 0 s (resubmitCapture s i) := by
  unfold resubmitCapture
  split
  · rename_i hrunning
    rcases submitNext_advances (hwired.running hrunning) hperiods hi with
      ⟨s', hsubmit, hnext⟩ | ⟨s', hsubmit, hnext⟩ | hsubmit
    · rw [hsubmit]
      exact hnext
    · rw [hsubmit]
      exact hnext
    · rw [hsubmit]
      exact xrun_advances s
  · exact Advances.refl s

/-! ## Completion -/

private theorem copyCapture_counters (s : Stream) (packetNumber : ULONGLONG) :
    (copyCapture s packetNumber).packetsCompleted = s.packetsCompleted ∧
      (copyCapture s packetNumber).nextCapturePacket = s.nextCapturePacket ∧
      (copyCapture s packetNumber).log.notifiedNumbers = s.log.notifiedNumbers := by
  unfold copyCapture
  split
  · exact ⟨rfl, rfl, rfl⟩
  · exact ⟨rfl, rfl, rfl⟩

/-- The packet that comes back is the one behind the last that was captured; `t` is the stream
before it is counted. -/
theorem Continues.count (h : Continues k s) (hk : k < 2 ^ 64) {chain : Chain} {answer : Answer}
    {queue : BoundedQueue Chain Answer} (hget : s.queue.get = some ((chain, answer), queue))
    {t : Stream} (hlending : Lending (t.count (s.period chain.period) answer))
    (hcapture : t.capture = true) (hqueue : t.queue = queue)
    (hkept : ∀ j, (t.period j).packetNumber = (s.period j).packetNumber)
    (hbefore : t.packetsCompleted = s.packetsCompleted)
    (hnext : t.nextCapturePacket = s.nextCapturePacket)
    (hnotified : t.log.notifiedNumbers = s.log.notifiedNumbers) :
    Continues k (t.count (s.period chain.period) answer) ∧
      Notifies s (t.count (s.period chain.period) answer) := by
  obtain ⟨cost, hcompleted, hflight, -⟩ := BoundedQueue.get_eq_some hget
  have horder : s.order = chain :: t.order := by
    unfold Stream.order
    rw [hqueue, hcompleted, hflight]
    rfl
  have hnumbers := h.numbers
  rw [horder] at hnumbers
  obtain ⟨hnumber, hrest⟩ := hnumbers
  have hperiod : (s.period chain.period).packetNumber = s.packetsCompleted :=
    (h.recorded chain (horder ▸ List.mem_cons_self)).trans hnumber
  have hcounted := h.counted
  rw [hcompleted, List.length_cons] at hcounted
  have hsmall : s.packetsCompleted < s.packetsCompleted + 1 := by bv_omega
  have hsucc : (s.packetsCompleted + 1).toNat = s.packetsCompleted.toNat + 1 := by bv_omega
  have hafter : (t.count (s.period chain.period) answer).packetsCompleted =
      s.packetsCompleted + 1 := by
    unfold Stream.count
    dsimp only
    rw [hbefore, hperiod, if_pos hsmall]
  refine ⟨⟨hlending, hcapture, ?_, ?_, ?_, fun _ _ => rfl⟩, ?_⟩
  · rw [hafter]
    change Consecutive _ t.order t.nextCapturePacket
    rw [hnext]
    exact hrest
  · intro other hother
    have hold : other ∈ s.order := horder ▸ List.mem_cons_of_mem _ hother
    exact (hkept other.period).trans (h.recorded other hold)
  · rw [hafter, hsucc]
    change _ + t.queue.completed.length ≤ k
    rw [hqueue]
    omega
  · refine ⟨1, by rw [hafter, hsucc], ?_⟩
    change (t.log.notifiedNumbers ++ [_]).map BitVec.toNat = _
    rw [hnotified, List.map_append, List.map_singleton, hperiod, List.range'_one]

private theorem completeCapture_advances {chain : Chain} {answer : Answer}
    {queue : BoundedQueue Chain Answer} (hlending : Lending s)
    (hget : s.queue.get = some ((chain, answer), queue)) :
    Advances 0 s (completeCapture { s with
      queue := queue } chain answer) := by
  have hmem : chain ∈ s.queue.items :=
    (BoundedQueue.get_items hget).mem_iff.mpr List.mem_cons_self
  have hcurrent := hlending.current chain hmem
  have htake := Effect.takeCapture s chain answer queue hget hcurrent
  have haside := copyCapture_aside ({ s with
    queue := queue }.release chain.period) (s.period chain.period).packetNumber
  obtain ⟨hbefore, hnext, hnotified⟩ := copyCapture_counters ({ s with
    queue := queue }.release chain.period) (s.period chain.period).packetNumber
  have hkept : ∀ j, ((({ s with
      queue := queue } : Stream).release chain.period).period j).packetNumber =
      (s.period j).packetNumber := by
    intro j
    unfold Stream.release Stream.setPeriod
    dsimp only
    by_cases hj : j = chain.period
    · subst hj
      rw [Function.update_self]
    · rw [Function.update_of_ne hj]
  have htaken : Advances 0 s ((copyCapture ({ s with
      queue := queue }.release chain.period) (s.period chain.period).packetNumber).count
        (s.period chain.period) answer) := by
    intro k hk h
    apply h.count hk hget
    · exact htake.lending (by rintro (h | h) <;> cases h) h.toLending
    · exact haside.capture.trans h.capture
    · exact haside.queue
    · intro j
      rw [haside.period]
      exact hkept j
    · exact hbefore
    · exact hnext
    · exact hnotified
  unfold completeCapture
  rw [if_neg (not_not.mpr hcurrent)]
  refine Advances.trans (n := 0) htaken ?_
  apply resubmitCapture_advances (htake.wired hlending.wired)
  · change (copyCapture _ _).periods ≠ none
    rw [haside.periods]
    exact fun hnone => Option.some_ne_none _ (hcurrent.symm.trans hnone)
  · change chain.period < (copyCapture _ _).periodCount
    rw [haside.periodCount]
    exact hlending.wired.bounded chain hmem hcurrent

private theorem drainUsed_advances (n : ℕ) (h : Lending s) :
    Advances 0 s (drainUsed completeCapture n s) := by
  induction n generalizing s with
  | zero => exact Advances.refl s
  | succ n ih =>
      unfold drainUsed
      cases hget : s.queue.get with
      | none => exact Advances.refl s
      | some got =>
          obtain ⟨⟨chain, answer⟩, queue⟩ := got
          have hnext := (completeCapture_does hget h.wired).lending (by decide) (by decide) h
          exact (completeCapture_advances h hget).trans (ih hnext)

private theorem drainStreamQueue_advances (h : Lending s) (hcapture : s.capture = true) :
    Advances 0 s (drainStreamQueue s) := by
  unfold drainStreamQueue
  split
  · exact Advances.refl s
  · exact drainUsed_advances _ h

/-! ## Stopping -/

def StopInput.completions (i : StopInput) : List Completion :=
  i.meanwhile ++ i.sleeps.flatten ++ i.last

private theorem waitForStreamIdle_advances (n : ℕ) (sleeps : List (List Completion)) (h : Lending s)
    (hcapture : s.capture = true) (hin : ∀ c ∈ sleeps.flatten, c.InOrder) :
    Advances sleeps.flatten.length s (waitForStreamIdle n sleeps s) := by
  have hdrain := drainStreamQueue_advances h hcapture
  induction n generalizing sleeps s with
  | zero =>
      unfold waitForStreamIdle
      dsimp only
      split
      · exact hdrain.mono (Nat.zero_le _)
      · exact (hdrain.trans (xrun_advances _)).mono (Nat.zero_le _)
  | succ n ih =>
      unfold waitForStreamIdle
      dsimp only
      split
      · exact hdrain.mono (Nat.zero_le _)
      · have hfirst : ∀ c ∈ sleeps.headD [], c.InOrder := by
          intro c hc
          cases sleeps with
          | nil => cases hc
          | cons slept sleeps => exact hin c (List.mem_append_left _ hc)
        have hrest : ∀ c ∈ sleeps.tail.flatten, c.InOrder := by
          intro c hc
          cases sleeps with
          | nil => cases hc
          | cons slept sleeps => exact hin c (List.mem_append_right _ hc)
        have hlength : (sleeps.headD []).length + sleeps.tail.flatten.length =
            sleeps.flatten.length := by
          cases sleeps with
          | nil => rfl
          | cons slept sleeps => simp
        have hslept := completeAll_advances (sleeps.headD []) hfirst (drainStreamQueue s)
        have hlending := completeAll_lending (drainStreamQueue_lending h) (sleeps.headD [])
        have hstill : ((drainStreamQueue s).completeAll (sleeps.headD [])).capture = true := by
          have hdone : Does ambient s ((drainStreamQueue s).completeAll (sleeps.headD [])) :=
            (drainStreamQueue_does h.wired).trans (completeAll_does _ _)
          exact (hdone.sameStream (by decide) (by decide)).capture.trans hcapture
        have hlater := ih sleeps.tail hlending hstill hrest
          (drainStreamQueue_advances hlending hstill)
        exact ((hdrain.trans hslept).trans hlater).mono (by omega)

private theorem notRunning_advances (s : Stream) : Advances 0 s { s with
    running := false } :=
  advances_of_same notRunning_lending rfl rfl rfl rfl rfl rfl rfl And.intro rfl

private theorem halted_advances (release : Bool) (i : StopInput) (hcapture : s.capture = true)
    (hin : ∀ c ∈ i.meanwhile, c.InOrder) :
    Advances i.meanwhile.length s (s.halted release i) := by
  have hstop := (notRunning_advances s).trans (command_advances _ .stop i.stop)
  have hmeanwhile := hstop.trans (completeAll_advances i.meanwhile hin _)
  have hclear : clearRenderQueue (({ s with
      running := false }.command .stop i.stop).completeAll i.meanwhile) =
      ({ s with
        running := false }.command .stop i.stop).completeAll i.meanwhile := by
    obtain ⟨queue, hstream, -⟩ := completeAll_eq i.meanwhile ({ s with
      running := false }.command .stop i.stop)
    rw [hstream]
    exact if_pos hcapture
  unfold Stream.halted
  rw [hclear]
  dsimp only
  split
  · exact (hmeanwhile.trans (command_advances _ .release i.release)).mono (by omega)
  · exact hmeanwhile.mono (by omega)

private theorem StopInput.length_completions (i : StopInput) :
    i.completions.length = i.meanwhile.length + i.sleeps.flatten.length + i.last.length := by
  unfold StopInput.completions
  rw [List.length_append, List.length_append]

private theorem stopStream_advances (release : Bool) (i : StopInput) (h : Lending s)
    (hcapture : s.capture = true) (hin : ∀ c ∈ i.completions, c.InOrder) :
    Lending (stopStream release i s) ∧ (stopStream release i s).capture = true ∧
      Advances (i.meanwhile.length + i.sleeps.flatten.length) s (stopStream release i s) := by
  have hmeanwhile : ∀ c ∈ i.meanwhile, c.InOrder :=
    fun c hc => hin c (List.mem_append_left _ (List.mem_append_left _ hc))
  have hsleeps : ∀ c ∈ i.sleeps.flatten, c.InOrder :=
    fun c hc => hin c (List.mem_append_left _ (List.mem_append_right _ hc))
  cases hpresent : s.present with
  | false =>
      have hsame : stopStream release i s = s := if_pos hpresent
      rw [hsame]
      exact ⟨h, hcapture, (Advances.refl s).mono (Nat.zero_le _)⟩
  | true =>
      cases hprepared : s.prepared with
      | false =>
          rw [stopStream_of_unprepared s release i hpresent hprepared]
          exact ⟨notRunning_lending h, hcapture, (notRunning_advances s).mono (Nat.zero_le _)⟩
      | true =>
          have hdoes := halted_does s release i
          have hhalted : Lending (s.halted release i) :=
            hdoes.lending (by decide) (by decide) (notRunning_lending h)
          have hstill : (s.halted release i).capture = true :=
            (hdoes.sameStream (by decide) (by decide)).capture.trans hcapture
          have hrunning : (s.halted release i).running = false := hdoes.sameFlags.running
          have hidle : ∀ n, Lending (waitForStreamIdle n i.sleeps (s.halted release i)) ∧
              (waitForStreamIdle n i.sleeps (s.halted release i)).capture = true ∧
              (waitForStreamIdle n i.sleeps (s.halted release i)).running = false := by
            intro n
            have hwait := waitForStreamIdle_does n i.sleeps hhalted.wired
            exact ⟨hwait.lending (by decide) (by decide) hhalted,
              (hwait.sameStream (by decide) (by decide)).capture.trans hstill,
              (Does.widen hwait).sameFlags.running.trans hrunning⟩
          have hall : ∀ n, Advances (i.meanwhile.length + i.sleeps.flatten.length) s
              (waitForStreamIdle n i.sleeps (s.halted release i)) :=
            fun n => (halted_advances release i hcapture hmeanwhile).trans
              (waitForStreamIdle_advances n i.sleeps hhalted hstill hsleeps)
          rw [stopStream_eq s release i hpresent hprepared]
          cases release with
          | false =>
              obtain ⟨hlending, hsame, -⟩ := hidle pauseTimeoutMs
              exact ⟨hlending, hsame, hall pauseTimeoutMs⟩
          | true =>
              obtain ⟨hlending, hsame, hstopped⟩ := hidle releaseTimeoutMs
              have hunprepare : ∀ {t : Stream}, t.running = false → Lending t → Lending { t with
                  prepared := false } := fun ht =>
                (Effect.unprepare _ ht).lending (by rintro (h | h) <;> cases h)
              refine ⟨hunprepare hstopped hlending, hsame, ?_⟩
              refine (hall releaseTimeoutMs).trans (n := 0) ?_
              exact advances_of_same (hunprepare hstopped) rfl rfl rfl rfl rfl rfl rfl
                (fun _ hset => absurd hset Bool.false_ne_true) rfl

private theorem stopped_advances (release : Bool) (i : StopInput) (h : Lending s)
    (hcapture : s.capture = true) (hin : ∀ c ∈ i.completions, c.InOrder) :
    Advances i.completions.length s
      (drainStreamQueue ((stopStream release i s).completeAll i.last)) := by
  obtain ⟨hlending, hstill, hadvances⟩ := stopStream_advances release i h hcapture hin
  have hlast : ∀ c ∈ i.last, c.InOrder := fun c hc => hin c (List.mem_append_right _ hc)
  have hdelivered := completeAll_advances i.last hlast (stopStream release i s)
  have hdrained := drainStreamQueue_advances (completeAll_lending hlending i.last)
    (((completeAll_does i.last _).sameStream (by decide) (by decide)).capture.trans hstill)
  exact ((hadvances.trans hdelivered).trans hdrained).mono (by rw [i.length_completions]; rfl)

/-! ## Preparation -/

private theorem prepareStreamPeriods_counters (s : Stream) (allocation : Allocation) :
    (prepareStreamPeriods s allocation).2.queue = s.queue ∧
      (prepareStreamPeriods s allocation).2.capture = s.capture ∧
      (prepareStreamPeriods s allocation).2.running = s.running ∧
      (prepareStreamPeriods s allocation).2.packetsCompleted = s.packetsCompleted ∧
      (prepareStreamPeriods s allocation).2.nextCapturePacket = s.nextCapturePacket := by
  unfold prepareStreamPeriods
  split
  · exact ⟨rfl, rfl, rfl, rfl, rfl⟩
  · dsimp only
    generalize (if s.packetSize ≠ 0 then s.packetSize else defaultPeriodBytes.toNat) = periodBytes
    split
    · exact ⟨rfl, rfl, rfl, rfl, rfl⟩
    · cases allocation with
      | none | partly | all => exact ⟨rfl, rfl, rfl, rfl, rfl⟩

/-- A preparation leaves the queue alone, and starts counting again when it succeeds. -/
private theorem configurePcmStream_counters (i : ConfigureInput) (hprepared : s.prepared = false) :
    (configurePcmStream i s).2.queue = s.queue ∧
      (configurePcmStream i s).2.capture = s.capture ∧
      (configurePcmStream i s).2.running = s.running ∧
      ((configurePcmStream i s).2.packetsCompleted = s.packetsCompleted ∧
          (configurePcmStream i s).2.nextCapturePacket = s.nextCapturePacket ∧
          (configurePcmStream i s).1 ≠ .success ∨
        (configurePcmStream i s).2.packetsCompleted = 0 ∧
          (configurePcmStream i s).2.nextCapturePacket = 0 ∧
          (configurePcmStream i s).2.positionBytes = 0) := by
  obtain ⟨hqueue, hcapture, hrunning, hcompleted, hnext⟩ :=
    prepareStreamPeriods_counters s i.allocation
  unfold configurePcmStream
  rw [if_neg (by simp [hprepared])]
  cases hresult : prepareStreamPeriods s i.allocation with
  | mk status s₁ =>
      rw [hresult] at hqueue hcapture hrunning hcompleted hnext
      dsimp only at hqueue hcapture hrunning hcompleted hnext ⊢
      split
      · rename_i hfailed
        exact ⟨hqueue, hcapture, hrunning, Or.inl ⟨hcompleted, hnext, hfailed⟩⟩
      split
      · rename_i hfailed
        exact ⟨hqueue, hcapture, hrunning, Or.inl ⟨hcompleted, hnext, hfailed⟩⟩
      split
      · rename_i hfailed
        exact ⟨hqueue, hcapture, hrunning, Or.inl ⟨hcompleted, hnext, hfailed⟩⟩
      · exact ⟨hqueue, hcapture, hrunning, Or.inr ⟨rfl, rfl, rfl⟩⟩

private theorem order_eq_nil (hitems : s.queue.items = []) :
    s.order = [] ∧ s.queue.completed = [] := by
  obtain ⟨hflight, hcompleted⟩ := List.append_eq_nil_iff.mp hitems
  unfold Stream.order
  rw [hflight, hcompleted]
  exact ⟨rfl, List.map_eq_nil_iff.mp hcompleted⟩

private theorem continues_of_empty (hlending : Lending s) (hcapture : s.capture = true)
    (hitems : s.queue.items = []) (hnext : s.nextCapturePacket = s.packetsCompleted)
    (hcounted : s.packetsCompleted.toNat ≤ k)
    (hposition : s.present = true → s.prepared = true →
      s.positionBytes = s.packetsCompleted * BitVec.ofNat 64 s.periodBytes) : Continues k s := by
  obtain ⟨horder, hcompleted⟩ := order_eq_nil hitems
  refine ⟨hlending, hcapture, ?_, ?_, ?_, hposition⟩
  · rw [horder]
    exact hnext
  · simp [horder]
  · rw [hcompleted]
    exact hcounted

private theorem Continues.next_eq (h : Continues k s) (hitems : s.queue.items = []) :
    s.nextCapturePacket = s.packetsCompleted := by
  have hnumbers := h.numbers
  rw [(order_eq_nil hitems).1] at hnumbers
  exact hnumbers

private theorem Continues.completed_le (h : Continues k s) : s.packetsCompleted.toNat ≤ k :=
  (Nat.le_add_right _ _).trans h.counted

theorem Continues.configure (h : Continues k s) (hpresent : s.present = true)
    (hprepared : s.prepared = false) (hitems : s.queue.items = []) (i : ConfigureInput) :
    Continues k (configurePcmStream i s).2 := by
  obtain ⟨hdoes, hset⟩ := configurePcmStream_does hpresent i
  obtain ⟨hqueue, hcapture, -, hcounters⟩ := configurePcmStream_counters i hprepared
  have hlent : Lent (configurePcmStream i s).2 :=
    hdoes.lent (by decide) (by decide) ⟨h.toLending, fun _ => hitems⟩
  have hempty : (configurePcmStream i s).2.queue.items = [] := by
    rw [hqueue]
    exact hitems
  rcases hcounters with ⟨hcompleted, hnext, hfailed⟩ | ⟨hcompleted, hnext, hposition⟩
  · apply continues_of_empty hlent.toLending (hcapture.trans h.capture) hempty
    · rw [hcompleted, hnext]
      exact h.next_eq hitems
    · rw [hcompleted]
      exact h.completed_le
    · exact fun _ hstill => absurd (hset.mpr hstill) hfailed
  · apply continues_of_empty hlent.toLending (hcapture.trans h.capture) hempty
    · rw [hcompleted, hnext]
    · simp [hcompleted]
    · intro _ _
      simp [hcompleted, hposition]

theorem Continues.freePeriods (h : Continues k s) (hlending : Lending (freeStreamPeriods s))
    (hprepared : s.prepared = false) :
    Continues k (freeStreamPeriods s) ∧ Notifies s (freeStreamPeriods s) := by
  unfold freeStreamPeriods at hlending ⊢
  split
  · exact ⟨h, Notifies.refl s⟩
  · rename_i hperiods
    rw [if_neg hperiods] at hlending
    refine ⟨h.congr hlending rfl rfl rfl rfl rfl fun _ hset => ?_, Notifies.of_same rfl rfl⟩
    exact absurd (hset.symm.trans hprepared) (by decide)

private theorem configurePcmStream_of_prepared (i : ConfigureInput)
    (hprepared : s.prepared = true) :
    configurePcmStream i s = (.success, s) :=
  if_pos hprepared

private theorem evtStreamPrepareHardware_continues (h : Continues k s) (hlent : Lent s)
    (hpresent : s.present = true) (i : ConfigureInput) :
    Continues k (evtStreamPrepareHardware i s).2 ∧
      (s.prepared = true → Notifies s (evtStreamPrepareHardware i s).2) := by
  have hafter := (evtStreamPrepareHardware_does hpresent i).lent (by decide) (by decide) hlent
  unfold evtStreamPrepareHardware at hafter ⊢
  cases hprepared : s.prepared with
  | true =>
      rw [configurePcmStream_of_prepared i hprepared]
      exact ⟨h, fun _ => Notifies.refl s⟩
  | false =>
      refine ⟨?_, fun hset => absurd hset (by decide)⟩
      have hconfigured := h.configure hpresent hprepared (hlent.idle hprepared) i
      have hset := (configurePcmStream_does hpresent i).2
      cases hresult : configurePcmStream i s with
      | mk status s₁ =>
          rw [hresult] at hafter hconfigured hset
          dsimp only at hafter hconfigured hset ⊢
          split
          · rename_i hfailed
            rw [if_pos hfailed] at hafter
            refine (hconfigured.freePeriods hafter.toLending ?_).1
            exact Bool.not_eq_true _ ▸ hset.not.mp hfailed
          · exact hconfigured

/-! ## Starting -/

private theorem submitCapturePeriods_advances (n i : ℕ) (h : Wired s)
    (hprepared : s.prepared = true) (hperiods : s.periods ≠ none) (hn : i + n ≤ s.periodCount) :
    Advances 0 s (submitCapturePeriods n i s).2 := by
  induction n generalizing i s with
  | zero => exact Advances.refl s
  | succ n ih =>
      have hrest : i + 1 + n ≤ s.periodCount := by omega
      have hdoes := submitCapturePeriod_does s i s.nextCapturePacket hprepared hperiods (by omega)
      have hwired := hdoes.wired h
      have hflags : SameFlags s (submitCapturePeriod s i s.nextCapturePacket).2 :=
        (Does.widen hdoes).sameFlags
      unfold submitCapturePeriods
      rcases submitNext_advances (i := i) hprepared hperiods (by omega) with
        ⟨s', hsubmit, hnext⟩ | ⟨s', hsubmit, hnext⟩ | hsubmit
      · rw [hsubmit] at hwired hflags ⊢
        have hcount := (does_nextCapturePacket s' (s'.nextCapturePacket + 1)).wired hwired
        exact hnext.trans (n := 0) (ih (i + 1) hcount (hflags.prepared.trans hprepared)
          (hflags.periods.trans_ne hperiods) (hrest.trans_eq hflags.periodCount.symm))
      · rw [hsubmit] at hwired hflags ⊢
        exact hnext.trans (n := 0) (ih (i + 1) hwired (hflags.prepared.trans hprepared)
          (hflags.periods.trans_ne hperiods) (hrest.trans_eq hflags.periodCount.symm))
      · rw [hsubmit]
        exact Advances.refl s

private theorem running_advances (hprepared : s.prepared = true) (running : Bool) :
    Advances 0 s { s with
      running := running } :=
  advances_of_same
    ((Effect.flags s s.prepared running (fun _ => hprepared) (Or.inl rfl)).lending
      (by rintro (h | h) <;> cases h))
    rfl rfl rfl rfl rfl rfl rfl And.intro rfl

/-- The stream is prepared, and its periods are submitted before it is started. -/
private theorem started_advances (i : RunInput) (h : Wired s) (hcapture : s.capture = true)
    (hprepared : s.prepared = true) (hperiods : s.periods ≠ none) (hrunning : s.running = false)
    (hin : ∀ c ∈ i.meanwhile, c.InOrder) :
    Advances i.meanwhile.length s (evtStreamRun i s).2 := by
  have hsubmitted : Advances 0 s (submitStream s).2 := by
    unfold submitStream
    rw [if_pos hcapture]
    exact submitCapturePeriods_advances s.periodCount 0 h hprepared hperiods (by omega)
  have hdoes := submitStream_does h hprepared hperiods
  have hsame := hdoes.sameStream (by decide) (by decide)
  have hflags : SameFlags s (submitStream s).2 := (Does.widen hdoes).sameFlags
  unfold evtStreamRun
  rw [if_neg (by simp [hrunning]), configurePcmStream_of_prepared _ hprepared]
  dsimp only
  rw [if_neg (not_not.mpr rfl)]
  cases hresult : submitStream s with
  | mk status s₁ =>
      rw [hresult] at hsubmitted hsame hflags
      dsimp only at hsubmitted hsame hflags ⊢
      have hcommand := hsubmitted.trans (command_advances s₁ .start i.start)
      have hdelivered := hcommand.trans (completeAll_advances i.meanwhile hin _)
      have hstill : ((s₁.command .start i.start).completeAll i.meanwhile).prepared = true ∧
          ((s₁.command .start i.start).completeAll i.meanwhile).capture = true := by
        obtain ⟨queue, hstream, -⟩ := completeAll_eq i.meanwhile (s₁.command .start i.start)
        rw [hstream]
        exact ⟨hflags.prepared.trans hprepared, hsame.capture.trans hcapture⟩
      split
      · exact hsubmitted.mono (Nat.zero_le _)
      split
      · exact (hdelivered.trans (running_advances hstill.1 false)).mono (by omega)
      · rw [if_pos hstill.2]
        exact (hdelivered.trans (running_advances hstill.1 true)).mono (by omega)

private theorem evtStreamRun_configured (i : RunInput) (hrunning : s.running = false)
    (hstill : (configurePcmStream i.configure s).2.running = false)
    (hready : (configurePcmStream i.configure s).1 = .success →
      (configurePcmStream i.configure s).2.prepared = true) :
    (evtStreamRun i s).2 = if (configurePcmStream i.configure s).1 ≠ .success
      then (configurePcmStream i.configure s).2
      else (evtStreamRun i (configurePcmStream i.configure s).2).2 := by
  conv_lhs => unfold evtStreamRun
  rw [if_neg (by simp [hrunning])]
  cases hresult : configurePcmStream i.configure s with
  | mk status s₁ =>
      rw [hresult] at hstill hready
      dsimp only at hstill hready ⊢
      split
      · rfl
      · rename_i hsuccess
        conv_rhs => unfold evtStreamRun
        have hstopped : ¬ s₁.running = true := by simp [hstill]
        have hsame : NtStatus.success = NtStatus.success := rfl
        rw [if_neg hstopped, configurePcmStream_of_prepared _ (hready (not_not.mp hsuccess))]
        dsimp only
        rw [if_neg (not_not.mpr hsame)]

private theorem evtStreamRun_continues (h : Continues k s) (hlent : Lent s)
    (hpresent : s.present = true) (i : RunInput) (hin : ∀ c ∈ i.meanwhile, c.InOrder)
    (hk : k + i.meanwhile.length < 2 ^ 64) :
    Continues (k + i.meanwhile.length) (evtStreamRun i s).2 ∧
      (s.prepared = true → Notifies s (evtStreamRun i s).2) := by
  cases hrunning : s.running with
  | true =>
      have hsame : evtStreamRun i s = (.success, s) := if_pos hrunning
      rw [hsame]
      exact ⟨h.mono (Nat.le_add_right _ _), fun _ => Notifies.refl s⟩
  | false =>
      cases hprepared : s.prepared with
      | true =>
          have hperiods := hlent.wired.periods hpresent hprepared
          obtain ⟨hnext, hnotifies⟩ := started_advances i hlent.wired h.capture hprepared hperiods
            hrunning hin k hk h
          exact ⟨hnext, fun _ => hnotifies⟩
      | false =>
          refine ⟨?_, fun hset => absurd hset (by decide)⟩
          have hconfigured :=
            h.configure hpresent hprepared (hlent.idle hprepared) i.configure
          obtain ⟨hdoes, hset⟩ := configurePcmStream_does hpresent i.configure
          obtain ⟨-, hcapture, hstill, -⟩ := configurePcmStream_counters i.configure hprepared
          have hpresent' := (hdoes.sameStream (by decide) (by decide)).present.trans hpresent
          have hwired := hdoes.wired hlent.wired
          rw [evtStreamRun_configured i hrunning (hstill.trans hrunning) hset.mp]
          split
          · exact hconfigured.mono (Nat.le_add_right _ _)
          · rename_i hsuccess
            have hready := hset.mp (not_not.mp hsuccess)
            exact (started_advances i hwired (hcapture.trans h.capture) hready
              (hwired.periods hpresent' hready) (hstill.trans hrunning) hin k hk hconfigured).1

end

/-! ## Runs -/

/-- What the device completes on the queue of the capture stream. -/
def Input.recorded : Input → List Completion
  | .complete true c => [c]
  | .run true i => i.meanwhile
  | .pause true i => i.completions
  | .releaseHardware true i => i.completions
  | _ => []

section

variable {w : World} {k : ℕ}

def GoesOn (w w' : World) (k n : ℕ) : Prop :=
  Continues (k + n) (w'.streams true) ∧
    ((w.streams true).present = true → (w.streams true).prepared = true →
      Notifies (w.streams true) (w'.streams true))

theorem Advances.goesOn {w' : World} {n : ℕ} (h : Advances n (w.streams true) (w'.streams true))
    (hk : k + n < 2 ^ 64) (hs : Continues k (w.streams true)) : GoesOn w w' k n := by
  obtain ⟨hnext, hnotifies⟩ := h k hk hs
  exact ⟨hnext, fun _ _ => hnotifies⟩

private theorem goesOn_of_same {w' : World} (h : w'.streams true = w.streams true)
    (hs : Continues k (w.streams true)) : GoesOn w w' k 0 := by
  refine ⟨?_, fun _ _ => ?_⟩
  · rw [h]
    exact hs
  · rw [h]
    exact Notifies.refl _

private theorem create_continues {s : Stream} (h : Continues k s) (habsent : s.present = false) :
    Continues k (createStream s) := by
  have hlending := (Effect.create s habsent).lending (by rintro (h | h) <;> cases h) h.toLending
  apply continues_of_empty hlending h.capture
  · exact h.empty_of_none (h.wired.absent habsent)
  · rfl
  · exact Nat.zero_le k
  · intro _ hset
    cases hset

private theorem evtStreamCleanup_advances {s : Stream} (h : Lending (evtStreamCleanup s)) :
    Advances 0 s (evtStreamCleanup s) := by
  intro k _ hs
  unfold evtStreamCleanup freeStreamPeriods at h ⊢
  dsimp only at h ⊢
  split
  · rename_i hperiods
    rw [if_pos hperiods] at h
    exact ⟨hs.congr h rfl rfl rfl rfl rfl fun hset => absurd hset Bool.false_ne_true,
      Notifies.of_same rfl rfl⟩
  · rename_i hperiods
    rw [if_neg hperiods] at h
    exact ⟨hs.congr h rfl rfl rfl rfl rfl fun hset => absurd hset Bool.false_ne_true,
      Notifies.of_same rfl rfl⟩

private theorem freeRtPacketStorage_advances (s : Stream) : Advances 0 s (freeRtPacketStorage s) :=
  advances_of_same ((Effect.freePackets s).lending (by rintro (h | h) <;> cases h))
    rfl rfl rfl rfl rfl rfl rfl And.intro rfl

private theorem allocateRtPackets_advances (s : Stream) (packetCount packetSize : ℕ)
    (allocated : Bool) :
    Advances 0 s (allocateRtPackets s packetCount packetSize allocated).2 := by
  have hlending := (allocateRtPackets_does s packetCount packetSize allocated).lending
    (by decide) (by decide)
  unfold allocateRtPackets at hlending ⊢
  dsimp only at hlending ⊢
  split
  · exact Advances.refl s
  · rename_i hgood
    rw [if_neg hgood] at hlending
    split
    · exact freeRtPacketStorage_advances s
    · rename_i hallocated
      rw [if_neg hallocated] at hlending
      exact advances_of_same hlending rfl rfl rfl rfl rfl rfl rfl And.intro rfl

private theorem callback_render (f : Stream → Stream) :
    (w.callback false f).streams true = w.streams true := by
  unfold World.callback
  split
  · exact on_other w f (by decide)
  · rfl

private theorem callback_goesOn {f : Stream → Stream} {n : ℕ} (hs : Continues k (w.streams true))
    (hf : (w.streams true).present = true → Continues (k + n) (f (w.streams true)) ∧
      ((w.streams true).prepared = true → Notifies (w.streams true) (f (w.streams true)))) :
    GoesOn w (w.callback true f) k n := by
  unfold World.callback
  split
  · rename_i hpresent
    obtain ⟨hnext, hnotifies⟩ := hf hpresent
    refine ⟨?_, fun _ hprepared => ?_⟩
    · rw [on_self]
      exact hnext
    · rw [on_self]
      exact hnotifies hprepared
  · exact ⟨hs.mono (Nat.le_add_right _ _), fun _ _ => Notifies.refl _⟩

private theorem create_goesOn (hs : Continues k (w.streams true)) (capture : Bool) :
    GoesOn w (w.step (.create capture)) k 0 := by
  cases capture with
  | false =>
      apply goesOn_of_same _ hs
      dsimp only [World.step]
      split
      · rfl
      · exact on_other w _ (by decide)
  | true =>
      dsimp only [World.step]
      split
      · exact ⟨hs, fun _ _ => Notifies.refl _⟩
      · rename_i habsent
        refine ⟨?_, fun hpresent => absurd hpresent habsent⟩
        rw [on_self]
        exact create_continues hs (Bool.not_eq_true _ ▸ habsent)

private theorem pause_goesOn (h : AllLent w) (capture : Bool) (i : StopInput)
    (hin : ∀ c ∈ (Input.pause capture i).recorded, c.InOrder)
    (hk : k + (Input.pause capture i).recorded.length < 2 ^ 64)
    (hs : Continues k (w.streams true)) :
    GoesOn w (w.step (.pause capture i)) k (Input.pause capture i).recorded.length := by
  dsimp only [World.step]
  split
  · unfold evtStreamPause
    cases capture with
    | false =>
        have hdrain := drainStreamQueue_advances (h true).toLending hs.capture
        apply Advances.goesOn _ hk hs
        rw [drainQueues_streams, on_other _ _ (by decide)]
        exact hdrain
    | true =>
        apply Advances.goesOn _ hk hs
        rw [drainQueues_streams, on_self]
        exact stopped_advances false i (h true).toLending hs.capture hin
  · exact ⟨hs.mono (Nat.le_add_right _ _), fun _ _ => Notifies.refl _⟩

private theorem releaseHardware_goesOn (h : AllLent w) (capture : Bool) (i : StopInput)
    (hsettled : Settled w (.releaseHardware capture i))
    (hin : ∀ c ∈ (Input.releaseHardware capture i).recorded, c.InOrder)
    (hk : k + (Input.releaseHardware capture i).recorded.length < 2 ^ 64)
    (hs : Continues k (w.streams true)) :
    GoesOn w (w.step (.releaseHardware capture i)) k
      (Input.releaseHardware capture i).recorded.length := by
  have hafter := h.step (.releaseHardware capture i) hsettled true
  cases capture with
  | false =>
      dsimp only [World.step]
      split
      · unfold evtStreamReleaseHardware
        have hdrain := drainStreamQueue_advances (h true).toLending hs.capture
        apply Advances.goesOn _ hk hs
        rw [on_other _ _ (by decide), drainQueues_streams, on_other _ _ (by decide)]
        exact hdrain
      · exact ⟨hs, fun _ _ => Notifies.refl _⟩
  | true =>
      by_cases hpresent : (w.streams true).present = true
      · rw [release_step true i hpresent] at hafter
        have hunprepared := released_unprepared (h true).wired hpresent i
        have hstopped := stopped_advances true i (h true).toLending hs.capture hin
        apply Advances.goesOn _ hk hs
        rw [release_step true i hpresent]
        exact hstopped.trans (n := 0) fun k _ ht => ht.freePeriods hafter.toLending hunprepared
      · rw [(absent_step hpresent).2 i]
        exact ⟨hs.mono (Nat.le_add_right _ _), fun _ _ => Notifies.refl _⟩

private theorem step_goesOn (h : AllLent w) (i : Input) (hsettled : Settled w i)
    (hin : ∀ c ∈ i.recorded, c.InOrder) (hk : k + i.recorded.length < 2 ^ 64)
    (hs : Continues k (w.streams true)) : GoesOn w (w.step i) k i.recorded.length := by
  have hafter := h.step i hsettled true
  cases i with
  | create capture => exact create_goesOn hs capture
  | cleanup capture =>
      cases capture with
      | false => exact goesOn_of_same (callback_render _) hs
      | true =>
          apply callback_goesOn hs
          intro hpresent
          rw [cleanup_step true hpresent] at hafter
          obtain ⟨hnext, hnotifies⟩ :=
            evtStreamCleanup_advances hafter.toLending k (by omega) hs
          exact ⟨hnext, fun _ => hnotifies⟩
  | allocateRtPackets capture packetCount packetSize allocated =>
      cases capture with
      | false => exact goesOn_of_same (callback_render _) hs
      | true =>
          apply callback_goesOn hs
          intro _
          obtain ⟨hnext, hnotifies⟩ :=
            allocateRtPackets_advances (w.streams true) packetCount packetSize allocated k
              (by omega) hs
          exact ⟨hnext, fun _ => hnotifies⟩
  | freeRtPackets capture =>
      cases capture with
      | false => exact goesOn_of_same (callback_render _) hs
      | true =>
          apply callback_goesOn hs
          intro _
          obtain ⟨hnext, hnotifies⟩ := freeRtPacketStorage_advances (w.streams true) k (by omega) hs
          exact ⟨hnext, fun _ => hnotifies⟩
  | prepareHardware capture i =>
      cases capture with
      | false => exact goesOn_of_same (callback_render _) hs
      | true =>
          apply callback_goesOn hs
          intro hpresent
          exact evtStreamPrepareHardware_continues hs (h true) hpresent i
  | run capture i =>
      cases capture with
      | false => exact goesOn_of_same (callback_render _) hs
      | true =>
          apply callback_goesOn hs
          intro hpresent
          exact evtStreamRun_continues hs (h true) hpresent i hin hk
  | pause capture i => exact pause_goesOn h capture i hin hk hs
  | releaseHardware capture i => exact releaseHardware_goesOn h capture i hsettled hin hk hs
  | setRenderPacket packet => exact goesOn_of_same (callback_render _) hs
  | complete capture c =>
      cases capture with
      | false => exact goesOn_of_same (on_other w (fun s => s.complete c) (by decide)) hs
      | true =>
          apply Advances.goesOn _ hk hs
          dsimp only [World.step]
          rw [on_self]
          exact completeAll_advances [c] hin (w.streams true)
  | interrupt =>
      apply Advances.goesOn _ hk hs
      exact drainStreamQueue_advances (h true).toLending hs.capture

end

theorem Continues.fresh (hasQueue : Bool) (queueSize : ℕ) :
    Continues 0 (Stream.fresh true hasQueue queueSize) :=
  ⟨(Lent.fresh true hasQueue queueSize).toLending, rfl, rfl, by simp [Stream.order, Stream.fresh,
    BoundedQueue.new], Nat.zero_le 0, fun hset => absurd hset Bool.false_ne_true⟩

def recordedIn (inputs : List Input) : List Completion := inputs.flatMap Input.recorded

private theorem run_continues {w : World} {k : ℕ} (inputs : List Input) (h : AllLent w)
    (hsettled : Guarded World.step Settled w inputs)
    (hin : ∀ c ∈ recordedIn inputs, c.InOrder) (hk : k + (recordedIn inputs).length < 2 ^ 64)
    (hs : Continues k (w.streams true)) :
    AllLent (run World.step w inputs) ∧
      Continues (k + (recordedIn inputs).length) ((run World.step w inputs).streams true) := by
  induction inputs generalizing w k with
  | nil => exact ⟨h, hs⟩
  | cons i inputs ih =>
      have hlength : (recordedIn (i :: inputs)).length =
          i.recorded.length + (recordedIn inputs).length := by
        simp [recordedIn]
      rw [hlength] at hk ⊢
      obtain ⟨hfirst, -⟩ := step_goesOn h i hsettled.1
        (fun c hc => hin c (List.mem_append_left _ hc)) (by omega) hs
      have hrest := ih (h.step i hsettled.1) hsettled.2
        (fun c hc => hin c (List.mem_append_right _ hc)) (by omega) hfirst
      rw [← Nat.add_assoc]
      exact hrest

/-- Three periods run, and two of them come back. -/
def twoRecorded : List Input :=
  [.create true, .allocateRtPackets true 3 1000 true,
    .run true ⟨⟨.all, .success, .success⟩, .success, []⟩, .complete true ⟨0, ⟨sndStatusOk, 0⟩⟩,
    .complete true ⟨0, ⟨sndStatusOk, 0⟩⟩, .interrupt]

/-- A pause during which the third comes back. -/
def pauseRecords : Input := .pause true ⟨.success, .success, [⟨0, ⟨sndStatusOk, 0⟩⟩], [], []⟩

end Viosnd.Circuit
