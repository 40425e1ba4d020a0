import Viosnd.Circuit.Callbacks

/-!
# Bounds of the packet buffers

The first packet of a stream ends with its page, the others start with theirs. A period is as long
as the packets were when it was made, so a copy fits as long as no packets are shorter than the
periods.
-/

namespace Viosnd.Circuit

open StepRun EffectSystem

open Acx (Ready)

def Copy.InBounds (c : Copy) : Prop := c.offset + c.bytes ≤ c.allocBytes

instance (c : Copy) : Decidable c.InBounds := inferInstanceAs (Decidable (_ ≤ _))

/-- Every copy that was made stayed inside the buffer of its packet. -/
def CopiesInBounds (w : World) : Prop := ∀ c, ∀ copy ∈ (w.streams c).log.copies, copy.InBounds

/-- New packets are not shorter than the periods of the stream. -/
def PacketsCoverPeriods (w : World) : Input → Prop
  | .allocateRtPackets c packetCount packetSize allocated =>
      (w.streams c).present = true → packetCount ≠ 0 → packetSize ≠ 0 → allocated = true →
        (w.streams c).periodBytes ≤ packetSize
  | _ => True

/-- What the sizes of a stream are in every run. -/
structure Sized (s : Stream) : Prop where
  packet : s.packetSize ≤ pageSize
  period : s.periodBytes ≤ pageSize
  nonempty : s.packetBuffers = true → s.packetSize ≠ 0
  alloc : s.packetBuffers = true → s.packetAllocBytes = pageSize
  first : s.packetBuffers = true → s.firstPacketOffset = pageSize - s.packetSize

/-- The packets cover the periods, and did so at every copy. -/
structure Covered (s : Stream) : Prop where
  periods : s.packetBuffers = true → s.periodBytes ≤ s.packetSize
  copies : ∀ copy ∈ s.log.copies, copy.InBounds

structure SameSizes (s s' : Stream) : Prop where
  packetBuffers : s'.packetBuffers = s.packetBuffers
  packetSize : s'.packetSize = s.packetSize
  packetAllocBytes : s'.packetAllocBytes = s.packetAllocBytes
  firstPacketOffset : s'.firstPacketOffset = s.firstPacketOffset
  periodBytes : s'.periodBytes = s.periodBytes
  copies : s'.log.copies = s.log.copies

variable {s s' s'' : Stream}

theorem SameSizes.trans (first : SameSizes s s') (second : SameSizes s' s'') : SameSizes s s'' :=
  ⟨second.packetBuffers.trans first.packetBuffers, second.packetSize.trans first.packetSize,
    second.packetAllocBytes.trans first.packetAllocBytes,
    second.firstPacketOffset.trans first.firstPacketOffset,
    second.periodBytes.trans first.periodBytes, second.copies.trans first.copies⟩

theorem Sized.same (h : Sized s) (hs : SameSizes s s') : Sized s' := by
  obtain ⟨hbuffers, hsize, halloc, hoffset, hperiod, -⟩ := hs
  refine ⟨?_, ?_, ?_, ?_, ?_⟩
  · rw [hsize]
    exact h.packet
  · rw [hperiod]
    exact h.period
  · rw [hbuffers, hsize]
    exact h.nonempty
  · rw [hbuffers, halloc]
    exact h.alloc
  · rw [hbuffers, hoffset, hsize]
    exact h.first

private theorem sent_sameSizes (s : Stream) (i : ℕ) (queue : BoundedQueue Chain Answer) :
    SameSizes s (s.sent i queue) :=
  ⟨rfl, rfl, rfl, rfl, rfl, rfl⟩

theorem Sized.fillRender (h : Sized s) (index i : ℕ) (packet : Ready) :
    Sized (s.fillRender index i packet) :=
  ⟨h.packet, h.period, h.nonempty, h.alloc, h.first⟩

theorem Covered.same (h : Covered s) (hs : SameSizes s s') : Covered s' := by
  obtain ⟨hbuffers, hsize, -, -, hperiod, hcopies⟩ := hs
  refine ⟨?_, ?_⟩
  · rw [hbuffers, hperiod, hsize]
    exact h.periods
  · rw [hcopies]
    exact h.copies

/-! ## Copies -/

private theorem getPacketVa_buffers {packet : ULONG} {index : ℕ}
    (h : getPacketVa s packet = some index) :
    s.packetBuffers = true := by
  unfold getPacketVa at h
  split at h
  · cases h
  · rename_i hready
    simp only [not_or, Bool.not_eq_false] at hready
    exact hready.1

/-- A copy fits exactly when it is not to the first packet, or the packet is as long as a period. -/
private theorem Sized.copy_inBounds_iff (h : Sized s) {packet : ULONG} {index : ℕ}
    (hindex : getPacketVa s packet = some index) :
    s.rtPacketOffset index + s.periodBytes ≤ s.packetAllocBytes ↔
      index ≠ 0 ∨ s.periodBytes ≤ s.packetSize := by
  have hbuffers := getPacketVa_buffers hindex
  have hpacket := h.packet
  have hperiod := h.period
  rw [h.alloc hbuffers]
  unfold Stream.rtPacketOffset
  split
  · rename_i hzero
    rw [h.first hbuffers]
    simp only [hzero, ne_eq, not_true_eq_false, false_or]
    omega
  · rename_i hzero
    simp only [Nat.zero_add, hperiod, true_iff]
    exact Or.inl hzero

theorem Covered.copy (h : Covered s) (hsized : Sized s) {packet : ULONG} {index : ℕ}
    (hindex : getPacketVa s packet = some index) : Covered (s.copy index) := by
  refine ⟨h.periods, fun copy hcopy => ?_⟩
  rcases List.mem_append.mp hcopy with hold | hnew
  · exact h.copies copy hold
  · rw [List.mem_singleton.mp hnew]
    have hcovers := h.periods (getPacketVa_buffers hindex)
    exact (hsized.copy_inBounds_iff hindex).mpr (Or.inr hcovers)

theorem Sized.copy (h : Sized s) (index : ℕ) : Sized (s.copy index) :=
  ⟨h.packet, h.period, h.nonempty, h.alloc, h.first⟩

theorem Sized.copyCapture (h : Sized s) (packetNumber : ULONGLONG) :
    Sized (copyCapture s packetNumber) := by
  unfold Circuit.copyCapture
  split
  · exact h
  · exact h.copy _

theorem Covered.copyCapture (h : Covered s) (hsized : Sized s) (packetNumber : ULONGLONG) :
    Covered (copyCapture s packetNumber) := by
  unfold Circuit.copyCapture
  cases hindex : getPacketVa s (packetNumber.setWidth 32) with
  | none => exact h
  | some index => exact h.copy hsized hindex

/-! ## Routines -/

private theorem popRenderPacket_same (s : Stream) : SameSizes s (popRenderPacket s) := by
  unfold popRenderPacket
  split
  · exact ⟨rfl, rfl, rfl, rfl, rfl, rfl⟩
  · exact ⟨rfl, rfl, rfl, rfl, rfl, rfl⟩

private theorem queueRenderPacket_same (s : Stream) (packet : ULONG) :
    SameSizes s (queueRenderPacket s packet) := by
  unfold queueRenderPacket
  split
  · exact ⟨rfl, rfl, rfl, rfl, rfl, rfl⟩
  · exact ⟨rfl, rfl, rfl, rfl, rfl, rfl⟩

private theorem clearRenderQueue_same (s : Stream) : SameSizes s (clearRenderQueue s) := by
  unfold clearRenderQueue
  split
  · exact ⟨rfl, rfl, rfl, rfl, rfl, rfl⟩
  · exact ⟨rfl, rfl, rfl, rfl, rfl, rfl⟩

theorem Sized.freeRtPackets (h : Sized s) : Sized (freeRtPacketStorage s) :=
  ⟨Nat.zero_le _, h.period, by rintro ⟨⟩, by rintro ⟨⟩, by rintro ⟨⟩⟩

theorem Covered.freeRtPackets (h : Covered s) : Covered (freeRtPacketStorage s) :=
  ⟨by rintro ⟨⟩, h.copies⟩

theorem Sized.allocateRtPackets (h : Sized s) {packetCount packetSize : ℕ}
    (hcount : packetCount ≠ 0) (hsize : packetSize ≠ 0) (hpage : packetSize ≤ pageSize) :
    Sized (allocateRtPackets s packetCount packetSize true).2 := by
  rw [allocateRtPackets_eq s hcount hsize hpage]
  exact ⟨hpage, h.period, fun _ => hsize, fun _ => rfl, fun _ => rfl⟩

private theorem freeStreamPeriods_sized (h : Sized s) : Sized (freeStreamPeriods s) := by
  unfold freeStreamPeriods
  split
  · exact h
  · exact ⟨h.packet, Nat.zero_le _, h.nonempty, h.alloc, h.first⟩

private theorem freeStreamPeriods_covered (h : Covered s) : Covered (freeStreamPeriods s) := by
  unfold freeStreamPeriods
  split
  · exact h
  · exact ⟨fun _ => Nat.zero_le _, h.copies⟩

theorem Effect.sized {k : Kind} (heffect : Effect k s s') (h : Sized s) : Sized s' := by
  cases heffect with
  | accept _ packet _ => exact h.same (queueRenderPacket_same s packet)
  | clear => exact h.same (clearRenderQueue_same s)
  | submitRender _ packet index i queue =>
      have hsent := (h.fillRender index i packet).same (sent_sameSizes _ i queue)
      exact hsent.same (popRenderPacket_same _)
  | fail _ packet _ =>
      have hfail : Sized (s.fail packet) := ⟨h.packet, h.period, h.nonempty, h.alloc, h.first⟩
      exact hfail.same (popRenderPacket_same _)
  | takeCapture _ chain answer queue _ _ =>
      have htaken : Sized ({ s with
          queue := queue }.release chain.period) :=
        ⟨h.packet, h.period, h.nonempty, h.alloc, h.first⟩
      have hcopied := htaken.copyCapture (s.period chain.period).packetNumber
      exact ⟨hcopied.packet, hcopied.period, hcopied.nonempty, hcopied.alloc, hcopied.first⟩
  | staleCapture _ chain answer queue _ _ =>
      have htaken : Sized { s with
          queue := queue }.stale :=
        ⟨h.packet, h.period, h.nonempty, h.alloc, h.first⟩
      exact htaken.copyCapture chain.packetNumber
  | newPeriods _ periodBytes _ _ hbytes =>
      refine ⟨h.packet, ?_, h.nonempty, h.alloc, h.first⟩
      rcases hbytes with rfl | ⟨-, rfl⟩
      · exact h.packet
      · exact (by decide : 2048 ≤ pageSize)
  | freePeriods => exact freeStreamPeriods_sized h
  | allocatePackets _ packetCount packetSize hcount hsize hpage =>
      exact h.allocateRtPackets hcount hsize hpage
  | freePackets => exact h.freeRtPackets
  | create => exact ⟨Nat.zero_le _, Nat.zero_le _, by rintro ⟨⟩, by rintro ⟨⟩, by rintro ⟨⟩⟩
  | cleanup =>
      have hfree := freeStreamPeriods_sized h
      exact ⟨hfree.packet, hfree.period, hfree.nonempty, hfree.alloc, hfree.first⟩
  | _ => exact ⟨h.packet, h.period, h.nonempty, h.alloc, h.first⟩

/-- Every change but an allocation keeps the periods covered. -/
theorem Effect.covered {k : Kind} (heffect : Effect k s s') (hk : k ≠ .allocatePackets)
    (hsized : Sized s) (h : Covered s) : Covered s' := by
  cases heffect with
  | accept _ packet _ => exact h.same (queueRenderPacket_same s packet)
  | clear => exact h.same (clearRenderQueue_same s)
  | submitRender _ packet index i queue _ _ _ _ _ hindex =>
      have hcopied := h.copy hsized hindex
      have hfilled : Covered (s.fillRender index i packet) := ⟨hcopied.periods, hcopied.copies⟩
      exact (hfilled.same (sent_sameSizes _ i queue)).same (popRenderPacket_same _)
  | fillRender _ packet index i hindex _ =>
      have hcopied := h.copy hsized hindex
      exact ⟨hcopied.periods, hcopied.copies⟩
  | fail _ packet _ =>
      have hfail : Covered (s.fail packet) := ⟨h.periods, h.copies⟩
      exact hfail.same (popRenderPacket_same _)
  | takeCapture _ chain answer queue _ _ =>
      have htaken : Covered ({ s with
          queue := queue }.release chain.period) := ⟨h.periods, h.copies⟩
      have hsized' : Sized ({ s with
          queue := queue }.release chain.period) :=
        ⟨hsized.packet, hsized.period, hsized.nonempty, hsized.alloc, hsized.first⟩
      have hcopied := htaken.copyCapture hsized' (s.period chain.period).packetNumber
      exact ⟨hcopied.periods, hcopied.copies⟩
  | staleCapture _ chain answer queue _ _ =>
      have htaken : Covered { s with
          queue := queue }.stale := ⟨h.periods, h.copies⟩
      have hsized' : Sized { s with
          queue := queue }.stale :=
        ⟨hsized.packet, hsized.period, hsized.nonempty, hsized.alloc, hsized.first⟩
      exact htaken.copyCapture hsized' chain.packetNumber
  | newPeriods _ periodBytes _ _ hbytes =>
      refine ⟨fun hbuffers => ?_, h.copies⟩
      rcases hbytes with rfl | ⟨hzero, -⟩
      · exact le_refl _
      · exact absurd hzero (hsized.nonempty hbuffers)
  | freePeriods => exact freeStreamPeriods_covered h
  | allocatePackets => exact absurd rfl hk
  | freePackets => exact h.freeRtPackets
  | create => exact ⟨by rintro ⟨⟩, h.copies⟩
  | cleanup =>
      have hfree := freeStreamPeriods_covered h
      exact ⟨hfree.periods, hfree.copies⟩
  | _ => exact ⟨h.periods, h.copies⟩

theorem Does.sized {K : Finset Kind} (h : Does K s s') (hs : Sized s) : Sized s' :=
  h.invariant (fun _ _ _ _ heffect => heffect.sized) hs

theorem Does.covered {K : Finset Kind} (h : Does K s s') (hK : .allocatePackets ∉ K)
    (hs : Sized s ∧ Covered s) : Sized s' ∧ Covered s' := by
  have hstep : ∀ k ∈ K, ∀ a b, Effect k a b → Sized a ∧ Covered a → Sized b ∧ Covered b := by
    rintro k hk a b heffect ⟨ha, hcovered⟩
    exact ⟨heffect.sized ha, heffect.covered (fun heq => hK (heq ▸ hk)) ha hcovered⟩
  exact h.invariant hstep hs

/-! ## Runs -/

private theorem allocateRtPackets_covered (packetCount packetSize : ℕ) (allocated : Bool)
    (hcovers : packetCount ≠ 0 → packetSize ≠ 0 → allocated = true → s.periodBytes ≤ packetSize)
    (h : Covered s) : Covered (allocateRtPackets s packetCount packetSize allocated).2 := by
  by_cases hbad : packetCount = 0 ∨ packetSize = 0 ∨ pageSize < packetSize
  · unfold allocateRtPackets
    rw [if_pos hbad]
    exact h
  · cases allocated with
    | false =>
        unfold allocateRtPackets
        rw [if_neg hbad]
        exact h.freeRtPackets
    | true =>
        simp only [not_or, not_lt] at hbad
        rw [allocateRtPackets_eq s hbad.1 hbad.2.1 hbad.2.2]
        exact ⟨fun _ => hcovers hbad.1 hbad.2.1 rfl, h.copies⟩

/-- The invariant of the runs whose packets cover the periods. -/
def AllCovered (w : World) : Prop :=
  AllWired w ∧ ∀ c, Sized (w.streams c) ∧ Covered (w.streams c)

theorem AllCovered.step {w : World} (h : AllCovered w) (i : Input)
    (hcovers : PacketsCoverPeriods w i) : AllCovered (w.step i) := by
  refine ⟨h.1.step i, fun c => ?_⟩
  have hdoes := step_does h.1 i c
  by_cases hallocates : ∃ capture n size allocated, i = .allocateRtPackets capture n size allocated
  · obtain ⟨capture, packetCount, packetSize, allocated, rfl⟩ := hallocates
    refine ⟨hdoes.sized (h.2 c).1, ?_⟩
    dsimp only [World.step]
    unfold World.callback
    split
    · rename_i hpresent
      by_cases hc : c = capture
      · subst hc
        rw [on_self]
        exact allocateRtPackets_covered packetCount packetSize allocated (hcovers hpresent)
          (h.2 c).2
      · rw [on_other w _ hc]
        exact (h.2 c).2
    · exact (h.2 c).2
  · refine hdoes.covered ?_ (h.2 c)
    cases i with
    | allocateRtPackets capture n size allocated =>
        exact absurd ⟨capture, n, size, allocated, rfl⟩ hallocates
    | prepareHardware | run | complete | interrupt =>
        exact (by decide : Kind.allocatePackets ∉ background)
    | _ =>
        dsimp only [Input.kinds]
        split_ifs <;> decide

private theorem sized_run (hasQueue : Bool → Bool) (queueSize : Bool → ℕ) (inputs : List Input)
    (c : Bool) :
    Sized ((run World.step (World.fresh hasQueue queueSize) inputs).streams c) := by
  have hfresh : ∀ d, Sized ((World.fresh hasQueue queueSize).streams d) := fun d =>
    ⟨Nat.zero_le _, Nat.zero_le _, by rintro ⟨⟩, by rintro ⟨⟩, by rintro ⟨⟩⟩
  have hrun := run_invariant (P := fun w => AllWired w ∧ ∀ d, Sized (w.streams d))
    (fun w i h => ⟨h.1.step i, fun d => (step_does h.1 i d).sized (h.2 d)⟩) inputs
    ⟨allWired_run hasQueue queueSize [], hfresh⟩
  exact hrun.2 c

/-- As long as new packets cover the periods, every copy stays inside its buffer. In any run, a copy
leaves it exactly when it is to the first packet and that is shorter than the periods. -/
theorem run_copiesInBounds (hasQueue : Bool → Bool) (queueSize : Bool → ℕ) (inputs : List Input) :
    (Guarded World.step PacketsCoverPeriods (World.fresh hasQueue queueSize) inputs →
      CopiesInBounds (run World.step (World.fresh hasQueue queueSize) inputs)) ∧
    ∀ s ∈ Set.range (run World.step (World.fresh hasQueue queueSize) inputs).streams,
      ∀ packet index, getPacketVa s packet = some index →
        (s.rtPacketOffset index + s.periodBytes ≤ s.packetAllocBytes ↔
          index ≠ 0 ∨ s.periodBytes ≤ s.packetSize) := by
  constructor
  · intro hguarded
    have hfresh : AllCovered (World.fresh hasQueue queueSize) :=
      ⟨allWired_run hasQueue queueSize [], fun c => ⟨sized_run hasQueue queueSize [] c,
        by rintro ⟨⟩, by rintro _ ⟨⟩⟩⟩
    have hrun := hguarded.invariant (fun _ i h => h.step i) hfresh
    exact fun c => (hrun.2 c).2.copies
  · rintro s ⟨c, rfl⟩ packet index hindex
    exact (sized_run hasQueue queueSize inputs c).copy_inBounds_iff hindex

/-- A render stream with packets of `before` bytes is prepared, gets packets of `after` bytes, and
runs. -/
def reallocated (before after : ℕ) : List Input :=
  [.create false, .allocateRtPackets false 1 before true,
    .prepareHardware false ⟨.all, .success, .success⟩, .allocateRtPackets false 2 after true,
    .run false ⟨⟨.all, .success, .success⟩, .success, []⟩, .setRenderPacket 0]

theorem run_copiesInBounds_longer :
    Guarded World.step PacketsCoverPeriods (World.fresh (fun _ => true) (fun _ => 8))
      (reallocated 1000 2000) ∧
    CopiesInBounds (run World.step (World.fresh (fun _ => true) (fun _ => 8))
      (reallocated 1000 2000)) := by
  have hguarded : Guarded World.step PacketsCoverPeriods
      (World.fresh (fun _ => true) (fun _ => 8)) (reallocated 1000 2000) :=
    ⟨trivial, fun _ _ _ _ => by decide, trivial, fun _ _ _ _ => by decide, trivial, trivial,
      trivial⟩
  exact ⟨hguarded, (run_copiesInBounds (fun _ => true) (fun _ => 8) (reallocated 1000 2000)).1
    hguarded⟩

/-- A period of 2000 bytes at the offset of a packet of 1000. -/
theorem run_copiesInBounds_shorter :
    ¬ CopiesInBounds (run World.step (World.fresh (fun _ => true) (fun _ => 8))
      (reallocated 2000 1000)) := by
  intro h
  have hcopy : (⟨3096, 2000, 4096⟩ : Copy) ∈
      ((run World.step (World.fresh (fun _ => true) (fun _ => 8))
        (reallocated 2000 1000)).streams false).log.copies := by decide
  exact absurd (h false _ hcopy) (by decide)

end Viosnd.Circuit
