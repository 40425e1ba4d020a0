import Viosnd.Capture.Integrity

/-!
# The position of a capture stream

`m_Position` grows with every packet completed with success and `m_PacketNumber` follows the
numbers of the packets, so a failed packet in between sets them apart. A start resets both, also
after a pause.
-/

namespace Viosnd.Capture

open StepRun EffectSystem

structure Tracked (w : World) : Prop where
  settled : (books w.history).returned =
    (books w.history).stored.length + (books w.history).failed.length
  position : w.position.toNat = w.packetSize.toNat * (books w.history).stored.length
  sized : (books w.history).submitted ≠ [] → w.packetSize ≠ 0
  written : (books w.history).stored = [] → w.packetNumber.toNat = 0
  failedBelow : ∀ packet ∈ (books w.history).failed, packet.toNat < (books w.history).returned

/-- Every packet completed with success has a smaller number than every packet completed with an
error. -/
def FailuresLast (history : List Event) : Prop :=
  ∀ packet ∈ (books history).failed, ∀ s ∈ (books history).stored, s.1 < packet

instance failuresLast_decidable (history : List Event) : Decidable (FailuresLast history) :=
  inferInstanceAs (Decidable
    (∀ packet ∈ (books history).failed, ∀ s ∈ (books history).stored, s.1 < packet))

/-- The packet number runs ahead of the packets stored exactly when one was skipped. -/
structure Skipping (w : World) : Prop where
  gapless : FailuresLast w.history → w.packetNumber.toNat = (books w.history).stored.length
  gap : ¬ FailuresLast w.history → (books w.history).stored.length < w.packetNumber.toNat

section

variable {w w' : World}

theorem Tracked.congr (h : Tracked w) (hsame : SameBooks w w') : Tracked w' := by
  obtain ⟨h1, h2, h3, h4, h5⟩ := h
  constructor
  · rwa [hsame.books]
  · rwa [hsame.books, hsame.position, hsame.packetSize]
  · rwa [hsame.books, hsame.packetSize]
  · rwa [hsame.books, hsame.packetNumber]
  · rwa [hsame.books]

theorem Skipping.congr (h : Skipping w) (hsame : SameBooks w w') : Skipping w' := by
  obtain ⟨h1, h2⟩ := h
  unfold FailuresLast at h1 h2
  constructor
  · unfold FailuresLast
    rwa [hsame.books, hsame.packetNumber]
  · unfold FailuresLast
    rwa [hsame.books, hsame.packetNumber]

theorem beginCapture_tracked (w : World) : Tracked (beginCapture w) := by
  constructor
  · rfl
  · exact (Nat.mul_zero _).symm
  · intro h
    exact absurd rfl h
  · intro _
    rfl
  · intro packet hpacket
    cases hpacket

theorem Tracked.fail (h : Tracked w) (haccounted : Accounted w) (k : Nat) {entry : RxEntry}
    (hentry : (books w.history).submitted[(books w.history).returned]? = some entry) :
    Tracked (failCapture k entry w) := by
  have hnumber := haccounted.number hentry
  have hsettled := h.settled
  refine ⟨?_, h.position, h.sized, h.written, ?_⟩
  · change (books w.history).returned + 1 =
      (books w.history).stored.length + ((books w.history).failed.length + 1)
    omega
  · intro packet hpacket
    change packet.toNat < (books w.history).returned + 1
    rcases List.mem_cons.mp hpacket with rfl | hpacket
    · omega
    · have hold := h.failedBelow packet hpacket
      omega

theorem Skipping.fail (h : Skipping w) (haccounted : Accounted w) (k : Nat) {entry : RxEntry}
    (hentry : (books w.history).submitted[(books w.history).returned]? = some entry) :
    Skipping (failCapture k entry w) := by
  have hnumber := haccounted.number hentry
  have hcompleted := haccounted.completed
  have hiff : FailuresLast (failCapture k entry w).history ↔ FailuresLast w.history := by
    constructor
    · intro hlast packet hpacket
      exact hlast packet (List.mem_cons_of_mem _ hpacket)
    · intro hlast packet hpacket s hs
      rcases List.mem_cons.mp hpacket with rfl | hpacket
      · have hstored : s.1.toNat < w.packetNumber.toNat := haccounted.stored s hs
        rw [BitVec.lt_def]
        omega
      · exact hlast packet hpacket s hs
  constructor
  · intro hlast
    exact h.gapless (hiff.mp hlast)
  · intro hskip
    exact h.gap fun hlast => hskip (hiff.mpr hlast)

private theorem position_fits (size : ULONG) {n : Nat} (hn : n < 2 ^ 32) :
    size.toNat * n < 2 ^ 64 := by
  have hsize := size.isLt
  have hlt : size.toNat * n < 2 ^ 32 * 2 ^ 32 := Nat.mul_lt_mul'' hsize hn
  exact hlt

theorem Tracked.complete (h : Tracked w) (k : Nat) (entry : RxEntry) (bytesRead : ULONG)
    (audio : Memory)
    (hentry : (books w.history).submitted[(books w.history).returned]? = some entry)
    (hfew : FewPackets w.history) :
    Tracked (completeCapture entry bytesRead audio (takeRx k entry w)) := by
  obtain ⟨hlt, -⟩ := List.getElem?_eq_some_iff.mp hentry
  obtain ⟨hstored, hfailed, hreturned⟩ :=
    completeCapture_books entry bytesRead audio (takeRx k entry w)
  have hback : (books (takeRx k entry w).history).returned = (books w.history).returned + 1 := rfl
  have hsame : (books (takeRx k entry w).history).stored = (books w.history).stored ∧
      (books (takeRx k entry w).history).failed = (books w.history).failed := ⟨rfl, rfl⟩
  rw [hsame.1] at hstored
  rw [hsame.2] at hfailed
  rw [hback] at hreturned
  have hsettled := h.settled
  unfold FewPackets at hfew
  constructor
  · rw [hstored, hfailed, hreturned, List.length_cons]
    omega
  · have hgrown : w.packetSize.toNat * ((books w.history).stored.length + 1) < 2 ^ 64 :=
      position_fits w.packetSize (by omega)
    have hold := h.position
    rw [Nat.mul_succ] at hgrown
    rw [hstored, completeCapture_eq, List.length_cons, Nat.mul_succ]
    dsimp only [takeRx]
    have hwide : (w.packetSize.setWidth 64).toNat = w.packetSize.toNat :=
      BitVec.toNat_setWidth_of_le (by decide)
    rw [BitVec.toNat_add_of_lt (by omega), hwide, hold]
  · intro hsubmitted
    rw [completeCapture_eq]
    apply h.sized
    intro hempty
    rw [hempty] at hlt
    exact absurd hlt (Nat.not_lt_zero _)
  · intro hempty
    rw [hstored] at hempty
    cases hempty
  · intro packet hpacket
    rw [hfailed] at hpacket
    have hold := h.failedBelow packet hpacket
    rw [hreturned]
    omega

/-- A packet completed with success after a failed one leaves a gap. -/
private theorem Tracked.skipping_complete (htracked : Tracked w) (haccounted : Accounted w)
    (k : Nat) (entry : RxEntry) (bytesRead : ULONG) (audio : Memory)
    (hentry : (books w.history).submitted[(books w.history).returned]? = some entry)
    (hfew : FewPackets w.history) :
    Skipping (completeCapture entry bytesRead audio (takeRx k entry w)) := by
  obtain ⟨hlt, -⟩ := List.getElem?_eq_some_iff.mp hentry
  have hnumber := haccounted.number hentry
  obtain ⟨hstored, hfailed, -⟩ :=
    completeCapture_books entry bytesRead audio (takeRx k entry w)
  have hsettled := htracked.settled
  have hone : (1 : ULONG).toNat = 1 := rfl
  unfold FewPackets at hfew
  have hpacket : (completeCapture entry bytesRead audio (takeRx k entry w)).packetNumber.toNat =
      (books w.history).returned + 1 := by
    rw [completeCapture_eq]
    dsimp only
    rw [BitVec.toNat_add_of_lt (by omega), hone, hnumber]
  -- The packet just completed comes after all that failed.
  have hiff : FailuresLast (completeCapture entry bytesRead audio (takeRx k entry w)).history ↔
      (books w.history).failed = [] := by
    unfold FailuresLast
    rw [hfailed, hstored]
    constructor
    · intro hlast
      apply List.eq_nil_iff_forall_not_mem.mpr
      intro packet hpacket
      have hbelow := htracked.failedBelow packet hpacket
      have habove : entry.packetNumber.toNat < packet.toNat :=
        hlast packet hpacket _ List.mem_cons_self
      omega
    · intro hempty packet hpacket
      have hmem : packet ∈ (books w.history).failed := hpacket
      rw [hempty] at hmem
      cases hmem
  have hlength :
      (books (completeCapture entry bytesRead audio (takeRx k entry w)).history).stored.length =
        (books w.history).stored.length + 1 := by
    rw [hstored]
    rfl
  constructor
  · intro hlast
    rw [hiff] at hlast
    rw [hlast, List.length_nil] at hsettled
    rw [hpacket, hlength]
    omega
  · intro hskip
    rw [hiff] at hskip
    have hpositive := List.length_pos_iff.mpr hskip
    rw [hpacket, hlength]
    omega

/-- While the buffers come back in order, the position follows the packets stored. -/
theorem Booking.tracked (hR : Booking w w') (h : Orderly w → Accounted w ∧ Tracked w) :
    Orderly w' → Tracked w' := by
  intro horderly
  cases hR with
  | nothing => exact (h horderly).2
  | read =>
      obtain ⟨h1, h2, h3, h4, h5⟩ := (h ((getReadPacket_orderly w).mp horderly)).2
      unfold getReadPacket
      split_ifs
      · exact ⟨h1, h2, h3, h4, h5⟩
      · exact ⟨h1, h2, h3, h4, h5⟩
      · exact ⟨h1, h2, h3, h4, h5⟩
  | submit entry _ hsize =>
      obtain ⟨h1, h2, h3, h4, h5⟩ := (h (lendCaptureIo_orderly entry w horderly)).2
      exact ⟨h1, h2, fun _ => hsize, h4, h5⟩
  | fail k entry =>
      obtain ⟨hentry, hw⟩ := (failCapture_orderly k entry w).mp horderly
      exact (h hw).2.fail (h hw).1 k hentry
  | complete k entry bytesRead audio =>
      obtain ⟨hentry, hw⟩ := (takeRx_orderly k entry w).mp
        ((completeCapture_orderly entry bytesRead audio _).mp horderly)
      exact (h hw).2.complete k entry bytesRead audio hentry hw.2

private theorem Booking.skipping (hR : Booking w w')
    (h : Orderly w → Accounted w ∧ Tracked w ∧ Skipping w) : Orderly w' → Skipping w' := by
  intro horderly
  cases hR with
  | nothing => exact (h horderly).2.2
  | read =>
      obtain ⟨h1, h2⟩ := (h ((getReadPacket_orderly w).mp horderly)).2.2
      unfold getReadPacket
      split_ifs
      · exact ⟨h1, h2⟩
      · exact ⟨h1, h2⟩
      · exact ⟨h1, h2⟩
  | submit entry =>
      obtain ⟨h1, h2⟩ := (h (lendCaptureIo_orderly entry w horderly)).2.2
      exact ⟨h1, h2⟩
  | fail k entry =>
      obtain ⟨hentry, hw⟩ := (failCapture_orderly k entry w).mp horderly
      exact (h hw).2.2.fail (h hw).1 k hentry
  | complete k entry bytesRead audio =>
      obtain ⟨hentry, hw⟩ := (takeRx_orderly k entry w).mp
        ((completeCapture_orderly entry bytesRead audio _).mp horderly)
      exact (h hw).2.1.skipping_complete (h hw).1 k entry bytesRead audio hentry hw.2

end

private theorem skipping_sessionInvariant :
    SessionInvariant fun w => Orderly w → Accounted w ∧ Tracked w ∧ Skipping w := by
  constructor
  · intro w _
    refine ⟨beginCapture_accounted w, beginCapture_tracked w, fun _ => rfl, ?_⟩
    intro hskip
    exact absurd (fun packet hpacket => by cases hpacket) hskip
  · intro w w' hsame h horderly
    obtain ⟨haccounted, htracked, hskipping⟩ := h (hsame.orderly.mp horderly)
    exact ⟨haccounted.congr hsame, htracked.congr hsame, hskipping.congr hsame⟩
  · intro w w' hR h horderly
    exact ⟨hR.accounted (fun ho => (h ho).1) horderly,
      hR.tracked (fun ho => ⟨(h ho).1, (h ho).2.1⟩) horderly, hR.skipping h horderly⟩

/-! ## Position and packet number -/

/-- The position is the start of the packet after the last one completed, and `GetPosition` reports
the start of its slot. -/
structure PositionAgrees (w : World) : Prop where
  position : w.position.toNat = w.packetSize.toNat * w.packetNumber.toNat
  play : (getPosition w).1.toNat = slotOffset w w.packetNumber
  write : (getPosition w).2.toNat = slotOffset w w.packetNumber

private theorem getPosition_of_position {w : World} (hsized : Sized w)
    (hposition : w.position.toNat = w.packetSize.toNat * w.packetNumber.toNat) :
    (getPosition w).1.toNat = slotOffset w w.packetNumber ∧
      (getPosition w).2 = (getPosition w).1 := by
  have hslots := hsized.slots
  unfold getPosition slotOffset
  split_ifs with hempty
  · rw [hsized.empty hempty]
    exact ⟨rfl, rfl⟩
  · have hwide : (w.bufferSize.setWidth 64).toNat = w.bufferSize.toNat :=
      BitVec.toNat_setWidth_of_le (by decide)
    refine ⟨?_, rfl⟩
    dsimp only
    rw [BitVec.toNat_umod, hwide, hposition, hslots, Nat.mul_comm w.packetSize.toNat,
      Nat.mul_mod_mul_right]

/-- In KSSTATE_RUN, with fewer than `2 ^ 32` packets, position and packet number agree exactly when
no packet was completed with success after one completed with an error. -/
theorem run_positionAgrees_iff (allocated : Option ULONG) (actions : List Action)
    (hstate : (run step (World.fresh allocated) actions).state = .run)
    (horder : ReturnedInOrder (run step (World.fresh allocated) actions).history)
    (hfew : FewPackets (run step (World.fresh allocated) actions).history) :
    PositionAgrees (run step (World.fresh allocated) actions) ↔
      FailuresLast (run step (World.fresh allocated) actions).history := by
  obtain ⟨haccounted, htracked, hskipping⟩ :=
    skipping_sessionInvariant.inRun allocated actions hstate ⟨horder, hfew⟩
  have hsized := run_sized allocated actions
  generalize run step (World.fresh allocated) actions = w at *
  constructor
  · intro hagrees
    by_contra hgap
    have hless := hskipping.gap hgap
    have hsize : 0 < w.packetSize.toNat := by
      apply Nat.pos_of_ne_zero
      intro hzero
      have hcompleted := haccounted.completed
      have hreturned := haccounted.returned
      refine htracked.sized ?_ (BitVec.eq_of_toNat_eq hzero)
      intro hempty
      rw [hempty, List.length_nil] at hreturned
      omega
    have hsame := hagrees.position
    rw [htracked.position] at hsame
    have heq := Nat.eq_of_mul_eq_mul_left hsize hsame
    omega
  · intro hlast
    have hposition : w.position.toNat = w.packetSize.toNat * w.packetNumber.toNat := by
      rw [hskipping.gapless hlast, htracked.position]
    obtain ⟨hplay, hwrite⟩ := getPosition_of_position hsized hposition
    exact ⟨hposition, hplay, by rw [hwrite, hplay]⟩

theorem run_positionAgrees_iff_two :
    PositionAgrees (run step (World.fresh (some 4096)) twoPackets) ↔
      FailuresLast (run step (World.fresh (some 4096)) twoPackets).history :=
  run_positionAgrees_iff (some 4096) twoPackets (by decide +kernel) (by decide +kernel)
    (by decide +kernel)

/-- Packet 0 fails and packet 1 is completed: the position stays one packet behind for good. -/
theorem run_not_positionAgrees :
    let w := run step (World.fresh (some 4096))
      [.setState .run .granted, .worker (.submit .queued), .worker (.submit .queued),
        .worker (.reclaim (.used 0 10 false fun _ => 0)),
        .worker (.reclaim (.used 0 10 true fun _ => 0))]
    w.state = .run ∧ ReturnedInOrder w.history ∧ ¬ PositionAgrees w := by
  refine ⟨by decide +kernel, by decide +kernel, fun h => absurd h.position (by decide +kernel)⟩

end Viosnd.Capture
