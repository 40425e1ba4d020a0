import Viosnd.Capture.Session

/-!
# Captured audio in the WaveRT buffer

A packet completed with success stays in its slot until its turn to be read is over. A packet
completed with an error leaves in its slot what was there before, and is handed out all the same.
In these runs a call to `GetReadPacket` and a completion come one at a time.
-/

namespace Viosnd.Capture

open StepRun EffectSystem

/-! ## Slots -/

def Geometry (w : World) : Prop := w.notificationCount.toNat * w.packetSize.toNat < 2 ^ 32

def slotOffset (w : World) (packet : ULONG) : Nat :=
  packet.toNat % w.notificationCount.toNat * w.packetSize.toNat

def slot (w : World) (memory : Memory) (packet : ULONG) : List Byte :=
  memory.slice (slotOffset w packet) w.packetSize.toNat

/-- The audio followed by zeros up to the packet size. -/
def padded (w : World) (audio : List Byte) : List Byte :=
  audio ++ List.replicate (w.packetSize.toNat - audio.length) 0

private theorem slots_apart (size : Nat) {a b : Nat} (h : a ≠ b) :
    a * size + size ≤ b * size ∨ b * size + size ≤ a * size := by
  rw [← Nat.succ_mul, ← Nat.succ_mul]
  rcases Nat.lt_or_gt_of_ne h with hlt | hgt
  · exact Or.inl (Nat.mul_le_mul_right size hlt)
  · exact Or.inr (Nat.mul_le_mul_right size hgt)

section

variable {w : World}

private theorem Geometry.offset_toNat (hgeometry : Geometry w)
    (hcount : 0 < w.notificationCount.toNat) (packet : ULONG) :
    ((packet % w.notificationCount) * w.packetSize).toNat = slotOffset w packet := by
  have hslot : packet.toNat % w.notificationCount.toNat < w.notificationCount.toNat :=
    Nat.mod_lt _ hcount
  have hle : slotOffset w packet ≤ w.notificationCount.toNat * w.packetSize.toNat :=
    Nat.mul_le_mul_right _ hslot.le
  unfold Geometry at hgeometry
  rw [BitVec.toNat_mul, BitVec.toNat_umod]
  exact Nat.mod_eq_of_lt (Nat.lt_of_le_of_lt hle hgeometry)

private theorem storeAudio_slot (hgeometry : Geometry w) (hcount : 0 < w.notificationCount.toNat)
    (memory audio : Memory) (packet bytesRead : ULONG) (hfit : bytesRead ≤ w.packetSize) :
    slot w (storeAudio w memory packet bytesRead audio) packet =
      padded w (audio.slice 0 bytesRead.toNat) := by
  have hle : bytesRead.toNat ≤ w.packetSize.toNat := hfit
  have hcopy : (if bytesRead < w.packetSize then bytesRead else w.packetSize) = bytesRead := by
    split_ifs with hshort
    · rfl
    · exact BitVec.le_antisymm (BitVec.not_lt.mp hshort) hfit
  have hwritten := Memory.slice_write memory (slotOffset w packet) (audio.slice 0 bytesRead.toNat)
  rw [Memory.slice_length] at hwritten
  unfold slot storeAudio padded
  dsimp only
  rw [hgeometry.offset_toNat hcount, hcopy]
  unfold captureSoftwareGain
  rw [viosndPcmCopyGain16_one, Memory.slice_length]
  split_ifs with hshort
  · have hrest : (w.packetSize - bytesRead).toNat = w.packetSize.toNat - bytesRead.toNat :=
      BitVec.toNat_sub_of_le hfit
    have hsplit : w.packetSize.toNat = bytesRead.toNat + (w.packetSize - bytesRead).toNat := by
      omega
    rw [← hrest]
    conv_lhs => rw [hsplit]
    rw [Memory.slice_add, Memory.slice_zero]
    congr 1
    rw [← hwritten]
    apply Memory.slice_congr
    intro i _ hi
    rw [hwritten]
    exact Memory.zero_outside _ _ _ (Or.inl hi)
  · have hall : w.packetSize.toNat = bytesRead.toNat :=
      Nat.le_antisymm (BitVec.not_lt.mp hshort) hle
    rw [hall, hwritten, Nat.sub_self, List.replicate_zero, List.append_nil]

private theorem storeAudio_other (hgeometry : Geometry w) (hcount : 0 < w.notificationCount.toNat)
    (memory audio : Memory) (packet other bytesRead : ULONG) (hfit : bytesRead ≤ w.packetSize)
    (hother : other.toNat % w.notificationCount.toNat ≠
      packet.toNat % w.notificationCount.toNat) :
    slot w (storeAudio w memory packet bytesRead audio) other = slot w memory other := by
  have hle : bytesRead.toNat ≤ w.packetSize.toNat := hfit
  have hcopy : (if bytesRead < w.packetSize then bytesRead else w.packetSize) = bytesRead := by
    split_ifs with hshort
    · rfl
    · exact BitVec.le_antisymm (BitVec.not_lt.mp hshort) hfit
  have hapart := slots_apart w.packetSize.toNat hother
  apply Memory.slice_congr
  intro i hlow hhigh
  unfold slotOffset at hlow hhigh
  unfold storeAudio
  rw [hgeometry.offset_toNat hcount, hcopy]
  unfold captureSoftwareGain slotOffset
  rw [viosndPcmCopyGain16_one]
  have hwrite := Memory.write_outside memory
    (packet.toNat % w.notificationCount.toNat * w.packetSize.toNat)
    (audio.slice 0 bytesRead.toNat) (i := i) (by rw [Memory.slice_length]; omega)
  split_ifs with hshort
  · have hrest : (w.packetSize - bytesRead).toNat = w.packetSize.toNat - bytesRead.toNat :=
      BitVec.toNat_sub_of_le hfit
    rw [Memory.zero_outside _ _ _ (by omega), hwrite]
  · exact hwrite

end

/-! ## What the session stored -/

/-- Every buffer that came back was stored or failed, and the audio stored last is in its slot. -/
structure Kept (w : World) : Prop where
  settled : ∀ n < (books w.history).returned,
    (∃ s ∈ (books w.history).stored, s.1.toNat = n) ∨
      ∃ packet ∈ (books w.history).failed, packet.toNat = n
  slots : ∀ memory, w.buffer = some memory → ∀ s ∈ (books w.history).stored,
    w.packetNumber.toNat ≤ s.1.toNat + w.notificationCount.toNat →
      slot w memory s.1 = padded w s.2

section

variable {w w' : World}

theorem Kept.congr (h : Kept w) (hsame : SameBooks w w') : Kept w' := by
  obtain ⟨hsettled, hslots⟩ := h
  unfold slot slotOffset padded at hslots
  constructor
  · rwa [hsame.books]
  · unfold slot slotOffset padded
    rwa [hsame.buffer, hsame.books, hsame.packetNumber, hsame.notificationCount,
      hsame.packetSize]

theorem Kept.fail (h : Kept w) (haccounted : Accounted w) (k : Nat) {entry : RxEntry}
    (hentry : (books w.history).submitted[(books w.history).returned]? = some entry) :
    Kept (failCapture k entry w) := by
  refine ⟨?_, h.slots⟩
  intro n hn
  have hnumber := haccounted.number hentry
  have hlt : n < (books w.history).returned + 1 := hn
  rcases Nat.lt_succ_iff_lt_or_eq.mp hlt with hold | rfl
  · rcases h.settled n hold with hstored | ⟨packet, hpacket, hn⟩
    · exact Or.inl hstored
    · exact Or.inr ⟨packet, List.mem_cons_of_mem _ hpacket, hn⟩
  · exact Or.inr ⟨entry.packetNumber, List.mem_cons_self, hnumber⟩

theorem completeCapture_books (entry : RxEntry) (bytesRead : ULONG) (audio : Memory) (w : World) :
    (books (completeCapture entry bytesRead audio w).history).stored =
        (entry.packetNumber, audio.slice 0 bytesRead.toNat) :: (books w.history).stored ∧
      (books (completeCapture entry bytesRead audio w).history).failed =
        (books w.history).failed ∧
      (books (completeCapture entry bytesRead audio w).history).returned =
        (books w.history).returned := by
  rcases completeCapture_stores entry bytesRead audio w with hsame | ⟨first, count, hdropped⟩
  · rw [hsame]
    exact ⟨rfl, rfl, rfl⟩
  · rw [hdropped]
    exact ⟨rfl, rfl, rfl⟩

/-- A packet still in the buffer is not overwritten by the packet that comes in. -/
theorem Kept.complete (h : Kept w) (haccounted : Accounted w) (hgeometry : Geometry w) (k : Nat)
    (entry : RxEntry) (bytesRead : ULONG) (audio : Memory) (hfit : bytesRead ≤ entry.audioLength)
    (hentry : (books w.history).submitted[(books w.history).returned]? = some entry)
    (hfew : FewPackets w.history) :
    Kept (completeCapture entry bytesRead audio (takeRx k entry w)) := by
  obtain ⟨hnumber, hlength⟩ := haccounted.numbered _ entry hentry
  rw [hlength] at hfit
  have hcompleted := haccounted.completed
  have hbelow := haccounted.stored
  obtain ⟨hstored, hfailed, hreturned⟩ :=
    completeCapture_books entry bytesRead audio (takeRx k entry w)
  have hlast : (entry.packetNumber + 1).toNat = entry.packetNumber.toNat + 1 := by
    obtain ⟨hlt, -⟩ := List.getElem?_eq_some_iff.mp hentry
    have hone : (1 : ULONG).toNat = 1 := rfl
    unfold FewPackets at hfew
    rw [BitVec.toNat_add_of_lt (by omega), hone]
  constructor
  · intro n hn
    rw [hreturned] at hn
    rw [hstored, hfailed]
    have hlt : n < (books w.history).returned + 1 := hn
    rcases Nat.lt_succ_iff_lt_or_eq.mp hlt with hold | rfl
    · rcases h.settled n hold with ⟨s, hs, hn⟩ | hpacket
      · exact Or.inl ⟨s, List.mem_cons_of_mem _ hs, hn⟩
      · exact Or.inr hpacket
    · exact Or.inl ⟨_, List.mem_cons_self, hnumber⟩
  · intro memory hmemory s hs hwindow
    rw [hstored] at hs
    rw [completeCapture_eq] at hmemory hwindow ⊢
    dsimp only [takeRx] at hmemory hwindow
    rw [hlast] at hwindow
    obtain ⟨older, hbuffer, rfl⟩ := Option.map_eq_some_iff.mp hmemory
    change slot w (storeAudio w older entry.packetNumber bytesRead audio) s.1 = padded w s.2
    rcases List.mem_cons.mp hs with rfl | hs
    · exact storeAudio_slot hgeometry (by dsimp only at hwindow; omega) older audio _ _ hfit
    · -- The two packets are less than a window apart, so their slots differ.
      have hearlier : s.1.toNat < w.packetNumber.toNat := hbelow s hs
      have hcount : 0 < w.notificationCount.toNat := by omega
      have hother : s.1.toNat % w.notificationCount.toNat ≠
          entry.packetNumber.toNat % w.notificationCount.toNat := by
        intro hsame
        have hdvd : w.notificationCount.toNat ∣ entry.packetNumber.toNat - s.1.toNat :=
          (Nat.modEq_iff_dvd' (by omega)).mp hsame
        have hle := Nat.le_of_dvd (by omega) hdvd
        omega
      rw [storeAudio_other hgeometry hcount older audio _ _ _ hfit hother]
      exact h.slots older hbuffer s hs (by omega)

theorem Booking.geometry (hR : Booking w w') :
    w'.notificationCount = w.notificationCount ∧ w'.packetSize = w.packetSize := by
  cases hR with
  | read => rw [getReadPacket_eq]; exact ⟨rfl, rfl⟩
  | complete => rw [completeCapture_eq]; exact ⟨rfl, rfl⟩
  | _ => exact ⟨rfl, rfl⟩

/-- While the buffers come back in order, the stored audio is kept. -/
theorem Booking.kept (hR : Booking w w') (hgeometry : Geometry w)
    (h : Orderly w → Accounted w ∧ Kept w) : Orderly w' → Kept w' := by
  intro horderly
  cases hR with
  | nothing => exact (h horderly).2
  | read =>
      obtain ⟨hsettled, hslots⟩ := (h ((getReadPacket_orderly w).mp horderly)).2
      unfold getReadPacket
      split_ifs
      · exact ⟨hsettled, hslots⟩
      · exact ⟨hsettled, hslots⟩
      · exact ⟨hsettled, hslots⟩
  | submit entry =>
      obtain ⟨hsettled, hslots⟩ := (h (lendCaptureIo_orderly entry w horderly)).2
      exact ⟨hsettled, hslots⟩
  | fail k entry =>
      obtain ⟨hentry, hw⟩ := (failCapture_orderly k entry w).mp horderly
      exact (h hw).2.fail (h hw).1 k hentry
  | complete k entry bytesRead audio _ hfit =>
      obtain ⟨hentry, hw⟩ := (takeRx_orderly k entry w).mp
        ((completeCapture_orderly entry bytesRead audio _).mp horderly)
      exact (h hw).2.complete (h hw).1 hgeometry k entry bytesRead audio hfit hentry hw.2

end

private theorem kept_sessionInvariant :
    SessionInvariant fun w => Geometry w → Orderly w → Accounted w ∧ Kept w := by
  constructor
  · intro w hgeometry horderly
    refine ⟨beginCapture_accounted w, ?_, ?_⟩
    · intro n hn
      exact absurd hn (Nat.not_lt_zero n)
    · intro memory hmemory s hs
      cases hs
  · intro w w' hsame h hgeometry horderly
    unfold Geometry at hgeometry
    rw [hsame.notificationCount, hsame.packetSize] at hgeometry
    obtain ⟨haccounted, hkept⟩ := h hgeometry (hsame.orderly.mp horderly)
    exact ⟨haccounted.congr hsame, hkept.congr hsame⟩
  · intro w w' hR h hgeometry horderly
    have hbefore : Geometry w := by
      unfold Geometry at hgeometry ⊢
      rwa [hR.geometry.1, hR.geometry.2] at hgeometry
    exact ⟨hR.accounted (fun ho => (h hbefore ho).1) horderly,
      hR.kept hbefore (h hbefore) horderly⟩

/-! ## Runs -/

structure Sized (w : World) : Prop where
  slots : w.bufferSize.toNat = w.notificationCount.toNat * w.packetSize.toNat
  empty : w.bufferSize = 0 → w.packetSize = 0

theorem Sized.geometry {w : World} (h : Sized w) : Geometry w := by
  unfold Geometry
  rw [← h.slots]
  exact w.bufferSize.isLt

/-- The usable part of an allocation is as many whole packets as fit, or one short packet. -/
theorem usableBufferSize_toNat (allocated : ULONG) :
    (viosndUsableBufferSizeFromAllocatedSize allocated).toNat =
      (viosndNotificationCountFromBufferSize
          (viosndUsableBufferSizeFromAllocatedSize allocated)).toNat *
        (viosndPacketSizeFromNotificationCount
          (viosndUsableBufferSizeFromAllocatedSize allocated)).toNat := by
  have hone : (1 : ULONG).toNat = 1 := rfl
  have hperiod : defaultPeriodBytes.toNat = 2048 := rfl
  have hcount : ∀ size : ULONG, (size / defaultPeriodBytes).toNat = size.toNat / 2048 :=
    fun size => BitVec.toNat_udiv
  have hfew : ∀ size : ULONG, size / defaultPeriodBytes < 1 ↔ size.toNat < 2048 := by
    intro size
    rw [BitVec.lt_def, hcount, hone]
    omega
  have hshort : ∀ size : ULONG, size < defaultPeriodBytes ↔ size.toNat < 2048 := by
    intro size
    rw [BitVec.lt_def, hperiod]
  have hzero : ∀ size : ULONG, size = 0 ↔ size.toNat = 0 := fun size =>
    ⟨fun h => by rw [h]; rfl, fun h => BitVec.eq_of_toNat_eq h⟩
  have hsize := allocated.isLt
  unfold viosndNotificationCountFromBufferSize viosndPacketSizeFromNotificationCount
    viosndUsableBufferSizeFromAllocatedSize
  by_cases hsmall : allocated < defaultPeriodBytes
  · rw [if_pos hsmall, if_pos hsmall]
    by_cases hempty : allocated = 0
    · simp [hempty]
    · rw [if_neg hempty, if_pos ((hfew _).mpr ((hshort _).mp hsmall)), hone, Nat.one_mul]
  · rw [if_neg hsmall]
    rw [hshort] at hsmall
    have hwhole : (viosndNotificationCountFromBufferSize allocated * defaultPeriodBytes).toNat =
        allocated.toNat / 2048 * 2048 := by
      unfold viosndNotificationCountFromBufferSize
      rw [if_neg (by rw [hzero]; omega), if_neg (by rw [hfew]; omega), BitVec.toNat_mul, hcount,
        hperiod]
      omega
    rw [if_neg (by rw [hzero, hwhole]; omega), if_neg (by rw [hfew, hwhole]; omega),
      if_neg (by rw [hshort, hwhole]; omega), hcount, hwhole, hperiod]
    omega

theorem World.fresh_sized (allocated : Option ULONG) : Sized (World.fresh allocated) := by
  constructor
  · cases allocated with
    | none => rfl
    | some allocated => exact usableBufferSize_toNat allocated
  · intro hempty
    change viosndPacketSizeFromNotificationCount (World.fresh allocated).bufferSize = 0
    rw [hempty]
    rfl

private theorem Effect.sizes {k : Kind} {w w' : World} (hR : Effect k w w') :
    w'.bufferSize = w.bufferSize ∧ w'.notificationCount = w.notificationCount ∧
      w'.packetSize = w.packetSize := by
  cases hR with
  | read => rw [getReadPacket_eq]; exact ⟨rfl, rfl, rfl⟩
  | free => rw [freeCaptureIo_eq]; exact ⟨rfl, rfl, rfl⟩
  | fail => rw [recycleCaptureIo_eq]; exact ⟨rfl, rfl, rfl⟩
  | complete => rw [recycleCaptureIo_eq, completeCapture_eq]; exact ⟨rfl, rfl, rfl⟩
  | _ => exact ⟨rfl, rfl, rfl⟩

theorem step_sized (w : World) (a : Action) (hw : Sized w) : Sized (step w a) := by
  refine (step_does w a).invariant (P := Sized) ?_ hw
  intro k _ u v hR hu
  obtain ⟨hbuffer, hcount, hpacket⟩ := hR.sizes
  obtain ⟨hslots, hempty⟩ := hu
  exact ⟨by rwa [hbuffer, hcount, hpacket], by rwa [hbuffer, hpacket]⟩

theorem run_sized (allocated : Option ULONG) (actions : List Action) :
    Sized (run step (World.fresh allocated) actions) :=
  run_invariant (P := Sized) step_sized actions (World.fresh_sized allocated)

/-- The audio the device delivered for the packet: none when the packet failed. -/
def AudioOf (w : World) (packet : ULONG) (audio : List Byte) : Prop :=
  (packet, audio) ∈ (books w.history).stored ∨ packet ∈ (books w.history).failed ∧ audio = []

/-- The slot of the packet holds the audio the device delivered for it, followed by zeros. -/
def HoldsAudio (w : World) (packet : ULONG) : Prop :=
  ∃ memory audio, w.buffer = some memory ∧ AudioOf w packet audio ∧
    slot w memory packet = padded w audio

/-- A packet that is handed out and was not completed with an error is in its slot. -/
theorem run_holdsAudio (allocated : Option ULONG) (actions : List Action)
    (hstate : (run step (World.fresh allocated) actions).state = .run)
    (horder : ReturnedInOrder (run step (World.fresh allocated) actions).history)
    (hfew : FewPackets (run step (World.fresh allocated) actions).history) (packet : ULONG)
    (hread : (getReadPacket (run step (World.fresh allocated) actions)).1 = .success ∧
      (getReadPacket (run step (World.fresh allocated) actions)).2.1 = packet)
    (hdelivered : packet ∉ (books (run step (World.fresh allocated) actions).history).failed) :
    HoldsAudio (run step (World.fresh allocated) actions) packet := by
  obtain ⟨haccounted, hkept⟩ := kept_sessionInvariant.inRun allocated actions hstate
    (run_sized allocated actions).geometry ⟨horder, hfew⟩
  generalize run step (World.fresh allocated) actions = w at *
  have hcall : getReadPacket w =
      (.success, packet, (getReadPacket w).2.2.1, (getReadPacket w).2.2.2) :=
    Prod.ext hread.1 (Prod.ext hread.2 rfl)
  obtain ⟨hbelow, hwindow, -, -⟩ := haccounted.nextInWindow hcall
  have hbuffer : ∃ memory, w.buffer = some memory := by
    cases hmemory : w.buffer with
    | none =>
        have hrefused := hread.1
        rw [getReadPacket, if_pos (Or.inl (by rw [hmemory]; rfl))] at hrefused
        cases hrefused
    | some memory => exact ⟨memory, rfl⟩
  obtain ⟨memory, hmemory⟩ := hbuffer
  have hreturned : packet.toNat < (books w.history).returned :=
    Nat.lt_of_lt_of_le hbelow haccounted.completed
  rcases hkept.settled _ hreturned with ⟨⟨stored, audio⟩, hs, hsame⟩ | ⟨other, hother, hsame⟩
  · obtain rfl : stored = packet := BitVec.eq_of_toNat_eq hsame
    exact ⟨memory, audio, hmemory, Or.inl hs, hkept.slots memory hmemory _ hs hwindow⟩
  · obtain rfl : other = packet := BitVec.eq_of_toNat_eq hsame
    exact absurd hother hdelivered

/-- Packets 0 and 1 are completed with two bytes of sound and read. -/
def twoPackets : List Action :=
  [.setState .run .granted, .worker (.submit .queued), .worker (.submit .queued),
    .worker (.reclaim (.used 0 10 true fun _ => 7)),
    .worker (.reclaim (.used 0 10 true fun _ => 8))]

theorem run_holdsAudio_first : HoldsAudio (run step (World.fresh (some 4096)) twoPackets) 0 :=
  run_holdsAudio (some 4096) twoPackets (by decide +kernel) (by decide +kernel)
    (by decide +kernel) 0 (by decide +kernel) (by decide +kernel)

private theorem slot_head (w : World) (memory : Memory) (packet : ULONG)
    (hsize : 0 < w.packetSize.toNat) :
    (slot w memory packet)[0]? = some (memory (slotOffset w packet)) := by
  simp [slot, Memory.slice, hsize]

/-- Packets 0 and 1 are read, packet 2 fails and packet 3 is completed. -/
def failedPacket : List Action :=
  twoPackets ++ [.getReadPacket, .getReadPacket, .worker (.submit .queued),
    .worker (.submit .queued), .worker (.reclaim (.used 0 10 false fun _ => 9)),
    .worker (.reclaim (.used 0 10 true fun _ => 9))]

/-- Packet 2 is handed out with the sound of packet 0. -/
theorem run_not_holdsAudio :
    let w := run step (World.fresh (some 4096)) failedPacket
    w.state = .run ∧ ReturnedInOrder w.history ∧ FewPackets w.history ∧
      (getReadPacket w).1 = .success ∧ (getReadPacket w).2.1 = 2 ∧ ¬ HoldsAudio w 2 := by
  refine ⟨by decide +kernel, by decide +kernel, by decide +kernel, by decide +kernel,
    by decide +kernel, ?_⟩
  rintro ⟨memory, audio, hmemory, haudio, hslot⟩
  have hfirst : memory 0 = 7 := by
    obtain rfl := Option.some.inj hmemory
    decide +kernel
  have hnone : ∀ s ∈ (books (run step (World.fresh (some 4096)) failedPacket).history).stored,
      s.1 ≠ 2 := by decide +kernel
  obtain rfl : audio = [] := by
    rcases haudio with hstored | ⟨-, hempty⟩
    · exact absurd rfl (hnone _ hstored)
    · exact hempty
  have hsize : (run step (World.fresh (some 4096)) failedPacket).packetSize.toNat = 2048 := by
    decide +kernel
  have hoffset : slotOffset (run step (World.fresh (some 4096)) failedPacket) 2 = 0 := by
    decide +kernel
  have hhead := slot_head (run step (World.fresh (some 4096)) failedPacket) memory 2 (by omega)
  rw [hslot, hoffset, hfirst] at hhead
  unfold padded at hhead
  rw [hsize, List.nil_append, List.length_nil, List.getElem?_replicate, if_pos (by decide)] at hhead
  exact absurd (Option.some.inj hhead) (by decide)

end Viosnd.Capture
