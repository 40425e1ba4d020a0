import Viosnd.Buffer.Allocation

/-!
# The packets a client asked for

A client that asked for `N` packets splits the size it was given into `N` slots. The stream splits
the same bytes into periods of the default size, whatever was asked.
-/

namespace Viosnd.Buffer

open SlotRanges

/-- The slot a client finds a packet in: the size it was told, split into the packets it asked
for. -/
def clientSlot (N actualSize packetNumber : ULONG) : Range :=
  slot N.toNat (actualSize / N).toNat packetNumber.toNat

end Viosnd.Buffer

namespace Viosnd.Render

open Buffer SlotRanges

/-- The bytes of a packet in `m_Buffer` as `SubmitRenderPacket` computes them. -/
def driverSlot (w : World) (packetNumber : ULONG) : Range :=
  ⟨(packetOffset packetNumber w.notificationCount w.packetSize).toNat, w.packetSize.toNat⟩

/-- A successful call leaves every packet where a client that asked for `N` looks for it. -/
def SlotsAgree (N : ULONG) (r : NtStatus × World) : Prop :=
  r.1 = .success → ∀ p, driverSlot r.2 p = clientSlot N r.2.bufferSize p

end Viosnd.Render

namespace Viosnd.Capture

open Buffer SlotRanges

/-- The bytes of a packet in `m_Buffer` as `ReclaimCapturePackets` computes them. -/
def driverSlot (w : World) (packetNumber : ULONG) : Range :=
  ⟨((packetNumber % w.notificationCount) * w.packetSize).toNat, w.packetSize.toNat⟩

/-- A successful call leaves every packet where a client that asked for `N` looks for it. -/
def SlotsAgree (N : ULONG) (r : NtStatus × World) : Prop :=
  r.1 = .success → ∀ p, driverSlot r.2 p = clientSlot N r.2.bufferSize p

end Viosnd.Capture

namespace Viosnd.Buffer

open SlotRanges
open Render (PagesInput)

/-! ## The request -/

theorem periodAlignedSize_toNat {N : ULONG} (hN : N ≠ 0) :
    (periodAlignedSize N).toNat = N.toNat * 2048 := by
  have hlt := N.isLt
  have hone : ¬ N < 1 := by
    intro h
    have hzero : N.toNat = 0 := by
      rw [BitVec.lt_def] at h
      exact Nat.lt_one_iff.mp h
    exact hN (BitVec.eq_of_toNat_eq hzero)
  have hperiod : (defaultPeriodBytes.setWidth 64).toNat = 2048 := rfl
  unfold periodAlignedSize
  dsimp only
  rw [if_pos hN, if_neg hone, BitVec.toNat_mul, BitVec.toNat_setWidth, hperiod,
    Nat.mod_eq_of_lt (by omega), Nat.mod_eq_of_lt (by omega)]

private theorem request_refused_iff {N : ULONG} (hN : N ≠ 0) :
    maxULONG.setWidth 64 < periodAlignedSize N ↔ ¬ N.toNat * 2048 < 2 ^ 32 := by
  have hmax : (maxULONG.setWidth 64 : ULONGLONG).toNat = 2 ^ 32 - 1 := rfl
  rw [BitVec.lt_def, periodAlignedSize_toNat hN, hmax]
  omega

def askedSize (N : ULONG) : ULONG := allocationSize ((periodAlignedSize N).setWidth 32)

/-- The grant holds as many periods as packets were asked for, or nothing at all. -/
def GrantsCount (N : ULONG) : PagesInput → Prop
  | .mapped allocatedSize =>
      allocatedSize = 0 ∨ max (allocatedSize.toNat / 2048) 1 = N.toNat
  | _ => True

/-! ## The grant -/

structure Geometry (allocatedSize : ULONG) (bufferSize count packetSize : ULONG) : Prop where
  bufferSize_eq : bufferSize.toNat = count.toNat * packetSize.toNat
  count_eq : count.toNat = grantedCount allocatedSize.toNat
  packetSize_eq : packetSize.toNat = grantedPacketSize allocatedSize.toNat

section

variable {allocatedSize bufferSize count packetSize : ULONG}

private theorem grantedCount_product (n : ℕ) :
    grantedCount (grantedCount n * grantedPacketSize n) = grantedCount n := by
  unfold grantedCount grantedPacketSize
  split_ifs with hzero hproduct hproduct
  · rfl
  · exact absurd (Nat.zero_mul _) hproduct
  · exact absurd hproduct (Nat.mul_ne_zero (by omega) (by omega))
  · rcases Nat.lt_or_ge n 2048 with hshort | hlong
    · rw [Nat.min_eq_left (Nat.le_of_lt hshort), Nat.div_eq_of_lt hshort,
        Nat.max_eq_right (Nat.zero_le 1), Nat.one_mul, Nat.div_eq_of_lt hshort]
      rfl
    · rw [Nat.min_eq_right hlong, Nat.mul_div_cancel _ (by decide)]
      omega

private theorem grantedPacketSize_product (n : ℕ) :
    grantedPacketSize (grantedCount n * grantedPacketSize n) = grantedPacketSize n := by
  unfold grantedCount grantedPacketSize
  split_ifs with hzero
  · rw [Nat.zero_mul, hzero]
  · rcases Nat.lt_or_ge n 2048 with hshort | hlong
    · rw [Nat.min_eq_left (Nat.le_of_lt hshort), Nat.div_eq_of_lt hshort,
        Nat.max_eq_right (Nat.zero_le 1), Nat.one_mul]
      exact Nat.min_eq_left (Nat.le_of_lt hshort)
    · have hone : 1 ≤ n / 2048 := (Nat.one_le_div_iff (by decide)).mpr hlong
      rw [Nat.min_eq_right hlong, Nat.max_eq_left hone]
      exact Nat.min_eq_right (Nat.le_mul_of_pos_left _ hone)

/-- The count and the size recomputed from the usable size are those of the grant. -/
theorem geometry_granted (allocatedSize : ULONG) :
    Geometry allocatedSize (Render.viosndUsableBufferSizeFromAllocatedSize allocatedSize)
      (Render.viosndNotificationCountFromBufferSize
        (Render.viosndUsableBufferSizeFromAllocatedSize allocatedSize))
      (Render.viosndPacketSizeFromNotificationCount
        (Render.viosndUsableBufferSizeFromAllocatedSize allocatedSize)
        (Render.viosndNotificationCountFromBufferSize
          (Render.viosndUsableBufferSizeFromAllocatedSize allocatedSize))) := by
  have hcount : (Render.viosndNotificationCountFromBufferSize
      (Render.viosndUsableBufferSizeFromAllocatedSize allocatedSize)).toNat =
      grantedCount allocatedSize.toNat := by
    rw [notificationCount_toNat, usableBufferSize_toNat, grantedCount_product]
  have hsize (n : ULONG) : (Render.viosndPacketSizeFromNotificationCount
      (Render.viosndUsableBufferSizeFromAllocatedSize allocatedSize) n).toNat =
      grantedPacketSize allocatedSize.toNat := by
    rw [packetSize_toNat, usableBufferSize_toNat, grantedPacketSize_product]
  exact {
    bufferSize_eq := by rw [hcount, hsize, usableBufferSize_toNat]
    count_eq := hcount
    packetSize_eq := hsize _ }

theorem Geometry.fits (h : Geometry allocatedSize bufferSize count packetSize) :
    bufferSize.toNat ≤ allocatedSize.toNat := by
  rw [h.bufferSize_eq, h.count_eq, h.packetSize_eq]
  exact usableBufferSize_le allocatedSize

theorem Geometry.count_pos (h : Geometry allocatedSize bufferSize count packetSize)
    (hgrant : allocatedSize ≠ 0) : 0 < count.toNat := by
  have hpos : allocatedSize.toNat ≠ 0 := fun hzero => hgrant (BitVec.eq_of_toNat_eq hzero)
  rw [h.count_eq, grantedCount, if_neg hpos]
  exact Nat.lt_of_lt_of_le Nat.zero_lt_one (Nat.le_max_right _ _)

private theorem Geometry.packetSize_pos (h : Geometry allocatedSize bufferSize count packetSize)
    (hgrant : allocatedSize ≠ 0) : 0 < packetSize.toNat := by
  have hpos : allocatedSize.toNat ≠ 0 := fun hzero => hgrant (BitVec.eq_of_toNat_eq hzero)
  rw [h.packetSize_eq, grantedPacketSize]
  omega

theorem slotOffset_toNat (hsize : bufferSize.toNat = count.toNat * packetSize.toNat)
    (hpos : 0 < count.toNat) (packetNumber : ULONG) :
    (packetNumber % count * packetSize).toNat =
      packetNumber.toNat % count.toNat * packetSize.toNat := by
  have hlt := bufferSize.isLt
  have hindex : packetNumber.toNat % count.toNat < count.toNat := Nat.mod_lt _ hpos
  have hproduct : packetNumber.toNat % count.toNat * packetSize.toNat ≤
      count.toNat * packetSize.toNat := Nat.mul_le_mul_right _ (Nat.le_of_lt hindex)
  rw [BitVec.toNat_mul, BitVec.toNat_umod]
  exact Nat.mod_eq_of_lt (by omega)

private theorem packetOffset_toNat (hsize : bufferSize.toNat = count.toNat * packetSize.toNat)
    (hpos : 0 < count.toNat) (packetNumber : ULONG) :
    (packetOffset packetNumber count packetSize).toNat =
      packetNumber.toNat % count.toNat * packetSize.toNat := by
  have hne : count ≠ 0 := by
    rintro rfl
    exact Nat.lt_irrefl 0 hpos
  unfold packetOffset
  rw [if_neg hne]
  exact slotOffset_toNat hsize hpos packetNumber

end

/-! ## Both views of a slot -/

section

variable {N allocatedSize bufferSize count packetSize : ULONG}

/-- Packet numbers are 32 bits wide, which is enough to tell two layouts apart. -/
private theorem slots_eq_clientSlots_iff (hsize : bufferSize.toNat = count.toNat * packetSize.toNat)
    (hcount : 0 < count.toNat) (hpacket : 0 < packetSize.toNat) (hN : N ≠ 0) :
    (∀ p : ULONG, slot count.toNat packetSize.toNat p.toNat = clientSlot N bufferSize p) ↔
      count.toNat = N.toNat := by
  have hpos : 0 < N.toNat := Nat.pos_of_ne_zero fun hzero => hN (BitVec.eq_of_toNat_eq hzero)
  have hall : (∀ p : ULONG,
      slot count.toNat packetSize.toNat p.toNat = clientSlot N bufferSize p) ↔
      ∀ p < 2 ^ 32, slot count.toNat packetSize.toNat p =
        slot N.toNat (bufferSize / N).toNat p := by
    constructor
    · intro h p hp
      have hword := h (BitVec.ofNat 32 p)
      rwa [clientSlot, BitVec.toNat_ofNat, Nat.mod_eq_of_lt hp] at hword
    · intro h p
      exact h p.toNat p.isLt
  rw [hall, slots_eq_iff hpacket hcount hpos count.isLt N.isLt, BitVec.toNat_udiv, hsize]
  constructor
  · intro h
    exact h.1
  · intro h
    refine ⟨h, ?_⟩
    rw [h, Nat.mul_div_cancel_left _ hpos]

private theorem Geometry.clientSlots_iff (h : Geometry allocatedSize bufferSize count packetSize)
    (hgrant : allocatedSize ≠ 0) (hN : N ≠ 0) :
    (∀ p : ULONG, slot count.toNat packetSize.toNat p.toNat = clientSlot N bufferSize p) ↔
      GrantsCount N (.mapped allocatedSize) := by
  have hpos : allocatedSize.toNat ≠ 0 := fun hzero => hgrant (BitVec.eq_of_toNat_eq hzero)
  rw [slots_eq_clientSlots_iff h.bufferSize_eq (h.count_pos hgrant) (h.packetSize_pos hgrant) hN,
    h.count_eq, grantedCount, if_neg hpos]
  constructor
  · exact Or.inr
  · intro hor
    exact hor.resolve_left hgrant

private theorem Geometry.clientSlot_empty (h : Geometry 0 bufferSize count packetSize) (p : ULONG) :
    bufferSize = 0 ∧ packetSize = 0 ∧ clientSlot N bufferSize p = ⟨0, 0⟩ := by
  have hpacket : packetSize = 0 := BitVec.eq_of_toNat_eq h.packetSize_eq
  have hbuffer : bufferSize = 0 := by
    apply BitVec.eq_of_toNat_eq
    rw [h.bufferSize_eq, hpacket]
    rfl
  refine ⟨hbuffer, hpacket, ?_⟩
  unfold clientSlot slot
  rw [hbuffer, BitVec.toNat_udiv]
  simp

end

/-! ## The call -/

section

variable {N allocatedSize : ULONG} {mm : MemoryManager} (requestedSize : ULONG)

private theorem render_mapped {w : Render.World} (hmm : mm (askedSize N) = .mapped allocatedSize)
    (hfits : ¬ maxULONG.setWidth 64 < periodAlignedSize N) :
    (Render.allocateBufferWithNotification N requestedSize mm w).1 = .success ∧
      Geometry allocatedSize
        (Render.allocateBufferWithNotification N requestedSize mm w).2.bufferSize
        (Render.allocateBufferWithNotification N requestedSize mm w).2.notificationCount
        (Render.allocateBufferWithNotification N requestedSize mm w).2.packetSize := by
  unfold askedSize at hmm
  unfold Render.allocateBufferWithNotification Render.allocateBuffer
  rw [if_neg hfits, hmm]
  exact ⟨rfl, geometry_granted allocatedSize⟩

private theorem capture_mapped {w : Capture.World} (hmm : mm (askedSize N) = .mapped allocatedSize)
    (hfits : ¬ maxULONG.setWidth 64 < periodAlignedSize N) :
    (Capture.allocateBufferWithNotification N requestedSize mm w).1 = .success ∧
      Geometry allocatedSize
        (Capture.allocateBufferWithNotification N requestedSize mm w).2.bufferSize
        (Capture.allocateBufferWithNotification N requestedSize mm w).2.notificationCount
        (Capture.allocateBufferWithNotification N requestedSize mm w).2.packetSize := by
  unfold askedSize at hmm
  unfold Capture.allocateBufferWithNotification Capture.allocateBuffer
  rw [if_neg hfits, hmm]
  exact ⟨rfl, geometry_granted allocatedSize⟩

private theorem render_success {w : Render.World}
    (hsuccess : (Render.allocateBufferWithNotification N requestedSize mm w).1 = .success) :
    ¬ maxULONG.setWidth 64 < periodAlignedSize N ∧ ∃ size, mm (askedSize N) = .mapped size := by
  unfold Render.allocateBufferWithNotification Render.allocateBuffer at hsuccess
  split_ifs at hsuccess with hbig
  refine ⟨hbig, ?_⟩
  unfold askedSize
  cases hpages : mm (allocationSize ((periodAlignedSize N).setWidth 32)) with
  | none =>
      rw [hpages] at hsuccess
      cases hsuccess
  | unmapped =>
      rw [hpages] at hsuccess
      cases hsuccess
  | mapped size => exact ⟨size, rfl⟩

private theorem capture_success {w : Capture.World}
    (hsuccess : (Capture.allocateBufferWithNotification N requestedSize mm w).1 = .success) :
    ¬ maxULONG.setWidth 64 < periodAlignedSize N ∧ ∃ size, mm (askedSize N) = .mapped size := by
  unfold Capture.allocateBufferWithNotification Capture.allocateBuffer at hsuccess
  split_ifs at hsuccess with hbig
  refine ⟨hbig, ?_⟩
  unfold askedSize
  cases hpages : mm (allocationSize ((periodAlignedSize N).setWidth 32)) with
  | none =>
      rw [hpages] at hsuccess
      cases hsuccess
  | unmapped =>
      rw [hpages] at hsuccess
      cases hsuccess
  | mapped size => exact ⟨size, rfl⟩

private theorem render_empty_agrees {r : NtStatus × Render.World}
    (h : Geometry 0 r.2.bufferSize r.2.notificationCount r.2.packetSize) :
    Render.SlotsAgree N r := by
  intro _ p
  obtain ⟨_, hpacket, hclient⟩ := h.clientSlot_empty (N := N) p
  unfold Render.driverSlot packetOffset
  rw [hclient, hpacket]
  simp

private theorem capture_empty_agrees {r : NtStatus × Capture.World}
    (h : Geometry 0 r.2.bufferSize r.2.notificationCount r.2.packetSize) :
    Capture.SlotsAgree N r := by
  intro _ p
  obtain ⟨_, hpacket, hclient⟩ := h.clientSlot_empty (N := N) p
  unfold Capture.driverSlot
  rw [hclient, hpacket]
  simp

private theorem render_agrees_iff {w : Render.World} (hN : N ≠ 0)
    (hmm : mm (askedSize N) = .mapped allocatedSize)
    (hfits : ¬ maxULONG.setWidth 64 < periodAlignedSize N) :
    Render.SlotsAgree N (Render.allocateBufferWithNotification N requestedSize mm w) ↔
      GrantsCount N (.mapped allocatedSize) := by
  obtain ⟨hsuccess, hgeometry⟩ := render_mapped requestedSize (w := w) hmm hfits
  by_cases hgrant : allocatedSize = 0
  · subst hgrant
    exact iff_of_true (render_empty_agrees hgeometry) (Or.inl rfl)
  · rw [← hgeometry.clientSlots_iff hgrant hN, Render.SlotsAgree, hsuccess, forall_prop_of_true rfl]
    apply forall_congr'
    intro p
    rw [Render.driverSlot, packetOffset_toNat hgeometry.bufferSize_eq (hgeometry.count_pos hgrant)]
    rfl

private theorem capture_agrees_iff {w : Capture.World} (hN : N ≠ 0)
    (hmm : mm (askedSize N) = .mapped allocatedSize)
    (hfits : ¬ maxULONG.setWidth 64 < periodAlignedSize N) :
    Capture.SlotsAgree N (Capture.allocateBufferWithNotification N requestedSize mm w) ↔
      GrantsCount N (.mapped allocatedSize) := by
  obtain ⟨hsuccess, hgeometry⟩ := capture_mapped requestedSize (w := w) hmm hfits
  by_cases hgrant : allocatedSize = 0
  · subst hgrant
    exact iff_of_true (capture_empty_agrees hgeometry) (Or.inl rfl)
  · rw [← hgeometry.clientSlots_iff hgrant hN, Capture.SlotsAgree, hsuccess,
      forall_prop_of_true rfl]
    apply forall_congr'
    intro p
    rw [Capture.driverSlot, slotOffset_toNat hgeometry.bufferSize_eq (hgeometry.count_pos hgrant)]
    rfl

private theorem render_agrees_of_none (w : Render.World)
    (hnone : ∀ size, mm (askedSize N) ≠ .mapped size) :
    Render.SlotsAgree N (Render.allocateBufferWithNotification N requestedSize mm w) := by
  intro hsuccess
  obtain ⟨size, hmapped⟩ := (render_success requestedSize hsuccess).2
  exact absurd hmapped (hnone size)

private theorem capture_agrees_of_none (w : Capture.World)
    (hnone : ∀ size, mm (askedSize N) ≠ .mapped size) :
    Capture.SlotsAgree N (Capture.allocateBufferWithNotification N requestedSize mm w) := by
  intro hsuccess
  obtain ⟨size, hmapped⟩ := (capture_success requestedSize hsuccess).2
  exact absurd hmapped (hnone size)

/-- The stream and its client agree on every packet exactly when the number of whole periods in
the grant is the number of packets that was asked for. -/
theorem allocateBufferWithNotification_slots_iff (N requestedSize : ULONG) (mm : MemoryManager)
    (hN : N ≠ 0) :
    (∀ w : Render.World,
      Render.SlotsAgree N (Render.allocateBufferWithNotification N requestedSize mm w) ↔
        (N.toNat * 2048 < 2 ^ 32 → GrantsCount N (mm (askedSize N)))) ∧
    (∀ w : Capture.World,
      Capture.SlotsAgree N (Capture.allocateBufferWithNotification N requestedSize mm w) ↔
        (N.toNat * 2048 < 2 ^ 32 → GrantsCount N (mm (askedSize N)))) := by
  by_cases hfits : maxULONG.setWidth 64 < periodAlignedSize N
  · have hbig := (request_refused_iff hN).mp hfits
    constructor
    · intro w
      refine iff_of_true ?_ fun h => absurd h hbig
      intro hsuccess
      exact absurd hfits (render_success requestedSize hsuccess).1
    · intro w
      refine iff_of_true ?_ fun h => absurd h hbig
      intro hsuccess
      exact absurd hfits (capture_success requestedSize hsuccess).1
  · have hsmall : N.toNat * 2048 < 2 ^ 32 := not_not.mp fun h =>
      hfits ((request_refused_iff hN).mpr h)
    rw [forall_prop_of_true hsmall]
    cases hmm : mm (askedSize N) with
    | mapped allocatedSize =>
        exact ⟨fun w => render_agrees_iff requestedSize hN hmm hfits,
          fun w => capture_agrees_iff requestedSize hN hmm hfits⟩
    | none =>
        have hnone : ∀ size, mm (askedSize N) ≠ .mapped size := by simp [hmm]
        exact ⟨fun w => iff_of_true (render_agrees_of_none requestedSize w hnone) trivial,
          fun w => iff_of_true (capture_agrees_of_none requestedSize w hnone) trivial⟩
    | unmapped =>
        have hnone : ∀ size, mm (askedSize N) ≠ .mapped size := by simp [hmm]
        exact ⟨fun w => iff_of_true (render_agrees_of_none requestedSize w hnone) trivial,
          fun w => iff_of_true (capture_agrees_of_none requestedSize w hnone) trivial⟩

end

/-- A client of 16 packets is granted 16 periods. -/
theorem allocateBufferWithNotification_slots_iff_sixteen :
    (16 : ULONG) ≠ 0 ∧
      Render.SlotsAgree 16 (Render.allocateBufferWithNotification 16 0
        (fun _ => .mapped 32768) (.fresh none 0 0 0)) ∧
      Capture.SlotsAgree 16 (Capture.allocateBufferWithNotification 16 0
        (fun _ => .mapped 32768) (.fresh none)) := by
  have hN : (16 : ULONG) ≠ 0 := by decide
  have hagree := allocateBufferWithNotification_slots_iff 16 0 (fun _ => .mapped 32768) hN
  have hgrant : GrantsCount 16 (.mapped 32768) := Or.inr rfl
  exact ⟨hN, (hagree.1 _).mpr fun _ => hgrant, (hagree.2 _).mpr fun _ => hgrant⟩

/-- A client that asked for two packets is given sixteen: it looks for packet 2 at the start of
the buffer, which is where the stream keeps packet 0. -/
theorem twoPackets_slots_differ :
    ¬ ∀ (N requestedSize : ULONG) (mm : MemoryManager) (w : Render.World), N ≠ 0 →
      Render.SlotsAgree N (Render.allocateBufferWithNotification N requestedSize mm w) := by
  intro hall
  have hagree := hall 2 32768 (fun _ => .mapped 32768) (.fresh none 0 0 0) (by decide) (by decide) 2
  exact absurd hagree (by decide)

/-! ## Full grants -/

/-- Memory comes in whole pages, and as much as was asked for is granted. -/
def fullGrant (size : ULONG) : PagesInput :=
  .mapped (BitVec.ofNat 32 ((size.toNat + 4095) / 4096 * 4096))

private theorem askedSize_toNat {N : ULONG} (hN : N ≠ 0) (hsmall : N.toNat * 2048 < 2 ^ 32) :
    (askedSize N).toNat = max (N.toNat * 2048) 32768 := by
  have hdefault : defaultBufferBytes.toNat = 32768 := rfl
  have haligned : ((periodAlignedSize N).setWidth 32).toNat = N.toNat * 2048 := by
    rw [BitVec.toNat_setWidth, periodAlignedSize_toNat hN, Nat.mod_eq_of_lt hsmall]
  unfold askedSize allocationSize
  split_ifs with hless
  · rw [BitVec.lt_def, haligned, hdefault] at hless
    rw [hdefault]
    omega
  · rw [BitVec.lt_def, haligned, hdefault] at hless
    rw [haligned]
    omega

/-- A client that asks for fewer than sixteen packets never gets them, nor does one that asks for
an odd number. -/
theorem fullGrant_grantsCount_iff {N : ULONG} (hN : N ≠ 0)
    (hsmall : N.toNat * 2048 + 4095 < 2 ^ 32) :
    GrantsCount N (fullGrant (askedSize N)) ↔ 16 ≤ N.toNat ∧ Even N.toNat := by
  have hasked := askedSize_toNat hN (Nat.lt_of_le_of_lt (Nat.le_add_right _ _) hsmall)
  have hrounded : (BitVec.ofNat 32 (((askedSize N).toNat + 4095) / 4096 * 4096)).toNat =
      ((askedSize N).toNat + 4095) / 4096 * 4096 := by
    have hasked_small : (askedSize N).toNat + 4095 < 2 ^ 32 := by
      rw [hasked, ← max_add_add_right]
      exact max_lt hsmall (by decide)
    rw [BitVec.toNat_ofNat]
    exact Nat.mod_eq_of_lt (Nat.lt_of_le_of_lt (Nat.div_mul_le_self _ _) hasked_small)
  have hgrant : BitVec.ofNat 32 (((askedSize N).toNat + 4095) / 4096 * 4096) ≠ 0 := by
    intro hzero
    have hnat := hrounded.symm.trans (congrArg BitVec.toNat hzero)
    rw [hasked] at hnat
    generalize N.toNat = n at hnat
    have hnone : (max (n * 2048) 32768 + 4095) / 4096 * 4096 = 0 := hnat
    omega
  unfold fullGrant GrantsCount
  dsimp only
  rw [or_iff_right hgrant, hrounded, hasked, Nat.even_iff]
  omega

end Viosnd.Buffer
