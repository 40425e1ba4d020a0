import Viosnd.VirtIO.LiveQueue

/-!
# The TX and RX queues of the sound device

Prepared submits and reclaims of both directions make one call to their queue each. So does a pass
of the detach loops, of `CancelRenderWrites` on TX and of `ViosndDetachUnusedReadPcm` on RX. The
device takes and returns entries between any two of them, whatever STOP and RELEASE came to.
-/

namespace Viosnd.VirtIO

open StepRun

variable {β : Type}

structure PcmQueues (β : Type) where
  tx : LiveQueue β
  rx : LiveQueue β

def PcmQueues.new (β : Type) (txSize rxSize : ℕ) : PcmQueues β where
  tx := LiveQueue.new β txSize
  rx := LiveQueue.new β rxSize

inductive PcmStep (β : Type) where
  | tx (s : QueueStep β)
  | rx (s : QueueStep β)

def PcmQueues.step (w : PcmQueues β) : PcmStep β → PcmQueues β
  | .tx s => { w with tx := w.tx.step s }
  | .rx s => { w with rx := w.rx.step s }

def PcmGuard (w : PcmQueues β) : PcmStep β → Prop
  | .tx s => WithdrawGuard w.tx s
  | .rx s => WithdrawGuard w.rx s

instance (w : LiveQueue β) (s : QueueStep β) : Decidable (WithdrawGuard w s) :=
  match s with
  | .detach =>
      have := Option.decidableForallMem (p := w.Untaken) (o := firstInUse w.ring)
      inferInstanceAs (Decidable (∀ head ∈ firstInUse w.ring, w.Untaken head))
  | .take => inferInstanceAs (Decidable
      (w.withdrawn = true → w.ring.availIdx ≠ w.lastAvail → w.Untaken w.nextHead))
  | .submit _ _ _ => isTrue trivial
  | .reclaim => isTrue trivial
  | .giveBack _ _ => isTrue trivial

instance (w : PcmQueues β) (s : PcmStep β) : Decidable (PcmGuard w s) :=
  match s with
  | .tx s => inferInstanceAs (Decidable (WithdrawGuard w.tx s))
  | .rx s => inferInstanceAs (Decidable (WithdrawGuard w.rx s))

theorem PcmQueues.step_accounted (w : PcmQueues β) (s : PcmStep β)
    (hw : w.tx.Accounted ∧ w.rx.Accounted) (hg : PcmGuard w s) :
    (w.step s).tx.Accounted ∧ (w.step s).rx.Accounted := by
  obtain ⟨htx, hrx⟩ := hw
  cases s with
  | tx s => exact ⟨w.tx.step_accounted s htx hg, hrx⟩
  | rx s => exact ⟨htx, w.rx.step_accounted s hrx hg⟩

theorem LiveQueue.new_accounted (num : ℕ) (hnum : num ∣ 2 ^ 15) :
    (LiveQueue.new β num).Accounted :=
  ⟨_, _, _, _, LiveQueue.new_consistent num hnum⟩

theorem LiveQueue.Accounted.sound {w : LiveQueue β} (h : w.Accounted) : w.Sound := by
  obtain ⟨free, untaken, held, returned, h⟩ := h
  exact h.sound

/-- Both queues stay sound in every run that withdraws untaken entries only. -/
theorem run_sound (txSize rxSize : ℕ) (htx : txSize ∣ 2 ^ 15) (hrx : rxSize ∣ 2 ^ 15)
    (steps : List (PcmStep β))
    (hg : Guarded PcmQueues.step PcmGuard (PcmQueues.new β txSize rxSize) steps) :
    (run PcmQueues.step (PcmQueues.new β txSize rxSize) steps).tx.Sound ∧
      (run PcmQueues.step (PcmQueues.new β txSize rxSize) steps).rx.Sound := by
  have hfresh : (PcmQueues.new β txSize rxSize).tx.Accounted ∧
      (PcmQueues.new β txSize rxSize).rx.Accounted :=
    ⟨LiveQueue.new_accounted txSize htx, LiveQueue.new_accounted rxSize hrx⟩
  have hend := hg.invariant (P := fun w => w.tx.Accounted ∧ w.rx.Accounted)
    PcmQueues.step_accounted hfresh
  exact ⟨hend.1.sound, hend.2.sound⟩

/-- Three TX buffers, one of them played before the other two are withdrawn out of order, and an RX
buffer that goes round. -/
theorem run_sound_withdrawn :
    let w := run PcmQueues.step (PcmQueues.new ℕ 8 4)
      [.tx (.submit ⟨0x1000, 2052⟩ ⟨0x2000, 8⟩ 1), .tx (.submit ⟨0x3000, 2052⟩ ⟨0x4000, 8⟩ 2),
        .tx (.submit ⟨0x5000, 2052⟩ ⟨0x6000, 8⟩ 3), .tx .take, .tx (.giveBack 0 8), .tx .reclaim,
        .rx (.submit ⟨0x7000, 4⟩ ⟨0x8000, 2056⟩ 1), .rx .take, .tx .detach, .tx .detach,
        .rx (.giveBack 0 2056), .rx .reclaim, .tx .take]
    w.tx.Sound ∧ w.rx.Sound := by
  apply run_sound 8 4
  · decide
  · decide
  · decide +kernel

/-- A buffer the device holds is detached: the available index falls behind the device, and the
descriptors the device is using are free. -/
theorem run_not_sound :
    let w := run PcmQueues.step (PcmQueues.new ℕ 8 4)
      [.tx (.submit ⟨0x1000, 2052⟩ ⟨0x2000, 8⟩ 1), .tx .take, .tx .reclaim, .tx .detach]
    w.tx.published < w.tx.taken ∧ w.tx.ring.availIdx = 0 ∧ w.tx.lastAvail = 1 ∧
      w.tx.held = [⟨0, [0, 1]⟩] ∧ 0 ∈ freeDescs w.tx.ring ∧ 1 ∈ freeDescs w.tx.ring := by
  decide +kernel

end Viosnd.VirtIO
