import Viosnd.Lib.LossyWindow
import Viosnd.Capture.Effects

/-!
# The books of a capture session

A session begins where `SetState(KSSTATE_RUN)` resets the counters. While the device returns the
session's buffers in submission order, the packet counters are a window on the completed packets
that loses its oldest ones.
-/

namespace Viosnd.Capture

open StepRun EffectSystem LossyWindow

/-! ## The books -/

structure Books where
  /-- The buffers submitted, oldest first. -/
  submitted : List RxEntry
  /-- How many buffers the device returned. -/
  returned : Nat
  /-- The packets completed with success and their audio, newest first. -/
  stored : List (ULONG × List Byte)
  /-- The packets completed with an error. -/
  failed : List ULONG
  /-- The packets `GetReadPacket` handed out, newest first. -/
  handedOut : List ULONG
  dropped : List ULONG

def Books.empty : Books := ⟨[], 0, [], [], [], []⟩

def Books.enter (b : Books) : Event → Books
  | .begun => Books.empty
  | .submitted entry => { b with submitted := b.submitted ++ [entry] }
  | .returned _ => { b with returned := b.returned + 1 }
  | .stored packet audio => { b with stored := (packet, audio) :: b.stored }
  | .failed packet => { b with failed := packet :: b.failed }
  | .handedOut packet => { b with handedOut := packet :: b.handedOut }
  | .dropped first count => { b with dropped := packetsFrom first count.toNat ++ b.dropped }
  | _ => b

def books : List Event → Books
  | [] => Books.empty
  | e :: older => (books older).enter e

/-- Each buffer returned in the current session is the oldest one submitted in it that was not
returned before. -/
def ReturnedInOrder : List Event → Prop
  | [] => True
  | .begun :: _ => True
  | .returned entry :: older =>
      (books older).submitted[(books older).returned]? = some entry ∧ ReturnedInOrder older
  | _ :: older => ReturnedInOrder older

/-- The packets submitted in the current session have different numbers. -/
def FewPackets (history : List Event) : Prop := (books history).submitted.length < 2 ^ 32

instance returnedInOrder_decidable (history : List Event) : Decidable (ReturnedInOrder history) :=
  match history with
  | [] => isTrue trivial
  | .begun :: _ => isTrue trivial
  | .returned entry :: older =>
      have := returnedInOrder_decidable older
      inferInstanceAs (Decidable
        ((books older).submitted[(books older).returned]? = some entry ∧ ReturnedInOrder older))
  | .command _ _ :: older => returnedInOrder_decidable older
  | .submitted _ :: older => returnedInOrder_decidable older
  | .detached _ :: older => returnedInOrder_decidable older
  | .pooled _ :: older => returnedInOrder_decidable older
  | .freed _ :: older => returnedInOrder_decidable older
  | .stored _ _ :: older => returnedInOrder_decidable older
  | .failed _ :: older => returnedInOrder_decidable older
  | .dropped _ _ :: older => returnedInOrder_decidable older
  | .handedOut _ :: older => returnedInOrder_decidable older

instance fewPackets_decidable (history : List Event) : Decidable (FewPackets history) :=
  inferInstanceAs (Decidable ((books history).submitted.length < 2 ^ 32))

/-- The buffers of the current session came back in order, and its packets have different
numbers. -/
def Orderly (w : World) : Prop := ReturnedInOrder w.history ∧ FewPackets w.history

instance orderly_decidable (w : World) : Decidable (Orderly w) :=
  inferInstanceAs (Decidable (ReturnedInOrder w.history ∧ FewPackets w.history))

/-- A change of the pool, the queue, the thread, the latch or the state: it concerns no book. -/
structure SameBooks (w w' : World) : Prop where
  books : books w'.history = books w.history
  orderly : Orderly w' ↔ Orderly w
  buffer : w'.buffer = w.buffer
  packetSize : w'.packetSize = w.packetSize
  notificationCount : w'.notificationCount = w.notificationCount
  nextSubmitPacket : w'.nextSubmitPacket = w.nextSubmitPacket
  packetNumber : w'.packetNumber = w.packetNumber
  nextReadPacket : w'.nextReadPacket = w.nextReadPacket
  outstandingWrites : w'.outstandingWrites = w.outstandingWrites
  captureReadPackets : w'.captureReadPackets = w.captureReadPackets
  captureOverflows : w'.captureOverflows = w.captureOverflows
  position : w'.position = w.position

theorem SameBooks.refl (w : World) : SameBooks w w :=
  ⟨rfl, Iff.rfl, rfl, rfl, rfl, rfl, rfl, rfl, rfl, rfl, rfl, rfl⟩

theorem recycleCaptureIo_same (io : PcmIo) (w : World) :
    SameBooks w (recycleCaptureIo io w) := by
  rw [recycleCaptureIo_eq]
  split <;> exact ⟨rfl, Iff.rfl, rfl, rfl, rfl, rfl, rfl, rfl, rfl, rfl, rfl, rfl⟩

/-- What the changes of a session enter in the books. -/
inductive Booking : World → World → Prop where
  | nothing (w : World) : Booking w w
  | read (w : World) : Booking w (getReadPacket w).2.2.2
  | submit (entry : RxEntry) (w : World) (hsize : w.packetSize ≠ 0)
      (hlength : entry.audioLength = w.packetSize)
      (hnumber : entry.packetNumber = w.nextSubmitPacket) : Booking w (lendCaptureIo entry w)
  | fail (k : Nat) (entry : RxEntry) (w : World) : Booking w (failCapture k entry w)
  | complete (k : Nat) (entry : RxEntry) (bytesRead : ULONG) (audio : Memory) (w : World)
      (hfit : bytesRead ≤ entry.audioLength) :
      Booking w (completeCapture entry bytesRead audio (takeRx k entry w))

def sessionKinds : Finset Kind :=
  {.command, .thread, .latch, .enter, .read, .allocate, .free, .refuse, .submit, .complete}

def lastingKinds : Finset Kind := insert .detach sessionKinds

theorem Effect.booking {k : Kind} {w w' : World} (hR : Effect k w w') (hk : k ∈ lastingKinds) :
    ∃ u, Booking w u ∧ SameBooks u w' := by
  cases hR with
  | read => exact ⟨_, .read w, SameBooks.refl _⟩
  | submit entry _ _ hsize hlength hnumber =>
      exact ⟨_, .submit entry w hsize hlength hnumber, SameBooks.refl _⟩
  | fail k entry => exact ⟨_, .fail k entry w, recycleCaptureIo_same _ _⟩
  | complete k entry bytesRead audio _ _ hfit =>
      exact ⟨_, .complete k entry bytesRead audio w hfit, recycleCaptureIo_same _ _⟩
  | free =>
      refine ⟨w, .nothing w, ?_⟩
      rw [freeCaptureIo_eq]
      cases w.captureIoPool (w.captureIoFreeCount - 1) <;>
        exact ⟨rfl, Iff.rfl, rfl, rfl, rfl, rfl, rfl, rfl, rfl, rfl, rfl, rfl⟩
  | begin => exact absurd hk (by decide)
  | settle => exact absurd hk (by decide)
  | reset => exact absurd hk (by decide)
  | _ =>
      exact ⟨w, .nothing w, rfl, Iff.rfl, rfl, rfl, rfl, rfl, rfl, rfl, rfl, rfl, rfl, rfl⟩

/-! ## The window -/

/-- The packet counters as a window on the completed packets. -/
def window (w : World) : Window where
  written := w.packetNumber.toNat
  read := w.nextReadPacket.toNat
  taken := (books w.history).handedOut.map BitVec.toNat
  lost := (books w.history).dropped.map BitVec.toNat

structure Accounted (w : World) : Prop where
  sound : (window w).Sound w.notificationCount.toNat
  submitted : w.nextSubmitPacket.toNat = (books w.history).submitted.length
  numbered : ∀ (j : Nat) (entry : RxEntry), (books w.history).submitted[j]? = some entry →
    entry.packetNumber.toNat = j ∧ entry.audioLength = w.packetSize
  returned : (books w.history).returned ≤ (books w.history).submitted.length
  completed : w.packetNumber.toNat ≤ (books w.history).returned
  stored : ∀ s ∈ (books w.history).stored, s.1.toNat < w.packetNumber.toNat
  outstanding : w.nextReadPacket.toNat + w.outstandingWrites.toNat ≤ w.packetNumber.toNat
  reads : w.captureReadPackets.toNat = (books w.history).handedOut.length
  overflows : w.captureOverflows.toNat = (books w.history).dropped.length

/-- Throughout a session the cursors enclose what is outstanding. -/
def CursorExact (w : World) : Prop :=
  w.nextReadPacket.toNat + w.outstandingWrites.toNat = w.packetNumber.toNat

private theorem packetsFrom_map_toNat (first : ULONG) (n : Nat) (h : first.toNat + n ≤ 2 ^ 32) :
    (packetsFrom first n).map BitVec.toNat = List.range' first.toNat n := by
  unfold packetsFrom
  rw [List.range'_eq_map_range, List.map_map]
  apply List.map_congr_left
  intro i hi
  rw [List.mem_range] at hi
  simp only [Function.comp_apply, BitVec.toNat_add, BitVec.toNat_ofNat]
  rw [Nat.mod_eq_of_lt (a := i) (by omega), Nat.mod_eq_of_lt (by omega)]

section

variable {w w' : World}

theorem Accounted.congr (h : Accounted w) (hsame : SameBooks w w') : Accounted w' := by
  obtain ⟨h1, h2, h3, h4, h5, h6, h7, h8, h9⟩ := h
  have hwindow : window w' = window w := by
    unfold window
    rw [hsame.books, hsame.packetNumber, hsame.nextReadPacket]
  constructor
  · rwa [hwindow, hsame.notificationCount]
  · rwa [hsame.books, hsame.nextSubmitPacket]
  · rwa [hsame.books, hsame.packetSize]
  · rwa [hsame.books]
  · rwa [hsame.books, hsame.packetNumber]
  · rwa [hsame.books, hsame.packetNumber]
  · rwa [hsame.nextReadPacket, hsame.outstandingWrites, hsame.packetNumber]
  · rwa [hsame.books, hsame.captureReadPackets]
  · rwa [hsame.books, hsame.captureOverflows]

theorem beginCapture_accounted (w : World) : Accounted (beginCapture w) := by
  constructor
  · exact Window.empty_sound _
  · rfl
  · intro j entry hj
    cases hj
  · exact le_rfl
  · exact le_rfl
  · intro s hs
    cases hs
  · rfl
  · rfl
  · rfl

theorem Accounted.submit (h : Accounted w) (entry : RxEntry)
    (hlength : entry.audioLength = w.packetSize)
    (hnumber : entry.packetNumber = w.nextSubmitPacket)
    (hfew : FewPackets (lendCaptureIo entry w).history) : Accounted (lendCaptureIo entry w) := by
  have hsubmitted : (books (lendCaptureIo entry w).history).submitted =
      (books w.history).submitted ++ [entry] := rfl
  have hcount : (books w.history).submitted.length + 1 < 2 ^ 32 := by
    have hlt := hfew
    unfold FewPackets at hlt
    rwa [hsubmitted, List.length_append, List.length_singleton] at hlt
  have hnext := h.submitted
  refine ⟨h.sound, ?_, ?_, ?_, h.completed, h.stored, h.outstanding, h.reads, h.overflows⟩
  · have hadd : (w.nextSubmitPacket + 1).toNat = w.nextSubmitPacket.toNat + 1 := by
      have hone : (1 : ULONG).toNat = 1 := rfl
      rw [BitVec.toNat_add_of_lt (by omega), hone]
    rw [hsubmitted, List.length_append, List.length_singleton, ← hnext]
    exact hadd
  · intro j other hj
    rw [hsubmitted] at hj
    rcases Nat.lt_or_ge j (books w.history).submitted.length with hold | hnew
    · rw [List.getElem?_append_left hold] at hj
      exact h.numbered j other hj
    · rw [List.getElem?_append_right hnew, List.getElem?_singleton] at hj
      split at hj
      · obtain rfl := Option.some.inj hj
        rw [hnumber]
        exact ⟨by omega, hlength⟩
      · cases hj
  · have hreturned := h.returned
    rw [hsubmitted, List.length_append]
    exact Nat.le_add_right_of_le hreturned

/-- The buffer that comes back in order carries the number of the buffers that came before. -/
theorem Accounted.number (h : Accounted w) {entry : RxEntry}
    (hentry : (books w.history).submitted[(books w.history).returned]? = some entry) :
    entry.packetNumber.toNat = (books w.history).returned :=
  (h.numbered _ entry hentry).1

theorem Accounted.giveBack (h : Accounted w) (k : Nat) {entry : RxEntry}
    (hentry : (books w.history).submitted[(books w.history).returned]? = some entry) :
    Accounted (takeRx k entry w) := by
  obtain ⟨hlt, -⟩ := List.getElem?_eq_some_iff.mp hentry
  exact ⟨h.sound, h.submitted, h.numbered, hlt, Nat.le_succ_of_le h.completed, h.stored,
    h.outstanding, h.reads, h.overflows⟩

/-- The counting drops the packets the window is too long by. -/
private theorem countReady_accounts (w : World) (k : Nat)
    (hk : k = (window w).excess w.notificationCount.toNat w.packetNumber.toNat)
    (hready : w.nextReadPacket.toNat ≤ w.packetNumber.toNat)
    (hoverflows : w.captureOverflows.toNat ≤ w.nextReadPacket.toNat) :
    (countReady w).nextReadPacket.toNat = w.nextReadPacket.toNat + k ∧
      (countReady w).outstandingWrites.toNat = w.packetNumber.toNat - w.nextReadPacket.toNat - k ∧
      (countReady w).captureOverflows.toNat = w.captureOverflows.toNat + k ∧
      ∃ lost, lost.map BitVec.toNat = List.range' w.nextReadPacket.toNat k ∧
        books (countReady w).history =
          { books w.history with dropped := lost ++ (books w.history).dropped } := by
  have hlast := w.packetNumber.isLt
  have hdifference : (w.packetNumber - w.nextReadPacket).toNat =
      w.packetNumber.toNat - w.nextReadPacket.toNat := BitVec.toNat_sub_of_le hready
  unfold window Window.excess at hk
  dsimp only at hk
  unfold countReady
  dsimp only
  split_ifs with hlong
  · have hcount : w.notificationCount.toNat < w.packetNumber.toNat - w.nextReadPacket.toNat := by
      rw [← hdifference]
      exact hlong
    have hdropped : (w.packetNumber - w.nextReadPacket - w.notificationCount).toNat = k := by
      rw [BitVec.toNat_sub_of_le (BitVec.le_of_lt hlong), hdifference, hk]
    refine ⟨?_, ?_, ?_, _, ?_, rfl⟩
    · dsimp only
      rw [BitVec.toNat_add_of_lt (by omega), hdropped]
    · dsimp only
      omega
    · dsimp only
      rw [BitVec.toNat_add_of_lt (by omega), hdropped]
    · rw [packetsFrom_map_toNat _ _ (by omega), hdropped]
  · have hcount : w.packetNumber.toNat - w.nextReadPacket.toNat ≤ w.notificationCount.toNat := by
      rw [← hdifference]
      exact BitVec.not_lt.mp hlong
    have hzero : k = 0 := by omega
    refine ⟨?_, ?_, ?_, [], ?_, rfl⟩
    · dsimp only
      omega
    · dsimp only
      omega
    · dsimp only
      omega
    · rw [hzero]
      rfl

private theorem Accounted.overflows_le (h : Accounted w) :
    w.captureOverflows.toNat ≤ w.nextReadPacket.toNat := by
  have hlength := h.sound.once.length_eq
  rw [List.length_append, List.length_range] at hlength
  simp only [window, List.length_map] at hlength
  rw [h.overflows]
  omega

theorem Accounted.complete (h : Accounted w) (entry : RxEntry) (bytesRead : ULONG)
    (audio : Memory) (hnew : w.packetNumber.toNat ≤ entry.packetNumber.toNat)
    (hreturned : entry.packetNumber.toNat + 1 = (books w.history).returned)
    (hfew : FewPackets w.history) :
    Accounted (completeCapture entry bytesRead audio w) ∧
      CursorExact (completeCapture entry bytesRead audio w) := by
  have hone : (1 : ULONG).toNat = 1 := rfl
  have hlast : (entry.packetNumber + 1).toNat = entry.packetNumber.toNat + 1 := by
    have hle := h.returned
    unfold FewPackets at hfew
    rw [BitVec.toNat_add_of_lt (by omega), hone]
  have hready := h.sound.ready
  change w.nextReadPacket.toNat ≤ w.packetNumber.toNat at hready
  obtain ⟨hread, hout, hoverflows, lost, hlost, hbooks⟩ := countReady_accounts
    { w with
      buffer := w.buffer.map fun memory => storeAudio w memory entry.packetNumber bytesRead audio
      packetNumber := entry.packetNumber + 1
      position := w.position + w.packetSize.setWidth 64
      history := .stored entry.packetNumber (audio.slice 0 bytesRead.toNat) :: w.history }
    ((window w).excess w.notificationCount.toNat (entry.packetNumber.toNat + 1))
    (by rw [← hlast]; rfl) (by dsimp only; omega) h.overflows_le
  dsimp only at hread hout hoverflows hlost hbooks
  rw [hlast] at hout
  change (completeCapture entry bytesRead audio w).nextReadPacket.toNat = _ at hread
  change (completeCapture entry bytesRead audio w).outstandingWrites.toNat = _ at hout
  change (completeCapture entry bytesRead audio w).captureOverflows.toNat = _ at hoverflows
  change books (completeCapture entry bytesRead audio w).history = _ at hbooks
  have hwindow : window (completeCapture entry bytesRead audio w) =
      (window w).write w.notificationCount.toNat entry.packetNumber.toNat := by
    unfold window Window.write
    rw [hbooks, hread, completeCapture_eq]
    dsimp only
    rw [hlast, List.map_append, hlost]
    rfl
  have hsound := h.sound.write hnew
  have hexact : CursorExact (completeCapture entry bytesRead audio w) := by
    have hpacket : (completeCapture entry bytesRead audio w).packetNumber =
        entry.packetNumber + 1 := by rw [completeCapture_eq]
    have hle : w.nextReadPacket.toNat + (window w).excess w.notificationCount.toNat
        (entry.packetNumber.toNat + 1) ≤ entry.packetNumber.toNat + 1 := hsound.ready
    unfold CursorExact
    rw [hread, hout, hpacket, hlast]
    omega
  refine ⟨⟨?_, ?_, ?_, ?_, ?_, ?_, hexact.le, ?_, ?_⟩, hexact⟩
  · rw [hwindow, completeCapture_eq]
    exact hsound
  · rw [hbooks, completeCapture_eq]
    exact h.submitted
  · rw [hbooks, completeCapture_eq]
    exact h.numbered
  · rw [hbooks]
    exact h.returned
  · rw [hbooks, completeCapture_eq]
    dsimp only
    rw [hlast]
    exact hreturned.le
  · rw [hbooks, completeCapture_eq]
    dsimp only
    intro s hs
    rw [hlast]
    rcases List.mem_cons.mp hs with rfl | hs
    · exact Nat.lt_succ_self _
    · have hold := h.stored s hs
      omega
  · rw [hbooks, completeCapture_eq]
    exact h.reads
  · have hlength := congrArg List.length hlost
    rw [List.length_map, List.length_range'] at hlength
    rw [hbooks, hoverflows, h.overflows, List.length_append, hlength]
    exact Nat.add_comm _ _

/-! ## Order -/

theorem takeRx_orderly (k : Nat) (entry : RxEntry) (w : World) :
    Orderly (takeRx k entry w) ↔
      (books w.history).submitted[(books w.history).returned]? = some entry ∧ Orderly w :=
  and_assoc

theorem failCapture_orderly (k : Nat) (entry : RxEntry) (w : World) :
    Orderly (failCapture k entry w) ↔
      (books w.history).submitted[(books w.history).returned]? = some entry ∧ Orderly w :=
  and_assoc

theorem completeCapture_orderly (entry : RxEntry) (bytesRead : ULONG) (audio : Memory)
    (w : World) : Orderly (completeCapture entry bytesRead audio w) ↔ Orderly w := by
  unfold Orderly
  rcases completeCapture_stores entry bytesRead audio w with hsame | ⟨first, count, hdropped⟩
  · rw [hsame]
    exact Iff.rfl
  · rw [hdropped]
    exact Iff.rfl

theorem lendCaptureIo_orderly (entry : RxEntry) (w : World)
    (h : Orderly (lendCaptureIo entry w)) : Orderly w := by
  obtain ⟨horder, hfew⟩ := h
  have hlength : ((books w.history).submitted ++ [entry]).length < 2 ^ 32 := hfew
  rw [List.length_append] at hlength
  exact ⟨horder, Nat.lt_of_le_of_lt (Nat.le_add_right _ _) hlength⟩

theorem getReadPacket_orderly (w : World) : Orderly (getReadPacket w).2.2.2 ↔ Orderly w := by
  unfold getReadPacket
  split_ifs <;> exact Iff.rfl

/-! ## Every change of a session keeps the books -/

theorem Accounted.read (h : Accounted w) : Accounted (getReadPacket w).2.2.2 := by
  unfold getReadPacket
  split_ifs with hbuffer hstate
  · exact h
  · exact h
  rw [not_or] at hstate
  have hone : (1 : ULONG).toNat = 1 := rfl
  have hcursor := h.outstanding
  have hlast := w.packetNumber.isLt
  have hpositive : w.outstandingWrites.toNat ≠ 0 := fun hzero =>
    hstate.2 (BitVec.eq_of_toNat_eq hzero)
  have hnext : (w.nextReadPacket + 1).toNat = w.nextReadPacket.toNat + 1 := by
    rw [BitVec.toNat_add_of_lt (by omega), hone]
  have hless : (w.outstandingWrites - 1).toNat = w.outstandingWrites.toNat - 1 := by
    rw [BitVec.toNat_sub_of_le, hone]
    rw [BitVec.le_def, hone]
    omega
  have hready : (window w).read < (window w).written := by
    change w.nextReadPacket.toNat < w.packetNumber.toNat
    omega
  have hsound := h.sound.take hready
  have hreads := h.reads
  have hlength := h.sound.once.length_eq
  rw [List.length_append, List.length_range] at hlength
  simp only [window, List.length_map] at hlength
  refine ⟨?_, h.submitted, h.numbered, h.returned, h.completed, h.stored, ?_, ?_, h.overflows⟩
  · unfold window Window.take at hsound
    unfold window
    dsimp only at hsound ⊢
    rw [hnext]
    exact hsound
  · dsimp only
    omega
  · have hcount : (w.captureReadPackets + 1).toNat = w.captureReadPackets.toNat + 1 := by
      rw [BitVec.toNat_add_of_lt (by omega), hone]
    dsimp only
    rw [hcount, hreads]
    rfl

theorem Accounted.fail (h : Accounted w) (k : Nat) {entry : RxEntry}
    (hentry : (books w.history).submitted[(books w.history).returned]? = some entry) :
    Accounted (failCapture k entry w) := by
  obtain ⟨h1, h2, h3, h4, h5, h6, h7, h8, h9⟩ := h.giveBack k hentry
  exact ⟨h1, h2, h3, h4, h5, h6, h7, h8, h9⟩

private theorem Accounted.giveBack_complete (h : Accounted w) (k : Nat) (entry : RxEntry)
    (bytesRead : ULONG) (audio : Memory)
    (hentry : (books w.history).submitted[(books w.history).returned]? = some entry)
    (hfew : FewPackets w.history) :
    Accounted (completeCapture entry bytesRead audio (takeRx k entry w)) ∧
      CursorExact (completeCapture entry bytesRead audio (takeRx k entry w)) := by
  have hnumber := h.number hentry
  have hcompleted := h.completed
  exact (h.giveBack k hentry).complete entry bytesRead audio (hcompleted.trans hnumber.ge)
    (congrArg (· + 1) hnumber) hfew

theorem Booking.orderly (hR : Booking w w') (horderly : Orderly w') : Orderly w := by
  cases hR with
  | nothing => exact horderly
  | read => exact (getReadPacket_orderly w).mp horderly
  | submit entry => exact lendCaptureIo_orderly entry w horderly
  | fail k entry => exact ((failCapture_orderly k entry w).mp horderly).2
  | complete k entry bytesRead audio =>
      exact ((takeRx_orderly k entry w).mp
        ((completeCapture_orderly entry bytesRead audio _).mp horderly)).2

/-- While the buffers come back in order, the counters follow the books. -/
theorem Booking.accounted (hR : Booking w w') (h : Orderly w → Accounted w) :
    Orderly w' → Accounted w' := by
  intro horderly
  cases hR with
  | nothing => exact h horderly
  | read => exact (h ((getReadPacket_orderly w).mp horderly)).read
  | submit entry _ _ hlength hnumber =>
      exact (h (lendCaptureIo_orderly entry w horderly)).submit entry hlength hnumber horderly.2
  | fail k entry =>
      obtain ⟨hentry, hw⟩ := (failCapture_orderly k entry w).mp horderly
      exact (h hw).fail k hentry
  | complete k entry bytesRead audio =>
      obtain ⟨hentry, hw⟩ := (takeRx_orderly k entry w).mp
        ((completeCapture_orderly entry bytesRead audio _).mp horderly)
      exact ((h hw).giveBack_complete k entry bytesRead audio hentry hw.2).1

private theorem getReadPacket_cursor (hexact : CursorExact w) :
    CursorExact (getReadPacket w).2.2.2 := by
  unfold CursorExact at hexact ⊢
  unfold getReadPacket
  split_ifs with hbuffer hstate
  · exact hexact
  · exact hexact
  rw [not_or] at hstate
  have hone : (1 : ULONG).toNat = 1 := rfl
  have hlast := w.packetNumber.isLt
  have hpositive : w.outstandingWrites.toNat ≠ 0 := fun hzero =>
    hstate.2 (BitVec.eq_of_toNat_eq hzero)
  have hnext : (w.nextReadPacket + 1).toNat = w.nextReadPacket.toNat + 1 := by
    rw [BitVec.toNat_add_of_lt (by omega), hone]
  have hless : (w.outstandingWrites - 1).toNat = w.outstandingWrites.toNat - 1 := by
    rw [BitVec.toNat_sub_of_le, hone]
    rw [BitVec.le_def, hone]
    omega
  dsimp only
  omega

private theorem Booking.cursorExact (hR : Booking w w')
    (h : Orderly w → Accounted w ∧ CursorExact w) : Orderly w' → CursorExact w' := by
  intro horderly
  cases hR with
  | nothing => exact (h horderly).2
  | read =>
      exact getReadPacket_cursor (h ((getReadPacket_orderly w).mp horderly)).2
  | submit entry => exact (h (lendCaptureIo_orderly entry w horderly)).2
  | fail k entry => exact (h ((failCapture_orderly k entry w).mp horderly).2).2
  | complete k entry bytesRead audio =>
      obtain ⟨hentry, hw⟩ := (takeRx_orderly k entry w).mp
        ((completeCapture_orderly entry bytesRead audio _).mp horderly)
      exact ((h hw).1.giveBack_complete k entry bytesRead audio hentry hw.2).2

end

/-! ## Runs -/

/-- The property holds when a session begins, and what concerns no book and what is entered in the
books of a session preserve it. -/
structure SessionInvariant (P : World → Prop) : Prop where
  begun : ∀ w, P (beginCapture w)
  same : ∀ w w', SameBooks w w' → P w → P w'
  booked : ∀ w w', Booking w w' → P w → P w'

theorem SessionInvariant.does {P : World → Prop} (hP : SessionInvariant P) {K : Finset Kind}
    {w w' : World} (h : Does K w w') (hK : K ⊆ lastingKinds) (hw : P w) : P w' := by
  refine h.invariant ?_ hw
  intro k hk u v hR hu
  obtain ⟨t, hbooking, hsame⟩ := hR.booking (hK hk)
  exact hP.same t v hsame (hP.booked u t hbooking hu)

theorem SessionInvariant.afterStep {P : World → Prop} (hP : SessionInvariant P) (w : World)
    (a : Action) (hw : w.state = .run → P w) (hstate : (step w a).state = .run) :
    P (step w a) := by
  cases a with
  | setState target i =>
      change (setState target i w).2.state = .run at hstate
      change P (setState target i w).2
      by_cases hrun : w.state = .run
      · by_cases htarget : target = .run
        · rw [setState_other target i w (iff_of_true htarget hrun)]
          exact hP.does (Does.one (.enter target w)) (by decide) (hw hrun)
        · rw [setState_stop target i w htarget hrun,
            (stopCapture_does target i w).state_eq (by decide)] at hstate
          exact absurd hstate htarget
      · by_cases htarget : target = .run
        · subst htarget
          rw [setState_start i w hrun] at hstate ⊢
          by_cases hok : (startCapture i w).1 = .success
          · exact hP.does (startCapture_success_does i w hok).1 (by decide) (hP.begun w)
          · rw [startCapture_failure_state i w hok] at hstate
            exact absurd hstate hrun
        · rw [setState_other target i w (iff_of_false htarget hrun)] at hstate
          exact absurd hstate htarget
  | worker s =>
      have hdoes := workerStep_does w s
      have hsame : (step w (.worker s)).state = w.state := hdoes.state_eq (by decide)
      exact hP.does hdoes (by decide) (hw (hsame ▸ hstate))
  | getReadPacket =>
      have hdoes := Does.one (.read w)
      have hsame : (step w .getReadPacket).state = w.state := hdoes.state_eq (by decide)
      exact hP.does hdoes (by decide) (hw (hsame ▸ hstate))

theorem SessionInvariant.inRun {P : World → Prop} (hP : SessionInvariant P)
    (allocated : Option ULONG) (actions : List Action)
    (hstate : (run step (World.fresh allocated) actions).state = .run) :
    P (run step (World.fresh allocated) actions) := by
  refine run_invariant (P := fun w => w.state = .run → P w) hP.afterStep actions ?_ hstate
  intro hfresh
  cases hfresh

theorem accounted_sessionInvariant :
    SessionInvariant fun w => Orderly w → Accounted w ∧ CursorExact w := by
  constructor
  · intro w _
    exact ⟨beginCapture_accounted w, rfl⟩
  · intro w w' hsame h horderly
    obtain ⟨haccounted, hexact⟩ := h (hsame.orderly.mp horderly)
    unfold CursorExact at hexact ⊢
    rw [hsame.nextReadPacket, hsame.outstandingWrites, hsame.packetNumber]
    exact ⟨haccounted.congr hsame, hexact⟩
  · intro w w' hR h horderly
    exact ⟨hR.accounted (fun ho => (h ho).1) horderly, hR.cursorExact h horderly⟩

theorem run_accounted (allocated : Option ULONG) (actions : List Action)
    (hstate : (run step (World.fresh allocated) actions).state = .run)
    (horder : Orderly (run step (World.fresh allocated) actions)) :
    Accounted (run step (World.fresh allocated) actions) ∧
      CursorExact (run step (World.fresh allocated) actions) :=
  accounted_sessionInvariant.inRun allocated actions hstate horder

/-! ## Packets between the device and the reader -/

/-- The packet counters of a session: what is unread lies between the cursors and fits the buffer,
and every packet before the read cursor was either handed out, in order, or dropped. -/
structure PacketAccounting (w : World) : Prop where
  cursor : w.nextReadPacket.toNat + w.outstandingWrites.toNat = w.packetNumber.toNat
  bounded : w.outstandingWrites ≤ w.notificationCount
  counted : w.captureReadPackets.toNat + w.captureOverflows.toNat = w.nextReadPacket.toNat
  reads : (books w.history).handedOut.length = w.captureReadPackets.toNat
  overflows : (books w.history).dropped.length = w.captureOverflows.toNat
  increasing : (books w.history).handedOut.Pairwise (· > ·)
  once : ((books w.history).handedOut ++ (books w.history).dropped).Perm
    (packetsFrom 0 w.nextReadPacket.toNat)
  completed : ∀ s ∈ (books w.history).stored, s.1 < w.packetNumber

/-- The packet `GetReadPacket` hands out is completed, still in the buffer, and later than all
those handed out before. -/
def NextInWindow (w : World) (packet : ULONG) (w' : World) : Prop :=
  packet < w.packetNumber ∧ w.packetNumber.toNat ≤ packet.toNat + w.notificationCount.toNat ∧
    (∀ earlier ∈ (books w.history).handedOut, earlier < packet) ∧
    (books w'.history).handedOut = packet :: (books w.history).handedOut

section

variable {w : World}

theorem Accounted.once (h : Accounted w) :
    ((books w.history).handedOut ++ (books w.history).dropped).Perm
      (packetsFrom 0 w.nextReadPacket.toNat) := by
  have hlast := w.nextReadPacket.isLt
  have hperm := h.sound.once
  have hrange : List.range w.nextReadPacket.toNat =
      (packetsFrom 0 w.nextReadPacket.toNat).map BitVec.toNat := by
    have hzero : (0 : ULONG).toNat = 0 := rfl
    rw [packetsFrom_map_toNat 0 _ (by omega), hzero, List.range_eq_range']
  simp only [window] at hperm
  rw [hrange, ← List.map_append] at hperm
  exact (List.map_perm_map_iff (fun a b => BitVec.eq_of_toNat_eq)).mp hperm

theorem Accounted.packetAccounting (h : Accounted w) (hcursor : CursorExact w) :
    PacketAccounting w := by
  have hfits := h.sound.fits
  unfold CursorExact at hcursor
  have hlength := h.sound.once.length_eq
  rw [List.length_append, List.length_range] at hlength
  simp only [window, List.length_map] at hfits hlength
  refine ⟨hcursor, ?_, ?_, h.reads.symm, h.overflows.symm, ?_, h.once, h.stored⟩
  · rw [BitVec.le_def]
    omega
  · rw [h.reads, h.overflows, hlength]
  · have hincreasing : ((books w.history).handedOut.map BitVec.toNat).Pairwise (· > ·) :=
      h.sound.increasing
    rw [List.pairwise_map] at hincreasing
    exact hincreasing

theorem Accounted.nextInWindow (h : Accounted w) {packet : ULONG} {more : Bool} {w' : World}
    (hread : getReadPacket w = (.success, packet, more, w')) : NextInWindow w packet w' := by
  unfold getReadPacket at hread
  split_ifs at hread with hbuffer hstate
  · simp only [Prod.mk.injEq, reduceCtorEq, false_and] at hread
  · simp only [Prod.mk.injEq, reduceCtorEq, false_and] at hread
  · rw [not_or] at hstate
    simp only [Prod.mk.injEq, true_and] at hread
    obtain ⟨rfl, -, rfl⟩ := hread
    have hcursor := h.outstanding
    have hfits := h.sound.fits
    have hpositive : w.outstandingWrites.toNat ≠ 0 := fun hzero =>
      hstate.2 (BitVec.eq_of_toNat_eq hzero)
    refine ⟨?_, hfits, ?_, rfl⟩
    · rw [BitVec.lt_def]
      omega
    · intro earlier hearlier
      exact h.sound.taken_lt (List.mem_map_of_mem hearlier)

end

end Viosnd.Capture
