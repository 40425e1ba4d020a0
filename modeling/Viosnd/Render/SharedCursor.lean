import Viosnd.Render.PacketOrder

/-!
# The submit cursor the writer and the worker share

`SetWritePacket` runs on the client's thread and the submission loop on the worker's. Both store
`m_NextSubmitPacket`, and no lock is taken: the first packet announced moves the cursor, and a
submission that began before may put it back. Here both are cut at their accesses.
-/

namespace Viosnd.Render

open StepRun EffectSystem

/-! ## The accesses -/

inductive Branch where
  | packet (packetLength : ULONG)
  | silence
  | cyclic
  deriving DecidableEq

inductive SubmitPlace where
  | idle
  /-- The branch is taken. -/
  | chosen (b : Branch)
  /-- The argument `PacketNumber` is read. -/
  | called (b : Branch) (packetNumber : ULONG)
  /-- The buffer is queued; this value will be stored in `m_NextSubmitPacket`. -/
  | sent (b : Branch) (nextSubmitPacket : ULONG)
  deriving DecidableEq

/-- The arguments of a `SetWritePacket`. -/
structure Announcement where
  packetNumber : ULONG
  endOfStream : Bool
  eosPacketLength : ULONG

structure CursorWorld where
  world : World
  worker : SubmitPlace
  /-- A call that has not stored `m_LastOsWritePacket` yet. -/
  writer : Option Announcement

def CursorWorld.fresh (buffer : Option Memory)
    (bufferSize notificationCount packetSize : ULONG) : CursorWorld :=
  ⟨World.fresh buffer bufferSize notificationCount packetSize, .idle, none⟩

/-- The tests of the loop body. -/
def chooseBranch (w : World) : Option Branch :=
  if viosndHasWritableRenderPacket w.nextSubmitPacket w.lastOsWritePacket then
    some (.packet
      (if w.eosPacketNumber = w.nextSubmitPacket then w.eosPacketLength else w.packetSize))
  else if w.lastOsWritePacket = maxULONG then
    some (if w.renderPrerollPackets ≠ 0 then .silence else .cyclic)
  else none

def submitBranch (packetNumber : ULONG) (o : TxSubmit) (w : World) : Branch → NtStatus × World
  | .packet packetLength => submitRenderPacket packetNumber packetLength o w
  | .silence => submitRenderSilencePacket packetNumber o w
  | .cyclic => submitRenderPacket packetNumber w.packetSize o w

/-- `SetWritePacket` up to the store of `m_NextSubmitPacket`. -/
def beginWrite (i : Announcement) (w : World) : World :=
  { w with
    nextSubmitPacket := if w.lastOsWritePacket = maxULONG then i.packetNumber
      else w.nextSubmitPacket }

/-- The rest of `SetWritePacket`. -/
def finishWrite (i : Announcement) (w : World) : World :=
  let w := { w with
    lastOsWritePacket := i.packetNumber
    history := .wrote i.packetNumber :: w.history }
  if i.endOfStream then { w with
    eosPacketNumber := i.packetNumber
    eosPacketLength := if w.packetSize < i.eosPacketLength then w.packetSize
      else i.eosPacketLength }
  else if w.eosPacketNumber ≠ maxULONG ∧
      viosndPacketNumberLessOrEqual w.eosPacketNumber i.packetNumber then
    { w with eosPacketNumber := maxULONG, eosPacketLength := 0 }
  else w

inductive CursorAction where
  | setState (target : KsState) (i : SetStateInput)
  | getPosition (qpc : LONGLONG)
  | getPresentationPosition (qpc : LONGLONG)
  | beginWrite (i : Announcement)
  | finishWrite
  /-- A whole step of the worker. -/
  | worker (s : WorkerStep)
  /-- The tests of a submission; `late` when `m_State` was read earlier. -/
  | choose (late : Bool)
  | fetch
  | send (o : TxSubmit)
  | store

/-- The worker is in one submission at a time and the client in one call. A `SetState` waits for
the worker: a submission it interrupts is a whole step of its input. -/
def cursorStep (w : CursorWorld) : CursorAction → CursorWorld
  | .setState target i =>
      if w.worker = .idle ∧ w.writer.isNone then { w with world := (setState target i w.world).2 }
      else w
  | .getPosition qpc => { w with world := (getPosition qpc w.world).2 }
  | .getPresentationPosition qpc =>
      { w with world := (getOutputStreamPresentationPosition qpc w.world).2 }
  | .beginWrite i =>
      if w.writer.isNone ∧ ¬ (w.world.buffer.isNone ∨ w.world.packetSize = 0) then
        { w with world := beginWrite i w.world, writer := some i }
      else w
  | .finishWrite =>
      match w.writer with
      | none => w
      | some i => { w with world := finishWrite i w.world, writer := none }
  | .worker s => if w.worker = .idle then { w with world := workerStep w.world s } else w
  | .choose late =>
      if w.worker = .idle ∧ (late ∨ w.world.state = .run) ∧
          w.world.outstandingWrites < w.world.targetOutstanding then
        match chooseBranch w.world with
        | none => w
        | some b => { w with worker := .chosen b }
      else w
  | .fetch =>
      match w.worker with
      | .chosen b => { w with worker := .called b w.world.nextSubmitPacket }
      | _ => w
  | .send o =>
      match w.worker with
      | .called b packetNumber =>
          let r := submitBranch packetNumber o w.world b
          if r.1.isSuccess then
            { w with
              world := { r.2 with nextSubmitPacket := w.world.nextSubmitPacket }
              worker := .sent b r.2.nextSubmitPacket }
          else { w with world := r.2, worker := .idle }
      | _ => w
  | .store =>
      match w.worker with
      | .sent b nextSubmitPacket => { w with
          world := { w.world with
            nextSubmitPacket
            renderPrerollPackets := if b = .silence then w.world.renderPrerollPackets - 1
              else w.world.renderPrerollPackets }
          worker := .idle }
      | _ => w

/-! ## The pieces in a row -/

def noteSilence (b : Branch) (w : World) : World :=
  { w with
    renderPrerollPackets := if b = .silence then w.renderPrerollPackets - 1
      else w.renderPrerollPackets }

private theorem noteSilence_other {b : Branch} (hb : b ≠ .silence) (w : World) :
    noteSilence b w = w := by
  unfold noteSilence
  rw [if_neg hb]

private theorem submitNext_branch (o : TxSubmit) (w : World) :
    (submitNext o w).2 = match chooseBranch w with
      | none => w
      | some b =>
          let r := submitBranch w.nextSubmitPacket o w b
          if r.1.isSuccess then noteSilence b r.2 else r.2 := by
  unfold submitNext chooseBranch
  by_cases hwritable : viosndHasWritableRenderPacket w.nextSubmitPacket w.lastOsWritePacket = true
  · rw [if_pos hwritable, if_pos hwritable]
    dsimp only [submitBranch]
    rw [noteSilence_other (by simp), ite_self]
  rw [if_neg hwritable, if_neg hwritable]
  by_cases hcyclic : w.lastOsWritePacket = maxULONG
  · rw [if_pos hcyclic, if_pos hcyclic]
    by_cases hpreroll : w.renderPrerollPackets ≠ 0
    · rw [if_pos hpreroll, if_pos hpreroll]
      dsimp only [submitBranch]
      split <;> rfl
    · rw [if_neg hpreroll, if_neg hpreroll]
      dsimp only [submitBranch]
      rw [noteSilence_other (by simp), ite_self]
  · rw [if_neg hcyclic, if_neg hcyclic]

/-- Without another thread in between, the pieces are the worker's step. -/
theorem cursorStep_submitPass (o : TxSubmit) (w : World) (writer : Option Announcement) :
    run cursorStep ⟨w, .idle, writer⟩ [.choose false, .fetch, .send o, .store] =
      ⟨workerStep w (.submit o), .idle, writer⟩ := by
  change _ = (⟨(submitPass o w).2, .idle, writer⟩ : CursorWorld)
  unfold submitPass
  by_cases hpass : w.state = .run ∧ w.outstandingWrites < w.targetOutstanding
  · have hchoose : cursorStep ⟨w, .idle, writer⟩ (.choose false) = match chooseBranch w with
        | none => ⟨w, .idle, writer⟩
        | some b => ⟨w, .chosen b, writer⟩ := if_pos ⟨rfl, Or.inr hpass.1, hpass.2⟩
    rw [if_pos hpass, submitNext_branch, run_cons, hchoose]
    cases chooseBranch w with
    | none => rfl
    | some b =>
        dsimp only [run_cons, run_nil, cursorStep]
        by_cases hok : (submitBranch w.nextSubmitPacket o w b).1.isSuccess = true
        · rw [if_pos hok, if_pos hok]
          rfl
        · rw [if_neg hok, if_neg hok]
  · have hchoose : cursorStep ⟨w, .idle, writer⟩ (.choose false) = ⟨w, .idle, writer⟩ :=
      if_neg fun h => hpass ⟨h.2.1.resolve_left (by decide), h.2.2⟩
    rw [if_neg hpass, run_cons, hchoose]
    rfl

/-- Without another thread in between, both parts are the call. -/
theorem cursorStep_setWritePacket (i : Announcement) (w : World) (worker : SubmitPlace) :
    run cursorStep ⟨w, worker, none⟩ [.beginWrite i, .finishWrite] =
      ⟨(setWritePacket i.packetNumber i.endOfStream i.eosPacketLength w).2, worker, none⟩ := by
  unfold setWritePacket
  by_cases hok : w.buffer.isNone ∨ w.packetSize = 0
  · have hbegin : cursorStep ⟨w, worker, none⟩ (.beginWrite i) = ⟨w, worker, none⟩ :=
      if_neg fun h => h.2 hok
    rw [if_pos hok, run_cons, hbegin]
    rfl
  · have hbegin : cursorStep ⟨w, worker, none⟩ (.beginWrite i) =
        ⟨beginWrite i w, worker, some i⟩ := if_pos ⟨rfl, hok⟩
    rw [if_neg hok, run_cons, hbegin]
    rfl

/-! ## The guards -/

/-- The OS writes consecutive packets, never the sentinel, and does not stop the stream. -/
def AnnounceGuard (w : CursorWorld) : CursorAction → Prop
  | .setState target _ => target ≠ .stop
  | .beginWrite i => i.packetNumber ≠ maxULONG ∧
      ∀ last ∈ (writtenPackets w.world.history).getLast?, i.packetNumber = last + 1
  | _ => True

/-- The step begins a submission or reads its packet number. -/
def CursorAction.submits : CursorAction → Bool
  | .choose _ | .fetch | .worker (.submit _) | .worker (.submitLate _) => true
  | _ => false

def CursorAction.announces : CursorAction → Bool
  | .beginWrite _ => true
  | _ => false

/-- The first packet is announced while no cyclic submission holds a packet number, and none begins
or reads its packet number in the middle of that call. -/
def ApartGuard (w : CursorWorld) (a : CursorAction) : Prop :=
  w.world.lastOsWritePacket = maxULONG →
    (a.announces → w.worker = .idle ∨ w.worker = .chosen .cyclic) ∧
    (a.submits → w.writer.isNone)

instance (w : CursorWorld) (a : CursorAction) : Decidable (AnnounceGuard w a) :=
  match a with
  | .setState target _ => inferInstanceAs (Decidable (target ≠ .stop))
  | .beginWrite i =>
      -- the search goes over the packets written, not over all of `ULONG`
      have := Option.decidableForallMem (p := fun last => i.packetNumber = last + 1)
        (o := (writtenPackets w.world.history).getLast?)
      inferInstanceAs (Decidable (i.packetNumber ≠ maxULONG ∧
        ∀ last ∈ (writtenPackets w.world.history).getLast?, i.packetNumber = last + 1))
  | .getPosition _ | .getPresentationPosition _ | .finishWrite | .worker _ | .choose _ | .fetch
  | .send _ | .store => isTrue trivial

instance (w : CursorWorld) (a : CursorAction) : Decidable (ApartGuard w a) :=
  inferInstanceAs (Decidable (w.world.lastOsWritePacket = maxULONG →
    (a.announces → w.worker = .idle ∨ w.worker = .chosen .cyclic) ∧
    (a.submits → w.writer.isNone)))

/-! ## One submission -/

/-- What touches neither packet number, writes nothing and consumes nothing. -/
structure SameCursor (w w' : World) : Prop where
  last : w'.lastOsWritePacket = w.lastOsWritePacket
  next : w'.nextSubmitPacket = w.nextSubmitPacket
  written : writtenPackets w'.history = writtenPackets w.history
  consumed : consumedPackets w'.history = consumedPackets w.history

private theorem SameCursor.refl (w : World) : SameCursor w w := ⟨rfl, rfl, rfl, rfl⟩

private theorem Does.sameCursor {K : Finset Kind} {w w' : World} (h : Does K w w')
    (hK : .write ∉ K ∧ .reset ∉ K ∧ .silence ∉ K ∧ .packet ∉ K) : SameCursor w w' := by
  obtain ⟨hwrite, hreset, hsilence, hpacket⟩ := hK
  refine ⟨h.lastOsWritePacket_eq ⟨hwrite, hreset⟩,
    h.nextSubmitPacket_eq ⟨hwrite, hreset, hsilence, hpacket⟩, ?_, ?_⟩
  · exact h.keeps (fun w => writtenPackets w.history) fun _ hk _ _ hR =>
      hR.writtenPackets_eq fun he => hwrite (he ▸ hk)
  · exact h.keeps (fun w => consumedPackets w.history) fun _ hk _ _ hR =>
      hR.consumedPackets_eq fun he => hpacket (he ▸ hk)

/-- A block takes its own packet, or packets that are all writable. -/
private theorem renderBlock_takes (w : World) (memory : Memory) (packetNumber : ULONG)
    (block : FallbackBlock) (hblock : renderBlock w memory packetNumber = .ok block) :
    ∃ n, block.sources = packetsFrom packetNumber n ∧ (n = 1 ∨
      (w.lastOsWritePacket ≠ maxULONG → ∀ p ∈ packetsFrom packetNumber n,
        viosndPacketNumberLessOrEqual p w.lastOsWritePacket = true)) := by
  unfold renderBlock at hblock
  split at hblock
  · split at hblock
    · cases hblock
    · dsimp only at hblock
      split at hblock
      · cases hblock
      · cases hblock
        obtain ⟨n, hsources, hall⟩ :=
          fallbackBlock_sources w memory packetNumber 3 0 ⟨[], 0, [], w.renderFallbackPhase⟩ rfl
            (by simp)
        exact ⟨n, hsources, Or.inr hall⟩
  · cases hblock
    exact ⟨1, by simp [packetsFrom], Or.inl rfl⟩

/-- A submission takes consecutive packets from its packet number on, sends silence, or leaves
the cursor alone. -/
private inductive Sends (packetNumber : ULONG) (b : Branch) (w w' : World) : Prop where
  | block (n : Nat) (hb : b ≠ .silence) (hlast : w'.lastOsWritePacket = w.lastOsWritePacket)
      (hnext : w'.nextSubmitPacket = packetNumber + BitVec.ofNat 32 n)
      (hwritten : writtenPackets w'.history = writtenPackets w.history)
      (hconsumed : consumedPackets w'.history = if writtenPackets w.history = [] then []
        else consumedPackets w.history ++ packetsFrom packetNumber n)
      (hall : n = 1 ∨ (w.lastOsWritePacket ≠ maxULONG → ∀ p ∈ packetsFrom packetNumber n,
        viosndPacketNumberLessOrEqual p w.lastOsWritePacket = true))
  | silence (hb : b = .silence) (hlast : w'.lastOsWritePacket = w.lastOsWritePacket)
      (hwritten : writtenPackets w'.history = writtenPackets w.history)
  | refused (hsame : SameCursor w w')

private theorem Sends.frame {packetNumber : ULONG} {b : Branch} {w w' : World}
    (h : Sends packetNumber b w w') : w'.lastOsWritePacket = w.lastOsWritePacket ∧
      writtenPackets w'.history = writtenPackets w.history := by
  cases h with
  | block n hb hlast hnext hwritten => exact ⟨hlast, hwritten⟩
  | silence hb hlast hwritten => exact ⟨hlast, hwritten⟩
  | refused hsame => exact ⟨hsame.last, hsame.written⟩

private theorem submitRenderPacket_takes (packetNumber packetLength : ULONG) (o : TxSubmit)
    (w : World) (b : Branch) (hb : b ≠ .silence) :
    Sends packetNumber b w (submitRenderPacket packetNumber packetLength o w).2 ∧
      ((submitRenderPacket packetNumber packetLength o w).1.isSuccess ≠ true →
        SameCursor w (submitRenderPacket packetNumber packetLength o w).2) := by
  rcases submitRenderPacket_sends packetNumber packetLength o w with
    ⟨memory, block, entry, w₀, rfl, ⟨-, -, -, hblock⟩, hsends, -, heq⟩ |
    ⟨buffer, phase, -, status, hstatus, w', hrefuse, heq⟩
  · obtain ⟨n, hsources, hall⟩ := renderBlock_takes _ _ packetNumber block hblock
    rw [heq]
    refine ⟨.block n hb rfl ?_ rfl ?_ hall, fun h => absurd rfl h⟩
    · change entry.packetNumber + BitVec.ofNat 32 block.sources.length = _
      rw [hsources, packetsFrom_length, hsends.packetNumber]
    · change (if writtenPackets (.submitted entry :: w.history) = [] then []
        else consumedPackets (.submitted entry :: w.history) ++ block.sources) = _
      rw [hsources]
      rfl
  · rw [heq]
    have hsame : SameCursor { w with buffer := buffer, renderFallbackPhase := phase } w' :=
      hrefuse.sameCursor (by decide)
    have hall : SameCursor w w' := ⟨hsame.last, hsame.next, hsame.written, hsame.consumed⟩
    exact ⟨.refused hall, fun _ => hall⟩

private theorem submitBranch_sends (packetNumber : ULONG) (o : TxSubmit) (w : World) (b : Branch) :
    Sends packetNumber b w (submitBranch packetNumber o w b).2 ∧
      ((submitBranch packetNumber o w b).1.isSuccess ≠ true →
        SameCursor w (submitBranch packetNumber o w b).2) := by
  cases b with
  | packet packetLength => exact submitRenderPacket_takes packetNumber packetLength o w _ (by simp)
  | cyclic => exact submitRenderPacket_takes packetNumber w.packetSize o w _ (by simp)
  | silence =>
      change Sends packetNumber .silence w (submitRenderSilencePacket packetNumber o w).2 ∧ _
      rcases submitRenderSilencePacket_cases packetNumber o w with
        ⟨entry, hnumber, htop, heq⟩ | ⟨status, hstatus, w', hrefuse, heq⟩
      · rw [submitBranch, heq]
        exact ⟨.silence rfl rfl rfl, fun h => absurd rfl h⟩
      · rw [submitBranch, heq]
        have hsame : SameCursor w w' := Does.sameCursor hrefuse (by decide)
        exact ⟨.refused hsame, fun _ => hsame⟩

/-! ## The order -/

/-- The world once a store that is due has been made. -/
def CursorWorld.settled (w : CursorWorld) : World :=
  match w.worker with
  | .sent _ nextSubmitPacket => { w.world with nextSubmitPacket }
  | _ => w.world

/-- Nothing is written; a call in progress has set the cursor. -/
structure Unannounced (w : CursorWorld) : Prop where
  none : writtenPackets w.world.history = []
  sentinel : w.world.lastOsWritePacket = maxULONG
  announced : ∀ i, w.writer = some i → i.packetNumber ≠ maxULONG ∧
    w.world.nextSubmitPacket = i.packetNumber ∧ (w.worker = .idle ∨ w.worker = .chosen .cyclic)

/-- Packets `f` to `f + m - 1` are written, `f` to `f + n - 1` consumed, and a submission in
progress holds the next one. -/
structure Announced (w : CursorWorld) (f : ULONG) (n m : Nat) : Prop where
  inOrder : InOrder w.settled f n m
  announced : ∀ i, w.writer = some i →
    i.packetNumber ≠ maxULONG ∧ i.packetNumber = f + BitVec.ofNat 32 m
  chosen : ∀ b, w.worker = .chosen b → b ≠ .silence ∧ n < m
  called : ∀ b packetNumber, w.worker = .called b packetNumber →
    b ≠ .silence ∧ packetNumber = w.world.nextSubmitPacket ∧ n < m

def CursorOrdered (w : CursorWorld) : Prop := Unannounced w ∨ ∃ f n m, Announced w f n m

private theorem InOrder.unique {w w' : World} {f f' : ULONG} {n n' m m' : Nat}
    (h : InOrder w f n m) (h' : InOrder w' f' n' m')
    (hwritten : writtenPackets w'.history = writtenPackets w.history) : f' = f ∧ m' = m := by
  rw [h.written, h'.written] at hwritten
  have hlength := congrArg List.length hwritten
  rw [packetsFrom_length, packetsFrom_length] at hlength
  obtain ⟨k, hk⟩ : ∃ k, m = k + 1 := ⟨m - 1, by have := h.pos; omega⟩
  subst hlength
  subst hk
  have hhead := congrArg List.head? hwritten
  simp only [packetsFrom, List.range_succ_eq_map, List.map_cons, List.head?_cons,
    Option.some.injEq] at hhead
  refine ⟨?_, rfl⟩
  have hzero : ∀ p : ULONG, p + BitVec.ofNat 32 0 = p := fun p => BitVec.add_zero p
  rwa [hzero, hzero] at hhead

section

variable {w : CursorWorld}

private theorem settled_of_idle (h : w.worker = .idle) : w.settled = w.world := by
  unfold CursorWorld.settled
  rw [h]

private theorem settled_of_chosen {b : Branch} (h : w.worker = .chosen b) :
    w.settled = w.world := by
  unfold CursorWorld.settled
  rw [h]

private theorem settled_of_called {b : Branch} {packetNumber : ULONG}
    (h : w.worker = .called b packetNumber) : w.settled = w.world := by
  unfold CursorWorld.settled
  rw [h]

private theorem settled_same (w : CursorWorld) :
    w.settled.lastOsWritePacket = w.world.lastOsWritePacket ∧
      w.settled.history = w.world.history := by
  unfold CursorWorld.settled
  split <;> exact ⟨rfl, rfl⟩

private theorem CursorOrdered.aside (h : CursorOrdered w) {world : World}
    (hsame : SameCursor w.world world) : CursorOrdered { w with world } := by
  obtain ⟨hlast, hnext, hwritten, hconsumed⟩ := hsame
  rcases h with ⟨hnone, hsentinel, hannounced⟩ | ⟨f, n, m, horder, hannounced, hchosen, hcalled⟩
  · refine Or.inl ⟨hwritten.trans hnone, hlast.trans hsentinel, fun i hi => ?_⟩
    obtain ⟨hmax, hcursor, hworker⟩ := hannounced i hi
    exact ⟨hmax, hnext.trans hcursor, hworker⟩
  · refine Or.inr ⟨f, n, m, ?_, hannounced, hchosen, fun b p hp => ?_⟩
    · unfold CursorWorld.settled at horder ⊢
      cases hworker : w.worker with
      | sent b next =>
          rw [hworker] at horder
          exact horder.congr hlast rfl hwritten hconsumed
      | _ =>
          rw [hworker] at horder
          exact horder.congr hlast hnext hwritten hconsumed
    · obtain ⟨hb, hpacket, hlt⟩ := hcalled b p hp
      exact ⟨hb, hpacket.trans hnext.symm, hlt⟩

private theorem CursorOrdered.workerStep (h : CursorOrdered w) (s : WorkerStep)
    (hidle : w.worker = .idle) (hg : ApartGuard w (.worker s)) :
    CursorOrdered { w with world := workerStep w.world s } := by
  by_cases hsubmits : (CursorAction.worker s).submits = true
  swap
  · -- a step that does not submit
    refine h.aside ?_
    cases s with
    | reclaim o => exact (reclaimRenderPacket_does o w.world).sameCursor (by decide)
    | maybeSwitch qpc i =>
        exact (maybeSwitchRenderFallback_does qpc i w.world).sameCursor (by decide)
    | chooseTarget => exact (chooseTarget_does w.world).sameCursor (by decide)
    | submit o => exact absurd rfl hsubmits
    | submitLate o => exact absurd rfl hsubmits
  have hdoes := workerStep_does w.world s
  have hlast := hdoes.lastOsWritePacket_eq (by decide)
  have hwritten : writtenPackets (Render.workerStep w.world s).history =
      writtenPackets w.world.history :=
    hdoes.keeps (fun w => writtenPackets w.history) fun k hk _ _ hR =>
      hR.writtenPackets_eq fun he => absurd hk (by rw [he]; decide)
  rcases h with ⟨hnone, hsentinel, hannounced⟩ | ⟨f, n, m, horder, hannounced, hchosen, hcalled⟩
  · refine Or.inl ⟨hwritten.trans hnone, hlast.trans hsentinel, fun i hi => ?_⟩
    have hnowriter := (hg hsentinel).2 hsubmits
    rw [show w.writer = some i from hi] at hnowriter
    cases hnowriter
  · rw [settled_of_idle hidle] at horder
    rcases hdoes.ordered (by decide) (Or.inr ⟨f, n, m, horder⟩) with ⟨hnone, -⟩ | ⟨f', n', m', h'⟩
    · rw [hwritten, horder.written] at hnone
      have hlength := congrArg List.length hnone
      rw [packetsFrom_length] at hlength
      have hpos := horder.pos
      simp only [List.length_nil] at hlength
      omega
    · obtain ⟨rfl, rfl⟩ := horder.unique h' hwritten
      refine Or.inr ⟨_, n', _, ?_, hannounced, fun b hb => ?_, fun b p hp => ?_⟩
      · rw [settled_of_idle (w := { w with world := Render.workerStep w.world s }) hidle]
        exact h'
      · rw [show w.worker = .chosen b from hb] at hidle
        cases hidle
      · rw [show w.worker = .called b p from hp] at hidle
        cases hidle

private theorem chooseBranch_announced {f : ULONG} {n m : Nat} {b : Branch}
    (h : InOrder w.world f n m) (hchoose : chooseBranch w.world = some b) :
    b ≠ .silence ∧ n < m := by
  unfold chooseBranch at hchoose
  split at hchoose
  · rename_i hwritable
    simp only [viosndHasWritableRenderPacket, Bool.and_eq_true] at hwritable
    have hone : packetsFrom w.world.nextSubmitPacket 1 = [w.world.nextSubmitPacket] := by
      simp [packetsFrom]
    have hbehind := h.packets_behind 1 fun p hp => by
      rw [hone, List.mem_singleton] at hp
      rw [hp]
      exact hwritable.2
    cases hchoose
    exact ⟨by simp, hbehind⟩
  · rw [if_neg h.last_ne] at hchoose
    cases hchoose

private theorem CursorOrdered.choose (h : CursorOrdered w) (late : Bool)
    (hg : ApartGuard w (.choose late)) : CursorOrdered (cursorStep w (.choose late)) := by
  by_cases hpass : w.worker = .idle ∧ (late ∨ w.world.state = .run) ∧
      w.world.outstandingWrites < w.world.targetOutstanding
  swap
  · rw [show cursorStep w (.choose late) = w from if_neg hpass]
    exact h
  have hstep : cursorStep w (.choose late) = match chooseBranch w.world with
      | none => w
      | some b => { w with worker := .chosen b } := if_pos hpass
  rw [hstep]
  cases hchoose : chooseBranch w.world with
  | none => exact h
  | some b =>
      rcases h with ⟨hnone, hsentinel, hannounced⟩ | ⟨f, n, m, horder, hannounced, -, -⟩
      · refine Or.inl ⟨hnone, hsentinel, fun i hi => ?_⟩
        have hnowriter := (hg hsentinel).2 rfl
        rw [show w.writer = some i from hi] at hnowriter
        cases hnowriter
      · rw [settled_of_idle hpass.1] at horder
        refine Or.inr ⟨f, n, m, horder, hannounced, fun b' hb' => ?_, nofun⟩
        cases hb'
        exact chooseBranch_announced horder hchoose

private theorem CursorOrdered.fetch (h : CursorOrdered w) (hg : ApartGuard w .fetch) :
    CursorOrdered (cursorStep w .fetch) := by
  cases hworker : w.worker with
  | chosen b =>
      have hstep : cursorStep w .fetch =
          { w with worker := .called b w.world.nextSubmitPacket } := by
        simp only [cursorStep, hworker]
      rw [hstep]
      rcases h with ⟨hnone, hsentinel, hannounced⟩ | ⟨f, n, m, horder, hannounced, hchosen, -⟩
      · refine Or.inl ⟨hnone, hsentinel, fun i hi => ?_⟩
        have hnowriter := (hg hsentinel).2 rfl
        rw [show w.writer = some i from hi] at hnowriter
        cases hnowriter
      · rw [settled_of_chosen hworker] at horder
        obtain ⟨hb, hlt⟩ := hchosen b hworker
        refine Or.inr ⟨f, n, m, horder, hannounced, nofun, fun b' p hp => ?_⟩
        cases hp
        exact ⟨hb, rfl, hlt⟩
  | _ =>
      have hstep : cursorStep w .fetch = w := by simp only [cursorStep, hworker]
      rw [hstep]
      exact h

/-- A block that takes `count` packets from the next one on. -/
private theorem InOrder.send {f : ULONG} {n m count : Nat} {world : World}
    (h : InOrder w.world f n m) (hlt : n < m)
    (hlast : world.lastOsWritePacket = w.world.lastOsWritePacket)
    (hnext : world.nextSubmitPacket = w.world.nextSubmitPacket + BitVec.ofNat 32 count)
    (hwritten : writtenPackets world.history = writtenPackets w.world.history)
    (hconsumed : consumedPackets world.history = if writtenPackets w.world.history = [] then []
      else consumedPackets w.world.history ++ packetsFrom w.world.nextSubmitPacket count)
    (hall : count = 1 ∨ (w.world.lastOsWritePacket ≠ maxULONG →
      ∀ p ∈ packetsFrom w.world.nextSubmitPacket count,
        viosndPacketNumberLessOrEqual p w.world.lastOsWritePacket = true)) :
    InOrder world f (n + count) m := by
  have hbehind : n + count ≤ m := by
    rcases hall with rfl | hall
    · exact hlt
    · exact h.packets_behind count (hall h.last_ne)
  have hne : writtenPackets w.world.history ≠ [] := by
    intro hnil
    have hlength := congrArg List.length (h.written.symm.trans hnil)
    rw [packetsFrom_length, List.length_nil] at hlength
    have hpos := h.pos
    omega
  refine ⟨hwritten.trans h.written, h.pos, hlast.trans h.last, ?_, hbehind, h.room, ?_⟩
  · rw [hnext, h.next, BitVec.add_assoc, ← BitVec.ofNat_add]
  · rw [hconsumed, if_neg hne, h.consumed, h.next, packetsFrom_append]

private theorem CursorOrdered.send (h : CursorOrdered w) (o : TxSubmit) :
    CursorOrdered (cursorStep w (.send o)) := by
  cases hworker : w.worker with
  | called b packetNumber =>
      obtain ⟨hsends, hfailed⟩ := submitBranch_sends packetNumber o w.world b
      have hstep : cursorStep w (.send o) =
          let r := submitBranch packetNumber o w.world b
          if r.1.isSuccess then
            { w with
              world := { r.2 with nextSubmitPacket := w.world.nextSubmitPacket }
              worker := .sent b r.2.nextSubmitPacket }
          else { w with world := r.2, worker := .idle } := by
        simp only [cursorStep, hworker]
      rw [hstep]
      generalize submitBranch packetNumber o w.world b = r at hsends hfailed
      obtain ⟨status, world⟩ := r
      dsimp only at hsends hfailed ⊢
      -- what the writer finds when it comes between the accesses
      have hbusy : ∀ i, Unannounced w → w.writer ≠ some i := by
        intro i hw hi
        obtain ⟨-, -, hidle | hchosen⟩ := hw.announced i hi
        · rw [hworker] at hidle
          cases hidle
        · rw [hworker] at hchosen
          cases hchosen
      by_cases hok : status.isSuccess = true
      · rw [if_pos hok]
        obtain ⟨hlast, hwritten⟩ := hsends.frame
        rcases h with hw | ⟨f, n, m, horder, hannounced, -, hcalled⟩
        · exact Or.inl ⟨hwritten.trans hw.none, hlast.trans hw.sentinel,
            fun i hi => absurd hi (hbusy i hw)⟩
        · rw [settled_of_called hworker] at horder
          obtain ⟨hb, rfl, hlt⟩ := hcalled b packetNumber hworker
          obtain ⟨taken, horder'⟩ : ∃ taken, InOrder world f taken m := by
            cases hsends with
            | block count _ _ hnext _ hconsumed hall =>
                exact ⟨_, horder.send hlt hlast hnext hwritten hconsumed hall⟩
            | silence hsilent => exact absurd hsilent hb
            | refused hsame =>
                exact ⟨n, horder.congr hsame.last hsame.next hsame.written hsame.consumed⟩
          exact Or.inr ⟨f, taken, m, horder', hannounced, nofun, nofun⟩
      · rw [if_neg hok]
        obtain ⟨hlast, hnext, hwritten, hconsumed⟩ := hfailed hok
        rcases h with hw | ⟨f, n, m, horder, hannounced, -, -⟩
        · exact Or.inl ⟨hwritten.trans hw.none, hlast.trans hw.sentinel,
            fun i hi => absurd hi (hbusy i hw)⟩
        · rw [settled_of_called hworker] at horder
          exact Or.inr ⟨f, n, m, horder.congr hlast hnext hwritten hconsumed, hannounced, nofun,
            nofun⟩
  | _ =>
      have hstep : cursorStep w (.send o) = w := by simp only [cursorStep, hworker]
      rw [hstep]
      exact h

private theorem CursorOrdered.store (h : CursorOrdered w) :
    CursorOrdered (cursorStep w .store) := by
  cases hworker : w.worker with
  | sent b nextSubmitPacket =>
      have hstep : cursorStep w .store = { w with
          world := { w.world with
            nextSubmitPacket
            renderPrerollPackets := if b = .silence then w.world.renderPrerollPackets - 1
              else w.world.renderPrerollPackets }
          worker := .idle } := by
        simp only [cursorStep, hworker]
      rw [hstep]
      rcases h with ⟨hnone, hsentinel, hannounced⟩ | ⟨f, n, m, horder, hannounced, -, -⟩
      · refine Or.inl ⟨hnone, hsentinel, fun i hi => ?_⟩
        obtain ⟨-, -, hidle | hchosen⟩ := hannounced i hi
        · rw [hworker] at hidle
          cases hidle
        · rw [hworker] at hchosen
          cases hchosen
      · refine Or.inr ⟨f, n, m, ?_, hannounced, nofun, nofun⟩
        unfold CursorWorld.settled at horder ⊢
        rw [hworker] at horder
        exact horder.congr rfl rfl rfl rfl
  | _ =>
      have hstep : cursorStep w .store = w := by simp only [cursorStep, hworker]
      rw [hstep]
      exact h

private theorem CursorOrdered.beginWrite (h : CursorOrdered w) (i : Announcement)
    (hos : AnnounceGuard w (.beginWrite i)) (hg : ApartGuard w (.beginWrite i)) :
    CursorOrdered (cursorStep w (.beginWrite i)) := by
  by_cases hok : w.writer.isNone ∧ ¬ (w.world.buffer.isNone ∨ w.world.packetSize = 0)
  swap
  · rw [show cursorStep w (.beginWrite i) = w from if_neg hok]
    exact h
  rw [show cursorStep w (.beginWrite i) =
    { w with world := Render.beginWrite i w.world, writer := some i } from if_pos hok]
  obtain ⟨hmax, hconsecutive⟩ := hos
  rcases h with ⟨hnone, hsentinel, -⟩ | ⟨f, n, m, horder, -, hchosen, hcalled⟩
  · refine Or.inl ⟨hnone, hsentinel, fun j hj => ?_⟩
    cases hj
    exact ⟨hmax, if_pos hsentinel, (hg hsentinel).1 rfl⟩
  · obtain ⟨hlastSame, hhistorySame⟩ := settled_same w
    have hlast : w.world.lastOsWritePacket ≠ maxULONG := hlastSame ▸ horder.last_ne
    have hwritten : writtenPackets w.world.history = packetsFrom f m :=
      hhistorySame ▸ horder.written
    have hsame : Render.beginWrite i w.world = w.world := by
      unfold Render.beginWrite
      rw [if_neg hlast]
    rw [hsame]
    refine Or.inr ⟨f, n, m, horder, fun j hj => ?_, hchosen, hcalled⟩
    cases hj
    refine ⟨hmax, ?_⟩
    have hpos := horder.pos
    have hlast' := packetsFrom_getLast? f m hpos
    rw [← hwritten] at hlast'
    have hsucc := BitVec.ofNat_add (n := 32) (m - 1) 1
    rw [Nat.sub_add_cancel hpos] at hsucc
    rw [hconsecutive _ hlast', BitVec.add_assoc, hsucc]
    rfl

private theorem finishWrite_writes (i : Announcement) (world : World) :
    (finishWrite i world).lastOsWritePacket = i.packetNumber ∧
      (finishWrite i world).nextSubmitPacket = world.nextSubmitPacket ∧
      (finishWrite i world).history = .wrote i.packetNumber :: world.history := by
  unfold finishWrite
  dsimp only
  split
  · exact ⟨rfl, rfl, rfl⟩
  split
  · exact ⟨rfl, rfl, rfl⟩
  · exact ⟨rfl, rfl, rfl⟩

private theorem packet_room {p : ULONG} (hmax : p ≠ maxULONG) : p.toNat + 1 < 2 ^ 32 := by
  have hne : p.toNat ≠ 2 ^ 32 - 1 := fun h => hmax (BitVec.eq_of_toNat_eq h)
  have hlt := p.isLt
  omega

private theorem InOrder.first {world world' : World} {p : ULONG}
    (hnone : writtenPackets world.history = []) (hmax : p ≠ maxULONG)
    (hlast : world'.lastOsWritePacket = p) (hnext : world'.nextSubmitPacket = p)
    (hhistory : world'.history = .wrote p :: world.history) : InOrder world' p 0 1 := by
  refine ⟨?_, Nat.one_pos, ?_, ?_, Nat.zero_le 1, packet_room hmax, ?_⟩
  · rw [hhistory, writtenPackets_wrote, hnone]
    simp [packetsFrom]
  · rw [hlast]
    exact (BitVec.add_zero p).symm
  · rw [hnext]
    exact (BitVec.add_zero p).symm
  · rw [hhistory, packetsFrom_zero]
    exact consumedPackets_unwritten world.history hnone

private theorem InOrder.announce {f : ULONG} {n m : Nat} {world world' : World} {p : ULONG}
    (h : InOrder world f n m) (hmax : p ≠ maxULONG) (hp : p = f + BitVec.ofNat 32 m)
    (hlast : world'.lastOsWritePacket = p)
    (hnext : world'.nextSubmitPacket = world.nextSubmitPacket)
    (hhistory : world'.history = .wrote p :: world.history) : InOrder world' f n (m + 1) := by
  have hnat : p.toNat = f.toNat + m := by
    rw [hp, packet_toNat f m h.room]
  have hroom := packet_room hmax
  refine ⟨?_, Nat.succ_pos m, ?_, hnext.trans h.next, Nat.le_succ_of_le h.behind, by omega, ?_⟩
  · rw [hhistory, writtenPackets_wrote, h.written, packetsFrom_succ, hp]
  · rw [hlast, hp]
    rfl
  · rw [hhistory]
    exact h.consumed

private theorem CursorOrdered.finishWrite (h : CursorOrdered w) :
    CursorOrdered (cursorStep w .finishWrite) := by
  cases hwriter : w.writer with
  | none =>
      have hstep : cursorStep w .finishWrite = w := by simp only [cursorStep, hwriter]
      rw [hstep]
      exact h
  | some i =>
      have hstep : cursorStep w .finishWrite =
          { w with world := Render.finishWrite i w.world, writer := none } := by
        simp only [cursorStep, hwriter]
      rw [hstep]
      obtain ⟨hlast, hnext, hhistory⟩ := finishWrite_writes i w.world
      rcases h with ⟨hnone, hsentinel, hannounced⟩ | ⟨f, n, m, horder, hannounced, hchosen, hcalled⟩
      · obtain ⟨hmax, hcursor, hworker⟩ := hannounced i hwriter
        refine Or.inr ⟨i.packetNumber, 0, 1, ?_, nofun, fun b hb => ?_, fun b p hp => ?_⟩
        · have hsettled : ({ w with world := Render.finishWrite i w.world, writer := none } :
              CursorWorld).settled = Render.finishWrite i w.world := by
            rcases hworker with hidle | hchosen
            · exact settled_of_idle hidle
            · exact settled_of_chosen hchosen
          rw [hsettled]
          exact InOrder.first hnone hmax hlast (hnext.trans hcursor) hhistory
        · rcases hworker with hidle | hchosen
          · rw [show w.worker = .chosen b from hb] at hidle
            cases hidle
          · rw [show w.worker = .chosen b from hb] at hchosen
            cases hchosen
            exact ⟨by simp, Nat.one_pos⟩
        · rcases hworker with hidle | hchosen
          · rw [show w.worker = .called b p from hp] at hidle
            cases hidle
          · rw [show w.worker = .called b p from hp] at hchosen
            cases hchosen
      · obtain ⟨hmax, hp⟩ := hannounced i hwriter
        refine Or.inr ⟨f, n, m + 1, ?_, nofun, fun b hb => ?_, fun b p hp' => ?_⟩
        · unfold CursorWorld.settled at horder ⊢
          cases hworker : w.worker with
          | sent b next =>
              rw [hworker] at horder
              exact horder.announce hmax hp hlast rfl hhistory
          | _ =>
              rw [hworker] at horder
              exact horder.announce hmax hp hlast hnext hhistory
        · obtain ⟨hb', hlt⟩ := hchosen b hb
          exact ⟨hb', Nat.lt_succ_of_lt hlt⟩
        · obtain ⟨hb', hpacket, hlt⟩ := hcalled b p hp'
          exact ⟨hb', hpacket.trans hnext.symm, Nat.lt_succ_of_lt hlt⟩

private theorem CursorOrdered.setState (h : CursorOrdered w) (target : KsState) (i : SetStateInput)
    (htarget : target ≠ .stop) : CursorOrdered (cursorStep w (.setState target i)) := by
  by_cases hquiet : w.worker = .idle ∧ w.writer.isNone
  swap
  · rw [show cursorStep w (.setState target i) = w from if_neg hquiet]
    exact h
  rw [show cursorStep w (.setState target i) =
    { w with world := (Render.setState target i w.world).2 } from if_pos hquiet]
  obtain ⟨hidle, hnowriter⟩ := hquiet
  rw [Option.isNone_iff_eq_none] at hnowriter
  have hbefore : Ordered w.world := by
    rcases h with hw | ⟨f, n, m, hw⟩
    · exact Or.inl ⟨hw.none, hw.sentinel⟩
    · have horder := hw.inOrder
      rw [settled_of_idle hidle] at horder
      exact Or.inr ⟨f, n, m, horder⟩
  have hstop : ¬ (Action.setState target i).IsStop := by
    intro hstop
    cases target with
    | stop => exact htarget rfl
    | _ => exact hstop
  have hafter := Does.ordered (step_does_of w.world (.setState target i) nofun
    (Finset.Subset.refl callKinds) fun hs => absurd hs hstop) (by decide) hbefore
  have hnone : ∀ j, w.writer ≠ some j := by
    rw [hnowriter]
    exact nofun
  rcases hafter with ⟨hempty, hsentinel⟩ | ⟨f, n, m, horder⟩
  · exact Or.inl ⟨hempty, hsentinel, fun j hj => absurd hj (hnone j)⟩
  · refine Or.inr ⟨f, n, m, ?_, fun j hj => absurd hj (hnone j), fun b hb => ?_, fun b p hp => ?_⟩
    · rw [settled_of_idle (w := { w with world := (Render.setState target i w.world).2 }) hidle]
      exact horder
    · rw [show w.worker = .chosen b from hb] at hidle
      cases hidle
    · rw [show w.worker = .called b p from hp] at hidle
      cases hidle

private theorem cursorStep_ordered (w : CursorWorld) (a : CursorAction) (h : CursorOrdered w)
    (hos : AnnounceGuard w a) (hg : ApartGuard w a) : CursorOrdered (cursorStep w a) := by
  cases a with
  | setState target i => exact h.setState target i hos
  | getPosition qpc => exact h.aside ((getPosition_does qpc w.world).sameCursor (by decide))
  | getPresentationPosition qpc =>
      exact h.aside ((queryClock_does qpc w.world).sameCursor (by decide))
  | beginWrite i => exact h.beginWrite i hos hg
  | finishWrite => exact h.finishWrite
  | worker s =>
      by_cases hidle : w.worker = .idle
      · rw [show cursorStep w (.worker s) = { w with world := Render.workerStep w.world s } from
          if_pos hidle]
        exact h.workerStep s hidle hg
      · rw [show cursorStep w (.worker s) = w from if_neg hidle]
        exact h
  | choose late => exact h.choose late hg
  | fetch => exact h.fetch hg
  | send o => exact h.send o
  | store => exact h.store

end

/-! ## Runs -/

/-- The packets consumed are the packets written up to `m_NextSubmitPacket`, each once. -/
structure ConsumedInOrder (w : CursorWorld) (f : ULONG) : Prop where
  exact : (∀ b next, w.worker ≠ .sent b next) →
    consumedPackets w.world.history = packetsFrom f (w.world.nextSubmitPacket - f).toNat
  once : (consumedPackets w.world.history).Nodup
  written : ∀ p ∈ consumedPackets w.world.history, f ≤ p ∧ p ≤ w.world.lastOsWritePacket

private theorem Announced.first {w : CursorWorld} {f f' : ULONG} {n m : Nat}
    (hw : Announced w f n m) (hfirst : (writtenPackets w.world.history).head? = some f') :
    f = f' := by
  have hpos := hw.inOrder.pos
  have hwritten := hw.inOrder.written
  rw [(settled_same w).2] at hwritten
  obtain ⟨m, rfl⟩ : ∃ m', m = m' + 1 := ⟨m - 1, by omega⟩
  rw [hwritten, packetsFrom, List.range_succ_eq_map, List.map_cons, List.head?_cons] at hfirst
  have hzero : f + BitVec.ofNat 32 0 = f' := Option.some.inj hfirst
  rw [← hzero]
  exact (BitVec.add_zero f).symm

private theorem Announced.consumedInOrder {w : CursorWorld} {f : ULONG} {n m : Nat}
    (hw : Announced w f n m) : ConsumedInOrder w f := by
  have h := hw.inOrder
  obtain ⟨hlastSame, hhistorySame⟩ := settled_same w
  have hroom := h.room
  have hbehind := h.behind
  have hconsumed : consumedPackets w.world.history = packetsFrom f n :=
    hhistorySame ▸ h.consumed
  refine ⟨fun hstored => ?_, ?_, fun p hp => ?_⟩
  · have hnext : w.world.nextSubmitPacket = f + BitVec.ofNat 32 n := by
      have hsettled := h.next
      unfold CursorWorld.settled at hsettled
      split at hsettled
      · exact absurd ‹_› (hstored _ _)
      · exact hsettled
    have hcount : (w.world.nextSubmitPacket - f).toNat = n := by
      rw [hnext, BitVec.add_comm, BitVec.add_sub_cancel, BitVec.toNat_ofNat]
      exact Nat.mod_eq_of_lt (by omega)
    rw [hcount, hconsumed]
  · rw [hconsumed]
    exact packetsFrom_nodup f n (by omega)
  · rw [hconsumed] at hp
    obtain ⟨i, hi, rfl⟩ := (mem_packetsFrom _ _ _).mp hp
    have hnat := packet_toNat f i (by omega)
    have hlast := h.last_toNat
    rw [hlastSame] at hlast
    constructor
    · rw [BitVec.le_def, hnat]
      omega
    · rw [BitVec.le_def, hnat, hlast]
      omega

/-- Consecutive packets are consumed once each, in order, up to `m_NextSubmitPacket`, and none
beyond the last one written, unless the first one is announced in the middle of a cyclic
submission. -/
theorem run_cursorInOrder (buffer : Option Memory)
    (bufferSize notificationCount packetSize : ULONG) (actions : List CursorAction) (f : ULONG)
    (hos : Guarded cursorStep AnnounceGuard
      (CursorWorld.fresh buffer bufferSize notificationCount packetSize) actions)
    (hapart : Guarded cursorStep ApartGuard
      (CursorWorld.fresh buffer bufferSize notificationCount packetSize) actions)
    (hfirst : (writtenPackets (run cursorStep (CursorWorld.fresh buffer bufferSize
      notificationCount packetSize) actions).world.history).head? = some f) :
    ConsumedInOrder (run cursorStep
      (CursorWorld.fresh buffer bufferSize notificationCount packetSize) actions) f := by
  have hboth := (guarded_and _ _).mpr ⟨hos, hapart⟩
  have hordered := hboth.invariant (P := CursorOrdered)
    (fun w a h hg => cursorStep_ordered w a h hg.1 hg.2)
    (Or.inl ⟨rfl, rfl, nofun⟩)
  generalize run cursorStep (CursorWorld.fresh buffer bufferSize notificationCount packetSize)
    actions = w at hfirst hordered
  rcases hordered with hw | ⟨f', n, m, hw⟩
  · rw [hw.none] at hfirst
    cases hfirst
  · obtain rfl := hw.first hfirst
    exact hw.consumedInOrder

/-- A cyclic submission before the first packet, another that reads its packet number behind it, a
packet announced in the middle of a submission, a refused submission and a pause. -/
def announcedInTime : List CursorAction :=
  [.setState .run (.granted 1), .worker .chooseTarget, .worker (.reclaim (.used 0)),
    .worker (.submit .queued), .worker (.reclaim (.used 0)), .choose false,
    .beginWrite ⟨5, false, 0⟩, .finishWrite, .fetch, .send .queued, .store,
    .beginWrite ⟨6, false, 0⟩, .worker .chooseTarget, .finishWrite, .choose false, .fetch,
    .beginWrite ⟨7, false, 0⟩, .send .queued, .finishWrite, .store, .choose true, .fetch,
    .send .ringFull, .setState .pause (.granted 2), .setState .run (.granted 3),
    .worker .chooseTarget, .choose false, .fetch, .send .queued, .store]

theorem run_cursorInOrder_announcedInTime :
    ConsumedInOrder (run cursorStep (CursorWorld.fresh (some fun _ => 0) 32 8 4) announcedInTime)
      5 := by
  apply run_cursorInOrder
  · decide +kernel
  · decide +kernel
  · decide +kernel

/-- Packet 0 is announced while the cyclic submission of packet 2 is between its arguments and its
store. -/
def announcedTooSoon : List CursorAction :=
  [.setState .run (.granted 1), .worker .chooseTarget, .worker (.reclaim (.used 0)),
    .worker (.submit .queued), .worker (.reclaim (.used 0)), .worker (.submit .queued),
    .worker (.reclaim (.used 0)), .choose false, .fetch, .beginWrite ⟨0, false, 0⟩, .finishWrite,
    .send .queued, .store, .beginWrite ⟨1, false, 0⟩, .finishWrite, .beginWrite ⟨2, false, 0⟩,
    .finishWrite, .beginWrite ⟨3, false, 0⟩, .finishWrite, .beginWrite ⟨4, false, 0⟩, .finishWrite,
    .worker .chooseTarget, .worker (.submit .queued), .worker (.submit .queued)]

/-- Packets 0 and 1 are never played. -/
theorem run_not_cursorInOrder :
    Guarded cursorStep AnnounceGuard (CursorWorld.fresh (some fun _ => 0) 32 8 4)
      announcedTooSoon ∧
    let w := run cursorStep (CursorWorld.fresh (some fun _ => 0) 32 8 4) announcedTooSoon
    writtenPackets w.world.history = [0, 1, 2, 3, 4] ∧
      consumedPackets w.world.history = [2, 3, 4] ∧ w.world.nextSubmitPacket = 5 ∧
      ¬ ConsumedInOrder w 0 := by
  refine ⟨by decide +kernel, ?_⟩
  intro w
  have hconsumed : consumedPackets w.world.history = [2, 3, 4] := by decide +kernel
  have hnext : w.world.nextSubmitPacket = 5 := by decide +kernel
  have hidle : w.worker = .idle := by decide +kernel
  refine ⟨by decide +kernel, hconsumed, hnext, fun h => ?_⟩
  have hexact := h.exact (by rw [hidle]; exact nofun)
  rw [hconsumed, hnext] at hexact
  exact absurd hexact (by decide)

end Viosnd.Render
