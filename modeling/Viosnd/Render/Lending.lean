import Viosnd.Lib.Loans
import Viosnd.Render.Stock

/-!
# Lent render buffers

Two parties hold a submitted buffer: the TX queue until the device returns it or the driver takes
it off, and the device until it returns it or accepts a RELEASE. For both, what is lent is on the
queue, and no change but a detach can break a loan.
-/

namespace Viosnd.Render

open StepRun EffectSystem Loans

inductive Holder where
  | device
  | queue
  deriving DecidableEq

/-- An event as the driver and the holder see a buffer change hands. -/
def Event.loan (v : Holder) : Event → Option (Loans.Event Nat)
  | .submitted entry => some (.lend entry.io.id)
  | .returned entry => some (.giveBack entry.io.id)
  | .detached entry =>
      match v with
      | .queue => some (.giveBack entry.io.id)
      | .device => none
  | .command .release true =>
      match v with
      | .queue => none
      | .device => some .giveUpAll
  | .pooled io => some (.reuse io.id)
  | .freed io => some (.reuse io.id)
  | _ => none

def loans (v : Holder) (history : List Event) : List (Loans.Event Nat) :=
  history.filterMap (Event.loan v)

private theorem loans_cons_of_none (v : Holder) (e : Event) (history : List Event)
    (he : e.loan v = none) : loans v (e :: history) = loans v history :=
  List.filterMap_cons_none he

theorem loans_cons_of_some (v : Holder) (e : Event) (history : List Event)
    (l : Loans.Event Nat) (he : e.loan v = some l) :
    loans v (e :: history) = l :: loans v history :=
  List.filterMap_cons_some he

theorem loans_append (v : Holder) (newer older : List Event) :
    loans v (newer ++ older) = loans v newer ++ loans v older :=
  List.filterMap_append

/-- The loans are respected so far, and what is out is on the queue. -/
structure Lending (v : Holder) (w : World) : Prop where
  stocked : ∃ pooled, Stocked pooled w
  queued : ∀ id, Out id (loans v w.history) → id ∈ queueIds w
  respected : Respected (loans v w.history)

def NothingOut (w : World) : Prop := ∀ id, ¬ Out id (loans .device w.history)

section

variable {v : Holder} {w w' : World}

theorem Lending.covered (h : Lending v w) : Covered (queueIds w) (loans v w.history) :=
  ⟨h.queued, h.respected⟩

private theorem lending_of_covered (hstocked : ∃ pooled, Stocked pooled w)
    (h : Covered (queueIds w) (loans v w.history)) : Lending v w :=
  ⟨hstocked, h.known, h.respected⟩

theorem Lending.congr (h : Lending v w) (hstocked : ∃ pooled, Stocked pooled w')
    (hqueue : w'.txQueue = w.txQueue) (hloans : loans v w'.history = loans v w.history) :
    Lending v w' := by
  have hcovered := h.covered
  unfold queueIds at hcovered
  apply lending_of_covered hstocked
  unfold queueIds
  rwa [hqueue, hloans]

theorem Lending.reuse (h : Lending v w) (id : Nat) (hid : id ∉ queueIds w)
    (hstocked : ∃ pooled, Stocked pooled w') (hqueue : w'.txQueue = w.txQueue)
    (hloans : loans v w'.history = .reuse id :: loans v w.history) : Lending v w' := by
  have hcovered := h.covered.reuse hid
  unfold queueIds at hcovered
  apply lending_of_covered hstocked
  unfold queueIds
  rwa [hqueue, hloans]

theorem Lending.top (h : Lending v w) {io : PcmIo} (htop : PoolTop io w) : io.id ∉ queueIds w := by
  obtain ⟨pooled, hstocked⟩ := h.stocked
  exact hstocked.top_not_queued htop

theorem Lending.lend (h : Lending v w) (entry : TxEntry) (htop : PoolTop entry.io w)
    (hstocked : ∃ pooled, Stocked pooled w') (hqueue : w'.txQueue = w.txQueue ++ [entry])
    (hloans : loans v w'.history = .lend entry.io.id :: loans v w.history) : Lending v w' := by
  have hids : queueIds w' = queueIds w ++ [entry.io.id] := by
    unfold queueIds
    rw [hqueue, List.map_append, List.map_singleton]
  apply lending_of_covered hstocked
  rw [hids, hloans]
  exact h.covered.lend (h.top htop)

theorem loans_recycled (w : World) (io : PcmIo) (history : List Event) :
    loans v ((if w.renderIoFreeCount < renderIoPoolSize then .pooled io else .freed io) ::
      history) = .reuse io.id :: loans v history := by
  split <;> exact loans_cons_of_some _ _ _ _ rfl

private theorem completeEntry_loans (k : Nat) (entry : TxEntry) (w : World) :
    loans v (completeEntry k entry w).history =
      .reuse entry.io.id :: .giveBack entry.io.id :: loans v w.history := by
  obtain ⟨carried, hcarried, hhistory⟩ := completeEntry_history k entry w
  have hnone : loans v carried = [] := by
    refine List.filterMap_eq_nil_iff.mpr fun e he => ?_
    rw [hcarried e he]
    rfl
  rw [hhistory, loans_recycled, loans_append, hnone, List.nil_append,
    loans_cons_of_some v (.returned entry) _ _ rfl]

theorem Lending.giveBack (h : Lending v w) (k : Nat) (entry : TxEntry)
    (hk : w.txQueue[k]? = some entry) (hstocked : ∃ pooled, Stocked pooled w')
    (hqueue : w'.txQueue = w.txQueue.eraseIdx k)
    (hloans : loans v w'.history =
      .reuse entry.io.id :: .giveBack entry.io.id :: loans v w.history) : Lending v w' := by
  apply lending_of_covered hstocked
  rw [queueIds_eraseIdx hqueue, hloans]
  exact h.covered.reuse_returned (queueIds_getElem? hk)

theorem Lending.complete (h : Lending v w) (k : Nat) (entry : TxEntry)
    (hk : w.txQueue[k]? = some entry) : Lending v (completeEntry k entry w) := by
  obtain ⟨pooled, hstocked⟩ := h.stocked
  refine h.giveBack k entry hk (hstocked.complete k entry hk) ?_ (completeEntry_loans k entry w)
  rw [completeEntry_eq]

/-- A buffer the device holds breaks its loan when it is detached. -/
theorem Lending.detach (h : Lending .device w) (hnone : NothingOut w) (k : Nat)
    (entry : TxEntry) (hk : w.txQueue[k]? = some entry) :
    Lending .device (detachEntry k entry w) := by
  have hloans : loans .device (detachEntry k entry w).history =
      .reuse entry.io.id :: loans .device w.history := by
    rw [detachEntry_history, loans_recycled, loans_cons_of_none _ _ _ rfl]
  obtain ⟨pooled, hstocked⟩ := h.stocked
  apply lending_of_covered (hstocked.detach k entry hk)
  rw [hloans]
  exact h.covered.reuse_of_none hnone _ _

private theorem Lending.detach_queue (h : Lending .queue w) (k : Nat) (entry : TxEntry)
    (hk : w.txQueue[k]? = some entry) : Lending .queue (detachEntry k entry w) := by
  have hloans : loans .queue (detachEntry k entry w).history =
      .reuse entry.io.id :: .giveBack entry.io.id :: loans .queue w.history := by
    rw [detachEntry_history, loans_recycled, loans_cons_of_some .queue (.detached entry) _ _ rfl]
  obtain ⟨pooled, hstocked⟩ := h.stocked
  refine h.giveBack k entry hk (hstocked.detach k entry hk) ?_ hloans
  rw [detachEntry_eq]

private theorem setWritePacket_loans (packetNumber : ULONG) (endOfStream : Bool)
    (eosPacketLength : ULONG) (w : World) :
    loans v (setWritePacket packetNumber endOfStream eosPacketLength w).2.history =
      loans v w.history := by
  rw [setWritePacket_history]
  split
  · rfl
  · exact loans_cons_of_none _ _ _ rfl

private theorem settlePosition_loans (qpc : LONGLONG) (w : World) :
    loans v (settlePosition qpc w).history = loans v w.history := by
  unfold settlePosition clearAnchor
  dsimp only
  split
  · rfl
  · exact loans_cons_of_none _ _ _ rfl

private theorem freeRenderIo_loans (w : World) (io : PcmIo) (htop : PoolTop io w) :
    loans v (freeRenderIo w).history = .reuse io.id :: loans v w.history := by
  unfold freeRenderIo popRenderIo
  dsimp only
  rw [htop.2]
  exact loans_cons_of_some _ _ _ _ rfl

/-- No change but a detach can break a loan, and that one only a loan to the device. -/
theorem Effect.lending {k : Kind} (hR : Effect k w w') (hk : k = .detach → v = .queue)
    (h : Lending v w) : Lending v w' := by
  obtain ⟨pooled, hpooled⟩ := h.stocked
  have hstocked := hR.stocked hpooled
  cases hR with
  | detach k entry _ hentry =>
      obtain rfl := hk rfl
      exact h.detach_queue k entry hentry
  | command c accepted =>
      cases hloan : (Event.command c accepted).loan v with
      | none => exact h.congr hstocked rfl (loans_cons_of_none _ _ _ hloan)
      | some l =>
          have hall : loans v (w.note (.command c accepted)).history = .giveUpAll ::
              loans v w.history := by
            refine loans_cons_of_some _ _ _ _ ?_
            cases v <;> cases c <;> cases accepted <;> first | rfl | cases hloan
          apply lending_of_covered hstocked
          rw [hall]
          exact h.covered.giveUpAll
  | rejected c =>
      refine h.congr hstocked rfl (loans_cons_of_none _ _ _ ?_)
      cases c <;> rfl
  | allocate requestLength =>
      exact h.reuse w.nextIo hpooled.next_not_queued hstocked rfl (loans_cons_of_some _ _ _ _ rfl)
  | free _ hcount =>
      obtain ⟨io, -, htop⟩ := hpooled.holds.filled (i := w.renderIoFreeCount - 1) (by omega)
      have hfirst : PoolTop io w := ⟨hcount, htop⟩
      refine h.reuse io.id (h.top hfirst) hstocked ?_ (freeRenderIo_loans w io hfirst)
      rw [freeRenderIo_eq]
  | refuse io _ htop =>
      exact h.reuse io.id (h.top htop) hstocked rfl (loans_cons_of_some _ _ _ _ rfl)
  | preroll entry _ htop =>
      exact h.lend entry htop hstocked rfl (loans_cons_of_some _ _ _ _ rfl)
  | silence entry _ htop =>
      exact h.lend entry htop hstocked rfl (loans_cons_of_some _ _ _ _ rfl)
  | packet entry n _ htop =>
      refine h.lend entry htop hstocked rfl ?_
      rw [loans_cons_of_none _ _ _ rfl]
      exact loans_cons_of_some _ _ _ _ rfl
  | complete k entry _ hk => exact h.complete k entry hk
  | write packetNumber endOfStream eosPacketLength =>
      refine h.congr hstocked ?_ (setWritePacket_loans _ _ _ w)
      rw [setWritePacket_eq]
  | settle qpc => exact h.congr hstocked rfl (settlePosition_loans qpc w)
  | _ => exact h.congr hstocked rfl rfl

theorem Effect.nothingOut {k : Kind} (hR : Effect k w w')
    (hk : k ≠ .preroll ∧ k ≠ .silence ∧ k ≠ .packet) (h : Lending .device w)
    (hnone : NothingOut w) : Lending .device w' ∧ NothingOut w' := by
  by_cases hdetach : k = .detach
  · subst hdetach
    cases hR with
    | detach k entry _ hk =>
        refine ⟨h.detach hnone k entry hk, fun id hout => ?_⟩
        rw [detachEntry_history, loans_recycled, loans_cons_of_none _ _ _ rfl, out_reuse] at hout
        exact hnone id hout
  · refine ⟨hR.lending (fun he => absurd he hdetach) h, fun id hout => ?_⟩
    have hsame : loans .device w'.history = loans .device w.history → False := by
      intro hloans
      rw [hloans] at hout
      exact hnone id hout
    have hreuse : ∀ b, loans .device w'.history = .reuse b :: loans .device w.history → False := by
      intro b hloans
      rw [hloans, out_reuse] at hout
      exact hnone id hout
    obtain ⟨pooled, hpooled⟩ := h.stocked
    cases hR with
    | detach => exact hdetach rfl
    | preroll => exact hk.1 rfl
    | silence => exact hk.2.1 rfl
    | packet => exact hk.2.2 rfl
    | command c accepted =>
        cases hloan : (Event.command c accepted).loan .device with
        | none => exact hsame (loans_cons_of_none _ _ _ hloan)
        | some l =>
            have hcons : loans .device (w.note (.command c accepted)).history =
                l :: loans .device w.history := loans_cons_of_some _ _ _ _ hloan
            rw [hcons] at hout
            cases c <;> cases accepted <;> cases hloan
            exact hout
    | rejected c => exact hsame (loans_cons_of_none _ _ _ (by cases c <;> rfl))
    | allocate requestLength => exact hreuse w.nextIo (loans_cons_of_some _ _ _ _ rfl)
    | free _ hcount =>
        obtain ⟨io, -, htop⟩ := hpooled.holds.filled (i := w.renderIoFreeCount - 1) (by omega)
        exact hreuse io.id (freeRenderIo_loans w io ⟨hcount, htop⟩)
    | refuse io => exact hreuse io.id (loans_cons_of_some _ _ _ _ rfl)
    | complete k entry =>
        rw [completeEntry_loans, out_reuse, out_giveBack] at hout
        exact hnone id hout.2
    | write packetNumber endOfStream eosPacketLength =>
        exact hsame (setWritePacket_loans _ _ _ w)
    | settle qpc => exact hsame (settlePosition_loans qpc w)
    | _ => exact hsame rfl

end

theorem Does.lending {K : Finset Kind} {v : Holder} {w w' : World} (h : Does K w w')
    (hK : .detach ∈ K → v = .queue) (hw : Lending v w) : Lending v w' :=
  h.invariant (fun _ hk _ _ hR => hR.lending fun he => hK (he ▸ hk)) hw

theorem Does.nothingOut {K : Finset Kind} {w w' : World} (h : Does K w w')
    (hK : .preroll ∉ K ∧ .silence ∉ K ∧ .packet ∉ K) (hw : Lending .device w)
    (hnone : NothingOut w) : Lending .device w' ∧ NothingOut w' :=
  h.invariant (P := fun w => Lending .device w ∧ NothingOut w)
    (fun _ hk _ _ hR hs => hR.nothingOut ⟨fun he => hK.1 (he ▸ hk), fun he => hK.2.1 (he ▸ hk),
      fun he => hK.2.2 (he ▸ hk)⟩ hs.1 hs.2) ⟨hw, hnone⟩

end Viosnd.Render
