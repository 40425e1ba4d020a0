import Viosnd.Lib.Stock
import Viosnd.Render.Effects

/-!
# Where the render buffers are

Every buffer the stream ever allocated is in the pool, on the TX queue or freed, and in one place
only. No change of any kind, whatever the counters say, puts a buffer in a second place.
-/

namespace Viosnd.Render

open StepRun EffectSystem Slots

def Event.freedId : Event → Option Nat
  | .freed io => some io.id
  | _ => none

def freedIds (history : List Event) : List Nat := history.filterMap Event.freedId

def queueIds (w : World) : List Nat := w.txQueue.map fun entry => entry.io.id

/-- All buffers, place by place, when the pool holds `pooled`. -/
def stockIds (pooled : List PcmIo) (w : World) : List Nat :=
  pooled.map PcmIo.id ++ (queueIds w ++ freedIds w.history)

/-- The pool holds `pooled`, and every buffer allocated so far is in one place. -/
structure Stocked (pooled : List PcmIo) (w : World) : Prop where
  holds : Holds w.renderIoPool w.renderIoFreeCount pooled
  distinct : (stockIds pooled w).Nodup
  allocated : ∀ id ∈ stockIds pooled w, id < w.nextIo

theorem freedIds_cons_of_none (e : Event) (history : List Event) (he : e.freedId = none) :
    freedIds (e :: history) = freedIds history :=
  List.filterMap_cons_none he

private theorem freedIds_append_of_none (newer history : List Event)
    (hnewer : ∀ e ∈ newer, e.freedId = none) :
    freedIds (newer ++ history) = freedIds history := by
  unfold freedIds
  rw [List.filterMap_append, List.filterMap_eq_nil_iff.mpr hnewer, List.nil_append]

theorem World.fresh_stocked (buffer : Option Memory)
    (bufferSize notificationCount packetSize : ULONG) :
    Stocked [] (World.fresh buffer bufferSize notificationCount packetSize) :=
  ⟨holds_nil, by simp [stockIds, queueIds, freedIds, World.fresh],
    by simp [stockIds, queueIds, freedIds, World.fresh]⟩

section

variable {pooled pooled' : List PcmIo} {w w' : World}

/-- The pool, the queue and the freed buffers are the three places of a stock. -/
private theorem stocked_iff_kept : Stocked pooled w ↔ Stock.Kept PcmIo.id w.renderIoPool
    w.renderIoFreeCount pooled (queueIds w) (freedIds w.history) w.nextIo :=
  ⟨fun h => ⟨h.holds, h.distinct, h.allocated⟩, fun h => ⟨h.holds, h.distinct, h.allocated⟩⟩

theorem Stocked.congr (h : Stocked pooled w) (hpool : w'.renderIoPool = w.renderIoPool)
    (hcount : w'.renderIoFreeCount = w.renderIoFreeCount) (hqueue : w'.txQueue = w.txQueue)
    (hfreed : freedIds w'.history = freedIds w.history) (hnext : w'.nextIo = w.nextIo) :
    Stocked pooled w' := by
  rw [stocked_iff_kept] at h ⊢
  unfold queueIds at h ⊢
  rwa [hpool, hcount, hqueue, hfreed, hnext]

theorem Stocked.not_queued (h : Stocked pooled w) {io : PcmIo} (hio : io ∈ pooled) :
    io.id ∉ queueIds w :=
  (stocked_iff_kept.mp h).spare_not_lent (List.mem_map_of_mem hio)

theorem Stocked.top_not_queued (h : Stocked pooled w) {io : PcmIo} (htop : PoolTop io w) :
    io.id ∉ queueIds w :=
  (stocked_iff_kept.mp h).top_not_lent htop.1 htop.2

theorem Stocked.lend (h : Stocked pooled w) (entry : TxEntry) (htop : PoolTop entry.io w) :
    Stocked pooled.dropLast (lendRenderIo entry w) := by
  have hlent := (stocked_iff_kept.mp h).lend htop.1 htop.2
  have hqueue : queueIds (lendRenderIo entry w) = queueIds w ++ [entry.io.id] :=
    List.map_append
  rw [stocked_iff_kept, hqueue]
  exact hlent

theorem queueIds_getElem? {k : Nat} {entry : TxEntry} (hk : w.txQueue[k]? = some entry) :
    (queueIds w)[k]? = some entry.io.id := by
  unfold queueIds
  rw [List.getElem?_map, hk]
  rfl

theorem queueIds_eraseIdx {k : Nat} (hqueue : w'.txQueue = w.txQueue.eraseIdx k) :
    queueIds w' = (queueIds w).eraseIdx k := by
  unfold queueIds
  rw [hqueue, List.eraseIdx_map]

theorem Stocked.recycle (h : Stocked pooled w) (k : Nat) (entry : TxEntry)
    (hk : w.txQueue[k]? = some entry) (hpool : w'.renderIoPool = w.renderIoPool)
    (hcount : w'.renderIoFreeCount = w.renderIoFreeCount)
    (hqueue : w'.txQueue = w.txQueue.eraseIdx k)
    (hfreed : freedIds w'.history = freedIds w.history) (hnext : w'.nextIo = w.nextIo) :
    ∃ pooled', Stocked pooled' (recycleRenderIo entry.io w') := by
  have hkept := stocked_iff_kept.mp h
  have hid := queueIds_getElem? hk
  unfold recycleRenderIo
  split
  · have hback := hkept.giveBack hid
    rw [← queueIds_eraseIdx hqueue, ← hpool, ← hcount, ← hfreed, ← hnext] at hback
    exact ⟨pooled ++ [entry.io], stocked_iff_kept.mpr hback⟩
  · have hup := hkept.giveUp hid
    rw [← queueIds_eraseIdx hqueue, ← hpool, ← hcount, ← hfreed, ← hnext] at hup
    exact ⟨pooled, stocked_iff_kept.mpr hup⟩

theorem Stocked.complete (h : Stocked pooled w) (k : Nat) (entry : TxEntry)
    (hk : w.txQueue[k]? = some entry) : ∃ pooled', Stocked pooled' (completeEntry k entry w) := by
  unfold completeEntry
  generalize hbase : ({ w with
    txQueue := w.txQueue.eraseIdx k
    history := .returned entry :: w.history
    outstandingWrites := w.outstandingWrites - 1 } : World) = base
  obtain ⟨carried, hcarried, hhistory⟩ := accountCompletion_history entry base
  have hfreed : freedIds (accountCompletion entry base).history = freedIds w.history := by
    rw [hhistory, freedIds_append_of_none, ← hbase]
    · exact freedIds_cons_of_none _ _ rfl
    · intro e he
      rw [hcarried e he]
      rfl
  subst hbase
  apply h.recycle k entry hk _ _ _ hfreed
  all_goals rw [accountCompletion_eq]

theorem Stocked.detach (h : Stocked pooled w) (k : Nat) (entry : TxEntry)
    (hk : w.txQueue[k]? = some entry) : ∃ pooled', Stocked pooled' (detachEntry k entry w) :=
  h.recycle k entry hk rfl rfl rfl (freedIds_cons_of_none _ _ rfl) rfl

theorem Stocked.free (h : Stocked pooled w) (hcount : w.renderIoFreeCount ≠ 0) :
    Stocked pooled.dropLast (freeRenderIo w) := by
  have hkept := stocked_iff_kept.mp h
  obtain ⟨io, -, htop⟩ := hkept.holds.filled (i := w.renderIoFreeCount - 1) (by omega)
  have hqueue : queueIds (freeRenderIo w) = queueIds w := by
    rw [freeRenderIo_eq]
    rfl
  have hhistory : (freeRenderIo w).history = .freed io :: w.history := by
    unfold freeRenderIo popRenderIo
    dsimp only
    rw [htop]
    rfl
  rw [stocked_iff_kept, hqueue, hhistory, freeRenderIo_eq]
  exact hkept.drop hcount htop

theorem Stocked.allocate (h : Stocked pooled w) (requestLength : Nat) :
    Stocked (pooled ++ [⟨w.nextIo, requestLength⟩]) (newRenderIo requestLength w) :=
  stocked_iff_kept.mpr ((stocked_iff_kept.mp h).allocate rfl)

theorem Stocked.next_not_queued (h : Stocked pooled w) : w.nextIo ∉ queueIds w :=
  (stocked_iff_kept.mp h).next_not_lent

/-- No change of any kind loses or doubles a buffer. -/
theorem Effect.stocked {k : Kind} (hR : Effect k w w') (h : Stocked pooled w) :
    ∃ pooled', Stocked pooled' w' := by
  cases hR with
  | allocate requestLength => exact ⟨_, h.allocate requestLength⟩
  | free _ hcount => exact ⟨_, h.free hcount⟩
  | preroll entry _ htop => exact ⟨_, h.lend entry htop⟩
  | silence entry _ htop =>
      exact ⟨_, (h.lend entry htop).congr rfl rfl rfl rfl rfl⟩
  | packet entry n _ htop =>
      exact ⟨_, (h.lend entry htop).congr rfl rfl rfl (freedIds_cons_of_none _ _ rfl) rfl⟩
  | complete k entry _ hk => exact h.complete k entry hk
  | detach k entry _ hk => exact h.detach k entry hk
  | write packetNumber endOfStream eosPacketLength =>
      refine ⟨pooled, h.congr ?_ ?_ ?_ ?_ ?_⟩
      pick_goal 4
      · rw [setWritePacket_history]
        split <;> rfl
      all_goals rw [setWritePacket_eq]
  | settle qpc =>
      refine ⟨pooled, h.congr rfl rfl rfl ?_ rfl⟩
      unfold settlePosition clearAnchor
      dsimp only
      split <;> rfl
  | _ => exact ⟨pooled, h.congr rfl rfl rfl rfl rfl⟩

end

theorem Does.stocked {K : Finset Kind} {w w' : World} (h : Does K w w')
    (hw : ∃ pooled, Stocked pooled w) : ∃ pooled, Stocked pooled w' :=
  h.invariant (P := fun w => ∃ pooled, Stocked pooled w)
    (fun _ _ _ _ hR ⟨_, hpooled⟩ => hR.stocked hpooled) hw

private theorem step_stocked (w : World) (a : Action) (hw : ∃ pooled, Stocked pooled w) :
    ∃ pooled, Stocked pooled (step w a) := by
  by_cases hwrite : a.IsWrite
  · cases a with
    | setWritePacket p endOfStream length =>
        exact (Does.one (Effect.write p endOfStream length w)).stocked hw
    | _ => exact hwrite.elim
  · exact (step_does w a hwrite).stocked hw

theorem run_stocked (buffer : Option Memory) (bufferSize notificationCount packetSize : ULONG)
    (actions : List Action) : ∃ pooled, Stocked pooled
      (run step (World.fresh buffer bufferSize notificationCount packetSize) actions) :=
  run_invariant step_stocked actions ⟨[], World.fresh_stocked _ _ _ _⟩

end Viosnd.Render
