import Viosnd.Render.Lending

/-!
# Conservation of the render buffers

The pool operations and the submissions move twelve buffers between the pool and the TX queue.
The counters stay exact as long as nobody forces them and the queue gives back what it took.
-/

namespace Viosnd.Render

open StepRun EffectSystem Loans Slots

/-! ## Pool operations -/

/-- The operations on the pool, pass by pass of their loops, in any order and with any answers of
the queue. -/
inductive PoolOp where
  | allocate (i : PoolInput)
  | free
  /-- A pass of `ReclaimRenderPackets`. -/
  | reclaim (o : TxReclaim)
  /-- A pass of the detach loop of `CancelRenderWrites`. -/
  | detach (o : TxDetach)
  /-- A pass of the preroll loops of `SetState(KSSTATE_RUN)` and of `SwitchRenderToFallback`. -/
  | preroll (o : TxSubmit)
  | chooseTarget
  /-- A pass of the submission loop of `RenderWorkerLoop`. -/
  | submit (o : TxSubmit)
  /-- `submit` with the test of `m_State` made earlier. -/
  | submitLate (o : TxSubmit)
  /-- Every field that no pool operation owns takes its value from `w'`. -/
  | elsewhere (w' : World)
  /-- `m_OutstandingWrites = 0` in `SetState(KSSTATE_STOP)` and `FreeAudioBuffer`. -/
  | forcedReset

def poolStep (w : World) : PoolOp → World
  | .allocate i => (allocateRenderIoPool i w).2
  | .free => freeRenderIoPool w
  | .reclaim o => (reclaimRenderPacket o w).2
  | .detach o => detachRenderWrites [o] w
  | .preroll o => (prerollRender 1 [o] w).2
  | .chooseTarget => chooseTarget w
  | .submit o => (submitPass o w).2
  | .submitLate o => submitLate o w
  | .elsewhere w' => { w' with
      renderIoPool := w.renderIoPool
      renderIoFreeCount := w.renderIoFreeCount
      renderFallbackBuffer := w.renderFallbackBuffer
      outstandingWrites := w.outstandingWrites
      targetOutstanding := w.targetOutstanding
      txQueue := w.txQueue
      nextIo := w.nextIo
      history := w.history }
  | .forcedReset => { w with outstandingWrites := 0 }

theorem cancelRenderWrites_passes (i : CancelInput) (w : World) :
    ∃ ops, cancelRenderWrites i w = run poolStep w ops := by
  have hdetach : ∀ (answers : List TxDetach) (w : World),
      ∃ ops, detachRenderWrites answers w = run poolStep w ops := by
    intro answers
    induction answers with
    | nil => exact fun w => ⟨[], rfl⟩
    | cons o answers ih =>
        intro w
        obtain ⟨ops, hops⟩ := ih (poolStep w (.detach o))
        by_cases hzero : w.outstandingWrites = 0
        · exact ⟨[], if_pos hzero⟩
        cases hfound : (viosndDetachUnusedWritePcm o w).2.1 with
        | none =>
            refine ⟨[.detach o], ?_⟩
            simp only [run_cons, run_nil, poolStep, detachRenderWrites, if_neg hzero]
            split <;> simp_all
        | some entry =>
            refine ⟨.detach o :: ops, ?_⟩
            rw [run_cons, ← hops]
            simp only [poolStep, detachRenderWrites, if_neg hzero]
            split <;> simp_all
  obtain ⟨steps, hreclaim⟩ := reclaimRenderPackets_steps i.reclaims w
  have hpasses : run workerStep w (steps.map .reclaim) =
      run poolStep w (steps.map .reclaim) := by
    clear hreclaim
    induction steps generalizing w with
    | nil => rfl
    | cons o steps ih => exact ih _
  obtain ⟨ops, hops⟩ := hdetach i.detaches (reclaimRenderPackets i.reclaims w)
  refine ⟨steps.map .reclaim ++ ops, ?_⟩
  rw [run_append, ← hpasses, ← hreclaim, ← hops]
  rfl

theorem prerollRender_passes (n : Nat) (answers : List TxSubmit) (w : World) :
    ∃ ops, (prerollRender n answers w).2 = run poolStep w ops := by
  induction n generalizing answers w with
  | zero => exact ⟨[], rfl⟩
  | succ n ih =>
      by_cases hroom : w.outstandingWrites < renderStartPrerollPackets
      · have hpass : poolStep w (.preroll (answers.headD .mutexTimeout)) =
            (submitRenderSilencePacket maxULONG (answers.headD .mutexTimeout) w).2 := by
          simp only [poolStep, prerollRender, if_pos hroom, List.headD_cons]
          unfold whenOk
          split <;> rfl
        obtain ⟨ops, hops⟩ := ih answers.tail (poolStep w (.preroll (answers.headD .mutexTimeout)))
        rw [prerollRender, if_pos hroom, whenOk]
        split
        · refine ⟨.preroll (answers.headD .mutexTimeout) :: ops, ?_⟩
          rw [run_cons, ← hops, hpass]
        · exact ⟨[.preroll (answers.headD .mutexTimeout)], by rw [run_cons, run_nil, hpass]⟩
      · exact ⟨[], by rw [prerollRender, if_neg hroom]; rfl⟩

/-- A forced reset is exact when the queue is empty. -/
def ResetExact (w : World) : PoolOp → Prop
  | .forcedReset => w.txQueue = []
  | _ => True

/-- What the pool, the counters and the queue agree on. -/
structure Conserved (w : World) : Prop where
  filled : ∀ i < w.renderIoFreeCount, ∃ io, w.renderIoPool i = some io ∧ io.id ∉ queueIds w
  distinct : ∀ i < w.renderIoFreeCount, ∀ j < w.renderIoFreeCount, ∀ a b,
    w.renderIoPool i = some a → w.renderIoPool j = some b → a.id = b.id → i = j
  vacant : ∀ i, w.renderIoFreeCount ≤ i → w.renderIoPool i = none
  outstanding : w.outstandingWrites = w.txQueue.length
  total : w.renderIoFreeCount + w.outstandingWrites = 0 ∨
    w.renderIoFreeCount + w.outstandingWrites = renderIoPoolSize
  bounded : w.outstandingWrites ≤ renderTargetOutstandingPackets
  freedOnce : (freedIds w.history).Nodup
  freedOff : ∀ id ∈ freedIds w.history, id ∉ queueIds w
  /-- A freed buffer was not on the queue at that point. -/
  freedOffQueue : ∀ newer io older, w.history = newer ++ .freed io :: older →
    ¬ Out io.id (loans .queue older)

/-! ## The counters -/

/-- `n` buffers exist and are counted exactly. -/
structure Counted (n : Nat) (w : World) : Prop where
  lending : Lending .queue w
  outstanding : w.outstandingWrites = w.txQueue.length
  total : w.renderIoFreeCount + w.outstandingWrites = n
  fits : n ≤ renderIoPoolSize
  target : w.targetOutstanding ≤ renderTargetOutstandingPackets
  bounded : w.outstandingWrites ≤ renderTargetOutstandingPackets

section

variable {n : Nat} {w w' : World}

theorem Counted.lend (h : Counted n w) (entry : TxEntry) (htop : PoolTop entry.io w)
    (hroom : w.outstandingWrites < renderTargetOutstandingPackets) (hlending : Lending .queue w')
    (hcount : w'.renderIoFreeCount = w.renderIoFreeCount - 1)
    (houtstanding : w'.outstandingWrites = w.outstandingWrites + 1)
    (hqueue : w'.txQueue = w.txQueue ++ [entry])
    (htarget : w'.targetOutstanding = w.targetOutstanding) : Counted n w' := by
  have hfree := htop.1
  have htotal := h.total
  refine ⟨hlending, ?_, by omega, h.fits, by rw [htarget]; exact h.target, by omega⟩
  rw [houtstanding, hqueue, List.length_append, h.outstanding]
  rfl

private theorem recycleRenderIo_freeCount (io : PcmIo) (w : World)
    (hroom : w.renderIoFreeCount < renderIoPoolSize) :
    (recycleRenderIo io w).renderIoFreeCount = w.renderIoFreeCount + 1 := by
  unfold recycleRenderIo
  rw [if_pos hroom]
  rfl

theorem Counted.recycle (h : Counted n w) (k : Nat) (entry : TxEntry)
    (hk : w.txQueue[k]? = some entry) (hlending : Lending .queue (recycleRenderIo entry.io w'))
    (hcount : w'.renderIoFreeCount = w.renderIoFreeCount)
    (houtstanding : w'.outstandingWrites = w.outstandingWrites - 1)
    (hqueue : w'.txQueue = w.txQueue.eraseIdx k)
    (htarget : w'.targetOutstanding = w.targetOutstanding) :
    Counted n (recycleRenderIo entry.io w') := by
  obtain ⟨hlt, -⟩ := List.getElem?_eq_some_iff.mp hk
  have hlength := List.length_eraseIdx_of_lt hlt
  have hout := h.outstanding
  have htotal := h.total
  have hfits := h.fits
  have hbounded := h.bounded
  have hroom : w'.renderIoFreeCount < renderIoPoolSize := by omega
  have hpool := recycleRenderIo_freeCount entry.io w' hroom
  have hframe := recycleRenderIo_eq entry.io w'
  have hout' : (recycleRenderIo entry.io w').outstandingWrites = w'.outstandingWrites := by
    rw [hframe]
  have hqueue' : (recycleRenderIo entry.io w').txQueue = w'.txQueue := by
    rw [hframe]
  have htarget' : (recycleRenderIo entry.io w').targetOutstanding = w'.targetOutstanding := by
    rw [hframe]
  refine ⟨hlending, ?_, by omega, hfits, ?_, by omega⟩
  · rw [hout', hqueue', hqueue]
    omega
  · rw [htarget', htarget]
    exact h.target

theorem Counted.allocate (h : Counted n w) (requestLength : Nat) (hn : n < renderIoPoolSize) :
    Counted (n + 1) (newRenderIo requestLength w) := by
  have htotal := h.total
  have hlending := (Effect.allocate requestLength w).lending (fun he => nomatch he) h.lending
  have hcount : (newRenderIo requestLength w).renderIoFreeCount = w.renderIoFreeCount + 1 := rfl
  have hout : (newRenderIo requestLength w).outstandingWrites = w.outstandingWrites := rfl
  exact ⟨hlending, h.outstanding, by omega, hn, h.target, h.bounded⟩

theorem Counted.free (h : Counted n w) (hcount : w.renderIoFreeCount ≠ 0) :
    Counted (n - 1) (freeRenderIo w) := by
  have htotal := h.total
  have hfits := h.fits
  have hlending := (Effect.free w hcount).lending (fun he => nomatch he) h.lending
  have hframe := freeRenderIo_eq w
  have hcount' : (freeRenderIo w).renderIoFreeCount = w.renderIoFreeCount - 1 := by
    rw [hframe]
  have hout' : (freeRenderIo w).outstandingWrites = w.outstandingWrites := by
    rw [hframe]
  refine ⟨hlending, ?_, by omega, by omega, ?_, ?_⟩
  · rw [hframe]
    exact h.outstanding
  · rw [hframe]
    exact h.target
  · rw [hframe]
    exact h.bounded

/-- No change but allocating, freeing and a forced reset changes how many buffers exist. -/
theorem Effect.counted {k : Kind} (hR : Effect k w w')
    (hk : k ≠ .allocate ∧ k ≠ .free ∧ k ≠ .reset) (h : Counted n w) : Counted n w' := by
  have hlending := hR.lending (fun _ => rfl) h.lending
  have hbounded := h.bounded
  have htarget := h.target
  cases hR with
  | allocate => exact absurd rfl hk.1
  | free => exact absurd rfl hk.2.1
  | reset => exact absurd rfl hk.2.2
  | tune _ _ _ _ _ _ _ _ target ht =>
      refine ⟨hlending, h.outstanding, h.total, h.fits, ?_, h.bounded⟩
      change target ≤ _
      omega
  | preroll entry _ htop _ hroom =>
      refine h.lend entry htop ?_ hlending rfl rfl rfl rfl
      simp only [renderStartPrerollPackets, renderTargetOutstandingPackets] at hroom ⊢
      omega
  | silence entry _ htop _ hroom =>
      exact h.lend entry htop (by omega) hlending rfl rfl rfl rfl
  | packet entry n _ htop _ hroom =>
      exact h.lend entry htop (by omega) hlending rfl rfl rfl rfl
  | complete k entry _ hentry =>
      refine h.recycle k entry hentry hlending ?_ ?_ ?_ ?_
      all_goals rw [accountCompletion_eq]
  | detach k entry _ hentry => exact h.recycle k entry hentry hlending rfl rfl rfl rfl
  | write packetNumber endOfStream eosPacketLength =>
      have hframe := setWritePacket_eq packetNumber endOfStream eosPacketLength w
      refine ⟨hlending, ?_, ?_, h.fits, ?_, ?_⟩
      · rw [hframe]
        exact h.outstanding
      · rw [hframe]
        exact h.total
      · rw [hframe]
        exact h.target
      · rw [hframe]
        exact h.bounded
  | _ => exact ⟨hlending, h.outstanding, h.total, h.fits, h.target, h.bounded⟩

end

theorem Does.counted {K : Finset Kind} {n : Nat} {w w' : World} (h : Does K w w')
    (hK : .allocate ∉ K ∧ .free ∉ K ∧ .reset ∉ K) (hw : Counted n w) : Counted n w' :=
  h.invariant (fun _ hk _ _ hR => hR.counted ⟨fun he => hK.1 (he ▸ hk),
    fun he => hK.2.1 (he ▸ hk), fun he => hK.2.2 (he ▸ hk)⟩) hw

/-! ## Allocating and freeing -/

private theorem freeRenderIos_counted (m n : Nat) (w : World) (hm : m ≤ w.renderIoFreeCount)
    (hw : Counted n w) : Counted (n - m) (freeRenderIos m w) := by
  induction m generalizing n w with
  | zero => exact hw
  | succ m ih =>
      have hfirst := hw.free (by omega)
      have hcount : (freeRenderIo w).renderIoFreeCount = w.renderIoFreeCount - 1 := by
        rw [freeRenderIo_eq]
      have hrest := ih (n - 1) (freeRenderIo w) (by omega) hfirst
      rw [show n - (m + 1) = n - 1 - m by omega]
      exact hrest

private theorem freeRenderIoPool_counted (n : Nat) (w : World) (hout : w.outstandingWrites = 0)
    (hw : Counted n w) : Counted 0 (freeRenderIoPool w) := by
  have hall := freeRenderIos_counted w.renderIoFreeCount n w le_rfl hw
  have htotal := hw.total
  rw [show n - w.renderIoFreeCount = 0 by omega] at hall
  unfold freeRenderIoPool
  rw [if_neg (by omega)]
  exact (Does.one (.tune _ _ _ _ _ _ _ _ _ (Or.inl rfl))).counted (by decide) hall

private theorem allocateRenderIos_counted (requestLength m n : Nat) (ios : List Bool) (w : World)
    (hm : n + m = renderIoPoolSize) (hout : w.outstandingWrites = 0) (hw : Counted n w) :
    Counted 0 (allocateRenderIos requestLength m ios w).2 ∨
      Counted renderIoPoolSize (allocateRenderIos requestLength m ios w).2 := by
  induction m generalizing n ios w with
  | zero =>
      obtain rfl : n = renderIoPoolSize := by omega
      exact Or.inr hw
  | succ m ih =>
      have hfail := freeRenderIoPool_counted n w hout hw
      cases ios with
      | nil => exact Or.inl hfail
      | cons allocated ios =>
          cases allocated with
          | false => exact Or.inl hfail
          | true =>
              exact ih (n + 1) ios (newRenderIo requestLength w) (by omega) hout
                (hw.allocate requestLength (by omega))

/-- Whole operations: no buffer exists, or all twelve do. -/
def Balanced (w : World) : Prop := Counted 0 w ∨ Counted renderIoPoolSize w

theorem Does.balanced {K : Finset Kind} {w w' : World} (h : Does K w w')
    (hK : .allocate ∉ K ∧ .free ∉ K ∧ .reset ∉ K) (hw : Balanced w) : Balanced w' :=
  hw.imp (h.counted hK) (h.counted hK)

private theorem freeRenderIoPool_balanced (w : World) (hw : Balanced w) :
    Balanced (freeRenderIoPool w) := by
  by_cases hout : w.outstandingWrites = 0
  · rcases hw with hw | hw
    · exact Or.inl (freeRenderIoPool_counted _ w hout hw)
    · exact Or.inl (freeRenderIoPool_counted _ w hout hw)
  · unfold freeRenderIoPool
    rw [if_pos hout]
    exact hw

/-- An empty pool means that no buffer exists: at most eight can be on the queue. -/
theorem Balanced.empty {w : World} (hw : Balanced w) (hcount : w.renderIoFreeCount = 0) :
    w.outstandingWrites = 0 ∧ Counted 0 w := by
  rcases hw with hw | hw
  · have htotal := hw.total
    exact ⟨by omega, hw⟩
  · have htotal := hw.total
    have hbounded := hw.bounded
    simp only [renderIoPoolSize, renderTargetOutstandingPackets] at htotal hbounded
    omega

private theorem allocateRenderIoPool_balanced (i : PoolInput) (w : World) (hw : Balanced w) :
    Balanced (allocateRenderIoPool i w).2 := by
  unfold allocateRenderIoPool
  split
  · exact hw
  rename_i hcount
  split
  · exact hw
  split
  · exact hw
  dsimp only
  obtain ⟨hout, hzero⟩ := hw.empty (by omega)
  generalize (if fallbackPeriodBytes < w.packetSize then w.packetSize
    else fallbackPeriodBytes) = size
  have htuned : Counted 0 { w with
      renderFallbackBuffer := some (w.renderFallbackBuffer.getD size) } :=
    (Does.one (.tune w _ _ _ _ _ _ _ _ (Or.inl rfl))).counted (by decide) hzero
  exact allocateRenderIos_counted _ renderIoPoolSize 0 i.ios _ rfl hout htuned

/-! ## Every operation -/

theorem Lending.of_same {v : Holder} {w w' : World} (h : Lending v w)
    (hpool : w'.renderIoPool = w.renderIoPool)
    (hcount : w'.renderIoFreeCount = w.renderIoFreeCount) (hqueue : w'.txQueue = w.txQueue)
    (hnext : w'.nextIo = w.nextIo) (hhistory : w'.history = w.history) : Lending v w' := by
  obtain ⟨pooled, hstocked⟩ := h.stocked
  exact h.congr ⟨pooled, hstocked.congr hpool hcount hqueue (by rw [hhistory]) hnext⟩ hqueue
    (by rw [hhistory])

theorem Counted.elsewhere {n : Nat} {w : World} (h : Counted n w) (w' : World) :
    Counted n (poolStep w (.elsewhere w')) :=
  ⟨h.lending.of_same rfl rfl rfl rfl rfl, h.outstanding, h.total, h.fits, h.target, h.bounded⟩

private theorem poolStep_forcedReset {n : Nat} {w : World} (h : Counted n w)
    (hempty : w.txQueue = []) :
    poolStep w .forcedReset = w := by
  have hout : w.outstandingWrites = 0 := by
    rw [h.outstanding, hempty]
    rfl
  unfold poolStep
  dsimp only
  rw [← hout]

theorem poolStep_balanced (w : World) (op : PoolOp) (hw : Balanced w) (hop : ResetExact w op) :
    Balanced (poolStep w op) := by
  cases op with
  | allocate i => exact allocateRenderIoPool_balanced i w hw
  | free => exact freeRenderIoPool_balanced w hw
  | reclaim o => exact (reclaimRenderPacket_does o w).balanced (by decide) hw
  | detach o => exact (detachRenderWrites_does [o] w).balanced (by decide) hw
  | preroll o => exact (prerollRender_does 1 [o] w).balanced (by decide) hw
  | chooseTarget => exact (chooseTarget_does w).balanced (by decide) hw
  | submit o => exact (submitPass_does o w).balanced (by decide) hw
  | submitLate o => exact (submitLate_does o w).balanced (by decide) hw
  | elsewhere w' => exact hw.imp (fun h => h.elsewhere w') (fun h => h.elsewhere w')
  | forcedReset =>
      rcases hw with h | h
      · rw [poolStep_forcedReset h hop]
        exact Or.inl h
      · rw [poolStep_forcedReset h hop]
        exact Or.inr h

theorem Counted.conserved {n : Nat} {w : World} (h : Counted n w)
    (hn : n = 0 ∨ n = renderIoPoolSize) : Conserved w := by
  obtain ⟨pooled, hstocked⟩ := h.lending.stocked
  have hids : (pooled.map PcmIo.id).Nodup := (List.nodup_append'.mp hstocked.distinct).1
  have hrest := (List.nodup_append'.mp hstocked.distinct).2.1
  constructor
  · intro i hi
    obtain ⟨io, hmem, hslot⟩ := hstocked.holds.filled hi
    exact ⟨io, hslot, hstocked.not_queued hmem⟩
  · intro i hi j hj a b ha hb hab
    obtain ⟨hlength, hslots⟩ := hstocked.holds
    rw [hslots] at ha hb
    have hlt : i < (pooled.map PcmIo.id).length := by
      rw [List.length_map, hlength]
      exact hi
    refine (List.getElem?_inj hlt hids).mp ?_
    rw [List.getElem?_map, List.getElem?_map, ha, hb, Option.map_some, Option.map_some, hab]
  · intro i hi
    exact hstocked.holds.vacant hi
  · exact h.outstanding
  · rw [h.total]
    exact hn
  · exact h.bounded
  · exact (List.nodup_append'.mp hrest).2.1
  · exact fun id hfreed hqueued => (List.nodup_append'.mp hrest).2.2 hqueued hfreed
  · intro newer io older hsplit
    have hloans : loans .queue w.history =
        loans .queue newer ++ .reuse io.id :: loans .queue older := by
      rw [hsplit, loans_append, loans_cons_of_some .queue (.freed io) _ _ rfl]
    exact (respected_iff _).mp h.lending.respected _ _ _ hloans io.id rfl

theorem World.fresh_counted (buffer : Option Memory)
    (bufferSize notificationCount packetSize : ULONG) :
    Counted 0 (World.fresh buffer bufferSize notificationCount packetSize) :=
  ⟨⟨⟨[], World.fresh_stocked _ _ _ _⟩, fun _ h => h.elim, trivial⟩, rfl, rfl, Nat.zero_le _,
    Nat.zero_le _, Nat.zero_le _⟩

end Viosnd.Render
