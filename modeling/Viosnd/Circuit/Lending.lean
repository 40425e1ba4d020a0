import Viosnd.Circuit.Callbacks
import Viosnd.Lib.Tokens

/-!
# Periods lent to the device

A period is in flight exactly while a chain of its array is on the virtqueue, and there is one chain
for it. This stays so as long as the periods are not freed under the device.
-/

namespace Viosnd.Circuit

open StepRun EffectSystem Tokens

open Acx (Ready)

/-- Period `i` is in flight. -/
def Stream.Out (s : Stream) (i : ℕ) : Prop := i < s.periodCount ∧ (s.period i).inFlight = true

structure Lending (s : Stream) : Prop where
  wired : Wired s
  matched : Matched Chain.period s.queue.items s.Out
  current : ∀ chain ∈ s.queue.items, s.periods = some chain.array
  packet : ∀ chain ∈ s.queue.items, (s.period chain.period).packet = chain.packet
  noStale : s.log.staleTokens = 0
  connected : s.hasQueue = false → s.queue.items = []

variable {s s' : Stream}

theorem Lending.aside (h : Lending s) (ha : Aside s s')
    (hstale : s'.log.staleTokens = s.log.staleTokens) : Lending s' := by
  refine ⟨h.wired.aside ha, ?_, ?_, ?_, hstale.trans h.noStale, ?_⟩
  · rw [ha.queue]
    refine h.matched.of_perm (List.Perm.refl _) fun i => ?_
    unfold Stream.Out
    rw [ha.periodCount, ha.period]
  · rw [ha.queue, ha.periods]
    exact h.current
  · rw [ha.queue, ha.period]
    exact h.packet
  · rw [ha.queue, ha.hasQueue]
    exact h.connected

theorem Lending.setPeriod (h : Lending s) {i : ℕ} {p : Period}
    (hfree : (s.period i).inFlight = false) (hp : p.inFlight = false) :
    Lending (s.setPeriod i p) := by
  have hflight : ∀ j, ((s.setPeriod i p).period j).inFlight = (s.period j).inFlight := by
    intro j
    by_cases hj : j = i
    · subst hj
      simp only [Stream.setPeriod, Function.update_self, hp, hfree]
    · simp only [Stream.setPeriod, Function.update_of_ne hj]
  refine ⟨h.wired.setPeriod i p, ?_, h.current, fun chain hchain => ?_, h.noStale, h.connected⟩
  · refine h.matched.of_perm (List.Perm.refl _) fun j => ?_
    unfold Stream.Out
    rw [hflight]
    rfl
  · have hout := (h.matched.mem hchain).2
    have hne : chain.period ≠ i := by
      rintro rfl
      rw [hfree] at hout
      cases hout
    simp only [Stream.setPeriod, Function.update_of_ne hne]
    exact h.packet chain hchain

theorem Lending.sent (h : Lending s) {i cost : ℕ} {queue : BoundedQueue Chain Answer}
    (hperiods : s.periods ≠ none) (hqueue : s.hasQueue = true) (hi : i < s.periodCount)
    (hfree : (s.period i).inFlight = false) (hadd : s.queue.add (s.chain i) cost = some queue) :
    Lending (s.sent i queue) := by
  obtain ⟨a, ha⟩ := Option.ne_none_iff_exists'.mp hperiods
  have hitems := BoundedQueue.add_items hadd
  have hself : (s.sent i queue).period i = { s.period i with
      inFlight := true } := Function.update_self _ _ _
  have hother : ∀ j, j ≠ i → (s.sent i queue).period j = s.period j :=
    fun j hj => Function.update_of_ne hj _ _
  refine ⟨h.wired.sent hperiods hi hadd, ?_, fun chain hchain => ?_, fun chain hchain => ?_,
    h.noStale, fun hnone => absurd (hnone.symm.trans hqueue) (by decide)⟩
  · refine h.matched.add hitems ?_ fun j => ?_
    · rintro ⟨-, hout⟩
      exact absurd (hfree.symm.trans hout) (by decide)
    · unfold Stream.Out
      by_cases hj : j = i
      · subst hj
        rw [hself]
        exact iff_of_true ⟨hi, rfl⟩ (Or.inl rfl)
      · rw [hother j hj]
        exact (or_iff_right hj).symm
  · rcases List.mem_cons.mp (hitems.mem_iff.mp hchain) with rfl | hold
    · exact ha.trans (by simp [Stream.chain, ha])
    · exact h.current chain hold
  · rcases List.mem_cons.mp (hitems.mem_iff.mp hchain) with rfl | hold
    · change ((s.sent i queue).period i).packet = (s.period i).packet
      rw [hself]
    · have hne : chain.period ≠ i := by
        rintro rfl
        exact absurd (hfree.symm.trans (h.matched.mem hold).2) (by decide)
      rw [hother _ hne]
      exact h.packet chain hold

theorem Lending.released (h : Lending s) {chain : Chain} {answer : Answer}
    {queue : BoundedQueue Chain Answer} (hget : s.queue.get = some ((chain, answer), queue)) :
    Lending ({ s with
      queue := queue }.release chain.period) := by
  have hitems := BoundedQueue.get_items hget
  have hsub := get_sub hget
  have hother : ∀ j, j ≠ chain.period →
      ({ s with
        queue := queue }.release chain.period).period j = s.period j :=
    fun j hj => Function.update_of_ne hj _ _
  refine ⟨(h.wired.fewer hsub).setPeriod _ _, ?_,
    fun other hmem => h.current other (hsub other hmem), fun other hmem => ?_, h.noStale,
    fun hnone => ?_⟩
  · refine h.matched.remove hitems fun j => ?_
    unfold Stream.Out
    by_cases hj : j = chain.period
    · subst hj
      have hself : ({ s with
          queue := queue }.release chain.period).period chain.period = { s.period chain.period with
            inFlight := false } := Function.update_self _ _ _
      rw [hself]
      exact iff_of_false (fun hout => Bool.false_ne_true hout.2) (fun hne => hne.1 rfl)
    · rw [hother j hj]
      exact (and_iff_right hj).symm
  · rw [hother _ (h.matched.slot_ne hitems hmem)]
    exact h.packet other (hsub other hmem)
  · apply List.eq_nil_iff_forall_not_mem.mpr
    intro other hmem
    have hold := hsub other hmem
    rw [h.connected hnone] at hold
    exact List.not_mem_nil hold

private theorem lending_of_empty (hwired : Wired s) (hitems : s.queue.items = [])
    (hout : ∀ i, ¬ s.Out i) (hstale : s.log.staleTokens = 0) : Lending s := by
  refine ⟨hwired, ?_, ?_, ?_, hstale, fun _ => hitems⟩
  · rw [hitems]
    exact matched_nil hout
  · simp [hitems]
  · simp [hitems]

theorem Lending.not_out (h : Lending s) (hitems : s.queue.items = []) (i : ℕ) : ¬ s.Out i := by
  intro hout
  have hmem := (h.matched.marks i).mpr hout
  rw [hitems] at hmem
  exact List.not_mem_nil hmem

theorem Lending.empty_of_none (h : Lending s) (hnone : s.periods = none) : s.queue.items = [] := by
  apply List.eq_nil_iff_forall_not_mem.mpr
  intro chain hchain
  exact Option.some_ne_none _ ((h.current chain hchain).symm.trans hnone)

theorem Lending.freeStreamPeriods (h : Lending s) (hprepared : s.prepared = false)
    (hitems : s.queue.items = []) : Lending (freeStreamPeriods s) := by
  have hwired := (Effect.freePeriods s hprepared).wired h.wired
  unfold Circuit.freeStreamPeriods at hwired ⊢
  split
  · exact h
  · rename_i hperiods
    rw [if_neg hperiods] at hwired
    exact lending_of_empty hwired hitems (fun i hout => absurd hout.1 (Nat.not_lt_zero i)) h.noStale

theorem Lending.cleanup (h : Lending s) (hitems : s.queue.items = []) :
    Lending (evtStreamCleanup s) := by
  have hwired := (Effect.cleanup s).wired h.wired
  unfold evtStreamCleanup Circuit.freeStreamPeriods at hwired ⊢
  dsimp only at hwired ⊢
  split
  · rename_i hperiods
    rw [if_pos hperiods] at hwired
    exact lending_of_empty hwired hitems (fun i => h.not_out hitems i) h.noStale
  · rename_i hperiods
    rw [if_neg hperiods] at hwired
    exact lending_of_empty hwired hitems (fun i hout => absurd hout.1 (Nat.not_lt_zero i)) h.noStale

private theorem queueRenderPacket_stale (s : Stream) (packet : ULONG) :
    (queueRenderPacket s packet).log.staleTokens = s.log.staleTokens := by
  unfold queueRenderPacket
  split
  · rfl
  · rfl

theorem popRenderPacket_log (s : Stream) : (popRenderPacket s).log = s.log := by
  unfold popRenderPacket
  split
  · rfl
  · rfl

private theorem clearRenderQueue_stale (s : Stream) :
    (clearRenderQueue s).log.staleTokens = s.log.staleTokens := by
  unfold clearRenderQueue
  split
  · rfl
  · rfl

private theorem copyCapture_stale (s : Stream) (packetNumber : ULONGLONG) :
    (copyCapture s packetNumber).log.staleTokens = s.log.staleTokens := by
  unfold copyCapture
  split
  · rfl
  · rfl

theorem allocateRtPackets_log (s : Stream) (packetCount packetSize : ℕ) (allocated : Bool) :
    (allocateRtPackets s packetCount packetSize allocated).2.log = s.log := by
  unfold allocateRtPackets
  dsimp only
  split
  · rfl
  · split
    · rfl
    · rfl

/-- The changes that may free periods or take the preparation back. -/
def Kind.Frees (k : Kind) : Prop := k = .freePeriods ∨ k = .cleanup

/-- Every change but these keeps the loans. -/
theorem Effect.lending {k : Kind} (heffect : Effect k s s') (hk : ¬ k.Frees) (h : Lending s) :
    Lending s' := by
  have hwired := heffect.wired h.wired
  cases heffect with
  | tune | flags | unprepare =>
      exact ⟨hwired, h.matched, h.current, h.packet, h.noStale, h.connected⟩
  | accept _ packet _ =>
      exact h.aside (queueRenderPacket_aside s packet) (queueRenderPacket_stale s packet)
  | clear => exact h.aside (clearRenderQueue_aside s) (clearRenderQueue_stale s)
  | submitRender _ packet index i queue _ _ hperiods hqueue _ _ hfree hadd =>
      obtain ⟨hi, hflight⟩ := freePeriod_spec hfree
      have hfilled : Lending (s.fillRender index i packet) :=
        (h.aside (copy_aside s index) rfl).setPeriod hflight hflight
      have hflight' : ((s.fillRender index i packet).period i).inFlight = false := by
        simpa [Stream.fillRender, Stream.setPeriod, Stream.copy] using hflight
      have hsent := hfilled.sent hperiods hqueue hi hflight' hadd
      exact hsent.aside (popRenderPacket_aside _)
        (congrArg Log.staleTokens (popRenderPacket_log _))
  | fillRender _ packet index i _ hfree =>
      have hflight := (freePeriod_spec hfree).2
      exact (h.aside (copy_aside s index) rfl).setPeriod hflight hflight
  | fail _ packet _ =>
      exact (h.aside (fail_aside s packet) rfl).aside (popRenderPacket_aside _)
        (congrArg Log.staleTokens (popRenderPacket_log _))
  | submitCapture _ i packetNumber queue _ _ hperiods hqueue hi hfree hadd =>
      have hfilled : Lending (s.fillCapture i packetNumber) := h.setPeriod hfree hfree
      have hflight' : ((s.fillCapture i packetNumber).period i).inFlight = false := by
        simpa [Stream.fillCapture, Stream.setPeriod] using hfree
      exact hfilled.sent hperiods hqueue hi hflight' hadd
  | fillCapture _ i packetNumber hfree => exact h.setPeriod hfree hfree
  | takeRender _ chain answer queue hget _ =>
      exact (h.released hget).aside (count_aside _ _ _) rfl
  | takeCapture _ chain answer queue hget _ =>
      exact ((h.released hget).aside (copyCapture_aside _ _) (copyCapture_stale _ _)).aside
        (count_aside _ _ _) rfl
  | staleRender _ chain answer queue hget hperiods =>
      have hmem := (BoundedQueue.get_items hget).mem_iff.mpr List.mem_cons_self
      exact absurd (h.current chain hmem) hperiods
  | staleCapture _ chain answer queue hget hperiods =>
      have hmem := (BoundedQueue.get_items hget).mem_iff.mpr List.mem_cons_self
      exact absurd (h.current chain hmem) hperiods
  | deliver _ c =>
      have hitems := BoundedQueue.complete_items s.queue (c.chain % s.queue.inFlight.length)
        c.answer
      refine ⟨hwired, h.matched.of_perm hitems fun _ => Iff.rfl,
        fun chain hchain => h.current chain (hitems.mem_iff.mp hchain),
        fun chain hchain => h.packet chain (hitems.mem_iff.mp hchain), h.noStale, fun hnone => ?_⟩
      exact (hitems.trans (h.connected hnone ▸ List.Perm.refl _)).eq_nil
  | newPeriods _ periodBytes _ hnone _ =>
      refine lending_of_empty hwired (h.empty_of_none hnone) (fun i hout => ?_) h.noStale
      exact absurd hout.2 (by simp [Stream.withPeriods])
  | freePeriods => exact absurd (Or.inl rfl) hk
  | allocatePackets _ packetCount packetSize _ _ _ =>
      exact h.aside (allocateRtPackets_aside s packetCount packetSize true)
        (congrArg Log.staleTokens (allocateRtPackets_log s packetCount packetSize true))
  | freePackets => exact h.aside (freeRtPacketStorage_aside s) rfl
  | create _ habsent =>
      refine lending_of_empty hwired (h.empty_of_none (h.wired.absent habsent)) (fun i hout => ?_)
        h.noStale
      exact absurd hout.1 (Nat.not_lt_zero i)
  | cleanup => exact absurd (Or.inr rfl) hk

/-- The loans, and that a stream that is not prepared has no chain on the virtqueue. -/
structure Lent (s : Stream) : Prop extends Lending s where
  idle : s.prepared = false → s.queue.items = []

theorem freeStreamPeriods_keeps (s : Stream) :
    (freeStreamPeriods s).prepared = s.prepared ∧ (freeStreamPeriods s).queue = s.queue := by
  unfold freeStreamPeriods
  split
  · exact ⟨rfl, rfl⟩
  · exact ⟨rfl, rfl⟩

/-- No change lets an unprepared stream have chains on the virtqueue, except that the preparation is
taken back. -/
theorem Effect.idle {k : Kind} (heffect : Effect k s s') (hk : k ≠ .unprepare) (h : Lending s)
    (hidle : s.prepared = false → s.queue.items = []) :
    s'.prepared = false → s'.queue.items = [] := by
  have hget : ∀ {chain answer queue}, s.queue.get = some ((chain, answer), queue) →
      s.prepared ≠ false := by
    intro chain answer queue hget hprepared
    have hmem := (BoundedQueue.get_items hget).mem_iff.mpr List.mem_cons_self
    rw [hidle hprepared] at hmem
    exact List.not_mem_nil hmem
  cases heffect with
  | flags _ prepared running _ hset =>
      rcases hset with rfl | ⟨rfl, -⟩
      · exact hidle
      · rintro ⟨⟩
  | unprepare => exact absurd rfl hk
  | accept _ packet _ =>
      rw [(queueRenderPacket_aside s packet).prepared, (queueRenderPacket_aside s packet).queue]
      exact hidle
  | clear =>
      rw [(clearRenderQueue_aside s).prepared, (clearRenderQueue_aside s).queue]
      exact hidle
  | submitRender _ packet index i queue _ hprepared =>
      intro hnot
      have hpop := popRenderPacket_aside ((s.fillRender index i packet).sent i queue)
      exact absurd (hnot.symm.trans (hpop.prepared.trans hprepared)) (by decide)
  | fail _ packet _ =>
      have hpop := (fail_aside s packet).trans (popRenderPacket_aside _)
      rw [hpop.prepared, hpop.queue]
      exact hidle
  | submitCapture _ i packetNumber queue _ hprepared =>
      exact fun hnot => absurd (hnot.symm.trans hprepared) (by decide)
  | takeRender _ chain answer queue hgot _ => exact fun hnot => absurd hnot (hget hgot)
  | takeCapture _ chain answer queue hgot _ =>
      have hcopy := copyCapture_aside ({ s with
        queue := queue }.release chain.period) (s.period chain.period).packetNumber
      exact fun hnot => absurd (hcopy.prepared.symm.trans hnot) (hget hgot)
  | staleRender _ chain answer queue hgot _ => exact fun hnot => absurd hnot (hget hgot)
  | staleCapture _ chain answer queue hgot _ =>
      have hcopy := copyCapture_aside { s with
        queue := queue }.stale chain.packetNumber
      exact fun hnot => absurd (hcopy.prepared.symm.trans hnot) (hget hgot)
  | deliver _ c =>
      intro hnot
      have hitems := BoundedQueue.complete_items s.queue (c.chain % s.queue.inFlight.length)
        c.answer
      exact (hitems.trans (hidle hnot ▸ List.Perm.refl _)).eq_nil
  | freePeriods =>
      rw [(freeStreamPeriods_keeps s).1, (freeStreamPeriods_keeps s).2]
      exact hidle
  | allocatePackets _ packetCount packetSize _ _ _ =>
      have haside := allocateRtPackets_aside s packetCount packetSize true
      rw [haside.prepared, haside.queue]
      exact hidle
  | create _ habsent => exact fun _ => h.empty_of_none (h.wired.absent habsent)
  | cleanup =>
      change (freeStreamPeriods s).prepared = false → (freeStreamPeriods s).queue.items = []
      rw [(freeStreamPeriods_keeps s).1, (freeStreamPeriods_keeps s).2]
      exact hidle
  | _ => exact hidle

theorem Effect.lent {k : Kind} (heffect : Effect k s s') (hunprepare : k ≠ .unprepare)
    (hcleanup : k ≠ .cleanup) (h : Lent s) : Lent s' := by
  refine ⟨?_, heffect.idle hunprepare h.toLending h.idle⟩
  by_cases hfree : k = .freePeriods
  · subst hfree
    cases heffect with
    | freePeriods _ hprepared => exact h.toLending.freeStreamPeriods hprepared (h.idle hprepared)
  · refine heffect.lending ?_ h.toLending
    rintro (heq | heq)
    · exact hfree heq
    · exact hcleanup heq

theorem Does.lending {K : Finset Kind} (h : Does K s s') (hfree : .freePeriods ∉ K)
    (hcleanup : .cleanup ∉ K) (hs : Lending s) : Lending s' := by
  refine h.invariant (fun k hk a b heffect => heffect.lending ?_) hs
  rintro (rfl | rfl)
  · exact hfree hk
  · exact hcleanup hk

theorem Does.lent {K : Finset Kind} (h : Does K s s') (hunprepare : .unprepare ∉ K)
    (hcleanup : .cleanup ∉ K) (hs : Lent s) : Lent s' := by
  refine h.invariant (fun k hk a b heffect => heffect.lent ?_ ?_) hs
  · rintro rfl
    exact hunprepare hk
  · rintro rfl
    exact hcleanup hk

theorem Lent.fresh (capture hasQueue : Bool) (queueSize : ℕ) :
    Lent (Stream.fresh capture hasQueue queueSize) :=
  ⟨lending_of_empty (Wired.fresh capture hasQueue queueSize) rfl
    (fun i hout => absurd hout.1 (Nat.not_lt_zero i)) rfl, fun _ => rfl⟩

end Viosnd.Circuit
