import Viosnd.Acx.Moves

/-!
# Periods in flight

A period is in flight from the moment its chain is added until a drain takes it off the used ring.
Its chain is on the virtqueue once.
-/

namespace Viosnd.Acx

def RenderStream.outstanding (s : RenderStream) : List ℕ :=
  s.txAvail.map TxChain.period ++ s.txUsed.map Completion.period

structure RenderStream.Lent (s : RenderStream) : Prop where
  nodup : s.outstanding.Nodup
  inFlight : ∀ i, i ∈ s.outstanding ↔ i < s.periodCount ∧ (s.periods i).inFlight = true

variable {s s' : RenderStream} {i : ℕ}

theorem freePeriod_spec (h : s.freePeriod = some i) :
    i < s.periodCount ∧ (s.periods i).inFlight = false := by
  have hmem := List.mem_of_find?_eq_some h
  have hflag := List.find?_some h
  exact ⟨List.mem_range.mp hmem, by simpa using hflag⟩

theorem freePeriod_none (h : s.freePeriod = none) (hi : i < s.periodCount) :
    (s.periods i).inFlight = true := by
  have hall := List.find?_eq_none.mp h i (List.mem_range.mpr hi)
  simpa using hall

theorem fillPeriod_inFlight (s : RenderStream) (i : ℕ) (packet : ULONG) (audio : List Byte)
    (j : ℕ) : ((s.fillPeriod i packet audio).periods j).inFlight = (s.periods j).inFlight := by
  unfold RenderStream.fillPeriod
  by_cases hij : j = i
  · subst hij
    simp [Period.fill]
  · simp [Function.update_of_ne hij]

theorem RenderStream.Lent.fillPeriod (h : s.Lent) (i : ℕ) (packet : ULONG) (audio : List Byte) :
    (s.fillPeriod i packet audio).Lent := by
  refine ⟨h.nodup, fun j => ?_⟩
  rw [fillPeriod_inFlight]
  exact h.inFlight j

theorem RenderStream.Lent.addChain (h : s.Lent) (hi : i < s.periodCount)
    (hfree : (s.periods i).inFlight = false) (packet : Ready) : (s.addChain i packet).Lent := by
  have hperm : (s.addChain i packet).outstanding.Perm (i :: s.outstanding) := by
    unfold RenderStream.outstanding RenderStream.addChain
    rw [List.map_append, List.append_assoc]
    exact List.perm_middle
  have hnew : i ∉ s.outstanding := by
    rw [h.inFlight, hfree]
    simp
  refine ⟨hperm.nodup_iff.mpr (List.nodup_cons.mpr ⟨hnew, h.nodup⟩), fun j => ?_⟩
  rw [hperm.mem_iff, List.mem_cons, h.inFlight]
  unfold RenderStream.addChain
  by_cases hij : j = i
  · subst hij
    simp [hi]
  · simp [hij]

theorem RenderStream.Lent.takeUsed (h : s.Lent) {c : Completion} {rest : List Completion}
    (hused : s.txUsed = c :: rest) : RenderStream.Lent { s with
      txUsed := rest
      periods := Function.update s.periods c.period { s.periods c.period with
        inFlight := false } } := by
  have hperm : s.outstanding.Perm
      (c.period :: (s.txAvail.map TxChain.period ++ rest.map Completion.period)) := by
    unfold RenderStream.outstanding
    rw [hused]
    exact List.perm_middle
  have hnodup := List.nodup_cons.mp (hperm.nodup_iff.mp h.nodup)
  refine ⟨hnodup.2, fun j => ?_⟩
  show j ∈ s.txAvail.map TxChain.period ++ rest.map Completion.period ↔ _
  by_cases hj : j = c.period
  · subst hj
    simp [hnodup.1]
  · have hmem := h.inFlight j
    rw [hperm.mem_iff, List.mem_cons, or_iff_right hj] at hmem
    rw [hmem]
    simp [Function.update_of_ne hj]

theorem RenderStream.Lent.deliver (h : s.Lent) {k : ℕ} {chain : TxChain}
    (hchain : s.txAvail[k]? = some chain) (status latencyBytes : ULONG) :
    (s.deliver k chain status latencyBytes).Lent := by
  have hperm : (s.deliver k chain status latencyBytes).outstanding.Perm s.outstanding := by
    obtain ⟨hlt, hget⟩ := List.getElem?_eq_some_iff.mp hchain
    have havail := (List.getElem_cons_eraseIdx_perm hlt).map TxChain.period
    rw [hget, List.map_cons] at havail
    unfold RenderStream.outstanding RenderStream.deliver
    rw [List.map_append, ← List.append_assoc]
    refine (List.perm_append_singleton _ _).trans ?_
    exact havail.append_right _
  refine ⟨hperm.nodup_iff.mpr h.nodup, fun j => ?_⟩
  rw [hperm.mem_iff, h.inFlight]
  unfold RenderStream.deliver
  by_cases hj : j = chain.period
  · subst hj
    simp
  · simp [Function.update_of_ne hj]

private theorem popRenderPacket_lent (h : s.Lent) (packet : Ready) :
    (popRenderPacket s packet).Lent := by
  unfold popRenderPacket
  split
  · exact ⟨h.nodup, h.inFlight⟩
  · exact h

theorem Moves.lent {a b : Place} (hmoves : Moves s a s' b) (h : s.Lent) : s'.Lent := by
  cases hmoves with
  | noRoom packet audio i hsource hfree hroom => exact h.fillPeriod i _ _
  | submit packet audio i hsource hfree hroom =>
      obtain ⟨hi, hflag⟩ := freePeriod_spec hfree
      apply (h.fillPeriod i _ _).addChain hi
      rw [fillPeriod_inFlight, hflag]
  | pop packet last => exact popRenderPacket_lent h packet
  | takeUsed c rest hused => exact h.takeUsed hused
  | _ => exact ⟨h.nodup, h.inFlight⟩

theorem World.lent_step (w : World) (h : w.stream.Lent) (i : Input) : (w.step i).stream.Lent := by
  apply World.step_cases (P := fun w' => w'.stream.Lent) w i h
  · exact fun _ _ _ _ => h
  · exact fun _ _ _ _ _ _ _ hmoves => hmoves.lent h
  · exact fun _ _ status latencyBytes hchain => h.deliver hchain status latencyBytes
  · exact fun _ _ => ⟨h.nodup, h.inFlight⟩

theorem RenderStream.fresh_lent (setup : Setup) : (RenderStream.fresh setup).Lent :=
  ⟨List.nodup_nil, fun i => by simp [RenderStream.outstanding, RenderStream.fresh]⟩

/-- With a period to spare, a queue with room for all periods has room. -/
theorem RenderStream.Lent.hasRoom (h : s.Lent) (hfree : s.freePeriod = some i)
    (hroom : s.periodCount ≤ s.txRoom) : s.TxHasRoom := by
  obtain ⟨hi, hflag⟩ := freePeriod_spec hfree
  have hnew : i ∉ s.outstanding := by
    rw [h.inFlight, hflag]
    simp
  have hsubset : i :: s.outstanding ⊆ List.range s.periodCount := by
    intro j hj
    rw [List.mem_range]
    rcases List.mem_cons.mp hj with rfl | hmem
    · exact hi
    · exact ((h.inFlight j).mp hmem).1
  have hlength := (List.subperm_of_subset (List.nodup_cons.mpr ⟨hnew, h.nodup⟩) hsubset).length_le
  unfold RenderStream.TxHasRoom
  simp only [RenderStream.outstanding, List.length_cons, List.length_append, List.length_map,
    List.length_range] at hlength
  omega

end Viosnd.Acx
