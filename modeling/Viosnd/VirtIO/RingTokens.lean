import Viosnd.VirtIO.PcmQueues

/-!
# The tokens on a split ring

What the driver has on a queue are the buffers whose `opaque` pointers the queue still holds. A
sound queue takes a token with every chain that is added and gives it back once.
-/

namespace Viosnd.VirtIO

variable {β : Type}

/-- The `opaque` pointers that are not `NULL`. -/
def SplitRing.tokens (q : SplitRing β) : List β := (List.range q.num).filterMap q.data

section

variable {q : SplitRing β} {free : List ℕ} {chains : List (Chain β)}

private theorem Layout.heads_nodup (h : Layout q free chains) : (chains.map Chain.head).Nodup := by
  have hdescs := (List.nodup_append.mp h.nodup).2.1
  rw [List.nodup_flatMap] at hdescs
  refine List.pairwise_map.mpr (hdescs.2.imp fun {a b} hdisjoint heq => ?_)
  have hboth : a.head ∈ b.descs := by
    rw [heq]
    exact b.head_mem
  exact hdisjoint a.head_mem hboth

theorem Layout.tokens_perm (h : Layout q free chains) :
    q.tokens.Perm (chains.map Chain.data) := by
  have hheads : ((List.range q.num).filter fun d => (q.data d).isSome).Perm
      (chains.map Chain.head) := by
    refine (List.perm_ext_iff_of_nodup (List.nodup_range.filter _) h.heads_nodup).mpr fun d => ?_
    rw [List.mem_filter, List.mem_range, h.inUse_iff, List.mem_map]
    refine and_iff_right_of_imp ?_
    rintro ⟨c, hc, rfl⟩
    exact h.lt_num hc c.head_mem
  have hdata : (chains.map Chain.head).filterMap q.data = chains.map Chain.data := by
    rw [List.filterMap_map, ← List.filterMap_eq_map']
    refine List.filterMap_congr fun c hc => ?_
    exact (h.has c hc).data
  have hsome : ((List.range q.num).filter fun d => (q.data d).isSome).filterMap q.data =
      q.tokens := by
    rw [List.filterMap_filter]
    refine List.filterMap_congr fun d _ => ?_
    cases q.data d <;> simp
  rw [← hsome, ← hdata]
  exact hheads.filterMap _

end

/-! ## Calls of the driver -/

section

variable {w : LiveQueue β}

theorem LiveQueue.Accounted.hung (h : w.Accounted) : w.hung = false := by
  obtain ⟨_, _, _, _, h⟩ := h
  exact h.running

theorem submit_tokens (h : w.Accounted) {request status : Scatter} {io : β} {ring : SplitRing β}
    (hadd : virtqueueAddBufSplit request [status] 1 io none w.ring = some ring) :
    (w.step (.submit request status io)).ring.tokens.Perm (io :: w.ring.tokens) := by
  obtain ⟨free, untaken, held, returned, h⟩ := h
  have hstep : w.step (.submit request status io) = submitBuf request status io w :=
    if_neg (by simp [h.running])
  obtain ⟨c, free', hdata, -, hnext, -⟩ := addBuf_consistent h hadd
  rw [hstep, submitBuf, hadd]
  refine hnext.layout.tokens_perm.trans ?_
  rw [List.append_assoc, List.singleton_append, List.map_append, List.map_cons, hdata]
  refine List.perm_middle.trans ((h.layout.tokens_perm.trans ?_).symm.cons io)
  rw [List.map_append]

theorem reclaim_tokens (h : w.Accounted) :
    (virtqueueGetBufSplit w.ring = some (none, w.ring) ∧ w.step .reclaim = w) ∨
      ∃ io len next, virtqueueGetBufSplit w.ring = some (some (some io, len), next) ∧
        w.ring.tokens.Perm (io :: (w.step .reclaim).ring.tokens) := by
  obtain ⟨free, untaken, held, returned, h⟩ := h
  have hstep : w.step .reclaim = reclaimBuf w := if_neg (by simp [h.running])
  rw [hstep]
  cases returned with
  | nil =>
      have hnone := getBuf_none h
      refine Or.inl ⟨hnone, ?_⟩
      rw [reclaimBuf, hnone]
  | cons c rest =>
      obtain ⟨next, hget, hnext, -⟩ := getBuf_consistent h
      refine Or.inr ⟨c.data, _, next, hget, ?_⟩
      rw [reclaimBuf, hget]
      refine h.layout.tokens_perm.trans (List.Perm.trans ?_
        (hnext.layout.tokens_perm.symm.cons c.data))
      simp only [List.map_append, List.map_cons, ← List.append_assoc]
      exact List.perm_middle

theorem detach_tokens (h : w.Accounted) (hg : WithdrawGuard w .detach) :
    (virtqueueDetachUnusedBufSplit w.ring = some (none, w.ring) ∧ w.step .detach = w) ∨
      ∃ io next, virtqueueDetachUnusedBufSplit w.ring = some (some io, next) ∧
        w.ring.tokens.Perm (io :: (w.step .detach).ring.tokens) := by
  obtain ⟨free, untaken, held, returned, h⟩ := h
  have hstep : w.step .detach = detachBuf w := if_neg (by simp [h.running])
  rw [hstep]
  cases hfound : firstInUse w.ring with
  | none =>
      have hnone : virtqueueDetachUnusedBufSplit w.ring = some (none, w.ring) := by
        rw [virtqueueDetachUnusedBufSplit, hfound]
      refine Or.inl ⟨hnone, ?_⟩
      rw [detachBuf, hnone]
  | some head =>
      obtain ⟨c, hc, rfl⟩ := h.mem_untaken (hg head hfound)
      obtain ⟨front, back, rfl⟩ := List.append_of_mem hc
      have hperm : ((front ++ c :: back) ++ (held ++ returned)).Perm
          (c :: ((front ++ back) ++ (held ++ returned))) := by
        rw [← List.cons_append]
        exact List.perm_middle.append_right _
      have hlayout := h.layout.of_perm hperm
      obtain ⟨next, hdetach, hnext, -⟩ := detach_some _ c _ hlayout hfound
      refine Or.inr ⟨c.data, next, hdetach, ?_⟩
      rw [detachBuf, hdetach]
      exact hlayout.tokens_perm.trans (hnext.tokens_perm.symm.cons c.data)

end

/-! ## Steps of the device -/

theorem take_tokens (w : LiveQueue β) : (w.step .take).ring.tokens = w.ring.tokens := by
  show (takeEntry w).ring.tokens = _
  unfold takeEntry
  split <;> rfl

theorem giveBack_tokens (w : LiveQueue β) (k : ℕ) (len : BitVec 32) :
    (w.step (.giveBack k len)).ring.tokens = w.ring.tokens := by
  show (giveBackChain k len w).ring.tokens = _
  unfold giveBackChain
  split <;> rfl

end Viosnd.VirtIO
