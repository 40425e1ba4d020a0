import Viosnd.VirtIO.UsedElements

/-!
# What the descriptor table of a split ring represents

Free descriptors and chains in flight share one array of links. Beside the queue stand the heads of
the chains in flight, as the calls made and ended them: the table must read back as these chains and
the free list, and the two ring indices as their number.
-/

namespace Viosnd.VirtIO

open Paths StepRun

variable {β : Type}

/-- The table, the buffers and the indices of a ring with the chains headed by `flight`. -/
structure SplitRing.Represents (q : SplitRing β) (flight : List ℕ) : Prop where
  /-- The first `num_unused` links visit `num_unused` descriptors. -/
  distinct : (freeDescs q).Nodup
  heads : flight.Nodup
  /-- A walk from a head comes to an end without meeting a descriptor twice. -/
  ends : ∀ head ∈ flight, (walkTo q.link q.more q.num head).isSome = true
  simple : ∀ head ∈ flight, (deviceWalk q head).Nodup
  apart : flight.Pairwise fun head head' => (deviceWalk q head).Disjoint (deviceWalk q head')
  offFree : ∀ head ∈ flight, (deviceWalk q head).Disjoint (freeDescs q)
  cover : ∀ d, d < q.num ↔ d ∈ freeDescs q ∨ ∃ head ∈ flight, d ∈ deviceWalk q head
  buffers : ∀ head, (q.data head).isSome = true ↔ head ∈ flight
  /-- The device sees the index the driver keeps. -/
  shown : q.availIdx = q.masterIdx
  count : (q.availIdx - q.lastUsed).toNat = flight.length

/-! ## Chains in flight, call by call -/

/-- The heads of the chains in flight after a call. -/
def trackFlight (q : SplitRing β) (flight : List ℕ) : ControlInput β → List ℕ
  | .call (.addBuf sg rest out io page) =>
      match virtqueueAddBufSplit sg rest out io page q with
      | none => flight
      | some q' => flight ++ [q'.availRing (descIndex q.num q.masterIdx)]
  | .call .getBuf => if q.lastUsed = q.usedIdx then flight else flight.erase q.nextUsed
  | .detachUnusedBuf =>
      match firstInUse q with
      | none => flight
      | some head => flight.erase head
  | .shutdown => []
  | _ => flight

/-- A queue with the heads of its chains in flight. -/
structure TrackedSplit (β : Type) where
  control : SplitControl β
  flight : List ℕ

/-- One call, or one write of the device, with `vdev->addr` for a shutdown. -/
def TrackedSplit.step (addr : BitVec 64) (t : TrackedSplit β) (i : ControlInput β) :
    TrackedSplit β where
  control :=
    match i with
    | .shutdown => virtqueueShutdownSplit addr t.control
    | i => splitAfter t.control i
  flight := trackFlight t.control.vq.ring t.flight i

/-- The device returns nothing but chains in flight. -/
def IdsInFlight (t : TrackedSplit β) : ControlInput β → Prop
  | .call .getBuf =>
      t.control.vq.ring.lastUsed = t.control.vq.ring.usedIdx ∨
        t.control.vq.ring.nextUsed ∈ t.flight
  | _ => True

/-! ## The invariant -/

/-- The chains in flight are `chains`, in some order. -/
structure Represented (q : SplitRing β) (flight free : List ℕ) (chains : List (Chain β)) : Prop
    extends Layout q free chains where
  heads : flight.Perm (chains.map Chain.head)
  shown : q.availIdx = q.masterIdx
  index : q.masterIdx = q.lastUsed + BitVec.ofNat 16 chains.length

variable {q q' : SplitRing β} {flight free : List ℕ} {chains others : List (Chain β)} {c : Chain β}

private theorem Layout.chains_apart (h : Layout q free chains) :
    chains.Pairwise fun c c' => c.descs.Disjoint c'.descs := by
  have hnodup := (List.nodup_append.mp h.nodup).2.1
  exact (List.nodup_flatMap.mp hnodup).2

namespace Represented

theorem of_perm (h : Represented q flight free chains) (hperm : chains.Perm others) :
    Represented q flight free others := by
  refine ⟨h.toLayout.of_perm hperm, h.heads.trans (hperm.map _), h.shown, ?_⟩
  rw [← hperm.length_eq]
  exact h.index

theorem of_sameBooks (h : Represented q flight free chains) (hsame : q.SameBooks q') :
    Represented q' flight free chains := by
  refine ⟨h.toLayout.of_sameBooks hsame, h.heads, ?_, ?_⟩
  · rw [hsame.availIdx, hsame.masterIdx]
    exact h.shown
  · rw [hsame.masterIdx, hsame.lastUsed]
    exact h.index

private theorem exists_chain (h : Represented q flight free chains) {head : ℕ}
    (hhead : head ∈ flight) :
    ∃ c ∈ chains, c.head = head :=
  List.mem_map.mp (h.heads.mem_iff.mp hhead)

theorem exists_head (h : Represented q flight free chains) {head : ℕ} (hhead : head ∈ flight) :
    ∃ c others, c.head = head ∧ Represented q flight free (c :: others) := by
  obtain ⟨c, hc, hname⟩ := h.exists_chain hhead
  obtain ⟨others, hperm⟩ := (List.singleton_sublist.mpr hc).exists_perm_append
  exact ⟨c, others, hname, h.of_perm hperm⟩

private theorem data_iff (h : Represented q flight free chains) (head : ℕ) :
    (q.data head).isSome = true ↔ head ∈ flight := by
  rw [h.toLayout.inUse_iff, h.heads.mem_iff, List.mem_map]

theorem heads_nodup (h : Represented q flight free chains) : flight.Nodup := by
  apply h.heads.nodup_iff.mpr
  apply List.pairwise_map.mpr
  apply h.toLayout.chains_apart.imp
  intro c c' hapart heq
  exact hapart c.head_mem (heq ▸ c'.head_mem)

private theorem walks_apart (h : Represented q flight free chains) :
    flight.Pairwise fun head head' => (deviceWalk q head).Disjoint (deviceWalk q head') := by
  apply (h.heads.pairwise_iff fun hapart => hapart.symm).mpr
  apply List.pairwise_map.mpr
  apply h.toLayout.chains_apart.imp_of_mem
  intro c c' hc hc' hapart
  rwa [h.toLayout.deviceWalk_head hc, h.toLayout.deviceWalk_head hc']

private theorem cover_iff (h : Represented q flight free chains) (d : ℕ) :
    d < q.num ↔ d ∈ freeDescs q ∨ ∃ head ∈ flight, d ∈ deviceWalk q head := by
  have hmem : (∃ head ∈ flight, d ∈ deviceWalk q head) ↔ ∃ c ∈ chains, d ∈ c.descs := by
    constructor
    · intro ⟨head, hhead, hd⟩
      obtain ⟨c, hc, rfl⟩ := h.exists_chain hhead
      rw [h.toLayout.deviceWalk_head hc] at hd
      exact ⟨c, hc, hd⟩
    · intro ⟨c, hc, hd⟩
      refine ⟨c.head, h.heads.mem_iff.mpr (List.mem_map_of_mem hc), ?_⟩
      rwa [h.toLayout.deviceWalk_head hc]
  rw [hmem, h.toLayout.freeDescs_eq, ← List.mem_flatMap, ← List.mem_append, ← List.mem_range]
  exact h.cover.mem_iff.symm

theorem count_eq (h : Represented q flight free chains) (hnum : q.num < 2 ^ 16) :
    (q.availIdx - q.lastUsed).toNat = flight.length := by
  have hlength := h.heads.length_eq
  have hfull := h.toLayout.chains_length_le
  have hdiff : q.availIdx - q.lastUsed = BitVec.ofNat 16 chains.length := by
    rw [h.shown, h.index, BitVec.add_comm, BitVec.add_sub_cancel]
  rw [hdiff, BitVec.toNat_ofNat, hlength, List.length_map]
  apply Nat.mod_eq_of_lt
  omega

private theorem represents (h : Represented q flight free chains) (hnum : q.num < 2 ^ 16) :
    q.Represents flight where
  distinct := by
    rw [h.toLayout.freeDescs_eq]
    exact (List.nodup_append.mp h.toLayout.nodup).1
  heads := h.heads_nodup
  ends := by
    intro head hhead
    obtain ⟨c, hc, rfl⟩ := h.exists_chain hhead
    simp [h.toLayout.walkTo_head hc]
  simple := by
    intro head hhead
    obtain ⟨c, others, rfl, hfirst⟩ := h.exists_head hhead
    rw [deviceWalk_eq hfirst.toLayout]
    exact hfirst.toLayout.chain_nodup
  apart := h.walks_apart
  offFree := by
    intro head hhead d hd
    obtain ⟨c, hc, rfl⟩ := h.exists_chain hhead
    rw [h.toLayout.deviceWalk_head hc] at hd
    rw [h.toLayout.freeDescs_eq]
    exact h.toLayout.free_disjoint hc hd
  cover := h.cover_iff
  buffers := h.data_iff
  shown := h.shown
  count := h.count_eq hnum

/-! ## The calls -/

theorem add (h : Represented q flight free chains) {sg : Scatter} {rest : List Scatter} {out : ℕ}
    {io : β} {page : Option IndirectPage}
    (hadded : virtqueueAddBufSplit sg rest out io page q = some q') :
    ∃ c free', Represented q' (flight ++ [q'.availRing (descIndex q.num q.masterIdx)]) free'
      (c :: chains) := by
  obtain ⟨c, free', -, -, -, hlayout, hring⟩ := h.toLayout.add sg rest out io page hadded
  have hpublished : q'.availRing (descIndex q.num q.masterIdx) = c.head := by
    rw [hring]
    simp [publish]
  refine ⟨c, free', hlayout, ?_, ?_, ?_⟩
  · rw [hpublished, List.map_cons]
    exact (List.perm_append_singleton _ _).trans (h.heads.cons _)
  · rw [hring]
    rfl
  · rw [hring, List.length_cons]
    change q.masterIdx + 1 = _
    rw [h.index]
    exact ofNat_succ _ _

private theorem erase_head (h : Represented q flight free (c :: others)) :
    (flight.erase c.head).Perm (others.map Chain.head) := by
  have herased := h.heads.erase c.head
  rwa [List.map_cons, List.erase_cons_head] at herased

/-- A new element that names a head in flight ends its chain. -/
theorem getBuf (h : Represented q flight free chains) (hnew : q.lastUsed ≠ q.usedIdx)
    (hhead : q.nextUsed ∈ flight) :
    ∃ r next free' others, virtqueueGetBufSplit q = some (r, next) ∧
      Represented next (flight.erase q.nextUsed) free' others := by
  obtain ⟨c, others, hname, hfirst⟩ := h.exists_head hhead
  obtain ⟨next, hget, hlayout, hring⟩ :=
    getBuf_some q c others hfirst.toLayout hnew hname.symm
  refine ⟨_, next, c.descs ++ free, others, hget, hlayout, ?_, ?_, ?_⟩
  · rw [← hname]
    exact hfirst.erase_head
  · rw [hring]
    exact h.shown
  · rw [hring]
    change q.masterIdx = q.lastUsed + 1 + BitVec.ofNat 16 others.length
    rw [hfirst.index, List.length_cons, ← ofNat_succ, BitVec.add_assoc, BitVec.add_assoc,
      BitVec.add_comm 1]

/-- Detaching ends the chain of the lowest index with a buffer. -/
theorem detach (h : Represented q flight free chains) {head : ℕ}
    (hfirst : firstInUse q = some head) :
    ∃ r next free' others, virtqueueDetachUnusedBufSplit q = some (r, next) ∧
      Represented next (flight.erase head) free' others := by
  have hhead : head ∈ flight := (h.data_iff head).mp (firstInUse_data hfirst)
  obtain ⟨c, others, rfl, htaken⟩ := h.exists_head hhead
  obtain ⟨next, hdetach, hlayout, hring⟩ := detach_some q c others htaken.toLayout hfirst
  refine ⟨_, next, c.descs ++ free, others, hdetach, hlayout, htaken.erase_head, ?_, ?_⟩
  · rw [hring]
  · rw [hring]
    change q.masterIdx - 1 = q.lastUsed + BitVec.ofNat 16 others.length
    rw [htaken.index, List.length_cons, ← ofNat_succ, BitVec.add_sub_cancel]

end Represented

/-! ## Runs -/

/-- A queue of `num` descriptors with its chains in flight. -/
def TrackedSplit.Kept (num : ℕ) (t : TrackedSplit β) : Prop :=
  t.control.vq.ring.num = num ∧ ∃ free chains, Represented t.control.vq.ring t.flight free chains

private theorem initSplitControl_kept (a : NewArgs) (m : SplitControl β) :
    TrackedSplit.Kept a.num ⟨initSplitControl a m.zeroPages, []⟩ := by
  refine ⟨rfl, List.range a.num, [], ?_⟩
  rw [initSplitControl_ring]
  have hnew := Layout.new β a.num m.vq.ring.eventSuppression
  exact ⟨hnew.congr rfl rfl rfl rfl rfl, List.Perm.nil, rfl, rfl⟩

private theorem splitCallbackStep_represented {q : SplitVirtqueue β}
    (h : Represented q.ring flight free chains) (i : CallbackInput β)
    (hids : i = .getBuf → q.ring.lastUsed = q.ring.usedIdx ∨ q.ring.nextUsed ∈ flight) :
    ∃ free' chains', Represented (splitCallbackStep q i).ring
      (trackFlight q.ring flight (.call i)) free' chains' := by
  cases i with
  | addBuf sg rest out io page =>
      cases hadd : virtqueueAddBufSplit sg rest out io page q.ring with
      | none =>
          refine ⟨free, chains, ?_⟩
          simpa [splitCallbackStep, trackFlight, hadd] using h
      | some next =>
          obtain ⟨c, free', hnext⟩ := h.add hadd
          refine ⟨free', c :: chains, ?_⟩
          simpa [splitCallbackStep, trackFlight, hadd] using hnext
  | getBuf =>
      by_cases hidle : q.ring.lastUsed = q.ring.usedIdx
      · have hget := getBufSplit_idle hidle
        refine ⟨free, chains, ?_⟩
        simpa [splitCallbackStep, trackFlight, hget, hidle] using h
      · have hhead := (hids rfl).resolve_left hidle
        obtain ⟨r, next, free', others, hget, hnext⟩ := h.getBuf hidle hhead
        refine ⟨free', others, ?_⟩
        simpa [splitCallbackStep, trackFlight, hget, hidle] using hnext
  | _ => exact ⟨free, chains, h.of_sameBooks (splitCallbackStep_sameBooks q id)⟩

private theorem detachSplit_represented {control : SplitControl β}
    (h : Represented control.vq.ring flight free chains) :
    ∃ free' chains', Represented (splitAfter control .detachUnusedBuf).vq.ring
      (trackFlight control.vq.ring flight .detachUnusedBuf) free' chains' := by
  cases hfirst : firstInUse control.vq.ring with
  | none =>
      refine ⟨free, chains, ?_⟩
      simpa [splitAfter, splitControlStep, SplitControl.withRing, virtqueueDetachUnusedBufSplit,
        trackFlight, hfirst] using h
  | some head =>
      obtain ⟨r, next, free', others, hdetach, hnext⟩ := h.detach hfirst
      refine ⟨free', others, ?_⟩
      simpa [splitAfter, splitControlStep, SplitControl.withRing, trackFlight, hfirst, hdetach]
        using hnext

theorem TrackedSplit.step_kept {num : ℕ} (hpower : num &&& (num - 1) = 0) (addr : BitVec 64)
    (t : TrackedSplit β) (i : ControlInput β) (h : t.Kept num) (hids : IdsInFlight t i) :
    (t.step addr i).Kept num := by
  obtain ⟨hnum, free, chains, hrep⟩ := h
  cases i with
  | call i =>
      refine ⟨(splitCallbackStep_num t.control.vq i).trans hnum, ?_⟩
      apply splitCallbackStep_represented hrep
      intro hget
      subst hget
      exact hids
  | detachUnusedBuf =>
      refine ⟨?_, detachSplit_represented hrep⟩
      exact (splitControlStep_detach_num t.control).trans hnum
  | kick => exact ⟨hnum, free, chains, hrep.of_sameBooks (by constructor <;> rfl)⟩
  | kickAlways => exact ⟨hnum, free, chains, hrep.of_sameBooks (by constructor <;> rfl)⟩
  | notice split packed => exact ⟨hnum, free, chains, hrep⟩
  | shutdown =>
      subst hnum
      simp only [step, trackFlight, virtqueueShutdownSplit]
      rw [newSplitControl_eq_some_iff.mpr ⟨hpower, rfl⟩]
      exact initSplitControl_kept _ t.control

/-- From the constructor on, whatever is added, fetched, detached and shut down, the table reads
back as the free list and the chains in flight, if the device returns only chains in flight. -/
theorem newSplitControl_represents {a : NewArgs} {m c : SplitControl β} (hnum : a.num < 2 ^ 16)
    (hnew : newSplitControl a m.zeroPages = some c) (addr : BitVec 64)
    (inputs : List (ControlInput β))
    (hids : Guarded (TrackedSplit.step addr) IdsInFlight ⟨c, []⟩ inputs) :
    (run (TrackedSplit.step addr) ⟨c, []⟩ inputs).control.vq.ring.Represents
      (run (TrackedSplit.step addr) ⟨c, []⟩ inputs).flight := by
  obtain ⟨hpower, rfl⟩ := newSplitControl_eq_some_iff.mp hnew
  have hkept := hids.invariant (TrackedSplit.step_kept hpower addr) (initSplitControl_kept a m)
  obtain ⟨hsize, free, chains, hrep⟩ := hkept
  apply hrep.represents
  rw [hsize]
  exact hnum

/-- Of two requests the device returns the second, whose descriptor a third one gets. After a
shutdown the queue takes a fourth. -/
def smallTraffic : List (ControlInput Unit) :=
  [.call (.addBuf ⟨0x1000, 8⟩ [⟨0x2000, 8⟩] 1 () none), .call (.addBuf ⟨0x3000, 4⟩ [] 0 () none),
    .call (.device (fun _ => ⟨2, 4⟩) 1 fun _ => ⟨0, 0, 0, ⟨false, false, false, false, false⟩⟩),
    .call .getBuf, .call (.addBuf ⟨0x4000, 8⟩ [⟨0x5000, 8⟩] 1 () (some ⟨0x6000⟩)), .detachUnusedBuf,
    .shutdown, .call (.addBuf ⟨0x7000, 8⟩ [⟨0x8000, 8⟩] 1 () none)]

/-- Four descriptors, all of them free. -/
def smallQueue : TrackedSplit Unit := ⟨initSplitControl smallSetup.args clearSplit.zeroPages, []⟩

theorem smallTraffic_represents :
    (run (TrackedSplit.step 0) smallQueue smallTraffic).control.vq.ring.Represents
      (run (TrackedSplit.step 0) smallQueue smallTraffic).flight :=
  newSplitControl_represents (a := smallSetup.args) (m := clearSplit) (by decide) rfl 0 smallTraffic
    ⟨trivial, trivial, trivial, Or.inr (by decide), trivial, trivial, trivial, trivial, trivial⟩

end Viosnd.VirtIO
