import Viosnd.VirtIO.LiveQueue
import Viosnd.VirtIO.Shutdown

/-!
# Used elements the device made up

`virtqueue_get_buf_split` takes the id of the next used element for the head of a chain and follows
the links from there. The packed routine first asks whether the id is in range and names a head.
Here the device writes whatever it likes, and a call is judged by the queue before and after it
alone.
-/

namespace Viosnd.VirtIO

open Paths StepRun

variable {β : Type}

def SplitRing.nextUsed (q : SplitRing β) : ℕ := q.usedHead (descIndex q.num q.lastUsed)

/-- A walk from `start` along continued descriptors comes to `d`. -/
def SplitRing.Visits (q : SplitRing β) (start d : ℕ) : Prop :=
  ∃ k, q.link^[k] start = d ∧ ∀ j < k, q.more (q.link^[j] start) = true

/-- What a call of `virtqueue_get_buf_split` must do whatever the device wrote. -/
structure SplitRing.Robust (q : SplitRing β) : Prop where
  /-- Of the tables only entries below `num` are touched. -/
  inRange : q.lastUsed ≠ q.usedIdx → ∀ d, q.Visits q.nextUsed d → d < q.num
  returns : (virtqueueGetBufSplit q).isSome = true
  /-- A buffer that is returned was in flight, and its chain is freed and no other. -/
  freed : ∀ io len q', virtqueueGetBufSplit q = some (some (some io, len), q') →
    q.data q.nextUsed = some io ∧ freeDescs q' = deviceWalk q q.nextUsed ++ freeDescs q ∧
      q'.data = Function.update q.data q.nextUsed none ∧
      ∀ h, h ≠ q.nextUsed → (q.data h).isSome = true → deviceWalk q' h = deviceWalk q h
  /-- When none is returned, nothing is freed. -/
  failed : ∀ r q', virtqueueGetBufSplit q = some (r, q') → (r.bind Prod.fst).isNone = true →
    freeDescs q' = freeDescs q ∧ q'.data = q.data

/-- There is no new element, or the next one names a chain in flight. -/
def SplitRing.NamesHead (q : SplitRing β) : Prop :=
  q.lastUsed = q.usedIdx ∨ (q.nextUsed < q.num ∧ (q.data q.nextUsed).isSome = true)

instance (q : SplitRing β) : Decidable q.NamesHead := inferInstanceAs (Decidable (_ ∨ _))

variable {q : SplitRing β} {free : List ℕ} {chains : List (Chain β)}

/-! ## One call -/

theorem getBufSplit_idle (h : q.lastUsed = q.usedIdx) :
    virtqueueGetBufSplit q = some (none, q) := if_pos h

/-- A new element frees what its id leads to, whether a buffer belongs to it or not. -/
private theorem getBufSplit_new (hnew : q.lastUsed ≠ q.usedIdx)
    {r : Option (Option β × BitVec 32) × SplitRing β} (h : virtqueueGetBufSplit q = some r) :
    r.1.bind Prod.fst = q.data q.nextUsed ∧ q.numUnused < r.2.numUnused ∧
      r.2.data = Function.update q.data q.nextUsed none := by
  unfold virtqueueGetBufSplit putUnusedDescChain at h
  rw [if_neg hnew] at h
  simp only [Option.map_map, Option.map_eq_some_iff] at h
  obtain ⟨walked, -, hr⟩ := h
  rw [← hr]
  dsimp only [Function.comp]
  refine ⟨rfl, ?_, ?_⟩
  · split_ifs <;> simp only [freeChain] <;> omega
  · split_ifs <;> rfl

private theorem SplitRing.Robust.namesHead (h : q.Robust) : q.NamesHead := by
  by_cases hnew : q.lastUsed = q.usedIdx
  · exact Or.inl hnew
  · right
    have hrange : q.nextUsed < q.num := h.inRange hnew q.nextUsed ⟨0, rfl, by simp⟩
    refine ⟨hrange, ?_⟩
    obtain ⟨r, hr⟩ := Option.isSome_iff_exists.mp h.returns
    have hfreed := getBufSplit_new hnew hr
    by_contra hnone
    have hfailed : (r.1.bind Prod.fst).isNone = true := by
      rw [hfreed.1]
      simpa using hnone
    have hsame := congrArg List.length (h.failed r.1 r.2 hr hfailed).1
    simp only [freeDescs, List.length_iterate] at hsame
    exact absurd hsame hfreed.2.1.ne'

theorem Layout.exists_head (h : Layout q free chains) {head : ℕ}
    (hhead : (q.data head).isSome = true) :
    ∃ c others, c.head = head ∧ Layout q free (c :: others) := by
  obtain ⟨c, hc, hname⟩ := (h.inUse_iff head).mp hhead
  obtain ⟨others, hperm⟩ := (List.singleton_sublist.mpr hc).exists_perm_append
  exact ⟨c, others, hname, h.of_perm hperm⟩

private theorem Layout.visits_lt {c : Chain β} {others : List (Chain β)}
    (h : Layout q free (c :: others)) {d : ℕ} (hd : q.Visits c.head d) : d < q.num := by
  have hc := h.has c List.mem_cons_self
  obtain ⟨k, hk, hmore⟩ := hd
  rw [← hk]
  apply h.lt_num (c := c) List.mem_cons_self
  exact hc.linked.visited hc.ends hmore

theorem Layout.deviceWalk_head {c : Chain β} (h : Layout q free chains) (hc : c ∈ chains) :
    deviceWalk q c.head = c.descs := by
  unfold deviceWalk
  rw [h.walkTo_head hc]
  rfl

private theorem SplitRing.robust_idle (hidle : q.lastUsed = q.usedIdx) : q.Robust := by
  have hget := getBufSplit_idle hidle
  constructor
  · intro hnew
    exact absurd hidle hnew
  · simp [hget]
  · intro io len q' hr
    simp [hget] at hr
  · intro r q' hr _
    simp only [hget, Option.some.injEq, Prod.mk.injEq] at hr
    rw [← hr.2]
    exact ⟨rfl, rfl⟩

private theorem Layout.robust_new {c : Chain β} {others : List (Chain β)}
    (h : Layout q free (c :: others)) (hnew : q.lastUsed ≠ q.usedIdx)
    (hname : c.head = q.nextUsed) : q.Robust := by
  obtain ⟨next, hget, hnext, -⟩ := getBuf_some q c others h hnew hname.symm
  have hdata : q.data q.nextUsed = some c.data := by
    rw [← hname]
    exact (h.has c List.mem_cons_self).data
  have hcleared := (getBufSplit_new hnew hget).2.2
  constructor
  · intro _ d hd
    rw [← hname] at hd
    exact h.visits_lt hd
  · simp [hget]
  · intro io len q' hr
    simp only [hget, Option.some.injEq, Prod.mk.injEq] at hr
    obtain ⟨⟨hio, -⟩, rfl⟩ := hr
    refine ⟨by rw [hdata, hio], ?_, hcleared, ?_⟩
    · rw [hnext.freeDescs_eq, h.freeDescs_eq, ← hname, deviceWalk_eq h]
    · intro head hne hsome
      obtain ⟨c', hc', hhead⟩ := (h.inUse_iff head).mp hsome
      have hother : c' ∈ others := by
        rcases List.mem_cons.mp hc' with hfirst | hother
        · exact absurd (by rw [← hhead, hfirst, hname]) hne
        · exact hother
      rw [← hhead, hnext.deviceWalk_head hother, h.deviceWalk_head hc']
  · intro r q' hr hfailed
    simp only [hget, Option.some.injEq, Prod.mk.injEq] at hr
    rw [← hr.1] at hfailed
    simp at hfailed

/-- With the descriptors in order a call is robust exactly when its element names a head. -/
private theorem Layout.robust_iff (h : Layout q free chains) : q.Robust ↔ q.NamesHead := by
  constructor
  · exact SplitRing.Robust.namesHead
  · intro hnames
    by_cases hidle : q.lastUsed = q.usedIdx
    · exact SplitRing.robust_idle hidle
    · obtain ⟨-, hsome⟩ := hnames.resolve_left hidle
      obtain ⟨c, others, hname, hlayout⟩ := h.exists_head hsome
      exact hlayout.robust_new hidle hname

/-! ## Runs -/

/-- The descriptors of a queue are in order. -/
def SplitControl.InOrder (c : SplitControl β) : Prop :=
  ∃ free chains, Layout c.vq.ring free chains

private theorem initSplitControl_inOrder (a : NewArgs) (c : SplitControl β) :
    (initSplitControl a c.zeroPages).InOrder := by
  refine ⟨List.range a.num, [], ?_⟩
  rw [initSplitControl_ring]
  exact (Layout.new β a.num c.vq.ring.eventSuppression).congr rfl rfl rfl rfl rfl

/-- The calls of `virtqueue_get_buf` in a run meet `P`. -/
def GetsMeet (P : SplitRing β → Prop) (c : SplitControl β) : ControlInput β → Prop
  | .call .getBuf => P c.vq.ring
  | _ => True

def splitAfter (c : SplitControl β) (i : ControlInput β) : SplitControl β :=
  (splitControlStep c i).1

/-- The rings agree in the table, the free list, the buffers and the indices of the driver. -/
structure SplitRing.SameBooks (q q' : SplitRing β) : Prop where
  num : q'.num = q.num
  desc : q'.desc = q.desc
  data : q'.data = q.data
  firstUnused : q'.firstUnused = q.firstUnused
  numUnused : q'.numUnused = q.numUnused
  availIdx : q'.availIdx = q.availIdx
  masterIdx : q'.masterIdx = q.masterIdx
  lastUsed : q'.lastUsed = q.lastUsed

theorem Layout.of_sameBooks {q' : SplitRing β} (h : Layout q free chains) (hsame : q.SameBooks q') :
    Layout q' free chains :=
  h.congr hsame.num hsame.desc hsame.data hsame.firstUnused hsame.numUnused

/-- What asks the device for interrupts is not in the books. -/
private theorem SplitRing.SameBooks.withEvents {q' : SplitRing β} (h : q.SameBooks q')
    (noInterrupt : Bool) (idx : U16) :
    q.SameBooks { q' with noInterrupt := noInterrupt, usedEvent := idx } :=
  ⟨h.num, h.desc, h.data, h.firstUnused, h.numUnused, h.availIdx, h.masterIdx, h.lastUsed⟩

private theorem SplitVirtqueue.clearNoInterrupt_sameBooks (vq : SplitVirtqueue β) :
    vq.ring.SameBooks vq.clearNoInterrupt.ring := by
  unfold SplitVirtqueue.clearNoInterrupt
  split_ifs
  · constructor <;> rfl
  · constructor <;> rfl

def CallbackInput.MovesBuf : CallbackInput β → Prop
  | .addBuf .. => True
  | .getBuf => True
  | _ => False

theorem splitCallbackStep_sameBooks (vq : SplitVirtqueue β) {i : CallbackInput β}
    (hi : ¬ i.MovesBuf) : vq.ring.SameBooks (splitCallbackStep vq i).ring := by
  cases i with
  | enableCb => exact vq.clearNoInterrupt_sameBooks.withEvents _ _
  | enableCbDelayed => exact vq.clearNoInterrupt_sameBooks.withEvents _ _
  | disableCb =>
      constructor <;> simp only [splitCallbackStep, virtqueueDisableCbSplit] <;> split_ifs <;> rfl
  | addBuf sg rest out io page => exact absurd trivial hi
  | getBuf => exact absurd trivial hi
  | device usedRing usedIdx desc => constructor <;> rfl

private theorem splitCallbackStep_inOrder {c : SplitControl β} (h : c.InOrder) (i : CallbackInput β)
    (hguard : GetsMeet SplitRing.NamesHead c (.call i)) :
    SplitControl.InOrder { c with vq := splitCallbackStep c.vq i } := by
  obtain ⟨free, chains, hlayout⟩ := h
  cases i with
  | addBuf sg rest out io page =>
      cases hadd : virtqueueAddBufSplit sg rest out io page c.vq.ring with
      | none =>
          refine ⟨free, chains, ?_⟩
          simpa [splitCallbackStep, hadd] using hlayout
      | some q' =>
          obtain ⟨chain, free', -, -, -, hnext, -⟩ := hlayout.add sg rest out io page hadd
          refine ⟨free', chain :: chains, ?_⟩
          simpa [splitCallbackStep, hadd] using hnext
  | getBuf =>
      by_cases hidle : c.vq.ring.lastUsed = c.vq.ring.usedIdx
      · have hget := getBufSplit_idle hidle
        refine ⟨free, chains, ?_⟩
        simpa [splitCallbackStep, hget] using hlayout
      · obtain ⟨-, hsome⟩ := Or.resolve_left hguard hidle
        obtain ⟨chain, others, hname, htaken⟩ := hlayout.exists_head hsome
        obtain ⟨next, hget, hnext, -⟩ := getBuf_some _ chain others htaken hidle hname.symm
        refine ⟨chain.descs ++ free, others, ?_⟩
        simpa [splitCallbackStep, hget] using hnext
  | _ => exact ⟨free, chains, hlayout.of_sameBooks (splitCallbackStep_sameBooks c.vq id)⟩

private theorem detachSplit_inOrder {c : SplitControl β} (h : c.InOrder) :
    (splitAfter c .detachUnusedBuf).InOrder := by
  obtain ⟨free, chains, hlayout⟩ := h
  cases hfirst : firstInUse c.vq.ring with
  | none =>
      refine ⟨free, chains, ?_⟩
      simpa [splitAfter, splitControlStep, SplitControl.withRing, virtqueueDetachUnusedBufSplit,
        hfirst] using hlayout
  | some idx =>
      obtain ⟨chain, others, rfl, htaken⟩ := hlayout.exists_head (firstInUse_data hfirst)
      obtain ⟨next, hdetach, hnext, -⟩ := detach_some _ chain others htaken hfirst
      refine ⟨chain.descs ++ free, others, ?_⟩
      simpa [splitAfter, splitControlStep, SplitControl.withRing, hdetach] using hnext

private theorem splitAfter_inOrder {s : QueueSetup} (c : SplitControl β) (i : ControlInput β)
    (h : c.Made s ∧ c.InOrder) (hguard : GetsMeet SplitRing.NamesHead c i) :
    (splitAfter c i).Made s ∧ (splitAfter c i).InOrder := by
  refine ⟨splitControlStep_made h.1 i, ?_⟩
  cases i with
  | call i => exact splitCallbackStep_inOrder h.2 i hguard
  | detachUnusedBuf => exact detachSplit_inOrder h.2
  | kick =>
      obtain ⟨free, chains, hlayout⟩ := h.2
      exact ⟨free, chains, hlayout.congr rfl rfl rfl rfl rfl⟩
  | kickAlways =>
      obtain ⟨free, chains, hlayout⟩ := h.2
      exact ⟨free, chains, hlayout.congr rfl rfl rfl rfl rfl⟩
  | notice split packed => exact h.2
  | shutdown =>
      simp only [splitAfter, splitControlStep, virtqueueShutdownSplit]
      rw [newSplitControl_eq s.size h.1.num]
      exact initSplitControl_inOrder _ _

private theorem makeSplit_inOrder (s : QueueSetup) (m : SplitControl β) :
    (s.makeSplit m).InOrder := by
  obtain ⟨free, chains, hlayout⟩ := initSplitControl_inOrder s.args m
  unfold QueueSetup.makeSplit
  rw [newSplitControl_eq s.size rfl]
  exact ⟨free, chains, hlayout⟩

/-- Whatever the driver calls and the device writes, all calls that get a buffer are robust exactly
when each of them finds no new element, or one that names the head of a chain in flight. -/
theorem getBuf_robust_iff (s : QueueSetup) (m : SplitControl β) (inputs : List (ControlInput β)) :
    Guarded splitAfter (GetsMeet SplitRing.Robust) (s.makeSplit m) inputs ↔
      Guarded splitAfter (GetsMeet SplitRing.NamesHead) (s.makeSplit m) inputs := by
  apply guarded_iff_of_invariant fun c => c.Made s ∧ c.InOrder
  · intro c i h
    cases i with
    | call i =>
        cases i with
        | getBuf =>
            obtain ⟨free, chains, hlayout⟩ := h.2
            exact hlayout.robust_iff
        | _ => exact Iff.rfl
    | _ => exact Iff.rfl
  · exact splitAfter_inOrder
  · exact ⟨makeSplit_made s m, makeSplit_inOrder s m⟩

/-- On an empty queue of four descriptors the device returns the id 9. -/
theorem getBuf_strange_id : ¬ Guarded splitAfter (GetsMeet SplitRing.Robust)
    (smallSetup.makeSplit clearSplit)
    [.call (.device (fun _ => ⟨9, 0⟩) 1 fun _ => ⟨0, 0, 0, ⟨false, false, false, false, false⟩⟩),
      .call .getBuf] := by
  intro h
  have hnames := SplitRing.Robust.namesHead h.2.1
  revert hnames
  decide

end Viosnd.VirtIO
