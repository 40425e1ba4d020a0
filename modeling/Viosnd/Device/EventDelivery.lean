import Viosnd.Device.EventQueue
import Viosnd.VirtIO.Representation
import Viosnd.VirtIO.RingTokens

/-!
# Delivery of events

Every event buffer is on the queue or with the thread that holds the lock, and a buffer that was
read always finds room on the queue again. So the driver reads what the device returns, each event
once and in order, as the device wrote it.
-/

namespace Viosnd.VirtIO

/-! ## One descriptor -/

section

variable {β : Type} {q q' : SplitRing β}

private theorem addBufSplit_desc {sg : Scatter} {io : β}
    (h : virtqueueAddBufSplit sg [] 0 io none q = some q') :
    (q'.desc q.firstUnused).addr = sg.physAddr ∧
      ∀ d, d ≠ q.firstUnused → q'.desc d = q.desc d := by
  unfold virtqueueAddBufSplit virtqueueAddBufSplit.addDirect at h
  dsimp only at h
  split at h
  · cases h
  obtain rfl := Option.some.inj h
  constructor
  · simp [publish, endChain, fillDescs, fillDesc, getUnusedDesc]
  · intro d hd
    simp [publish, endChain, fillDescs, fillDesc, getUnusedDesc, Function.update_of_ne hd]

private theorem addBufSplit_data {sg : Scatter} {io : β}
    (h : virtqueueAddBufSplit sg [] 0 io none q = some q') :
    q'.data = Function.update q.data q.firstUnused (some io) := by
  unfold virtqueueAddBufSplit virtqueueAddBufSplit.addDirect at h
  dsimp only at h
  split at h
  · cases h
  obtain rfl := Option.some.inj h
  rfl

private theorem getBufSplit_addr {r : Option (Option β × BitVec 32)}
    (h : virtqueueGetBufSplit q = some (r, q')) (d : ℕ) : (q'.desc d).addr = (q.desc d).addr := by
  unfold virtqueueGetBufSplit putUnusedDescChain at h
  split at h
  · simp only [Option.some.injEq, Prod.mk.injEq] at h
    rw [← h.2]
  simp only [Option.map_map, Option.map_eq_some_iff] at h
  obtain ⟨walked, -, hr⟩ := h
  have hfreed : q'.desc = (freeChain ((q.usedRing (descIndex q.num q.lastUsed)).id.setWidth
      16).toNat walked.1.length walked.2 q).desc := by
    have hring := congrArg Prod.snd hr
    dsimp only [Function.comp] at hring
    rw [← hring]
    split_ifs <;> rfl
  rw [hfreed]
  by_cases hd : d = walked.2
  · rw [hd]
    simp [freeChain]
  · simp [freeChain, Function.update_of_ne hd]

end

end Viosnd.VirtIO

namespace Viosnd.Events

open VirtIO StepRun

/-! ## What the queue is for -/

def Device.eventOf (d : Device) (buffer : ℕ) : ℕ × SndEvent :=
  (buffer, d.memory (d.buffers buffer).eventPa)

/-- The events that were returned and are to be read next. -/
def World.pending (w : World) : List (ℕ × SndEvent) :=
  w.device.queue.returned.map fun head => w.device.eventOf ((w.device.queue.ring.data head).getD 0)

/-- A stream's counter was raised once for each underrun, of whichever stream, among the events read
since it was created. -/
def Counts (read : List (ℕ × SndEvent)) (stream : Option EventStream) : Prop :=
  ∀ s ∈ stream, s.since ≤ read.length ∧
    s.eventXruns = (read.drop s.since).countP fun e => e.2.code == evtPcmXrun

structure Delivers (w : World) : Prop where
  /-- A buffer that was read is posted again without fail. -/
  posted : w.refused = []
  /-- Initialization fails for want of room only, and goes on to its end otherwise. -/
  failed : ∀ i, w.holder = .failed i → i = w.device.queue.ring.num ∧ i < eventBufferCount
  ready : w.holder = .nobody → eventBufferCount ≤ w.device.queue.ring.num ∧
    w.device.eventBufferCount = eventBufferCount
  /-- Every buffer is on the queue or with the thread that holds the lock, and once in one of
  them. -/
  conserved : (w.onQueue ++ w.holder.buffers).Perm (List.range eventBufferCount)
  /-- What the device returned was read or is still as the device wrote it, in order. -/
  inOrder : w.returned = w.read ++ w.pending
  /-- The next turn of the loop reads the next event. -/
  progress : w.holder = .nobody → ∀ event ∈ w.pending.head?,
    (w.step .drain).read = w.read ++ [event]
  counted : Counts w.read w.device.renderStream ∧ Counts w.read w.device.captureStream
  /-- The device holds no descriptor that is free. -/
  sound : w.device.queue.Sound

/-! ## The invariant -/

def Holder.Placed (num count : ℕ) (buffers : ℕ → EventBuffer) (poolPa : BitVec 64) : Holder → Prop
  | .posting i => i ≤ eventBufferCount ∧ i ≤ num ∧ count = i
  | .failed i => i = num ∧ i < eventBufferCount
  | .nobody => eventBufferCount ≤ num ∧ count = eventBufferCount
  | .draining buffer => eventBufferCount ≤ num ∧ count = eventBufferCount ∧
      buffers buffer = poolBuffer poolPa buffer

/-- The queue of a device, with an account of its chains. -/
structure Queued (d : Device) (free : List ℕ) (untaken held returned : List (Chain ℕ)) : Prop where
  consistent : Consistent d.queue free untaken held returned
  ordered : d.queue.withdrawn = false
  hasQueue : d.hasQueue = true
  /-- A chain is one descriptor with the address of its buffer. -/
  single : ∀ c ∈ untaken ++ (held ++ returned), c.descs.length = 1 ∧
    (d.queue.ring.desc c.head).addr = (d.buffers c.data).eventPa ∧
    d.buffers c.data = poolBuffer d.eventPoolPa c.data

/-- The buffers that are not on the queue are in the list `hand`, and what was returned and not read
is in memory. -/
structure Account (num : ℕ) (d : Device) (hand : List ℕ) (log read : List (ℕ × SndEvent))
    (free : List ℕ) (untaken held returned : List (Chain ℕ)) : Prop where
  queued : Queued d free untaken held returned
  size : d.queue.ring.num = num
  conserved : ((untaken ++ (held ++ returned)).map Chain.data ++ hand).Perm
    (List.range eventBufferCount)
  history : log = read ++ returned.map fun c => d.eventOf c.data

structure Kept (num : ℕ) (w : World) : Prop where
  account : ∃ free untaken held returned,
    Account num w.device w.holder.buffers w.returned w.read free untaken held returned
  placed : w.holder.Placed num w.device.eventBufferCount w.device.buffers w.device.eventPoolPa
  refused : w.refused = []
  counted : Counts w.read w.device.renderStream ∧ Counts w.read w.device.captureStream

section

variable {d : Device} {free : List ℕ} {untaken held returned : List (Chain ℕ)}

theorem Queued.length_eq (h : Queued d free untaken held returned) :
    d.queue.ring.num = free.length + (untaken ++ (held ++ returned)).length := by
  have hcover := h.consistent.layout.cover.length_eq
  rw [List.length_append, List.length_range, List.length_flatMap] at hcover
  have hone : (untaken ++ (held ++ returned)).map (fun c => c.descs.length) =
      (untaken ++ (held ++ returned)).map fun _ => 1 := by
    apply List.map_congr_left
    intro c hc
    exact (h.single c hc).1
  rw [hone, List.map_const', List.sum_replicate, smul_eq_mul, mul_one] at hcover
  exact hcover.symm

theorem Queued.busy (h : Queued d free untaken held returned) {sg : Scatter} {buffer : ℕ}
    (hadd : virtqueueAddBufSplit sg [] 0 buffer none d.queue.ring = none) :
    (untaken ++ (held ++ returned)).length = d.queue.ring.num := by
  have hunused := (addBufSplit_eq_none_iff sg [] 0 buffer none d.queue.ring).mp hadd
  rw [h.consistent.layout.unused] at hunused
  have hlength := h.length_eq
  simp only [addCost, Option.isSome_none, Bool.false_eq_true, if_false, List.length_nil,
    Nat.zero_add] at hunused
  omega

theorem Queued.added (h : Queued d free untaken held returned) {buffer : ℕ}
    (hbuffer : d.buffers buffer = poolBuffer d.eventPoolPa buffer) {ring : SplitRing ℕ}
    {len : BitVec 32}
    (hadd : virtqueueAddBufSplit ⟨(d.buffers buffer).eventPa, len⟩ [] 0 buffer none d.queue.ring =
      some ring) :
    ∃ c free', c.data = buffer ∧ Queued (d.published ring) free' (untaken ++ [c]) held returned ∧
      ring.num = d.queue.ring.num := by
  obtain ⟨c, free', hdata, hcost, hnext, hnum, -, -⟩ := addBuf_consistent h.consistent hadd
  obtain ⟨hfirst, hother⟩ := addBufSplit_desc hadd
  have hperm : ((untaken ++ [c]) ++ (held ++ returned)).Perm
      (c :: (untaken ++ (held ++ returned))) := by
    rw [List.append_assoc]
    exact List.perm_middle
  have hlayout := hnext.layout.of_perm hperm
  have hne : ∀ c' ∈ untaken ++ (held ++ returned), c'.head ≠ c.head := by
    intro c' hc' heq
    have happart := hlayout.others_disjoint hc' c.head_mem
    exact happart (heq ▸ c'.head_mem)
  have hhead : c.head = d.queue.ring.firstUnused := by
    by_contra hother
    have hhas := (hlayout.has c List.mem_cons_self).data
    rw [addBufSplit_data hadd, Function.update_of_ne hother] at hhas
    obtain ⟨c', hc', hsame⟩ := (h.consistent.layout.inUse_iff c.head).mp (by simp [hhas])
    exact hne c' hc' hsame
  refine ⟨c, free', hdata, ⟨hnext, h.ordered, h.hasQueue, ?_⟩, hnum⟩
  intro c' hc'
  rcases List.mem_cons.mp (hperm.mem_iff.mp hc') with hnew | hold
  · rw [hnew, hdata]
    refine ⟨hcost, ?_, hbuffer⟩
    rw [hhead]
    exact hfirst
  · obtain ⟨hlength, haddr, hpool⟩ := h.single c' hold
    refine ⟨hlength, ?_, hpool⟩
    change (ring.desc c'.head).addr = _
    rw [hother _ (hhead ▸ hne c' hold)]
    exact haddr

/-- A buffer is zeroed, and then it is on the queue or the queue is full. -/
private theorem Queued.post (h : Queued d free untaken held returned) {buffer : ℕ}
    (hbuffer : d.buffers buffer = poolBuffer d.eventPoolPa buffer) :
    (postEventBufferLocked d buffer =
          (.deviceBusy, d.setMemory (d.buffers buffer).eventPa ⟨0, 0⟩) ∧
        (untaken ++ (held ++ returned)).length = d.queue.ring.num) ∨
      ∃ ring c free', postEventBufferLocked d buffer =
          (.success, (d.setMemory (d.buffers buffer).eventPa ⟨0, 0⟩).published ring) ∧
        c.data = buffer ∧ Queued (d.published ring) free' (untaken ++ [c]) held returned ∧
        ring.num = d.queue.ring.num := by
  have hmapped : (d.buffers buffer).mapped = true := by rw [hbuffer]; rfl
  unfold postEventBufferLocked
  rw [if_neg (by simp [h.hasQueue, hmapped])]
  dsimp only
  split
  · rename_i hadd
    left
    exact ⟨rfl, h.busy hadd⟩
  · rename_i ring hadd
    right
    obtain ⟨c, free', hdata, hnext, hnum⟩ := h.added hbuffer hadd
    exact ⟨ring, c, free', rfl, hdata, hnext, hnum⟩

theorem Queued.setMemory (h : Queued d free untaken held returned) (pa : BitVec 64)
    (event : SndEvent) : Queued (d.setMemory pa event) free untaken held returned :=
  ⟨h.consistent, h.ordered, h.hasQueue, h.single⟩

theorem Queued.fetch {c : Chain ℕ} (h : Queued d free untaken held (c :: returned)) :
    ∃ ring, fetchEvent d = (some c.data, { d.fetched ring with
        renderStream := countXrun (d.memory (d.buffers c.data).eventPa) d.renderStream
        captureStream := countXrun (d.memory (d.buffers c.data).eventPa) d.captureStream }) ∧
      Queued (d.fetched ring) (c.descs ++ free) untaken held returned ∧
      ring.num = d.queue.ring.num := by
  obtain ⟨ring, hget, hnext, hnum, -, -⟩ := getBuf_consistent h.consistent
  refine ⟨ring, ?_, ⟨hnext, h.ordered, h.hasQueue, ?_⟩, hnum⟩
  · unfold fetchEvent
    rw [hget]
  · intro c' hc'
    have hold : c' ∈ untaken ++ (held ++ c :: returned) := by
      simp only [List.mem_append, List.mem_cons] at hc' ⊢
      tauto
    obtain ⟨hlength, haddr, hpool⟩ := h.single c' hold
    refine ⟨hlength, ?_, hpool⟩
    change (ring.desc c'.head).addr = _
    rw [getBufSplit_addr hget]
    exact haddr

private theorem Queued.fetch_none (h : Queued d free untaken held []) :
    fetchEvent d = (none, d) := by
  unfold fetchEvent
  rw [getBuf_none h.consistent]

end

/-! ## The steps -/

private theorem poolBuffer_inj (poolPa : BitVec 64) {i j : ℕ} (hi : i < eventBufferCount)
    (hj : j < eventBufferCount)
    (h : (poolBuffer poolPa i).eventPa = (poolBuffer poolPa j).eventPa) : i = j := by
  simp only [poolBuffer, sizeofSndEvent, eventBufferCount] at h hi hj
  bv_omega

theorem Counts.push {read : List (ℕ × SndEvent)} {stream : Option EventStream}
    (h : Counts read stream) (event : ℕ × SndEvent) :
    Counts (read ++ [event]) (countXrun event.2 stream) := by
  unfold countXrun
  intro s hs
  split at hs
  · rename_i hxrun
    obtain ⟨s₀, hs₀, rfl⟩ := Option.map_eq_some_iff.mp hs
    obtain ⟨hsince, hcount⟩ := h s₀ hs₀
    refine ⟨by simp; omega, ?_⟩
    rw [List.drop_append_of_le_length hsince, List.countP_append, hcount]
    simp [hxrun]
  · rename_i hother
    obtain ⟨hsince, hcount⟩ := h s hs
    refine ⟨by simp; omega, ?_⟩
    rw [List.drop_append_of_le_length hsince, List.countP_append, hcount]
    simp [hother]

section

variable {num : ℕ} {d : Device} {hand free : List ℕ} {log read : List (ℕ × SndEvent)}
  {untaken held returned : List (Chain ℕ)} {buffer : ℕ}

private theorem Account.lt (h : Account num d hand log read free untaken held returned)
    {c : Chain ℕ} (hc : c ∈ untaken ++ (held ++ returned)) : c.data < eventBufferCount := by
  apply List.mem_range.mp
  apply h.conserved.mem_iff.mp
  exact List.mem_append_left _ (List.mem_map_of_mem hc)

theorem Account.nodup (h : Account num d hand log read free untaken held returned) :
    ((untaken ++ (held ++ returned)).map Chain.data ++ hand).Nodup :=
  h.conserved.nodup_iff.mpr List.nodup_range

private theorem Account.data_ne (h : Account num d hand log read free untaken held returned)
    {c : Chain ℕ} (hc : c ∈ untaken ++ (held ++ returned)) (hbuffer : buffer ∈ hand) :
    c.data ≠ buffer := by
  intro heq
  have happart := (List.nodup_append.mp h.nodup).2.2
  exact happart c.data (List.mem_map_of_mem hc) buffer hbuffer heq

/-- Memory written at the address of another buffer leaves an event on the queue alone. -/
private theorem Account.eventOf_setMemory
    (h : Account num d hand log read free untaken held returned) {c : Chain ℕ}
    (hc : c ∈ untaken ++ (held ++ returned)) (hlt : buffer < eventBufferCount)
    (hne : c.data ≠ buffer) (event : SndEvent) :
    (d.setMemory (poolBuffer d.eventPoolPa buffer).eventPa event).eventOf c.data =
      d.eventOf c.data := by
  unfold Device.eventOf Device.setMemory
  dsimp only
  rw [Function.update_of_ne]
  rw [(h.queued.single c hc).2.2]
  intro heq
  exact hne (poolBuffer_inj _ (h.lt hc) hlt heq)

private theorem Account.counters (h : Account num d hand log read free untaken held returned)
    (count : ℕ) (render capture : Option EventStream) : Account num { d with
        eventBufferCount := count
        renderStream := render
        captureStream := capture } hand log read free untaken held returned :=
  ⟨⟨h.queued.consistent, h.queued.ordered, h.queued.hasQueue, h.queued.single⟩, h.size, h.conserved,
    h.history⟩

theorem Account.mapBuffer (h : Account num d hand log read free untaken held returned)
    (hbuffer : buffer ∈ hand) :
    Account num (d.mapBuffer buffer) hand log read free untaken held returned := by
  have hother : ∀ c ∈ untaken ++ (held ++ returned),
      (d.mapBuffer buffer).buffers c.data = d.buffers c.data :=
    fun c hc => Function.update_of_ne (h.data_ne hc hbuffer) _ _
  refine ⟨⟨h.queued.consistent, h.queued.ordered, h.queued.hasQueue, ?_⟩, h.size, h.conserved, ?_⟩
  · intro c hc
    rw [hother c hc]
    exact h.queued.single c hc
  · rw [h.history]
    congr 1
    apply List.map_congr_left
    intro c hc
    unfold Device.eventOf
    rw [hother c (by simp [hc])]
    rfl

/-- A buffer in hand goes to the queue, which has room unless every descriptor is in flight. -/
private theorem Account.post
    (h : Account num d (buffer :: hand) log read free untaken held returned)
    (hbuffer : d.buffers buffer = poolBuffer d.eventPoolPa buffer) :
    ∃ d', d' = d.setMemory (poolBuffer d.eventPoolPa buffer).eventPa ⟨0, 0⟩ ∧
      ((postEventBufferLocked d buffer = (.deviceBusy, d') ∧ num + hand.length + 1 =
            eventBufferCount ∧
          Account num d' (buffer :: hand) log read free untaken held returned) ∨
        ∃ ring c free', postEventBufferLocked d buffer = (.success, d'.published ring) ∧
          hand.length + 1 ≤ eventBufferCount ∧ eventBufferCount ≤ num + hand.length ∧
          Account num (d'.published ring) hand log read free' (untaken ++ [c]) held returned) := by
  have hmem : buffer ∈ buffer :: hand := List.mem_cons_self
  have hlt : buffer < eventBufferCount := by
    apply List.mem_range.mp
    apply h.conserved.mem_iff.mp
    simp
  have hlength := h.conserved.length_eq
  simp only [List.length_append, List.length_map, List.length_cons, List.length_range] at hlength
  have hhistory : ∀ d' : Device, d'.buffers = d.buffers → d'.memory =
      (d.setMemory (poolBuffer d.eventPoolPa buffer).eventPa ⟨0, 0⟩).memory →
      log = read ++ returned.map fun c => d'.eventOf c.data := by
    intro d' hbuffers hmemory
    rw [h.history]
    congr 1
    apply List.map_congr_left
    intro c hc
    have hc' : c ∈ untaken ++ (held ++ returned) := by simp [hc]
    rw [← h.eventOf_setMemory hc' hlt (h.data_ne hc' hmem) ⟨0, 0⟩]
    unfold Device.eventOf
    rw [hbuffers, hmemory]
    rfl
  refine ⟨_, rfl, ?_⟩
  rcases h.queued.post hbuffer with ⟨hpost, hfull⟩ | ⟨ring, c, free', hpost, hdata, hnext, hring⟩
  · left
    rw [hbuffer] at hpost
    rw [h.size] at hfull
    simp only [List.length_append] at hfull
    exact ⟨hpost, by omega, h.queued.setMemory _ _, h.size, h.conserved, hhistory _ rfl rfl⟩
  · right
    rw [hbuffer] at hpost
    have hroom := hnext.length_eq
    change ring.num = _ at hroom
    rw [hring, h.size] at hroom
    simp only [List.length_append, List.length_cons, List.length_nil] at hroom
    refine ⟨ring, c, free', hpost, by omega, by omega, hnext.setMemory _ _, hring.trans h.size, ?_,
      hhistory _ rfl rfl⟩
    have hperm : (((untaken ++ [c]) ++ (held ++ returned)).map Chain.data ++ hand).Perm
        ((untaken ++ (held ++ returned)).map Chain.data ++ buffer :: hand) := by
      simp only [List.map_append, List.append_assoc, List.map_cons, hdata,
        List.singleton_append]
      apply List.Perm.append_left
      rw [← List.append_assoc (held.map Chain.data)]
      exact List.perm_middle.symm
    exact hperm.trans h.conserved

theorem Account.fetch {c : Chain ℕ}
    (h : Account num d [] log read free untaken held (c :: returned)) :
    ∃ d', fetchEvent d = (some c.data, { d' with
        renderStream := countXrun (d.eventOf c.data).2 d.renderStream
        captureStream := countXrun (d.eventOf c.data).2 d.captureStream }) ∧
      d'.buffers = d.buffers ∧ d'.eventPoolPa = d.eventPoolPa ∧
      d'.eventBufferCount = d.eventBufferCount ∧
      Account num d' [c.data] log (read ++ [d.eventOf c.data]) (c.descs ++ free) untaken held
        returned := by
  obtain ⟨ring, hfetch, hnext, hring⟩ := h.queued.fetch
  refine ⟨d.fetched ring, hfetch, rfl, rfl, rfl, hnext, hring.trans h.size, ?_, ?_⟩
  · have hperm : ((untaken ++ (held ++ returned)).map Chain.data ++ [c.data]).Perm
        ((untaken ++ (held ++ c :: returned)).map Chain.data ++ []) := by
      simp only [List.map_append, List.map_cons, List.append_nil, List.append_assoc]
      apply List.Perm.append_left
      apply List.Perm.append_left
      exact List.perm_append_singleton _ _
    exact hperm.trans h.conserved
  · rw [h.history, List.map_cons, List.append_assoc]
    rfl

theorem Account.take (h : Account num d hand log read free untaken held returned) :
    ∃ untaken' held', Account num { d with
      queue := takeEntry d.queue } hand log read free untaken' held' returned := by
  obtain ⟨untaken', held', hsame, hnext, -⟩ :=
    takeEntry_inOrder h.queued.consistent h.queued.ordered
  have hring : (takeEntry d.queue).ring = d.queue.ring := by
    unfold takeEntry
    split <;> rfl
  have hwithdrawn : (takeEntry d.queue).withdrawn = false := by
    unfold takeEntry
    split
    · exact h.queued.ordered
    · simp [h.queued.ordered]
  have hperm : (untaken' ++ (held' ++ returned)).Perm (untaken ++ (held ++ returned)) := by
    rw [← List.append_assoc, ← List.append_assoc]
    apply List.Perm.append_right
    apply List.perm_append_comm.trans
    rw [hsame]
    exact List.perm_append_comm
  refine ⟨untaken', held', ⟨hnext, hwithdrawn, h.queued.hasQueue, ?_⟩, ?_, ?_, h.history⟩
  · intro c hc
    rw [hring]
    exact h.queued.single c (hperm.mem_iff.mp hc)
  · exact (congrArg SplitRing.num hring).trans h.size
  · exact ((hperm.map Chain.data).append_right hand).trans h.conserved

theorem Account.heldAddress (h : Account num d hand log read free untaken held returned) {k : ℕ}
    {t : TakenChain} (ht : d.queue.held[k]? = some t) :
    ∃ c, held[k]? = some c ∧ d.queue.ring.data t.head = some c.data ∧
      (d.queue.ring.desc t.head).addr = (d.buffers c.data).eventPa := by
  rw [h.queued.consistent.held_eq, List.getElem?_map, Option.map_eq_some_iff] at ht
  obtain ⟨c, hc, rfl⟩ := ht
  have hmem : c ∈ untaken ++ (held ++ returned) := by
    have hheld := List.mem_of_getElem? hc
    simp [hheld]
  exact ⟨c, hc, (h.queued.consistent.layout.has c hmem).data, (h.queued.single c hmem).2.1⟩

/-- What the device writes to a buffer it holds leaves what it has returned alone. -/
theorem Account.write (h : Account num d hand log read free untaken held returned) {c : Chain ℕ}
    (hc : c ∈ held) (event : SndEvent) :
    Account num (d.setMemory (d.buffers c.data).eventPa event) hand log read free untaken held
      returned := by
  have hmem : c ∈ untaken ++ (held ++ returned) := by simp [hc]
  refine ⟨h.queued.setMemory _ _, h.size, h.conserved, ?_⟩
  rw [h.history]
  congr 1
  apply List.map_congr_left
  intro c' hc'
  have hmem' : c' ∈ untaken ++ (held ++ returned) := by simp [hc']
  have hne : c'.data ≠ c.data := by
    have hnodup := (List.nodup_append.mp h.nodup).1
    rw [List.map_append, List.map_append] at hnodup
    have happart := (List.nodup_append.mp (List.nodup_append.mp hnodup).2.1).2.2
    intro heq
    exact happart c.data (List.mem_map_of_mem hc) c'.data (List.mem_map_of_mem hc') heq.symm
  rw [(h.queued.single c hmem).2.2]
  exact (h.eventOf_setMemory hmem' (h.lt hmem) hne event).symm

theorem Account.giveBack (h : Account num d hand log read free untaken held returned) {k : ℕ}
    {c : Chain ℕ} (hc : held[k]? = some c) (len : BitVec 32) :
    Account num { d with
        queue := giveBackChain k len d.queue } hand (log ++ [d.eventOf c.data]) read free untaken
      (held.eraseIdx k) (returned ++ [c]) := by
  obtain ⟨hnext, hnum, -, -, -⟩ := giveBackChain_consistent_of h.queued.consistent hc len
  have htable : (giveBackChain k len d.queue).ring.desc = d.queue.ring.desc := by
    unfold giveBackChain
    split <;> rfl
  have hwithdrawn : (giveBackChain k len d.queue).withdrawn = d.queue.withdrawn := by
    unfold giveBackChain
    split <;> rfl
  have hperm : (untaken ++ (held.eraseIdx k ++ (returned ++ [c]))).Perm
      (untaken ++ (held ++ returned)) := by
    apply List.Perm.append_left
    obtain ⟨hlt, rfl⟩ := List.getElem?_eq_some_iff.mp hc
    rw [← List.append_assoc]
    apply (List.perm_append_singleton _ _).trans
    exact ((List.getElem_cons_eraseIdx_perm hlt).append_right returned)
  refine ⟨⟨hnext, hwithdrawn.trans h.queued.ordered, h.queued.hasQueue, ?_⟩, hnum.trans h.size, ?_,
    ?_⟩
  · intro c' hc'
    rw [htable]
    exact h.queued.single c' (hperm.mem_iff.mp hc')
  · exact ((hperm.map Chain.data).append_right hand).trans h.conserved
  · rw [h.history, List.map_append, List.append_assoc]
    rfl

end

/-! ## Steps and runs -/

section

variable {num : ℕ} {w : World} {hand free : List ℕ} {log read : List (ℕ × SndEvent)}
  {untaken held returned : List (Chain ℕ)}

private theorem Kept.of_account {d : Device} {log read : List (ℕ × SndEvent)} {free : List ℕ}
    {untaken held returned : List (Chain ℕ)} (h : Kept num w) (holder : Holder)
    (haccount : Account num d holder.buffers log read free untaken held returned)
    (hplaced : holder.Placed num d.eventBufferCount d.buffers d.eventPoolPa)
    (hcounted : Counts read d.renderStream ∧ Counts read d.captureStream) :
    Kept num ⟨d, holder, log, read, w.refused⟩ :=
  ⟨⟨free, untaken, held, returned, haccount⟩, hplaced, h.refused, hcounted⟩

private theorem proceedPosting_kept (h : Kept num w) {i : ℕ} (hholder : w.holder = .posting i) :
    Kept num (proceedPosting i w) := by
  obtain ⟨free, untaken, held, returned, haccount⟩ := h.account
  have hplaced := h.placed
  rw [hholder] at hplaced haccount
  obtain ⟨hi, hnum, hcount⟩ := hplaced
  unfold proceedPosting
  split
  · rename_i hend
    have hempty : Holder.buffers (.posting i) = [] := by
      apply List.drop_eq_nil_of_le
      rw [List.length_range]
      exact hend
    rw [hempty] at haccount
    exact h.of_account .nobody haccount ⟨by omega, by omega⟩ h.counted
  rename_i hmore
  have hlt : i < eventBufferCount := Nat.lt_of_not_le hmore
  have hrest : Holder.buffers (.posting i) = i :: Holder.buffers (.posting (i + 1)) := by
    change (List.range eventBufferCount).drop i = _
    rw [List.drop_eq_getElem_cons (by simpa using hlt), List.getElem_range]
    rfl
  have hlength : (Holder.buffers (.posting (i + 1))).length = eventBufferCount - (i + 1) := by
    simp [Holder.buffers]
  rw [hrest] at haccount
  have hmapped := haccount.mapBuffer (List.mem_cons_self : i ∈ i :: _)
  obtain ⟨d', hd', ⟨hpost, hfull, hbusy⟩ | ⟨ring, c, free', hpost, -, hroom, hposted⟩⟩ :=
    hmapped.post (Function.update_self _ _ _)
  · rw [hpost]
    rw [hd'] at hbusy ⊢
    rw [← hrest] at hbusy
    exact h.of_account (.failed i) hbusy ⟨by omega, hlt⟩ h.counted
  · rw [hpost]
    rw [hd'] at hposted ⊢
    exact h.of_account (.posting (i + 1)) (hposted.counters _ _ _)
      ⟨hlt, by omega, congrArg (· + 1) hcount⟩ h.counted

private theorem proceedDraining_kept (h : Kept num w) {buffer : ℕ}
    (hholder : w.holder = .draining buffer) :
    Kept num (proceedDraining buffer w) := by
  obtain ⟨free, untaken, held, returned, haccount⟩ := h.account
  have hplaced := h.placed
  rw [hholder] at hplaced haccount
  obtain ⟨hnum, hcount, hbuffer⟩ := hplaced
  unfold proceedDraining
  obtain ⟨d', hd', ⟨-, hfull, -⟩ | ⟨ring, c, free', hpost, -, -, hposted⟩⟩ :=
    haccount.post hbuffer
  · simp only [List.length_nil] at hfull
    omega
  · rw [hpost]
    rw [hd'] at hposted ⊢
    exact h.of_account .nobody hposted ⟨hnum, hcount⟩ h.counted

private theorem drainEvent_kept (h : Kept num w) (hholder : w.holder = .nobody) :
    Kept num (drainEvent w) := by
  obtain ⟨free, untaken, held, returned, haccount⟩ := h.account
  have hplaced := h.placed
  rw [hholder] at hplaced haccount
  obtain ⟨hnum, hcount⟩ := hplaced
  unfold drainEvent
  cases returned with
  | nil =>
      rw [haccount.queued.fetch_none]
      exact h
  | cons c rest =>
      obtain ⟨d', hfetch, hbuffers, hpool, hcount', hnext⟩ := haccount.fetch
      have hmem : c ∈ untaken ++ (held ++ c :: rest) := by simp
      rw [hfetch]
      have hplace : d'.buffers c.data = poolBuffer d'.eventPoolPa c.data := by
        rw [hbuffers, hpool]
        exact (haccount.queued.single c hmem).2.2
      exact h.of_account (.draining c.data) (hnext.counters _ _ _)
        ⟨hnum, hcount'.trans hcount, hplace⟩ ⟨h.counted.1.push _, h.counted.2.push _⟩

private theorem takeEntry_kept (h : Kept num w) : Kept num { w with
    device := { w.device with
      queue := takeEntry w.device.queue } } := by
  obtain ⟨free, untaken, held, returned, haccount⟩ := h.account
  obtain ⟨untaken', held', hnext⟩ := haccount.take
  exact h.of_account w.holder hnext h.placed h.counted

private theorem writeEvent_kept (h : Kept num w) (k : ℕ) (event : SndEvent) :
    Kept num (writeEvent k event w) := by
  obtain ⟨free, untaken, held, returned, haccount⟩ := h.account
  unfold writeEvent
  cases ht : w.device.queue.held[k]? with
  | none => exact h
  | some t =>
      obtain ⟨c, hc, -, haddr⟩ := haccount.heldAddress ht
      have hnext := haccount.write (List.mem_of_getElem? hc) event
      rw [← haddr] at hnext
      exact h.of_account w.holder hnext h.placed h.counted

private theorem giveBackEvent_kept (h : Kept num w) (k : ℕ) (len : BitVec 32) :
    Kept num (giveBackEvent k len w) := by
  obtain ⟨free, untaken, held, returned, haccount⟩ := h.account
  unfold giveBackEvent
  cases ht : w.device.queue.held[k]? with
  | none => exact h
  | some t =>
      obtain ⟨c, hc, hdata, haddr⟩ := haccount.heldAddress ht
      have hevent : ((w.device.queue.ring.data t.head).getD 0,
          w.device.memory (w.heldAddress t)) = w.device.eventOf c.data := by
        unfold World.heldAddress Device.eventOf
        rw [hdata, haddr]
        rfl
      dsimp only
      rw [hevent]
      exact h.of_account w.holder (haccount.giveBack hc len) h.placed h.counted

private theorem setStream_kept (h : Kept num w) (capture : Bool) {stream : Option EventStream}
    (hstream : Counts w.read stream) : Kept num { w with
      device := w.device.setStream capture stream } := by
  obtain ⟨free, untaken, held, returned, haccount⟩ := h.account
  cases capture with
  | false =>
      exact h.of_account w.holder (haccount.counters _ _ _) h.placed ⟨hstream, h.counted.2⟩
  | true =>
      exact h.of_account w.holder (haccount.counters _ _ _) h.placed ⟨h.counted.1, hstream⟩

theorem step_kept (w : World) (input : Input) (h : Kept num w) : Kept num (w.step input) := by
  cases input with
  | proceed =>
      unfold World.step
      cases hholder : w.holder with
      | posting i => exact proceedPosting_kept h hholder
      | draining buffer => exact proceedDraining_kept h hholder
      | nobody => exact h
      | failed i => exact h
  | drain =>
      change Kept num (if w.holder = .nobody then drainEvent w else w)
      by_cases hholder : w.holder = .nobody
      · rw [if_pos hholder]
        exact drainEvent_kept h hholder
      · rw [if_neg hholder]
        exact h
  | take => exact takeEntry_kept h
  | write k event => exact writeEvent_kept h k event
  | giveBack k len => exact giveBackEvent_kept h k len
  | createStream capture =>
      apply setStream_kept h capture
      intro s hs
      obtain rfl := Option.some.inj hs
      simp
  | cleanupStream capture =>
      apply setStream_kept h capture
      intro s hs
      cases hs

private theorem start_kept (hnum : num ∣ 2 ^ 15) (poolPa : BitVec 64)
    (memory : BitVec 64 → SndEvent) :
    Kept num (World.start num poolPa memory) where
  account := by
    refine ⟨List.range num, [], [], [], ⟨LiveQueue.new_consistent num hnum, rfl, rfl, ?_⟩, rfl, ?_,
      rfl⟩
    · intro c hc
      simp at hc
    · exact List.Perm.refl _
  placed := ⟨Nat.zero_le _, Nat.zero_le _, rfl⟩
  refused := rfl
  counted := by
    constructor <;>
    · intro s hs
      cases hs

/-! ## Delivery -/

theorem Account.pending (h : Account num w.device hand log read free untaken held returned) :
    w.pending = returned.map fun c => w.device.eventOf c.data := by
  unfold World.pending
  rw [h.queued.consistent.returned_eq, List.map_map]
  apply List.map_congr_left
  intro c hc
  have hmem : c ∈ untaken ++ (held ++ returned) := by simp [hc]
  rw [Function.comp_apply, (h.queued.consistent.layout.has c hmem).data]
  rfl

private theorem Kept.delivers (h : Kept num w) : Delivers w := by
  obtain ⟨free, untaken, held, returned, haccount⟩ := h.account
  have hpending := haccount.pending
  have hplaced := h.placed
  refine ⟨h.refused, ?_, ?_, ?_, ?_, ?_, h.counted, haccount.queued.consistent.sound⟩
  · intro i hfailed
    rw [hfailed] at hplaced
    rw [haccount.size]
    exact hplaced
  · intro hnobody
    rw [hnobody] at hplaced
    rw [haccount.size]
    exact hplaced
  · have htokens := haccount.queued.consistent.layout.tokens_perm
    exact (htokens.append_right _).trans haccount.conserved
  · rw [hpending]
    exact haccount.history
  · intro hnobody event hevent
    rw [hpending] at hevent
    change (if w.holder = .nobody then drainEvent w else w).read = _
    rw [if_pos hnobody]
    cases returned with
    | nil => simp at hevent
    | cons c rest =>
        obtain ⟨ring, hfetch, -, -⟩ := haccount.queued.fetch
        obtain rfl : w.device.eventOf c.data = event := by simpa using hevent
        unfold drainEvent
        rw [hfetch]
        rfl

end

/-- Over every run of the driver and the device, every event buffer is on the queue or with the
thread that holds the lock, no buffer is dropped, and the driver reads what the device returned,
each event once and in order. -/
theorem run_delivers (num : ℕ) (hnum : num ∣ 2 ^ 15) (poolPa : BitVec 64)
    (memory : BitVec 64 → SndEvent) (inputs : List Input) :
    Delivers (run World.step (World.start num poolPa memory) inputs) :=
  (run_invariant step_kept inputs (start_kept hnum poolPa memory)).delivers

/-- The first buffers are posted, and an underrun goes through one of them. -/
theorem run_delivers_xrun :
    let inputs := List.replicate 9 Input.proceed ++ [.createStream false, .take,
      .write 0 ⟨evtPcmXrun, 0⟩, .giveBack 0 8, .drain, .proceed]
    Delivers (run World.step (World.start 64 0x10000 fun _ => ⟨0, 0⟩) inputs) ∧
      (run World.step (World.start 64 0x10000 fun _ => ⟨0, 0⟩) inputs).read =
        [(0, ⟨evtPcmXrun, 0⟩)] :=
  ⟨run_delivers 64 (by decide) 0x10000 (fun _ => ⟨0, 0⟩) _, by decide +kernel⟩

end Viosnd.Events
