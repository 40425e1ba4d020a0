import Viosnd.Acx.Periods

/-!
# What a completed buffer is taken for

`ViosndDrainRenderQueue` releases a period under the lock, and reads its status and its packet
number after that. A submission on another thread may fill the period anew before they are read.
-/

namespace Viosnd.Acx

open StepRun

/-! ## What the drains are for -/

/-- The completion a drain has taken from the used ring and not notified yet. -/
def Place.held : Place → Option Completion
  | .drain _ taken _ => some taken
  | _ => none

/-- Every completed buffer is notified once, is being drained, or is on the used ring; what was
read for a notification is what the device completed; and `PacketsCompleted` counts no packet that
was not completed. -/
structure CompletionIdentity (w : World) : Prop where
  once : w.stream.log.completed.Perm (w.stream.log.notified.map Prod.fst ++
    (w.threads.filterMap Place.held ++ w.stream.txUsed))
  faithful : ∀ pair ∈ w.stream.log.notified, pair.2 = pair.1
  bounded : w.stream.packetsCompleted = 0 ∨
    ∃ c ∈ w.stream.log.completed, w.stream.packetsCompleted ≤ c.packetNumber + 1

/-- What the submission guard asks of a thread that moves on from the place: a period is not
filled while a drain holds one of the completions `held` for it. -/
def FillGuard (s : RenderStream) (held : List Completion) : Place → Prop
  | .pump (.submit packet) => s.submitSource packet.packet ≠ none →
      ∀ i ∈ s.freePeriod, ∀ c ∈ held, c.period ≠ i
  | _ => True

/-- No submission fills a period that a drain has released and is still reading. -/
def ReuseGuard (w : World) : Input → Prop
  | .move thread => ∀ a ∈ w.threads[thread]?, w.waits a = false →
      FillGuard w.stream (w.threads.filterMap Place.held) a
  | _ => True

instance (s : RenderStream) (held : List Completion) (a : Place) :
    Decidable (FillGuard s held a) :=
  match a with
  | .pump (.submit packet) => inferInstanceAs (Decidable (s.submitSource packet.packet ≠ none →
      ∀ i ∈ s.freePeriod, ∀ c ∈ held, c.period ≠ i))
  | .pump .peek | .pump (.countFailure _) | .pump (.storeFailure _ _) => isTrue trivial
  | .pump (.pop _ _) | .pump .release => isTrue trivial
  | .idle | .setRenderPacket _ | .storeOverflow _ _ | .queued | .pumpRenderQueue => isTrue trivial
  | .drainRenderQueue | .drain _ _ _ => isTrue trivial

instance (w : World) (i : Input) : Decidable (ReuseGuard w i) :=
  match i with
  | .move thread => inferInstanceAs (Decidable (∀ a ∈ w.threads[thread]?, w.waits a = false →
      FillGuard w.stream (w.threads.filterMap Place.held) a))
  | .call _ _ | .complete _ _ _ | .write _ _ => isTrue trivial

/-! ## What the periods carry -/

/-- The period still has the packet number, the status and the latency of the completion. -/
def Period.Carries (p : Period) (c : Completion) : Prop :=
  p.packetNumber = c.packetNumber ∧ p.status = c.status ∧ p.latencyBytes = c.latencyBytes

/-- The periods carry what is on the virtqueue and what the drains hold. -/
structure Carried (s : RenderStream) (held : List Completion) : Prop where
  lent : s.Lent
  avail : ∀ chain ∈ s.txAvail, (s.periods chain.period).packetNumber = chain.packetNumber
  used : ∀ c ∈ s.txUsed, (s.periods c.period).Carries c
  held : ∀ c ∈ held, (s.periods c.period).Carries c ∧ c.period ∉ s.outstanding

variable {s s' : RenderStream} {held : List Completion} {a b : Place} {i : ℕ}

private theorem avail_outstanding {chain : TxChain} (h : chain ∈ s.txAvail) :
    chain.period ∈ s.outstanding :=
  List.mem_append_left _ (List.mem_map_of_mem h)

private theorem used_outstanding {c : Completion} (h : c ∈ s.txUsed) : c.period ∈ s.outstanding :=
  List.mem_append_right _ (List.mem_map_of_mem h)

theorem Carried.mono {held' : List Completion} (h : Carried s held) (hsub : held' ⊆ held) :
    Carried s held' :=
  ⟨h.lent, h.avail, h.used, fun c hc => h.held c (hsub hc)⟩

theorem Carried.fillPeriod (h : Carried s held) (hfree : s.freePeriod = some i)
    (hheld : ∀ c ∈ held, c.period ≠ i) (packet : ULONG) (audio : List Byte) :
    Carried (s.fillPeriod i packet audio) held := by
  have hnot : i ∉ s.outstanding := by
    rw [h.lent.inFlight, (freePeriod_spec hfree).2]
    simp
  have hkept : ∀ j, j ≠ i → (s.fillPeriod i packet audio).periods j = s.periods j :=
    fun j hj => Function.update_of_ne hj _ _
  refine ⟨h.lent.fillPeriod i packet audio, fun chain hchain => ?_, fun c hc => ?_, fun c hc => ?_⟩
  · have hne : chain.period ≠ i := fun heq => hnot (heq ▸ avail_outstanding hchain)
    rw [hkept _ hne]
    exact h.avail chain hchain
  · have hne : c.period ≠ i := fun heq => hnot (heq ▸ used_outstanding hc)
    rw [hkept _ hne]
    exact h.used c hc
  · rw [hkept _ (hheld c hc)]
    exact h.held c hc

private theorem update_inFlight_carries (s : RenderStream) (i j : ℕ) (flag : Bool)
    (c : Completion) :
    (Function.update s.periods i { s.periods i with
      inFlight := flag } j).Carries c ↔ (s.periods j).Carries c := by
  by_cases hj : j = i
  · subst hj
    rw [Function.update_self]
    exact Iff.rfl
  · rw [Function.update_of_ne hj]

private theorem update_inFlight_packetNumber (s : RenderStream) (i j : ℕ) (flag : Bool) :
    (Function.update s.periods i { s.periods i with
      inFlight := flag } j).packetNumber = (s.periods j).packetNumber := by
  by_cases hj : j = i
  · subst hj
    rw [Function.update_self]
  · rw [Function.update_of_ne hj]

theorem Carried.addChain (h : Carried s held) (hi : i < s.periodCount)
    (hfree : (s.periods i).inFlight = false) (hheld : ∀ c ∈ held, c.period ≠ i) (packet : Ready)
    (hfilled : (s.periods i).packetNumber = packet.packet.setWidth 64) :
    Carried (s.addChain i packet) held := by
  refine ⟨h.lent.addChain hi hfree packet, fun chain hchain => ?_, fun c hc => ?_, fun c hc => ?_⟩
  · refine (update_inFlight_packetNumber s i chain.period true).trans ?_
    rcases List.mem_append.mp hchain with hold | hnew
    · exact h.avail chain hold
    · rw [List.mem_singleton.mp hnew]
      exact hfilled
  · exact (update_inFlight_carries s i c.period true c).mpr (h.used c hc)
  · refine ⟨(update_inFlight_carries s i c.period true c).mpr (h.held c hc).1, fun hmem => ?_⟩
    unfold RenderStream.outstanding RenderStream.addChain at hmem
    rw [List.map_append, List.append_assoc, List.mem_append, List.mem_append] at hmem
    rcases hmem with havail | hnew | hused
    · exact (h.held c hc).2 (List.mem_append_left _ havail)
    · exact hheld c hc (List.mem_singleton.mp hnew)
    · exact (h.held c hc).2 (List.mem_append_right _ hused)

/-- The drain that takes a completion holds it from then on. -/
theorem Carried.takeUsed (h : Carried s held) {c : Completion} {rest : List Completion}
    (hused : s.txUsed = c :: rest) : Carried { s with
      txUsed := rest
      periods := Function.update s.periods c.period { s.periods c.period with
        inFlight := false } } (c :: held) := by
  have hnodup := h.lent.nodup
  unfold RenderStream.outstanding at hnodup
  rw [hused, List.map_cons, List.nodup_middle, List.nodup_cons] at hnodup
  have hsub : ∀ j, j ∈ s.txAvail.map TxChain.period ++ rest.map Completion.period →
      j ∈ s.outstanding := by
    intro j hj
    unfold RenderStream.outstanding
    rw [hused]
    simp only [List.mem_append, List.map_cons, List.mem_cons] at hj ⊢
    tauto
  refine ⟨h.lent.takeUsed hused, fun chain hchain => ?_, fun d hd => ?_, fun d hd => ?_⟩
  · exact (update_inFlight_packetNumber s c.period chain.period false).trans (h.avail chain hchain)
  · refine (update_inFlight_carries s c.period d.period false d).mpr (h.used d ?_)
    rw [hused]
    exact List.mem_cons_of_mem _ hd
  · rcases List.mem_cons.mp hd with rfl | hold
    · refine ⟨(update_inFlight_carries s d.period d.period false d).mpr (h.used d ?_), hnodup.1⟩
      rw [hused]
      exact List.mem_cons_self
    · exact ⟨(update_inFlight_carries s c.period d.period false d).mpr (h.held d hold).1,
        fun hmem => (h.held d hold).2 (hsub _ hmem)⟩

theorem Carried.deliver (h : Carried s held) {k : ℕ} {chain : TxChain}
    (hchain : s.txAvail[k]? = some chain) (status latencyBytes : ULONG) :
    Carried (s.deliver k chain status latencyBytes) held := by
  have hmem := List.mem_of_getElem? hchain
  have hlent := h.lent.deliver hchain status latencyBytes
  have hout : ∀ j, j ∈ (s.deliver k chain status latencyBytes).outstanding → j ∈ s.outstanding := by
    intro j hj
    rw [hlent.inFlight] at hj
    rw [h.lent.inFlight]
    unfold RenderStream.deliver at hj
    refine ⟨hj.1, ?_⟩
    by_cases hjp : j = chain.period
    · subst hjp
      simpa using hj.2
    · simpa [Function.update_of_ne hjp] using hj.2
  have hkept : ∀ j, j ≠ chain.period →
      (s.deliver k chain status latencyBytes).periods j = s.periods j :=
    fun j hj => Function.update_of_ne hj _ _
  refine ⟨hlent, fun other hother => ?_, fun c hc => ?_, fun c hc => ?_⟩
  · have hold : other ∈ s.txAvail := List.mem_of_mem_eraseIdx hother
    by_cases hp : other.period = chain.period
    · have heq := h.avail other hold
      rw [← heq]
      unfold RenderStream.deliver
      rw [hp]
      simp
    · rw [hkept _ hp]
      exact h.avail other hold
  · rcases List.mem_append.mp hc with hold | hnew
    · have hne : c.period ≠ chain.period := by
        intro heq
        have hdisjoint := (List.nodup_append'.mp h.lent.nodup).2.2
        exact hdisjoint (List.mem_map_of_mem hmem) (heq ▸ List.mem_map_of_mem hold)
      rw [hkept _ hne]
      exact h.used c hold
    · rw [List.mem_singleton.mp hnew]
      unfold RenderStream.deliver
      simp only [Function.update_self]
      exact ⟨h.avail chain hmem, rfl, rfl⟩
  · obtain ⟨hcarries, hnot⟩ := h.held c hc
    have hne : c.period ≠ chain.period := fun heq => hnot (heq ▸ avail_outstanding hmem)
    rw [hkept _ hne]
    exact ⟨hcarries, fun hj => hnot (hout _ hj)⟩

theorem Moves.carried (hmoves : Moves s a s' b) (h : Carried s held) (ha : a.held.toList ⊆ held)
    (hg : FillGuard s held a) : Carried s' (b.held.toList ++ held) := by
  cases hmoves with
  | noRoom packet audio i hsource hfree hroom =>
      exact h.fillPeriod hfree (hg (by rw [hsource]; simp) i hfree) _ _
  | submit packet audio i hsource hfree hroom =>
      have hheld := hg (by rw [hsource]; simp) i hfree
      obtain ⟨hi, hflag⟩ := freePeriod_spec hfree
      apply (h.fillPeriod hfree hheld _ _).addChain hi _ hheld
      · simp [RenderStream.fillPeriod, Period.fill]
      · rw [fillPeriod_inFlight, hflag]
  | pop packet last =>
      unfold popRenderPacket
      split
      · exact ⟨⟨h.lent.nodup, h.lent.inFlight⟩, h.avail, h.used, h.held⟩
      · exact h
  | takeUsed c rest hused => exact h.takeUsed hused
  | badStatus | goodStatus | countError | storeError | readLatency | laterPacket | earlierPacket
  | storePacketsCompleted | storePosition =>
      refine Carried.mono ?_ (List.append_subset.mpr ⟨ha, List.Subset.refl held⟩)
      exact ⟨⟨h.lent.nodup, h.lent.inFlight⟩, h.avail, h.used, h.held⟩
  | _ => exact ⟨⟨h.lent.nodup, h.lent.inFlight⟩, h.avail, h.used, h.held⟩

/-! ## What the drains read -/

/-- `latency_bytes` has been read. -/
def DrainPlace.latencyRead : DrainPlace → Bool
  | .readStatus | .countError | .storeError _ | .readLatency => false
  | _ => true

/-- What a drain has read so far is what the device completed. -/
def Place.Faithful : Place → Prop
  | .drain place taken seen => seen.period = taken.period ∧
      (place ≠ .readStatus → seen.status = taken.status) ∧
      (place.latencyRead = true → seen.latencyBytes = taken.latencyBytes)
  | _ => True

theorem Moves.reads (hmoves : Moves s a s' b) (ha : a.Faithful)
    (hheld : ∀ c ∈ a.held, (s.periods c.period).Carries c) : b.Faithful := by
  cases hmoves with
  | takeUsed c rest hused => exact ⟨rfl, fun h => absurd rfl h, fun h => by cases h⟩
  | badStatus taken seen hstatus =>
      exact ⟨ha.1, fun _ => (hheld taken rfl).2.1, fun h => by cases h⟩
  | goodStatus taken seen hstatus =>
      exact ⟨ha.1, fun _ => (hheld taken rfl).2.1, fun h => by cases h⟩
  | countError taken seen => exact ⟨ha.1, fun _ => ha.2.1 (by simp), fun h => by cases h⟩
  | storeError taken seen xrunCount =>
      exact ⟨ha.1, fun _ => ha.2.1 (by simp), fun h => by cases h⟩
  | readLatency taken seen =>
      exact ⟨ha.1, fun _ => ha.2.1 (by simp), fun _ => (hheld taken rfl).2.2⟩
  | laterPacket taken seen hlater => exact ⟨ha.1, fun _ => ha.2.1 (by simp), ha.2.2⟩
  | earlierPacket taken seen hlater => exact ⟨ha.1, fun _ => ha.2.1 (by simp), ha.2.2⟩
  | storePacketsCompleted taken seen => exact ⟨ha.1, fun _ => ha.2.1 (by simp), ha.2.2⟩
  | storePosition taken seen => exact ⟨ha.1, fun _ => ha.2.1 (by simp), ha.2.2⟩
  | pop packet last => trivial
  | _ => trivial

/-! ## The identity -/

/-- The completions in their places: notified, in a drain, on the used ring. -/
theorem Moves.once {old new : List Completion} (hmoves : Moves s a s' b)
    (h : s.log.completed.Perm (s.log.notified.map Prod.fst ++ (old ++ s.txUsed)))
    (hperm : (a.held.toList ++ new).Perm (b.held.toList ++ old)) :
    s'.log.completed.Perm (s'.log.notified.map Prod.fst ++ (new ++ s'.txUsed)) := by
  have hsame : new.Perm old →
      s.log.completed.Perm (s.log.notified.map Prod.fst ++ (new ++ s.txUsed)) := fun hno =>
    h.trans ((hno.symm.append_right _).append_left _)
  cases hmoves with
  | pop packet last =>
      unfold popRenderPacket
      split <;> exact hsame hperm
  | takeUsed c rest hused =>
      apply h.trans
      apply List.Perm.append_left
      rw [hused]
      calc old ++ c :: rest
          |>.Perm ((c :: old) ++ rest) := List.perm_middle
        _ |>.Perm (new ++ rest) := hperm.symm.append_right rest
  | notify taken seen =>
      apply h.trans
      dsimp only
      rw [List.map_append, List.append_assoc]
      apply List.Perm.append_left
      exact hperm.symm.append_right _
  | badStatus | goodStatus | countError | storeError | readLatency | laterPacket | earlierPacket
  | storePacketsCompleted | storePosition => exact hsame (List.Perm.cons_inv hperm)
  | _ => exact hsame hperm

private theorem Moves.faithful (hmoves : Moves s a s' b) (ha : a.Faithful)
    (hheld : ∀ c ∈ a.held, (s.periods c.period).Carries c)
    (h : ∀ pair ∈ s.log.notified, pair.2 = pair.1) : ∀ pair ∈ s'.log.notified, pair.2 = pair.1 := by
  cases hmoves with
  | pop packet last =>
      unfold popRenderPacket
      split <;> exact h
  | notify taken seen =>
      intro pair hpair
      rcases List.mem_append.mp hpair with hold | hnew
      · exact h pair hold
      · rw [List.mem_singleton.mp hnew]
        obtain ⟨hperiod, hstatus, hlatency⟩ := ha
        exact Completion.ext hperiod (hheld taken rfl).1 (hstatus (by simp)) (hlatency rfl)
  | _ => exact h

theorem Moves.bounded (hmoves : Moves s a s' b)
    (hheld : ∀ c ∈ a.held, (s.periods c.period).Carries c ∧ c ∈ s.log.completed)
    (h : s.packetsCompleted = 0 ∨
      ∃ c ∈ s.log.completed, s.packetsCompleted ≤ c.packetNumber + 1) :
    s'.packetsCompleted = 0 ∨
      ∃ c ∈ s'.log.completed, s'.packetsCompleted ≤ c.packetNumber + 1 := by
  cases hmoves with
  | pop packet last =>
      unfold popRenderPacket
      split <;> exact h
  | storePacketsCompleted taken seen =>
      obtain ⟨hcarries, hcompleted⟩ := hheld taken rfl
      refine Or.inr ⟨taken, hcompleted, ?_⟩
      dsimp only
      rw [hcarries.1]
      exact BitVec.le_refl _
  | _ => exact h

/-! ## Runs -/

structure World.Drained (w : World) : Prop where
  carried : Carried w.stream (w.threads.filterMap Place.held)
  reads : ∀ a ∈ w.threads, a.Faithful
  identity : CompletionIdentity w

theorem World.Drained.move {w : World} (h : w.Drained) {t : ℕ} (ha : w.threads[t]? = some a)
    (hmoves : Moves w.stream a s' b)
    (hg : FillGuard w.stream (w.threads.filterMap Place.held) a) :
    World.Drained ⟨s', w.threads.set t b⟩ := by
  have hmem := List.mem_of_getElem? ha
  have hperm := ThreadPool.filterMap_move ha Place.held b
  have hmine : ∀ c ∈ a.held, c ∈ w.threads.filterMap Place.held := fun c hc =>
    List.mem_filterMap.mpr ⟨a, hmem, hc⟩
  have hcarries : ∀ c ∈ a.held, (w.stream.periods c.period).Carries c := fun c hc =>
    (h.carried.held c (hmine c hc)).1
  have hcompleted : ∀ c ∈ a.held, c ∈ w.stream.log.completed := fun c hc =>
    h.identity.once.mem_iff.mpr (List.mem_append_right _ (List.mem_append_left _ (hmine c hc)))
  refine ⟨?_, fun c hc => ?_, ?_, ?_, ?_⟩
  · have hsub : a.held.toList ⊆ w.threads.filterMap Place.held := fun c hc =>
      hmine c (Option.mem_toList.mp hc)
    apply (hmoves.carried h.carried hsub hg).mono
    intro c hc
    exact hperm.subset (List.mem_append_right _ hc)
  · rcases ThreadPool.mem_of_mem_move hc with hold | rfl
    · exact h.reads c hold
    · exact hmoves.reads (h.reads a hmem) hcarries
  · exact hmoves.once h.identity.once hperm
  · exact hmoves.faithful (h.reads a hmem) hcarries h.identity.faithful
  · exact hmoves.bounded (fun c hc => ⟨hcarries c hc, hcompleted c hc⟩) h.identity.bounded

theorem World.Drained.step {w : World} (h : w.Drained) (i : Input) (hg : ReuseGuard w i) :
    (w.step i).Drained := by
  apply World.step_cases w i h
  · intro t c _ hidle
    have hentry : c.entry.held = Place.idle.held := by cases c <;> rfl
    have hheld := ThreadPool.filterMap_move_eq hidle Place.held hentry
    refine ⟨?_, fun a ha => ?_, ?_, h.identity.faithful, h.identity.bounded⟩
    · dsimp only
      rw [hheld]
      exact h.carried
    · rcases ThreadPool.mem_of_mem_move ha with hold | rfl
      · exact h.reads a hold
      · cases c <;> trivial
    · dsimp only
      rw [hheld]
      exact h.identity.once
  · intro t a s' b hi ha hfree hmoves
    subst hi
    exact h.move ha hmoves (hg a ha hfree)
  · intro k chain status latencyBytes hchain
    refine ⟨h.carried.deliver hchain status latencyBytes, h.reads, ?_, h.identity.faithful, ?_⟩
    · have honce := h.identity.once.append_right
        [(⟨chain.period, chain.packetNumber, status, latencyBytes⟩ : Completion)]
      rw [List.append_assoc, List.append_assoc] at honce
      exact honce
    · refine h.identity.bounded.imp id ?_
      rintro ⟨c, hc, hle⟩
      exact ⟨c, List.mem_append_left _ hc, hle⟩
  · intro index audio
    exact ⟨⟨⟨h.carried.lent.nodup, h.carried.lent.inFlight⟩, h.carried.avail, h.carried.used,
      h.carried.held⟩, h.reads, h.identity.once, h.identity.faithful, h.identity.bounded⟩

private theorem World.fresh_drained (setup : Setup) (threadCount : ℕ) :
    (World.fresh setup threadCount).Drained := by
  have hheld : (World.fresh setup threadCount).threads.filterMap Place.held = [] := by
    rw [List.filterMap_eq_nil_iff]
    intro a ha
    rw [List.eq_of_mem_replicate ha]
    rfl
  refine ⟨?_, fun a ha => ?_, ?_, fun pair hpair => ?_, Or.inl rfl⟩
  · rw [hheld]
    exact ⟨RenderStream.fresh_lent setup, fun _ h => absurd h List.not_mem_nil,
      fun _ h => absurd h List.not_mem_nil, fun _ h => absurd h List.not_mem_nil⟩
  · rw [List.eq_of_mem_replicate ha]
    trivial
  · rw [hheld]
    exact List.Perm.refl _
  · cases hpair

/-- Whatever the interleaving, every completed buffer is notified once and for what it is, as long
as no submission fills a period that a drain is still reading. -/
theorem run_completionIdentity (setup : Setup) (threadCount : ℕ) (inputs : List Input)
    (hg : Guarded World.step ReuseGuard (World.fresh setup threadCount) inputs) :
    CompletionIdentity (run World.step (World.fresh setup threadCount) inputs) :=
  (hg.invariant (P := World.Drained) (fun _ i h hguard => h.step i hguard)
    (World.fresh_drained setup threadCount)).identity

/-- Two packets go out; while the drain reads the first period, packet 7 waits for it. -/
theorem run_completionIdentity_waiting : CompletionIdentity (run World.step
    (World.fresh Setup.twoPackets 2)
    [.call 0 (.setRenderPacket 5), .move 0, .move 0, .move 0, .move 0, .move 0, .move 0, .move 0,
      .move 0, .complete 0 0x8000 64, .call 1 .drainRenderQueue, .move 1, .move 1,
      .call 0 (.setRenderPacket 6), .move 0, .move 0, .move 1, .move 1, .move 1, .move 1, .move 1,
      .move 0, .move 0, .move 0, .move 0]) := by
  apply run_completionIdentity
  decide +kernel

/-- A drain has released period 0, which carried packet 5, when packet 9 is submitted in it. The
completion of packet 5 is counted as a bad status and notified as packet 9, which the device has
not played. -/
theorem run_not_completionIdentity :
    let w := run World.step (World.fresh Setup.twoPackets 2)
      [.call 0 (.setRenderPacket 5), .move 0, .move 0, .move 0, .move 0, .move 0, .move 0, .move 0,
        .move 0, .complete 0 0x8000 64, .call 1 .drainRenderQueue, .move 1,
        .call 0 (.setRenderPacket 9), .move 0, .move 0, .move 0, .move 0, .move 0,
        .move 1, .move 1, .move 1, .move 1, .move 1, .move 1, .move 1, .move 1]
    w.stream.log.completed = [⟨0, 5, 0x8000, 64⟩] ∧
      w.stream.log.notified = [(⟨0, 5, 0x8000, 64⟩, ⟨0, 9, 0, 0⟩)] ∧
      w.stream.packetsCompleted = 10 ∧ w.stream.xrunCount = 1 ∧ ¬ CompletionIdentity w := by
  intro w
  have hnotified : w.stream.log.notified = [(⟨0, 5, 0x8000, 64⟩, ⟨0, 9, 0, 0⟩)] := by
    decide +kernel
  refine ⟨by decide +kernel, hnotified, by decide +kernel, by decide +kernel, fun h => ?_⟩
  have hsame := h.faithful (⟨0, 5, 0x8000, 64⟩, ⟨0, 9, 0, 0⟩) (by
    rw [hnotified]
    exact List.mem_singleton_self _)
  exact absurd hsame (by decide)

end Viosnd.Acx
