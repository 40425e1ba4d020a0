import Viosnd.Control.Requests
import Viosnd.Control.Safety

/-!
# Commands of several threads

Threads configure, start and stop streams and query their infos. Each of them goes through its
routine with one call of `ViosndControlCommand` after another, and the calls of all of them share
the control queue. Whatever the order, a routine ends with what the device has answered to its own
requests.
-/

namespace Viosnd.Control

open StepRun Viosnd.Device

/-! ## The threads -/

/-- A call a routine has made, with what came of it. -/
structure Exchange where
  call : ℕ
  question : Question
  answer : Answer

def Exchange.pair (e : Exchange) : Question × Answer := (e.question, e.answer)

def Exchange.entry (e : Exchange) : ℕ × List Byte × List Byte :=
  (e.call, e.question.request, e.answer.response)

inductive Operation where
  /-- `ViosndStartPcm`, `ViosndStopPcm` and `ViosndReleasePcm`. -/
  | pcm (streamId : ULONG) (command : PcmCommand)
  /-- `ViosndConfigureDefaultPcm` and `ViosndConfigureFallbackPcm`. -/
  | configure (streamId : ULONG) (format : PcmFormat)
  /-- `ViosndQueryPcmStreams`. -/
  | query (streams : ULONG) (allocated : Bool)

abbrev Result := NtStatus × Option StreamPair

def statusOnly (routine : Routine NtStatus) : Routine Result :=
  routine.bind fun status => .done (status, none)

def Operation.routine : Operation → Routine Result
  | .pcm streamId command => statusOnly (viosndPcmCommand streamId command)
  | .configure streamId format => statusOnly (viosndConfigurePcmFormat streamId format)
  | .query streams allocated => viosndQueryPcmStreams streams allocated

/-- What a thread is at, with the exchanges it has had. -/
inductive Job where
  | none
  | running (operation : Operation) (rest : Routine Result) (exchanges : List Exchange)
  /-- The thread is in the call; `asked` answers were logged before it. -/
  | waiting (operation : Operation) (question : Question) (next : Answer → Routine Result)
      (exchanges : List Exchange) (call asked : ℕ)

structure Finished where
  operation : Operation
  result : Result
  exchanges : List Exchange

structure System where
  control : World
  jobs : List Job
  finished : List Finished

inductive SystemInput where
  | begin (thread : ℕ) (operation : Operation)
  /-- The thread makes its next call, or goes on behind one that is over. -/
  | goOn (thread : ℕ)
  /-- The thread goes on inside of `ViosndControlCommand`. -/
  | move (thread : ℕ) (allocation : Allocation)
  | complete (k : ℕ) (written : List Byte) (length : BitVec 32)

def Device.returnOf (d : Device) (call : ℕ) : Option Return :=
  d.log.returned.find? fun r => r.call == call

def goOn (thread : ℕ) (w : System) : Job → System
  | .none => w
  | .running operation (.done result) exchanges => { w with
      jobs := w.jobs.set thread .none
      finished := w.finished ++ [⟨operation, result, exchanges⟩] }
  | .running operation (.ask question next) exchanges =>
      match w.control.threads[thread]? with
      | some .idle => { w with
          control := w.control.step (.call thread question.request question.responseLength)
          jobs := w.jobs.set thread (.waiting operation question next exchanges
            w.control.device.nextCall w.control.device.log.answered.length) }
      | _ => w
  | .waiting operation question next exchanges call _ =>
      match w.control.threads[thread]?, w.control.device.returnOf call with
      | some .idle, some r => { w with
          jobs := w.jobs.set thread (.running operation (next ⟨r.status, r.response⟩)
            (exchanges ++ [⟨call, question, ⟨r.status, r.response⟩⟩])) }
      | _, _ => w

def System.step (w : System) : SystemInput → System
  | .begin thread operation =>
      match w.jobs[thread]? with
      | some .none => { w with
          jobs := w.jobs.set thread (.running operation operation.routine []) }
      | _ => w
  | .goOn thread =>
      match w.jobs[thread]? with
      | some job => goOn thread w job
      | none => w
  | .move thread allocation => { w with
      control := w.control.step (.move thread allocation) }
  | .complete k written length => { w with
      control := w.control.step (.complete k written length) }

def System.fresh (hasQueue : Bool) (queueSize threadCount : ℕ) : System where
  control := World.fresh hasQueue queueSize threadCount
  jobs := List.replicate threadCount .none
  finished := []

/-! ## What a command is for -/

def Finished.answers (f : Finished) : List Answer := f.exchanges.map Exchange.answer

/-- The answers of the device that the exchanges rest on. -/
def entries (exchanges : List Exchange) : List (ℕ × List Byte × List Byte) :=
  (exchanges.filter fun e => e.answer.status.isSuccess).map Exchange.entry

structure Obeys (w : System) : Prop where
  /-- The successful calls of an operation were answered by the device, each to its own request, in
  the order of the operation. -/
  answered : ∀ f ∈ w.finished, (entries f.exchanges).Sublist w.control.device.log.answered
  /-- A command succeeds when its answers accept it, after four attempts at most. -/
  pcm : ∀ f ∈ w.finished, ∀ streamId command, f.operation = .pcm streamId command →
    f.exchanges.map Exchange.pair =
        repeated (pcmHdr command streamId) sizeofSndHdr f.answers ∧
      f.answers.length ≤ controlStatusRetryCount ∧
      (f.result.1 = .success ↔ Accepted f.answers)
  /-- A stream is configured when its parameters were accepted first and its preparation next. -/
  configure : ∀ f ∈ w.finished, ∀ streamId format, f.operation = .configure streamId format →
    ∃ params prepare, f.exchanges.map Exchange.pair =
        repeated (viosndBuildSetParams streamId format) sizeofSndHdr params ++
          repeated (pcmHdr .prepare streamId) sizeofSndHdr prepare ∧
      params.length ≤ controlStatusRetryCount ∧ prepare.length ≤ controlStatusRetryCount ∧
      (prepare ≠ [] → Accepted params) ∧
      (f.result.1 = .success ↔ Accepted params ∧ Accepted prepare)
  /-- A pair of streams was chosen from the infos in the last answer, after eight attempts at
  most. -/
  query : ∀ f ∈ w.finished, ∀ streams allocated, f.operation = .query streams allocated →
    f.exchanges.map Exchange.pair = repeated (queryInfo (queryCount streams))
        (queryLength (queryCount streams)) f.answers ∧
      f.answers.length ≤ pcmInfoRetryCount ∧ (f.result.1 = .success →
        ∃ a ∈ f.answers.getLast?, a.status = .success ∧ a.code = sndOk ∧
          viosndFindStreamPair (streamInfosAt a.response sizeofSndHdr (queryCount streams)) =
            (.success, f.result.2.getD ⟨0, 0, false, false⟩))
  /-- A thread that is back from its call has what the call returned. -/
  back : ∀ (t : ℕ) operation question next exchanges call asked,
    w.jobs[t]? = some (Job.waiting operation question next exchanges call asked) →
    w.control.threads[t]? = some Place.idle → (w.control.device.returnOf call).isSome
  /-- No call returns twice. -/
  once : (w.control.device.log.returned.map Return.call).Nodup

/-! ## The calls -/

section

variable {d d' : Device} {a b : Place}

@[simp] theorem freeControlMessage_returned (d : Device) (message : ℕ) :
    (freeControlMessage d message).log.returned = d.log.returned := by
  unfold freeControlMessage
  split <;> rfl

@[simp] theorem freeControlMessage_answered (d : Device) (message : ℕ) :
    (freeControlMessage d message).log.answered = d.log.answered := by
  unfold freeControlMessage
  split <;> rfl

/-- A thread goes on with its call, or is back from it with what the call returned. -/
theorem Moves.returns (hmoves : Moves d a d' b) :
    (d'.log.returned = d.log.returned ∧ b.command = a.command) ∨
      ∃ c ∈ a.command, ∃ status response,
        d'.log.returned = d.log.returned ++ [⟨c.number, status, response⟩] ∧ b = .idle := by
  cases hmoves with
  | noQueue c => exact Or.inr ⟨c, rfl, _, _, rfl, rfl⟩
  | noMemory c => exact Or.inr ⟨c, rfl, _, _, rfl, rfl⟩
  | noBuffers c => exact Or.inr ⟨c, rfl, _, _, rfl, rfl⟩
  | timeOut c message elapsedUs => exact Or.inr ⟨c, rfl, _, _, rfl, rfl⟩
  | finish c message elapsedUs chain length queue hget heq =>
      refine Or.inr ⟨c, rfl, .success,
        (((d.heap message).map Message.response).getD []).take c.responseLength, ?_, rfl⟩
      change (freeControlMessage _ message).log.returned ++ _ = _
      rw [freeControlMessage_returned]
  | discard c message status =>
      refine Or.inr ⟨c, rfl, status, [], ?_, rfl⟩
      change (freeControlMessage d message).log.returned ++ _ = _
      rw [freeControlMessage_returned]
  | reclaim c message elapsedUs chain length queue hget hne =>
      refine Or.inl ⟨?_, rfl⟩
      change (freeControlMessage _ chain.message).log.returned = _
      rw [freeControlMessage_returned]
  | _ => exact Or.inl ⟨rfl, rfl⟩

theorem Moves.answered (hmoves : Moves d a d' b) : d'.log.answered = d.log.answered := by
  cases hmoves with
  | finish c message elapsedUs chain length queue hget heq =>
      exact freeControlMessage_answered _ message
  | discard c message status => exact freeControlMessage_answered d message
  | reclaim c message elapsedUs chain length queue hget hne =>
      exact freeControlMessage_answered _ chain.message
  | _ => rfl

/-- Calls are numbered, and each is logged under its number once. -/
structure Device.Numbered (d : Device) : Prop where
  calledOnce : (d.log.called.map Prod.fst).Nodup
  called : ∀ entry ∈ d.log.called, entry.1 < d.nextCall
  answered : ∀ entry ∈ d.log.answered, entry.1 < d.nextCall
  returnedOnce : (d.log.returned.map Return.call).Nodup
  returned : ∀ r ∈ d.log.returned, r.call < d.nextCall

structure Grows (d d' : Device) : Prop where
  answered : d.log.answered <+: d'.log.answered
  called : d.log.called ⊆ d'.log.called
  returned : d.log.returned <+: d'.log.returned

theorem Grows.refl (d : Device) : Grows d d :=
  ⟨List.prefix_refl _, List.Subset.refl _, List.prefix_refl _⟩

structure World.Tracked (w : World) : Prop where
  kept : w.Kept
  numbered : w.device.Numbered
  unreturned : ∀ place ∈ w.threads, ∀ c ∈ place.command,
    c.number ∉ w.device.log.returned.map Return.call

theorem World.Tracked.move {w : World} (h : w.Tracked) {t : ℕ} (ha : w.threads[t]? = some a)
    (hmoves : Moves w.device a d' b) :
    World.Tracked ⟨d', w.threads.set t b⟩ ∧ Grows w.device d' := by
  have hlogged := hmoves.logged (h.kept.ready ha)
  have hanswered := hmoves.answered
  have hmem := List.mem_of_getElem? ha
  have hn := h.numbered
  have hreturns := hmoves.returns
  have hgrows : Grows w.device d' := by
    refine ⟨hanswered ▸ List.prefix_refl _, hlogged.called ▸ List.Subset.refl _, ?_⟩
    rcases hreturns with ⟨hsame, -⟩ | ⟨c, -, status, response, hnew, -⟩
    · exact hsame ▸ List.prefix_refl _
    · exact hnew ▸ List.prefix_append _ _
  refine ⟨⟨h.kept.move ha hmoves, ⟨?_, ?_, ?_, ?_, ?_⟩, ?_⟩, hgrows⟩
  · rw [hlogged.called]
    exact hn.calledOnce
  · rw [hlogged.called, hlogged.nextCall]
    exact hn.called
  · rw [hanswered, hlogged.nextCall]
    exact hn.answered
  · rcases hreturns with ⟨hsame, -⟩ | ⟨c, hc, status, response, hnew, -⟩
    · rw [hsame]
      exact hn.returnedOnce
    · rw [hnew, List.map_append]
      exact hn.returnedOnce.append (List.nodup_singleton _)
        (List.disjoint_singleton.mpr (h.unreturned a hmem c hc))
  · rw [hlogged.nextCall]
    rcases hreturns with ⟨hsame, -⟩ | ⟨c, hc, status, response, hnew, -⟩
    · rw [hsame]
      exact hn.returned
    · intro r hr
      rw [hnew] at hr
      rcases List.mem_append.mp hr with hold | hlast
      · exact hn.returned r hold
      · rw [List.mem_singleton.mp hlast]
        exact (h.kept.inProgress a hmem c hc).before
  · intro place hplace c' hc'
    rcases hreturns with ⟨hsame, hcommand⟩ | ⟨c, hc, status, response, hnew, hidle⟩
    · rw [hsame]
      rcases ThreadPool.mem_of_mem_move hplace with hold | rfl
      · exact h.unreturned place hold c' hc'
      · exact h.unreturned a hmem c' (hcommand ▸ hc')
    · rcases h.kept.others ha hplace with rfl | ⟨hold, hne⟩
      · rw [hidle] at hc'
        cases hc'
      · rw [hnew, List.map_append, List.mem_append]
        intro hreturned
        rcases hreturned with hbefore | hlast
        · exact h.unreturned place hold c' hc' hbefore
        · exact hne c hc c' hc' (List.mem_singleton.mp hlast).symm

theorem World.Tracked.call {w : World} (h : w.Tracked) {t : ℕ}
    (hidle : w.threads[t]? = some .idle) (request : List Byte) (responseLength : ℕ) :
    (w.step (.call t request responseLength)).Tracked ∧
      Grows w.device (w.step (.call t request responseLength)).device := by
  have hn := h.numbered
  have hkept := h.kept.step (.call t request responseLength)
  simp only [World.step, hidle] at hkept ⊢
  refine ⟨⟨hkept, ⟨?_, ?_, ?_, hn.returnedOnce, ?_⟩, ?_⟩,
    List.prefix_refl _, List.subset_append_left _ _, List.prefix_refl _⟩
  · rw [List.map_append]
    apply hn.calledOnce.append (List.nodup_singleton _)
    apply List.disjoint_singleton.mpr
    intro hmem
    obtain ⟨entry, hentry, heq⟩ := List.mem_map.mp hmem
    exact Nat.lt_irrefl _ (heq ▸ hn.called entry hentry)
  · intro entry hentry
    rcases List.mem_append.mp hentry with hold | hlast
    · exact Nat.lt_succ_of_lt (hn.called entry hold)
    · rw [List.mem_singleton.mp hlast]
      exact Nat.lt_succ_self _
  · exact fun entry hentry => Nat.lt_succ_of_lt (hn.answered entry hentry)
  · exact fun r hr => Nat.lt_succ_of_lt (hn.returned r hr)
  · intro place hplace c hc
    rcases ThreadPool.mem_of_mem_move hplace with hold | rfl
    · exact h.unreturned place hold c hc
    · obtain rfl := Option.some.inj hc
      intro hmem
      obtain ⟨r, hr, heq⟩ := List.mem_map.mp hmem
      exact Nat.lt_irrefl _ (heq ▸ hn.returned r hr)

theorem World.Tracked.complete {w : World} (h : w.Tracked) (k : ℕ) (written : List Byte)
    (length : BitVec 32) : (w.step (.complete k written length)).Tracked ∧
      Grows w.device (w.step (.complete k written length)).device := by
  have hn := h.numbered
  have hkept := h.kept.step (.complete k written length)
  simp only [World.step, Device.complete] at hkept ⊢
  cases hk : w.device.queue.inFlight[k]? with
  | none => exact ⟨h, Grows.refl _⟩
  | some flight =>
      obtain ⟨chain, cost⟩ := flight
      have hflight : chain ∈ w.device.queue.inFlight.map Prod.fst :=
        List.mem_map.mpr ⟨_, List.mem_of_getElem? hk, rfl⟩
      obtain ⟨m, hm, hcall⟩ := h.kept.sound.onQueue chain (List.mem_append_left _ hflight)
      simp only [hk, hm] at hkept ⊢
      refine ⟨⟨hkept, ⟨hn.calledOnce, hn.called, ?_, hn.returnedOnce, hn.returned⟩,
        h.unreturned⟩, List.prefix_append _ _, List.Subset.refl _, List.prefix_refl _⟩
      intro entry hentry
      rcases List.mem_append.mp hentry with hold | hlast
      · exact hn.answered entry hold
      · rw [List.mem_singleton.mp hlast, ← hcall]
        exact (h.kept.sound.heap _ m hm).1

end

/-! ## The routines -/

private theorem entries_concat (exchanges : List Exchange) (e : Exchange) :
    entries (exchanges ++ [e]) =
      entries exchanges ++ if e.answer.status.isSuccess then [e.entry] else [] := by
  unfold entries
  rw [List.filter_append, List.map_append]
  cases hsuccess : e.answer.status.isSuccess <;> simp [hsuccess]

/-- What a thread has asked led it to where it is, and rests on the answers of the device. -/
def Job.Follows (d : Device) : Job → Prop
  | .none => True
  | .running operation rest exchanges =>
      operation.routine.After (exchanges.map Exchange.pair) rest ∧
        (entries exchanges).Sublist d.log.answered
  | .waiting operation question next exchanges call asked =>
      operation.routine.After (exchanges.map Exchange.pair) (.ask question next) ∧
        (call, question.request) ∈ d.log.called ∧ asked ≤ d.log.answered.length ∧
        (entries exchanges).Sublist (d.log.answered.take asked) ∧
        ∀ entry ∈ d.log.answered.take asked, entry.1 < call

def Finished.Follows (d : Device) (f : Finished) : Prop :=
  f.operation.routine.After (f.exchanges.map Exchange.pair) (.done f.result) ∧
    (entries f.exchanges).Sublist d.log.answered

def Job.call : Job → Option ℕ
  | .waiting _ _ _ _ call _ => some call
  | _ => .none

section

variable {d d' : Device} {job : Job} {f : Finished} {w : System} {t : ℕ}

theorem Job.Follows.grows (h : job.Follows d) (hgrows : Grows d d') : job.Follows d' := by
  cases job with
  | none => trivial
  | running operation rest exchanges => exact ⟨h.1, h.2.trans hgrows.answered.sublist⟩
  | waiting operation question next exchanges call asked =>
      obtain ⟨hafter, hcalled, hasked, hentries, hbefore⟩ := h
      have htake : d'.log.answered.take asked = d.log.answered.take asked := by
        obtain ⟨more, hmore⟩ := hgrows.answered
        rw [← hmore, List.take_append_of_le_length hasked]
      refine ⟨hafter, hgrows.called hcalled, hasked.trans hgrows.answered.length_le, ?_, ?_⟩
      · rw [htake]
        exact hentries
      · rw [htake]
        exact hbefore

theorem Finished.Follows.grows (h : f.Follows d) (hgrows : Grows d d') : f.Follows d' :=
  ⟨h.1, h.2.trans hgrows.answered.sublist⟩

structure System.Kept (w : System) : Prop where
  tracked : w.control.Tracked
  jobs : ∀ job ∈ w.jobs, job.Follows w.control.device
  finished : ∀ f ∈ w.finished, f.Follows w.control.device
  /-- A thread is in its call, or the call has returned. -/
  back : ∀ (t : ℕ) job, w.jobs[t]? = some job → ∀ call ∈ job.call,
    (∃ place, w.control.threads[t]? = some place ∧ ∃ c ∈ place.command, c.number = call) ∨
      call ∈ w.control.device.log.returned.map Return.call

theorem System.Kept.set (h : w.Kept) {control : World} (htracked : control.Tracked)
    (hgrows : Grows w.control.device control.device) (hjob : job.Follows control.device)
    (hback : ∀ (t' : ℕ) old, (w.jobs.set t job)[t']? = some old → ∀ call ∈ old.call,
      (∃ place, control.threads[t']? = some place ∧ ∃ c ∈ place.command, c.number = call) ∨
        call ∈ control.device.log.returned.map Return.call)
    {finished : List Finished} (hfinished : ∀ f ∈ finished, f.Follows control.device) :
    System.Kept ⟨control, w.jobs.set t job, finished⟩ where
  tracked := htracked
  jobs other hother := by
    rcases ThreadPool.mem_of_mem_move hother with hold | rfl
    · exact (h.jobs other hold).grows hgrows
    · exact hjob
  finished := hfinished
  back := hback

/-- A job that is in no call takes the place of another. -/
private theorem System.Kept.setHere (h : w.Kept) (job : Job) (hjob : job.Follows w.control.device)
    (hcall : job.call = none) {finished : List Finished}
    (hfinished : ∀ f ∈ finished, f.Follows w.control.device) :
    System.Kept ⟨w.control, w.jobs.set t job, finished⟩ := by
  apply h.set h.tracked (Grows.refl _) hjob _ hfinished
  intro t' old hold call hin
  rw [List.getElem?_set] at hold
  split_ifs at hold
  · obtain rfl := Option.some.inj hold
    rw [hcall] at hin
    cases hin
  · exact h.back t' old hold call hin

theorem System.Kept.control (h : w.Kept) {control : World} (htracked : control.Tracked)
    (hgrows : Grows w.control.device control.device)
    (hthreads : ∀ (t : ℕ) place, w.control.threads[t]? = some place → ∀ c ∈ place.command,
      (∃ place', control.threads[t]? = some place' ∧ ∃ c' ∈ place'.command,
        c'.number = c.number) ∨ c.number ∈ control.device.log.returned.map Return.call) :
    System.Kept { w with
      control := control } where
  tracked := htracked
  jobs job hjob := (h.jobs job hjob).grows hgrows
  finished f hf := (h.finished f hf).grows hgrows
  back t job hjob call hcall := by
    rcases h.back t job hjob call hcall with ⟨place, hplace, c, hc, rfl⟩ | hreturned
    · exact hthreads t place hplace c hc
    · exact Or.inr (List.map_subset _ hgrows.returned.subset hreturned)

theorem System.Kept.move (h : w.Kept) (t : ℕ) (allocation : Allocation) :
    (w.step (.move t allocation)).Kept := by
  simp only [System.step, World.step]
  cases ha : w.control.threads[t]? with
  | none => exact h
  | some a =>
      have hmoves := stepPlace_moves w.control.device allocation a
      obtain ⟨htracked, hgrows⟩ := h.tracked.move ha hmoves
      apply h.control htracked hgrows
      intro t' place hplace c hc
      dsimp only
      rw [List.getElem?_set]
      split_ifs with heq hlt
      · subst heq
        rw [ha] at hplace
        obtain rfl := Option.some.inj hplace
        rcases hmoves.returns with ⟨-, hcommand⟩ | ⟨c', hc', status, response, hnew, -⟩
        · exact Or.inl ⟨_, rfl, c, hcommand ▸ hc, rfl⟩
        · obtain rfl := Option.some.inj (hc'.symm.trans hc)
          right
          rw [hnew]
          simp
      · subst heq
        exact absurd (List.getElem?_eq_some_iff.mp ha).1 hlt
      · exact Or.inl ⟨place, hplace, c, hc, rfl⟩

theorem System.Kept.complete (h : w.Kept) (k : ℕ) (written : List Byte) (length : BitVec 32) :
    (w.step (.complete k written length)).Kept := by
  obtain ⟨htracked, hgrows⟩ := h.tracked.complete k written length
  apply h.control htracked hgrows
  intro t place hplace c hc
  exact Or.inl ⟨place, hplace, c, hc, rfl⟩

theorem System.Kept.ask (h : w.Kept) {operation : Operation} {question : Question}
    {next : Answer → Routine Result} {exchanges : List Exchange}
    (hjob : Job.Follows w.control.device (.running operation (.ask question next) exchanges))
    (hidle : w.control.threads[t]? = some .idle) : System.Kept { w with
      control := w.control.step (.call t question.request question.responseLength)
      jobs := w.jobs.set t (.waiting operation question next exchanges w.control.device.nextCall
        w.control.device.log.answered.length) } := by
  obtain ⟨htracked, hgrows⟩ :=
    h.tracked.call hidle question.request question.responseLength
  have hlt := (List.getElem?_eq_some_iff.mp hidle).1
  apply h.set htracked hgrows _ _ fun f hf => (h.finished f hf).grows hgrows
  · simp only [World.step, hidle]
    refine ⟨hjob.1, List.mem_append_right _ (List.mem_singleton_self _), Nat.le_refl _, ?_, ?_⟩
    · rw [List.take_length]
      exact hjob.2
    · rw [List.take_length]
      exact h.tracked.numbered.answered
  · intro t' old hold call hcall
    simp only [World.step, hidle]
    by_cases heq : t = t'
    · subst heq
      left
      rw [List.getElem?_set_self hlt]
      rw [List.getElem?_set, if_pos rfl] at hold
      split_ifs at hold
      obtain rfl := Option.some.inj hold
      exact ⟨_, rfl, _, rfl, Option.some.inj hcall⟩
    · rw [List.getElem?_set_ne heq] at hold ⊢
      exact h.back t' old hold call hcall

/-- A thread takes up its routine with what the call has returned. -/
private theorem System.Kept.resume (h : w.Kept) {operation : Operation} {question : Question}
    {next : Answer → Routine Result} {exchanges : List Exchange} {call asked : ℕ} {r : Return}
    (hjob : Job.Follows w.control.device (.waiting operation question next exchanges call asked))
    (hr : w.control.device.returnOf call = some r) : System.Kept { w with
      jobs := w.jobs.set t (.running operation (next ⟨r.status, r.response⟩)
        (exchanges ++ [⟨call, question, ⟨r.status, r.response⟩⟩])) } := by
  obtain ⟨hafter, hcalled, hasked, hentries, hbefore⟩ := hjob
  apply h.setHere (.running operation _ _) _ rfl h.finished
  constructor
  · rw [List.map_append]
    exact hafter.concat _
  rw [entries_concat]
  split
  · rename_i hsuccess
    have hmem := List.mem_of_find?_eq_some hr
    obtain rfl : r.call = call := by simpa using List.find?_some hr
    obtain ⟨request, hrequest, hanswered⟩ :=
      h.tracked.kept.booked.answered r hmem (by simpa using hsuccess)
    -- a call is logged once, so the request is the one that was asked
    have hsame : request = question.request := by
      have hone := List.inj_on_of_nodup_map h.tracked.numbered.calledOnce hrequest hcalled rfl
      exact (Prod.mk.inj hone).2
    rw [hsame] at hanswered
    -- the answer is behind all that were logged before the call
    rw [← List.take_append_drop asked w.control.device.log.answered] at hanswered ⊢
    apply hentries.append
    apply List.singleton_sublist.mpr
    rcases List.mem_append.mp hanswered with hearly | hlate
    · exact absurd (hbefore _ hearly) (Nat.lt_irrefl _)
    · exact hlate
  · rw [List.append_nil]
    exact hentries.trans (List.take_sublist _ _)

private theorem goOn_kept (h : w.Kept) (hjob : w.jobs[t]? = some job) : (goOn t w job).Kept := by
  have hfollows := h.jobs job (List.mem_of_getElem? hjob)
  unfold goOn
  cases job with
  | none => exact h
  | running operation rest exchanges =>
      cases rest with
      | done result =>
          apply h.setHere .none trivial rfl
          intro f hf
          rcases List.mem_append.mp hf with hold | hlast
          · exact h.finished f hold
          · rw [List.mem_singleton.mp hlast]
            exact hfollows
      | ask question next =>
          dsimp only
          split
          · rename_i hidle
            exact h.ask hfollows hidle
          · exact h
  | waiting operation question next exchanges call asked =>
      dsimp only
      split
      · rename_i r hidle hr
        exact h.resume hfollows hr
      · exact h

theorem System.Kept.step (w : System) (input : SystemInput) (h : w.Kept) :
    (w.step input).Kept := by
  cases input with
  | begin thread operation =>
      simp only [System.step]
      split
      · exact h.setHere (.running operation _ []) ⟨.nil _, List.nil_sublist _⟩ rfl h.finished
      · exact h
  | goOn thread =>
      simp only [System.step]
      split
      · rename_i job hjob
        exact goOn_kept h hjob
      · exact h
  | move thread allocation => exact h.move thread allocation
  | complete k written length => exact h.complete k written length

theorem System.fresh_kept (hasQueue : Bool) (queueSize threadCount : ℕ) :
    (System.fresh hasQueue queueSize threadCount).Kept := by
  refine ⟨⟨World.fresh_kept hasQueue queueSize threadCount, ?_, ?_⟩, ?_, ?_, ?_⟩
  · exact ⟨List.nodup_nil, fun entry he => absurd he List.not_mem_nil,
      fun entry he => absurd he List.not_mem_nil, List.nodup_nil,
      fun r hr => absurd hr List.not_mem_nil⟩
  · intro place hplace c hc
    exact List.not_mem_nil
  · intro job hjob
    rw [List.eq_of_mem_replicate hjob]
    trivial
  · exact fun f hf => absurd hf List.not_mem_nil
  · intro t job hjob call hcall
    rw [List.eq_of_mem_replicate (List.mem_of_getElem? hjob)] at hcall
    cases hcall

/-! ## Obedience -/

private theorem repeated_answers {exchanges : List Exchange} {request : List Byte}
    {responseLength : ℕ} {answers : List Answer}
    (h : exchanges.map Exchange.pair = repeated request responseLength answers) :
    exchanges.map Exchange.answer = answers := by
  have hsecond := congrArg (List.map Prod.snd) h
  unfold repeated at hsecond
  rw [List.map_map, List.map_map] at hsecond
  simpa [Function.comp_def, Exchange.pair] using hsecond

private theorem statusOnly_done {routine : Routine NtStatus} {log : List (Question × Answer)}
    {result : Result} (h : (statusOnly routine).After log (.done result)) :
    routine.After log (.done result.1) := by
  obtain ⟨first, status, second, rfl, hfirst, hdone⟩ := h.of_bind
  obtain ⟨rfl, rfl⟩ := Dialogue.after_done_iff.mp hdone
  rw [List.append_nil]
  exact hfirst

private theorem System.Kept.obeys (h : w.Kept) : Obeys w where
  answered f hf := (h.finished f hf).2
  pcm f hf streamId command hoperation := by
    have hafter := (h.finished f hf).1
    rw [hoperation] at hafter
    obtain ⟨answers, hlog, hcount, hstatus⟩ := pcmCommand_spec (statusOnly_done hafter)
    obtain rfl : f.answers = answers := repeated_answers hlog
    exact ⟨hlog, hcount, hstatus⟩
  configure f hf streamId format hoperation := by
    have hafter := (h.finished f hf).1
    rw [hoperation] at hafter
    exact configurePcmFormat_spec (statusOnly_done hafter)
  query f hf streams allocated hoperation := by
    have hafter := (h.finished f hf).1
    rw [hoperation] at hafter
    obtain ⟨answers, hlog, hcount, -, hfound⟩ := queryPcmStreams_spec hafter
    obtain rfl : f.answers = answers := repeated_answers hlog
    exact ⟨hlog, hcount, hfound⟩
  back t operation question next exchanges call asked hjob hidle := by
    rcases h.back t _ hjob call rfl with ⟨place, hplace, c, hc, -⟩ | hreturned
    · rw [hidle] at hplace
      obtain rfl := Option.some.inj hplace
      cases hc
    · obtain ⟨r, hr, heq⟩ := List.mem_map.mp hreturned
      unfold Device.returnOf
      rw [List.find?_isSome]
      exact ⟨r, hr, by simpa using heq⟩
  once := h.tracked.numbered.returnedOnce

/-- Whatever the threads do, whatever the device answers and however long it takes: a command ends
with success exactly when the device accepted it, and a query with a pair of the infos that the
device reported. -/
theorem run_obeys (hasQueue : Bool) (queueSize threadCount : ℕ) (inputs : List SystemInput) :
    Obeys (run System.step (System.fresh hasQueue queueSize threadCount) inputs) :=
  (run_invariant System.Kept.step inputs
    (System.fresh_kept hasQueue queueSize threadCount)).obeys

end

end Viosnd.Control
