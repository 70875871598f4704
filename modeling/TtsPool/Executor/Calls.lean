/-
# The calls of `_stream_finished`

A request that `stream` sends to the executor owes the router one call of
`_stream_finished`: out of the terminal callback of its handle, or, when its
enqueue raises, by `stream` itself.  `Served` says where that call is.  While
the handle is open its callbacks hold the router's once; finishing the handle
hands it to the finishing thread; a rejected request has it with its caller; and
`streamsFinished` lists the calls made.  So the calls still to be made and the
calls made are, handle by handle, the rejected and the finished requests.

`requests` counts the requests sent to the executor, those included whose handle
is still to be made.  No task of the executor moves it (`requests_run`).
-/

import TtsPool.Executor.Runs

namespace TtsPool

open Threads (Effect)

/-- A callback that is the router's is so for this model. -/
def TerminalCallback.For (modelName : String) : TerminalCallback → Prop
  | .streamFinished name => name = modelName
  | .other _ => True

/-- The callbacks a task knows are the model's, and a new handle gets the
router's own once. -/
def ExecutorTask.Proper (modelName : String) : ExecutorTask → Prop
  | .openStream _ spec => streamCalls spec.terminalCallbacks = 1 ∧
      ∀ callback ∈ spec.terminalCallbacks, callback.For modelName
  | .addTerminalCallback _ callback => callback.isStreamFinished = false
  | .runTerminalCallbacks _ callbacks => ∀ callback ∈ callbacks, callback.For modelName
  | _ => True

theorem ExecutorTask.Proper.of_plain {task : ExecutorTask} (modelName : String)
    (h : task.callsBack = false) : task.Proper modelName := by
  cases task <;> trivial

theorem calls_add (bag bag' : Multiset ExecutorTask) : calls (bag + bag') = calls bag + calls bag' := by
  simp [calls]

theorem calls_cons (task : ExecutorTask) (bag : Multiset ExecutorTask) :
    calls (task ::ₘ bag) = task.calls + calls bag := by simp [calls]

theorem calls_singleton (task : ExecutorTask) : calls {task} = task.calls := by simp [calls]

/-- A bag without callbacks has no call to make. -/
theorem Plain.calls {bag : Multiset ExecutorTask} (h : Plain bag) : calls bag = 0 := by
  induction bag using Multiset.induction with
  | empty => rfl
  | cons task bag ih =>
    have hcalls : task.calls = 0 := by
      have hplain := h task (Multiset.mem_cons_self _ _)
      cases task <;> first | rfl | cases hplain
    rw [calls_cons, hcalls, zero_add]
    exact ih fun task' htask => h task' (Multiset.mem_cons_of_mem htask)

namespace ExecutorState

/-- **Where the router's callback is.** -/
structure Served (modelName : String) (s : ExecutorState) (bag : Multiset ExecutorTask) : Prop where
  tasks : ∀ task ∈ bag, task.Proper modelName
  open_ : ∀ h < s.nextHandle, streamCalls (s.handles h).terminalCallbacks =
    if (s.handles h).terminal = true then 0 else 1
  names : ∀ h < s.nextHandle, ∀ callback ∈ (s.handles h).terminalCallbacks, callback.For modelName
  calls : calls bag + (s.streamsFinished : Multiset HandleId) = ↑(s.rejected ++ s.finished)

/-- The requests sent to the executor. -/
def requests (s : ExecutorState) (bag : Multiset ExecutorTask) : ℕ :=
  bag.countP (fun task => task.opens = true) + s.nextHandle

variable {s : ExecutorState} {task : ExecutorTask} {bag : Multiset ExecutorTask} {e : Step}
  {input : ExecutorInput} {modelName : String} {request : ResponseRequest} {spec : HandleSpec} {k : HandleId}

/-- The calls the other tasks have to make, beside a task that has none. -/
theorem Served.calls_tail (h : Served modelName s (task ::ₘ bag)) (hcalls : task.calls = 0) :
    TtsPool.calls bag + (s.streamsFinished : Multiset HandleId) = ↑(s.rejected ++ s.finished) := by
  have hold := h.calls
  rwa [calls_cons, hcalls, zero_add] at hold

/-- A task that has nothing to do with the callbacks, nor decides or ends a
request. -/
structure Aside (s : ExecutorState) (task : ExecutorTask) (e : Step) : Prop where
  nextHandle : e.state.nextHandle = s.nextHandle
  rejected : e.state.rejected = s.rejected
  finished : e.state.finished = s.finished
  streamsFinished : e.state.streamsFinished = s.streamsFinished
  terminal : ∀ h, (e.state.handles h).terminal = (s.handles h).terminal
  terminalCallbacks : ∀ h, (e.state.handles h).terminalCallbacks = (s.handles h).terminalCallbacks
  calls : task.calls = 0
  opens : task.opens = false
  plain : Plain e.left

theorem Served.aside (h : Served modelName s (task ::ₘ bag)) (ha : Aside s task e) :
    Served modelName e.state (e.left + bag) where
  tasks := fun task' htask => by
    rcases Multiset.mem_add.mp htask with htask | htask
    · exact .of_plain modelName (ha.plain task' htask)
    · exact h.tasks task' (Multiset.mem_cons_of_mem htask)
  open_ := fun k hk => by
    rw [ha.terminalCallbacks, ha.terminal]
    exact h.open_ k (ha.nextHandle ▸ hk)
  names := fun k hk => by
    rw [ha.terminalCallbacks]
    exact h.names k (ha.nextHandle ▸ hk)
  calls := by
    rw [calls_add, ha.plain.calls, zero_add, ha.streamsFinished, ha.rejected, ha.finished,
      h.calls_tail ha.calls]

theorem Quiet.aside (h : Quiet s task e) : Aside s task e :=
  ⟨h.nextHandle, h.rejected, h.finished, h.streamsFinished, h.terminal, h.terminalCallbacks, h.calls, h.opens,
    h.plain⟩

theorem beginShutdown_aside (now : ℚ) : Aside s .beginShutdown (s.beginShutdown now) := by
  refine ⟨rfl, rfl, rfl, rfl, fun _ => rfl, fun _ => rfl, rfl, rfl, fun task' htask => ?_⟩
  simp only [beginShutdown, Effect.left, List.flatten_nil, List.append_nil, Multiset.mem_coe,
    List.mem_append, List.mem_map] at htask
  rcases htask with ⟨job, -, rfl⟩ | ⟨k, -, rfl⟩ <;> rfl

theorem cancelStreamJob_aside (job : SchedulerJob) (holding : Bool) (now : ℚ) :
    Aside s (.cancelStreamJob job holding) (s.cancelStreamJob job now) := by
  unfold cancelStreamJob
  split
  · exact ⟨rfl, rfl, rfl, rfl, fun _ => rfl, fun _ => rfl, rfl, rfl, .single rfl⟩
  · exact ⟨rfl, rfl, rfl, rfl, fun _ => rfl, fun _ => rfl, rfl, rfl, .nil⟩

theorem runLoop_aside (htask : task = .runLoop ∨ task = .parked) (dispatcher : Dispatcher) (now : ℚ) :
    Aside s task (({ s with dispatcher := dispatcher } : ExecutorState).runLoop now) := by
  have hcalls : task.calls = 0 := by rcases htask with rfl | rfl <;> rfl
  have hopens : task.opens = false := by rcases htask with rfl | rfl <;> rfl
  unfold ExecutorState.runLoop
  split_ifs
  · exact ⟨rfl, rfl, rfl, rfl, fun _ => rfl, fun _ => rfl, hcalls, hopens, .nil⟩
  · split
    · exact ⟨rfl, rfl, rfl, rfl, fun _ => rfl, fun _ => rfl, hcalls, hopens, .single rfl⟩
    next queue job hpop =>
      refine ⟨rfl, rfl, rfl, rfl, fun _ => rfl, fun _ => rfl, hcalls, hopens, fun task' htask' => ?_⟩
      have htask' : task' = .startWorker job now ∨ task' = .runLoop := by simpa [Effect.left] using htask'
      rcases htask' with rfl | rfl <;> rfl
  · exact ⟨rfl, rfl, rfl, rfl, fun _ => rfl, fun _ => rfl, hcalls, hopens, .single rfl⟩

theorem abandonJob_aside (job : SchedulerJob) (error : EngineError) (now : ℚ) :
    Aside s (.abandonJob job error) (s.abandonJob job error now) :=
  ⟨rfl, rfl, rfl, rfl, fun _ => rfl, fun _ => rfl, rfl, rfl, .single rfl⟩

theorem release_aside (job : SchedulerJob) (backendStartedAt backendFinishedAt : ℚ)
    (outcome : Except EngineError RuntimeStreamResult) :
    Aside s (.release job backendStartedAt backendFinishedAt outcome)
      (s.release job backendStartedAt backendFinishedAt outcome) := by
  cases outcome with
  | error error => exact ⟨rfl, rfl, rfl, rfl, fun _ => rfl, fun _ => rfl, rfl, rfl, .single rfl⟩
  | ok result => exact ⟨rfl, rfl, rfl, rfl, fun _ => rfl, fun _ => rfl, rfl, rfl, .single rfl⟩

/-- What the other tasks know stays what it was. -/
theorem Served.tail (h : Served modelName s (task ::ₘ bag)) (task' : ExecutorTask) (htask : task' ∈ bag) :
    task'.Proper modelName := h.tasks task' (Multiset.mem_cons_of_mem htask)

theorem Served.openStream (h : Served modelName s (.openStream request spec ::ₘ bag)) (now : ℚ) :
    Served modelName (s.openStream request spec now).state ((s.openStream request spec now).left + bag) := by
  obtain ⟨hone, hfor⟩ := h.tasks _ (Multiset.mem_cons_self _ _)
  have hhandle : ∀ k < s.nextHandle + 1, ((s.openStream request spec now).state.handles k = s.handles k ∧
      k < s.nextHandle) ∨ (s.openStream request spec now).state.handles k = spec.handle now := by
    intro k hk
    by_cases hnew : k = s.nextHandle
    · subst hnew
      exact .inr (by simp [ExecutorState.openStream, setHandle])
    · exact .inl ⟨by simp [ExecutorState.openStream, setHandle, hnew], lt_of_le_of_ne (Nat.lt_succ_iff.mp hk) hnew⟩
  refine ⟨fun task' htask => ?_, fun k hk => ?_, fun k hk => ?_, ?_⟩
  · rcases Multiset.mem_add.mp htask with htask | htask
    · obtain rfl : task' = .enqueueStream request s.nextHandle := by
        simpa [ExecutorState.openStream, Effect.left] using htask
      trivial
    · exact h.tail task' htask
  · rcases hhandle k hk with ⟨hsame, hlt⟩ | hnew
    · rw [hsame]
      exact h.open_ k hlt
    · rw [hnew]
      exact hone
  · rcases hhandle k hk with ⟨hsame, hlt⟩ | hnew
    · rw [hsame]
      exact h.names k hlt
    · rw [hnew]
      exact hfor
  · have hleft : TtsPool.calls (s.openStream request spec now).left = 0 := (Plain.single rfl).calls
    rw [calls_add, hleft, zero_add]
    exact h.calls_tail rfl

/-- A rejected request leaves the call to its caller. -/
theorem Served.enqueueStream (h : Served modelName s (.enqueueStream request k ::ₘ bag)) (hok : s.queue.Ok)
    (now : ℚ) :
    Served modelName (s.enqueueStream request k now).state ((s.enqueueStream request k now).left + bag) := by
  rcases enqueueStream_cases hok request k now with ⟨error, q', -, -, heq⟩ | ⟨job, q', -, -, -, -, heq⟩
  · rw [heq]
    refine ⟨fun task' htask => ?_, h.open_, h.names, ?_⟩
    · rcases Multiset.mem_add.mp htask with htask | htask
      · obtain rfl : task' = .raised k error := by simpa [Effect.left] using htask
        trivial
      · exact h.tail task' htask
    · have hold := h.calls_tail rfl
      have hleft : TtsPool.calls (Effect.left { state := s, next := [ExecutorTask.raised k error] }) = {k} :=
        calls_singleton (.raised k error)
      rw [calls_add, add_assoc]
      refine (congrArg₂ (· + ·) hleft hold).trans ?_
      simp only [setQueue, ← Multiset.coe_add, ← Multiset.coe_singleton]
      rw [add_comm, add_right_comm]
  · rw [heq]
    refine h.aside ⟨rfl, rfl, rfl, rfl, fun _ => rfl, fun _ => rfl, rfl, rfl, fun task' htask => ?_⟩
    have htask : task' = .setCancelCallback job ∨ task' = .leaveEnqueue := by
      simpa [Effect.left] using htask
    rcases htask with rfl | rfl <;> rfl

/-- A callback called: the router's goes into the ledger. -/
theorem Served.callBack {callback : TerminalCallback} {next : List ExecutorTask}
    (h : Served modelName s (task ::ₘ bag)) (hnext : ∀ task' ∈ next, task'.Proper modelName)
    (hcalls : task.calls = Multiset.replicate (streamCalls [callback]) k +
      TtsPool.calls (next : Multiset ExecutorTask)) :
    Served modelName (s.callBack k callback)
      (Effect.left { state := s.callBack k callback, next := next } + bag) := by
  have hleft : Effect.left { state := s.callBack k callback, next := next } = (next : Multiset ExecutorTask) := by
    simp [Effect.left]
  have hold := h.calls
  rw [calls_cons, hcalls] at hold
  have htasks : ∀ task' ∈ (next : Multiset ExecutorTask) + bag, task'.Proper modelName := fun task' htask =>
    (Multiset.mem_add.mp htask).elim (hnext task') (h.tail task')
  rw [hleft]
  cases callback with
  | streamFinished name =>
    refine ⟨htasks, h.open_, h.names, ?_⟩
    have hone : streamCalls [TerminalCallback.streamFinished name] = 1 := rfl
    rw [hone, Multiset.replicate_one] at hold
    rw [calls_add, show (s.callBack k (.streamFinished name)).streamsFinished = s.streamsFinished ++ [k] from rfl,
      ← Multiset.coe_add, Multiset.coe_singleton]
    refine Eq.trans ?_ hold
    abel
  | other id =>
    refine ⟨htasks, h.open_, h.names, ?_⟩
    have hzero : streamCalls [TerminalCallback.other id] = 0 := rfl
    rw [hzero, Multiset.replicate_zero, zero_add] at hold
    rw [calls_add]
    exact hold

/-- A callback of somebody else added. -/
theorem Served.addTerminalCallback {callback : TerminalCallback}
    (h : Served modelName s (.addTerminalCallback k callback ::ₘ bag)) :
    Served modelName (s.addTerminalCallback k callback).state
      ((s.addTerminalCallback k callback).left + bag) := by
  have hother : callback.isStreamFinished = false := h.tasks _ (Multiset.mem_cons_self _ _)
  have hfor : callback.For modelName := by
    cases callback with
    | streamFinished name => cases hother
    | other id => trivial
  have hzero : streamCalls [callback] = 0 := by simp [streamCalls, hother]
  have hold := h.calls_tail rfl
  by_cases hterminal : (s.handles k).terminal = true
  · -- a terminal handle is left as it is, and the callback is called at once
    have heq : s.addTerminalCallback k callback =
        { state := s, next := [.runTerminalCallbacks k [callback]] } := by
      simp [ExecutorState.addTerminalCallback, SynthesisHandle.addTerminalCallback, hterminal, setHandle]
    rw [heq]
    refine ⟨fun task' htask => ?_, h.open_, h.names, ?_⟩
    · rcases Multiset.mem_add.mp htask with htask | htask
      · obtain rfl : task' = .runTerminalCallbacks k [callback] := by simpa [Effect.left] using htask
        intro other hmem
        exact List.mem_singleton.mp hmem ▸ hfor
      · exact h.tail task' htask
    · have hleft : TtsPool.calls (Effect.left
          { state := s, next := [ExecutorTask.runTerminalCallbacks k [callback]] }) = 0 := by
        refine (calls_singleton (.runTerminalCallbacks k [callback])).trans ?_
        rw [ExecutorTask.calls, hzero, Multiset.replicate_zero]
      rw [calls_add, hleft, zero_add]
      exact hold
  · have heq : s.addTerminalCallback k callback =
        { state := s.setHandle k { s.handles k with
            terminalCallbacks := (s.handles k).terminalCallbacks ++ [callback] } } := by
      simp [ExecutorState.addTerminalCallback, SynthesisHandle.addTerminalCallback, hterminal]
    rw [heq]
    refine ⟨fun task' htask => ?_, fun other hlt => ?_, fun other hlt => ?_, ?_⟩
    · exact h.tail task' (by simpa [Effect.left] using htask)
    · by_cases hother : other = k
      · subst hother
        have hopen := h.open_ other hlt
        rw [streamCalls] at hopen hzero
        simp only [setHandle, Function.update_self, streamCalls, List.countP_append]
        omega
      · simpa [setHandle, hother] using h.open_ other hlt
    · by_cases hother : other = k
      · subst hother
        intro callback' hmem
        simp only [setHandle, Function.update_self, List.mem_append, List.mem_singleton] at hmem
        rcases hmem with hmem | rfl
        · exact h.names other hlt callback' hmem
        · exact hfor
      · simpa [setHandle, hother] using h.names other hlt
    · simpa [Effect.left, setHandle] using hold

/-- Finishing a handle hands its callbacks to the thread. -/
theorem Served.finish {event : Option StreamEvent} {error : Option EngineError}
    (h : Served modelName s (.finish k event error ::ₘ bag)) (hok : Ok s (.finish k event error ::ₘ bag)) :
    Served modelName (s.finish k event error).state ((s.finish k event error).left + bag) := by
  have howned : k ∈ owned (.finish k event error ::ₘ bag) := by simp [ExecutorTask.owner]
  have hopen := hok.not_terminal_of_owned howned
  have hlt : k < s.nextHandle := by
    obtain ⟨job, hjob, rfl⟩ := hok.exists_job (Multiset.mem_add.mpr (.inl howned))
    exact hok.lt_of_accepted hjob
  have hone := h.open_ k hlt
  rw [if_neg (by simp [hopen])] at hone
  have heq : s.finish k event error =
      { state := { s.setHandle k { s.handles k with
            events := (s.handles k).events ++ event.toList
            error := error
            terminal := true
            terminalCallbacks := [] } with finished := s.finished ++ [k] }
        next := [.runTerminalCallbacks k (s.handles k).terminalCallbacks] } := by
    simp [ExecutorState.finish, SynthesisHandle.finish, hopen]
  have hold := h.calls_tail rfl
  rw [heq]
  refine ⟨fun task' htask => ?_, fun other hother => ?_, fun other hother => ?_, ?_⟩
  · rcases Multiset.mem_add.mp htask with htask | htask
    · obtain rfl : task' = .runTerminalCallbacks k (s.handles k).terminalCallbacks := by
        simpa [Effect.left] using htask
      exact h.names k hlt
    · exact h.tail task' htask
  · by_cases hk : other = k
    · subst hk
      simp [setHandle, streamCalls]
    · simpa [setHandle, hk] using h.open_ other hother
  · by_cases hk : other = k
    · subst hk
      simp [setHandle]
    · simpa [setHandle, hk] using h.names other hother
  · have hleft : TtsPool.calls (Effect.left
        { state := s, next := [ExecutorTask.runTerminalCallbacks k (s.handles k).terminalCallbacks] }) = {k} := by
      refine (calls_singleton (.runTerminalCallbacks k (s.handles k).terminalCallbacks)).trans ?_
      rw [ExecutorTask.calls, hone, Multiset.replicate_one]
    rw [calls_add, add_assoc]
    refine (congrArg₂ (· + ·) hleft hold).trans ?_
    simp only [setHandle, ← List.append_assoc, ← Multiset.coe_add, Multiset.coe_singleton]
    rw [add_comm]

/-- **A run of a task keeps the calls accounted for.** -/
theorem Served.run (h : Served modelName s (task ::ₘ bag)) (hok : Ok s (task ::ₘ bag))
    (hrun : s.run task input = some e) : Served modelName e.state (e.left + bag) := by
  cases ran_of_run hrun with
  | quiet hquiet => exact h.aside hquiet.aside
  | openStream request spec now => exact h.openStream now
  | enqueueStream request k now => exact h.enqueueStream hok.queue now
  | raised k error =>
    have hcalls : (ExecutorTask.raised k error).calls = Multiset.replicate
        (streamCalls [.streamFinished s.executor.modelName]) k + TtsPool.calls ([] : List ExecutorTask) := rfl
    exact h.callBack (fun _ hmem => absurd hmem List.not_mem_nil) hcalls
  | beginShutdown now => exact h.aside (beginShutdown_aside now)
  | addTerminalCallback k callback => exact h.addTerminalCallback
  | cancelStreamJob job holding now => exact h.aside (cancelStreamJob_aside job holding now)
  | finish k event error => exact h.finish hok
  | runTerminalCallbacks k callback callbacks =>
    have hproper := h.tasks _ (Multiset.mem_cons_self _ _)
    refine h.callBack (fun task' htask => ?_) ?_
    · obtain rfl := List.mem_singleton.mp htask
      exact fun other hmem => hproper other (List.mem_cons_of_mem _ hmem)
    · refine Eq.trans ?_ (congrArg _ (calls_singleton (.runTerminalCallbacks k callbacks)).symm)
      simp only [ExecutorTask.calls, streamCalls, ← Multiset.replicate_add, List.countP_cons, List.countP_nil]
      rw [zero_add, add_comm]
  | runLoop dispatcher _ htask now => exact h.aside (runLoop_aside htask dispatcher now)
  | abandonJob job error now => exact h.aside (abandonJob_aside job error now)
  | release job backendStartedAt backendFinishedAt outcome => exact h.aside (release_aside _ _ _ _)

/-- A call that comes in, or a thread that is started, with no call to make. -/
theorem Served.spawn (h : Served modelName s bag) (hproper : task.Proper modelName) (hcalls : task.calls = 0) :
    Served modelName s (task ::ₘ bag) where
  tasks := fun task' htask => by
    rcases Multiset.mem_cons.mp htask with rfl | htask
    · exact hproper
    · exact h.tasks task' htask
  open_ := h.open_
  names := h.names
  calls := by
    rw [calls_cons, hcalls, zero_add]
    exact h.calls

theorem Served.init (modelName : String) (executor : LoadedModelExecutor) : Served modelName (.init executor) 0 where
  tasks := fun _ h => absurd h (Multiset.notMem_zero _)
  open_ := fun _ h => absurd h (Nat.not_lt_zero _)
  names := fun _ h => absurd h (Nat.not_lt_zero _)
  calls := rfl

/-! ### Counting the requests -/

/-- Where nothing is called back, nothing is opened. -/
theorem opens_of_plain (h : Plain bag) : ∀ task' ∈ bag, task'.opens = false := by
  intro task' htask
  have hplain := h task' htask
  cases task' <;> first | rfl | cases hplain

/-- What a run counts: a task opens its own handle or none and leaves no other
to be opened, and it makes one call of `_stream_finished` or none. -/
theorem counts_run (modelName : String) (hok : s.queue.Ok) (hrun : s.run task input = some e) :
    (∀ task' ∈ e.left, task'.opens = false) ∧
    e.state.nextHandle = s.nextHandle + (if task.opens = true then 1 else 0) ∧
    e.state.streamsFinished.length = s.streamsFinished.length +
      (if (task.streamFinished modelName).isSome = true then 1 else 0) := by
  -- a task that is aside neither opens nor calls
  have haside : Aside s task e → (∀ task' ∈ e.left, task'.opens = false) ∧
      e.state.nextHandle = s.nextHandle + (if task.opens = true then 1 else 0) ∧
      e.state.streamsFinished.length = s.streamsFinished.length +
        (if (task.streamFinished modelName).isSome = true then 1 else 0) := by
    intro ha
    have hsilent : task.streamFinished modelName = none := by
      have hcalls := ha.calls
      cases task with
      | raised k error => simp [ExecutorTask.calls] at hcalls
      | runTerminalCallbacks k callbacks =>
        rcases callbacks with _ | ⟨callback | callback, callbacks⟩
        · rfl
        · simp [ExecutorTask.calls, streamCalls, List.countP_cons, TerminalCallback.isStreamFinished] at hcalls
        · rfl
      | _ => rfl
    exact ⟨opens_of_plain ha.plain, by simp [ha.nextHandle, ha.opens], by simp [ha.streamsFinished, hsilent]⟩
  cases ran_of_run hrun with
  | quiet hquiet => exact haside hquiet.aside
  | openStream request spec now => exact ⟨opens_of_plain (.single rfl), rfl, rfl⟩
  | enqueueStream request k now =>
    rcases enqueueStream_cases hok request k now with ⟨error, q', -, -, heq⟩ | ⟨job, q', -, -, -, -, heq⟩ <;>
      rw [heq] <;>
      exact ⟨by simp [Effect.left, ExecutorTask.opens], rfl, rfl⟩
  | raised k error => exact ⟨opens_of_plain .nil, rfl, by simp [callBack, ExecutorTask.streamFinished]⟩
  | beginShutdown now => exact haside (beginShutdown_aside now)
  | addTerminalCallback k callback =>
    unfold ExecutorState.addTerminalCallback
    refine ⟨?_, rfl, rfl⟩
    simp only [Effect.left]
    split_ifs <;> simp [ExecutorTask.opens]
  | cancelStreamJob job holding now => exact haside (cancelStreamJob_aside job holding now)
  | finish k event error => exact ⟨by simp [ExecutorState.finish, Effect.left, ExecutorTask.opens], rfl, rfl⟩
  | runTerminalCallbacks k callback callbacks =>
    cases callback with
    | streamFinished name =>
      exact ⟨by simp [Effect.left, ExecutorTask.opens], rfl, by simp [callBack, ExecutorTask.streamFinished]⟩
    | other id => exact ⟨by simp [Effect.left, ExecutorTask.opens], rfl, rfl⟩
  | runLoop dispatcher _ htask now => exact haside (runLoop_aside htask dispatcher now)
  | abandonJob job error now => exact haside (abandonJob_aside job error now)
  | release job backendStartedAt backendFinishedAt outcome => exact haside (release_aside _ _ _ _)

/-- Only opening a stream adds a request; running the tasks moves none. -/
theorem requests_run (hok : s.queue.Ok) (hrun : s.run task input = some e) :
    requests e.state (e.left + bag) = requests s (task ::ₘ bag) := by
  obtain ⟨hleft, hnext, -⟩ := counts_run s.executor.modelName hok hrun
  have hzero : e.left.countP (fun task => task.opens = true) = 0 :=
    Multiset.countP_eq_zero.mpr fun task' htask => by simp [hleft task' htask]
  rw [requests, requests, hnext, Multiset.countP_add, Multiset.countP_cons, hzero]
  omega

/-- The accepted requests whose handle is not terminal. -/
def openHandles (s : ExecutorState) : List HandleId :=
  (s.accepted.map SchedulerJob.streamHandle).filter fun k => !(s.handles k).terminal

/-- An accepted request is open or has been finished. -/
theorem Ok.openHandles_add (h : Ok s bag) : (s.openHandles : Multiset HandleId) + s.finished =
    (s.accepted.map SchedulerJob.streamHandle : Multiset HandleId) := by
  have hperm : s.finished.Perm
      ((s.accepted.map SchedulerJob.streamHandle).filter fun k => (s.handles k).terminal) := by
    refine (List.perm_ext_iff_of_nodup h.finished_nodup (h.accepted_nodup.filter _)).mpr fun k => ?_
    rw [List.mem_filter]
    constructor
    · intro hk
      obtain ⟨job, hjob, rfl⟩ := h.exists_job (Multiset.mem_add.mpr (.inr hk))
      exact ⟨List.mem_map_of_mem hjob, (h.terminal _ (h.lt_of_accepted hjob)).mpr hk⟩
    · rintro ⟨hk, hend⟩
      obtain ⟨job, hjob, rfl⟩ := List.mem_map.mp hk
      exact (h.terminal _ (h.lt_of_accepted hjob)).mp hend
  rw [add_comm, Multiset.coe_eq_coe.mpr hperm, Multiset.coe_add, Multiset.coe_eq_coe]
  exact List.filter_append_perm _ _

/-- **Where the requests are**: every handle made is undecided, open, with its
call still to be made, or over, and only one of these. -/
theorem handles_eq (hok : Ok s bag) (h : Served modelName s bag) :
    undecided bag + (s.openHandles : Multiset HandleId) + TtsPool.calls bag + s.streamsFinished =
      Multiset.range s.nextHandle := by
  rw [← hok.decided, ← hok.openHandles_add, add_assoc, h.calls, ← Multiset.coe_add]
  abel

theorem requests_eq (hok : Ok s bag) (h : Served modelName s bag) :
    requests s bag = bag.countP (fun task => task.opens = true) + (undecided bag).card + s.openHandles.length +
      (TtsPool.calls bag).card + s.streamsFinished.length := by
  have hcard := congrArg Multiset.card (handles_eq hok h)
  simp only [Multiset.card_add, Multiset.coe_card, Multiset.card_range] at hcard
  rw [requests]
  omega

/-- An executor with nothing left to do. -/
structure Quiescent (s : ExecutorState) (bag : Multiset ExecutorTask) : Prop where
  pending : s.queue.pendingJobs = 0
  slots : slots bag = 0
  undecided : undecided bag = 0
  opens : ∀ task ∈ bag, task.opens = false
  openHandles : s.openHandles = []

/-- Once every request has made its call, there is nothing left to do. -/
theorem quiescent (hok : Ok s bag) (h : Served modelName s bag)
    (hover : requests s bag = s.streamsFinished.length) : Quiescent s bag := by
  have hsplit := requests_eq hok h
  have hopen : s.openHandles = [] := List.eq_nil_of_length_eq_zero (by omega)
  have hopens : bag.countP (fun task => task.opens = true) = 0 := by omega
  have hundecided : (TtsPool.undecided bag).card = 0 := by omega
  -- what is not finished is open
  have hheld : (s.queue.pendingJobs + TtsPool.slots bag).map SchedulerJob.streamHandle + owned bag = 0 := by
    have hcustody := hok.custody
    rw [← hok.openHandles_add, hopen, Multiset.coe_nil, zero_add] at hcustody
    exact add_eq_right.mp hcustody
  have hcard := congrArg Multiset.card hheld
  simp only [Multiset.card_add, Multiset.card_map, Multiset.card_zero] at hcard
  refine ⟨Multiset.card_eq_zero.mp (by omega), Multiset.card_eq_zero.mp (by omega),
    Multiset.card_eq_zero.mp hundecided, fun task htask => ?_, hopen⟩
  rw [← Bool.not_eq_true]
  exact Multiset.countP_eq_zero.mp hopens task htask

/-- A handle that was accepted is terminal. -/
theorem Quiescent.terminal (h : Quiescent s bag) {job : SchedulerJob} (hjob : job ∈ s.accepted) :
    (s.handles job.streamHandle).terminal = true := by
  by_contra hopen
  have hmem : job.streamHandle ∈ s.openHandles :=
    List.mem_filter.mpr ⟨List.mem_map_of_mem hjob, by simpa using hopen⟩
  rw [h.openHandles] at hmem
  cases hmem

/-- No task holds a slot, in particular none in which the backend runs. -/
theorem Quiescent.slotJob (h : Quiescent s bag) (htask : task ∈ bag) : task.slotJob = none := by
  by_contra hslot
  obtain ⟨job, hjob⟩ := Option.ne_none_iff_exists'.mp hslot
  have hmem : job ∈ TtsPool.slots bag := (Multiset.mem_filterMap _ _).mpr ⟨task, htask, hjob⟩
  rw [h.slots] at hmem
  exact absurd hmem (Multiset.notMem_zero job)

theorem Quiescent.inBackend (h : Quiescent s bag) (htask : task ∈ bag) : task.inBackend = false := by
  have hslot := h.slotJob htask
  cases task <;> first | rfl | cases hslot

/-- A task about to call `_stream_finished` has a call to make. -/
theorem calls_pos (htask : task ∈ bag) (h : (task.streamFinished modelName).isSome = true) :
    0 < (TtsPool.calls bag).card := by
  obtain ⟨others, rfl⟩ := Multiset.exists_cons_of_mem htask
  have hone : 0 < task.calls.card := by
    cases task with
    | raised k error => exact Nat.zero_lt_one
    | runTerminalCallbacks k callbacks =>
      rcases callbacks with _ | ⟨callback | id, callbacks⟩
      · cases h
      · simp [ExecutorTask.calls, streamCalls, TerminalCallback.isStreamFinished]
      · cases h
    | _ => cases h
  rw [calls_cons, Multiset.card_add]
  omega

end ExecutorState
end TtsPool
