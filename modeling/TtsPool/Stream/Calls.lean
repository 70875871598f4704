/-
# The methods of a handle

The methods of `SynthesisHandle` as threads over one handle: any number of
producers, readers and cancellers, in any order of their sections under its
lock.  `emit_audio` looks at the buffer again and again until it appends or
raises.  `complete` reads the flag, then the maxima, then finishes, each under
the lock by itself, and another thread may come in between.  A read waits until
there is something to say; `read_event` and `read_event_async` differ in how
they wait alone.

A cancel callback is code of its own: what it does to the handle comes in as
calls.  The terminal callbacks called are entered in `called`.

Every step is at most one operation of `StreamOp` (`run_perform`), so a schedule
is a `Delivery.run` (`runs_delivery`), of operations that end a stream as
`complete` and `fail` do.
-/

import TtsPool.Stream.Delivery
import TtsPool.Support.Threads

namespace TtsPool

open Threads (Effect Config Action)

/-- A handle with its ledgers, and the terminal callbacks called. -/
structure StreamState where
  delivery : Delivery
  called : List TerminalCallback := []

/-- One task of a thread that uses the handle. -/
inductive StreamTask where
  | markDispatched (queueWaitMs : ℚ)
  | setCancelCallback (callback : SchedulerJob)
  | addTerminalCallback (callback : TerminalCallback)
  | cancel
  | emitStarted (sampleRateHz channelCount : ℤ)
  | emitAudio (event : StreamAudioChunk)
  /-- The look at the flag. -/
  | complete (result : RuntimeStreamResult) (metrics : Dict String (Option ℚ))
  /-- The look at the maxima. -/
  | combineMetrics (result : RuntimeStreamResult) (metrics : Dict String (Option ℚ))
  | fail (error : EngineError)
  | finish (event : Option StreamEvent) (error : Option EngineError)
  | runTerminalCallbacks (callbacks : List TerminalCallback)
  | readEvent

/-- The methods; the other tasks are parts of them. -/
def StreamTask.entry : StreamTask → Bool
  | .combineMetrics .. | .finish .. | .runTerminalCallbacks _ => false
  | _ => true

namespace StreamState

abbrev Step := Effect StreamState StreamTask

abbrev handle (s : StreamState) : SynthesisHandle := s.delivery.handle

/-- One section under the lock. -/
def perform (s : StreamState) (op : StreamOp) : StreamState := { s with delivery := s.delivery.perform op }

/-- `emit_audio` raises, waits or returns. -/
def emitAudio (s : StreamState) (event : StreamAudioChunk) (remaining : ℚ) : Step where
  state := s.perform (.emitAudio event remaining)
  next :=
    match s.handle.emitAudio event remaining with
    | .ok none => [.emitAudio event]
    | _ => []

/-- `add_terminal_callback`; on a terminal handle it is called at once. -/
def addTerminalCallback (s : StreamState) (callback : TerminalCallback) : Step where
  state := s.perform (.addTerminalCallback callback)
  next := if (s.handle.addTerminalCallback callback).2 then [.runTerminalCallbacks [callback]] else []

/-- `complete`: a cancelled handle fails instead. -/
def complete (s : StreamState) (result : RuntimeStreamResult) (metrics : Dict String (Option ℚ)) : Step where
  state := s
  next :=
    if s.handle.cancelled then [.fail (.synthesisCancelled "synthesis was cancelled before completion")]
    else [.combineMetrics result metrics]

/-- `_finish`, and the callbacks to run. -/
def finish (s : StreamState) (event : Option StreamEvent) (error : Option EngineError) : Step where
  state := s.perform (.finish event error)
  next := [.runTerminalCallbacks (s.handle.finish event error).2]

/-- One task, with the seconds a producer has left; `none` when it has to wait. -/
def run (s : StreamState) (task : StreamTask) (remaining : ℚ) : Option Step :=
  match task with
  | .markDispatched queueWaitMs => some { state := s.perform (.markDispatched queueWaitMs) }
  | .setCancelCallback callback => some { state := s.perform (.setCancelCallback callback) }
  | .addTerminalCallback callback => some (s.addTerminalCallback callback)
  | .cancel => some { state := s.perform .cancel }
  | .emitStarted sampleRateHz channelCount =>
    some { state := s.perform (.emitStarted sampleRateHz channelCount) }
  | .emitAudio event => some (s.emitAudio event remaining)
  | .complete result metrics => some (s.complete result metrics)
  | .combineMetrics result metrics =>
    some { state := s, next := [.finish (some (s.handle.completedEvent result metrics)) none] }
  | .fail error => some { state := s, next := [.finish none (some error)] }
  | .finish event error => some (s.finish event error)
  | .runTerminalCallbacks [] => some { state := s }
  | .runTerminalCallbacks (callback :: callbacks) =>
    some { state := { s with called := s.called ++ [callback] }, next := [.runTerminalCallbacks callbacks] }
  | .readEvent => if s.handle.Readable then some { state := s.perform .read } else none

end StreamState

/-- The threads around one handle. -/
def streamProgram : Threads.Program StreamState StreamTask ℚ where
  run := StreamState.run
  entry := StreamTask.entry

/-- A handle nobody has used. -/
def StreamState.start (handle : SynthesisHandle) : Config StreamState StreamTask where
  state := { delivery := { handle := handle } }

/-- What a task does under the lock, when it takes it. -/
def StreamTask.op (remaining : ℚ) : StreamTask → Option StreamOp
  | .markDispatched queueWaitMs => some (.markDispatched queueWaitMs)
  | .setCancelCallback callback => some (.setCancelCallback callback)
  | .addTerminalCallback callback => some (.addTerminalCallback callback)
  | .cancel => some .cancel
  | .emitStarted sampleRateHz channelCount => some (.emitStarted sampleRateHz channelCount)
  | .emitAudio event => some (.emitAudio event remaining)
  | .finish event error => some (.finish event error)
  | .readEvent => some .read
  | .complete .. | .combineMetrics .. | .fail _ | .runTerminalCallbacks _ => none

/-- A finishing task finishes as `complete` and `fail` do. -/
def StreamTask.Ends : StreamTask → Prop
  | .finish event error => (StreamOp.finish event error).Ends
  | _ => True

namespace StreamState

variable {s : StreamState} {task : StreamTask} {remaining : ℚ} {e : Step} {c : Config StreamState StreamTask}

/-- **Every step** is the operation of its task, or leaves handle and ledgers
alone. -/
theorem run_perform (h : s.run task remaining = some e) :
    e.state.delivery = (task.op remaining).elim s.delivery s.delivery.perform := by
  cases task with
  | readEvent =>
    simp only [run] at h
    split_ifs at h
    cases h
    rfl
  | runTerminalCallbacks callbacks => cases callbacks <;> cases h <;> rfl
  | _ => cases h; rfl

/-- A task starts no thread. -/
theorem run_spawned (h : s.run task remaining = some e) : e.spawned = [] := by
  cases task with
  | readEvent =>
    simp only [run] at h
    split_ifs at h
    cases h
    rfl
  | runTerminalCallbacks callbacks => cases callbacks <;> cases h <;> rfl
  | _ => cases h; rfl

/-- A task that finishes as it may performs an operation that does. -/
theorem op_ends {op : StreamOp} (h : task.Ends) (hop : task.op remaining = some op) : op.Ends := by
  cases task <;> cases hop <;> trivial

/-- What a task turns to next finishes as it may. -/
theorem run_ends (h : s.run task remaining = some e) : ∀ task' ∈ e.next, task'.Ends := by
  cases task with
  | readEvent =>
    simp only [run] at h
    split_ifs at h
    cases h
    exact fun _ hmem => absurd hmem List.not_mem_nil
  | runTerminalCallbacks callbacks =>
    cases callbacks <;> cases h
    · exact fun _ hmem => absurd hmem List.not_mem_nil
    · simp [StreamTask.Ends]
  | emitAudio event =>
    cases h
    simp only [emitAudio]
    split <;> simp [StreamTask.Ends]
  | addTerminalCallback callback =>
    cases h
    simp only [addTerminalCallback]
    split_ifs <;> simp [StreamTask.Ends]
  | complete result metrics =>
    cases h
    simp only [complete]
    split_ifs <;> simp [StreamTask.Ends]
  | combineMetrics result metrics =>
    cases h
    intro task' hmem
    rw [List.mem_singleton.mp hmem]
    exact StreamOp.ends_completed _
  | fail error =>
    cases h
    intro task' hmem
    rw [List.mem_singleton.mp hmem]
    exact StreamOp.ends_failed error
  | finish event error =>
    cases h
    simp [finish, StreamTask.Ends]
  | _ =>
    cases h
    exact fun _ hmem => absurd hmem List.not_mem_nil

/-- Only a producer that waits goes on to emit. -/
theorem run_emitAudio {event : StreamAudioChunk} (h : s.run task remaining = some e)
    (hmem : .emitAudio event ∈ e.next) : task = .emitAudio event := by
  cases task with
  | readEvent =>
    simp only [run] at h
    split_ifs at h
    cases h
    cases hmem
  | runTerminalCallbacks callbacks => cases callbacks <;> cases h <;> simp at hmem
  | emitAudio event' =>
    cases h
    simp only [emitAudio] at hmem
    split at hmem
    · exact (List.mem_singleton.mp hmem).symm
    · cases hmem
  | addTerminalCallback callback =>
    cases h
    simp only [addTerminalCallback] at hmem
    split_ifs at hmem <;> simp at hmem
  | complete result metrics =>
    cases h
    simp only [complete] at hmem
    split_ifs at hmem <;> simp at hmem
  | _ => cases h; simp [finish] at hmem

/-- **What a step does**: one operation, or none, and the tasks it leaves finish
as they may. -/
theorem step_delivery (h : ∀ task ∈ c.bag, task.Ends) (a : Action StreamTask ℚ) :
    ((streamProgram.step c a).state.delivery = c.state.delivery ∨
      ∃ op : StreamOp, op.Ends ∧ (streamProgram.step c a).state.delivery = c.state.delivery.perform op) ∧
      ∀ task ∈ (streamProgram.step c a).bag, task.Ends := by
  rcases Threads.Program.step_cases c a (p := streamProgram) with heq | ⟨task, -, hentry, hstate, hbag⟩ |
    ⟨thread, remaining, task, e, others, -, hnext, hrun, hold, hstate, hbag⟩
  · rw [heq]
    exact ⟨.inl rfl, h⟩
  · refine ⟨.inl (by rw [hstate]), fun task' hmem => ?_⟩
    rw [hbag] at hmem
    rcases Multiset.mem_cons.mp hmem with rfl | hmem
    · cases task' <;> trivial
    · exact h task' hmem
  · refine ⟨?_, fun task' hmem => ?_⟩
    · rw [hstate, run_perform hrun]
      cases hop : task.op remaining with
      | none => exact .inl rfl
      | some op => exact .inr ⟨op, op_ends (h task (Threads.mem_bag_of_next? hnext)) hop, rfl⟩
    · rw [hbag] at hmem
      rcases Multiset.mem_add.mp hmem with hmem | hmem
      · rw [Effect.left_of_next (run_spawned hrun), Multiset.mem_coe] at hmem
        exact run_ends hrun task' hmem
      · exact h task' (hold ▸ Multiset.mem_cons_of_mem hmem)

/-- **A schedule is a list of operations**, those that finish ending the stream
as they may. -/
theorem runs_delivery (h : ∀ task ∈ c.bag, task.Ends) (actions : List (Action StreamTask ℚ)) :
    (∃ ops, (∀ op ∈ ops, op.Ends) ∧
      (streamProgram.runs c actions).state.delivery = c.state.delivery.run ops) ∧
      ∀ task ∈ (streamProgram.runs c actions).bag, task.Ends := by
  induction actions generalizing c with
  | nil => exact ⟨⟨[], fun _ hmem => absurd hmem List.not_mem_nil, rfl⟩, h⟩
  | cons a actions ih =>
    obtain ⟨hstep, hbag⟩ := step_delivery h a
    obtain ⟨⟨ops, hops, hdelivery⟩, hbag'⟩ := ih hbag
    refine ⟨?_, hbag'⟩
    rcases hstep with heq | ⟨op, hop, heq⟩
    · exact ⟨ops, hops, by rw [← heq]; exact hdelivery⟩
    · refine ⟨op :: ops, fun op' hmem => ?_, hdelivery.trans (by rw [heq]; rfl)⟩
      rcases List.mem_cons.mp hmem with rfl | hmem
      · exact hop
      · exact hops op' hmem

/-- Nobody uses a new handle. -/
theorem start_ends (handle : SynthesisHandle) : ∀ task ∈ (start handle).bag, task.Ends :=
  fun _ hmem => absurd hmem (Multiset.notMem_zero _)

/-- A run of a task, on the ledgers. -/
theorem step_perform {thread : ℕ} {op : StreamOp} (hnext : c.next? thread = some task)
    (hop : task.op remaining = some op) (hwait : task ≠ .readEvent) :
    (streamProgram.step c (.run thread remaining)).state.delivery = c.state.delivery.perform op := by
  have hrun : ∃ e, c.state.run task remaining = some e := by
    cases task with
    | readEvent => exact absurd rfl hwait
    | runTerminalCallbacks callbacks => cases hop
    | _ => exact ⟨_, rfl⟩
  obtain ⟨e, hrun⟩ := hrun
  rw [Threads.Program.step_run hnext hrun, run_perform hrun, hop, Option.elim_some]

/-! ### Delivery under every interleaving -/

/-- **In order, each once, none lost; and how cancelling and ending meet.**  What
the reads return is a prefix of what is appended, and a terminal handle is
appended to no more.  A handle that fails or completes uncancelled delivers all
it buffers, then answers how it ended, for ever; a cancelled one answers every
read alike.  Cancelling a terminal handle changes nothing, so that who has
received the Completed event reads no error any more. -/
theorem reads_delivered (responseId modelName : String) (createdAt : ℚ) (maxBufferChunks maxBufferBytes : ℤ)
    (timeout : ℚ) (earlier later : List (Action StreamTask ℚ)) :
    let c := streamProgram.runs
      (start (.new responseId modelName createdAt maxBufferChunks maxBufferBytes timeout)) earlier
    let d := c.state.delivery
    let after := fun thread remaining =>
      (streamProgram.runs (streamProgram.step c (.run thread remaining)) later).state.delivery
    d.returned <+: d.appended ∧
    (d.handle.terminal = true → (streamProgram.runs c later).state.delivery.appended = d.appended) ∧
    (∀ thread remaining error, c.next? thread = some (.finish none (some error)) →
      d.handle.terminal = false → d.handle.cancelled = false →
      ∃ n, (after thread remaining).reads = d.reads ++ Delivery.answersTo d.handle.events (.error error) n) ∧
    (∀ thread remaining result, c.next? thread = some (.finish (some (.completed result)) none) →
      d.handle.terminal = false → d.handle.cancelled = false →
      ∃ n, (after thread remaining).reads =
        d.reads ++ Delivery.answersTo (d.handle.events ++ [.completed result]) (.ok none) n) ∧
    (∀ thread remaining, c.next? thread = some .cancel →
      d.handle.terminal = false → d.handle.cancelled = false →
      ∃ n, (after thread remaining).reads = d.reads ++ List.replicate n SynthesisHandle.cancelledAnswer) ∧
    (∀ thread remaining, c.next? thread = some .cancel → d.handle.terminal = true →
      (streamProgram.step c (.run thread remaining)).state = c.state) ∧
    ∀ event ∈ d.returned, event.isCompleted = true →
      ∃ n, (streamProgram.runs c later).state.delivery.reads = d.reads ++ List.replicate n (.ok none) := by
  intro c d after
  obtain ⟨⟨ops, hops, hdelivery⟩, hbag⟩ := runs_delivery
    (start_ends (.new responseId modelName createdAt maxBufferChunks maxBufferBytes timeout)) earlier
  have hconcluded : d.Concluded := by
    rw [show d = _ from hdelivery]
    refine Delivery.run_of (I := Delivery.Concluded) ?_ (fun _ _ hop h => Delivery.perform_concluded h hop) hops
    exact ⟨rfl, List.Pairwise.nil, fun _ hmem => absurd hmem List.not_mem_nil,
      fun _ hmem => absurd hmem List.not_mem_nil⟩
  -- what a schedule does from here, and after one more step
  obtain ⟨later', hlater⟩ : ∃ ops, (streamProgram.runs c later).state.delivery = d.run ops :=
    (runs_delivery hbag later).1.imp fun _ h => h.2
  have hafter : ∀ thread remaining {task op}, c.next? thread = some task → task.op remaining = some op →
      task ≠ .readEvent → ∃ ops, after thread remaining = (d.perform op).run ops := by
    intro thread remaining task op hnext hop hwait
    obtain ⟨ops, -, heq⟩ := (runs_delivery (runs_delivery hbag [.run thread remaining]).2 later).1
    exact ⟨ops, by rw [← step_perform hnext hop hwait]; exact heq⟩
  refine ⟨?_, fun hend => ?_, fun thread remaining error hnext hopen hcancelled => ?_,
    fun thread remaining result hnext hopen hcancelled => ?_, fun thread remaining hnext hopen _ => ?_,
    fun thread remaining hnext hend => ?_, fun event hmem hcompleted => ?_⟩
  · rw [hconcluded.fifo]
    exact List.prefix_append _ _
  · rw [hlater]
    exact ((d.run_later later').terminal hend).2.2.1
  · obtain ⟨ops, heq⟩ := hafter thread remaining hnext rfl (by simp)
    rw [heq]
    simpa using Delivery.reads_after_finish hopen hcancelled none (some error) ops
  · obtain ⟨ops, heq⟩ := hafter thread remaining hnext rfl (by simp)
    rw [heq]
    exact Delivery.reads_after_finish hopen hcancelled (some (.completed result)) none ops
  · obtain ⟨ops, heq⟩ := hafter thread remaining hnext rfl (by simp)
    rw [heq]
    exact Delivery.reads_after_cancel hopen ops
  · have hrun : c.state.run .cancel remaining = some { state := c.state.perform .cancel } := rfl
    rw [Threads.Program.step_run hnext hrun]
    have hsame : d.perform .cancel = d := by
      simp only [Delivery.perform, SynthesisHandle.after, SynthesisHandle.cancel, hend, true_or, if_true,
        SynthesisHandle.appends, SynthesisHandle.answers, List.append_nil]
    rw [perform, hsame]
  · rw [hlater]
    exact Delivery.reads_of_received hconcluded hmem hcompleted later'

/-- A cancel that comes between the look of `complete` at the flag and its end:
the Completed event is appended and never delivered. -/
theorem completed_undelivered :
    let result : RuntimeStreamResult := { totalSampleCount := 0, durationMs := 0, chunkCount := 0 }
    let c := streamProgram.runs (start (.new "ttsresp_test" "test-model" 0 1 8 1))
      [.call (.complete result Dict.empty), .run 0 0, .run 0 0, .call .cancel, .run 1 0]
    let d := (streamProgram.runs c [.run 0 0, .call .readEvent, .run 2 0]).state.delivery
    (∃ completed, c.next? 0 = some (.finish (some (.completed completed)) none) ∧
      c.state.handle.terminal = false ∧ d.appended = [.completed completed]) ∧
      d.reads = [.error (.synthesisCancelled "synthesis was cancelled")] :=
  ⟨⟨_, rfl, rfl, rfl⟩, rfl⟩

end StreamState
end TtsPool
