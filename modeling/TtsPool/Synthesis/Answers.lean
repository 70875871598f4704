/-
# From the exception to the answer

A run that nothing disturbs, no cancellation, no failure from elsewhere, no
message refused, is on its way to one answer from its start on, as long as the
worker can still be made to fail by the call in question (`Failing`).  Either
the worker gets past the call (`Past`), or its exception goes through the handle
to the handler, and every step only passes it on (`Turned`).

From there the threads can be got further only so often: each task has a
`weight`, and turns to less.  And when they can be got no further, the client has
its answer (`Failing.answered_of_rest`).
-/

import TtsPool.Synthesis.Failures
import Mathlib.Algebra.BigOperators.Group.Multiset.Basic

namespace TtsPool

open Threads (Effect Config Action)

/-- The tasks through which a worker's stream comes to its end. -/
def SynthesisTask.concludes (task : SynthesisTask) : Bool :=
  match task with
  | .release _ | .handle (.fail _) | .handle (.finish ..) => true
  | task => task.generates

/-- The handler, going through the events. -/
def SynthesisTask.loops : SynthesisTask → Bool
  | .readEvent | .send _ | .resume _ => true
  | _ => false

/-- A task of a synthesis that is going to fail, or may still be made to. -/
def SynthesisTask.Fails (s : SynthesisState) : SynthesisTask → Prop
  | .readEvent | .handle (.setCancelCallback _) | .handle (.runTerminalCallbacks _) => True
  | .send event | .resume event => event.isCompleted = false
  | .release (some (.error error)) | .handle (.fail error) | .handle (.finish none (some error)) => error.Internal
  | .handle .cancel => s.handle.terminal = true
  | .failRpc error | .classify error => error.Internal ∧ s.handle.terminal = true
  | .abort status detail code => .aborted status detail code = RpcOutcome.synthesisFailed
  | task => task.generates = true

/-- What a task may still cost. -/
def SynthesisTask.weight : SynthesisTask → ℕ
  | .send _ => 7
  | .resume _ => 6
  | .readEvent => 5
  | .failRpc _ | .release _ => 4
  | .handle (.fail _) => 3
  | .handle (.finish ..) | .classify _ => 2
  | .handle (.runTerminalCallbacks callbacks) => callbacks.length + 1
  | _ => 1

/-- Nothing comes in from outside but the executor's cancel callback: the client
does not cancel, no one else cancels or fails the handle, and every event makes
a message. -/
def Undisturbed : Action SynthesisTask SynthesisInput → Prop
  | .call task => ∃ callback, task = .handle (.setCancelCallback callback)
  | .run _ input => input.cancelled = false ∧ input.refused = none

namespace SynthesisState

open SynthesisTask

variable {backend : Backend} {s : SynthesisState} {task : SynthesisTask} {input : SynthesisInput} {e : Step}
  {bag others : Multiset SynthesisTask} {call : ModelCall} {error e₁ e₂ : LibraryError} {task' : SynthesisTask}

/-- A stream that is not cancelled and holds no Completed event; if it has ended,
it has failed. -/
structure Incomplete (s : SynthesisState) : Prop where
  uncancelled : s.handle.cancelled = false
  events : ∀ event ∈ s.handle.events, event.isCompleted = false
  failed : s.handle.terminal = true → ∃ error, s.handle.error = some error ∧ error.Internal

/-- A synthesis on its way to failing. -/
structure Failing (s : SynthesisState) (bag : Multiset SynthesisTask) : Prop where
  incomplete : s.Incomplete
  tasks : ∀ task ∈ bag, task.Fails s
  producer : bag.countP (·.produces = true) ≤ 1
  raised : s.modelRaised ≠ none → ∀ task ∈ bag, task.generates = false
  worker : s.handle.terminal = false → ∃ task ∈ bag, task.concludes = true
  answered : s.outcome = none ∨ s.outcome = some .synthesisFailed
  handler : s.outcome = none → ∃ task ∈ bag, task.handles = true

/-- The call has not raised, and will not be made again. -/
structure Past (call : ModelCall) (s : SynthesisState) (bag : Multiset SynthesisTask) : Prop where
  raised : s.modelRaised ≠ some call
  tasks : ∀ task ∈ bag, task.generates = false

/-- What there is still to do. -/
def weight (s : SynthesisState) (bag : Multiset SynthesisTask) : ℕ :=
  3 * s.handle.events.length + s.handle.terminalCallbacks.length + (bag.map SynthesisTask.weight).sum

theorem fails_mono {s' : SynthesisState} (hend : s.handle.terminal = true → s'.handle.terminal = true)
    (h : task.Fails s) : task.Fails s' := by
  unfold SynthesisTask.Fails at h ⊢
  split at h <;> simp_all

/-! ### From the raise to the answer -/

/-- What a step does that only passes the failure on. -/
structure Turned (s : SynthesisState) (task : SynthesisTask) (e : Step) : Prop where
  incomplete : e.state.Incomplete
  terminal : s.handle.terminal = true → e.state.handle.terminal = true
  raised : e.state.modelRaised = s.modelRaised
  tasks : ∀ t ∈ e.next, t.Fails e.state ∧ t.generates = false
  worker : e.state.handle.terminal = false → task.concludes = true → ∃ t ∈ e.next, t.concludes = true
  answered : e.state.outcome = s.outcome ∨ e.state.outcome = some .synthesisFailed
  handler : e.state.outcome = none → task.handles = true → ∃ t ∈ e.next, t.handles = true
  weight : e.state.weight ↑e.next < s.weight {task}

theorem weight_coe (s : SynthesisState) (next : List SynthesisTask) : s.weight ↑next =
    3 * s.handle.events.length + s.handle.terminalCallbacks.length + (next.map SynthesisTask.weight).sum := rfl

theorem weight_singleton (s : SynthesisState) (task : SynthesisTask) : s.weight {task} =
    3 * s.handle.events.length + s.handle.terminalCallbacks.length + task.weight := by
  simp [weight]

/-- One that leaves the handle alone. -/
theorem Turned.same {s' : SynthesisState} {next : List SynthesisTask} (h : s.Incomplete)
    (hs : s'.handle = s.handle ∧ s'.modelRaised = s.modelRaised ∧ s'.outcome = s.outcome)
    (htasks : ∀ t ∈ next, t.Fails s' ∧ t.generates = false)
    (hworker : s.handle.terminal = false → task.concludes = true → ∃ t ∈ next, t.concludes = true)
    (hhandler : task.handles = true → ∃ t ∈ next, t.handles = true)
    (hweight : (next.map SynthesisTask.weight).sum < task.weight) :
    Turned s task { state := s', next := next } where
  incomplete := ⟨hs.1 ▸ h.uncancelled, hs.1 ▸ h.events, hs.1 ▸ h.failed⟩
  terminal := hs.1 ▸ id
  raised := hs.2.1
  tasks := htasks
  worker := hs.1 ▸ hworker
  answered := .inl hs.2.2
  handler := fun _ => hhandler
  weight := by
    rw [weight_coe, weight_singleton, hs.1]
    exact Nat.add_lt_add_left hweight _

/-- One task after another. -/
theorem Turned.on {s' : SynthesisState} (h : s.Incomplete)
    (hs : s'.handle = s.handle ∧ s'.modelRaised = s.modelRaised ∧ s'.outcome = s.outcome)
    (htask : task'.Fails s' ∧ task'.generates = false) (hworker : task.concludes = true → task'.concludes = true)
    (hhandler : task.handles = true → task'.handles = true) (hweight : task'.weight < task.weight) :
    Turned s task { state := s', next := [task'] } :=
  .same h hs (List.forall_mem_singleton.mpr htask) (fun _ hc => ⟨task', List.mem_singleton_self _, hworker hc⟩)
    (fun hh => ⟨task', List.mem_singleton_self _, hhandler hh⟩) (by simpa using hweight)

theorem setCancelCallback_turned {s' : SynthesisState} (h : s.Incomplete) (callback : SchedulerJob)
    (hs : s'.handle = (s.handle.setCancelCallback callback).1 ∧ s'.modelRaised = s.modelRaised ∧
      s'.outcome = s.outcome) : Turned s (.handle (.setCancelCallback callback)) { state := s' } := by
  obtain ⟨hhandle, hraised, houtcome⟩ := hs
  rw [SynthesisHandle.setCancelCallback, if_neg (by simp [h.uncancelled])] at hhandle
  exact
    { incomplete := ⟨by rw [hhandle]; exact h.uncancelled, by rw [hhandle]; exact h.events,
        by rw [hhandle]; exact h.failed⟩
      terminal := by rw [hhandle]; exact id
      raised := hraised
      tasks := List.forall_mem_nil _
      worker := fun _ hconcludes => Bool.noConfusion hconcludes
      answered := .inl houtcome
      handler := fun _ hhandles => Bool.noConfusion hhandles
      weight := by
        rw [weight_coe, weight_singleton, hhandle]
        simp [SynthesisTask.weight] }

/-- The worker's exception becomes that of the handle. -/
theorem finish_turned {s' : SynthesisState} (h : s.Incomplete) {error : EngineError} (hinternal : error.Internal)
    (hs : s'.handle = (s.handle.finish none (some error)).1 ∧ s'.modelRaised = s.modelRaised ∧
      s'.outcome = s.outcome) :
    Turned s (.handle (.finish none (some error)))
      { state := s', next := [.handle (.runTerminalCallbacks (s.handle.finish none (some error)).2)] } := by
  obtain ⟨hhandle, hraised, houtcome⟩ := hs
  by_cases hend : s.handle.terminal = true
  · rw [SynthesisHandle.finish, if_pos hend] at hhandle ⊢
    refine .same h ⟨hhandle, hraised, houtcome⟩ (List.forall_mem_singleton.mpr ⟨trivial, rfl⟩)
      (fun hopen => ?_) (fun hhandles => Bool.noConfusion hhandles) (by simp [SynthesisTask.weight])
    rw [hend] at hopen
    cases hopen
  · rw [SynthesisHandle.finish, if_neg hend] at hhandle ⊢
    exact
      { incomplete := ⟨by rw [hhandle]; exact h.uncancelled,
          by rw [hhandle, Option.toList_none, List.append_nil]; exact h.events,
          by rw [hhandle]; exact fun _ => ⟨error, rfl, hinternal⟩⟩
        terminal := by rw [hhandle]; exact fun _ => rfl
        raised := hraised
        tasks := List.forall_mem_singleton.mpr ⟨trivial, rfl⟩
        worker := by rw [hhandle]; exact fun hopen => Bool.noConfusion hopen
        answered := .inl houtcome
        handler := fun _ hhandles => Bool.noConfusion hhandles
        weight := by
          rw [weight_coe, weight_singleton, hhandle, Option.toList_none, List.append_nil]
          simp [SynthesisTask.weight]
          omega }

/-- The RPC ends. -/
theorem abort_turned {s' : SynthesisState} {status : StatusCode} {detail code : String} (h : s.Incomplete)
    (hs : s'.handle = s.handle ∧ s'.modelRaised = s.modelRaised ∧ s'.outcome = some .synthesisFailed) :
    Turned s (.abort status detail code) { state := s' } where
  incomplete := ⟨hs.1 ▸ h.uncancelled, hs.1 ▸ h.events, hs.1 ▸ h.failed⟩
  terminal := hs.1 ▸ id
  raised := hs.2.1
  tasks := List.forall_mem_nil _
  worker := fun _ hconcludes => Bool.noConfusion hconcludes
  answered := .inr hs.2.2
  handler := fun houtcome => by
    rw [hs.2.2] at houtcome
    cases houtcome
  weight := by
    rw [weight_coe, weight_singleton, hs.1]
    exact Nat.lt_succ_self _

/-- The handler reads an event that is not the last. -/
theorem popped_turned (h : s.Incomplete) {event : StreamEvent} {events : List StreamEvent}
    (hevents : s.handle.events = event :: events)
    (hhandle : (s.perform .read).handle = s.handle.popped event events) :
    Turned s .readEvent { state := s.perform .read, next := [.send event] } := by
  have hfields : (s.handle.popped event events).cancelled = s.handle.cancelled ∧
      (s.handle.popped event events).terminal = s.handle.terminal ∧
      (s.handle.popped event events).error = s.handle.error ∧
      (s.handle.popped event events).terminalCallbacks = s.handle.terminalCallbacks := by
    cases event <;> exact ⟨rfl, rfl, rfl, rfl⟩
  obtain ⟨hcancelled, hend, herror, hcallbacks⟩ := hfields
  exact
    { incomplete :=
        { uncancelled := by rw [hhandle, hcancelled, h.uncancelled]
          events := fun event' hmem => by
            rw [hhandle, SynthesisHandle.popped_events] at hmem
            exact h.events event' (hevents ▸ List.mem_cons_of_mem _ hmem)
          failed := by
            rw [hhandle, hend, herror]
            exact h.failed }
      terminal := by rw [hhandle, hend]; exact id
      raised := rfl
      tasks := List.forall_mem_singleton.mpr ⟨h.events event (hevents ▸ List.mem_cons_self ..), rfl⟩
      worker := fun _ hconcludes => Bool.noConfusion hconcludes
      answered := .inl rfl
      handler := fun _ _ => ⟨.send event, List.mem_singleton_self _, rfl⟩
      weight := by
        rw [weight_coe, weight_singleton, hhandle, SynthesisHandle.popped_events, hcallbacks, hevents]
        simp [SynthesisTask.weight]
        omega }

/-- Or it meets the exception. -/
theorem readEvent_turned (h : s.Incomplete) (hcancelled : input.cancelled = false)
    (hrun : s.readEvent input = some e) : Turned s .readEvent e := by
  unfold SynthesisState.readEvent at hrun
  rw [if_neg (by simp [hcancelled])] at hrun
  split_ifs at hrun with hreadable
  cases hrun
  have hhandle : (s.perform .read).handle = s.handle.popEvent.1 := if_pos hreadable
  rcases s.handle.popEvent_cases with ⟨hstop, -⟩ | ⟨-, hempty, hpop⟩ | ⟨event, events, -, hevents, hpop⟩
  · rw [h.uncancelled] at hstop
    cases hstop
  · have hend : s.handle.terminal = true := by
      rcases hreadable with hmore | hend | hstop
      · simp [hempty] at hmore
      · exact hend
      · simp [h.uncancelled] at hstop
    obtain ⟨error, herror, hinternal⟩ := h.failed hend
    rw [hpop] at hhandle ⊢
    simp only [SynthesisHandle.final, herror]
    refine .on h ⟨hhandle, rfl, rfl⟩ ⟨⟨EngineError.internal_throughCoroutine.mpr hinternal, ?_⟩, rfl⟩
      (fun hconcludes => Bool.noConfusion hconcludes) (fun _ => rfl) (show 4 < 5 by decide)
    rw [hhandle]
    exact hend
  · rw [hpop] at hhandle ⊢
    cases event with
    | started event => exact popped_turned h hevents hhandle
    | audio event => exact popped_turned h hevents hhandle
    | completed event => cases h.events _ (hevents ▸ List.mem_cons_self ..)

/-- **A step on the way from the exception to the answer** only passes it on. -/
theorem run_turned (h : s.Incomplete) (htask : task.Fails s) (hgenerates : task.generates = false)
    (hcancelled : input.cancelled = false) (hrefused : input.refused = none)
    (hrun : run backend s task input = some e) : Turned s task e := by
  cases task with
  | release outcome =>
    cases hrun
    rcases outcome with _ | error | result
    · cases htask
    · exact .on h ⟨rfl, rfl, rfl⟩ ⟨htask, rfl⟩ (fun _ => rfl) (fun hhandles => Bool.noConfusion hhandles)
        (show 3 < 4 by decide)
    · cases htask
  | readEvent => exact readEvent_turned h hcancelled hrun
  | send event =>
    simp only [run, hrefused] at hrun
    cases hrun
    exact .on h ⟨rfl, rfl, rfl⟩ ⟨htask, rfl⟩ (fun hconcludes => Bool.noConfusion hconcludes) (fun _ => rfl)
      (show 6 < 7 by decide)
  | resume event =>
    simp only [run, SynthesisState.resume, hcancelled] at hrun
    cases hrun
    cases event with
    | started event =>
      exact .on h ⟨rfl, rfl, rfl⟩ ⟨trivial, rfl⟩ (fun hconcludes => Bool.noConfusion hconcludes) (fun _ => rfl)
        (show 5 < 6 by decide)
    | audio event =>
      exact .on h ⟨rfl, rfl, rfl⟩ ⟨trivial, rfl⟩ (fun hconcludes => Bool.noConfusion hconcludes) (fun _ => rfl)
        (show 5 < 6 by decide)
    | completed event => cases htask
  | failRpc error =>
    cases hrun
    refine .same h ⟨rfl, rfl, rfl⟩ ?_ (fun _ hconcludes => Bool.noConfusion hconcludes)
      (fun _ => ⟨.classify error, by simp, rfl⟩) (show 1 + (2 + 0) < 4 by decide)
    exact List.forall_mem_cons.mpr ⟨⟨htask.2, rfl⟩, List.forall_mem_singleton.mpr ⟨htask, rfl⟩⟩
  | classify error =>
    cases hrun
    obtain ⟨text, htext⟩ := htask.1.2.str
    obtain ⟨hstatus, hcancel⟩ := htask.1.status
    simp only [classify_eq htext, hstatus, hcancel]
    exact .on h ⟨rfl, rfl, rfl⟩ ⟨rfl, rfl⟩ (fun hconcludes => Bool.noConfusion hconcludes) (fun _ => rfl)
      (show 1 < 2 by decide)
  | abort status detail code =>
    simp only [run, hcancelled] at hrun
    cases hrun
    exact abort_turned h ⟨rfl, rfl, congrArg some htask⟩
  | handle task =>
    cases task with
    | setCancelCallback callback => cases hrun; exact setCancelCallback_turned h callback ⟨rfl, rfl, rfl⟩
    | cancel =>
      cases hrun
      exact .same h ⟨congrArg Prod.fst (if_pos (.inl htask)), rfl, rfl⟩ (List.forall_mem_nil _)
        (fun _ hconcludes => Bool.noConfusion hconcludes) (fun hhandles => Bool.noConfusion hhandles)
        (show 0 < 1 by decide)
    | fail error =>
      cases hrun
      exact .on h ⟨rfl, rfl, rfl⟩ ⟨htask, rfl⟩ (fun _ => rfl) (fun hhandles => Bool.noConfusion hhandles)
        (show 2 < 3 by decide)
    | finish event error =>
      cases hrun
      cases event with
      | some event => cases htask
      | none =>
        cases error with
        | none => cases htask
        | some error => exact finish_turned h htask ⟨rfl, rfl, rfl⟩
    | runTerminalCallbacks callbacks =>
      cases callbacks with
      | nil =>
        cases hrun
        exact .same h ⟨rfl, rfl, rfl⟩ (List.forall_mem_nil _) (fun _ hconcludes => Bool.noConfusion hconcludes)
          (fun hhandles => Bool.noConfusion hhandles) (show 0 < 1 by decide)
      | cons callback callbacks =>
        cases hrun
        exact .on h ⟨rfl, rfl, rfl⟩ ⟨trivial, rfl⟩ (fun hconcludes => Bool.noConfusion hconcludes)
          (fun hhandles => Bool.noConfusion hhandles) (Nat.lt_succ_self _)
    | _ => cases htask
  | _ => exact absurd (hgenerates.symm.trans htask) Bool.false_ne_true

/-! ### The whole way -/

/-- A worker that may call the model appends no Completed event. -/
theorem Incomplete.generated (h : s.Incomplete) (hst : Stepped s task input e) (hgenerates : task.generates = true) :
    e.state.Incomplete ∧ e.state.handle.terminal = s.handle.terminal := by
  have hhandle : e.state.handle = (task.streamOp s input).elim s.handle s.handle.after := by
    show e.state.delivery.handle = _
    rw [hst.delivery]
    cases task.streamOp s input <;> rfl
  suffices hkeeps : e.state.handle.cancelled = s.handle.cancelled ∧ e.state.handle.terminal = s.handle.terminal ∧
      e.state.handle.error = s.handle.error ∧ ∀ event ∈ e.state.handle.events, event.isCompleted = false by
    obtain ⟨hcancelled, hend, herror, hevents⟩ := hkeeps
    exact ⟨⟨hcancelled.trans h.uncancelled, hevents, by rw [hend, herror]; exact h.failed⟩, hend⟩
  rw [hhandle]
  cases task with
  | runJob queueWaitMs => exact ⟨rfl, rfl, rfl, h.events⟩
  | startedSink sampleRateHz =>
    rcases s.handle.emitStarted_cases sampleRateHz 1 with ⟨-, -, heq⟩ | ⟨error, -, heq⟩
    · simp only [streamOp, Option.elim_some, SynthesisHandle.after, heq, true_and]
      exact List.forall_mem_append.mpr ⟨h.events, List.forall_mem_singleton.mpr rfl⟩
    · simp only [streamOp, Option.elim_some, SynthesisHandle.after, heq, true_and]
      exact h.events
  | chunkSink sampleRateHz chunkCount totalSampleCount samples chunks =>
    rcases s.handle.emitAudio_cases ⟨chunkCount, totalSampleCount, pcmBytes samples⟩ input.remaining with
      ⟨-, -, -, heq⟩ | ⟨-, heq⟩ | ⟨error, heq⟩
    · simp only [streamOp, Option.elim_some, SynthesisHandle.after, heq, SynthesisHandle.appendAudio, true_and]
      exact List.forall_mem_append.mpr ⟨h.events, List.forall_mem_singleton.mpr rfl⟩
    · simp only [streamOp, Option.elim_some, SynthesisHandle.after, heq, true_and]
      exact h.events
    · simp only [streamOp, Option.elim_some, SynthesisHandle.after, heq, true_and]
      exact h.events
  | _ => first | exact ⟨rfl, rfl, rfl, h.events⟩ | cases hgenerates

theorem generates_cases (h : task.generates = true) :
    task.produces = true ∧ task.handles = false ∧ task.concludes = true ∧ task.Fails s := by
  cases task <;> first | exact ⟨rfl, rfl, rfl, h⟩ | cases h

/-- The worker goes on, fails, or is past the call. -/
theorem Failing.generated (h : Failing s (task ::ₘ bag)) (hst : Stepped s task input e)
    (hgenerates : task.generates = true) (honward : Onward call e) :
    Failing e.state (e.left + bag) ∨ Past call e.state (e.left + bag) := by
  obtain ⟨task', hnext, hcases⟩ := honward
  obtain ⟨hproduces, hhandles, -, -⟩ := generates_cases (s := s) hgenerates
  obtain ⟨hincomplete, hend⟩ := h.incomplete.generated hst hgenerates
  have hleft : e.left + bag = task' ::ₘ bag := by
    rw [Effect.left_of_next hst.spawned, hnext, Multiset.coe_singleton, Multiset.singleton_add]
  have hothers : ∀ t ∈ bag, t.generates = false := by
    intro t hmem
    have hidle := others_of_countP h.producer hproduces t hmem
    by_contra hmore
    rw [(generates_cases (s := s) (Bool.eq_true_of_not_eq_false hmore)).1] at hidle
    cases hidle
  have htasks : ∀ t ∈ bag, t.Fails e.state := fun t hmem =>
    fails_mono hend.trans (h.tasks t (Multiset.mem_cons_of_mem hmem))
  have hfailing : task'.Fails e.state → task'.concludes = true →
      (e.state.modelRaised ≠ none → task'.generates = false) → Failing e.state (task' ::ₘ bag) := by
    intro htask hconcludes hraised
    exact
      { incomplete := hincomplete
        tasks := Multiset.forall_mem_cons.mpr ⟨htask, htasks⟩
        producer := hleft ▸ (countP_step hst hst.produced).trans h.producer
        raised := fun hraise => Multiset.forall_mem_cons.mpr ⟨hraised hraise, hothers⟩
        worker := fun _ => ⟨task', Multiset.mem_cons_self .., hconcludes⟩
        answered := by rw [(hst.quiet hhandles).2]; exact h.answered
        handler := fun houtcome => by
          rw [(hst.quiet hhandles).2] at houtcome
          obtain ⟨t, hmem, ht⟩ := h.handler houtcome
          rcases Multiset.mem_cons.mp hmem with rfl | hmem
          · rw [hhandles] at ht
            cases ht
          · exact ⟨t, Multiset.mem_cons_of_mem hmem, ht⟩ }
  rw [hleft]
  rcases hcases with ⟨hgenerates', hraised⟩ | ⟨error, rfl, hinternal⟩ | ⟨hpast, hraised⟩
  · obtain ⟨-, -, hconcludes, hfails⟩ := generates_cases (s := e.state) hgenerates'
    exact .inl (hfailing hfails hconcludes fun hraise => absurd hraised hraise)
  · exact .inl (hfailing hinternal rfl fun _ => rfl)
  · exact .inr ⟨hraised, Multiset.forall_mem_cons.mpr ⟨hpast, hothers⟩⟩

/-- The failure is passed on, and less is left to do. -/
theorem Failing.turned (h : Failing s (task ::ₘ bag)) (hst : Stepped s task input e) (hturned : Turned s task e) :
    Failing e.state (e.left + bag) ∧ e.state.weight (e.left + bag) < s.weight (task ::ₘ bag) := by
  have hleft : e.left + bag = ↑e.next + bag := by rw [Effect.left_of_next hst.spawned]
  have hproducer : (e.left + bag).countP (·.produces = true) ≤ 1 :=
    (countP_step hst hst.produced).trans h.producer
  rw [hleft] at hproducer ⊢
  have hmem : ∀ {Q : SynthesisTask → Prop}, (∀ t ∈ e.next, Q t) → (∀ t ∈ bag, Q t) →
      ∀ t ∈ (↑e.next : Multiset SynthesisTask) + bag, Q t := by
    intro Q hnext hbag t ht
    rcases Multiset.mem_add.mp ht with ht | ht
    · exact hnext t ht
    · exact hbag t ht
  have hexists : ∀ {f : SynthesisTask → Bool}, (∃ t ∈ task ::ₘ bag, f t = true) →
      (f task = true → ∃ t ∈ e.next, f t = true) → ∃ t ∈ (↑e.next : Multiset SynthesisTask) + bag, f t = true := by
    rintro f ⟨t, ht, hf⟩ hnext
    rcases Multiset.mem_cons.mp ht with rfl | ht
    · obtain ⟨t', ht', hf'⟩ := hnext hf
      exact ⟨t', Multiset.mem_add.mpr (.inl ht'), hf'⟩
    · exact ⟨t, Multiset.mem_add.mpr (.inr ht), hf⟩
  refine ⟨⟨hturned.incomplete, ?_, hproducer, ?_, fun hopen => ?_, ?_, fun houtcome => ?_⟩, ?_⟩
  · refine hmem (fun t ht => (hturned.tasks t ht).1) fun t ht => ?_
    exact fails_mono hturned.terminal (h.tasks t (Multiset.mem_cons_of_mem ht))
  · intro hraise
    rw [hturned.raised] at hraise
    exact hmem (fun t ht => (hturned.tasks t ht).2) fun t ht => h.raised hraise t (Multiset.mem_cons_of_mem ht)
  · have hopen' : s.handle.terminal = false := by
      by_contra hend
      rw [hturned.terminal (Bool.eq_true_of_not_eq_false hend)] at hopen
      cases hopen
    exact hexists (h.worker hopen') (hturned.worker hopen)
  · rcases hturned.answered with heq | heq
    · rw [heq]
      exact h.answered
    · exact .inr heq
  · have houtcome' : s.outcome = none := by
      rcases hturned.answered with heq | heq
      · exact heq ▸ houtcome
      · rw [heq] at houtcome
        cases houtcome
    exact hexists (h.handler houtcome') (hturned.handler houtcome)
  · have hless := hturned.weight
    rw [weight_coe, weight_singleton] at hless
    simp only [weight, Multiset.map_add, Multiset.sum_add, Multiset.map_cons, Multiset.sum_cons, Multiset.map_coe,
      Multiset.sum_coe]
    omega

/-- A worker past its calls of the model makes none. -/
theorem not_generates_of_run (hgenerates : task.generates = false) (hrun : run backend s task input = some e) :
    e.state.modelRaised = s.modelRaised ∧ ∀ t ∈ e.next, t.generates = false := by
  cases task with
  | handle task =>
    obtain ⟨e', -, rfl⟩ := Option.map_eq_some_iff.mp hrun
    exact ⟨rfl, List.forall_mem_map.mpr fun _ _ => rfl⟩
  | release outcome =>
    cases hrun
    rcases outcome with _ | error | result
    · exact ⟨rfl, List.forall_mem_nil _⟩
    · exact ⟨rfl, List.forall_mem_singleton.mpr rfl⟩
    · exact ⟨rfl, List.forall_mem_singleton.mpr rfl⟩
  | emitResult result =>
    cases hrun
    simp only [SynthesisState.emitResult]
    split
    · exact ⟨rfl, List.forall_mem_singleton.mpr rfl⟩
    · exact ⟨rfl, forall_emitStarted (fun _ => rfl) rfl⟩
  | readFrames emission sequenceNumber firstSample frames =>
    cases hrun
    refine ⟨rfl, ?_⟩
    simp only [SynthesisState.readFrames]
    split_ifs <;> exact List.forall_mem_singleton.mpr rfl
  | emitFrames emission sequenceNumber firstSample pcm frames =>
    cases hrun
    exact ⟨rfl, forall_emitAudio (fun _ => rfl) rfl rfl⟩
  | readEvent =>
    simp only [run, SynthesisState.readEvent] at hrun
    split_ifs at hrun
    · cases hrun
      exact ⟨rfl, List.forall_mem_singleton.mpr rfl⟩
    · cases hrun
      refine ⟨rfl, ?_⟩
      simp only
      split <;> exact List.forall_mem_singleton.mpr rfl
  | send event =>
    simp only [SynthesisState.run, SynthesisState.send] at hrun
    split at hrun <;> cases hrun <;> exact ⟨rfl, List.forall_mem_singleton.mpr rfl⟩
  | resume event =>
    cases hrun
    refine ⟨?_, forall_resume rfl⟩
    simp only [SynthesisState.resume]
    split_ifs
    · rfl
    · cases event <;> rfl
  | returnEmpty => cases hrun; exact ⟨rfl, List.forall_mem_nil _⟩
  | clientCancelled => cases hrun; exact ⟨rfl, by simp [SynthesisState.clientCancelled, generates]⟩
  | raiseCancelled => cases hrun; exact ⟨rfl, List.forall_mem_nil _⟩
  | failRpc error => cases hrun; exact ⟨rfl, by simp [generates]⟩
  | classify error =>
    cases hrun
    obtain ⟨counters, logs, outcome, hstate, -⟩ := s.classify_state error
    exact ⟨by rw [hstate], forall_classify rfl fun _ _ => rfl⟩
  | abort status detail code => cases hrun; exact ⟨rfl, List.forall_mem_nil _⟩
  | _ => cases hgenerates

theorem Past.run (h : Past call s (task ::ₘ bag)) (hrun : SynthesisState.run backend s task input = some e) :
    Past call e.state (e.left + bag) := by
  obtain ⟨htask, hothers⟩ := Multiset.forall_mem_cons.mp h.tasks
  obtain ⟨hraised, hnext⟩ := not_generates_of_run htask hrun
  refine ⟨hraised ▸ h.raised, fun t hmem => ?_⟩
  rw [Effect.left_of_next (stepped_of_run hrun).spawned] at hmem
  rcases Multiset.mem_add.mp hmem with hmem | hmem
  · exact hnext t hmem
  · exact hothers t hmem

/-- **A step of a run that nothing disturbs.** -/
theorem Failing.run (h : Failing s (task ::ₘ bag)) (hconceals : call.Conceals error)
    (hcancelled : input.cancelled = false) (hrefused : input.refused = none)
    (hrun : SynthesisState.run (backend.raising call error) s task input = some e) :
    Failing e.state (e.left + bag) ∨ Past call e.state (e.left + bag) := by
  have hst := stepped_of_run hrun
  have htask := h.tasks task (Multiset.mem_cons_self ..)
  cases hgenerates : task.generates with
  | true =>
    have hraised : s.modelRaised = none := by
      by_contra hraise
      rw [h.raised hraise task (Multiset.mem_cons_self ..)] at hgenerates
      cases hgenerates
    exact h.generated hst hgenerates (run_onward hconceals hrun hgenerates h.incomplete.uncancelled hraised)
  | false =>
    exact .inl (h.turned hst (run_turned h.incomplete htask hgenerates hcancelled hrefused hrun)).1

theorem start_failing (spec : HandleSpec) (createdAt queueWaitMs receivedAt : ℚ) :
    Failing (start (spec.handle createdAt) queueWaitMs receivedAt).state
      (start (spec.handle createdAt) queueWaitMs receivedAt).bag where
  incomplete := ⟨rfl, List.forall_mem_nil _, fun hend => Bool.noConfusion hend⟩
  tasks := by
    show ∀ task ∈ ({SynthesisTask.runJob queueWaitMs, .readEvent} : Multiset SynthesisTask), _
    simp [Fails, generates]
  producer := le_rfl
  raised := fun hraise => absurd rfl hraise
  worker := fun _ => ⟨.runJob queueWaitMs, List.mem_cons_self .., rfl⟩
  answered := .inl rfl
  handler := fun _ => ⟨.readEvent, List.mem_cons_of_mem _ (List.mem_cons_self ..), rfl⟩

theorem Failing.entry (h : Failing s bag) (callback : SchedulerJob) :
    Failing s (.handle (.setCancelCallback callback) ::ₘ bag) where
  incomplete := h.incomplete
  tasks := Multiset.forall_mem_cons.mpr ⟨trivial, h.tasks⟩
  producer := by
    rw [Multiset.countP_cons_of_neg _ (by simp [produces])]
    exact h.producer
  raised := fun hraise => Multiset.forall_mem_cons.mpr ⟨rfl, h.raised hraise⟩
  worker := fun hopen => by
    obtain ⟨t, hmem, ht⟩ := h.worker hopen
    exact ⟨t, Multiset.mem_cons_of_mem hmem, ht⟩
  answered := h.answered
  handler := fun houtcome => by
    obtain ⟨t, hmem, ht⟩ := h.handler houtcome
    exact ⟨t, Multiset.mem_cons_of_mem hmem, ht⟩

/-- **A run that nothing disturbs** is on its way to failing, or past the call. -/
theorem runs_failing (hconceals : call.Conceals error) (backend : Backend) (spec : HandleSpec)
    (createdAt queueWaitMs receivedAt : ℚ) {actions : List (Action SynthesisTask SynthesisInput)}
    (hundisturbed : ∀ a ∈ actions, Undisturbed a) :
    let c := (synthesisProgram (backend.raising call error)).runs
      (start (spec.handle createdAt) queueWaitMs receivedAt) actions
    Failing c.state c.bag ∨ Past call c.state c.bag := by
  refine Threads.Program.runs_of_forall (p := synthesisProgram (backend.raising call error))
    (I := fun s bag => Failing s bag ∨ Past call s bag)
    (.inl (start_failing spec createdAt queueWaitMs receivedAt)) ?_ ?_ hundisturbed
  · rintro s bag task ⟨callback, rfl⟩ - (h | h)
    · exact .inl (h.entry callback)
    · exact .inr ⟨h.raised, Multiset.forall_mem_cons.mpr ⟨rfl, h.tasks⟩⟩
  · rintro s bag task thread input e ⟨hcancelled, hrefused⟩ hrun (h | h)
    · exact h.run hconceals hcancelled hrefused hrun
    · exact .inr (h.run hrun)

/-- The handler turns to its loop from its loop alone. -/
theorem loops_next (hhandles : task.handles = true) (hrun : run backend s task input = some e) :
    ∀ t ∈ e.next, t.loops = true → task.loops = true ∧ e.next = [t] := by
  cases task with
  | readEvent =>
    simp only [run, SynthesisState.readEvent] at hrun
    split_ifs at hrun <;> cases hrun
    · exact List.forall_mem_singleton.mpr fun _ => ⟨rfl, rfl⟩
    · simp only
      split <;> exact List.forall_mem_singleton.mpr fun _ => ⟨rfl, rfl⟩
  | send event =>
    simp only [SynthesisState.run, SynthesisState.send] at hrun
    split at hrun <;> cases hrun <;> exact List.forall_mem_singleton.mpr fun _ => ⟨rfl, rfl⟩
  | resume event =>
    cases hrun
    simp only [SynthesisState.resume]
    split_ifs
    · exact List.forall_mem_nil _
    · cases event
      · exact List.forall_mem_singleton.mpr fun _ => ⟨rfl, rfl⟩
      · exact List.forall_mem_singleton.mpr fun _ => ⟨rfl, rfl⟩
      · exact List.forall_mem_nil _
  | clientCancelled => cases hrun; simp [SynthesisState.clientCancelled, SynthesisTask.loops]
  | failRpc error => cases hrun; simp [SynthesisTask.loops]
  | classify error =>
    cases hrun
    exact forall_classify (fun hloops => Bool.noConfusion hloops) fun _ _ hloops => Bool.noConfusion hloops
  | returnEmpty | raiseCancelled | abort => cases hrun; exact List.forall_mem_nil _
  | _ => cases hhandles

/-- The loop has its thread to itself. -/
theorem loops_alone (backend : Backend) (spec : HandleSpec) (createdAt queueWaitMs receivedAt : ℚ)
    (actions : List (Action SynthesisTask SynthesisInput)) :
    ∀ tasks ∈ ((synthesisProgram backend).runs (start (spec.handle createdAt) queueWaitMs receivedAt) actions).threads,
      ∀ task ∈ tasks, task.loops = true → tasks = [task] := by
  refine Threads.Program.runs_alone (p := synthesisProgram backend) ?_ (fun s task input e hrun => ?_) actions
  · simp [start, SynthesisTask.loops]
  · have hst := stepped_of_run hrun
    rw [hst.spawned]
    refine ⟨?_, List.forall_mem_nil _⟩
    cases hhandles : task.handles with
    | true => exact loops_next hhandles hrun
    | false =>
      -- no other thread turns to the handler's tasks
      have hnone := hst.handled
      rw [hhandles] at hnone
      intro t hmem hloops
      refine absurd ?_ (List.countP_eq_zero.mp (Nat.le_zero.mp hnone) t hmem)
      cases t <;> first | rfl | cases hloops

/-! ### At rest -/

/-- A task on the way to the answer that waits is the handler's, which waits for
the worker. -/
theorem waits_of_fails (hraised : task.Fails s) (hgenerates : task.generates = false)
    (hrun : run backend s task {} = none) : task = .readEvent ∧ s.handle.terminal = false := by
  cases task with
  | readEvent =>
    refine ⟨rfl, ?_⟩
    by_contra hend
    have hreadable : s.handle.Readable := .inr (.inl (Bool.eq_true_of_not_eq_false hend))
    simp [run, SynthesisState.readEvent, hreadable] at hrun
  | handle task =>
    cases task with
    | readEvent => exact absurd (hgenerates.symm.trans hraised) Bool.false_ne_true
    | runTerminalCallbacks callbacks => cases callbacks <;> cases hrun
    | _ => cases hrun
  | encodeLatents | generate | nextChunk => cases hgenerates
  | _ => cases hrun

/-- **At rest its client has the answer.**  As long as it has none, the handler
waits, and then a worker does, which never does. -/
theorem Failing.answered_of_rest {c : Config SynthesisState SynthesisTask} (h : Failing c.state c.bag)
    (hraised : c.state.modelRaised ≠ none)
    (halone : ∀ tasks ∈ c.threads, ∀ task ∈ tasks, task.loops = true → tasks = [task])
    (hrest : (synthesisProgram backend).AtRest Undisturbed c) : c.state.outcome = some .synthesisFailed := by
  have hwaits : ∀ task ∈ c.bag, task = .readEvent ∧ c.state.handle.terminal = false := by
    intro task hmem
    obtain ⟨tasks, htasks, hin⟩ := List.mem_flatten.mp (Multiset.mem_coe.mp hmem)
    obtain ⟨thread, hlt, hget⟩ := List.mem_iff_getElem.mp htasks
    cases tasks with
    | nil => cases hin
    | cons first rest =>
      have hnext : c.next? thread = some first := by
        rw [Config.next?, List.getElem?_eq_getElem hlt, hget]
        rfl
      have hfirst := Threads.mem_bag_of_next? hnext
      obtain ⟨rfl, hopen⟩ := waits_of_fails (h.tasks first hfirst) (h.raised hraised first hfirst)
        (hrest thread {} first ⟨rfl, rfl⟩ hnext)
      obtain ⟨-, rfl⟩ := List.cons.inj (halone _ htasks .readEvent (List.mem_cons_self ..) rfl)
      exact ⟨List.mem_singleton.mp hin, hopen⟩
  rcases h.answered with houtcome | houtcome
  · obtain ⟨task, hmem, -⟩ := h.handler houtcome
    obtain ⟨worker, hworker, hconcludes⟩ := h.worker (hwaits task hmem).2
    rw [(hwaits worker hworker).1] at hconcludes
    cases hconcludes
  · exact houtcome

end SynthesisState
end TtsPool
