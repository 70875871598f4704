/-
# The terminal callbacks

Any number of threads register terminal callbacks on one `SynthesisHandle`,
complete, fail and cancel it, in any order of their sections under its lock,
with sections of its other methods in between.  What was registered before the
handle ended is handed to the call that ended it; what is registered later is
called by the call that registers it.

A callback is code of its own and may raise.  The finishing call catches an
`Exception` and goes on to the next callback; anything else that is raised breaks
it off.  The call of a late registration catches nothing.

The callbacks are accounted for by one equation: those that the calls of
`add_terminal_callback` brought in are those called, those that wait in the
handle, those that tasks still hold, and those skipped by a call broken off
(`runs_account`).
-/

import TtsPool.Stream.Delivery
import TtsPool.Support.Threads
import Mathlib.Algebra.BigOperators.Group.Multiset.Basic

namespace TtsPool

open Threads (Effect Config Action)

/-- How a callback ends. -/
inductive CallbackEnding where
  | returned
  /-- An `Exception`. -/
  | raised
  /-- A `BaseException` that is no `Exception`. -/
  | brokeOff
deriving DecidableEq

/-- The operation belongs to none of the four methods that register, finish and
cancel. -/
def StreamOp.aside : StreamOp → Bool
  | .addTerminalCallback _ | .cancel | .finish .. => false
  | _ => true

/-- A handle, the callbacks called, how it was finished, the callbacks skipped by
finishing calls that were broken off, and how many were. -/
structure CallbackState where
  handle : SynthesisHandle
  called : List TerminalCallback := []
  finished : List (Option StreamEvent × Option EngineError) := []
  skipped : List TerminalCallback := []
  brokenOff : ℕ := 0

/-- One task of a thread. -/
inductive CallbackTask where
  | addTerminalCallback (callback : TerminalCallback)
  /-- The call of a late registration. -/
  | callBack (callback : TerminalCallback)
  | cancel
  /-- The look at the flag. -/
  | complete (result : RuntimeStreamResult) (metrics : Dict String (Option ℚ))
  /-- The look at the maxima. -/
  | combineMetrics (result : RuntimeStreamResult) (metrics : Dict String (Option ℚ))
  | fail (error : EngineError)
  | finish (event : Option StreamEvent) (error : Option EngineError)
  | runTerminalCallbacks (callbacks : List TerminalCallback)
  /-- A section of another method. -/
  | other (op : StreamOp)

namespace CallbackTask

/-- The methods. -/
def entry : CallbackTask → Bool
  | .addTerminalCallback _ | .cancel | .complete .. | .fail _ => true
  | .other op => op.aside
  | _ => false

/-- The task is on the way to the end of the handle. -/
def finishes : CallbackTask → Bool
  | .complete .. | .combineMetrics .. | .fail _ | .finish .. => true
  | _ => false

/-- The task calls callbacks. -/
def calls : CallbackTask → Bool
  | .callBack _ | .runTerminalCallbacks _ => true
  | _ => false

/-- The callbacks a task has still to register or to call. -/
def held : CallbackTask → Multiset TerminalCallback
  | .addTerminalCallback callback | .callBack callback => {callback}
  | .runTerminalCallbacks callbacks => callbacks
  | _ => 0

end CallbackTask

namespace CallbackState

abbrev Step := Effect CallbackState CallbackTask

/-- A handle nobody has used. -/
def start (handle : SynthesisHandle) : Config CallbackState CallbackTask where
  state := { handle := handle }

/-- `add_terminal_callback`, up to its call of the callback. -/
def addTerminalCallback (s : CallbackState) (callback : TerminalCallback) : Step where
  state := { s with handle := (s.handle.addTerminalCallback callback).1 }
  next := if (s.handle.addTerminalCallback callback).2 then [.callBack callback] else []

/-- `complete`: a cancelled handle fails instead. -/
def complete (s : CallbackState) (result : RuntimeStreamResult) (metrics : Dict String (Option ℚ)) : Step where
  state := s
  next :=
    if s.handle.cancelled then [.fail (.synthesisCancelled "synthesis was cancelled before completion")]
    else [.combineMetrics result metrics]

/-- `_finish`, entered where it ends the handle. -/
def finish (s : CallbackState) (event : Option StreamEvent) (error : Option EngineError) : Step where
  state :=
    { s with
      handle := (s.handle.finish event error).1
      finished := if s.handle.terminal then s.finished else s.finished ++ [(event, error)] }
  next := [.runTerminalCallbacks (s.handle.finish event error).2]

/-- One round of `_run_terminal_callbacks`. -/
def runTerminalCallback (s : CallbackState) (callback : TerminalCallback) (callbacks : List TerminalCallback)
    (ending : CallbackEnding) : Step :=
  let s := { s with called := s.called ++ [callback] }
  match ending with
  | .brokeOff => { state := { s with skipped := s.skipped ++ callbacks, brokenOff := s.brokenOff + 1 } }
  | _ => { state := s, next := [.runTerminalCallbacks callbacks] }

/-- One task, with how the callback ends that it calls. -/
def run (s : CallbackState) (task : CallbackTask) (ending : CallbackEnding) : Option Step :=
  match task with
  | .addTerminalCallback callback => some (s.addTerminalCallback callback)
  | .callBack callback => some { state := { s with called := s.called ++ [callback] } }
  | .cancel => some { state := { s with handle := s.handle.cancel.1 } }
  | .complete result metrics => some (s.complete result metrics)
  | .combineMetrics result metrics =>
    some { state := s, next := [.finish (some (s.handle.completedEvent result metrics)) none] }
  | .fail error => some { state := s, next := [.finish none (some error)] }
  | .finish event error => some (s.finish event error)
  | .runTerminalCallbacks [] => some { state := s }
  | .runTerminalCallbacks (callback :: callbacks) => some (s.runTerminalCallback callback callbacks ending)
  | .other op => if op.aside then some { state := { s with handle := s.handle.after op } } else none

end CallbackState

/-- The threads that register, finish and cancel. -/
def callbackProgram : Threads.Program CallbackState CallbackTask CallbackEnding where
  run := CallbackState.run
  entry := CallbackTask.entry

/-- The callback that a call of `add_terminal_callback` brings in. -/
def registers : Action CallbackTask CallbackEnding → Option TerminalCallback
  | .call (.addTerminalCallback callback) => some callback
  | _ => none

/-- The action is no call of `complete` or `fail`. -/
def NeverFinishes : Action CallbackTask CallbackEnding → Prop
  | .call task => task.finishes = false
  | .run .. => True

/-! ### What the sections do to the callbacks -/

namespace SynthesisHandle

/-- The other methods leave the end and the callbacks alone. -/
theorem after_aside {op : StreamOp} (h : op.aside = true) (handle : SynthesisHandle) :
    (handle.after op).terminal = handle.terminal ∧
      (handle.after op).terminalCallbacks = handle.terminalCallbacks := by
  cases op with
  | addTerminalCallback callback => cases h
  | cancel => cases h
  | finish event error => cases h
  | markDispatched queueWaitMs => exact ⟨rfl, rfl⟩
  | setCancelCallback callback =>
    obtain ⟨hterminal, hcallbacks, -⟩ := handle.setCancelCallback_spec callback
    exact ⟨hterminal, hcallbacks⟩
  | emitStarted sampleRateHz channelCount =>
    simp only [after]
    split
    · next handle' hemit =>
      have hsame := emitStarted_ending hemit
      exact ⟨hsame.terminal, hsame.terminalCallbacks⟩
    · exact ⟨rfl, rfl⟩
  | emitAudio event remaining =>
    simp only [after]
    split
    · next handle' hemit =>
      have hsame := emitAudio_ending hemit
      exact ⟨hsame.terminal, hsame.terminalCallbacks⟩
    · exact ⟨rfl, rfl⟩
  | read =>
    simp only [after]
    split_ifs
    · exact ⟨handle.popEvent_ending.terminal, handle.popEvent_ending.terminalCallbacks⟩
    · exact ⟨rfl, rfl⟩

/-- A registered callback waits, or is called at once. -/
theorem addTerminalCallback_callbacks (handle : SynthesisHandle) (callback : TerminalCallback) :
    (↑(handle.addTerminalCallback callback).1.terminalCallbacks : Multiset TerminalCallback) +
        (if (handle.addTerminalCallback callback).2 then {callback} else 0) =
      ↑handle.terminalCallbacks + {callback} := by
  unfold addTerminalCallback
  split_ifs with hterminal hcall hcall
  · rfl
  · exact absurd rfl hcall
  · exact hcall.elim
  · rw [add_zero, ← Multiset.coe_add, Multiset.coe_singleton]

/-- Those that wait stay, or are handed over. -/
theorem finish_callbacks (handle : SynthesisHandle) (event : Option StreamEvent) (error : Option EngineError) :
    (↑(handle.finish event error).1.terminalCallbacks : Multiset TerminalCallback) +
      ↑(handle.finish event error).2 = ↑handle.terminalCallbacks := by
  unfold finish
  split_ifs <;> simp

end SynthesisHandle

namespace CallbackState

variable {s : CallbackState} {task : CallbackTask} {ending : CallbackEnding} {e : Step}
  {bag : Multiset CallbackTask} {c : Config CallbackState CallbackTask}

/-! ### The account -/

/-- The callbacks that some tasks hold. -/
def heldBy (bag : Multiset CallbackTask) : Multiset TerminalCallback := (bag.map CallbackTask.held).sum

@[simp] theorem heldBy_zero : heldBy 0 = 0 := rfl

@[simp] theorem heldBy_nil : heldBy ↑([] : List CallbackTask) = 0 := rfl

@[simp] theorem heldBy_singleton (task : CallbackTask) : heldBy {task} = task.held := by simp [heldBy]

theorem heldBy_cons (task : CallbackTask) (bag : Multiset CallbackTask) :
    heldBy (task ::ₘ bag) = task.held + heldBy bag := by simp [heldBy]

theorem heldBy_add (bag bag' : Multiset CallbackTask) : heldBy (bag + bag') = heldBy bag + heldBy bag' := by
  simp [heldBy]

/-- The callbacks called, waiting and skipped. -/
def kept (s : CallbackState) : Multiset TerminalCallback :=
  ↑s.called + ↑s.handle.terminalCallbacks + ↑s.skipped

/-- A task starts no thread. -/
theorem run_spawned (hrun : s.run task ending = some e) : e.spawned = [] := by
  cases task with
  | runTerminalCallbacks callbacks =>
    cases callbacks
    · cases hrun
      rfl
    · cases hrun
      cases ending <;> rfl
  | other op =>
    simp only [run] at hrun
    split_ifs at hrun
    cases hrun
    rfl
  | _ =>
    cases hrun
    rfl

/-- **No task loses a callback, or finds one.** -/
theorem run_kept (hrun : s.run task ending = some e) : e.state.kept + heldBy ↑e.next = s.kept + task.held := by
  cases task with
  | addTerminalCallback callback =>
    cases hrun
    have hsection := s.handle.addTerminalCallback_callbacks callback
    have hnext : heldBy ↑(s.addTerminalCallback callback).next =
        if (s.handle.addTerminalCallback callback).2 then {callback} else 0 := by
      simp only [addTerminalCallback]
      split_ifs <;> simp [CallbackTask.held]
    rw [hnext]
    show (↑s.called : Multiset TerminalCallback) + ↑(s.handle.addTerminalCallback callback).1.terminalCallbacks +
      ↑s.skipped + _ = _ + {callback}
    rw [add_right_comm, add_assoc (↑s.called : Multiset TerminalCallback), hsection, kept]
    abel
  | callBack callback =>
    cases hrun
    show (↑(s.called ++ [callback]) : Multiset TerminalCallback) + _ + _ + 0 = _ + {callback}
    rw [← Multiset.coe_add, Multiset.coe_singleton, kept]
    abel
  | cancel =>
    cases hrun
    simp [kept, CallbackTask.held, s.handle.cancel_ending.terminalCallbacks]
  | complete result metrics =>
    cases hrun
    simp only [complete]
    split_ifs <;> simp [kept, CallbackTask.held]
  | combineMetrics result metrics =>
    cases hrun
    simp [kept, CallbackTask.held]
  | fail error =>
    cases hrun
    simp [kept, CallbackTask.held]
  | finish event error =>
    cases hrun
    have hsection := s.handle.finish_callbacks event error
    show (↑s.called : Multiset TerminalCallback) + ↑(s.handle.finish event error).1.terminalCallbacks + ↑s.skipped +
      heldBy {_} = s.kept + 0
    rw [heldBy_singleton, CallbackTask.held, add_right_comm, add_assoc (↑s.called : Multiset TerminalCallback),
      hsection, add_zero, kept]
  | runTerminalCallbacks callbacks =>
    cases callbacks with
    | nil => cases hrun; simp [CallbackTask.held]
    | cons callback callbacks =>
      cases hrun
      have hsplit : (↑(callback :: callbacks) : Multiset TerminalCallback) = {callback} + ↑callbacks := rfl
      cases ending with
      | brokeOff =>
        show (↑(s.called ++ [callback]) : Multiset TerminalCallback) + ↑s.handle.terminalCallbacks +
          ↑(s.skipped ++ callbacks) + 0 = _ + _
        rw [← Multiset.coe_add, ← Multiset.coe_add, Multiset.coe_singleton, CallbackTask.held, hsplit, kept]
        abel
      | returned | raised =>
        show (↑(s.called ++ [callback]) : Multiset TerminalCallback) + ↑s.handle.terminalCallbacks + ↑s.skipped +
          heldBy {_} = _ + _
        rw [heldBy_singleton, ← Multiset.coe_add, Multiset.coe_singleton, CallbackTask.held,
          CallbackTask.held, hsplit, kept]
        abel
  | other op =>
    simp only [run] at hrun
    split_ifs at hrun with haside
    cases hrun
    simp [kept, CallbackTask.held, (s.handle.after_aside haside).2]

/-- A call brings in what it registers, if it is one of the methods. -/
theorem held_of_entry (h : task.entry = true) :
    task.held = ↑(registers (.call task)).toList := by
  cases task <;> first | rfl | cases h

theorem registers_of_not_entry (h : task.entry = false) : registers (.call task) = none := by
  cases task <;> first | rfl | cases h

/-- One step adds to the account what its call brings in. -/
theorem step_account (c : Config CallbackState CallbackTask) (a : Action CallbackTask CallbackEnding) :
    (callbackProgram.step c a).state.kept + heldBy (callbackProgram.step c a).bag =
      c.state.kept + heldBy c.bag + ↑(registers a).toList := by
  cases a with
  | call task =>
    rw [Threads.Program.step]
    split_ifs with hentry
    · rw [Threads.Program.bag_call, heldBy_cons, held_of_entry hentry]
      abel
    · rw [registers_of_not_entry (Bool.eq_false_iff.mpr hentry)]
      exact (add_zero _).symm
  | run thread ending =>
    rcases Threads.Program.step_cases c (.run thread ending) (p := callbackProgram) with heq | ⟨_, h, -⟩ |
      ⟨_, _, task, e, others, -, -, hrun, hold, hstate, hbag⟩
    · rw [heq]
      exact (add_zero _).symm
    · cases h
    · rw [hstate, hbag, hold, Effect.left_of_next (run_spawned hrun), heldBy_add, heldBy_cons, ← add_assoc,
        run_kept hrun, ← add_assoc]
      exact (add_zero _).symm

/-- **The account of a schedule**: what its calls brought in is called, waiting,
skipped or held. -/
theorem runs_account (handle : SynthesisHandle) (hnew : handle.terminalCallbacks = [])
    (actions : List (Action CallbackTask CallbackEnding)) :
    (callbackProgram.runs (start handle) actions).state.kept +
      heldBy (callbackProgram.runs (start handle) actions).bag = ↑(actions.filterMap registers) := by
  induction actions using List.reverseRecOn with
  | nil => simp [Threads.Program.runs, start, kept, Config.bag, hnew]
  | append_singleton actions a ih =>
    rw [Threads.Program.runs_snoc, step_account, ih, List.filterMap_append, ← Multiset.coe_add]
    cases h : registers a <;> simp [h]

/-! ### The end of the handle -/

/-- The handle ends once, and callbacks are called from then on only. -/
structure Ok (s : CallbackState) (bag : Multiset CallbackTask) : Prop where
  finished : s.finished.length = if s.handle.terminal then 1 else 0
  waiting : s.handle.terminal = true → s.handle.terminalCallbacks = []
  calls : ∀ task ∈ bag, task.calls = true → s.handle.terminal = true
  called : s.called ≠ [] → s.handle.terminal = true
  skipped : s.brokenOff = 0 → s.skipped = []

/-- A section that leaves the end alone, or is the end, keeps what holds of it. -/
theorem Ok.section {others : Multiset CallbackTask} {handle : SynthesisHandle} {next : List CallbackTask}
    (h : s.Ok (task ::ₘ others)) (hterminal : handle.terminal = s.handle.terminal)
    (hwaiting : s.handle.terminal = true → handle.terminalCallbacks = s.handle.terminalCallbacks)
    (hnext : ∀ t ∈ next, t.calls = true → s.handle.terminal = true) :
    Ok { s with handle := handle } (↑next + others) where
  finished := by rw [hterminal]; exact h.finished
  waiting := fun ht => (hwaiting (hterminal ▸ ht)).trans (h.waiting (hterminal ▸ ht))
  calls := fun t hmem hcalls => by
    rw [hterminal]
    rcases Multiset.mem_add.mp hmem with hmem | hmem
    · exact hnext t (Multiset.mem_coe.mp hmem) hcalls
    · exact h.calls t (Multiset.mem_cons_of_mem hmem) hcalls
  called := fun hne => by rw [hterminal]; exact h.called hne
  skipped := h.skipped

/-- **The end.** -/
theorem Ok.finish {others : Multiset CallbackTask} {event : Option StreamEvent} {error : Option EngineError}
    (h : s.Ok (task ::ₘ others)) : (s.finish event error).state.Ok (↑(s.finish event error).next + others) := by
  have hended : (s.handle.finish event error).1.terminal = true := (s.handle.finish_spec event error).1
  refine ⟨?_, fun _ => ?_, fun _ _ _ => hended, fun _ => hended, h.skipped⟩
  · show (if s.handle.terminal then s.finished else s.finished ++ [(event, error)]).length = _
    have hone := h.finished
    rw [CallbackState.finish, if_pos hended]
    cases hterminal : s.handle.terminal
    · simp [hterminal] at hone
      simp [hone]
    · simpa [hterminal] using hone
  · show (s.handle.finish event error).1.terminalCallbacks = []
    unfold SynthesisHandle.finish
    split_ifs with hterminal
    · exact h.waiting hterminal
    · rfl

/-- A callback is called, and the rest of the callbacks left or skipped. -/
theorem Ok.call {others : Multiset CallbackTask} {called : List TerminalCallback} {next : List CallbackTask}
    (h : s.Ok (task ::ₘ others)) (hcalls : task.calls = true) :
    Ok { s with called := called } (↑next + others) :=
  have hterminal := h.calls task (Multiset.mem_cons_self ..) hcalls
  ⟨h.finished, h.waiting, fun _ _ _ => hterminal, fun _ => hterminal, h.skipped⟩

/-- **What every task keeps.** -/
theorem Ok.run {others : Multiset CallbackTask} (h : s.Ok (task ::ₘ others))
    (hrun : s.run task ending = some e) : e.state.Ok (e.left + others) := by
  rw [Effect.left_of_next (run_spawned hrun)]
  cases task with
  | addTerminalCallback callback =>
    cases hrun
    refine h.section (s.handle.addTerminalCallback_spec callback).1 (fun hterminal => ?_) fun t hmem _ => ?_
    · rw [SynthesisHandle.addTerminalCallback, if_pos hterminal]
    · by_contra hopen
      simp [addTerminalCallback, SynthesisHandle.addTerminalCallback, hopen] at hmem
  | callBack callback =>
    cases hrun
    exact h.call rfl
  | cancel =>
    cases hrun
    exact h.section s.handle.cancel_ending.terminal (fun _ => s.handle.cancel_ending.terminalCallbacks)
      fun _ hmem => absurd hmem List.not_mem_nil
  | complete result metrics =>
    cases hrun
    refine h.section rfl (fun _ => rfl) fun t hmem hcalls => ?_
    simp only [complete] at hmem
    split_ifs at hmem <;> rw [List.mem_singleton.mp hmem] at hcalls <;> cases hcalls
  | combineMetrics result metrics =>
    cases hrun
    refine h.section rfl (fun _ => rfl) fun t hmem hcalls => ?_
    rw [List.mem_singleton.mp hmem] at hcalls
    cases hcalls
  | fail error =>
    cases hrun
    refine h.section rfl (fun _ => rfl) fun t hmem hcalls => ?_
    rw [List.mem_singleton.mp hmem] at hcalls
    cases hcalls
  | finish event error =>
    cases hrun
    exact h.finish
  | runTerminalCallbacks callbacks =>
    cases callbacks with
    | nil =>
      cases hrun
      exact h.call rfl
    | cons callback callbacks =>
      cases hrun
      cases ending with
      | brokeOff =>
        have hcalled : Ok { s with called := s.called ++ [callback] } (↑([] : List CallbackTask) + others) :=
          h.call rfl
        exact { hcalled with skipped := fun hnone => absurd hnone (Nat.succ_ne_zero _) }
      | returned => exact h.call rfl
      | raised => exact h.call rfl
  | other op =>
    simp only [CallbackState.run] at hrun
    split_ifs at hrun with haside
    cases hrun
    obtain ⟨hterminal, hwaiting⟩ := s.handle.after_aside haside
    exact h.section hterminal (fun _ => hwaiting) fun _ hmem => absurd hmem List.not_mem_nil

/-- A call leaves everything to the tasks. -/
theorem Ok.entry (h : s.Ok bag) (hentry : task.entry = true) : s.Ok (task ::ₘ bag) := by
  refine { h with calls := fun t hmem hcalls => ?_ }
  rcases Multiset.mem_cons.mp hmem with rfl | hmem
  · cases t with
    | callBack callback => cases hentry
    | runTerminalCallbacks callbacks => cases hentry
    | _ => cases hcalls
  · exact h.calls t hmem hcalls

/-- A new handle has not ended. -/
theorem start_ok {handle : SynthesisHandle} (hopen : handle.terminal = false) :
    (start handle).state.Ok (start handle).bag where
  finished := by rw [show (start handle).state.handle.terminal = false from hopen]; rfl
  waiting := fun hended => absurd (hopen.symm.trans hended) Bool.false_ne_true
  calls := fun _ hmem => absurd hmem (Multiset.notMem_zero _)
  called := fun hne => absurd rfl hne
  skipped := fun _ => rfl

theorem runs_ok {handle : SynthesisHandle} (hopen : handle.terminal = false)
    (actions : List (Action CallbackTask CallbackEnding)) :
    (callbackProgram.runs (start handle) actions).state.Ok (callbackProgram.runs (start handle) actions).bag :=
  Threads.Program.runs_of (start_ok hopen) (fun _ _ _ hentry h => h.entry hentry)
    (fun _ _ _ _ _ hrun h => h.run hrun) actions

/-- Where nobody completes or fails, nobody ends the handle. -/
theorem runs_open {handle : SynthesisHandle} (hopen : handle.terminal = false)
    {actions : List (Action CallbackTask CallbackEnding)} (hnever : ∀ a ∈ actions, NeverFinishes a) :
    (callbackProgram.runs (start handle) actions).state.handle.terminal = false := by
  refine (Threads.Program.runs_of_forall (A := NeverFinishes) (p := callbackProgram) (c := start handle)
    (I := fun s bag => s.handle.terminal = false ∧ ∀ task ∈ bag, task.finishes = false) ?_ ?_ ?_ hnever).1
  · exact ⟨hopen, fun _ hmem => absurd hmem (Multiset.notMem_zero _)⟩
  · rintro s bag task hcall - ⟨hterminal, hbag⟩
    exact ⟨hterminal, Multiset.forall_mem_cons.mpr ⟨hcall, hbag⟩⟩
  · rintro s bag task - ending e - hrun ⟨hterminal, hbag⟩
    obtain ⟨htask, hbag⟩ := Multiset.forall_mem_cons.mp hbag
    have hkeep : e.state.handle.terminal = s.handle.terminal ∧ ∀ t ∈ e.next, t.finishes = false := by
      cases task with
      | complete result metrics => cases htask
      | combineMetrics result metrics => cases htask
      | fail error => cases htask
      | finish event error => cases htask
      | addTerminalCallback callback =>
        cases hrun
        refine ⟨(s.handle.addTerminalCallback_spec callback).1, fun t hmem => ?_⟩
        simp only [addTerminalCallback] at hmem
        split_ifs at hmem
        · rw [List.mem_singleton.mp hmem]
          rfl
        · cases hmem
      | callBack callback =>
        cases hrun
        exact ⟨rfl, fun _ hmem => absurd hmem List.not_mem_nil⟩
      | cancel =>
        cases hrun
        exact ⟨s.handle.cancel_ending.terminal, fun _ hmem => absurd hmem List.not_mem_nil⟩
      | runTerminalCallbacks callbacks =>
        cases callbacks with
        | nil =>
          cases hrun
          exact ⟨rfl, fun _ hmem => absurd hmem List.not_mem_nil⟩
        | cons callback callbacks =>
          cases hrun
          cases ending with
          | brokeOff => exact ⟨rfl, fun _ hmem => absurd hmem List.not_mem_nil⟩
          | returned | raised => exact ⟨rfl, List.forall_mem_singleton.mpr rfl⟩
      | other op =>
        simp only [callbackProgram, run] at hrun
        split_ifs at hrun with haside
        cases hrun
        exact ⟨(s.handle.after_aside haside).1, fun _ hmem => absurd hmem List.not_mem_nil⟩
    refine ⟨hkeep.1.trans hterminal, fun t hmem => ?_⟩
    rw [Effect.left_of_next (run_spawned hrun)] at hmem
    rcases Multiset.mem_add.mp hmem with hmem | hmem
    · exact hkeep.2 t (Multiset.mem_coe.mp hmem)
    · exact hbag t hmem

/-! ### Once each -/

/-- **Terminal callbacks run exactly once.**  At most one call ends the handle.
No callback is called before the end, none more often than it is registered; once
the handle has ended and every call has returned, each was called as often as it
was registered, before the end or after it, whichever of the others raised.
`cancel` ends nothing and calls nothing, and where nobody completes or fails the
handle does not end. -/
theorem terminal_callbacks_once (responseId modelName : String) (createdAt : ℚ)
    (maxBufferChunks maxBufferBytes : ℤ) (timeout : ℚ) (actions : List (Action CallbackTask CallbackEnding)) :
    let c := callbackProgram.runs
      (start (.new responseId modelName createdAt maxBufferChunks maxBufferBytes timeout)) actions
    let s := c.state
    let registered := actions.filterMap registers
    s.finished.length = (if s.handle.terminal then 1 else 0) ∧
    (s.called ≠ [] → s.handle.terminal = true) ∧
    (∀ callback, s.called.count callback ≤ registered.count callback) ∧
    (s.handle.terminal = true → c.bag = 0 → s.brokenOff = 0 →
      ∀ callback, s.called.count callback = registered.count callback) ∧
    (∀ thread ending, c.next? thread = some .cancel →
      let c' := callbackProgram.step c (.run thread ending)
      c'.state.handle.terminal = s.handle.terminal ∧ c'.state.called = s.called ∧ c.bag = .cancel ::ₘ c'.bag) ∧
    ((∀ a ∈ actions, NeverFinishes a) → s.handle.terminal = false ∧ s.called = []) := by
  intro c s registered
  have hok : s.Ok c.bag := runs_ok rfl actions
  have haccount : s.kept + heldBy c.bag = ↑registered := runs_account _ rfl actions
  refine ⟨hok.finished, hok.called, fun callback => ?_, fun hended hreturned hwhole callback => ?_,
    fun thread ending hnext => ?_, fun hnever => ?_⟩
  · have hle : (↑s.called : Multiset TerminalCallback) ≤ ↑registered := by
      rw [← haccount, kept, add_assoc, add_assoc]
      exact Multiset.le_add_right _ _
    rw [← Multiset.coe_count, ← Multiset.coe_count]
    exact Multiset.count_le_of_le callback hle
  · have heq : (↑s.called : Multiset TerminalCallback) = ↑registered := by
      rw [← haccount, kept, hok.waiting hended, hok.skipped hwhole, hreturned]
      simp
    rw [← Multiset.coe_count, ← Multiset.coe_count, heq]
  · intro c'
    have hrun : callbackProgram.run s .cancel ending =
        some { state := { s with handle := s.handle.cancel.1 } } := rfl
    obtain ⟨others, hold, hbag⟩ := Threads.Program.step_run_bag hnext hrun
    have hstate : c'.state = { s with handle := s.handle.cancel.1 } := Threads.Program.step_run hnext hrun
    refine ⟨?_, by rw [hstate], ?_⟩
    · rw [hstate]
      exact s.handle.cancel_ending.terminal
    · rw [hold, show c'.bag = _ from hbag, Effect.left_of_next rfl, Multiset.coe_nil, zero_add]
  · have hopen : s.handle.terminal = false := runs_open rfl hnever
    refine ⟨hopen, ?_⟩
    by_contra hne
    exact Bool.false_ne_true (hopen.symm.trans (hok.called hne))

end CallbackState
end TtsPool
