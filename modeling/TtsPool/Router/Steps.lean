/-
# What a task of the router does

A call that has moved a model to `loading` or `unloading` has it in charge until
it moves it on or gives up; `Charge` is what such a call has in hand, and
`charge` reads it off the call's next task.  `Ran` lists what running a task can
do, and `ran_of_run` says that the list is complete: everything proved about a
step of the router is proved by going through it.
-/

import TtsPool.Router.Model

namespace TtsPool

open Threads (Effect)

/-- What a call that has moved a model has in hand: the model, and the runtime
and executor it has built or taken out. -/
structure Charge where
  modelName : String
  lifecycle : ModelLifecycle
  runtime : Option RuntimeId := none
  executor : Option ExecutorId := none
deriving DecidableEq

namespace RouterTask

/-- The charge of the call a task belongs to. -/
def charge : RouterTask → Option Charge
  | .queryGpuBefore call | .buildRuntime call => some { modelName := call.modelName, lifecycle := .loading }
  | .loadRuntime call r | .checkBuffer call r | .buildExecutor call r =>
    some { modelName := call.modelName, lifecycle := .loading, runtime := some r }
  | .startExecutor call r e | .queryGpuAfter call r e | .register call r e _ =>
    some { modelName := call.modelName, lifecycle := .loading, runtime := some r, executor := some e }
  | .loadFailed modelName _ => some { modelName := modelName, lifecycle := .loading }
  | .setDeadline modelName _ | .awaitDrain modelName _ =>
    some { modelName := modelName, lifecycle := .unloading }
  | .closeRuntime modelName e r | .finishUnload modelName e r =>
    some { modelName := modelName, lifecycle := .unloading, runtime := r, executor := e }
  | .stream _ | .raised _ | .executor _ _ | .loadModel _ _ | .unloadModel _ => none

/-- The task of executor `k` that a router's task is. -/
def onExecutor (k : ExecutorId) : RouterTask → Option ExecutorTask
  | .executor e task => if e = k then some task else none
  | _ => none

theorem onExecutor_self (k : ExecutorId) (task : ExecutorTask) :
    (RouterTask.executor k task).onExecutor k = some task := if_pos rfl

theorem onExecutor_of_ne {k e : ExecutorId} (h : e ≠ k) (task : ExecutorTask) :
    (RouterTask.executor e task).onExecutor k = none := if_neg h

/-- A task with a charge is the router's own. -/
theorem onExecutor_of_charge {task : RouterTask} {c : Charge} (h : task.charge = some c) (k : ExecutorId) :
    task.onExecutor k = none := by
  cases task <;> first | rfl | cases h

end RouterTask

/-- The charges of all calls. -/
abbrev charges (bag : Multiset RouterTask) : Multiset Charge := bag.filterMap RouterTask.charge

/-- An assignment of a lifecycle that leaves the count of requests alone. -/
def Moves (f : ModelRuntimeState → ModelRuntimeState) (lifecycle : ModelLifecycle) : Prop :=
  ∀ state, (f state).lifecycle = lifecycle ∧ (f state).inflightRequests = state.inflightRequests

namespace RouterState

variable {s : RouterState} {f : ModelRuntimeState → ModelRuntimeState} {lifecycle : ModelLifecycle}
  {task : RouterTask} {input : RouterInput} {e : Step}

/-- An exception that no `except` of the call catches: out of a GPU query, of
`begin_shutdown` or of `runtime.close()`, out of `runtime.load()` where it is no
`Exception`, out of a wait that is too long to be asked for, or out of the `except`
itself, from an exception that has no text. -/
def breaksOff (s : RouterState) : RouterTask → RouterInput → Bool
  | .queryGpuBefore _, .subprocess result | .queryGpuAfter _ _ _, .subprocess result =>
    !(queryPrimaryGpuUsedMib result).isOk
  | .loadRuntime _ _, .escapes _ => true
  | .loadFailed _ error, _ => !(exceptionMessage error).isOk
  | .awaitDrain modelName deadline, .clock now => 0 < s.inflight modelName && timeoutMax < deadline - now
  | .setDeadline _ true, .raises _ | .closeRuntime _ _ (some _), .raises _ => true
  | _, _ => false

@[simp] theorem setRuntime_self (s : RouterState) (r : RuntimeId) (runtime : TTSRuntime) :
    (s.setRuntime r runtime).runtimeTable r = runtime := Function.update_self _ _ _

theorem setRuntime_of_ne {r r' : RuntimeId} (h : r' ≠ r) (runtime : TTSRuntime) :
    (s.setRuntime r runtime).runtimeTable r' = s.runtimeTable r' := Function.update_of_ne h _ _

@[simp] theorem setExecutor_self (s : RouterState) (k : ExecutorId) (executor : ServingExecutor) :
    (s.setExecutor k executor).executorTable k = executor := Function.update_self _ _ _

theorem setExecutor_of_ne {k j : ExecutorId} (h : j ≠ k) (executor : ServingExecutor) :
    (s.setExecutor k executor).executorTable j = s.executorTable j := Function.update_of_ne h _ _

@[simp] theorem addRuntime_self (s : RouterState) (runtime : TTSRuntime) :
    (s.addRuntime runtime).runtimeTable s.nextRuntime = runtime := Function.update_self _ _ _

theorem addRuntime_of_lt {r : RuntimeId} (h : r < s.nextRuntime) (runtime : TTSRuntime) :
    (s.addRuntime runtime).runtimeTable r = s.runtimeTable r := Function.update_of_ne h.ne _ _

theorem modelState?_modifyState (s : RouterState) (modelName m : String)
    (f : ModelRuntimeState → ModelRuntimeState) : (s.modifyState modelName f).modelState? m =
      if m = modelName then (s.modelState? modelName).map f else s.modelState? m :=
  Dict.get?_modify s.engine.modelStates modelName m f

theorem lifecycle?_modifyState (hf : Moves f lifecycle) (modelName m : String) :
    (s.modifyState modelName f).lifecycle? m =
      if m = modelName then (s.lifecycle? modelName).map fun _ => lifecycle else s.lifecycle? m := by
  rw [lifecycle?, modelState?_modifyState]
  split_ifs
  · rw [lifecycle?, Option.map_map, Option.map_map]
    exact congrFun (congrArg Option.map (funext fun state => (hf state).1)) _
  · rfl

theorem inflight_modifyState (hf : ∀ state, (f state).inflightRequests = state.inflightRequests)
    (modelName m : String) : (s.modifyState modelName f).inflight m = s.inflight m := by
  rw [inflight, modelState?_modifyState]
  split_ifs with h
  · rw [inflight, Option.map_map, h]
    exact congrArg (Option.getD · 0) (congrFun (congrArg Option.map (funext hf)) _)
  · rfl

theorem register_lifecycle? (call : LoadCall) (r : RuntimeId) (k : ExecutorId) (gpuUsedAfterMib : Option ℤ)
    (m : String) : (s.register call r k gpuUsedAfterMib).state.lifecycle? m =
      if m = call.modelName then (s.lifecycle? call.modelName).map fun _ => .loaded else s.lifecycle? m := by
  simp only [register, leave, lifecycle?, modifyState, modelState?, Dict.get?_modify]
  split_ifs
  · rw [Option.map_map, Option.map_map]
    rfl
  · rfl

theorem finishUnload_lifecycle? (modelName : String) (k : Option ExecutorId) (r : Option RuntimeId)
    (m : String) : (s.finishUnload modelName k r).state.lifecycle? m =
      if m = modelName then (s.lifecycle? modelName).map fun _ => .unloaded else s.lifecycle? m := by
  simp only [finishUnload, leave, lifecycle?, modifyState, modelState?, Dict.get?_modify]
  split_ifs
  · rw [Option.map_map, Option.map_map]
    rfl
  · rfl

theorem register_inflight (call : LoadCall) (r : RuntimeId) (k : ExecutorId) (gpuUsedAfterMib : Option ℤ)
    (m : String) : (s.register call r k gpuUsedAfterMib).state.inflight m = s.inflight m := by
  simp only [register, leave, inflight, modifyState, modelState?, Dict.get?_modify]
  split_ifs with hm
  · rw [Option.map_map, hm]
    rfl
  · rfl

theorem finishUnload_inflight (modelName : String) (k : Option ExecutorId) (r : Option RuntimeId)
    (m : String) : (s.finishUnload modelName k r).state.inflight m = s.inflight m := by
  simp only [finishUnload, leave, inflight, modifyState, modelState?, Dict.get?_modify]
  split_ifs with hm
  · rw [Option.map_map, hm]
    rfl
  · rfl

/-- A step of `load_model` that lets go of a loaded runtime: the buffer is too
small, the executor cannot be built or started, the GPU query after loading
raises, or a runtime registered before is overwritten. -/
def losesRuntime (s : RouterState) : RouterTask → RouterInput → Bool
  | .checkBuffer _ r, _ => s.BufferTooSmall r
  | .buildExecutor _ _, .raises _ | .startExecutor _ _ _, .raises _ => true
  | .queryGpuAfter _ _ _, .subprocess result => !(queryPrimaryGpuUsedMib result).isOk
  | .register call _ _ _, _ => (s.engine.runtimes.get? call.modelName).isSome
  | _, _ => false

/-- **What running a task does.** -/
inductive Ran (s : RouterState) : RouterTask → RouterInput → Step → Prop
  /-- The call is refused or has nothing to do. -/
  | aside {task input next} (hcharge : task.charge = none) (hown : ∀ k, task.onExecutor k = none)
      (hnext : (∃ error, next = [.raised error]) ∨ next = [] ∨ ∃ modelName, next = s.entrySnapshot modelName) :
      Ran s task input { state := s, next := next }
  | stream {k} (request hex) (hk : s.engine.executors.get? (pyStrip request.model) = some k)
      (hloaded : s.lifecycle? (pyStrip request.model) = some .loaded) :
      Ran s (.stream request) (.uuid hex)
        { state := s.modifyState (pyStrip request.model) fun state =>
            { state with inflightRequests := state.inflightRequests + 1 }
          next := [.executor k (.openStream request (s.handleSpec (pyStrip request.model) hex))] }
  | executor {k task input effect} (hk : k < s.nextExecutor)
      (hrun : (s.executorTable k).state.run task input = some effect) :
      Ran s (.executor k task) (.executor input) (s.afterExecutor k task effect)
  /-- The call moves the model; an unload that finds an executor shuts it down. -/
  | begins {task input modelName lifecycle f next} (task') (hcharge : task.charge = none)
      (hown : ∀ k, task.onExecutor k = none)
      (hsettled : ∃ settled, s.lifecycle? modelName = some settled ∧ settled.Settled)
      (hf : Moves f lifecycle) (hlifecycle : lifecycle = .loading ∨ lifecycle = .unloading)
      (hcharge' : task'.charge = some ⟨modelName, lifecycle, none, none⟩)
      (hnext : next = [task'] ∨
        ∃ k, s.engine.executors.get? modelName = some k ∧ next = [.executor k .beginShutdown, task']) :
      Ran s task input { state := s.modifyState modelName f, next := next }
  | passes {task input task' c} (hcharge : task.charge = some c) (hcharge' : task'.charge = some c)
      (hload : ∀ call r, task' ≠ .loadRuntime call r) (hfinish : ∀ m k r, task' ≠ .finishUnload m k (some r)) :
      Ran s task input { state := s, next := [task'] }
  | startExecutor (call r k) : Ran s (.startExecutor call r k) .returns
      { state := s, next := [.queryGpuAfter call r k], spawned := [[.executor k .runLoop]] }
  /-- An exception that `load_model` catches. -/
  | givesUp {task input modelName runtime executor} (error)
      (hcharge : task.charge = some ⟨modelName, .loading, runtime, executor⟩)
      (hruntime : runtime = none ∨ (∃ call r, task = .loadRuntime call r) ∨ s.losesRuntime task input = true) :
      Ran s task input { state := s, next := [.loadFailed modelName error] }
  | buildRuntime (call spec) : Ran s (.buildRuntime call) (.built spec)
      { state := s.addRuntime { spec with modelName := call.modelName }
        next := [.loadRuntime call s.nextRuntime] }
  | loadRuntime (call r) : Ran s (.loadRuntime call r) .returns (s.loadRuntime call r)
  | buildExecutor (call r) : Ran s (.buildExecutor call r) .returns (s.buildExecutor call r)
  /-- An exception that nothing catches. -/
  | breaksOff {task input modelName lifecycle runtime executor} (error)
      (hcharge : task.charge = some ⟨modelName, lifecycle, runtime, executor⟩)
      (hlifecycle : lifecycle = .loading ∨ lifecycle = .unloading) (hbreaks : s.breaksOff task input = true)
      (hruntime : runtime = none ∨ (∃ call r, task = .loadRuntime call r) ∨ s.losesRuntime task input = true) :
      Ran s task input (s.leave modelName (some error))
  | fails {task input modelName lifecycle f} (error)
      (hcharge : task.charge = some ⟨modelName, lifecycle, none, none⟩) (hf : Moves f .failed) :
      Ran s task input ((s.modifyState modelName f).leave modelName (some error))
  | register (call r k gpuUsedAfterMib input) :
      Ran s (.register call r k gpuUsedAfterMib) input (s.register call r k gpuUsedAfterMib)
  | drained (modelName deadline now) (hnone : s.inflight modelName = 0) :
      Ran s (.awaitDrain modelName deadline) (.clock now)
        { state := s.popModel modelName
          next := [.closeRuntime modelName (s.engine.executors.get? modelName)
            (s.engine.runtimes.get? modelName)] }
  | closed (modelName k r) : Ran s (.closeRuntime modelName k (some r)) .returns
      { state := s.close r, next := [.finishUnload modelName k (some r)] }
  | closeRaised (modelName k r error) : Ran s (.closeRuntime modelName k (some r)) (.raises error)
      ((s.close r).leave modelName (some error))
  | finishUnload (modelName k r input) :
      Ran s (.finishUnload modelName k r) input (s.finishUnload modelName k r)

theorem stream_ran (request : ResponseRequest) (hex : String) :
    Ran s (.stream request) (.uuid hex) (s.stream request hex) := by
  dsimp only [stream]
  split
  next state hmodel hstate =>
    split_ifs with hloaded
    · exact .aside rfl (fun _ => rfl) (.inl ⟨_, rfl⟩)
    · split
      · exact .aside rfl (fun _ => rfl) (.inl ⟨_, rfl⟩)
      next k hk =>
        refine .stream request hex hk ?_
        rw [lifecycle?, hstate, Option.map_some, not_ne_iff.mp hloaded]
  · exact .aside rfl (fun _ => rfl) (.inl ⟨_, rfl⟩)

theorem loadModel_ran (modelName : String) (targetInflight : Option ℤ) :
    Ran s (.loadModel modelName targetInflight) input (s.loadModel modelName targetInflight) := by
  have hbegins : ∀ (state : ModelRuntimeState) (f : ModelRuntimeState → ModelRuntimeState) (call : LoadCall),
      s.modelState? modelName = some state → state.lifecycle.Settled → Moves f .loading →
      call.modelName = modelName → Ran s (.loadModel modelName targetInflight) input
        { state := s.modifyState modelName f, next := [.queryGpuBefore call] } := by
    rintro state f call hstate hsettled hf rfl
    refine .begins (.queryGpuBefore call) rfl (fun _ => rfl) ⟨state.lifecycle, ?_, hsettled⟩ hf (.inl rfl) rfl
      (.inl rfl)
    rw [lifecycle?, hstate, Option.map_some]
  unfold loadModel
  split
  next modelSettings state hmodel hstate =>
    split
    · exact .aside rfl (fun _ => rfl) (.inl ⟨_, rfl⟩)
    · exact .aside rfl (fun _ => rfl) (.inr (.inr ⟨modelName, rfl⟩))
    · exact .aside rfl (fun _ => rfl) (.inr (.inr ⟨modelName, rfl⟩))
    next hlifecycle => exact hbegins state _ _ hstate (.inl hlifecycle) (fun _ => ⟨rfl, rfl⟩) rfl
    next hlifecycle => exact hbegins state _ _ hstate (.inr (.inr hlifecycle)) (fun _ => ⟨rfl, rfl⟩) rfl
  · exact .aside rfl (fun _ => rfl) (.inl ⟨_, rfl⟩)

theorem unloadModel_ran (modelName : String) :
    Ran s (.unloadModel modelName) input (s.unloadModel modelName) := by
  have hbegins : ∀ (state : ModelRuntimeState) (next : List RouterTask), s.modelState? modelName = some state →
      state.lifecycle.Settled →
      (s.engine.executors.get? modelName = none ∧ next = [.setDeadline modelName false] ∨
        ∃ e, s.engine.executors.get? modelName = some e ∧
          next = [.executor e .beginShutdown, .setDeadline modelName true]) →
      Ran s (.unloadModel modelName) input
        { state := s.modifyState modelName fun state => { state with lifecycle := .unloading }
          next := next } := by
    intro state next hstate hsettled hnext
    have hlifecycle : s.lifecycle? modelName = some state.lifecycle := by
      rw [lifecycle?, hstate, Option.map_some]
    rcases hnext with ⟨-, rfl⟩ | ⟨k, hk, rfl⟩
    · exact .begins (.setDeadline modelName false) rfl (fun _ => rfl) ⟨_, hlifecycle, hsettled⟩
        (fun _ => ⟨rfl, rfl⟩) (.inr rfl) rfl (.inl rfl)
    · exact .begins (.setDeadline modelName true) rfl (fun _ => rfl) ⟨_, hlifecycle, hsettled⟩
        (fun _ => ⟨rfl, rfl⟩) (.inr rfl) rfl (.inr ⟨k, hk, rfl⟩)
  unfold unloadModel
  split
  next modelSettings state hmodel hstate =>
    split
    · exact .aside rfl (fun _ => rfl) (.inl ⟨_, rfl⟩)
    · exact .aside rfl (fun _ => rfl) (.inr (.inr ⟨modelName, rfl⟩))
    · exact .aside rfl (fun _ => rfl) (.inr (.inr ⟨modelName, rfl⟩))
    next hlifecycle => exact hbegins state _ hstate (.inr (.inl hlifecycle)) (by split <;> simp [*])
    next hlifecycle => exact hbegins state _ hstate (.inr (.inr hlifecycle)) (by split <;> simp [*])
  · exact .aside rfl (fun _ => rfl) (.inl ⟨_, rfl⟩)

theorem awaitDrain_ran {modelName : String} {deadline now : ℚ}
    (hrun : s.awaitDrain modelName deadline now = some e) :
    Ran s (.awaitDrain modelName deadline) (.clock now) e := by
  unfold awaitDrain at hrun
  obtain ⟨state, hstate, rfl⟩ := Option.map_eq_some_iff.mp hrun
  dsimp only
  split_ifs with hbusy hlate hlong
  · exact .fails _ rfl fun _ => ⟨rfl, rfl⟩
  · have hinflight : 0 < s.inflight modelName := by
      rw [inflight, hstate]
      exact hbusy
    exact .breaksOff _ rfl (.inr rfl) (by simp [breaksOff, hinflight, hlong]) (.inl rfl)
  · exact .passes rfl rfl (by simp) (by simp)
  · refine .drained modelName deadline now ?_
    rw [inflight, hstate]
    exact Nat.eq_zero_of_not_pos hbusy

/-- **The list is complete.** -/
theorem ran_of_run (hrun : s.run task input = some e) : Ran s task input e := by
  unfold run at hrun
  split at hrun
  · obtain rfl := Option.some.inj hrun
    exact stream_ran _ _
  · obtain rfl := Option.some.inj hrun
    exact .aside rfl (fun _ => rfl) (.inr (.inl rfl))
  · unfold runExecutor at hrun
    split_ifs at hrun with hk
    obtain ⟨effect, heffect, rfl⟩ := Option.map_eq_some_iff.mp hrun
    exact .executor hk heffect
  · obtain rfl := Option.some.inj hrun
    exact loadModel_ran _ _
  next call result =>
    obtain rfl := Option.some.inj hrun
    unfold queryGpuBefore
    split
    next used hused => exact .passes rfl rfl (by simp) (by simp)
    next error herror =>
      exact .breaksOff error rfl (.inl rfl)
        (by simp [breaksOff, herror, Except.isOk, Except.toBool]) (.inl rfl)
  next call spec =>
    obtain rfl := Option.some.inj hrun
    unfold buildRuntime
    split_ifs
    · exact .buildRuntime call spec
    · exact .givesUp _ rfl (.inl rfl)
  · obtain rfl := Option.some.inj hrun
    exact .givesUp _ rfl (.inl rfl)
  · obtain rfl := Option.some.inj hrun
    exact .loadRuntime _ _
  · obtain rfl := Option.some.inj hrun
    exact .givesUp _ rfl (.inr (.inl ⟨_, _, rfl⟩))
  · obtain rfl := Option.some.inj hrun
    exact .breaksOff _ rfl (.inl rfl) rfl (.inr (.inl ⟨_, _, rfl⟩))
  next call r =>
    obtain rfl := Option.some.inj hrun
    unfold checkBuffer
    split_ifs with hsmall
    · exact .givesUp _ rfl (.inr (.inr (decide_eq_true hsmall)))
    · exact .passes rfl rfl (by simp) (by simp)
  · obtain rfl := Option.some.inj hrun
    exact .buildExecutor _ _
  · obtain rfl := Option.some.inj hrun
    exact .givesUp _ rfl (.inr (.inr rfl))
  · obtain rfl := Option.some.inj hrun
    exact .startExecutor _ _ _
  · obtain rfl := Option.some.inj hrun
    exact .givesUp _ rfl (.inr (.inr rfl))
  next modelName error =>
    obtain rfl := Option.some.inj hrun
    unfold loadFailed
    split
    next raised hraised =>
      exact .breaksOff raised rfl (.inl rfl)
        (by simp [breaksOff, hraised, Except.isOk, Except.toBool]) (.inl rfl)
    next message hmessage => exact .fails _ rfl fun _ => ⟨rfl, rfl⟩
  next call r k result =>
    obtain rfl := Option.some.inj hrun
    unfold queryGpuAfter
    split
    next used hused => exact .passes rfl rfl (by simp) (by simp)
    next error herror =>
      exact .breaksOff error rfl (.inl rfl) (by simp [breaksOff, herror, Except.isOk, Except.toBool])
        (.inr (.inr (by simp [losesRuntime, herror, Except.isOk, Except.toBool])))
  · obtain rfl := Option.some.inj hrun
    exact .register _ _ _ _ _
  · obtain rfl := Option.some.inj hrun
    exact unloadModel_ran _
  · obtain rfl := Option.some.inj hrun
    exact .passes rfl rfl (by simp) (by simp)
  next modelName error =>
    obtain rfl := Option.some.inj hrun
    exact .breaksOff error rfl (.inr rfl) rfl (.inl rfl)
  · exact awaitDrain_ran hrun
  · obtain rfl := Option.some.inj hrun
    exact .passes rfl rfl (by simp) (by simp)
  · obtain rfl := Option.some.inj hrun
    exact .closed _ _ _
  · obtain rfl := Option.some.inj hrun
    exact .closeRaised _ _ _ _
  · obtain rfl := Option.some.inj hrun
    exact .finishUnload _ _ _ _
  · cases hrun

end RouterState
end TtsPool
