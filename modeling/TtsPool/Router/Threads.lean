/-
# The executors' share of the engine's threads

A thread of the engine does some work for one executor and then goes on with its
own, perhaps to come back to it or to another one (`Tidy`).  The work it does for
executor `k` is `threadsOf k`.  What a step is to the executors is one of five things
(`Seen`): a step of one of them, a new one, a dispatcher started, a call handed to
one, or nothing.  A call of `load_model` holds the executor it has built, and with it
the knowledge whether the dispatcher is started (`building`).
-/

import TtsPool.Support.Component
import TtsPool.Router.Buffers

namespace TtsPool

open Threads (Effect Config live Shows)

namespace RouterTask

/-- A task that is no executor's. -/
def isOwn : RouterTask → Bool
  | .executor _ _ => false
  | _ => true

/-- A request on its way to an executor. -/
def isStream : RouterTask → Bool
  | .stream _ => true
  | _ => false

/-- The executor of a call of `load_model`, with whether its dispatcher is started. -/
def building : RouterTask → Option (ExecutorId × Bool)
  | .startExecutor _ _ k => some (k, false)
  | .queryGpuAfter _ _ k | .register _ _ k _ => some (k, true)
  | _ => none

theorem onExecutor_of_isOwn {task : RouterTask} (h : task.isOwn = true) (k : ExecutorId) :
    task.onExecutor k = none := by
  cases task <;> first | rfl | cases h

theorem isOwn_of_onExecutor {task : RouterTask} (h : ∀ k, task.onExecutor k = none) : task.isOwn = true := by
  cases task with
  | executor k t => cases (onExecutor_self k t).symm.trans (h k)
  | _ => rfl

/-- Such a call has the executor in charge. -/
theorem charge_of_building {task : RouterTask} {k : ExecutorId} {b : Bool} (h : task.building = some (k, b)) :
    ∃ m r, task.charge = some ⟨m, .loading, some r, some k⟩ := by
  cases task <;> simp only [building, Option.some.injEq, Prod.mk.injEq, reduceCtorEq] at h <;>
    obtain ⟨rfl, -⟩ := h <;> exact ⟨_, _, rfl⟩

end RouterTask

/-- A thread of the engine: work for one executor, and then the engine's own. -/
def Tidy (tasks : List RouterTask) : Prop :=
  ∃ (k : ExecutorId) (ts : List ExecutorTask) (own : List RouterTask),
    tasks = ts.map (.executor k) ++ own ∧ ∀ t ∈ own, t.isOwn = true

/-- What the threads do for executor `k`. -/
def threadsOf (k : ExecutorId) (threads : List (List RouterTask)) : List (List ExecutorTask) :=
  threads.map (List.filterMap (RouterTask.onExecutor k))

theorem tasksOf_flatten (k : ExecutorId) (threads : List (List RouterTask)) :
    tasksOf k ↑threads.flatten = ↑(threadsOf k threads).flatten := by
  rw [tasksOf, Multiset.filterMap_coe, threadsOf, List.filterMap_flatten]

@[simp] theorem threadsOf_append (k : ExecutorId) (threads threads' : List (List RouterTask)) :
    threadsOf k (threads ++ threads') = threadsOf k threads ++ threadsOf k threads' := List.map_append

@[simp] theorem threadsOf_cons (k : ExecutorId) (tasks : List RouterTask) (threads : List (List RouterTask)) :
    threadsOf k (tasks :: threads) = tasks.filterMap (RouterTask.onExecutor k) :: threadsOf k threads := rfl

@[simp] theorem threadsOf_nil (k : ExecutorId) : threadsOf k [] = [] := rfl

theorem filterMap_own {own : List RouterTask} (h : ∀ t ∈ own, t.isOwn = true) (k : ExecutorId) :
    own.filterMap (RouterTask.onExecutor k) = [] :=
  List.filterMap_eq_nil_iff.mpr fun t ht => RouterTask.onExecutor_of_isOwn (h t ht) k

theorem filterMap_executor_self (k : ExecutorId) (ts : List ExecutorTask) :
    (ts.map (RouterTask.executor k)).filterMap (RouterTask.onExecutor k) = ts := by
  induction ts with
  | nil => rfl
  | cons t ts ih => rw [List.map_cons, List.filterMap_cons_some (RouterTask.onExecutor_self k t), ih]

theorem filterMap_executor_of_ne {j k : ExecutorId} (h : k ≠ j) (ts : List ExecutorTask) :
    (ts.map (RouterTask.executor k)).filterMap (RouterTask.onExecutor j) = [] := by
  refine List.filterMap_eq_nil_iff.mpr fun task htask => ?_
  obtain ⟨t, -, rfl⟩ := List.mem_map.mp htask
  exact RouterTask.onExecutor_of_ne h t

namespace Tidy

variable {task : RouterTask} {rest own : List RouterTask} {k : ExecutorId} {t : ExecutorTask}

theorem of_own (h : ∀ t ∈ own, t.isOwn = true) : Tidy own := ⟨0, [], own, rfl, h⟩

/-- After one of its own tasks a thread has only such. -/
theorem own_rest (h : Tidy (task :: rest)) (hown : task.isOwn = true) : ∀ t ∈ rest, t.isOwn = true := by
  obtain ⟨k, ts, own, heq, howned⟩ := h
  cases ts with
  | nil =>
    obtain rfl : task :: rest = own := heq
    exact fun t ht => howned t (List.mem_cons_of_mem _ ht)
  | cons t ts =>
    obtain ⟨rfl, -⟩ := List.cons.inj heq
    cases hown

/-- After a task of an executor's it has more of these, and then its own. -/
theorem executor_rest (h : Tidy (.executor k t :: rest)) :
    ∃ (ts : List ExecutorTask) (own : List RouterTask),
      rest = ts.map (.executor k) ++ own ∧ ∀ t ∈ own, t.isOwn = true := by
  obtain ⟨j, ts, own, heq, howned⟩ := h
  cases ts with
  | nil =>
    obtain rfl : .executor k t :: rest = own := heq
    cases howned _ (List.mem_cons_self ..)
  | cons t' ts =>
    obtain ⟨hhead, rfl⟩ := List.cons.inj heq
    cases hhead
    exact ⟨ts, own, rfl, howned⟩

end Tidy

namespace RouterState

variable {s : RouterState} {task : RouterTask} {bag : Multiset RouterTask} {e : Step} {input : RouterInput}
  {rest : List RouterTask} {pre post : List (List RouterTask)}

/-! ### What a step is to the threads of the executors -/

/-- A step as it is seen of the executors: one of an executor's own, a new executor,
a dispatcher started, one call handed to an executor, or nothing. -/
inductive Seen (s : RouterState) : RouterTask → Step → Prop
  | executor {k t i effect} (hk : k < s.nextExecutor)
      (hrun : (s.executorTable k).state.run t i = some effect) :
      Seen s (.executor k t) (s.afterExecutor k t effect)
  | builds (call r) : Seen s (.buildExecutor call r) (s.buildExecutor call r)
  | starts (call r k) : Seen s (.startExecutor call r k)
      { state := s, next := [.queryGpuAfter call r k], spawned := [[.executor k .runLoop]] }
  | hands {task : RouterTask} {e : Step} (k t own) (htask : task.isOwn = true)
      (htable : e.state.executorTable = s.executorTable)
      (hcount : e.state.nextExecutor = s.nextExecutor) (hspawned : e.spawned = [])
      (hnext : e.next = .executor k t :: own) (hown : ∀ t ∈ own, t.isOwn = true) (hk : k < s.nextExecutor)
      (hentry : t.entry = true) (hkind : task.isStream = true ∧ own = [] ∨ t = .snapshot ∨ t = .beginShutdown) :
      Seen s task e
  | nothing {task : RouterTask} {e : Step} (htask : task.isOwn = true)
      (htable : e.state.executorTable = s.executorTable)
      (hcount : e.state.nextExecutor = s.nextExecutor) (hspawned : e.spawned = [])
      (hown : ∀ t ∈ e.next, t.isOwn = true) : Seen s task e

theorem Seen.next (htask : task.isOwn = true) {task' : RouterTask} {state : RouterState}
    (htable : state.executorTable = s.executorTable) (hcount : state.nextExecutor = s.nextExecutor)
    (hown : task'.isOwn = true) : Seen s task { state := state, next := [task'] } :=
  .nothing htask htable hcount rfl (List.forall_mem_singleton.mpr hown)

theorem isOwn_of_charge {c : Charge} (h : task.charge = some c) : task.isOwn = true :=
  RouterTask.isOwn_of_onExecutor (RouterTask.onExecutor_of_charge h)

/-- A snapshot is handed to the executor of a model that has one. -/
theorem Seen.snapshot (s' : RouterState) {m : String} (htask : task.isOwn = true)
    (htable : e.state.executorTable = s.executorTable) (hcount : e.state.nextExecutor = s.nextExecutor)
    (hspawned : e.spawned = []) (hnext : e.next = s'.entrySnapshot m)
    (hs' : ∀ k, s'.engine.executors.get? m = some k → k < s.nextExecutor) : Seen s task e := by
  cases hk : s'.engine.executors.get? m with
  | none =>
    refine .nothing htask htable hcount hspawned ?_
    simp [hnext, entrySnapshot, hk]
  | some k =>
    exact .hands k .snapshot [] htask htable hcount hspawned (by simp [hnext, entrySnapshot, hk]) (by simp)
      (hs' k hk) rfl (.inr (.inl rfl))

theorem Seen.leave (s' : RouterState) (htask : task.isOwn = true)
    (htable : s'.executorTable = s.executorTable) (hcount : s'.nextExecutor = s.nextExecutor) (m : String)
    (error : Option EngineError) : Seen s task (s'.leave m error) := by
  refine .nothing htask htable hcount rfl fun t ht => ?_
  obtain ⟨error, -, rfl⟩ := List.mem_map.mp ht
  rfl

/-- **Every step, as the executors see it.** -/
theorem Ran.seen (h : Ran s task input e) (ht : Tables s (task ::ₘ bag)) : Seen s task e := by
  cases h with
  | aside hcharge hown hnext =>
    have htask := RouterTask.isOwn_of_onExecutor hown
    rcases hnext with ⟨error, rfl⟩ | rfl | ⟨m, rfl⟩
    · exact .next htask rfl rfl rfl
    · exact .nothing htask rfl rfl rfl (by simp)
    · exact .snapshot s htask rfl rfl rfl rfl fun k hk => (ht.registered m k hk).1
  | @stream k request hex hk hloaded =>
    exact .hands k _ [] rfl rfl rfl rfl rfl (by simp) (ht.registered _ k hk).1 rfl (.inl ⟨rfl, rfl⟩)
  | executor hk hrun => exact .executor hk hrun
  | @begins _ _ m lifecycle f next task' hcharge hown hsettled hf hlifecycle hcharge' hnext =>
    have htask := RouterTask.isOwn_of_onExecutor hown
    rcases hnext with rfl | ⟨k, hk, rfl⟩
    · exact .next htask rfl rfl (isOwn_of_charge hcharge')
    · exact .hands k .beginShutdown [task'] htask rfl rfl rfl rfl
        (List.forall_mem_singleton.mpr (isOwn_of_charge hcharge')) (ht.registered m k hk).1 rfl
        (.inr (.inr rfl))
  | passes hcharge hcharge' => exact .next (isOwn_of_charge hcharge) rfl rfl (isOwn_of_charge hcharge')
  | startExecutor call r k => exact .starts call r k
  | givesUp error hcharge => exact .next (isOwn_of_charge hcharge) rfl rfl rfl
  | buildRuntime call spec => exact .next rfl rfl rfl rfl
  | loadRuntime call r => exact .next rfl rfl rfl rfl
  | buildExecutor call r => exact .builds call r
  | breaksOff error hcharge => exact Seen.leave (s := s) s (isOwn_of_charge hcharge) rfl rfl _ _
  | fails error hcharge => exact Seen.leave (s := s) (s.modifyState _ _) (isOwn_of_charge hcharge) rfl rfl _ _
  | register call r k gpuUsedAfterMib =>
    have hmine := ht.holds_task (c := ⟨call.modelName, .loading, some r, some k⟩) rfl
    refine .snapshot (s.register call r k gpuUsedAfterMib).state (m := call.modelName) rfl rfl rfl rfl rfl
      fun j hj => ?_
    have hj : (s.engine.executors.set call.modelName k).get? call.modelName = some j := hj
    rw [Dict.get?_set_self] at hj
    obtain rfl := Option.some.inj hj
    exact (hmine.executor k rfl).1
  | drained modelName deadline now => exact .next rfl rfl rfl rfl
  | closed modelName k r => exact .next rfl rfl rfl rfl
  | closeRaised modelName k r error => exact Seen.leave (s := s) (s.close r) rfl rfl rfl _ _
  | finishUnload modelName k r =>
    exact .snapshot (s.finishUnload modelName k r).state (m := modelName) rfl rfl rfl rfl rfl
      fun j hj => (ht.registered modelName j hj).1

/-- **Every thread stays tidy.** -/
theorem Seen.tidy (h : Seen s task e) (hthread : Tidy (task :: rest)) :
    Tidy (e.next ++ rest) ∧ ∀ tasks ∈ e.spawned, Tidy tasks := by
  cases h with
  | @executor k t i effect hk hrun =>
    obtain ⟨ts, own, rfl, hown⟩ := hthread.executor_rest
    refine ⟨⟨k, effect.next ++ ts, own, by simp [afterExecutor], hown⟩, fun tasks htasks => ?_⟩
    obtain ⟨tasks', -, rfl⟩ := List.mem_map.mp htasks
    exact ⟨k, tasks', [], by simp, by simp⟩
  | builds call r =>
    refine ⟨.of_own ?_, by simp [RouterState.buildExecutor]⟩
    simpa [RouterState.buildExecutor, RouterTask.isOwn] using hthread.own_rest rfl
  | starts call r k =>
    refine ⟨.of_own ?_, List.forall_mem_singleton.mpr ⟨k, [.runLoop], [], rfl, by simp⟩⟩
    simpa [RouterTask.isOwn] using hthread.own_rest rfl
  | hands k t own htask htable hcount hspawned hnext hown =>
    rw [hnext, hspawned]
    refine ⟨⟨k, [t], own ++ rest, by simp, fun t' ht => ?_⟩, by simp⟩
    exact (List.mem_append.mp ht).elim (hown t') (hthread.own_rest htask t')
  | nothing htask htable hcount hspawned hown =>
    rw [hspawned]
    refine ⟨.of_own fun t ht => ?_, by simp⟩
    exact (List.mem_append.mp ht).elim (hown t) (hthread.own_rest htask t)

/-! ### Which dispatchers are started -/

/-- A call that only passes on has the executor it had. -/
theorem building_of_passes {t : RouterTask} (hrun : s.run task input = some { state := s, next := [t] })
    {m : String} {r : RuntimeId} {k : ExecutorId} {b : Bool} (hcharge : task.charge = some ⟨m, .loading, some r, some k⟩)
    (hbuilding : t.building = some (k, b)) : task.building = some (k, b) ∧ b = true := by
  cases task with
  | startExecutor call r' j =>
    cases input with
    | raises error =>
      simp only [RouterState.run, Option.some.injEq, Effect.mk.injEq, List.cons.injEq] at hrun
      obtain ⟨-, ⟨rfl, -⟩, -⟩ := hrun
      cases hbuilding
    | _ => simp [RouterState.run] at hrun
  | queryGpuAfter call r' j =>
    obtain ⟨-, -, -, rfl⟩ : call.modelName = m ∧ True ∧ r' = r ∧ j = k := by simpa [RouterTask.charge] using hcharge
    cases input with
    | subprocess result =>
      simp only [RouterState.run, Option.some.injEq, queryGpuAfter] at hrun
      split at hrun
      next used hused =>
        obtain rfl : RouterTask.register call r' j used = t := by simpa using hrun
        cases hbuilding
        exact ⟨rfl, rfl⟩
      next error herror =>
        obtain ⟨-, rfl⟩ : _ ∧ RouterTask.raised error = t := by simpa [leave] using hrun
        cases hbuilding
    | _ => simp [RouterState.run] at hrun
  | register call r' j gpuUsedAfterMib =>
    simp only [RouterState.run, Option.some.injEq] at hrun
    have hnext : (s.register call r' j gpuUsedAfterMib).next = [t] := by rw [hrun]
    have hmem : t ∈ (s.register call r' j gpuUsedAfterMib).next := by simp [hnext]
    obtain ⟨j', -, rfl⟩ := List.mem_map.mp hmem
    cases hbuilding
  | _ => simp [RouterTask.charge] at hcharge

/-- A call comes by its executor when it builds it, and its dispatcher is started by
the task that says so. -/
theorem building_of_run (hrun : s.run task input = some e) {t : RouterTask} (ht : t ∈ e.left) {k : ExecutorId}
    {b : Bool} (hbuilding : t.building = some (k, b)) :
    (s.nextExecutor < e.state.nextExecutor ∧ k = s.nextExecutor ∧ b = false) ∨
      (e.spawned ≠ [] ∧ (∃ call r, task = .startExecutor call r k) ∧ b = true) ∨
      task.building = some (k, b) ∧ b = true := by
  obtain ⟨m, r, hcharge'⟩ := RouterTask.charge_of_building hbuilding
  have hmem : (⟨m, .loading, some r, some k⟩ : Charge) ∈ charges e.left :=
    (Multiset.mem_filterMap _ _).mpr ⟨t, ht, hcharge'⟩
  have hnone : charges e.left ≠ 0 := fun heq => Multiset.notMem_zero _ (heq ▸ hmem)
  have hone : ∀ {state : RouterState} {task' : RouterTask}, t ∈ Effect.left { state := state, next := [task'] } →
      task'.building = none → False := fun hmem hquiet => by
    obtain rfl := Multiset.mem_singleton.mp hmem
    cases hbuilding.symm.trans hquiet
  cases ran_of_run hrun with
  | aside hcharge hown hnext => exact absurd (charges_aside hnext) hnone
  | stream request hex hk => exact absurd (charges_next _ _) hnone
  | @executor j t' i effect hk heffect => exact absurd (charges_afterExecutor j t' effect) hnone
  | begins task' hcharge hown hsettled hf hlifecycle hfirst hnext =>
    rw [charges_begins hfirst hnext] at hmem
    cases Multiset.mem_singleton.mp hmem
  | @passes _ _ task' c hcharge hpasses =>
    obtain rfl := Multiset.mem_singleton.mp ht
    exact .inr (.inr (building_of_passes hrun (hcharge.trans (hpasses.symm.trans hcharge')) hbuilding))
  | startExecutor call r' j =>
    have hcases : t = .queryGpuAfter call r' j ∨ t = .executor j .runLoop := by simpa [Effect.left] using ht
    rcases hcases with rfl | rfl <;> cases hbuilding
    exact .inr (.inl ⟨by simp, ⟨call, r', rfl⟩, rfl⟩)
  | givesUp error => exact (hone ht rfl).elim
  | buildRuntime call spec => exact (hone ht rfl).elim
  | loadRuntime call r' => exact (hone ht rfl).elim
  | buildExecutor call r' =>
    obtain rfl := Multiset.mem_singleton.mp ht
    cases hbuilding
    exact .inl ⟨Nat.lt_succ_self _, rfl, rfl⟩
  | breaksOff error => exact absurd (charges_leave _ _ _) hnone
  | fails error => exact absurd (charges_leave _ _ _) hnone
  | register call r' j gpuUsedAfterMib => exact absurd (charges_register _ _ _ _) hnone
  | drained modelName deadline now => exact (hone ht rfl).elim
  | closed modelName j r' => exact (hone ht rfl).elim
  | closeRaised modelName j r' error => exact absurd (charges_leave _ _ _) hnone
  | finishUnload modelName j r' => exact absurd (charges_finishUnload _ _ _) hnone

/-- An executor is registered by a call whose dispatcher is started. -/
theorem Ran.registered (h : Ran s task input e) {m : String} {k : ExecutorId}
    (hk : e.state.engine.executors.get? m = some k) :
    s.engine.executors.get? m = some k ∨ task.building = some (k, true) := by
  cases h with
  | @executor j t i effect hj hrun =>
    rw [(fixed_afterExecutor j t effect).executors] at hk
    exact .inl hk
  | register call r j gpuUsedAfterMib =>
    have hk : (s.engine.executors.set call.modelName j).get? m = some k := hk
    by_cases hm : m = call.modelName
    · rw [hm, Dict.get?_set_self] at hk
      obtain rfl := Option.some.inj hk
      exact .inr rfl
    · exact .inl (by rwa [Dict.get?_set_of_ne _ hm] at hk)
  | drained modelName deadline now =>
    have hk : (s.engine.executors.erase modelName).get? m = some k := hk
    by_cases hm : m = modelName
    · rw [hm, Dict.get?_erase_self] at hk
      cases hk
    · exact .inl (by rwa [Dict.get?_erase_of_ne _ hm] at hk)
  | _ => exact .inl hk

/-- What a runtime is built with stays. -/
theorem Ran.runtimeSpec (h : Ran s task input e) {r : RuntimeId} (hr : r < s.nextRuntime) :
    (e.state.runtimeTable r).toRuntimeSpec = (s.runtimeTable r).toRuntimeSpec := by
  have hset : ∀ (r' : RuntimeId) (runtime : TTSRuntime), runtime.toRuntimeSpec = (s.runtimeTable r').toRuntimeSpec →
      ((s.setRuntime r' runtime).runtimeTable r).toRuntimeSpec = (s.runtimeTable r).toRuntimeSpec := by
    intro r' runtime hspec
    by_cases heq : r = r'
    · rw [heq, setRuntime_self, hspec]
    · rw [setRuntime_of_ne heq]
  cases h with
  | @executor k t i effect hk hrun => rw [afterExecutor_runtimeTable]
  | buildRuntime call spec => exact congrArg (·.toRuntimeSpec) (addRuntime_of_lt hr _)
  | loadRuntime call r' => exact hset r' _ rfl
  | closed modelName k r' => exact hset r' _ rfl
  | closeRaised modelName k r' error => exact hset r' _ rfl
  | _ => rfl

/-- No other call has the executor. -/
theorem Ok.building_others (h : Ok s (task ::ₘ bag)) {k : ExecutorId} {b b' : Bool}
    (hbuilding : task.building = some (k, b)) {t : RouterTask} (ht : t ∈ bag) : t.building ≠ some (k, b') := by
  intro hother
  obtain ⟨m, r, hcharge⟩ := RouterTask.charge_of_building hbuilding
  obtain ⟨m', r', hcharge'⟩ := RouterTask.charge_of_building hother
  have hmem : (⟨m', .loading, some r', some k⟩ : Charge) ∈ charges bag :=
    (Multiset.mem_filterMap _ _).mpr ⟨t, ht, hcharge'⟩
  refine h.charged.others hcharge _ hmem ?_
  rw [← h.tables.modelName_of_holds (h.tables.holds_task hcharge) (k := k) rfl]
  exact (h.tables.modelName_of_holds (h.tables.holds_bag hmem) rfl).symm

end RouterState
end TtsPool
