/-
# The executors behind the router

The tasks of the threads of executor `k` are those of the router's bag that
stand under its number (`tasksOf`).  `Serving` says that every executor ever
built satisfies its own invariants with them: where its requests are, and where
their calls of `_stream_finished` are.  A step of the router is, to the
executors, a step of one of them, a new one, or tasks handed to one
(`Ran.handing`), so the executor's lemmas carry over (`Serving.run`).
-/

import TtsPool.Router.Registry
import TtsPool.Executor.Calls

namespace TtsPool

open Threads (Effect)

/-- The tasks of executor `k`. -/
abbrev tasksOf (k : ExecutorId) (bag : Multiset RouterTask) : Multiset ExecutorTask :=
  bag.filterMap (RouterTask.onExecutor k)

/-- The tasks an executor's thread goes on with, under its number. -/
theorem tasksOf_map (j k : ExecutorId) (tasks : List ExecutorTask) :
    tasksOf j (tasks.map (RouterTask.executor k) : List RouterTask) =
      if k = j then (tasks : Multiset ExecutorTask) else 0 := by
  rw [tasksOf, Multiset.filterMap_coe, List.filterMap_map]
  split_ifs with h
  · subst h
    have : RouterTask.onExecutor k ∘ RouterTask.executor k = some := funext (RouterTask.onExecutor_self k)
    rw [this, List.filterMap_some]
  · have : RouterTask.onExecutor j ∘ RouterTask.executor k = fun _ => none :=
      funext (RouterTask.onExecutor_of_ne h)
    rw [this]
    simp

theorem tasksOf_add (k : ExecutorId) (bag bag' : Multiset RouterTask) :
    tasksOf k (bag + bag') = tasksOf k bag + tasksOf k bag' := Multiset.filterMap_add _ _ _

/-- The router's own tasks are none of an executor's. -/
theorem tasksOf_eq_zero {k : ExecutorId} {bag : Multiset RouterTask}
    (h : ∀ task ∈ bag, task.onExecutor k = none) : tasksOf k bag = 0 := by
  refine Multiset.eq_zero_of_forall_notMem fun t ht => ?_
  obtain ⟨task, htask, hown⟩ := (Multiset.mem_filterMap _ _).mp ht
  cases (h task htask).symm.trans hown

theorem tasksOf_cons_of_none {k : ExecutorId} {task : RouterTask} (h : task.onExecutor k = none)
    (bag : Multiset RouterTask) : tasksOf k (task ::ₘ bag) = tasksOf k bag :=
  Multiset.filterMap_cons_none _ _ h

namespace RouterState

variable {s : RouterState} {task : RouterTask} {bag : Multiset RouterTask} {e : Step} {input : RouterInput}

/-- The requests sent to executor `k`. -/
def requests (s : RouterState) (bag : Multiset RouterTask) (k : ExecutorId) : ℕ :=
  (s.executorTable k).state.requests (tasksOf k bag)

/-- The calls of `_stream_finished` made for requests of executor `k`. -/
def finishedStreams (s : RouterState) (k : ExecutorId) : ℕ := (s.executorTable k).state.streamsFinished.length

/-- A task that may be handed to an executor's threads. -/
structure Handed (modelName : String) (task : ExecutorTask) : Prop where
  idle : ExecutorState.Idle task
  proper : task.Proper modelName
  calls : task.calls = 0

/-- A call from outside, of an executor's or a handle's method. -/
structure Outside (task : ExecutorTask) : Prop where
  handed : ∀ modelName, Handed modelName task
  opens : task.opens = false

/-- **Every executor keeps its invariants**, with its tasks among the router's. -/
structure Serving (s : RouterState) (bag : Multiset RouterTask) : Prop where
  ok : ∀ k < s.nextExecutor, (s.executorTable k).state.Ok (tasksOf k bag)
  served : ∀ k < s.nextExecutor,
    ExecutorState.Served (s.executorTable k).modelName (s.executorTable k).state (tasksOf k bag)
  fresh : ∀ k, s.nextExecutor ≤ k → ∀ t ∈ tasksOf k bag, Outside t

/-- Handing tasks over keeps the invariants of the executor that gets them. -/
theorem handed_ok {modelName : String} {state : ExecutorState} {tasks : Multiset ExecutorTask}
    (hok : state.Ok tasks) (hserved : ExecutorState.Served modelName state tasks)
    {handed : Multiset ExecutorTask} (hhanded : ∀ t ∈ handed, Handed modelName t) :
    state.Ok (handed + tasks) ∧ ExecutorState.Served modelName state (handed + tasks) := by
  induction handed using Multiset.induction with
  | empty =>
    rw [zero_add]
    exact ⟨hok, hserved⟩
  | cons t handed ih =>
    obtain ⟨ihok, ihserved⟩ := ih fun t' ht => hhanded t' (Multiset.mem_cons_of_mem ht)
    have ht := hhanded t (Multiset.mem_cons_self ..)
    rw [Multiset.cons_add]
    exact ⟨ihok.spawn ht.idle, ihserved.spawn ht.proper ht.calls⟩

/-- The executors as they were, with the tasks in `handed` handed to `k`, and
the count of its model raised by the streams to be opened among them; only a
loaded model's executor is handed any. -/
structure Hands (s : RouterState) (task : RouterTask) (e : Step) (k : ExecutorId)
    (handed : Multiset ExecutorTask) : Prop where
  table : e.state.executorTable = s.executorTable
  next : e.state.nextExecutor = s.nextExecutor
  own : ∀ j, task.onExecutor j = none
  tasks : ∀ j, tasksOf j e.left = if j = k then handed else 0
  given : ∀ t ∈ handed, k < s.nextExecutor ∧ Handed (s.executorTable k).modelName t
  inflight : ∀ m, e.state.inflight m = s.inflight m +
    if (s.executorTable k).modelName = m then handed.countP (fun t => t.opens = true) else 0
  opening : 0 < handed.countP (fun t => t.opens = true) →
    ∃ m, s.engine.executors.get? m = some k ∧ s.lifecycle? m = some .loaded

/-- What a step is to the executors. -/
inductive Handing (s : RouterState) : RouterTask → Step → Prop
  | executor {k t i effect} (hk : k < s.nextExecutor)
      (hrun : (s.executorTable k).state.run t i = some effect) :
      Handing s (.executor k t) (s.afterExecutor k t effect)
  | buildExecutor (call r) : Handing s (.buildExecutor call r) (s.buildExecutor call r)
  | hands {task : RouterTask} {e : Step} (k handed) (hh : Hands s task e k handed) : Handing s task e

theorem Hands.nothing (htable : e.state.executorTable = s.executorTable)
    (hnext : e.state.nextExecutor = s.nextExecutor) (hown : ∀ k, task.onExecutor k = none)
    (hleft : ∀ task' ∈ e.left, ∀ k, task'.onExecutor k = none)
    (hinflight : ∀ m, e.state.inflight m = s.inflight m) : Hands s task e 0 0 where
  table := htable
  next := hnext
  own := hown
  tasks := fun j => by
    rw [tasksOf_eq_zero fun task' htask => hleft task' htask j, ite_self]
  given := fun _ h => absurd h (Multiset.notMem_zero _)
  inflight := fun m => by
    rw [hinflight, Multiset.countP_zero, ite_self]
    rfl
  opening := fun h => absurd h (lt_irrefl 0)

/-- One task handed to an executor, beside tasks of the router's own. -/
theorem Hands.one {m : String} {k : ExecutorId} {t : ExecutorTask} (own : Multiset RouterTask)
    (hlt : k < s.nextExecutor) (hname : (s.executorTable k).modelName = m)
    (htable : e.state.executorTable = s.executorTable)
    (hnext : e.state.nextExecutor = s.nextExecutor) (hown : ∀ k, task.onExecutor k = none)
    (hleft : e.left = .executor k t ::ₘ own) (howned : ∀ task' ∈ own, ∀ k, task'.onExecutor k = none)
    (hhanded : Handed m t)
    (hinflight : ∀ m', e.state.inflight m' = s.inflight m' + if m = m' ∧ t.opens = true then 1 else 0)
    (hopening : t.opens = true → ∃ m, s.engine.executors.get? m = some k ∧ s.lifecycle? m = some .loaded) :
    Hands s task e k {t} := by
  refine ⟨htable, hnext, hown, fun j => ?_, fun t' ht' => ?_, fun m' => ?_, fun hpos => ?_⟩
  · rw [hleft]
    by_cases hj : j = k
    · subst hj
      rw [if_pos rfl, tasksOf, Multiset.filterMap_cons_some _ _ _ (RouterTask.onExecutor_self j t)]
      exact congrArg _ (tasksOf_eq_zero fun task' htask => howned task' htask j)
    · rw [if_neg hj, tasksOf_cons_of_none (RouterTask.onExecutor_of_ne (Ne.symm hj) t)]
      exact tasksOf_eq_zero fun task' htask => howned task' htask j
  · obtain rfl := Multiset.mem_singleton.mp ht'
    exact ⟨hlt, hname ▸ hhanded⟩
  · rw [hinflight, hname, ← Multiset.cons_zero, Multiset.countP_cons, Multiset.countP_zero]
    by_cases hm : m = m' <;> simp [hm]
  · obtain ⟨t', ht', hopens⟩ := Multiset.countP_pos.mp hpos
    exact hopening (Multiset.mem_singleton.mp ht' ▸ hopens)

/-- A snapshot of the executor registered for a model, if there is one. -/
theorem Hands.snapshot (task : RouterTask) (s' : RouterState) {m : String}
    (hs' : ∀ k, s'.engine.executors.get? m = some k → k < s.nextExecutor)
    (htable : e.state.executorTable = s.executorTable)
    (hnext : e.state.nextExecutor = s.nextExecutor) (hown : ∀ k, task.onExecutor k = none)
    (hleft : e.left = (s'.entrySnapshot m : Multiset RouterTask))
    (hinflight : ∀ m', e.state.inflight m' = s.inflight m') : ∃ k handed, Hands s task e k handed := by
  cases hk : s'.engine.executors.get? m with
  | none =>
    refine ⟨0, 0, .nothing htable hnext hown (fun task' htask => ?_) hinflight⟩
    rw [hleft, entrySnapshot, hk] at htask
    cases htask
  | some k =>
    refine ⟨k, {.snapshot}, .one 0 (t := .snapshot) (hs' k hk) rfl htable hnext hown ?_
      (fun _ htask => absurd htask (Multiset.notMem_zero _)) ⟨⟨rfl, rfl, rfl, rfl⟩, trivial, rfl⟩ (fun m' => ?_)
      nofun⟩
    · rw [hleft, entrySnapshot, hk]
      rfl
    · rw [hinflight, if_neg (by simp [ExecutorTask.opens]), add_zero]

/-- The tasks of an executor after a step that hands some to one. -/
theorem Hands.tasksOf {k : ExecutorId} {handed : Multiset ExecutorTask} (h : Hands s task e k handed)
    (j : ExecutorId) (bag : Multiset RouterTask) : tasksOf j (e.left + bag) =
      (if j = k then handed else 0) + TtsPool.tasksOf j (task ::ₘ bag) := by
  rw [tasksOf_add, tasksOf_cons_of_none (h.own j)]
  exact congrArg (· + TtsPool.tasksOf j bag) (h.tasks j)

theorem Serving.hands {k : ExecutorId} {handed : Multiset ExecutorTask} (h : Serving s (task ::ₘ bag))
    (hh : Hands s task e k handed) : Serving e.state (e.left + bag) := by
  have hkeep : ∀ j < s.nextExecutor, (s.executorTable j).state.Ok (tasksOf j (e.left + bag)) ∧
      ExecutorState.Served (s.executorTable j).modelName (s.executorTable j).state
        (tasksOf j (e.left + bag)) := by
    intro j hj
    rw [hh.tasksOf]
    by_cases hjk : j = k
    · subst hjk
      rw [if_pos rfl]
      exact handed_ok (h.ok j hj) (h.served j hj) fun t ht => (hh.given t ht).2
    · rw [if_neg hjk, zero_add]
      exact ⟨h.ok j hj, h.served j hj⟩
  refine ⟨?_, ?_, ?_⟩
  · rw [hh.next, hh.table]
    exact fun j hj => (hkeep j hj).1
  · rw [hh.next, hh.table]
    exact fun j hj => (hkeep j hj).2
  · intro j hj t ht
    rw [hh.next] at hj
    rw [hh.tasksOf, Multiset.mem_add] at ht
    rcases ht with ht | ht
    · by_cases hjk : j = k
      · subst hjk
        rw [if_pos rfl] at ht
        exact absurd (hh.given t ht).1 (not_lt.mpr hj)
      · rw [if_neg hjk] at ht
        exact absurd ht (Multiset.notMem_zero t)
    · exact h.fresh j hj t ht

theorem afterExecutor_table (k : ExecutorId) (t : ExecutorTask) (effect : Effect ExecutorState ExecutorTask) :
    (s.afterExecutor k t effect).state.executorTable =
      Function.update s.executorTable k { s.executorTable k with state := effect.state } := by
  obtain ⟨engine, -, -, hstate⟩ := afterExecutor_state s k t effect
  rw [hstate]
  rfl

/-- The tasks of the executors after a step of `k`. -/
theorem tasksOf_afterExecutor (j k : ExecutorId) (t : ExecutorTask)
    (effect : Effect ExecutorState ExecutorTask) (bag : Multiset RouterTask) :
    tasksOf j ((s.afterExecutor k t effect).left + bag) =
      (if k = j then effect.left else 0) + tasksOf j bag := by
  rw [tasksOf_add, afterExecutor_left, tasksOf_map]
  rfl

theorem tasksOf_cons_executor (j k : ExecutorId) (t : ExecutorTask) (bag : Multiset RouterTask) :
    tasksOf j (.executor k t ::ₘ bag) = (if k = j then {t} else 0) + tasksOf j bag := by
  by_cases hk : k = j
  · subst hk
    rw [tasksOf, Multiset.filterMap_cons_some _ _ _ (RouterTask.onExecutor_self k t), if_pos rfl,
      Multiset.singleton_add]
  · rw [tasksOf_cons_of_none (RouterTask.onExecutor_of_ne hk t), if_neg hk, zero_add]

theorem Serving.executor {k : ExecutorId} {t : ExecutorTask} {input : ExecutorInput}
    {effect : Effect ExecutorState ExecutorTask} (h : Serving s (.executor k t ::ₘ bag))
    (hk : k < s.nextExecutor) (hrun : (s.executorTable k).state.run t input = some effect) :
    Serving (s.afterExecutor k t effect).state ((s.afterExecutor k t effect).left + bag) := by
  have hok := h.ok k hk
  have hserved := h.served k hk
  rw [tasksOf_cons_executor, if_pos rfl, Multiset.singleton_add] at hok hserved
  have hkeep : ∀ j < s.nextExecutor,
      ((s.afterExecutor k t effect).state.executorTable j).state.Ok
        (tasksOf j ((s.afterExecutor k t effect).left + bag)) ∧
      ExecutorState.Served ((s.afterExecutor k t effect).state.executorTable j).modelName
        ((s.afterExecutor k t effect).state.executorTable j).state
        (tasksOf j ((s.afterExecutor k t effect).left + bag)) := by
    intro j hj
    rw [tasksOf_afterExecutor, afterExecutor_table]
    by_cases hjk : k = j
    · subst hjk
      rw [if_pos rfl, Function.update_self]
      exact ⟨hok.run hrun, hserved.run hok hrun⟩
    · rw [if_neg hjk, zero_add, Function.update_of_ne (Ne.symm hjk)]
      have hold := tasksOf_cons_of_none (RouterTask.onExecutor_of_ne hjk t) bag
      exact ⟨hold ▸ h.ok j hj, hold ▸ h.served j hj⟩
  have hnext : (s.afterExecutor k t effect).state.nextExecutor = s.nextExecutor :=
    (fixed_afterExecutor k t effect).nextExecutor
  refine ⟨fun j hj => (hkeep j (hnext ▸ hj)).1, fun j hj => (hkeep j (hnext ▸ hj)).2, fun j hj t' ht' => ?_⟩
  rw [hnext] at hj
  have hjk : k ≠ j := fun heq => absurd (heq ▸ hk) (not_lt.mpr hj)
  rw [tasksOf_afterExecutor, if_neg hjk, zero_add] at ht'
  exact h.fresh j hj t' (by rwa [tasksOf_cons_of_none (RouterTask.onExecutor_of_ne hjk t)])

theorem buildExecutor_left (call : LoadCall) (r : RuntimeId) (k : ExecutorId) (bag : Multiset RouterTask) :
    tasksOf k ((s.buildExecutor call r).left + bag) = tasksOf k (.buildExecutor call r ::ₘ bag) := by
  rw [tasksOf_add, tasksOf_cons_of_none rfl]
  exact congrArg (· + tasksOf k bag) (tasksOf_eq_zero fun task' htask => by
    obtain rfl : task' = .startExecutor call r s.nextExecutor := by
      simpa [RouterState.buildExecutor, Effect.left] using htask
    rfl) |>.trans (zero_add _)

theorem buildExecutor_table {k : ExecutorId} (h : k ≠ s.nextExecutor) (call : LoadCall) (r : RuntimeId) :
    (s.buildExecutor call r).state.executorTable k = s.executorTable k := Function.update_of_ne h _ _

theorem Serving.buildExecutor {call : LoadCall} {r : RuntimeId}
    (h : Serving s (.buildExecutor call r ::ₘ bag)) :
    Serving (s.buildExecutor call r).state ((s.buildExecutor call r).left + bag) := by
  have hnew : ∃ executor : ServingExecutor,
      (s.buildExecutor call r).state.executorTable s.nextExecutor = executor ∧
      executor.state.Ok (tasksOf s.nextExecutor (.buildExecutor call r ::ₘ bag)) ∧
      ExecutorState.Served executor.modelName executor.state
        (tasksOf s.nextExecutor (.buildExecutor call r ::ₘ bag)) := by
    refine ⟨_, Function.update_self _ _ _, ?_⟩
    have hhanded := h.fresh s.nextExecutor le_rfl
    have hready := handed_ok (ExecutorState.Ok.init call.modelName (s.runtimeTable r).streaming
      call.targetInflight s.engine.settings.fairness (s.runtimeTable r).capability)
      (ExecutorState.Served.init call.modelName _) fun t ht => (hhanded t ht).handed call.modelName
    rwa [add_zero] at hready
  obtain ⟨executor, htable, hok, hserved⟩ := hnew
  have hlt : ∀ k < s.nextExecutor + 1, k < s.nextExecutor ∨ k = s.nextExecutor := fun k hk =>
    Nat.lt_succ_iff_lt_or_eq.mp hk
  refine ⟨fun k hk => ?_, fun k hk => ?_, fun k hk t ht => ?_⟩
  · rw [buildExecutor_left]
    rcases hlt k hk with hk | rfl
    · rw [buildExecutor_table hk.ne]
      exact h.ok k hk
    · rw [htable]
      exact hok
  · rw [buildExecutor_left]
    rcases hlt k hk with hk | rfl
    · rw [buildExecutor_table hk.ne]
      exact h.served k hk
    · rw [htable]
      exact hserved
  · rw [buildExecutor_left] at ht
    exact h.fresh k ((Nat.le_succ _).trans hk) t ht

/-- The tasks of a call in charge are no executor's. -/
theorem own_next (state : RouterState) {task' : RouterTask} {c : Charge} (hcharge : task'.charge = some c) :
    ∀ t ∈ Effect.left { state := state, next := [task'] }, ∀ k, t.onExecutor k = none := by
  intro t ht k
  obtain rfl := Multiset.mem_singleton.mp ht
  exact RouterTask.onExecutor_of_charge hcharge k

theorem own_leave (s : RouterState) (modelName : String) (error : Option EngineError) :
    ∀ t ∈ (s.leave modelName error).left, ∀ k, t.onExecutor k = none := by
  intro t ht k
  simp only [leave, Effect.left, List.flatten_nil, List.append_nil, Multiset.mem_coe, List.mem_map] at ht
  obtain ⟨error, -, rfl⟩ := ht
  rfl

/-- **What a step is to the executors.** -/
theorem Ran.handing (h : Ran s task input e) (ht : Tables s (task ::ₘ bag)) : Handing s task e := by
  have hown {c : Charge} (hcharge : task.charge = some c) (k : ExecutorId) : task.onExecutor k = none :=
    RouterTask.onExecutor_of_charge hcharge k
  cases h with
  | aside hcharge hown hnext =>
    rcases hnext with ⟨error, rfl⟩ | rfl | ⟨modelName, rfl⟩
    · refine .hands 0 0 (.nothing rfl rfl hown (fun task' htask k => ?_) fun _ => rfl)
      obtain rfl := Multiset.mem_singleton.mp htask
      rfl
    · exact .hands 0 0 (.nothing rfl rfl hown (fun _ htask => absurd htask (Multiset.notMem_zero _)) fun _ => rfl)
    · obtain ⟨k, handed, hh⟩ := Hands.snapshot task s
        (e := { state := s, next := s.entrySnapshot modelName }) (fun k hk => (ht.registered modelName k hk).1)
        rfl rfl hown (Effect.left_of_next rfl) fun _ => rfl
      exact .hands k handed hh
  | @stream k request hex hk hloaded =>
    obtain ⟨hlt, hname⟩ := ht.registered _ k hk
    refine .hands k _ (.one 0 hlt hname rfl rfl (fun _ => rfl) (Effect.left_of_next rfl)
      (fun _ htask => absurd htask (Multiset.notMem_zero _)) ⟨⟨rfl, rfl, rfl, rfl⟩, ⟨rfl, ?_⟩, rfl⟩ (fun m => ?_)
      fun _ => ⟨_, hk, hloaded⟩)
    · intro callback hmem
      obtain rfl := List.mem_singleton.mp hmem
      rfl
    · rw [inflight, modelState?_modifyState]
      by_cases hm : m = pyStrip request.model
      · subst hm
        obtain ⟨state, hstate, -⟩ := Option.map_eq_some_iff.mp hloaded
        rw [if_pos rfl, inflight, hstate]
        simp [ExecutorTask.opens]
      · rw [if_neg hm, if_neg fun h => hm h.1.symm]
        rfl
  | executor hk hrun => exact .executor hk hrun
  | @begins _ _ modelName lifecycle f next task' hcharge hown hsettled hf hlifecycle hcharge' hnext =>
    have hinflight := inflight_modifyState (s := s) (fun state => (hf state).2) modelName
    rcases hnext with rfl | ⟨k, hk, rfl⟩
    · exact .hands 0 0 (.nothing rfl rfl hown (own_next _ hcharge') hinflight)
    · obtain ⟨hlt, hname⟩ := ht.registered _ k hk
      refine .hands k _ (.one {task'} hlt hname rfl rfl hown (Effect.left_of_next rfl)
        (own_next s hcharge') ⟨⟨rfl, rfl, rfl, rfl⟩, trivial, rfl⟩ (fun m => ?_) (by simp [ExecutorTask.opens]))
      rw [hinflight, if_neg (by simp [ExecutorTask.opens]), add_zero]
  | passes hcharge hcharge' hload hfinish =>
    exact .hands 0 0 (.nothing rfl rfl (hown hcharge) (own_next _ hcharge') fun _ => rfl)
  | startExecutor call r k =>
    have hmine := ht.holds_task (c := ⟨call.modelName, .loading, some r, some k⟩) rfl
    refine .hands k _ (.one {.queryGpuAfter call r k} (t := .runLoop) (hmine.executor k rfl).1 rfl rfl rfl
      (fun _ => rfl) (Multiset.pair_comm _ _) (own_next s rfl)
      ⟨⟨rfl, rfl, rfl, rfl⟩, trivial, rfl⟩ (fun m => ?_) (by simp [ExecutorTask.opens]))
    rw [if_neg (by simp [ExecutorTask.opens]), add_zero]
  | givesUp error hcharge hruntime =>
    exact .hands 0 0 (.nothing rfl rfl (hown hcharge) (own_next _ rfl) fun _ => rfl)
  | buildRuntime call spec => exact .hands 0 0 (.nothing rfl rfl (fun _ => rfl) (own_next _ rfl) fun _ => rfl)
  | loadRuntime call r => exact .hands 0 0 (.nothing rfl rfl (fun _ => rfl) (own_next _ rfl) fun _ => rfl)
  | buildExecutor call r => exact .buildExecutor call r
  | breaksOff error hcharge hlifecycle hbreaks hruntime =>
    exact .hands 0 0 (.nothing rfl rfl (hown hcharge) (own_leave _ _ _) fun _ => rfl)
  | fails error hcharge hf =>
    exact .hands 0 0 (.nothing rfl rfl (hown hcharge) (own_leave _ _ _)
      (inflight_modifyState (fun state => (hf state).2) _))
  | register call r k gpuUsedAfterMib input =>
    have hmine := ht.holds_task (c := ⟨call.modelName, .loading, some r, some k⟩) rfl
    obtain ⟨j, handed, hh⟩ := Hands.snapshot (.register call r k gpuUsedAfterMib)
      (s.register call r k gpuUsedAfterMib).state (s := s) (e := s.register call r k gpuUsedAfterMib)
      (m := call.modelName) (fun j hj => by
        have hj : (s.engine.executors.set call.modelName k).get? call.modelName = some j := hj
        rw [Dict.get?_set_self] at hj
        obtain rfl := Option.some.inj hj
        exact (hmine.executor k rfl).1)
      rfl rfl (fun _ => rfl) (Effect.left_of_next rfl) (register_inflight _ _ _ _)
    exact .hands j handed hh
  | drained modelName deadline now hnone =>
    exact .hands 0 0 (.nothing rfl rfl (fun _ => rfl) (own_next _ rfl) fun _ => rfl)
  | closed modelName k r => exact .hands 0 0 (.nothing rfl rfl (fun _ => rfl) (own_next _ rfl) fun _ => rfl)
  | closeRaised modelName k r error =>
    exact .hands 0 0 (.nothing rfl rfl (fun _ => rfl) (own_leave _ _ _) fun _ => rfl)
  | finishUnload modelName k r input =>
    obtain ⟨j, handed, hh⟩ := Hands.snapshot (.finishUnload modelName k r) (s.finishUnload modelName k r).state
      (s := s) (e := s.finishUnload modelName k r) (m := modelName)
      (fun j hj => (ht.registered modelName j hj).1) rfl rfl (fun _ => rfl) (Effect.left_of_next rfl)
      (finishUnload_inflight _ _ _)
    exact .hands j handed hh

/-- **A step keeps the executors' invariants.** -/
theorem Serving.run (h : Serving s (task ::ₘ bag)) (hh : Handing s task e) :
    Serving e.state (e.left + bag) := by
  cases hh with
  | executor hk hrun => exact h.executor hk hrun
  | buildExecutor call r => exact h.buildExecutor
  | hands k handed hh => exact h.hands hh

end RouterState
end TtsPool
