/-
# An executor behind the router is an executor

`LoadedModelExecutor` is verified with the threads around it, called by anybody in
any order.  In the engine it is called by the engine: by streams of its model, an
unload, the snapshots of the admin methods and the handles' callers.

`executor_alone`: what an executor does behind the router, under any schedule of
calls, is what it does by itself under some schedule of its own calls.  An executor
whose dispatcher has not been started, because the call that built it has not got so
far or has failed, has been sent no request.  So what is proved of every executor by
itself holds of each one in the engine.
-/

import TtsPool.Router.Threads

namespace TtsPool

open Threads (Effect Config live Shows)

namespace RouterState

variable {s : RouterState} {task : RouterTask} {bag : Multiset RouterTask} {e : Step} {input : RouterInput}
  {rest : List RouterTask} {pre post : List (List RouterTask)}

/-! ### Every executor by itself -/

/-- Executor `k` does what it does by itself, on its runtime, but for a dispatcher not
started. -/
def Plays (s : RouterState) (threads : List (List RouterTask)) (k : ExecutorId)
    (held : Multiset (List ExecutorTask)) : Prop :=
  let executor := s.executorTable k
  let runtime := s.runtimeTable executor.runtime
  ∃ configuredTargetInflight actions,
    Shows (ExecutorState.after executor.modelName runtime.streaming configuredTargetInflight
      s.engine.settings.fairness runtime.capability actions) executor.state (threadsOf k threads) held

/-- Executor `k` as it was, on the runtime it was on. -/
structure SameExecutor (s s' : RouterState) (k : ExecutorId) : Prop where
  table : s'.executorTable k = s.executorTable k
  spec : (s'.runtimeTable (s.executorTable k).runtime).toRuntimeSpec =
    (s.runtimeTable (s.executorTable k).runtime).toRuntimeSpec
  settings : s'.engine.settings = s.engine.settings

/-- The dispatchers that are not started. -/
def heldBack (started : ExecutorId → Bool) (k : ExecutorId) : Multiset (List ExecutorTask) :=
  if started k then 0 else {[.runLoop]}

/-- **Every executor by itself**, and which have their dispatcher. -/
structure Playing (s : RouterState) (threads : List (List RouterTask)) (started : ExecutorId → Bool) : Prop where
  plays : ∀ k < s.nextExecutor, s.Plays threads k (heldBack started k)
  fresh : ∀ k, s.nextExecutor ≤ k → ∀ tasks ∈ live (threadsOf k threads), ∃ t, tasks = [t] ∧ t.entry = true
  tidy : ∀ tasks ∈ threads, Tidy tasks
  registered : ∀ m k, s.engine.executors.get? m = some k → started k = true
  building : ∀ task ∈ threads.flatten, ∀ k b, task.building = some (k, b) → k < s.nextExecutor ∧ started k = b
  unstarted : ∀ k < s.nextExecutor, started k = false → s.requests ↑threads.flatten k = 0

/-- What an executor's threads are, before and after one of the engine's has run a
task of its own. -/
theorem live_threadsOf_own {j : ExecutorId} {next : List RouterTask} {spawned : List (List RouterTask)}
    (hthread : Tidy (task :: rest)) (htask : task.isOwn = true) :
    live (threadsOf j (pre ++ (next ++ rest) :: post ++ spawned)) =
      live [next.filterMap (RouterTask.onExecutor j)] + live (threadsOf j spawned) +
        live (threadsOf j (pre ++ (task :: rest) :: post)) := by
  have hrest := filterMap_own (hthread.own_rest htask) j
  have hown : (task :: rest).filterMap (RouterTask.onExecutor j) = [] := by
    rw [List.filterMap_cons_none (RouterTask.onExecutor_of_isOwn htask j), hrest]
  simp only [threadsOf_append, threadsOf_cons, List.filterMap_append, hrest, hown, List.append_nil,
    Threads.live_append, Threads.live_done]
  rw [Threads.live_thread]
  abel

theorem threadsOf_executor_self (k : ExecutorId) (threads : List (List ExecutorTask)) :
    threadsOf k (threads.map (List.map (.executor k))) = threads := by
  rw [threadsOf, List.map_map]
  exact (List.map_congr_left fun tasks _ => filterMap_executor_self k tasks).trans (List.map_id _)

theorem live_threadsOf_executor {j k : ExecutorId} (h : k ≠ j) (threads : List (List ExecutorTask)) :
    live (threadsOf j (threads.map (List.map (.executor k)))) = 0 := by
  induction threads with
  | nil => rfl
  | cons tasks threads ih => rw [List.map_cons, threadsOf_cons, filterMap_executor_of_ne h, Threads.live_done, ih]

/-- Nothing happens to executor `k`. -/
theorem Plays.congr {s' : RouterState} {threads threads' : List (List RouterTask)} {k : ExecutorId}
    {held : Multiset (List ExecutorTask)} (h : s.Plays threads k held) (hsame : SameExecutor s s' k)
    (hlive : live (threadsOf k threads') = live (threadsOf k threads)) : s'.Plays threads' k held := by
  obtain ⟨target, actions, hshows⟩ := h
  refine ⟨target, actions, ?_⟩
  rw [hsame.table, hsame.spec, hsame.settings]
  exact hshows.congr hlive

/-- A call comes to executor `k`. -/
theorem Plays.call {s' : RouterState} {threads threads' : List (List RouterTask)} {k : ExecutorId}
    {t : ExecutorTask} {held : Multiset (List ExecutorTask)} (h : s.Plays threads k held) (hsame : SameExecutor s s' k)
    (hentry : t.entry = true) (hlive : live (threadsOf k threads') = [t] ::ₘ live (threadsOf k threads)) :
    s'.Plays threads' k held := by
  obtain ⟨target, actions, hshows⟩ := h
  refine ⟨target, actions ++ [.call t], ?_⟩
  rw [hsame.table, hsame.spec, hsame.settings, ExecutorState.after, Threads.Program.runs_snoc]
  exact hshows.call hentry hlive

/-- Executor `k` runs a task. -/
theorem Plays.run {k : ExecutorId} {t : ExecutorTask} {i : ExecutorInput}
    {effect : Effect ExecutorState ExecutorTask} {held : Multiset (List ExecutorTask)}
    (h : s.Plays (pre ++ (.executor k t :: rest) :: post) k held)
    (hrun : (s.executorTable k).state.run t i = some effect)
    (hsettings : (s.afterExecutor k t effect).state.engine.settings = s.engine.settings) :
    (s.afterExecutor k t effect).state.Plays
      (pre ++ ((s.afterExecutor k t effect).next ++ rest) :: post ++ (s.afterExecutor k t effect).spawned)
      k held := by
  obtain ⟨target, actions, hshows⟩ := h
  have hthreads : threadsOf k (pre ++ (.executor k t :: rest) :: post) =
      threadsOf k pre ++ (t :: rest.filterMap (RouterTask.onExecutor k)) :: threadsOf k post := by
    rw [threadsOf_append, threadsOf_cons, List.filterMap_cons_some (RouterTask.onExecutor_self k t)]
  have hthreads' : threadsOf k
      (pre ++ ((s.afterExecutor k t effect).next ++ rest) :: post ++ (s.afterExecutor k t effect).spawned) =
      threadsOf k pre ++ (effect.next ++ rest.filterMap (RouterTask.onExecutor k)) :: threadsOf k post ++
        effect.spawned := by
    simp only [threadsOf_append, threadsOf_cons, List.filterMap_append, afterExecutor, filterMap_executor_self,
      threadsOf_executor_self]
  rw [hthreads] at hshows
  obtain ⟨thread, hstep⟩ := hshows.run (p := executorProgram) i hrun
  refine ⟨target, actions ++ [.run thread i], ?_⟩
  rw [hthreads', hsettings, afterExecutor_table, Function.update_self, afterExecutor_runtimeTable,
    ExecutorState.after, Threads.Program.runs_snoc]
  exact hstep

/-- The other executors see nothing of it. -/
theorem live_threadsOf_bystander {j k : ExecutorId} {t : ExecutorTask} {effect : Effect ExecutorState ExecutorTask}
    (hthread : Tidy (.executor k t :: rest)) (hne : k ≠ j) :
    live (threadsOf j
      (pre ++ ((s.afterExecutor k t effect).next ++ rest) :: post ++ (s.afterExecutor k t effect).spawned)) =
      live (threadsOf j (pre ++ (.executor k t :: rest) :: post)) := by
  obtain ⟨ts, own, rfl, hown⟩ := hthread.executor_rest
  simp only [threadsOf_append, threadsOf_cons, List.filterMap_append, filterMap_own hown, List.append_nil,
    List.filterMap_cons_none (RouterTask.onExecutor_of_ne hne t), filterMap_executor_of_ne hne, afterExecutor,
    Threads.live_append, live_threadsOf_executor hne, add_zero]

/-- A new executor, and the calls that have come before there was one. -/
theorem Plays.built {call : LoadCall} {r : RuntimeId} {threads : List (List RouterTask)}
    (hfresh : ∀ tasks ∈ live (threadsOf s.nextExecutor threads), ∃ t, tasks = [t] ∧ ExecutorTask.entry t = true) :
    (s.buildExecutor call r).state.Plays threads s.nextExecutor {[.runLoop]} := by
  let executor := LoadedModelExecutor.new call.modelName (s.runtimeTable r).streaming call.targetInflight
    s.engine.settings.fairness (s.runtimeTable r).capability
  have htable : (s.buildExecutor call r).state.executorTable s.nextExecutor =
      { modelName := call.modelName, runtime := r, state := .init executor } := Function.update_self _ _ _
  have hstart : Shows (ExecutorState.start executor) (.init executor) [] {[.runLoop]} := ⟨rfl, rfl⟩
  obtain ⟨actions, hshows⟩ := hstart.exists_calls executorProgram hfresh
  refine ⟨call.targetInflight, actions, ?_⟩
  rw [htable]
  exact hshows

/-! ### The requests of an executor that is not registered -/

/-- Only a registered executor is sent requests. -/
theorem Handing.requests_eq (h : Handing s task e) (hs : Serving s (task ::ₘ bag)) {k : ExecutorId}
    (hk : k < s.nextExecutor) : e.state.requests (e.left + bag) k = s.requests (task ::ₘ bag) k ∨
      ∃ m, s.engine.executors.get? m = some k := by
  cases h with
  | executor hj hrun => exact .inl (requests_afterExecutor hs hj hrun k)
  | buildExecutor call r =>
    left
    rw [requests, requests, buildExecutor_table hk.ne, buildExecutor_left]
  | hands j handed hh =>
    rw [hh.requests]
    by_cases hopens : 0 < handed.countP fun t => t.opens = true
    · by_cases hkj : k = j
      · obtain ⟨m, hm, -⟩ := hh.opening hopens
        exact .inr ⟨m, hkj ▸ hm⟩
      · exact .inl (by rw [if_neg hkj, Nat.add_zero])
    · rw [Nat.eq_zero_of_not_pos hopens, ite_self, Nat.add_zero]
      exact .inl rfl

theorem requests_buildExecutor {call : LoadCall} {r : RuntimeId} (hs : Serving s (.buildExecutor call r ::ₘ bag)) :
    (s.buildExecutor call r).state.requests ((s.buildExecutor call r).left + bag) s.nextExecutor = 0 := by
  have hhandles : ((s.buildExecutor call r).state.executorTable s.nextExecutor).state.nextHandle = 0 := by
    rw [show (s.buildExecutor call r).state.executorTable s.nextExecutor = _ from Function.update_self _ _ _]
    rfl
  rw [requests, ExecutorState.requests, hhandles, buildExecutor_left, Nat.add_zero]
  exact Multiset.countP_eq_zero.mpr fun t ht => by simp [(hs.fresh _ le_rfl t ht).opens]

/-- What a step does beside the executors' own threads: every thread is still tidy, the
executors registered have their dispatchers, and so have those of the calls that are
past starting one, and the others have been sent nothing. -/
structure Follows (s : RouterState) (started : ExecutorId → Bool) (task : RouterTask) (e : Step)
    (threads : List (List RouterTask)) : Prop where
  same : ∀ k < s.nextExecutor, e.state.executorTable k = s.executorTable k → SameExecutor s e.state k
  tidy : ∀ tasks ∈ threads, Tidy tasks
  registered : ∀ m k, e.state.engine.executors.get? m = some k → k < s.nextExecutor ∧ started k = true
  building : ∀ t ∈ threads.flatten, ∀ k b, t.building = some (k, b) →
    (s.nextExecutor < e.state.nextExecutor ∧ k = s.nextExecutor ∧ b = false) ∨
      (e.spawned ≠ [] ∧ (∃ call r, task = .startExecutor call r k) ∧ b = true) ∨
      k < s.nextExecutor ∧ started k = b ∧ task.building ≠ some (k, false)
  unstarted : ∀ k < s.nextExecutor, started k = false → e.state.requests ↑threads.flatten k = 0

variable {started : ExecutorId → Bool}

theorem Playing.follows (h : Playing s (pre ++ (task :: rest) :: post) started)
    (hok : Ok s (task ::ₘ bag)) (hrun : s.run task input = some e)
    (hbag : (↑(pre ++ (task :: rest) :: post).flatten : Multiset RouterTask) = task ::ₘ bag)
    (hbag' : (↑(pre ++ (e.next ++ rest) :: post ++ e.spawned).flatten : Multiset RouterTask) = e.left + bag) :
    Follows s started task e (pre ++ (e.next ++ rest) :: post ++ e.spawned) := by
  have hran := ran_of_run hrun
  refine ⟨fun k hk htable => ⟨htable, hran.runtimeSpec (hok.tables.runs k hk).1, hran.settings⟩,
    fun tasks htasks => ?_, fun m k hk => ?_, fun t ht k b hb => ?_, fun k hk hnot => ?_⟩
  · obtain ⟨hnext, hspawned⟩ := (hran.seen hok.tables).tidy (h.tidy (task :: rest) (by simp))
    simp only [List.mem_append, List.mem_cons] at htasks
    rcases htasks with (hmem | rfl | hmem) | hmem
    · exact h.tidy tasks (by simp [hmem])
    · exact hnext
    · exact h.tidy tasks (by simp [hmem])
    · exact hspawned tasks hmem
  · rcases hran.registered hk with hold | hnew
    · exact ⟨(hok.tables.registered m k hold).1, h.registered m k hold⟩
    · exact h.building task (by simp) k true hnew
  · rcases Multiset.mem_add.mp (hbag' ▸ Multiset.mem_coe.mpr ht) with ht | ht
    · refine (building_of_run hrun ht hb).imp_right (Or.imp_right ?_)
      rintro ⟨hsame, rfl⟩
      obtain ⟨hlt, hstarted⟩ := h.building task (by simp) k true hsame
      exact ⟨hlt, hstarted, by simp [hsame]⟩
    · have hmem : t ∈ (pre ++ (task :: rest) :: post).flatten :=
        Multiset.mem_coe.mp (hbag ▸ Multiset.mem_cons_of_mem ht)
      obtain ⟨hlt, hstarted⟩ := h.building t hmem k b hb
      exact .inr (.inr ⟨hlt, hstarted, fun hother => hok.building_others hother ht hb⟩)
  · rw [hbag']
    rcases (hran.handing hok.tables).requests_eq hok.serving hk with hsame | ⟨m, hm⟩
    · rw [hsame, ← hbag]
      exact h.unstarted k hk hnot
    · rw [h.registered m k hm] at hnot
      cases hnot

/-- An executor's own step. -/
theorem Playing.executor {k : ExecutorId} {t : ExecutorTask} {i : ExecutorInput}
    {effect : Effect ExecutorState ExecutorTask} (h : Playing s (pre ++ (.executor k t :: rest) :: post) started)
    (hk : k < s.nextExecutor) (hrun : (s.executorTable k).state.run t i = some effect)
    (hsettings : (s.afterExecutor k t effect).state.engine.settings = s.engine.settings)
    (hf : Follows s started (.executor k t) (s.afterExecutor k t effect)
      (pre ++ ((s.afterExecutor k t effect).next ++ rest) :: post ++ (s.afterExecutor k t effect).spawned)) :
    Playing (s.afterExecutor k t effect).state
      (pre ++ ((s.afterExecutor k t effect).next ++ rest) :: post ++ (s.afterExecutor k t effect).spawned)
      started := by
  have hcount : (s.afterExecutor k t effect).state.nextExecutor = s.nextExecutor :=
    (fixed_afterExecutor k t effect).nextExecutor
  have hthread := h.tidy (.executor k t :: rest) (by simp)
  refine ⟨fun j hj => ?_, fun j hj => ?_, hf.tidy, fun m j hj => (hf.registered m j hj).2,
    fun t' ht' j b hb => ?_, fun j hj hnot => hf.unstarted j (hcount ▸ hj) hnot⟩
  · by_cases hjk : k = j
    · subst hjk
      exact (h.plays k hk).run hrun hsettings
    · refine (h.plays j (hcount ▸ hj)).congr (hf.same j (hcount ▸ hj) ?_) (live_threadsOf_bystander hthread hjk)
      rw [afterExecutor_table, Function.update_of_ne (Ne.symm hjk)]
  · rw [hcount] at hj
    rw [live_threadsOf_bystander hthread (hk.trans_le hj).ne]
    exact h.fresh j hj
  · rcases hf.building t' ht' j b hb with ⟨hmore, -⟩ | ⟨-, ⟨_, _, heq⟩, -⟩ | hold
    · exact absurd hmore (hcount ▸ lt_irrefl _)
    · cases heq
    · exact ⟨hcount ▸ hold.1, hold.2.1⟩

/-- A new executor. -/
theorem Playing.builds {call : LoadCall} {r : RuntimeId}
    (h : Playing s (pre ++ (.buildExecutor call r :: rest) :: post) started)
    (hf : Follows s started (.buildExecutor call r) (s.buildExecutor call r)
      (pre ++ ((s.buildExecutor call r).next ++ rest) :: post ++ (s.buildExecutor call r).spawned))
    (hnone : (s.buildExecutor call r).state.requests
      ↑(pre ++ ((s.buildExecutor call r).next ++ rest) :: post ++ (s.buildExecutor call r).spawned).flatten
      s.nextExecutor = 0) :
    Playing (s.buildExecutor call r).state
      (pre ++ ((s.buildExecutor call r).next ++ rest) :: post ++ (s.buildExecutor call r).spawned)
      (Function.update started s.nextExecutor false) := by
  have hthread := h.tidy (.buildExecutor call r :: rest) (by simp)
  have hlive : ∀ j, live (threadsOf j
      (pre ++ ((s.buildExecutor call r).next ++ rest) :: post ++ (s.buildExecutor call r).spawned)) =
      live (threadsOf j (pre ++ (.buildExecutor call r :: rest) :: post)) := fun j => by
    rw [live_threadsOf_own hthread rfl]
    exact zero_add _
  have hle : s.nextExecutor ≤ (s.buildExecutor call r).state.nextExecutor := Nat.le_succ _
  have hlt : ∀ {j}, j < (s.buildExecutor call r).state.nextExecutor → j ≠ s.nextExecutor → j < s.nextExecutor :=
    fun hj hne => lt_of_le_of_ne (Nat.lt_succ_iff.mp hj) hne
  refine ⟨fun j hj => ?_, fun j hj => ?_, hf.tidy, fun m j hj => ?_, fun t' ht' j b hb => ?_, fun j hj hnot => ?_⟩
  · by_cases hnew : j = s.nextExecutor
    · subst hnew
      rw [heldBack, Function.update_self, if_neg Bool.false_ne_true]
      refine .built ?_
      rw [hlive]
      exact h.fresh s.nextExecutor le_rfl
    · rw [heldBack, Function.update_of_ne hnew]
      exact (h.plays j (hlt hj hnew)).congr (hf.same j (hlt hj hnew) (buildExecutor_table hnew call r)) (hlive j)
  · rw [hlive]
    exact h.fresh j (hle.trans hj)
  · obtain ⟨hj, hstarted⟩ := hf.registered m j hj
    rw [Function.update_of_ne hj.ne, hstarted]
  · rcases hf.building t' ht' j b hb with ⟨hmore, rfl, rfl⟩ | ⟨-, ⟨_, _, heq⟩, -⟩ | hold
    · exact ⟨hmore, Function.update_self _ _ _⟩
    · cases heq
    · rw [Function.update_of_ne hold.1.ne]
      exact ⟨hold.1.trans_le hle, hold.2.1⟩
  · by_cases hnew : j = s.nextExecutor
    · rw [hnew]
      exact hnone
    · rw [Function.update_of_ne hnew] at hnot
      exact hf.unstarted j (hlt hj hnew) hnot

/-- A dispatcher started. -/
theorem Playing.starts {call : LoadCall} {r : RuntimeId} {k : ExecutorId}
    (h : Playing s (pre ++ (.startExecutor call r k :: rest) :: post) started)
    (hf : Follows s started (.startExecutor call r k)
      { state := s, next := [.queryGpuAfter call r k], spawned := [[.executor k .runLoop]] }
      (pre ++ ([.queryGpuAfter call r k] ++ rest) :: post ++ [[.executor k .runLoop]])) :
    Playing s (pre ++ ([.queryGpuAfter call r k] ++ rest) :: post ++ [[.executor k .runLoop]])
      (Function.update started k true) := by
  obtain ⟨hk, hwaits⟩ := h.building (.startExecutor call r k) (by simp) k false rfl
  have hlive : ∀ j, live (threadsOf j
      (pre ++ ([.queryGpuAfter call r k] ++ rest) :: post ++ [[.executor k .runLoop]])) =
      live [[ExecutorTask.runLoop].filter fun _ => k = j] +
        live (threadsOf j (pre ++ (.startExecutor call r k :: rest) :: post)) := by
    intro j
    rw [live_threadsOf_own (h.tidy (.startExecutor call r k :: rest) (by simp)) rfl]
    have hnone : [RouterTask.queryGpuAfter call r k].filterMap (RouterTask.onExecutor j) = [] := rfl
    rw [hnone, threadsOf_cons, threadsOf_nil]
    by_cases hjk : k = j
    · subst hjk
      simp [List.filterMap_cons_some (RouterTask.onExecutor_self k .runLoop)]
    · simp [List.filterMap_cons_none (RouterTask.onExecutor_of_ne hjk .runLoop), hjk]
  have hsame : ∀ {j}, k ≠ j → live (threadsOf j
      (pre ++ ([.queryGpuAfter call r k] ++ rest) :: post ++ [[.executor k .runLoop]])) =
      live (threadsOf j (pre ++ (.startExecutor call r k :: rest) :: post)) := fun hjk => by
    rw [hlive, List.filter_eq_nil_iff.mpr (by simp [hjk])]
    exact zero_add _
  refine ⟨fun j hj => ?_, fun j hj => ?_, hf.tidy, fun m j hj => ?_, fun t' ht' j b hb => ?_, fun j hj hnot => ?_⟩
  · by_cases hjk : k = j
    · subst hjk
      obtain ⟨target, actions, hshows⟩ := h.plays k hk
      rw [heldBack, hwaits] at hshows
      rw [heldBack, Function.update_self, if_pos rfl]
      refine ⟨target, actions, hshows.starts ?_⟩
      rw [hlive]
      simp
    · rw [heldBack, Function.update_of_ne (Ne.symm hjk)]
      exact (h.plays j hj).congr (hf.same j hj rfl) (hsame hjk)
  · rw [hsame (hk.trans_le hj).ne]
    exact h.fresh j hj
  · by_cases hjk : j = k
    · rw [hjk, Function.update_self]
    · rw [Function.update_of_ne hjk, (hf.registered m j hj).2]
  · rcases hf.building t' ht' j b hb with ⟨hmore, -⟩ | ⟨-, ⟨_, _, heq⟩, rfl⟩ | hold
    · exact absurd hmore (lt_irrefl _)
    · cases heq
      exact ⟨hk, Function.update_self _ _ _⟩
    · rw [Function.update_of_ne fun heq => hold.2.2 (by rw [heq]; rfl)]
      exact ⟨hold.1, hold.2.1⟩
  · by_cases hjk : j = k
    · rw [hjk, Function.update_self] at hnot
      cases hnot
    · rw [Function.update_of_ne hjk] at hnot
      exact hf.unstarted j hj hnot

/-- A task of the engine's own that leaves the executors as they are, and hands one of
them a call or nothing. -/
theorem Playing.own (h : Playing s (pre ++ (task :: rest) :: post) started)
    (hf : Follows s started task e (pre ++ (e.next ++ rest) :: post ++ e.spawned)) (htask : task.isOwn = true)
    (htable : e.state.executorTable = s.executorTable) (hcount : e.state.nextExecutor = s.nextExecutor)
    (hspawned : e.spawned = [])
    (hnext : ∀ k, e.next.filterMap (RouterTask.onExecutor k) = [] ∨ k < s.nextExecutor ∧
      ∃ t, e.next.filterMap (RouterTask.onExecutor k) = [t] ∧ t.entry = true) :
    Playing e.state (pre ++ (e.next ++ rest) :: post ++ e.spawned) started := by
  have hlive : ∀ j, live (threadsOf j (pre ++ (e.next ++ rest) :: post ++ e.spawned)) =
      live [e.next.filterMap (RouterTask.onExecutor j)] + live (threadsOf j (pre ++ (task :: rest) :: post)) := by
    intro j
    rw [live_threadsOf_own (h.tidy (task :: rest) (by simp)) htask, hspawned, threadsOf_nil, Threads.live_nil,
      add_zero]
  refine ⟨fun j hj => ?_, fun j hj => ?_, hf.tidy, fun m j hj => (hf.registered m j hj).2,
    fun t' ht' j b hb => ?_, fun j hj hnot => hf.unstarted j (hcount ▸ hj) hnot⟩
  · rcases hnext j with hnone | ⟨-, t, hone, hentry⟩
    · refine (h.plays j (hcount ▸ hj)).congr (hf.same j (hcount ▸ hj) (by rw [htable])) ?_
      rw [hlive, hnone]
      exact zero_add _
    · refine (h.plays j (hcount ▸ hj)).call (hf.same j (hcount ▸ hj) (by rw [htable])) hentry ?_
      rw [hlive, hone]
      simp
  · rcases hnext j with hnone | ⟨hlt, -⟩
    · rw [hlive, hnone, hcount] at *
      exact (zero_add (live _)) ▸ h.fresh j hj
    · exact absurd hlt (not_lt.mpr (hcount ▸ hj))
  · rcases hf.building t' ht' j b hb with ⟨hmore, -⟩ | ⟨hnone, -⟩ | hold
    · exact absurd hmore (hcount ▸ lt_irrefl _)
    · exact absurd hspawned hnone
    · exact ⟨hcount ▸ hold.1, hold.2.1⟩

/-- **A step keeps every executor what it is by itself.** -/
theorem Playing.run (h : Playing s (pre ++ (task :: rest) :: post) started)
    (hok : Ok s ↑(pre ++ (task :: rest) :: post).flatten) (hrun : s.run task input = some e) :
    ∃ started', Playing e.state (pre ++ (e.next ++ rest) :: post ++ e.spawned) started' := by
  obtain ⟨others, hbag, hbag'⟩ : ∃ others : Multiset RouterTask,
      (↑(pre ++ (task :: rest) :: post).flatten : Multiset RouterTask) = task ::ₘ others ∧
      (↑(pre ++ (e.next ++ rest) :: post ++ e.spawned).flatten : Multiset RouterTask) = e.left + others :=
    ⟨_, Threads.Program.bag_split (c := ⟨s, _⟩) rfl, Threads.Program.bag_run⟩
  rw [hbag] at hok
  have hf := h.follows hok hrun hbag hbag'
  cases (ran_of_run hrun).seen hok.tables with
  | executor hk heffect => exact ⟨started, h.executor hk heffect (ran_of_run hrun).settings hf⟩
  | builds call r => exact ⟨_, h.builds hf (hbag' ▸ requests_buildExecutor hok.serving)⟩
  | starts call r k => exact ⟨_, h.starts hf⟩
  | hands k t own htask htable hcount hspawned hnext hown hk hentry =>
    refine ⟨started, h.own hf htask htable hcount hspawned fun j => ?_⟩
    rw [hnext]
    by_cases hjk : k = j
    · subst hjk
      rw [List.filterMap_cons_some (RouterTask.onExecutor_self k t), filterMap_own hown]
      exact .inr ⟨hk, t, rfl, hentry⟩
    · rw [List.filterMap_cons_none (RouterTask.onExecutor_of_ne hjk t), filterMap_own hown]
      exact .inl rfl
  | nothing htask htable hcount hspawned hown =>
    exact ⟨started, h.own hf htask htable hcount hspawned fun j => .inl (filterMap_own hown j)⟩

/-- A caller of an executor's or a handle's method enters as a caller of the executor
by itself does. -/
theorem entry_of_onExecutor (hentry : task.entry = true) {k : ExecutorId} {t : ExecutorTask}
    (hown : task.onExecutor k = some t) : t.entry = true := by
  cases task with
  | executor j t' =>
    obtain ⟨-, rfl⟩ : j = k ∧ t' = t := by simpa [RouterTask.onExecutor] using hown
    cases t' with
    | snapshot | cancel | readEvent => rfl
    | addTerminalCallback handle callback =>
      cases callback with
      | streamFinished name => cases hentry
      | other id => rfl
    | _ => cases hentry
  | _ => cases hown

/-- A call that comes in. -/
theorem Playing.entry {threads : List (List RouterTask)} (h : Playing s threads started)
    (hentry : task.entry = true) : Playing s (threads ++ [[task]]) started := by
  have hlive : ∀ k, live (threadsOf k (threads ++ [[task]])) = live (threadsOf k threads) ∨
      ∃ t, t.entry = true ∧ live (threadsOf k (threads ++ [[task]])) = [t] ::ₘ live (threadsOf k threads) := by
    intro k
    rw [threadsOf_append, Threads.live_append, threadsOf_cons, threadsOf_nil]
    cases hown : task.onExecutor k with
    | none =>
      rw [List.filterMap_cons_none hown]
      exact .inl (add_zero _)
    | some t =>
      rw [List.filterMap_cons_some hown]
      exact .inr ⟨t, entry_of_onExecutor hentry hown, (add_comm _ _).trans (Multiset.singleton_add _ _)⟩
  refine ⟨fun k hk => ?_, fun k hk tasks htasks => ?_, fun tasks htasks => ?_, h.registered,
    fun t ht k b hb => ?_, fun k hk hnot => ?_⟩
  · rcases hlive k with hsame | ⟨t, ht, hone⟩
    · exact (h.plays k hk).congr ⟨rfl, rfl, rfl⟩ hsame
    · exact (h.plays k hk).call ⟨rfl, rfl, rfl⟩ ht hone
  · rcases hlive k with hsame | ⟨t, ht, hone⟩
    · exact h.fresh k hk tasks (hsame ▸ htasks)
    · rw [hone] at htasks
      rcases Multiset.mem_cons.mp htasks with rfl | hold
      · exact ⟨t, rfl, ht⟩
      · exact h.fresh k hk tasks hold
  · rcases List.mem_append.mp htasks with hold | hnew
    · exact h.tidy tasks hold
    · obtain rfl := List.mem_singleton.mp hnew
      cases task with
      | executor k t => exact ⟨k, [t], [], rfl, by simp⟩
      | _ => exact .of_own (List.forall_mem_singleton.mpr rfl)
  · rw [List.flatten_append, List.mem_append] at ht
    rcases ht with hold | hnew
    · exact h.building t hold k b hb
    · obtain rfl : t = task := by simpa using hnew
      obtain ⟨m, r, hcharge⟩ := RouterTask.charge_of_building hb
      cases (RouterTask.charge_of_entry hentry).symm.trans hcharge
  · have hbag : (↑(threads ++ [[task]]).flatten : Multiset RouterTask) = task ::ₘ ↑threads.flatten :=
      Threads.Program.bag_call s threads task
    rw [hbag, requests_entry hentry]
    exact h.unstarted k hk hnot

/-- **After any schedule every executor is what it is by itself.** -/
theorem after_playing (settings : AppSettings) (actions : List RouterAction) :
    let c := after settings actions
    Ok c.state c.bag ∧ ∃ started, Playing c.state c.threads started := by
  have hstart : Playing (RouterState.start settings).state (RouterState.start settings).threads fun _ => false := by
    have hload : ∀ task ∈ (RouterState.start settings).threads.flatten, ∃ m target, task = .loadModel m target :=
      fun task htask => mem_start (Multiset.mem_coe.mpr htask)
    refine ⟨fun k hk => absurd hk (Nat.not_lt_zero k), fun k _ tasks htasks => ?_, fun tasks htasks => ?_,
      fun m k hk => ?_, fun task htask k b hb => ?_, fun k hk => absurd hk (Nat.not_lt_zero k)⟩
    · obtain ⟨hmem, hne⟩ := Threads.mem_live.mp htasks
      obtain ⟨own, hown, rfl⟩ := List.mem_map.mp hmem
      refine absurd (filterMap_own (fun t ht => ?_) k) hne
      obtain ⟨m, target, rfl⟩ := hload t (List.mem_flatten.mpr ⟨own, hown, ht⟩)
      rfl
    · refine .of_own fun t ht => ?_
      obtain ⟨m, target, rfl⟩ := hload t (List.mem_flatten.mpr ⟨tasks, htasks, ht⟩)
      rfl
    · cases hk
    · obtain ⟨m, target, rfl⟩ := hload task htask
      cases hb
  refine Threads.Program.runs_of_threads (p := routerProgram)
    (I := fun s threads => Ok s (Config.bag ⟨s, threads⟩) ∧ ∃ started, Playing s threads started)
    ⟨.start settings, _, hstart⟩ ?_ ?_ actions
  · rintro s threads task hentry ⟨hok, started, hplaying⟩
    refine ⟨?_, started, hplaying.entry hentry⟩
    rw [Threads.Program.bag_call]
    exact hok.entry hentry
  · rintro s pre task rest post input e hrun ⟨hok, started, hplaying⟩
    refine ⟨?_, hplaying.run hok hrun⟩
    rw [Threads.Program.bag_run]
    rw [Threads.Program.bag_split rfl] at hok
    exact hok.run (ran_of_run hrun)

/-- **An executor behind the router is an executor.**  In every reachable state of the
engine every executor it has ever built is, with its runtime's capability and the
fairness settings, in a state that the executor by itself reaches on some schedule of
its own calls, and the threads that have something left to do for it there are those
it has here.  The one exception is an executor that is not registered and has been
sent no request: by itself it may also have a dispatcher that has not begun. -/
theorem executor_alone (settings : AppSettings) (actions : List RouterAction) :
    let c := after settings actions
    ∀ k < c.state.nextExecutor, ∃ configuredTargetInflight calls,
      let executor := c.state.executorTable k
      let runtime := c.state.runtimeTable executor.runtime
      let alone := ExecutorState.after executor.modelName runtime.streaming configuredTargetInflight
        c.state.engine.settings.fairness runtime.capability calls
      alone.state = executor.state ∧
        (live alone.threads = live (threadsOf k c.threads) ∨
          live alone.threads = [.runLoop] ::ₘ live (threadsOf k c.threads) ∧ c.state.requests c.bag k = 0 ∧
            ∀ m, c.state.engine.executors.get? m ≠ some k) := by
  intro c k hk
  obtain ⟨-, started, hplaying⟩ := after_playing settings actions
  obtain ⟨target, calls, hshows⟩ := hplaying.plays k hk
  refine ⟨target, calls, hshows.state, ?_⟩
  have hlive := hshows.threads
  cases hstarted : started k with
  | true =>
    rw [heldBack, hstarted, if_pos rfl, add_zero] at hlive
    exact .inl hlive
  | false =>
    rw [heldBack, hstarted, if_neg Bool.false_ne_true, add_comm, Multiset.singleton_add] at hlive
    refine .inr ⟨hlive, hplaying.unstarted k hk hstarted, fun m hm => ?_⟩
    cases hstarted.symm.trans (hplaying.registered m k hm)

/-- A request of a loaded model on its way to the backend. -/
def requested : List RouterAction :=
  cleanLoad ++ [.call (.stream { model := "m", fairnessKey := none }), .run 3 (.uuid "test"),
    .run 3 (.executor (.clock 0)), .run 3 (.executor (.clock 0))]

/-- It is served, for a second. -/
def served : List RouterAction :=
  requested ++ [.run 3 (.executor (.clock 0)), .run 3 (.executor (.clock 0)), .run 2 (.executor (.clock 0)),
    .run 2 (.executor (.clock 0)), .run 4 (.executor (.clock 0)), .run 4 (.executor (.clock 0)),
    .run 4 (.executor (.returns ⟨0, 0, 0, .empty, .empty⟩ 1)), .run 4 (.executor (.clock 1)),
    .run 4 (.executor (.clock 1)), .run 4 (.executor (.clock 1)), .run 4 (.executor (.clock 1)),
    .run 4 (.executor (.clock 1)), .run 4 (.executor (.clock 1))]

/-- The executor that has served it, and its dispatcher. -/
theorem executor_alone_served :
    let c := after oneModel served
    let executor := c.state.executorTable 0
    executor.state.finished = [0] ∧ ∃ configuredTargetInflight calls,
      let alone := ExecutorState.after executor.modelName (c.state.runtimeTable executor.runtime).streaming
        configuredTargetInflight c.state.engine.settings.fairness (c.state.runtimeTable executor.runtime).capability
        calls
      alone.state = executor.state ∧ live alone.threads = live (threadsOf 0 c.threads) := by
  intro c executor
  have hregistered : c.state.engine.executors.get? "m" = some 0 := by decide +kernel
  obtain ⟨target, calls, hstate, hlive⟩ := executor_alone oneModel served 0 (by decide +kernel)
  refine ⟨by decide +kernel, target, calls, hstate, hlive.resolve_right ?_⟩
  rintro ⟨-, -, hunregistered⟩
  exact hunregistered "m" hregistered

end RouterState
end TtsPool
