/-
# The engine comes to rest

The work of the engine is the work of its executors, the requests on their way to
one, and the calls of `load_model` and `unload_model`.  Each task of such a call
leaves less to do behind, but for one: an unload that finds requests in flight looks
again.  It stops looking when the deadline has passed or the last request is over, so
a schedule under which clocks go on does not leave it there.

`engine_rests`: once no more calls come in and the code outside answers (a backend
with a result or an `Exception`, the executors know of nothing else), every call
returns, every stream ends and is counted down, and nothing is left but what waits
for a caller.
-/

import TtsPool.Executor.Rest
import TtsPool.Router.Alone

namespace TtsPool

open Threads (Effect Config Action total live Shows)

namespace RouterTask

/-- How much there is to a task, where `n` requests have been sent to an executor. -/
def weight (n : ℕ) : RouterTask → ℕ
  | .executor _ task => task.weight n
  | .raised _ => 1
  | .stream _ => 20
  | .register _ _ _ _ => 2
  | .loadFailed _ _ => 2
  | .queryGpuAfter _ _ _ => 3
  | .startExecutor _ _ _ => 5
  | .buildExecutor _ _ => 6
  | .checkBuffer _ _ => 7
  | .loadRuntime _ _ => 8
  | .buildRuntime _ => 9
  | .queryGpuBefore _ => 10
  | .loadModel _ _ => 11
  | .finishUnload _ _ _ => 2
  | .closeRuntime _ _ _ => 3
  | .awaitDrain _ _ => 4
  | .setDeadline _ _ => 5
  | .unloadModel _ => 8 + 2 * n

end RouterTask

/-- Code outside answers: a backend emits no more. -/
def RouterInput.Answers : RouterInput → Prop
  | .executor input => input.Answers
  | _ => True

namespace ExecutorState

variable {alone : Config ExecutorState ExecutorTask} {s : ExecutorState} {threads : List (List ExecutorTask)}
  {held : Multiset (List ExecutorTask)}

/-- Where every thread seen of an executor is stuck, what is left for it to do waits. -/
theorem Reached.waits_of_shows (h : Reached alone) (hshows : Shows alone s threads held)
    (hheld : ∀ tasks ∈ held, tasks = [.runLoop])
    (hstuck : ∀ first rest, (first :: rest) ∈ threads → s.Stuck first) {t : ExecutorTask} {ts : List ExecutorTask}
    (hmem : (t :: ts) ∈ threads) : s.Waits t ∧ ts = [] := by
  obtain rfl := hshows.state
  have hfree := h.free fun first rest hfirst hne => by
    have hlive : (first :: rest) ∈ live threads + held :=
      hshows.threads ▸ Threads.mem_live.mpr ⟨hfirst, by simp⟩
    rcases Multiset.mem_add.mp hlive with hseen | hback
    · exact hstuck first rest (Threads.mem_live.mp hseen).1
    · exact absurd (List.cons.inj (hheld _ hback)).1 hne
  have hlive : (t :: ts) ∈ live alone.threads :=
    hshows.threads ▸ Multiset.mem_add.mpr (.inl (Threads.mem_live.mpr ⟨hmem, by simp⟩))
  exact h.waits hfree (Threads.mem_live.mp hlive).1 (hstuck t ts hmem)

/-- And if its dispatcher is among them, every request sent to it is over. -/
theorem Reached.over_of_shows (h : Reached alone) (hshows : Shows alone s threads 0)
    (hstuck : ∀ first rest, (first :: rest) ∈ threads → s.Stuck first) {modelName : String}
    (hserved : Served modelName s ↑threads.flatten) :
    s.requests ↑threads.flatten = s.streamsFinished.length := by
  obtain rfl := hshows.state
  have hbag : alone.bag = ↑threads.flatten := hshows.bag.trans (add_zero _)
  have hrest : executorProgram.AtRest Answering alone :=
    hshows.atRest fun thread i t ts hanswers hmem => hstuck t ts hmem i hanswers
  rw [← hbag] at hserved ⊢
  exact h.requests_ended hrest hserved

end ExecutorState

namespace RouterState

variable {s : RouterState} {task : RouterTask} {bag : Multiset RouterTask} {e : Step} {input : RouterInput}
  {n : ℕ}

/-- The work that no task has taken up, of all the executors. -/
def stock (s : RouterState) : ℕ := ∑ k ∈ Finset.range s.nextExecutor, (s.executorTable k).state.stock

/-- No executor has been sent more than `n` requests, with those on their way. -/
structure Bounded (n : ℕ) (s : RouterState) (bag : Multiset RouterTask) : Prop where
  streams : bag.countP (fun t => t.isStream = true) ≤ n
  requests : ∀ k < s.nextExecutor, s.requests bag k + bag.countP (fun t => t.isStream = true) ≤ n

/-! ### The engine's own tasks -/

/-- What a task leaves behind is less than it was, and no request of a caller's. -/
structure Lighter (n : ℕ) (task : RouterTask) (e : Step) : Prop where
  less : total (RouterTask.weight n) e.left < task.weight n
  streams : ∀ t ∈ e.left, t.isStream = false

theorem Lighter.next {task' : RouterTask} {state : RouterState} (hless : task'.weight n < task.weight n)
    (hstream : task'.isStream = false) : Lighter n task { state := state, next := [task'] } := by
  refine ⟨by simpa [Effect.left] using hless, fun t ht => ?_⟩
  obtain rfl := Multiset.mem_singleton.mp ht
  exact hstream

/-- Where nothing is left but one task of weight one, or none. -/
theorem Lighter.last (hspawned : e.spawned = [])
    (hnext : e.next = [] ∨ ∃ t, e.next = [t] ∧ t.weight n = 1 ∧ t.isStream = false) (hweight : 1 < task.weight n) :
    Lighter n task e := by
  rcases hnext with hnone | ⟨t, hone, ht, hstream⟩
  · rw [show e = ⟨e.state, [], []⟩ by rw [← hnone, ← hspawned]]
    exact ⟨Nat.zero_lt_of_lt hweight, by simp [Effect.left]⟩
  · rw [show e = ⟨e.state, [t], []⟩ by rw [← hone, ← hspawned]]
    exact .next (ht ▸ hweight) hstream

theorem Lighter.snapshot (s' : RouterState) (m : String) (hspawned : e.spawned = [])
    (hnext : e.next = s'.entrySnapshot m) (hweight : 1 < task.weight n) : Lighter n task e := by
  refine .last hspawned ?_ hweight
  rw [hnext, entrySnapshot]
  cases s'.engine.executors.get? m with
  | none => exact .inl rfl
  | some k => exact .inr ⟨_, rfl, rfl, rfl⟩

theorem Lighter.leave (s' : RouterState) (m : String) (error : Option EngineError) (hweight : 1 < task.weight n) :
    Lighter n task (s'.leave m error) := by
  refine .last rfl ?_ hweight
  cases error with
  | none => exact .inl rfl
  | some error => exact .inr ⟨_, rfl, rfl, rfl⟩

theorem Lighter.raised {error : EngineError} {state : RouterState} (hweight : 1 < task.weight n) :
    Lighter n task { state := state, next := [.raised error] } := .next hweight rfl

theorem loadModel_lighter (modelName : String) (targetInflight : Option ℤ) :
    Lighter n (.loadModel modelName targetInflight) (s.loadModel modelName targetInflight) := by
  have hweight : 1 < (RouterTask.loadModel modelName targetInflight).weight n := by simp [RouterTask.weight]
  unfold loadModel
  split
  · split
    · exact .raised hweight
    · exact .snapshot s modelName rfl rfl hweight
    · exact .snapshot s modelName rfl rfl hweight
    · exact .next (by simp [RouterTask.weight]) rfl
    · exact .next (by simp [RouterTask.weight]) rfl
  · exact .raised hweight

theorem unloadModel_lighter (modelName : String) :
    Lighter n (.unloadModel modelName) (s.unloadModel modelName) := by
  have hweight : 1 < (RouterTask.unloadModel modelName).weight n := by
    simp only [RouterTask.weight]
    omega
  have hnone : ∀ state : RouterState, Lighter n (.unloadModel modelName)
      { state := state, next := [.setDeadline modelName false] } := by
    intro state
    refine .next ?_ rfl
    simp only [RouterTask.weight]
    omega
  have hsome : ∀ (state : RouterState) (k : ExecutorId), Lighter n (.unloadModel modelName)
      { state := state, next := [.executor k .beginShutdown, .setDeadline modelName true] } := by
    intro state k
    constructor
    · simp only [Effect.left, List.flatten_nil, List.append_nil, Threads.total_coe_cons, Threads.total_coe_nil,
        RouterTask.weight, ExecutorTask.weight]
      omega
    · intro t ht
      have hcases : t = .executor k .beginShutdown ∨ t = .setDeadline modelName true := by
        simpa [Effect.left] using ht
      rcases hcases with rfl | rfl <;> rfl
  unfold unloadModel
  split
  · split
    · exact .raised hweight
    · exact .snapshot s modelName rfl rfl hweight
    · exact .snapshot s modelName rfl rfl hweight
    all_goals
      cases s.engine.executors.get? modelName with
      | none => exact hnone _
      | some k => exact hsome _ k
  · exact .raised hweight

theorem stream_lighter {request : ResponseRequest} (hrun : s.run (.stream request) input = some e) :
    Lighter n (.stream request) e := by
  have hweight : 1 < (RouterTask.stream request).weight n := by simp [RouterTask.weight]
  cases input with
  | uuid hex =>
    obtain rfl := Option.some.inj hrun
    dsimp only [stream]
    split
    · split_ifs
      · exact .raised hweight
      · split
        · exact .raised hweight
        · exact .next (by simp [RouterTask.weight, ExecutorTask.weight, handleSpec]) rfl
    · exact .raised hweight
  | _ => cases hrun

/-! The sections of `load_model`, in their order. -/

theorem queryGpuBefore_lighter {call : LoadCall} (hrun : s.run (.queryGpuBefore call) input = some e) :
    Lighter n (.queryGpuBefore call) e := by
  cases input with
  | subprocess result =>
    obtain rfl := Option.some.inj hrun
    unfold queryGpuBefore
    split
    · exact .next (by simp [RouterTask.weight]) rfl
    · exact .leave _ _ _ (by simp [RouterTask.weight])
  | _ => cases hrun

theorem buildRuntime_lighter {call : LoadCall} (hrun : s.run (.buildRuntime call) input = some e) :
    Lighter n (.buildRuntime call) e := by
  cases input with
  | built spec =>
    obtain rfl := Option.some.inj hrun
    unfold buildRuntime
    split_ifs <;> exact .next (by simp [RouterTask.weight]) rfl
  | raises error =>
    obtain rfl := Option.some.inj hrun
    exact .next (by simp [RouterTask.weight]) rfl
  | _ => cases hrun

theorem loadRuntime_lighter {call : LoadCall} {r : RuntimeId} (hrun : s.run (.loadRuntime call r) input = some e) :
    Lighter n (.loadRuntime call r) e := by
  cases input with
  | returns | raises =>
    obtain rfl := Option.some.inj hrun
    exact .next (by simp [RouterTask.weight]) rfl
  | escapes error =>
    obtain rfl := Option.some.inj hrun
    exact .leave _ _ _ (by simp [RouterTask.weight])
  | _ => cases hrun

theorem checkBuffer_lighter (call : LoadCall) (r : RuntimeId) :
    Lighter n (.checkBuffer call r) (s.checkBuffer call r) := by
  unfold checkBuffer
  split_ifs <;> exact .next (by simp [RouterTask.weight]) rfl

theorem buildExecutor_lighter {call : LoadCall} {r : RuntimeId}
    (hrun : s.run (.buildExecutor call r) input = some e) : Lighter n (.buildExecutor call r) e := by
  cases input with
  | returns | raises =>
    obtain rfl := Option.some.inj hrun
    exact .next (by simp [RouterTask.weight]) rfl
  | _ => cases hrun

theorem startExecutor_lighter {call : LoadCall} {r : RuntimeId} {k : ExecutorId}
    (hrun : s.run (.startExecutor call r k) input = some e) : Lighter n (.startExecutor call r k) e := by
  cases input with
  | returns =>
    obtain rfl := Option.some.inj hrun
    constructor
    · simp [Effect.left, RouterTask.weight, ExecutorTask.weight]
    · simp [Effect.left, RouterTask.isStream]
  | raises error =>
    obtain rfl := Option.some.inj hrun
    exact .next (by simp [RouterTask.weight]) rfl
  | _ => cases hrun

theorem loadFailed_lighter (modelName : String) (error : EngineError) :
    Lighter n (.loadFailed modelName error) (s.loadFailed modelName error) := by
  unfold loadFailed
  split <;> exact .leave _ _ _ (by simp [RouterTask.weight])

theorem queryGpuAfter_lighter {call : LoadCall} {r : RuntimeId} {k : ExecutorId}
    (hrun : s.run (.queryGpuAfter call r k) input = some e) : Lighter n (.queryGpuAfter call r k) e := by
  cases input with
  | subprocess result =>
    obtain rfl := Option.some.inj hrun
    unfold queryGpuAfter
    split
    · exact .next (by simp [RouterTask.weight]) rfl
    · exact .leave _ _ _ (by simp [RouterTask.weight])
  | _ => cases hrun

/-! The sections of `unload_model` after the first. -/

theorem setDeadline_lighter {modelName : String} {shutdown : Bool}
    (hrun : s.run (.setDeadline modelName shutdown) input = some e) :
    Lighter n (.setDeadline modelName shutdown) e := by
  cases input with
  | clock now =>
    obtain rfl := Option.some.inj hrun
    exact .next (by simp [RouterTask.weight]) rfl
  | raises error =>
    cases shutdown with
    | true =>
      obtain rfl := Option.some.inj hrun
      exact .leave _ _ _ (by simp [RouterTask.weight])
    | false => cases hrun
  | _ => cases shutdown <;> cases hrun

/-- An unload that looks at the count goes on to close the runtime, gives up, or looks
again. -/
theorem awaitDrain_lighter {modelName : String} {deadline now : ℚ}
    (hrun : s.awaitDrain modelName deadline now = some e) :
    Lighter n (.awaitDrain modelName deadline) e ∨
      now < deadline ∧ e = { state := s, next := [.awaitDrain modelName deadline] } := by
  unfold awaitDrain at hrun
  obtain ⟨state, -, rfl⟩ := Option.map_eq_some_iff.mp hrun
  dsimp only
  split_ifs with hbusy hlate hlong
  · exact .inl (.leave _ _ _ (by simp [RouterTask.weight]))
  · exact .inl (.leave _ _ _ (by simp [RouterTask.weight]))
  · exact .inr ⟨sub_pos.mp (not_le.mp hlate), rfl⟩
  · exact .inl (.next (by simp [RouterTask.weight]) rfl)

theorem closeRuntime_lighter {modelName : String} {k : Option ExecutorId} {r : Option RuntimeId}
    (hrun : s.run (.closeRuntime modelName k r) input = some e) : Lighter n (.closeRuntime modelName k r) e := by
  cases input with
  | returns =>
    cases r <;> obtain rfl := Option.some.inj hrun <;> exact .next (by simp [RouterTask.weight]) rfl
  | raises error =>
    cases r with
    | none => cases hrun
    | some r =>
      obtain rfl := Option.some.inj hrun
      exact .leave _ _ _ (by simp [RouterTask.weight])
  | _ => cases r <;> cases hrun

/-- **Every task of the engine's own but one gets on.** -/
theorem own_lighter (hown : task.isOwn = true) (hrun : s.run task input = some e) :
    Lighter n task e ∨ ∃ modelName deadline now, task = .awaitDrain modelName deadline ∧ input = .clock now ∧
      now < deadline ∧ e = { state := s, next := [task] } := by
  cases task with
  | executor k t => cases hown
  | stream request => exact .inl (stream_lighter hrun)
  | raised error =>
    obtain rfl := Option.some.inj hrun
    exact .inl ⟨by simp [Effect.left, RouterTask.weight], by simp [Effect.left]⟩
  | loadModel modelName targetInflight =>
    obtain rfl := Option.some.inj hrun
    exact .inl (loadModel_lighter modelName targetInflight)
  | queryGpuBefore call => exact .inl (queryGpuBefore_lighter hrun)
  | buildRuntime call => exact .inl (buildRuntime_lighter hrun)
  | loadRuntime call r => exact .inl (loadRuntime_lighter hrun)
  | checkBuffer call r =>
    obtain rfl := Option.some.inj hrun
    exact .inl (checkBuffer_lighter call r)
  | buildExecutor call r => exact .inl (buildExecutor_lighter hrun)
  | startExecutor call r k => exact .inl (startExecutor_lighter hrun)
  | loadFailed modelName error =>
    obtain rfl := Option.some.inj hrun
    exact .inl (loadFailed_lighter modelName error)
  | queryGpuAfter call r k => exact .inl (queryGpuAfter_lighter hrun)
  | register call r k gpuUsedAfterMib =>
    obtain rfl := Option.some.inj hrun
    exact .inl (.snapshot (s.register call r k gpuUsedAfterMib).state call.modelName rfl rfl
      (by simp [RouterTask.weight]))
  | unloadModel modelName =>
    obtain rfl := Option.some.inj hrun
    exact .inl (unloadModel_lighter modelName)
  | setDeadline modelName shutdown => exact .inl (setDeadline_lighter hrun)
  | awaitDrain modelName deadline =>
    cases input with
    | clock now =>
      rcases awaitDrain_lighter hrun with hless | ⟨hearly, rfl⟩
      · exact .inl hless
      · exact .inr ⟨modelName, deadline, now, rfl, rfl, hearly, rfl⟩
    | _ => cases hrun
  | closeRuntime modelName k r => exact .inl (closeRuntime_lighter hrun)
  | finishUnload modelName k r =>
    obtain rfl := Option.some.inj hrun
    exact .inl (.snapshot (s.finishUnload modelName k r).state modelName rfl rfl (by simp [RouterTask.weight]))

/-! ### All the work -/

/-- A task of the engine's own leaves the executors' stocks alone; a new executor has
none. -/
theorem Seen.stock_eq (h : Seen s task e) (hown : task.isOwn = true) : e.state.stock = s.stock := by
  cases h with
  | executor => cases hown
  | starts => rfl
  | hands k t own htask htable hcount => rw [stock, stock, htable, hcount]
  | nothing htask htable hcount => rw [stock, stock, htable, hcount]
  | builds call r =>
    have hold : ∀ k ∈ Finset.range s.nextExecutor, ((s.buildExecutor call r).state.executorTable k).state.stock =
        (s.executorTable k).state.stock := fun k hk => by
      rw [buildExecutor_table (Finset.mem_range.mp hk).ne]
    have hnew : ((s.buildExecutor call r).state.executorTable s.nextExecutor).state.stock = 0 := by
      rw [show (s.buildExecutor call r).state.executorTable s.nextExecutor = _ from Function.update_self _ _ _]
      rfl
    rw [stock, show (s.buildExecutor call r).state.nextExecutor = s.nextExecutor + 1 from rfl,
      Finset.sum_range_succ, Finset.sum_congr rfl hold, hnew]
    rfl

theorem executor_of_run {k : ExecutorId} {t : ExecutorTask} (hrun : s.run (.executor k t) input = some e) :
    ∃ i effect, input = .executor i ∧ k < s.nextExecutor ∧ (s.executorTable k).state.run t i = some effect ∧
      e = s.afterExecutor k t effect := by
  cases input with
  | executor i =>
    simp only [RouterState.run, runExecutor] at hrun
    split_ifs at hrun with hk
    obtain ⟨effect, heffect, rfl⟩ := Option.map_eq_some_iff.mp hrun
    exact ⟨i, effect, rfl, hk, heffect, rfl⟩
  | _ => cases hrun

/-- An executor's task spends some of the executor's work. -/
theorem executor_spends {k : ExecutorId} {t : ExecutorTask} {i : ExecutorInput}
    {effect : Effect ExecutorState ExecutorTask} (hok : Ok s (.executor k t ::ₘ bag))
    (hbounded : Bounded n s (.executor k t ::ₘ bag)) (hanswers : i.Answers) (hk : k < s.nextExecutor)
    (hrun : (s.executorTable k).state.run t i = some effect) :
    total (RouterTask.weight n) (s.afterExecutor k t effect).left + (s.afterExecutor k t effect).state.stock <
      (RouterTask.executor k t).weight n + s.stock := by
  have hserving := hok.serving.ok k hk
  rw [tasksOf_cons_executor, if_pos rfl, Multiset.singleton_add] at hserving
  have hrequests : (s.executorTable k).state.requests (t ::ₘ tasksOf k bag) ≤ n := by
    have hle := hbounded.requests k hk
    rw [requests, tasksOf_cons_executor, if_pos rfl, Multiset.singleton_add] at hle
    omega
  have hspends := ExecutorState.spends hserving hrequests hanswers hrun
  have hstock := Threads.sum_range_change
    (f := fun j => ((s.afterExecutor k t effect).state.executorTable j).state.stock)
    (g := fun j => (s.executorTable j).state.stock) hk fun j hj => by
      rw [afterExecutor_table, Function.update_of_ne hj]
  have hself : ((s.afterExecutor k t effect).state.executorTable k).state = effect.state := by
    rw [afterExecutor_table, Function.update_self]
  simp only [hself] at hstock
  have hleft : total (RouterTask.weight n) (s.afterExecutor k t effect).left =
      total (ExecutorTask.weight n) effect.left := by
    rw [afterExecutor_left, Threads.total_coe_map]
    rfl
  rw [hleft, stock, (fixed_afterExecutor k t effect).nextExecutor]
  simp only [stock, weights, RouterTask.weight] at hspends ⊢
  omega

/-- **Every task spends some of the work**, but an unload's look at the count before its
deadline, which changes nothing. -/
theorem spends (hok : Ok s (task ::ₘ bag)) (hbounded : Bounded n s (task ::ₘ bag)) (hanswers : input.Answers)
    (hrun : s.run task input = some e) :
    total (RouterTask.weight n) e.left + e.state.stock < task.weight n + s.stock ∨
      e = { state := s, next := [task] } := by
  by_cases hown : task.isOwn = true
  · rcases own_lighter (n := n) hown hrun with hlighter | ⟨_, _, _, -, -, -, heq⟩
    · rw [((ran_of_run hrun).seen hok.tables).stock_eq hown]
      exact .inl (Nat.add_lt_add_right hlighter.less _)
    · exact .inr heq
  · cases task with
    | executor k t =>
      obtain ⟨i, effect, rfl, hk, heffect, rfl⟩ := executor_of_run hrun
      exact .inl (executor_spends hok hbounded hanswers hk heffect)
    | _ => exact absurd rfl hown

/-- Only a request on its way is sent to an executor. -/
theorem Seen.opens_le (h : Seen s task e) (hown : task.isOwn = true) (j : ExecutorId) :
    (tasksOf j e.left).countP (fun t => t.opens = true) ≤ if task.isStream = true then 1 else 0 := by
  have hnone : tasksOf j e.left = 0 →
      (tasksOf j e.left).countP (fun t => t.opens = true) ≤ if task.isStream = true then 1 else 0 := by
    intro hzero
    rw [hzero, Multiset.countP_zero]
    exact Nat.zero_le _
  have hone : ∀ (t : ExecutorTask) (k : ExecutorId), (if k = j then ({t} : Multiset ExecutorTask) else 0).countP
      (fun t => t.opens = true) ≤ if t.opens = true then 1 else 0 := by
    intro t k
    by_cases hjk : k = j
    · rw [if_pos hjk, ← Multiset.cons_zero, Multiset.countP_cons, Multiset.countP_zero, Nat.zero_add]
    · rw [if_neg hjk, Multiset.countP_zero]
      exact Nat.zero_le _
  cases h with
  | executor => cases hown
  | builds call r => exact hnone (tasksOf_eq_zero (own_next _ rfl · · j))
  | starts call r k =>
    have hleft : tasksOf j (Effect.left
        { state := s, next := [.queryGpuAfter call r k], spawned := [[.executor k .runLoop]] }) =
        if k = j then {.runLoop} else 0 :=
      (tasksOf_cons_of_none rfl _).trans ((tasksOf_cons_executor j k .runLoop 0).trans (add_zero _))
    rw [hleft]
    exact (hone .runLoop k).trans (Nat.zero_le _)
  | hands k t own htask htable hcount hspawned hnext howned hk hentry hkind =>
    have hleft : tasksOf j e.left = if k = j then {t} else 0 := by
      rw [Effect.left_of_next hspawned, hnext, ← Multiset.cons_coe, tasksOf_cons_executor,
        tasksOf_eq_zero fun t ht => RouterTask.onExecutor_of_isOwn (howned t (Multiset.mem_coe.mp ht)) j, add_zero]
    rw [hleft]
    refine (hone t k).trans ?_
    rcases hkind with ⟨hstream, -⟩ | rfl | rfl
    · rw [if_pos hstream]
      split_ifs <;> omega
    · exact Nat.zero_le _
    · exact Nat.zero_le _
  | nothing htask htable hcount hspawned howned =>
    refine hnone (tasksOf_eq_zero fun t ht => ?_)
    rw [Effect.left_of_next hspawned] at ht
    exact RouterTask.onExecutor_of_isOwn (howned t (Multiset.mem_coe.mp ht)) j

/-- The requests sent to executor `k`, after a task of the engine's own. -/
theorem Seen.requests_le (h : Seen s task e) (hs : Serving s (task ::ₘ bag)) (hown : task.isOwn = true)
    {k : ExecutorId} (hk : k < e.state.nextExecutor) :
    k < s.nextExecutor ∧ e.state.requests (e.left + bag) k ≤
        s.requests (task ::ₘ bag) k + (if task.isStream = true then 1 else 0) ∨
      e.state.requests (e.left + bag) k = 0 := by
  have hsame : k < s.nextExecutor → e.state.executorTable k = s.executorTable k →
      e.state.requests (e.left + bag) k ≤
        s.requests (task ::ₘ bag) k + (if task.isStream = true then 1 else 0) := by
    intro hk htable
    have hopens := h.opens_le hown k
    rw [requests, requests, htable, tasksOf_add, tasksOf_cons_of_none (RouterTask.onExecutor_of_isOwn hown k),
      ExecutorState.requests, ExecutorState.requests, Multiset.countP_add]
    omega
  cases h with
  | executor => cases hown
  | builds call r =>
    by_cases hnew : k = s.nextExecutor
    · rw [hnew]
      exact .inr (requests_buildExecutor hs)
    · have hold : k < s.nextExecutor := lt_of_le_of_ne (Nat.lt_succ_iff.mp hk) hnew
      exact .inl ⟨hold, hsame hold (buildExecutor_table hnew call r)⟩
  | starts => exact .inl ⟨hk, hsame hk rfl⟩
  | hands j t own htask htable hcount =>
    rw [hcount] at hk
    exact .inl ⟨hk, hsame hk (by rw [htable])⟩
  | nothing htask htable hcount =>
    rw [hcount] at hk
    exact .inl ⟨hk, hsame hk (by rw [htable])⟩

/-- A request on its way comes from a caller only. -/
theorem isStream_of_run (hrun : s.run task input = some e) : ∀ t ∈ e.left, t.isStream = false := by
  by_cases hown : task.isOwn = true
  · rcases own_lighter (n := 0) hown hrun with hlighter | ⟨_, _, _, rfl, -, -, rfl⟩
    · exact hlighter.streams
    · intro t ht
      obtain rfl := Multiset.mem_singleton.mp ht
      rfl
  · cases task with
    | executor k t =>
      obtain ⟨i, effect, -, -, -, rfl⟩ := executor_of_run hrun
      intro t' ht
      rw [afterExecutor_left, Multiset.mem_coe] at ht
      obtain ⟨t'', -, rfl⟩ := List.mem_map.mp ht
      rfl
    | _ => exact absurd rfl hown

/-- **A step sends no executor more than was bound for it.** -/
theorem Bounded.run (h : Bounded n s (task ::ₘ bag)) (hok : Ok s (task ::ₘ bag))
    (hrun : s.run task input = some e) : Bounded n e.state (e.left + bag) := by
  have hran := ran_of_run hrun
  have hstreams := h.streams
  rw [Multiset.countP_cons] at hstreams
  have hleft : e.left.countP (fun t => t.isStream = true) = 0 :=
    Multiset.countP_eq_zero.mpr fun t ht => by simp [isStream_of_run hrun t ht]
  have hcount : (e.left + bag).countP (fun t => t.isStream = true) = bag.countP fun t => t.isStream = true := by
    rw [Multiset.countP_add, hleft, Nat.zero_add]
  refine ⟨hcount ▸ (Nat.le_add_right _ _).trans hstreams, fun k hk => ?_⟩
  rw [hcount]
  by_cases hown : task.isOwn = true
  · rcases (hran.seen hok.tables).requests_le hok.serving hown hk with ⟨hold, hle⟩ | hzero
    · have hrequests := h.requests k hold
      rw [Multiset.countP_cons] at hrequests
      omega
    · omega
  · cases task with
    | executor j t =>
      obtain ⟨i, effect, rfl, hj, heffect, rfl⟩ := executor_of_run hrun
      rw [(fixed_afterExecutor j t effect).nextExecutor] at hk
      have hrequests := h.requests k hk
      rw [Multiset.countP_cons] at hrequests
      rw [requests_afterExecutor hok.serving hj heffect]
      omega
    | _ => exact absurd rfl hown

/-! ### The order of a thread's tasks -/

/-- A thread of the engine in order: a request on its way has its thread to itself, and
the work for an executor that is not all a thread has left comes to its end. -/
def InOrder (s : RouterState) (tasks : List RouterTask) : Prop :=
  (∃ request, tasks = [.stream request]) ∨
    ∃ (k : ExecutorId) (ts : List ExecutorTask) (own : List RouterTask), tasks = ts.map (.executor k) ++ own ∧
      (∀ t ∈ own, t.isOwn = true ∧ t.isStream = false) ∧
      (own ≠ [] → ts ≠ [] → k < s.nextExecutor ∧ Sequenced (s.executorTable k).state.nextHandle (ts ++ [.snapshot]))

/-- A step that takes back no executor and no handle. -/
structure Grows (s s' : RouterState) : Prop where
  executors : s.nextExecutor ≤ s'.nextExecutor
  handles : ∀ k < s.nextExecutor, (s.executorTable k).state.nextHandle ≤ (s'.executorTable k).state.nextHandle

theorem InOrder.of_own (s : RouterState) {own : List RouterTask}
    (h : ∀ t ∈ own, t.isOwn = true ∧ t.isStream = false) : s.InOrder own :=
  .inr ⟨0, [], own, rfl, h, fun _ hne => absurd rfl hne⟩

theorem InOrder.of_executor (s : RouterState) (k : ExecutorId) (ts : List ExecutorTask) :
    s.InOrder (ts.map (.executor k)) :=
  .inr ⟨k, ts, [], (List.append_nil _).symm, by simp, fun hne => absurd rfl hne⟩

theorem InOrder.mono {s' : RouterState} {tasks : List RouterTask} (h : s.InOrder tasks) (hgrows : Grows s s') :
    s'.InOrder tasks := by
  rcases h with hstream | ⟨k, ts, own, heq, hown, hbefore⟩
  · exact .inl hstream
  · refine .inr ⟨k, ts, own, heq, hown, fun hne hts => ?_⟩
    obtain ⟨hk, hsequenced⟩ := hbefore hne hts
    exact ⟨hk.trans_le hgrows.executors, hsequenced.mono (hgrows.handles k hk)⟩

theorem Seen.grows (h : Seen s task e) (hok : Ok s (task ::ₘ bag)) : Grows s e.state := by
  cases h with
  | @executor k t i effect hk hrun =>
    refine ⟨(fixed_afterExecutor k t effect).nextExecutor.ge, fun j hj => ?_⟩
    rw [afterExecutor_table]
    by_cases hjk : j = k
    · subst hjk
      rw [Function.update_self]
      show _ ≤ effect.state.nextHandle
      rw [(ExecutorState.counts_run "" (hok.serving.ok j hk).queue hrun).2.1]
      exact Nat.le_add_right _ _
    · rw [Function.update_of_ne hjk]
  | builds call r => exact ⟨Nat.le_succ _, fun k hk => by rw [buildExecutor_table hk.ne]⟩
  | starts => exact ⟨le_rfl, fun _ _ => le_rfl⟩
  | hands k t own htask htable hcount => exact ⟨hcount.ge, fun j _ => by rw [htable]⟩
  | nothing htask htable hcount => exact ⟨hcount.ge, fun j _ => by rw [htable]⟩

variable {rest : List RouterTask}

/-- After one of its own tasks a thread has only such. -/
theorem InOrder.own_rest (h : s.InOrder (task :: rest)) (hown : task.isOwn = true) :
    (∀ t ∈ rest, t.isOwn = true ∧ t.isStream = false) ∧ (task.isStream = true → rest = []) := by
  rcases h with ⟨request, heq⟩ | ⟨k, ts, own, heq, howned, -⟩
  · obtain ⟨-, rfl⟩ := List.cons.inj heq
    exact ⟨by simp, fun _ => rfl⟩
  · cases ts with
    | nil =>
      obtain rfl : task :: rest = own := heq
      refine ⟨fun t ht => howned t (List.mem_cons_of_mem _ ht), fun hstream => ?_⟩
      rw [(howned task (List.mem_cons_self ..)).2] at hstream
      cases hstream
    | cons t ts =>
      obtain ⟨rfl, -⟩ := List.cons.inj heq
      cases hown

/-- After a task of an executor's it has more of these, and then its own. -/
theorem InOrder.executor_rest {k : ExecutorId} {t : ExecutorTask} (h : s.InOrder (.executor k t :: rest)) :
    ∃ (ts : List ExecutorTask) (own : List RouterTask), rest = ts.map (.executor k) ++ own ∧
      (∀ t ∈ own, t.isOwn = true ∧ t.isStream = false) ∧ (own ≠ [] → k < s.nextExecutor ∧
        Sequenced (s.executorTable k).state.nextHandle (t :: (ts ++ [.snapshot]))) := by
  rcases h with ⟨request, heq⟩ | ⟨j, ts, own, heq, howned, hbefore⟩
  · cases (List.cons.inj heq).1
  · cases ts with
    | nil =>
      obtain rfl : .executor k t :: rest = own := heq
      cases (howned _ (List.mem_cons_self ..)).1
    | cons t' ts =>
      obtain ⟨hhead, rfl⟩ := List.cons.inj heq
      cases hhead
      exact ⟨ts, own, rfl, howned, fun hne => hbefore hne (by simp)⟩

/-- **Every thread stays in order.** -/
theorem InOrder.run (h : s.InOrder (task :: rest)) (hok : Ok s (task ::ₘ bag)) (hrun : s.run task input = some e) :
    e.state.InOrder (e.next ++ rest) ∧ ∀ tasks ∈ e.spawned, e.state.InOrder tasks := by
  have hseen := (ran_of_run hrun).seen hok.tables
  have hgrows := hseen.grows hok
  have hnext : ∀ t ∈ e.next, t.isStream = false := fun t ht =>
    isStream_of_run hrun t (Multiset.mem_coe.mpr (List.mem_append_left _ ht))
  cases hseen with
  | @executor k t i effect hk heffect =>
    obtain ⟨ts, own, rfl, hown, hbefore⟩ := h.executor_rest
    refine ⟨.inr ⟨k, effect.next ++ ts, own, by simp [afterExecutor], hown, fun hne _ => ?_⟩,
      fun tasks htasks => ?_⟩
    · obtain ⟨hk, hsequenced⟩ := hbefore hne
      have hexecutor := hok.serving.ok k hk
      rw [tasksOf_cons_executor, if_pos rfl, Multiset.singleton_add] at hexecutor
      have hthen := ExecutorState.sequenced_run hexecutor hsequenced heffect
      rw [List.append_assoc]
      exact ⟨hk.trans_le hgrows.executors, hthen.mono (hgrows.handles k hk)⟩
    · obtain ⟨tasks', -, rfl⟩ := List.mem_map.mp htasks
      exact .of_executor _ k tasks'
  | builds call r =>
    refine ⟨.of_own _ fun t ht => ?_, by simp [RouterState.buildExecutor]⟩
    rcases List.mem_append.mp ht with ht | ht
    · obtain rfl := List.mem_singleton.mp ht
      exact ⟨rfl, rfl⟩
    · exact (h.own_rest rfl).1 t ht
  | starts call r k =>
    refine ⟨.of_own _ fun t ht => ?_, List.forall_mem_singleton.mpr (.of_executor _ k [.runLoop])⟩
    rcases List.mem_append.mp ht with ht | ht
    · obtain rfl := List.mem_singleton.mp ht
      exact ⟨rfl, rfl⟩
    · exact (h.own_rest rfl).1 t ht
  | hands k t own htask htable hcount hspawned heq hown hk hentry hkind =>
    rw [hspawned]
    refine ⟨.inr ⟨k, [t], own ++ rest, by simp [heq], fun t' ht => ?_, fun hne _ => ?_⟩, by simp⟩
    · rcases List.mem_append.mp ht with ht | ht
      · exact ⟨hown t' ht, hnext t' (by simp [heq, ht])⟩
      · exact (h.own_rest htask).1 t' ht
    · refine ⟨hcount ▸ hk, ?_⟩
      rcases hkind with ⟨hstream, rfl⟩ | rfl | rfl
      · exact absurd ((h.own_rest htask).2 hstream) hne
      · simp [Sequenced, ExecutorTask.final]
      · simp [Sequenced, ExecutorTask.final]
  | nothing htask htable hcount hspawned hown =>
    rw [hspawned]
    refine ⟨.of_own _ fun t ht => ?_, by simp⟩
    rcases List.mem_append.mp ht with ht | ht
    · exact ⟨hown t ht, hnext t ht⟩
    · exact (h.own_rest htask).1 t ht

/-- The code outside answers whenever it has its turn. -/
def Answering : RouterAction → Prop
  | .call _ => False
  | .run _ input => input.Answers

variable {c : Config RouterState RouterTask}

/-- A thread that can do some of the work can change something. -/
theorem not_still {A : RouterAction → Prop} (hstill : routerProgram.Still A c) (input : RouterInput)
    (hallowed : ∀ thread, A (.run thread input)) (hmem : (task :: rest) ∈ c.threads)
    (hrun : c.state.run task input = some e)
    (hless : total (RouterTask.weight n) e.left + e.state.stock < task.weight n + c.state.stock) : False := by
  obtain ⟨thread, hthread⟩ := List.mem_iff_getElem?.mp hmem
  have hnext : c.next? thread = some task := by rw [Config.next?, hthread, Option.bind_some, List.head?_cons]
  obtain ⟨others, hold, hbag⟩ := Threads.Program.step_run_bag (p := routerProgram) hnext hrun
  refine hstill thread ⟨input, hallowed thread, fun heq => ?_⟩
  rw [heq, hold] at hbag
  have hstate := Threads.Program.step_run (p := routerProgram) hnext hrun
  rw [heq] at hstate
  have htotal := congrArg (total (RouterTask.weight n)) hbag
  rw [Threads.total_cons, Threads.total_add] at htotal
  rw [hstate] at hless
  omega

/-- Every task of the engine's own can be answered so that it gets on. -/
theorem exists_lighter (hok : Ok s bag) (hmem : task ∈ bag) (hown : task.isOwn = true) :
    ∃ input : RouterInput, input.Answers ∧ ∃ e, s.run task input = some e ∧ Lighter n task e := by
  have hgets : ∀ (input : RouterInput) (e : Step), input.Answers → s.run task input = some e →
      (∀ m deadline now, task = .awaitDrain m deadline → input = .clock now → deadline ≤ now) →
      ∃ input : RouterInput, input.Answers ∧ ∃ e, s.run task input = some e ∧ Lighter n task e := by
    intro input e hanswers hrun hlate
    rcases own_lighter (n := n) hown hrun with hlighter | ⟨m, deadline, now, htask, hinput, hearly, -⟩
    · exact ⟨input, hanswers, e, hrun, hlighter⟩
    · exact absurd hearly (not_lt.mpr (hlate m deadline now htask hinput))
  cases task with
  | executor k t => cases hown
  | stream request => exact hgets (.uuid "") _ trivial rfl (by simp)
  | queryGpuBefore call | queryGpuAfter call r k => exact hgets (.subprocess (.ok none)) _ trivial rfl (by simp)
  | buildRuntime call => exact hgets (.built {}) _ trivial rfl (by simp)
  | setDeadline modelName shutdown => exact hgets (.clock 0) _ trivial rfl (by simp)
  | awaitDrain modelName deadline =>
    obtain ⟨state, hstate⟩ : ∃ state, s.modelState? modelName = some state := by
      have hlifecycle := hok.charged.lifecycle ⟨modelName, .unloading, none, none⟩
        ((Multiset.mem_filterMap _ _).mpr ⟨_, hmem, rfl⟩)
      obtain ⟨state, hstate, -⟩ := Option.map_eq_some_iff.mp hlifecycle
      exact ⟨state, hstate⟩
    refine hgets (.clock deadline) _ trivial (by simp only [RouterState.run, awaitDrain, hstate]; rfl) ?_
    rintro m d now ⟨⟩ ⟨⟩
    exact le_rfl
  | closeRuntime modelName k r => cases r <;> exact hgets .returns _ trivial rfl (by simp)
  | _ => exact hgets .returns _ trivial rfl (by simp)

/-- The engine after a schedule, with a bound on what its executors have been sent, when
nothing changes any more. -/
structure Rests (n : ℕ) (c : Config RouterState RouterTask) (started : ExecutorId → Bool) : Prop where
  ok : Ok c.state c.bag
  playing : Playing c.state c.threads started
  inOrder : ∀ tasks ∈ c.threads, c.state.InOrder tasks
  bounded : Bounded n c.state c.bag
  still : routerProgram.Still Answering c

namespace Rests

variable {started : ExecutorId → Bool} {k : ExecutorId} {t : ExecutorTask}

theorem mem_bag {c : Config RouterState RouterTask} (hmem : (task :: rest) ∈ c.threads) : task ∈ c.bag :=
  Multiset.mem_coe.mpr (List.mem_flatten.mpr ⟨_, hmem, List.mem_cons_self ..⟩)

/-- No thread is left with a task of the engine's own before it. -/
theorem not_own (h : Rests n c started) (hmem : (task :: rest) ∈ c.threads) : task.isOwn = false := by
  by_contra hown
  rw [Bool.not_eq_false] at hown
  obtain ⟨input, hanswers, e, hrun, hlighter⟩ := exists_lighter (n := n) h.ok (mem_bag hmem) hown
  obtain ⟨others, hbag⟩ := Multiset.exists_cons_of_mem (mem_bag hmem)
  refine not_still (n := n) h.still input (fun _ => hanswers) hmem hrun ?_
  rw [((ran_of_run hrun).seen (hbag ▸ h.ok.tables)).stock_eq hown]
  exact Nat.add_lt_add_right hlighter.less _

/-- A thread with an executor's task before it is stuck. -/
theorem stuck (h : Rests n c started) (hk : k < c.state.nextExecutor) (hmem : (.executor k t :: rest) ∈ c.threads) :
    (c.state.executorTable k).state.Stuck t := by
  intro i hanswers
  by_contra hsome
  obtain ⟨effect, heffect⟩ := Option.ne_none_iff_exists'.mp hsome
  obtain ⟨others, hbag⟩ := Multiset.exists_cons_of_mem (mem_bag hmem)
  have hrun : c.state.run (.executor k t) (.executor i) = some (c.state.afterExecutor k t effect) := by
    simp [RouterState.run, runExecutor, hk, heffect]
  exact not_still (n := n) h.still (.executor i) (fun _ => hanswers) hmem hrun
    (executor_spends (hbag ▸ h.ok) (hbag ▸ h.bounded) hanswers hk heffect)

/-- A thread that has work left for executor `k` has it before everything else. -/
theorem exists_rest (h : Rests n c started) {ts : List ExecutorTask} (hmem : (t :: ts) ∈ threadsOf k c.threads) :
    ∃ rest, (.executor k t :: rest) ∈ c.threads := by
  obtain ⟨tasks, htasks, heq⟩ := List.mem_map.mp hmem
  cases tasks with
  | nil => cases heq
  | cons first rest =>
    cases first with
    | executor j t' =>
      by_cases hjk : j = k
      · subst hjk
        rw [List.filterMap_cons_some (RouterTask.onExecutor_self j t')] at heq
        obtain ⟨rfl, -⟩ := List.cons.inj heq
        exact ⟨rest, htasks⟩
      · obtain ⟨ts', own, rfl, hown⟩ := (h.playing.tidy _ htasks).executor_rest
        rw [List.filterMap_cons_none (RouterTask.onExecutor_of_ne hjk t'), List.filterMap_append,
          filterMap_executor_of_ne hjk, filterMap_own hown] at heq
        cases heq
    | _ => cases h.not_own htasks

/-- What is left to do for executor `k` waits. -/
theorem waits (h : Rests n c started) (hk : k < c.state.nextExecutor) {ts : List ExecutorTask}
    (hmem : (t :: ts) ∈ threadsOf k c.threads) : (c.state.executorTable k).state.Waits t ∧ ts = [] := by
  obtain ⟨target, calls, hshows⟩ := h.playing.plays k hk
  refine (ExecutorState.after_reached _ _ target _ _ calls).waits_of_shows hshows (fun tasks htasks => ?_)
    (fun first rest' hfirst => ?_) hmem
  · rw [heldBack] at htasks
    split_ifs at htasks
    · exact absurd htasks (Multiset.notMem_zero _)
    · exact Multiset.mem_singleton.mp htasks
  · obtain ⟨rest'', hrest⟩ := h.exists_rest hfirst
    exact h.stuck hk hrest

/-- Every request sent to executor `k` is over. -/
theorem requests_ended (h : Rests n c started) (hk : k < c.state.nextExecutor) :
    c.state.requests c.bag k = c.state.finishedStreams k := by
  cases hstarted : started k with
  | false =>
    have hzero : c.state.requests c.bag k = 0 := h.playing.unstarted k hk hstarted
    have hle := h.ok.serving.finishedStreams_le hk
    omega
  | true =>
    obtain ⟨target, calls, hshows⟩ := h.playing.plays k hk
    rw [heldBack, hstarted, if_pos rfl] at hshows
    have htasks : tasksOf k c.bag = ↑(threadsOf k c.threads).flatten := tasksOf_flatten k c.threads
    rw [requests, htasks]
    refine (ExecutorState.after_reached _ _ target _ _ calls).over_of_shows hshows (fun first rest' hfirst => ?_)
      (htasks ▸ h.ok.serving.served k hk)
    obtain ⟨rest'', hrest⟩ := h.exists_rest hfirst
    exact h.stuck hk hrest

/-- There is nothing left to do for a request. -/
theorem quiescent (h : Rests n c started) (hk : k < c.state.nextExecutor) :
    ExecutorState.Quiescent (c.state.executorTable k).state (tasksOf k c.bag) :=
  ExecutorState.quiescent (h.ok.serving.ok k hk) (h.ok.serving.served k hk) (h.requests_ended hk)

/-- A thread is left with work for one executor, and that waits. -/
theorem left (h : Rests n c started) (htask : task ∈ c.bag) :
    ∃ k t, task = .executor k t ∧ (k < c.state.nextExecutor → (c.state.executorTable k).state.Waits t) := by
  obtain ⟨tasks, htasks, hin⟩ := List.mem_flatten.mp (Multiset.mem_coe.mp htask)
  cases tasks with
  | nil => cases hin
  | cons first rest =>
    cases first with
    | executor k t =>
      obtain ⟨ts, own, rfl, hown, hbefore⟩ := (h.inOrder _ htasks).executor_rest
      have hshare : (t :: ts) ∈ threadsOf k c.threads := by
        refine List.mem_map.mpr ⟨_, htasks, ?_⟩
        rw [List.filterMap_cons_some (RouterTask.onExecutor_self k t), List.filterMap_append,
          filterMap_executor_self, filterMap_own fun t ht => (hown t ht).1, List.append_nil]
      have hnone : own = [] := by
        by_contra hne
        obtain ⟨hk, hfinal, -, hcancel, -⟩ := hbefore hne
        -- what comes before the engine's own tasks does not wait
        obtain ⟨hwaits, rfl⟩ := h.waits hk hshare
        cases t with
        | readEvent | parked | addTerminalCallback => cases hfinal rfl
        | cancel handle => exact absurd hwaits (not_le.mpr ((hcancel handle rfl).resolve_left (by simp)))
        | _ => exact hwaits.elim
      rw [hnone, List.append_nil] at hin
      rcases List.mem_cons.mp hin with rfl | hlater
      · exact ⟨k, t, rfl, fun hk => (h.waits hk hshare).1⟩
      · obtain ⟨t', ht', rfl⟩ := List.mem_map.mp hlater
        refine ⟨k, t', rfl, fun hk => ?_⟩
        rw [(h.waits hk hshare).2] at ht'
        cases ht'
    | _ => cases h.not_own htasks

end Rests

end RouterState
end TtsPool
