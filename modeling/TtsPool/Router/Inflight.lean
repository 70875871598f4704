/-
# The count of a model's requests

`inflight_requests` counts the requests of a model over all the executors it has
had: a timed-out unload and a reload leave the old executor behind, and its
requests in the count.  `Counted` says so: the count, and the calls of
`_stream_finished` made, are the requests that `stream` has sent.  A call of
`_stream_finished` is of a request not finished before, so it finds the count
positive.
-/

import TtsPool.Router.Serving
import Mathlib.Algebra.BigOperators.Group.Finset.Piecewise
import Mathlib.Algebra.Order.BigOperators.Group.Finset

namespace TtsPool

open Threads (Effect)

namespace RouterState

variable {s : RouterState} {task : RouterTask} {bag : Multiset RouterTask} {e : Step} {m : String}

/-- The executors a model has had. -/
def executorsOf (s : RouterState) (m : String) : Finset ExecutorId :=
  (Finset.range s.nextExecutor).filter fun k => (s.executorTable k).modelName = m

theorem mem_executorsOf {k : ExecutorId} :
    k ∈ s.executorsOf m ↔ k < s.nextExecutor ∧ (s.executorTable k).modelName = m := by
  rw [executorsOf, Finset.mem_filter, Finset.mem_range]

/-- **The count and the calls made are the requests sent.** -/
def Counted (s : RouterState) (bag : Multiset RouterTask) : Prop :=
  ∀ m, s.inflight m + ∑ k ∈ s.executorsOf m, s.finishedStreams k = ∑ k ∈ s.executorsOf m, s.requests bag k

/-- No more calls are made than requests sent. -/
theorem Serving.finishedStreams_le (h : Serving s bag) {k : ExecutorId} (hk : k < s.nextExecutor) :
    s.finishedStreams k ≤ s.requests bag k := by
  rw [requests, ExecutorState.requests_eq (h.ok k hk) (h.served k hk)]
  exact Nat.le_add_left _ _

/-- With a request that has not made its call, the count is positive. -/
theorem Counted.pos (h : Counted s bag) (hs : Serving s bag) {k : ExecutorId} (hk : k ∈ s.executorsOf m)
    (hlt : s.finishedStreams k < s.requests bag k) : 0 < s.inflight m := by
  have hsum : ∑ j ∈ s.executorsOf m, s.finishedStreams j < ∑ j ∈ s.executorsOf m, s.requests bag j :=
    Finset.sum_lt_sum (fun j hj => hs.finishedStreams_le (mem_executorsOf.mp hj).1) ⟨k, hk, hlt⟩
  have hcounted := h m
  omega

/-- Once the count is zero, every request has made its call. -/
theorem Counted.finished (h : Counted s bag) (hs : Serving s bag) (hnone : s.inflight m = 0) {k : ExecutorId}
    (hk : k ∈ s.executorsOf m) : s.requests bag k = s.finishedStreams k := by
  by_contra hne
  have hlt := lt_of_le_of_ne (hs.finishedStreams_le (mem_executorsOf.mp hk).1) (Ne.symm hne)
  exact (h.pos hs hk hlt).ne' hnone

theorem executorsOf_congr {s' : RouterState} (hnext : s'.nextExecutor = s.nextExecutor)
    (hname : ∀ k, (s'.executorTable k).modelName = (s.executorTable k).modelName) (m : String) :
    s'.executorsOf m = s.executorsOf m := by
  simp only [executorsOf, hnext, hname]

/-! ### A step keeps the count -/

/-- What handing streams to be opened to an executor adds to the requests. -/
theorem Hands.requests {k : ExecutorId} {handed : Multiset ExecutorTask} (hh : Hands s task e k handed)
    (j : ExecutorId) : e.state.requests (e.left + bag) j = s.requests (task ::ₘ bag) j +
      if j = k then handed.countP (fun t => t.opens = true) else 0 := by
  rw [RouterState.requests, RouterState.requests, hh.table, hh.tasksOf, ExecutorState.requests,
    ExecutorState.requests, Multiset.countP_add]
  split_ifs
  · omega
  · rw [Multiset.countP_zero]
    omega

theorem Counted.hands {k : ExecutorId} {handed : Multiset ExecutorTask} (h : Counted s (task ::ₘ bag))
    (hh : Hands s task e k handed) : Counted e.state (e.left + bag) := by
  intro m
  have hexecutors : e.state.executorsOf m = s.executorsOf m :=
    executorsOf_congr hh.next (fun j => by rw [hh.table]) m
  have hfinished : ∀ j, e.state.finishedStreams j = s.finishedStreams j := fun j => by
    rw [finishedStreams, finishedStreams, hh.table]
  have hopened : ∑ j ∈ s.executorsOf m, (if j = k then handed.countP (fun t => t.opens = true) else 0) =
      if (s.executorTable k).modelName = m then handed.countP (fun t => t.opens = true) else 0 := by
    rw [Finset.sum_ite_eq']
    by_cases hname : (s.executorTable k).modelName = m
    · rw [if_pos hname]
      split_ifs with hk
      · rfl
      · -- nothing is handed to an executor that does not exist
        refine (Multiset.countP_eq_zero.mpr fun t ht _ => hk ?_).symm
        exact mem_executorsOf.mpr ⟨(hh.given t ht).1, hname⟩
    · rw [if_neg hname, if_neg fun hk => hname (mem_executorsOf.mp hk).2]
  have hold := h m
  rw [hexecutors, hh.inflight]
  simp only [hh.requests, hfinished, Finset.sum_add_distrib, hopened]
  omega

/-- A callback that a handle of executor `k` holds is of the executor's model. -/
theorem Serving.streamFinished_eq {k : ExecutorId} {t : ExecutorTask} (h : Serving s bag)
    (hk : k < s.nextExecutor) (ht : RouterTask.executor k t ∈ bag) {name : String}
    (hname : t.streamFinished (s.executorTable k).modelName = some name) :
    name = (s.executorTable k).modelName := by
  have hproper := (h.served k hk).tasks t
    ((Multiset.mem_filterMap _ _).mpr ⟨_, ht, RouterTask.onExecutor_self k t⟩)
  cases t with
  | raised handle error => exact (Option.some.inj hname).symm
  | runTerminalCallbacks handle callbacks =>
    rcases callbacks with _ | ⟨callback | id, callbacks⟩
    · cases hname
    · obtain rfl := Option.some.inj hname
      exact hproper _ (List.mem_cons_self ..)
    · cases hname
  | _ => cases hname

theorem requests_afterExecutor {k : ExecutorId} {t : ExecutorTask} {input : ExecutorInput}
    {effect : Effect ExecutorState ExecutorTask} (hs : Serving s (.executor k t ::ₘ bag))
    (hk : k < s.nextExecutor) (hrun : (s.executorTable k).state.run t input = some effect) (j : ExecutorId) :
    (s.afterExecutor k t effect).state.requests ((s.afterExecutor k t effect).left + bag) j =
      s.requests (.executor k t ::ₘ bag) j := by
  rw [requests, requests, tasksOf_afterExecutor, tasksOf_cons_executor, afterExecutor_table]
  by_cases hj : k = j
  · subst hj
    rw [if_pos rfl, if_pos rfl, Function.update_self, Multiset.singleton_add]
    exact ExecutorState.requests_run (hs.ok k hk).queue hrun
  · rw [if_neg hj, if_neg hj, Function.update_of_ne (Ne.symm hj)]

theorem finishedStreams_afterExecutor {k : ExecutorId} {t : ExecutorTask} {input : ExecutorInput}
    {effect : Effect ExecutorState ExecutorTask} (hs : Serving s (.executor k t ::ₘ bag))
    (hk : k < s.nextExecutor) (hrun : (s.executorTable k).state.run t input = some effect) (j : ExecutorId) :
    (s.afterExecutor k t effect).state.finishedStreams j = s.finishedStreams j +
      if j = k then (if (t.streamFinished (s.executorTable k).modelName).isSome = true then 1 else 0) else 0 := by
  rw [finishedStreams, finishedStreams, afterExecutor_table]
  by_cases hj : j = k
  · subst hj
    rw [if_pos rfl, Function.update_self]
    exact (ExecutorState.counts_run _ (hs.ok j hk).queue hrun).2.2
  · rw [if_neg hj, Function.update_of_ne hj]
    rfl

/-- What the call of `_stream_finished` in an executor's step does to the
counts. -/
theorem inflight_afterExecutor (k : ExecutorId) (t : ExecutorTask) (effect : Effect ExecutorState ExecutorTask)
    (m : String) : (s.afterExecutor k t effect).state.inflight m =
      s.inflight m - if t.streamFinished (s.executorTable k).modelName = some m then 1 else 0 := by
  cases hname : t.streamFinished (s.executorTable k).modelName with
  | none => simp [afterExecutor, hname, inflight, modelState?, setExecutor]
  | some name =>
    simp only [afterExecutor, hname, inflight, modelState?, setExecutor, streamFinished_modelStates]
    by_cases hm : m = name
    · subst hm
      rw [if_pos rfl, if_pos rfl]
      cases s.engine.modelStates.get? m with
      | none => rfl
      | some state =>
        simp only [Option.map_some, Option.getD_some]
        split_ifs
        · rfl
        · omega
    · rw [if_neg hm, if_neg fun h => hm (Option.some.inj h).symm, Nat.sub_zero]

/-- **The guard of `_stream_finished` finds a request to count down.** -/
theorem Counted.pos_of_streamFinished {k : ExecutorId} {t : ExecutorTask} (h : Counted s bag)
    (hs : Serving s bag) (hk : k < s.nextExecutor) (ht : RouterTask.executor k t ∈ bag)
    (hcall : (t.streamFinished (s.executorTable k).modelName).isSome = true) :
    0 < s.inflight (s.executorTable k).modelName := by
  refine h.pos hs (mem_executorsOf.mpr ⟨hk, rfl⟩) ?_
  have hpos : 0 < (calls (tasksOf k bag)).card := ExecutorState.calls_pos
    ((Multiset.mem_filterMap _ _).mpr ⟨_, ht, RouterTask.onExecutor_self k t⟩) hcall
  rw [requests, ExecutorState.requests_eq (hs.ok k hk) (hs.served k hk), finishedStreams]
  omega

theorem Counted.executor {k : ExecutorId} {t : ExecutorTask} {input : ExecutorInput}
    {effect : Effect ExecutorState ExecutorTask} (h : Counted s (.executor k t ::ₘ bag))
    (hs : Serving s (.executor k t ::ₘ bag)) (hk : k < s.nextExecutor)
    (hrun : (s.executorTable k).state.run t input = some effect) :
    Counted (s.afterExecutor k t effect).state ((s.afterExecutor k t effect).left + bag) := by
  intro m
  have hfixed := fixed_afterExecutor (s := s) k t effect
  have hcalled : ∑ j ∈ s.executorsOf m, (if j = k then
      (if (t.streamFinished (s.executorTable k).modelName).isSome = true then 1 else 0) else 0) =
      if t.streamFinished (s.executorTable k).modelName = some m then 1 else 0 := by
    rw [Finset.sum_ite_eq']
    cases hname : t.streamFinished (s.executorTable k).modelName with
    | none => simp
    | some name =>
      obtain rfl := hs.streamFinished_eq hk (Multiset.mem_cons_self _ _) hname
      simp [mem_executorsOf, hk]
  have hpos : t.streamFinished (s.executorTable k).modelName = some m → 0 < s.inflight m := by
    intro hname
    obtain rfl := hs.streamFinished_eq hk (Multiset.mem_cons_self _ _) hname
    exact h.pos_of_streamFinished hs hk (Multiset.mem_cons_self _ _) (by rw [hname]; rfl)
  have hold := h m
  rw [executorsOf_congr hfixed.nextExecutor hfixed.modelName, inflight_afterExecutor]
  simp only [requests_afterExecutor hs hk hrun, finishedStreams_afterExecutor hs hk hrun,
    Finset.sum_add_distrib, hcalled]
  split_ifs with hname
  · have := hpos hname
    omega
  · omega

theorem Counted.buildExecutor {call : LoadCall} {r : RuntimeId} (h : Counted s (.buildExecutor call r ::ₘ bag))
    (hs : Serving s (.buildExecutor call r ::ₘ bag)) :
    Counted (s.buildExecutor call r).state ((s.buildExecutor call r).left + bag) := by
  intro m
  have hnew : (s.buildExecutor call r).state.requests ((s.buildExecutor call r).left + bag) s.nextExecutor = 0 ∧
      (s.buildExecutor call r).state.finishedStreams s.nextExecutor = 0 := by
    have htable : ∃ executor, (s.buildExecutor call r).state.executorTable s.nextExecutor = executor ∧
        executor.state.nextHandle = 0 ∧ executor.state.streamsFinished = [] :=
      ⟨_, Function.update_self _ _ _, rfl, rfl⟩
    obtain ⟨executor, htable, hhandles, hfinished⟩ := htable
    rw [requests, finishedStreams, htable, ExecutorState.requests, hhandles, hfinished, buildExecutor_left]
    refine ⟨?_, rfl⟩
    rw [Nat.add_zero]
    exact Multiset.countP_eq_zero.mpr fun t ht => by simp [(hs.fresh _ le_rfl t ht).opens]
  have hold : ∀ k ∈ s.executorsOf m, (s.buildExecutor call r).state.requests
      ((s.buildExecutor call r).left + bag) k = s.requests (.buildExecutor call r ::ₘ bag) k ∧
      (s.buildExecutor call r).state.finishedStreams k = s.finishedStreams k := by
    intro k hk
    have hk := (mem_executorsOf.mp hk).1
    rw [requests, requests, finishedStreams, finishedStreams, buildExecutor_table hk.ne, buildExecutor_left]
    exact ⟨rfl, rfl⟩
  -- the new executor is one more, with nothing to count
  have hsum : ∀ f : ExecutorId → ℕ, f s.nextExecutor = 0 →
      ∑ k ∈ (s.buildExecutor call r).state.executorsOf m, f k = ∑ k ∈ s.executorsOf m, f k := by
    intro f hzero
    refine (Finset.sum_subset (fun k hk => ?_) fun k hk hnot => ?_).symm
    · obtain ⟨hlt, hname⟩ := mem_executorsOf.mp hk
      refine mem_executorsOf.mpr ⟨hlt.trans (Nat.lt_succ_self _), ?_⟩
      rw [buildExecutor_table hlt.ne, hname]
    · obtain ⟨hlt, hname⟩ := mem_executorsOf.mp hk
      rcases Nat.lt_succ_iff_lt_or_eq.mp hlt with hlt | rfl
      · rw [buildExecutor_table hlt.ne] at hname
        exact absurd (mem_executorsOf.mpr ⟨hlt, hname⟩) hnot
      · exact hzero
  rw [hsum _ hnew.2, hsum _ hnew.1, Finset.sum_congr rfl fun k hk => (hold k hk).1,
    Finset.sum_congr rfl fun k hk => (hold k hk).2]
  exact h m

/-- **A step keeps the count.** -/
theorem Counted.run (h : Counted s (task ::ₘ bag)) (hs : Serving s (task ::ₘ bag)) (hh : Handing s task e) :
    Counted e.state (e.left + bag) := by
  cases hh with
  | executor hk hrun => exact h.executor hs hk hrun
  | buildExecutor call r => exact h.buildExecutor hs
  | hands k handed hh => exact h.hands hh

end RouterState
end TtsPool
