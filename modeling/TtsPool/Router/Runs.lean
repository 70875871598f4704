/-
# Runs of the router

What holds after any schedule of the threads around one engine: callers of
`stream`, `load_model` and `unload_model`, callers of the handles that `stream`
returned, and the threads of every executor.  `Ok` collects the invariants, and
`runs_of_ok` is the rule by which others are proved beside them.

`inflight_accounted`: `inflight_requests` counts, over all the executors a model
has had, the requests undecided, open, or with their call of `_stream_finished`
still to be made, and each request makes that call once.
-/

import TtsPool.Router.Inflight

namespace TtsPool

open Threads (Effect Action Config)

/-- A schedule of the threads around one engine. -/
abbrev RouterAction := Action RouterTask RouterInput

/-- What a caller enters with: no model in charge, and no task of an executor
but a call from outside. -/
theorem RouterTask.charge_of_entry {task : RouterTask} (h : task.entry = true) : task.charge = none := by
  cases task <;> first | rfl | cases h

theorem RouterTask.outside_of_entry {task : RouterTask} (h : task.entry = true) {k : ExecutorId}
    {t : ExecutorTask} (hown : task.onExecutor k = some t) : RouterState.Outside t := by
  cases task with
  | executor j t' =>
    obtain ⟨-, rfl⟩ : j = k ∧ t' = t := by simpa [onExecutor] using hown
    cases t' with
    | snapshot => exact ⟨fun _ => ⟨⟨rfl, rfl, rfl, rfl⟩, trivial, rfl⟩, rfl⟩
    | cancel handle => exact ⟨fun _ => ⟨⟨rfl, rfl, rfl, rfl⟩, trivial, rfl⟩, rfl⟩
    | readEvent handle => exact ⟨fun _ => ⟨⟨rfl, rfl, rfl, rfl⟩, trivial, rfl⟩, rfl⟩
    | addTerminalCallback handle callback =>
      cases callback with
      | streamFinished name => cases h
      | other id => exact ⟨fun _ => ⟨⟨rfl, rfl, rfl, rfl⟩, rfl, rfl⟩, rfl⟩
    | _ => cases h
  | _ => cases hown

namespace RouterState

/-- **The invariant of the engine and of the tasks of all threads.** -/
structure Ok (s : RouterState) (bag : Multiset RouterTask) : Prop where
  charged : Charged s bag
  tables : Tables s bag
  serving : Serving s bag
  counted : Counted s bag

variable {s : RouterState} {task : RouterTask} {bag : Multiset RouterTask} {e : Step} {input : RouterInput}

theorem Ok.run (h : Ok s (task ::ₘ bag)) (hr : Ran s task input e) : Ok e.state (e.left + bag) where
  charged := h.charged.run hr.recharged
  tables := h.tables.run h.charged hr
  serving := h.serving.run (hr.handing h.tables)
  counted := h.counted.run h.serving (hr.handing h.tables)

/-- A call that comes in is, to an executor, a call from outside or nothing. -/
theorem tasksOf_entry (hentry : task.entry = true) (k : ExecutorId) (bag : Multiset RouterTask) :
    tasksOf k (task ::ₘ bag) = tasksOf k bag ∨
      ∃ t, Outside t ∧ tasksOf k (task ::ₘ bag) = t ::ₘ tasksOf k bag := by
  cases hown : task.onExecutor k with
  | none => exact .inl (tasksOf_cons_of_none hown bag)
  | some t =>
    exact .inr ⟨t, RouterTask.outside_of_entry hentry hown, Multiset.filterMap_cons_some _ _ _ hown⟩

theorem charges_entry (hentry : task.entry = true) (bag : Multiset RouterTask) :
    charges (task ::ₘ bag) = charges bag :=
  Multiset.filterMap_cons_none _ _ (RouterTask.charge_of_entry hentry)

theorem requests_entry (hentry : task.entry = true) (bag : Multiset RouterTask) (k : ExecutorId) :
    s.requests (task ::ₘ bag) k = s.requests bag k := by
  rcases tasksOf_entry hentry k bag with htasks | ⟨t, hout, htasks⟩
  · rw [requests, requests, htasks]
  · rw [requests, requests, htasks, ExecutorState.requests, Multiset.countP_cons_of_neg _ (by simp [hout.opens])]
    rfl

/-- A call that comes in. -/
theorem Ok.entry (h : Ok s bag) (hentry : task.entry = true) : Ok s (task ::ₘ bag) := by
  have hcharges := charges_entry hentry bag
  refine ⟨⟨?_, ?_⟩, ⟨h.tables.registered, h.tables.runtimes, h.tables.runs, h.tables.distinct, ?_⟩,
    ⟨fun k hk => ?_, fun k hk => ?_, fun k hk t ht => ?_⟩, fun m => ?_⟩
  · rw [hcharges]
    exact h.charged.one
  · rw [hcharges]
    exact h.charged.lifecycle
  · rw [hcharges]
    exact h.tables.holds
  · rcases tasksOf_entry hentry k bag with htasks | ⟨t, hout, htasks⟩ <;> rw [htasks]
    · exact h.serving.ok k hk
    · exact (h.serving.ok k hk).spawn (hout.handed "").idle
  · rcases tasksOf_entry hentry k bag with htasks | ⟨t, hout, htasks⟩ <;> rw [htasks]
    · exact h.serving.served k hk
    · exact (h.serving.served k hk).spawn (hout.handed _).proper (hout.handed "").calls
  · rcases tasksOf_entry hentry k bag with htasks | ⟨t', hout, htasks⟩ <;> rw [htasks] at ht
    · exact h.serving.fresh k hk t ht
    · rcases Multiset.mem_cons.mp ht with rfl | ht
      · exact hout
      · exact h.serving.fresh k hk t ht
  · simp only [requests_entry hentry]
    exact h.counted m

/-- A new engine goes on to load models, and no more. -/
theorem mem_start {settings : AppSettings} (htask : task ∈ (RouterState.start settings).bag) :
    ∃ m target, task = .loadModel m target := by
  obtain ⟨entry, -, rfl⟩ : ∃ entry, entry ∈ settings.models.entries.filter (fun entry => entry.2.enabled) ∧
      RouterTask.loadModel entry.1 none = task := by
    simpa [RouterState.start, Config.bag] using htask
  exact ⟨_, _, rfl⟩

theorem charges_start (settings : AppSettings) : charges (RouterState.start settings).bag = 0 :=
  charges_eq_zero fun task htask => by
    obtain ⟨m, target, rfl⟩ := mem_start htask
    rfl

/-- A new engine. -/
theorem Ok.start (settings : AppSettings) :
    Ok (RouterState.start settings).state (RouterState.start settings).bag := by
  have hcharges := charges_start settings
  have hown : ∀ k, tasksOf k (RouterState.start settings).bag = 0 := fun k => tasksOf_eq_zero fun task htask => by
    obtain ⟨m, target, rfl⟩ := mem_start htask
    rfl
  have hnone : ∀ k, ¬ k < (RouterState.start settings).state.nextExecutor := fun k => Nat.not_lt_zero k
  refine ⟨⟨?_, fun c hc => ?_⟩, ⟨nofun, fun _ => rfl, fun k hk => absurd hk (hnone k),
    fun k hk => absurd hk (hnone k), fun c hc => ?_⟩, ⟨fun k hk => absurd hk (hnone k),
    fun k hk => absurd hk (hnone k), fun k _ t ht => ?_⟩, fun m => ?_⟩
  · rw [hcharges]
    exact Multiset.nodup_zero
  · rw [hcharges] at hc
    exact absurd hc (Multiset.notMem_zero c)
  · rw [hcharges] at hc
    exact absurd hc (Multiset.notMem_zero c)
  · rw [hown] at ht
    exact absurd ht (Multiset.notMem_zero t)
  · have hexecutors : (RouterState.start settings).state.executorsOf m = ∅ := rfl
    rw [hexecutors, Finset.sum_empty, Finset.sum_empty, Nat.add_zero]
    simp only [RouterState.start, RouterState.init, inflight, modelState?, TTSRouterEngine.init,
      Dict.get?_mapValues, Option.map_map, Function.comp_def]
    cases settings.models.get? m <;> rfl

/-- The threads around an engine after a schedule. -/
def after (settings : AppSettings) (actions : List RouterAction) : Config RouterState RouterTask :=
  routerProgram.runs (RouterState.start settings) actions

/-- One model, which is not loaded at the start. -/
def oneModel : AppSettings where
  models := Dict.empty.set "m" { enabled := false }
  fairness := .pair

/-- **What the tasks keep beside the invariant** holds after every schedule that
meets their condition. -/
theorem runs_of_ok {I : RouterState → Multiset RouterTask → Prop}
    {P : RouterState → RouterTask → RouterInput → Prop} (settings : AppSettings)
    (hstart : I (RouterState.start settings).state (RouterState.start settings).bag)
    (hentry : ∀ s bag task, RouterTask.entry task = true → I s bag → I s (task ::ₘ bag))
    (hrun : ∀ s bag task input e, P s task input → Ran s task input e → Ok s (task ::ₘ bag) →
      I s (task ::ₘ bag) → I e.state (e.left + bag)) {actions : List RouterAction}
    (hmeets : Run.Along routerProgram.step (Threads.Meets P) (RouterState.start settings) actions) :
    Ok (after settings actions).state (after settings actions).bag ∧
      I (after settings actions).state (after settings actions).bag := by
  let Both (s : RouterState) (bag : Multiset RouterTask) : Prop := Ok s bag ∧ I s bag
  have hstart' : Both (RouterState.start settings).state (RouterState.start settings).bag :=
    ⟨.start settings, hstart⟩
  have hentry' : ∀ s bag task, RouterTask.entry task = true → Both s bag → Both s (task ::ₘ bag) :=
    fun s bag task hin h => ⟨h.1.entry hin, hentry s bag task hin h.2⟩
  have hrun' : ∀ s bag task input e, P s task input → RouterState.run s task input = some e →
      Both s (task ::ₘ bag) → Both e.state (e.left + bag) := fun s bag task input e hP heffect h =>
    ⟨h.1.run (ran_of_run heffect), hrun s bag task input e hP (ran_of_run heffect) h.1 h.2⟩
  exact Threads.Program.runs_of_meets (p := routerProgram) hstart' hentry' hrun' hmeets

/-- **Every reachable state satisfies the invariant.** -/
theorem after_ok (settings : AppSettings) (actions : List RouterAction) :
    Ok (after settings actions).state (after settings actions).bag :=
  (runs_of_ok (I := fun _ _ => True) settings trivial (fun _ _ _ _ _ => trivial)
    (fun _ _ _ _ _ _ _ _ _ => trivial) (Threads.Program.along_true _ actions)).1

/-- What comes from outside calls no `_stream_finished`. -/
theorem Outside.streamFinished {t : ExecutorTask} (h : Outside t) (modelName : String) :
    t.streamFinished modelName = none := by
  by_contra hcall
  have hpos := ExecutorState.calls_pos (Multiset.mem_singleton_self t) (Option.ne_none_iff_isSome.mp hcall)
  rw [calls_singleton, (h.handed modelName).calls] at hpos
  exact absurd hpos (lt_irrefl 0)

/-- **In-flight accounting.**  In any reachable state `inflight_requests` of a
model is the number of its requests, over all its executors, that are past the
increment and undecided, open, or terminal or rejected with `_stream_finished`
still to be called.  Every handle made is in one of these places or has made its
call once.  A task about to call `_stream_finished` calls it for its own model
and finds the count positive: it takes away one. -/
theorem inflight_accounted (settings : AppSettings) (actions : List RouterAction) :
    let c := after settings actions
    let s := c.state
    (∀ m, s.inflight m = ∑ k ∈ s.executorsOf m,
      ((tasksOf k c.bag).countP (fun t => t.opens = true) + (undecided (tasksOf k c.bag)).card +
        (s.executorTable k).state.openHandles.length + (calls (tasksOf k c.bag)).card)) ∧
    (∀ k < s.nextExecutor, undecided (tasksOf k c.bag) +
        ((s.executorTable k).state.openHandles : Multiset HandleId) + calls (tasksOf k c.bag) +
        (s.executorTable k).state.streamsFinished =
      Multiset.range (s.executorTable k).state.nextHandle) ∧
    ∀ k t m, RouterTask.executor k t ∈ c.bag → t.streamFinished (s.executorTable k).modelName = some m →
      (s.executorTable k).modelName = m ∧ 0 < s.inflight m ∧
      ∀ input e, s.run (.executor k t) input = some e → e.state.inflight m + 1 = s.inflight m := by
  intro c s
  have hok : Ok s c.bag := after_ok settings actions
  refine ⟨fun m => ?_, fun k hk => ExecutorState.handles_eq (hok.serving.ok k hk) (hok.serving.served k hk),
    fun k t m ht hcall => ?_⟩
  · have hcounted := hok.counted m
    have hsplit : ∑ k ∈ s.executorsOf m, s.requests c.bag k = ∑ k ∈ s.executorsOf m,
        ((tasksOf k c.bag).countP (fun t => t.opens = true) + (undecided (tasksOf k c.bag)).card +
          (s.executorTable k).state.openHandles.length + (calls (tasksOf k c.bag)).card +
          s.finishedStreams k) := by
      refine Finset.sum_congr rfl fun k hk => ?_
      have hk := (mem_executorsOf.mp hk).1
      exact ExecutorState.requests_eq (hok.serving.ok k hk) (hok.serving.served k hk)
    rw [hsplit, Finset.sum_add_distrib] at hcounted
    exact Nat.add_right_cancel hcounted
  · have hk : k < s.nextExecutor := by
      by_contra hk
      have hmem : t ∈ tasksOf k c.bag := (Multiset.mem_filterMap _ _).mpr ⟨_, ht, RouterTask.onExecutor_self k t⟩
      rw [(hok.serving.fresh k (not_lt.mp hk) t hmem).streamFinished] at hcall
      cases hcall
    obtain rfl := hok.serving.streamFinished_eq hk ht hcall
    have hpos := hok.counted.pos_of_streamFinished hok.serving hk ht (by rw [hcall]; rfl)
    refine ⟨rfl, hpos, fun input e hrun => ?_⟩
    cases ran_of_run hrun with
    | aside hcharge hown hnext => cases (RouterTask.onExecutor_self k t).symm.trans (hown k)
    | executor hk heffect =>
      rw [inflight_afterExecutor, if_pos hcall]
      omega
    | begins task' hcharge hown => cases (RouterTask.onExecutor_self k t).symm.trans (hown k)
    | passes hcharge => cases hcharge
    | givesUp error hcharge => cases hcharge
    | breaksOff error hcharge => cases hcharge
    | fails error hcharge => cases hcharge

end RouterState
end TtsPool
