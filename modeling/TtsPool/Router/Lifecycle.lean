/-
# The lifecycle a call leaves its model in

A call of `load_model` or `unload_model` that moved a model to `loading` or
`unloading` has to leave it `unloaded`, `loaded` or `failed`, or no later call
can act on it: a load would take the model for one being loaded and return, an
unload would refuse.  The `except` of `load_model` does so for what is raised in its
`try`, but the two GPU queries stand outside, `unload_model` has no `try` at
all, and `query_gpu_memory` lets other errors of `subprocess.run` through than a
missing program and a failed one.  Nor does the `except` catch what is no
`Exception`, such as the `CancelledError` of asyncio that a `runtime.load()` may end
with; and before it does anything it asks for the text of what it caught.  And an
unload that has to wait longer than `Condition.wait` can be asked for does not wait.

`exits_settled_iff`: over any run, the models are left settled exactly when none
of this happens (`RouterState.breaksOff`).
-/

import TtsPool.Router.Runs

namespace TtsPool

open Threads (Effect Meets)

/-- A call that left its model so that later calls can act on it. -/
def CallExit.Settled (exit : CallExit) : Prop :=
  ∃ lifecycle, exit.lifecycle = some lifecycle ∧ lifecycle.Settled

namespace RouterState

variable {s : RouterState} {task : RouterTask} {bag : Multiset RouterTask} {e : Step} {input : RouterInput}

theorem afterExecutor_exits (k : ExecutorId) (t : ExecutorTask) (effect : Effect ExecutorState ExecutorTask) :
    (s.afterExecutor k t effect).state.exits = s.exits := by
  obtain ⟨engine, -, -, hstate⟩ := afterExecutor_state s k t effect
  rw [hstate]
  rfl

/-- The ledger of exits only grows. -/
theorem Ran.exits (h : Ran s task input e) : s.exits <+: e.state.exits := by
  cases h with
  | @executor k t i effect hk hrun => rw [afterExecutor_exits]
  | breaksOff => exact List.prefix_append _ _
  | fails => exact List.prefix_append _ _
  | register => exact List.prefix_append _ _
  | closeRaised => exact List.prefix_append _ _
  | finishUnload => exact List.prefix_append _ _
  | _ => exact List.prefix_rfl

/-- A model that a call has in charge is there. -/
theorem Charged.lifecycle_task {c : Charge} (h : Charged s (task ::ₘ bag)) (hc : task.charge = some c) :
    s.lifecycle? c.modelName = some c.lifecycle :=
  h.lifecycle c ((Multiset.mem_filterMap _ _).mpr ⟨task, Multiset.mem_cons_self _ _, hc⟩)

/-- **A step that does not break off leaves the model settled**, if it is the
end of its call. -/
theorem Ran.settled (h : Ran s task input e) (hc : Charged s (task ::ₘ bag))
    (hbreaks : s.breaksOff task input = false) (hold : ∀ exit ∈ s.exits, exit.Settled) :
    ∀ exit ∈ e.state.exits, exit.Settled := by
  have hadd : ∀ (exit : CallExit), exit.Settled → ∀ exit' ∈ s.exits ++ [exit], exit'.Settled := by
    intro exit hexit exit' hmem
    rcases List.mem_append.mp hmem with hmem | hmem
    · exact hold exit' hmem
    · exact List.mem_singleton.mp hmem ▸ hexit
  cases h with
  | @executor k t i effect hk hrun =>
    rw [afterExecutor_exits]
    exact hold
  | breaksOff error hcharge hlifecycle hraises => cases hbreaks.symm.trans hraises
  | @fails _ _ modelName lifecycle f error hcharge hf =>
    refine hadd _ ⟨.failed, ?_, .inr (.inr rfl)⟩
    show (s.modifyState modelName f).lifecycle? modelName = some .failed
    rw [lifecycle?_modifyState hf, if_pos rfl, hc.lifecycle_task hcharge, Option.map_some]
  | register call r k gpuUsedAfterMib input =>
    refine hadd ⟨call.modelName, _, none⟩ ⟨.loaded, ?_, .inr (.inl rfl)⟩
    refine (register_lifecycle? call r k gpuUsedAfterMib call.modelName).trans ?_
    rw [if_pos rfl, hc.lifecycle_task rfl, Option.map_some]
  | closeRaised => cases hbreaks
  | finishUnload modelName k r input =>
    refine hadd ⟨modelName, _, none⟩ ⟨.unloaded, ?_, .inl rfl⟩
    refine (finishUnload_lifecycle? modelName k r modelName).trans ?_
    rw [if_pos rfl, hc.lifecycle_task rfl, Option.map_some]
  | _ => exact hold

/-- An unload with requests in flight and a deadline too far off. -/
theorem awaitDrain_too_long {modelName : String} {deadline now : ℚ} (hinflight : 0 < s.inflight modelName)
    (hlong : timeoutMax < deadline - now) :
    s.awaitDrain modelName deadline now = some (s.leave modelName (some waitTooLong)) := by
  have hpos : 0 < timeoutMax := by norm_num [timeoutMax]
  have hearly : ¬ deadline - now ≤ 0 := not_le.mpr (hpos.trans hlong)
  cases hstate : s.modelState? modelName with
  | none =>
    rw [inflight, hstate] at hinflight
    cases hinflight
  | some state =>
    have hbusy : 0 < state.inflightRequests := by rwa [inflight, hstate] at hinflight
    simp only [awaitDrain, hstate, Option.map_some, if_pos hbusy, if_neg hearly, if_pos hlong]

/-- A step that breaks off leaves the model in the lifecycle it was moved to. -/
theorem exits_of_breaksOff (hbreaks : s.breaksOff task input = true) : ∃ e c error, s.run task input = some e ∧
    task.charge = some c ∧ e.state.exits = s.exits ++ [⟨c.modelName, s.lifecycle? c.modelName, some error⟩] := by
  have hraises : ∀ {α : Type} (result : Except EngineError α), (!result.isOk) = true →
      ∃ error, result = .error error := by
    intro α result hnot
    cases result with
    | ok a => cases hnot
    | error error => exact ⟨error, rfl⟩
  cases task with
  | loadRuntime call r =>
    cases input with
    | escapes error => exact ⟨s.leave call.modelName (some error), _, error, rfl, rfl, rfl⟩
    | _ => cases hbreaks
  | loadFailed modelName error =>
    obtain ⟨raised, hraised⟩ := hraises (exceptionMessage error) hbreaks
    exact ⟨s.leave modelName (some raised), _, raised, by simp [run, loadFailed, hraised], rfl, rfl⟩
  | queryGpuBefore call =>
    cases input with
    | subprocess result =>
      obtain ⟨error, herror⟩ := hraises (queryPrimaryGpuUsedMib result) hbreaks
      exact ⟨s.leave call.modelName (some error), _, error, by simp [run, queryGpuBefore, herror], rfl, rfl⟩
    | _ => cases hbreaks
  | queryGpuAfter call r k =>
    cases input with
    | subprocess result =>
      obtain ⟨error, herror⟩ := hraises (queryPrimaryGpuUsedMib result) hbreaks
      exact ⟨s.leave call.modelName (some error), _, error, by simp [run, queryGpuAfter, herror], rfl, rfl⟩
    | _ => cases hbreaks
  | awaitDrain modelName deadline =>
    cases input with
    | clock now =>
      rw [breaksOff, Bool.and_eq_true, decide_eq_true_eq, decide_eq_true_eq] at hbreaks
      exact ⟨_, _, waitTooLong, awaitDrain_too_long hbreaks.1 hbreaks.2, rfl, rfl⟩
    | _ => cases hbreaks
  | setDeadline modelName shutdown =>
    cases shutdown with
    | true =>
      cases input with
      | raises error => exact ⟨s.leave modelName (some error), _, error, rfl, rfl, rfl⟩
      | _ => cases hbreaks
    | false => cases hbreaks
  | closeRuntime modelName k r =>
    cases r with
    | some r =>
      cases input with
      | raises error => exact ⟨(s.close r).leave modelName (some error), _, error, rfl, rfl, rfl⟩
      | _ => cases hbreaks
    | none => cases hbreaks
  | _ => cases hbreaks

/-- A model in transition is in some call's charge. -/
def InCharge (s : RouterState) (bag : Multiset RouterTask) : Prop :=
  ∀ m lifecycle, s.lifecycle? m = some lifecycle → lifecycle.Settled ∨ ∃ c ∈ charges bag, c.modelName = m

theorem InCharge.run (h : InCharge s (task ::ₘ bag)) (hr : Recharged s task e)
    (hsettled : ∀ exit ∈ e.state.exits, exit.Settled) : InCharge e.state (e.left + bag) := by
  intro m lifecycle hm
  have hbag : ∀ c ∈ charges bag, c ∈ charges (e.left + bag) := fun c hc => by
    rw [charges_add]
    exact Multiset.mem_add.mpr (.inr hc)
  have hleft : ∀ c ∈ charges e.left, c ∈ charges (e.left + bag) := fun c hc => by
    rw [charges_add]
    exact Multiset.mem_add.mpr (.inl hc)
  -- an unchanged lifecycle is settled, or the call that has it is another or goes on
  have hunchanged : s.lifecycle? m = some lifecycle →
      (∀ c, task.charge = some c → c.modelName = m → ∃ c' ∈ charges e.left, c'.modelName = m) →
      lifecycle.Settled ∨ ∃ c ∈ charges (e.left + bag), c.modelName = m := by
    intro hsame htask
    rcases h m lifecycle hsame with hsettled | ⟨c, hmem, hname⟩
    · exact .inl hsettled
    · rw [charges_cons, Multiset.mem_add] at hmem
      rcases hmem with hmem | hmem
      · obtain ⟨c', hc', hname'⟩ := htask c (by simpa using hmem) hname
        exact .inr ⟨c', hleft c' hc', hname'⟩
      · exact .inr ⟨c, hbag c hmem, hname⟩
  cases hr with
  | keeps hcharges hsame =>
    refine hunchanged (hsame m ▸ hm) fun c hc hname => ⟨c, ?_, hname⟩
    rw [hcharges, hc]
    exact Multiset.mem_coe.mpr (List.mem_singleton_self c)
  | @begins c hbefore hcharges hfree hnow hsame =>
    by_cases hname : m = c.modelName
    · exact .inr ⟨c, hleft c (hcharges ▸ Multiset.mem_singleton_self c), hname.symm⟩
    · exact hunchanged (hsame m hname ▸ hm) fun c' hc' => nomatch hbefore.symm.trans hc'
  | @goesOn c c' hbefore hcharges hname hlifecycle hsame =>
    refine hunchanged (hsame m ▸ hm) fun d hd hdm => ⟨c', hcharges ▸ Multiset.mem_singleton_self c', ?_⟩
    obtain rfl := Option.some.inj (hbefore.symm.trans hd)
    exact hname.trans hdm
  | @ends c hbefore hcharges hsame hexit =>
    by_cases hname : m = c.modelName
    · subst hname
      obtain ⟨error, hexits⟩ := hexit
      obtain ⟨left, hleft, hsettled⟩ := hsettled ⟨c.modelName, e.state.lifecycle? c.modelName, error⟩
        (by rw [hexits]; exact List.mem_append.mpr (.inr (List.mem_singleton_self _)))
      obtain rfl : lifecycle = left := Option.some.inj (hm.symm.trans hleft)
      exact .inl hsettled
    · refine hunchanged (hsame m hname ▸ hm) fun d hd hdm => ?_
      obtain rfl := Option.some.inj (hbefore.symm.trans hd)
      exact absurd hdm.symm hname

/-- A model that no call has in charge in a new engine is unloaded. -/
theorem InCharge.start (settings : AppSettings) :
    InCharge (RouterState.start settings).state (RouterState.start settings).bag := by
  intro m lifecycle hm
  simp only [RouterState.start, RouterState.init, lifecycle?, modelState?, TTSRouterEngine.init,
    Dict.get?_mapValues, Option.map_map, Option.map_eq_some_iff] at hm
  obtain ⟨modelSettings, -, rfl⟩ := hm
  exact .inl (.inl rfl)

/-- **When no lifecycle sticks.**  Over any run, every call that moved a model
has left it unloaded, loaded or failed exactly when in no step of the run a GPU
query, `begin_shutdown` or `close` raises, `load` ends with what is no `Exception`,
`load_model` has caught an exception that has no text, or an unload asks for too long a
wait.  Then a model in transition is in the charge of a call in progress. -/
theorem exits_settled_iff (settings : AppSettings) (actions : List RouterAction) :
    ((∀ exit ∈ (after settings actions).state.exits, exit.Settled) ∧
      InCharge (after settings actions).state (after settings actions).bag) ↔
      Run.Along routerProgram.step (Meets fun s task input => s.breaksOff task input = false)
        (RouterState.start settings) actions := by
  constructor
  · rintro ⟨hsettled, -⟩
    rw [Run.along_iff]
    rintro pre a post rfl
    cases a with
    | call task => trivial
    | run thread input =>
      intro task hnext
      rw [← Bool.not_eq_true]
      intro hbreaks
      obtain ⟨e, c, error, hrun, hcharge, hexits⟩ := exits_of_breaksOff
        (s := (after settings pre).state) hbreaks
      have hstep : (routerProgram.step (after settings pre) (.run thread input)).state = e.state :=
        Threads.Program.step_run (p := routerProgram) hnext hrun
      have hlifecycle : (after settings pre).state.lifecycle? c.modelName = some c.lifecycle :=
        (after_ok settings pre).charged.lifecycle c
          ((Multiset.mem_filterMap _ _).mpr ⟨task, Threads.mem_bag_of_next? hnext, hcharge⟩)
      -- the exit is in the ledger from here on, with a lifecycle in transition
      have hmem : (⟨c.modelName, some c.lifecycle, some error⟩ : CallExit) ∈
          (after settings (pre ++ .run thread input :: post)).state.exits := by
        rw [after, Threads.Program.runs_append]
        refine Threads.Program.runs_keep (p := routerProgram)
          (Q := fun s => (⟨c.modelName, some c.lifecycle, some error⟩ : CallExit) ∈ s.exits)
          (c := routerProgram.step (after settings pre) (.run thread input)) ?_
          (fun s task input e hrun h => (ran_of_run hrun).exits.subset h) post
        rw [hstep, hexits, hlifecycle]
        exact List.mem_append.mpr (.inr (List.mem_singleton_self _))
      obtain ⟨lifecycle, hleft, hsome⟩ := hsettled _ hmem
      obtain rfl := Option.some.inj hleft
      rcases RouterTask.lifecycle_of_charge hcharge with hlc | hlc <;> rw [hlc] at hsome <;>
        simp [ModelLifecycle.Settled] at hsome
  · intro hmeets
    have hruns := runs_of_ok (I := fun s bag => (∀ exit ∈ s.exits, exit.Settled) ∧ InCharge s bag)
      (P := fun s task input => s.breaksOff task input = false) settings
      ⟨fun _ hexit => absurd hexit List.not_mem_nil, .start settings⟩
      (fun s bag task hentry h => ⟨h.1, fun m lifecycle hm => by
        rw [charges_entry hentry]
        exact h.2 m lifecycle hm⟩)
      (fun s bag task input e hbreaks hr hok h => by
        have hsettled := hr.settled hok.charged hbreaks h.1
        exact ⟨hsettled, h.2.run hr.recharged hsettled⟩) hmeets
    exact hruns.2

/-- A load during which `nvidia-smi` may not be run. -/
def deniedQuery : List RouterAction :=
  [.call (.loadModel "m" none), .run 1 .returns,
    .run 1 (.subprocess (.error (.other "PermissionError" "[Errno 13] Permission denied: 'nvidia-smi'")))]

/-- A load and an unload tried after it. -/
def retries : List RouterAction :=
  [.call (.loadModel "m" none), .run 2 .returns, .call (.unloadModel "m"), .run 3 .returns]

/-- **A lifecycle sticks.**  The load ends with the model still `loading`, and
there it stays: the next load returns at once and the unload is refused. -/
theorem lifecycle_sticks :
    (¬ ∀ exit ∈ (after oneModel deniedQuery).state.exits, exit.Settled) ∧
      charges (after oneModel deniedQuery).bag = 0 ∧
      (after oneModel (deniedQuery ++ retries)).state.lifecycle? "m" = some .loading ∧
      charges (after oneModel (deniedQuery ++ retries)).bag = 0 := by
  have hexits : (after oneModel deniedQuery).state.exits.map CallExit.lifecycle = [some .loading] := by
    decide +kernel
  refine ⟨fun hsettled => ?_, by decide +kernel, by decide +kernel, by decide +kernel⟩
  obtain ⟨exit, hexit, hlifecycle⟩ : ∃ exit ∈ (after oneModel deniedQuery).state.exits,
      exit.lifecycle = some .loading := List.mem_map.mp (hexits ▸ List.mem_singleton_self _)
  obtain ⟨lifecycle, hsome, hend⟩ := hsettled exit hexit
  obtain rfl := Option.some.inj (hlifecycle.symm.trans hsome)
  revert hend
  decide

end RouterState
end TtsPool
