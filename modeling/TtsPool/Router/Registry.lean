/-
# Who has a model in charge, and what is registered

No two calls have one model in charge, and while one has, the model is in the
lifecycle it was moved to (`Charged`): that is all the mutual exclusion there is
between `load_model` and `unload_model`.  From it follows that a runtime and its
executor are in few places: each executor runs a runtime of its own, they are
registered together under the name of their model, and a call in charge holds
runtimes and executors of its model only (`Tables`).
-/

import TtsPool.Router.Steps

namespace TtsPool

open Threads (Effect)

/-- A task with a charge had its model moved before. -/
theorem RouterTask.lifecycle_of_charge {task : RouterTask} {c : Charge} (h : task.charge = some c) :
    c.lifecycle = .loading ∨ c.lifecycle = .unloading := by
  cases task <;> simp only [charge, Option.some.injEq, reduceCtorEq] at h <;> subst h <;> simp

theorem charges_eq_zero {bag : Multiset RouterTask} (h : ∀ task ∈ bag, task.charge = none) :
    charges bag = 0 := by
  refine Multiset.eq_zero_of_forall_notMem fun c hc => ?_
  obtain ⟨task, htask, hcharge⟩ := (Multiset.mem_filterMap _ _).mp hc
  cases (h task htask).symm.trans hcharge

theorem charges_singleton (task : RouterTask) : charges {task} = (task.charge.toList : Multiset Charge) := by
  cases h : task.charge with
  | none => exact charges_eq_zero fun task' htask => Multiset.mem_singleton.mp htask ▸ h
  | some c => rw [charges, ← Multiset.cons_zero, Multiset.filterMap_cons_some _ _ _ h]; rfl

theorem charges_cons (task : RouterTask) (bag : Multiset RouterTask) :
    charges (task ::ₘ bag) = (task.charge.toList : Multiset Charge) + charges bag := by
  rw [← charges_singleton, ← Multiset.singleton_add, charges, Multiset.filterMap_add]

theorem charges_add (bag bag' : Multiset RouterTask) : charges (bag + bag') = charges bag + charges bag' :=
  Multiset.filterMap_add _ _ _

namespace RouterState

variable {s : RouterState} {task : RouterTask} {bag : Multiset RouterTask} {e : Step} {input : RouterInput}

/-- What a step does to the charge of the call it belongs to, and to the
lifecycles; a call that gives up its charge says in the ledger how it leaves the
model. -/
inductive Recharged (s : RouterState) (task : RouterTask) (e : Step) : Prop
  | keeps (hleft : charges e.left = (task.charge.toList : Multiset Charge))
      (hsame : ∀ m, e.state.lifecycle? m = s.lifecycle? m)
  | begins {c : Charge} (hbefore : task.charge = none) (hleft : charges e.left = {c})
      (hsettled : ∃ settled, s.lifecycle? c.modelName = some settled ∧ settled.Settled)
      (hnow : e.state.lifecycle? c.modelName = some c.lifecycle)
      (hsame : ∀ m, m ≠ c.modelName → e.state.lifecycle? m = s.lifecycle? m)
  | goesOn {c c' : Charge} (hbefore : task.charge = some c) (hleft : charges e.left = {c'})
      (hname : c'.modelName = c.modelName) (hlifecycle : c'.lifecycle = c.lifecycle)
      (hsame : ∀ m, e.state.lifecycle? m = s.lifecycle? m)
  | ends {c : Charge} (hbefore : task.charge = some c) (hleft : charges e.left = 0)
      (hsame : ∀ m, m ≠ c.modelName → e.state.lifecycle? m = s.lifecycle? m)
      (hexit : ∃ error, e.state.exits = s.exits ++ [⟨c.modelName, e.state.lifecycle? c.modelName, error⟩])

theorem charges_entrySnapshot (s : RouterState) (modelName : String) :
    charges (s.entrySnapshot modelName : Multiset RouterTask) = 0 := by
  refine charges_eq_zero fun task htask => ?_
  obtain ⟨k, -, rfl⟩ := List.mem_map.mp (Multiset.mem_coe.mp htask)
  rfl

theorem charges_executor (k : ExecutorId) (tasks : List ExecutorTask) :
    charges (tasks.map (RouterTask.executor k) : List RouterTask) = 0 := by
  refine charges_eq_zero fun task htask => ?_
  obtain ⟨t, -, rfl⟩ := List.mem_map.mp (Multiset.mem_coe.mp htask)
  rfl

/-- A step whose thread goes on with one task. -/
theorem charges_next (state : RouterState) (task : RouterTask) :
    charges (Effect.left { state := state, next := [task] }) = (task.charge.toList : Multiset Charge) := by
  rw [← charges_singleton]
  rfl

theorem charges_leave (s : RouterState) (modelName : String) (error : Option EngineError) :
    charges (s.leave modelName error).left = 0 := by
  refine charges_eq_zero fun task htask => ?_
  simp only [leave, Effect.left, List.flatten_nil, List.append_nil, Multiset.mem_coe, List.mem_map] at htask
  obtain ⟨error, -, rfl⟩ := htask
  rfl

theorem afterExecutor_left (k : ExecutorId) (t : ExecutorTask) (effect : Effect ExecutorState ExecutorTask) :
    (s.afterExecutor k t effect).left =
      ((effect.next ++ effect.spawned.flatten).map (RouterTask.executor k) : List RouterTask) := by
  simp only [afterExecutor, Effect.left, List.map_append, List.map_flatten]

/-- A step of an executor changes its entry of the table and, by
`_stream_finished`, the states of the models. -/
theorem afterExecutor_state (s : RouterState) (k : ExecutorId) (t : ExecutorTask)
    (effect : Effect ExecutorState ExecutorTask) :
    ∃ engine : TTSRouterEngine, engine.executors = s.engine.executors ∧ engine.runtimes = s.engine.runtimes ∧
      (s.afterExecutor k t effect).state =
        { s.setExecutor k { s.executorTable k with state := effect.state } with engine := engine } := by
  cases hname : t.streamFinished (s.executorTable k).modelName with
  | none => exact ⟨s.engine, rfl, rfl, by simp only [afterExecutor, hname, setExecutor]⟩
  | some modelName =>
    exact ⟨s.engine.streamFinished modelName, rfl, rfl, by simp only [afterExecutor, hname, setExecutor]⟩

theorem charges_afterExecutor (k : ExecutorId) (t : ExecutorTask)
    (effect : Effect ExecutorState ExecutorTask) : charges (s.afterExecutor k t effect).left = 0 := by
  rw [afterExecutor_left, charges_executor]

theorem charges_aside {next : List RouterTask} (hnext : (∃ error, next = [.raised error]) ∨ next = [] ∨
    ∃ modelName, next = s.entrySnapshot modelName) :
    charges (Effect.left { state := s, next := next }) = 0 := by
  rcases hnext with ⟨error, rfl⟩ | rfl | ⟨modelName, rfl⟩
  · exact charges_next _ _
  · rfl
  · rw [Effect.left_of_next rfl]
    exact charges_entrySnapshot s modelName

theorem charges_begins {state : RouterState} {task' : RouterTask} {modelName : String} {c : Charge}
    {next : List RouterTask} (hcharge' : task'.charge = some c) (hnext : next = [task'] ∨
      ∃ k, s.engine.executors.get? modelName = some k ∧ next = [.executor k .beginShutdown, task']) :
    charges (Effect.left { state := state, next := next }) = {c} := by
  rcases hnext with rfl | ⟨k, -, rfl⟩
  · rw [charges_next, hcharge']
    rfl
  · refine (charges_cons (.executor k .beginShutdown) {task'}).trans ?_
    rw [charges_singleton, hcharge']
    rfl

theorem charges_startExecutor (call : LoadCall) (r : RuntimeId) (k : ExecutorId) :
    charges (Effect.left { state := s, next := [.queryGpuAfter call r k], spawned := [[.executor k .runLoop]] }) =
      {⟨call.modelName, .loading, some r, some k⟩} := by
  refine (charges_cons (.queryGpuAfter call r k) {.executor k .runLoop}).trans ?_
  rw [charges_singleton]
  rfl

theorem charges_register (call : LoadCall) (r : RuntimeId) (k : ExecutorId) (gpuUsedAfterMib : Option ℤ) :
    charges (s.register call r k gpuUsedAfterMib).left = 0 := by
  rw [Effect.left_of_next rfl]
  exact charges_entrySnapshot _ call.modelName

theorem charges_finishUnload (modelName : String) (k : Option ExecutorId) (r : Option RuntimeId) :
    charges (s.finishUnload modelName k r).left = 0 := by
  rw [Effect.left_of_next rfl]
  exact charges_entrySnapshot _ modelName

theorem streamFinished_modelStates (engine : TTSRouterEngine) (modelName m : String) :
    (engine.streamFinished modelName).modelStates.get? m = if m = modelName then
      (engine.modelStates.get? modelName).map fun state =>
        if 0 < state.inflightRequests then { state with inflightRequests := state.inflightRequests - 1 }
        else state
      else engine.modelStates.get? m := Dict.get?_modify _ _ _ _

theorem afterExecutor_lifecycle? (k : ExecutorId) (t : ExecutorTask)
    (effect : Effect ExecutorState ExecutorTask) (m : String) :
    (s.afterExecutor k t effect).state.lifecycle? m = s.lifecycle? m := by
  cases hname : t.streamFinished (s.executorTable k).modelName with
  | none => simp [afterExecutor, hname, lifecycle?, modelState?, setExecutor]
  | some name =>
    simp only [afterExecutor, hname, lifecycle?, modelState?, setExecutor, streamFinished_modelStates]
    split_ifs with hm
    · rw [Option.map_map, hm]
      refine congrFun (congrArg Option.map (funext fun state => ?_)) _
      simp only [Function.comp_apply]
      split_ifs <;> rfl
    · rfl

theorem Ran.recharged (h : Ran s task input e) : Recharged s task e := by
  cases h with
  | aside hcharge hown hnext => exact .keeps (by rw [charges_aside hnext, hcharge]; rfl) fun _ => rfl
  | stream request hex hk hloaded =>
    refine .keeps (charges_next _ _) fun m => ?_
    rw [lifecycle?, modelState?_modifyState]
    split_ifs with hm
    · rw [lifecycle?, hm, Option.map_map]
      rfl
    · rfl
  | @executor k task input effect hk hrun =>
    exact .keeps (charges_afterExecutor k task effect) (afterExecutor_lifecycle? k task effect)
  | begins task' hcharge hown hsettled hf hlifecycle hcharge' hnext =>
    refine .begins hcharge (charges_begins hcharge' hnext) hsettled ?_ fun m hm => ?_
    · obtain ⟨settled, hsome, -⟩ := hsettled
      rw [lifecycle?_modifyState hf, if_pos rfl, hsome, Option.map_some]
    · rw [lifecycle?_modifyState hf, if_neg hm]
  | passes hcharge hcharge' hload hfinish => exact .keeps (by rw [charges_next, hcharge, hcharge']) fun _ => rfl
  | startExecutor call r k => exact .keeps (charges_startExecutor call r k) fun _ => rfl
  | givesUp error hcharge hruntime => exact .goesOn hcharge (charges_next _ _) rfl rfl fun _ => rfl
  | buildRuntime call spec => exact .goesOn rfl (charges_next _ _) rfl rfl fun _ => rfl
  | loadRuntime call r => exact .keeps (charges_next _ _) fun _ => rfl
  | buildExecutor call r => exact .goesOn rfl (charges_next _ _) rfl rfl fun _ => rfl
  | breaksOff error hcharge hlifecycle hbreaks hruntime =>
    exact .ends hcharge (charges_leave _ _ _) (fun _ _ => rfl) ⟨_, rfl⟩
  | fails error hcharge hf =>
    refine .ends hcharge (charges_leave _ _ _) (fun m hm => ?_) ⟨_, rfl⟩
    exact (lifecycle?_modifyState hf _ _).trans (if_neg hm)
  | register call r k gpuUsedAfterMib input =>
    exact .ends rfl (charges_register ..) (fun m hm => (register_lifecycle? call r k gpuUsedAfterMib m).trans
      (if_neg hm)) ⟨_, rfl⟩
  | drained modelName deadline now hnone => exact .goesOn rfl (charges_next _ _) rfl rfl fun _ => rfl
  | closed modelName k r => exact .keeps (charges_next _ _) fun _ => rfl
  | closeRaised modelName k r error => exact .ends rfl (charges_leave _ _ _) (fun _ _ => rfl) ⟨_, rfl⟩
  | finishUnload modelName k r input =>
    exact .ends rfl (charges_finishUnload ..) (fun m hm => (finishUnload_lifecycle? modelName k r m).trans
      (if_neg hm)) ⟨_, rfl⟩

/-- **One call in charge of a model**, which is in the lifecycle it was moved to. -/
structure Charged (s : RouterState) (bag : Multiset RouterTask) : Prop where
  one : ((charges bag).map Charge.modelName).Nodup
  lifecycle : ∀ c ∈ charges bag, s.lifecycle? c.modelName = some c.lifecycle

/-- Beside the call in charge, none has the model. -/
theorem Charged.others {c : Charge} (h : Charged s (task ::ₘ bag)) (hc : task.charge = some c) :
    ∀ c' ∈ charges bag, c'.modelName ≠ c.modelName := by
  intro c' hc' hname
  have hone := h.one
  rw [charges_cons, hc, Multiset.map_add] at hone
  have hmem : c.modelName ∈ (charges bag).map Charge.modelName := Multiset.mem_map.mpr ⟨c', hc', hname⟩
  exact Multiset.disjoint_left.mp (Multiset.nodup_add.mp hone).2.2 (by simp) hmem

/-- A model that is settled is in no call's charge. -/
theorem Charged.free (h : Charged s bag) {m : String}
    (hsettled : ∃ settled, s.lifecycle? m = some settled ∧ settled.Settled) :
    ∀ c ∈ charges bag, c.modelName ≠ m := by
  rintro c hc rfl
  obtain ⟨settled, hsome, hsettled⟩ := hsettled
  obtain ⟨task, -, hcharge⟩ := (Multiset.mem_filterMap _ _).mp hc
  obtain rfl : settled = c.lifecycle := Option.some.inj (hsome.symm.trans (h.lifecycle c hc))
  rcases RouterTask.lifecycle_of_charge hcharge with hlc | hlc <;> rw [hlc] at hsettled <;>
    simp [ModelLifecycle.Settled] at hsettled

/-- **A step keeps the models in one charge each.** -/
theorem Charged.run (h : Charged s (task ::ₘ bag)) (hr : Recharged s task e) :
    Charged e.state (e.left + bag) := by
  have hold := h.one
  rw [charges_cons] at hold
  cases hr with
  | keeps hleft hsame =>
    have hsplit : charges (e.left + bag) = charges (task ::ₘ bag) := by
      rw [charges_add, hleft, charges_cons]
    exact ⟨hsplit ▸ h.one, fun c hc => (hsame _).trans (h.lifecycle c (hsplit ▸ hc))⟩
  | @begins c hbefore hleft hsettled hnow hsame =>
    have hfree := h.free hsettled
    have hbag : charges (task ::ₘ bag) = charges bag := by rw [charges_cons, hbefore]; exact zero_add _
    rw [hbag] at hfree
    have hsplit : charges (e.left + bag) = c ::ₘ charges bag := by
      rw [charges_add, hleft, Multiset.singleton_add]
    constructor
    · rw [hsplit, Multiset.map_cons, Multiset.nodup_cons, Multiset.mem_map]
      refine ⟨?_, hbag ▸ h.one⟩
      rintro ⟨c', hc', hname⟩
      exact hfree c' hc' hname
    · intro c' hc'
      rw [hsplit, Multiset.mem_cons] at hc'
      rcases hc' with rfl | hc'
      · exact hnow
      · exact (hsame _ (hfree c' hc')).trans (h.lifecycle c' (hbag ▸ hc'))
  | @goesOn c c' hbefore hleft hname hlifecycle hsame =>
    have hsplit : charges (e.left + bag) = c' ::ₘ charges bag := by
      rw [charges_add, hleft, Multiset.singleton_add]
    rw [hbefore] at hold
    have hc : s.lifecycle? c.modelName = some c.lifecycle :=
      h.lifecycle c (by rw [charges_cons, hbefore]; simp)
    constructor
    · rw [hsplit, Multiset.map_cons, hname]
      simpa using hold
    · intro d hd
      rw [hsplit, Multiset.mem_cons] at hd
      rcases hd with rfl | hd
      · rw [hsame, hname, hlifecycle, hc]
      · exact (hsame _).trans (h.lifecycle d (by rw [charges_cons]; exact Multiset.mem_add.mpr (.inr hd)))
  | @ends c hbefore hleft hsame hexit =>
    have hsplit : charges (e.left + bag) = charges bag := by rw [charges_add, hleft, zero_add]
    have hothers := h.others hbefore
    rw [Multiset.map_add] at hold
    refine ⟨hsplit ▸ (Multiset.nodup_add.mp hold).2.1, fun d hd => ?_⟩
    rw [hsplit] at hd
    exact (hsame _ (hothers d hd)).trans
      (h.lifecycle d (by rw [charges_cons]; exact Multiset.mem_add.mpr (.inr hd)))

/-! ### The tables -/

/-- What a charge holds belongs to its model. -/
structure Holds (s : RouterState) (c : Charge) : Prop where
  runtime : ∀ r ∈ c.runtime, r < s.nextRuntime ∧ (s.runtimeTable r).modelName = c.modelName
  executor : ∀ k ∈ c.executor, k < s.nextExecutor ∧ c.runtime = some (s.executorTable k).runtime
  bare : c.executor = none → ∀ r ∈ c.runtime, ∀ k < s.nextExecutor, (s.executorTable k).runtime ≠ r

/-- **Runtimes and executors go together.** -/
structure Tables (s : RouterState) (bag : Multiset RouterTask) : Prop where
  registered : ∀ m k, s.engine.executors.get? m = some k →
    k < s.nextExecutor ∧ (s.executorTable k).modelName = m
  runtimes : ∀ m, s.engine.runtimes.get? m =
    (s.engine.executors.get? m).map fun k => (s.executorTable k).runtime
  runs : ∀ k < s.nextExecutor, (s.executorTable k).runtime < s.nextRuntime ∧
    (s.runtimeTable (s.executorTable k).runtime).modelName = (s.executorTable k).modelName
  distinct : ∀ j < s.nextExecutor, ∀ k < s.nextExecutor,
    (s.executorTable j).runtime = (s.executorTable k).runtime → j = k
  holds : ∀ c ∈ charges bag, s.Holds c

/-- A step that builds and registers nothing. -/
structure Fixed (s s' : RouterState) : Prop where
  executors : s'.engine.executors = s.engine.executors
  runtimes : s'.engine.runtimes = s.engine.runtimes
  nextExecutor : s'.nextExecutor = s.nextExecutor
  nextRuntime : s'.nextRuntime = s.nextRuntime
  modelName : ∀ k, (s'.executorTable k).modelName = (s.executorTable k).modelName
  runtime : ∀ k, (s'.executorTable k).runtime = (s.executorTable k).runtime
  name : ∀ r, (s'.runtimeTable r).modelName = (s.runtimeTable r).modelName

theorem Holds.fixed {s' : RouterState} {c : Charge} (h : s.Holds c) (hf : Fixed s s') : s'.Holds c where
  runtime := fun r hr => by
    rw [hf.nextRuntime, hf.name]
    exact h.runtime r hr
  executor := fun k hk => by
    rw [hf.nextExecutor, hf.runtime]
    exact h.executor k hk
  bare := fun hnone r hr k hk => by
    rw [hf.runtime]
    exact h.bare hnone r hr k (hf.nextExecutor ▸ hk)

/-- A charge that has nothing in hand yet. -/
theorem Holds.nothing (s : RouterState) (modelName : String) (lifecycle : ModelLifecycle) :
    s.Holds ⟨modelName, lifecycle, none, none⟩ where
  runtime := fun _ hr => absurd hr (Option.not_mem_none _)
  executor := fun _ hk => absurd hk (Option.not_mem_none _)
  bare := fun _ _ hr => absurd hr (Option.not_mem_none _)

/-- The charge of a task in the bag holds what it should. -/
theorem Tables.holds_task {c : Charge} (h : Tables s (task ::ₘ bag)) (hc : task.charge = some c) : s.Holds c :=
  h.holds c ((Multiset.mem_filterMap _ _).mpr ⟨task, Multiset.mem_cons_self _ _, hc⟩)

theorem Tables.holds_bag (h : Tables s (task ::ₘ bag)) {c : Charge} (hc : c ∈ charges bag) : s.Holds c :=
  h.holds c (by rw [charges_cons]; exact Multiset.mem_add.mpr (.inr hc))

/-- An executor that a charge holds serves its model. -/
theorem Tables.modelName_of_holds (h : Tables s bag) {c : Charge} (hc : s.Holds c) {k : ExecutorId}
    (hk : k ∈ c.executor) : (s.executorTable k).modelName = c.modelName := by
  obtain ⟨hlt, hruntime⟩ := hc.executor k hk
  rw [← (h.runs k hlt).2]
  exact (hc.runtime _ hruntime).2

theorem Tables.fixed (h : Tables s (task ::ₘ bag)) (hf : Fixed s e.state)
    (hcharges : ∀ c ∈ charges e.left, task.charge = some c ∨ c.runtime = none ∧ c.executor = none) :
    Tables e.state (e.left + bag) where
  registered := fun m k hk => by
    rw [hf.nextExecutor, hf.modelName]
    exact h.registered m k (hf.executors ▸ hk)
  runtimes := fun m => by
    rw [hf.runtimes, hf.executors, h.runtimes]
    simp only [hf.runtime]
  runs := fun k hk => by
    rw [hf.runtime, hf.nextRuntime, hf.name, hf.modelName]
    exact h.runs k (hf.nextExecutor ▸ hk)
  distinct := fun j hj k hk heq => by
    rw [hf.runtime, hf.runtime] at heq
    exact h.distinct j (hf.nextExecutor ▸ hj) k (hf.nextExecutor ▸ hk) heq
  holds := fun c hc => by
    rw [charges_add, Multiset.mem_add] at hc
    rcases hc with hc | hc
    · rcases hcharges c hc with htask | ⟨hruntime, hexecutor⟩
      · exact (h.holds_task htask).fixed hf
      · obtain ⟨modelName, lifecycle, runtime, executor⟩ := c
        obtain rfl : runtime = none := hruntime
        obtain rfl : executor = none := hexecutor
        exact .nothing _ _ _
    · exact (h.holds_bag hc).fixed hf

/-- The charge is passed on as it is. -/
theorem Tables.passed (h : Tables s (task ::ₘ bag)) (hf : Fixed s e.state)
    (hleft : charges e.left = (task.charge.toList : Multiset Charge)) : Tables e.state (e.left + bag) :=
  h.fixed hf fun c hc => .inl (by rw [hleft] at hc; simpa using hc)

/-- The charge is given up. -/
theorem Tables.left (h : Tables s (task ::ₘ bag)) (hf : Fixed s e.state) (hleft : charges e.left = 0) :
    Tables e.state (e.left + bag) :=
  h.fixed hf fun c hc => absurd (hleft ▸ hc) (Multiset.notMem_zero c)

/-- A charge with nothing in hand yet, or not any more. -/
theorem Tables.nothing {modelName : String} {lifecycle : ModelLifecycle} (h : Tables s (task ::ₘ bag))
    (hf : Fixed s e.state) (hleft : charges e.left = {⟨modelName, lifecycle, none, none⟩}) :
    Tables e.state (e.left + bag) :=
  h.fixed hf fun c hc => by
    obtain rfl := Multiset.mem_singleton.mp (hleft ▸ hc)
    exact .inr ⟨rfl, rfl⟩

theorem Tables.buildRuntime {call : LoadCall} {spec : RuntimeSpec}
    (h : Tables s (.buildRuntime call ::ₘ bag)) :
    let e : Step := { state := s.addRuntime { spec with modelName := call.modelName }
                      next := [.loadRuntime call s.nextRuntime] }
    Tables e.state (e.left + bag) := by
  have hold : ∀ r < s.nextRuntime, ((s.addRuntime { spec with modelName := call.modelName }).runtimeTable
      r).modelName = (s.runtimeTable r).modelName := fun r hr => congrArg _ (addRuntime_of_lt hr _)
  refine ⟨h.registered, h.runtimes, fun k hk => ?_, h.distinct, fun c hc => ?_⟩
  · obtain ⟨hlt, hname⟩ := h.runs k hk
    exact ⟨hlt.trans (Nat.lt_succ_self _), (hold _ hlt).trans hname⟩
  · rw [charges_add, charges_next, Multiset.mem_add] at hc
    rcases hc with hc | hc
    · obtain rfl := List.mem_singleton.mp (Multiset.mem_coe.mp hc)
      refine ⟨fun r hr => ?_, fun _ hk => absurd hk (Option.not_mem_none _), fun _ r hr k hk => ?_⟩
      · obtain rfl := Option.mem_some.mp hr
        refine ⟨Nat.lt_succ_self _, ?_⟩
        exact congrArg TTSRuntime.modelName (addRuntime_self s _)
      · obtain rfl := Option.mem_some.mp hr
        exact (h.runs k hk).1.ne
    · have hc := h.holds_bag hc
      refine ⟨fun r hr => ?_, hc.executor, hc.bare⟩
      obtain ⟨hlt, hname⟩ := hc.runtime r hr
      exact ⟨hlt.trans (Nat.lt_succ_self _), (hold r hlt).trans hname⟩

theorem Tables.buildExecutor {call : LoadCall} {r : RuntimeId} (hc : Charged s (.buildExecutor call r ::ₘ bag))
    (h : Tables s (.buildExecutor call r ::ₘ bag)) :
    Tables (s.buildExecutor call r).state ((s.buildExecutor call r).left + bag) := by
  have hmine := h.holds_task (c := ⟨call.modelName, .loading, some r, none⟩) rfl
  have hothers := hc.others (c := ⟨call.modelName, .loading, some r, none⟩) rfl
  obtain ⟨hr, hname⟩ := hmine.runtime r rfl
  have hold : ∀ k < s.nextExecutor, (s.buildExecutor call r).state.executorTable k = s.executorTable k :=
    fun k hk => Function.update_of_ne hk.ne _ _
  have hnew : ((s.buildExecutor call r).state.executorTable s.nextExecutor).runtime = r ∧
      ((s.buildExecutor call r).state.executorTable s.nextExecutor).modelName = call.modelName := by
    simp only [RouterState.buildExecutor, setExecutor, Function.update_self, and_self]
  have hlt : ∀ k < s.nextExecutor + 1, k < s.nextExecutor ∨ k = s.nextExecutor := fun k hk =>
    Nat.lt_succ_iff_lt_or_eq.mp hk
  have hfresh : ∀ k < s.nextExecutor, (s.executorTable k).runtime ≠ r := hmine.bare rfl r rfl
  refine ⟨fun m k hk => ?_, fun m => ?_, fun k hk => ?_, fun j hj k hk heq => ?_, fun c' hc' => ?_⟩
  · obtain ⟨hk, hm⟩ := h.registered m k hk
    exact ⟨hk.trans (Nat.lt_succ_self _), (congrArg ServingExecutor.modelName (hold k hk)).trans hm⟩
  · refine (h.runtimes m).trans ?_
    refine Option.map_congr fun k hk => ?_
    exact congrArg ServingExecutor.runtime (hold k (h.registered m k hk).1).symm
  · rcases hlt k hk with hk | rfl
    · rw [hold k hk]
      exact h.runs k hk
    · rw [hnew.1, hnew.2]
      exact ⟨hr, hname⟩
  · rcases hlt j hj with hj | rfl <;> rcases hlt k hk with hk | rfl
    · rw [hold j hj, hold k hk] at heq
      exact h.distinct j hj k hk heq
    · rw [hold j hj, hnew.1] at heq
      exact absurd heq (hfresh j hj)
    · rw [hold k hk, hnew.1] at heq
      exact absurd heq.symm (hfresh k hk)
    · rfl
  · rw [charges_add, Multiset.mem_add] at hc'
    rcases hc' with hc' | hc'
    · rw [RouterState.buildExecutor, charges_next] at hc'
      obtain rfl := List.mem_singleton.mp (Multiset.mem_coe.mp hc')
      refine ⟨fun r' hr' => ?_, fun k hk => ?_, nofun⟩
      · obtain rfl := Option.mem_some.mp hr'
        exact ⟨hr, hname⟩
      · obtain rfl := Option.mem_some.mp hk
        exact ⟨Nat.lt_succ_self _, congrArg some hnew.1.symm⟩
    · have hheld := h.holds_bag hc'
      refine ⟨hheld.runtime, fun k hk => ?_, fun hnone r' hr' k hk => ?_⟩
      · obtain ⟨hk, hruntime⟩ := hheld.executor k hk
        rw [hold k hk]
        exact ⟨hk.trans (Nat.lt_succ_self _), hruntime⟩
      · rcases hlt k hk with hk | rfl
        · rw [hold k hk]
          exact hheld.bare hnone r' hr' k hk
        · -- the other call has a runtime of another model
          rw [hnew.1]
          rintro rfl
          exact hothers c' hc' ((hheld.runtime r hr').2.symm.trans hname)

theorem Tables.register {call : LoadCall} {r : RuntimeId} {k : ExecutorId} {gpuUsedAfterMib : Option ℤ}
    (h : Tables s (.register call r k gpuUsedAfterMib ::ₘ bag)) :
    Tables (s.register call r k gpuUsedAfterMib).state ((s.register call r k gpuUsedAfterMib).left + bag) := by
  have hmine := h.holds_task (c := ⟨call.modelName, .loading, some r, some k⟩) rfl
  obtain ⟨hk, hruntime⟩ := hmine.executor k rfl
  refine ⟨fun m j hj => ?_, fun m => ?_, h.runs, h.distinct, fun c hc => ?_⟩
  · have hj : (s.engine.executors.set call.modelName k).get? m = some j := hj
    by_cases hm : m = call.modelName
    · subst hm
      rw [Dict.get?_set_self] at hj
      obtain rfl := Option.some.inj hj
      exact ⟨hk, h.modelName_of_holds hmine rfl⟩
    · rw [Dict.get?_set_of_ne _ hm] at hj
      exact h.registered m j hj
  · show (s.engine.runtimes.set call.modelName r).get? m =
      ((s.engine.executors.set call.modelName k).get? m).map fun k => (s.executorTable k).runtime
    by_cases hm : m = call.modelName
    · subst hm
      rw [Dict.get?_set_self, Dict.get?_set_self]
      exact hruntime
    · rw [Dict.get?_set_of_ne _ hm, Dict.get?_set_of_ne _ hm]
      exact h.runtimes m
  · rw [charges_add, charges_register, zero_add] at hc
    obtain ⟨hruntime, hexecutor, hbare⟩ := h.holds_bag hc
    exact ⟨hruntime, hexecutor, hbare⟩

theorem Tables.drained {modelName : String} {deadline : ℚ} (h : Tables s (.awaitDrain modelName deadline ::ₘ bag)) :
    let e : Step := { state := s.popModel modelName
                      next := [.closeRuntime modelName (s.engine.executors.get? modelName)
                        (s.engine.runtimes.get? modelName)] }
    Tables e.state (e.left + bag) := by
  refine ⟨fun m k hk => ?_, fun m => ?_, h.runs, h.distinct, fun c hc => ?_⟩
  · have hk : (s.engine.executors.erase modelName).get? m = some k := hk
    by_cases hm : m = modelName
    · rw [hm, Dict.get?_erase_self] at hk
      cases hk
    · rw [Dict.get?_erase_of_ne _ hm] at hk
      exact h.registered m k hk
  · show (s.engine.runtimes.erase modelName).get? m =
      ((s.engine.executors.erase modelName).get? m).map fun k => (s.executorTable k).runtime
    by_cases hm : m = modelName
    · rw [hm, Dict.get?_erase_self, Dict.get?_erase_self, Option.map_none]
    · rw [Dict.get?_erase_of_ne _ hm, Dict.get?_erase_of_ne _ hm]
      exact h.runtimes m
  · rw [charges_add, charges_next, Multiset.mem_add] at hc
    rcases hc with hc | hc
    · obtain rfl := List.mem_singleton.mp (Multiset.mem_coe.mp hc)
      -- what was registered is taken in hand
      have hruntimes := h.runtimes modelName
      refine ⟨fun r hr => ?_, fun k hk => ?_, fun hnone r hr => ?_⟩
      · obtain ⟨k, hk, rfl⟩ := Option.map_eq_some_iff.mp (hruntimes.symm.trans hr)
        obtain ⟨hlt, hname⟩ := h.registered modelName k hk
        exact ⟨(h.runs k hlt).1, (h.runs k hlt).2.trans hname⟩
      · exact ⟨(h.registered modelName k hk).1, hruntimes.trans (congrArg _ (Option.mem_def.mp hk))⟩
      · cases (hruntimes.trans (congrArg _ hnone)).symm.trans hr
    · obtain ⟨hruntime, hexecutor, hbare⟩ := h.holds_bag hc
      exact ⟨hruntime, hexecutor, hbare⟩

/-- A runtime's flags set. -/
theorem fixed_setRuntime {r : RuntimeId} {runtime : TTSRuntime}
    (h : runtime.modelName = (s.runtimeTable r).modelName) : Fixed s (s.setRuntime r runtime) := by
  refine ⟨rfl, rfl, rfl, rfl, fun _ => rfl, fun _ => rfl, fun r' => ?_⟩
  by_cases hr : r' = r
  · rw [hr, setRuntime_self, h]
  · rw [setRuntime_of_ne hr]

/-- An executor's state set. -/
theorem fixed_setExecutor {k : ExecutorId} {executor : ServingExecutor}
    (hmodel : executor.modelName = (s.executorTable k).modelName)
    (hruntime : executor.runtime = (s.executorTable k).runtime) : Fixed s (s.setExecutor k executor) := by
  refine ⟨rfl, rfl, rfl, rfl, fun j => ?_, fun j => ?_, fun _ => rfl⟩
  · by_cases hj : j = k
    · rw [hj, setExecutor_self, hmodel]
    · rw [setExecutor_of_ne hj]
  · by_cases hj : j = k
    · rw [hj, setExecutor_self, hruntime]
    · rw [setExecutor_of_ne hj]

theorem fixed_afterExecutor (k : ExecutorId) (t : ExecutorTask) (effect : Effect ExecutorState ExecutorTask) :
    Fixed s (s.afterExecutor k t effect).state := by
  obtain ⟨engine, hexecutors, hruntimes, hstate⟩ := afterExecutor_state s k t effect
  have hset : Fixed s (s.setExecutor k { s.executorTable k with state := effect.state }) :=
    fixed_setExecutor rfl rfl
  rw [hstate]
  exact ⟨hexecutors, hruntimes, rfl, rfl, hset.modelName, hset.runtime, fun _ => rfl⟩

theorem Fixed.refl (s : RouterState) : Fixed s s :=
  ⟨rfl, rfl, rfl, rfl, fun _ => rfl, fun _ => rfl, fun _ => rfl⟩

theorem fixed_modifyState (s : RouterState) (modelName : String) (f : ModelRuntimeState → ModelRuntimeState) :
    Fixed s (s.modifyState modelName f) := ⟨rfl, rfl, rfl, rfl, fun _ => rfl, fun _ => rfl, fun _ => rfl⟩

/-- **A step keeps the tables in order.** -/
theorem Tables.run (h : Tables s (task ::ₘ bag)) (hc : Charged s (task ::ₘ bag)) (hr : Ran s task input e) :
    Tables e.state (e.left + bag) := by
  have hsame : Fixed s s := Fixed.refl s
  cases hr with
  | aside hcharge hown hnext => exact h.left hsame (charges_aside hnext)
  | stream request hex hk hloaded => exact h.passed (fixed_modifyState s _ _) (charges_next _ _)
  | @executor k task input effect hk hrun =>
    exact h.left (fixed_afterExecutor k task effect) (charges_afterExecutor k task effect)
  | begins task' hcharge hown hsettled hf hlifecycle hcharge' hnext =>
    exact h.nothing (fixed_modifyState s _ _) (charges_begins hcharge' hnext)
  | passes hcharge hcharge' hload hfinish => exact h.passed hsame (by rw [charges_next, hcharge, hcharge'])
  | startExecutor call r k => exact h.passed hsame (charges_startExecutor call r k)
  | givesUp error hcharge hruntime => exact h.nothing hsame (charges_next _ _)
  | buildRuntime call spec => exact h.buildRuntime
  | loadRuntime call r => exact h.passed (fixed_setRuntime rfl) (charges_next _ _)
  | buildExecutor call r => exact h.buildExecutor hc
  | breaksOff error hcharge hlifecycle hbreaks hruntime =>
    exact h.left ⟨rfl, rfl, rfl, rfl, fun _ => rfl, fun _ => rfl, fun _ => rfl⟩ (charges_leave _ _ _)
  | fails error hcharge hf =>
    exact h.left ⟨rfl, rfl, rfl, rfl, fun _ => rfl, fun _ => rfl, fun _ => rfl⟩ (charges_leave _ _ _)
  | register call r k gpuUsedAfterMib input => exact h.register
  | drained modelName deadline now hnone => exact h.drained
  | closed modelName k r => exact h.passed (fixed_setRuntime rfl) (charges_next _ _)
  | closeRaised modelName k r error =>
    have hf : Fixed s (s.close r) := fixed_setRuntime rfl
    exact h.left ⟨rfl, rfl, rfl, rfl, fun _ => rfl, fun _ => rfl, hf.name⟩ (charges_leave _ _ _)
  | finishUnload modelName k r input =>
    exact h.left ⟨rfl, rfl, rfl, rfl, fun _ => rfl, fun _ => rfl, fun _ => rfl⟩ (charges_finishUnload ..)

end RouterState
end TtsPool
