/-
# Unloading

`unload_model` takes the executor and the runtime of a model out when it finds
no request in flight, and closes the runtime after it has let go of the lock.
By then the executor is drained: every request ever sent to it is over, and it
is neither registered nor in the hands of a load, so that no request can come
(`Drained`, which every step keeps).  A call of `stream` that had picked the
executor before has been counted since, and the unload has waited for it.

`unload_waits`: while `close` is about to be called on a runtime no backend call
runs on it and every handle of the model is terminal; and after the unload has
returned nothing runs on that runtime ever again.
-/

import TtsPool.Router.Runs

namespace TtsPool

open Threads (Effect)

namespace RouterState

variable {s : RouterState} {task : RouterTask} {bag : Multiset RouterTask} {e : Step} {input : RouterInput}
  {k : ExecutorId} {m : String}

/-! ### What single steps leave alone -/

/-- An executor keeps its model and its runtime. -/
theorem Handing.executorTable (h : Handing s task e) (hk : k < s.nextExecutor) : k < e.state.nextExecutor ∧
    (e.state.executorTable k).modelName = (s.executorTable k).modelName ∧
    (e.state.executorTable k).runtime = (s.executorTable k).runtime := by
  cases h with
  | @executor j t i effect hj hrun =>
    have hfixed := fixed_afterExecutor (s := s) j t effect
    exact ⟨hfixed.nextExecutor ▸ hk, hfixed.modelName k, hfixed.runtime k⟩
  | buildExecutor call r =>
    rw [buildExecutor_table hk.ne]
    exact ⟨hk.trans (Nat.lt_succ_self _), rfl, rfl⟩
  | hands j handed hh =>
    rw [hh.next, hh.table]
    exact ⟨hk, rfl, rfl⟩

/-- An executor that is registered by now was before, or a load registers the
one it holds. -/
theorem Ran.executors (h : Ran s task input e) (hk : e.state.engine.executors.get? m = some k) :
    s.engine.executors.get? m = some k ∨
      ∃ c, task.charge = some c ∧ c.lifecycle = .loading ∧ c.executor = some k := by
  cases h with
  | @executor j t i effect hj hrun => exact .inl ((fixed_afterExecutor j t effect).executors ▸ hk)
  | register call r j gpuUsedAfterMib input =>
    have hk : (s.engine.executors.set call.modelName j).get? m = some k := hk
    by_cases hm : m = call.modelName
    · rw [hm, Dict.get?_set_self] at hk
      exact .inr ⟨_, rfl, rfl, hk⟩
    · rw [Dict.get?_set_of_ne _ hm] at hk
      exact .inl hk
  | drained modelName deadline now hnone =>
    have hk : (s.engine.executors.erase modelName).get? m = some k := hk
    by_cases hm : m = modelName
    · rw [hm, Dict.get?_erase_self] at hk
      cases hk
    · rw [Dict.get?_erase_of_ne _ hm] at hk
      exact .inl hk
  | _ => exact .inl hk

/-- A charge after a step is the call's as it was, or has no executor, or a
load's new one, or the one an unload takes out. -/
theorem Ran.new_charge (h : Ran s task input e) {c : Charge} (hc : c ∈ charges e.left) :
    task.charge = some c ∨ c.executor = none ∧ (c.runtime = none ∨ c.lifecycle = .loading) ∨
    c.lifecycle = .loading ∧ c.executor = some s.nextExecutor ∨
    task.charge = some ⟨c.modelName, .unloading, none, none⟩ ∧ c.lifecycle = .unloading ∧
      c.executor = s.engine.executors.get? c.modelName ∧ c.runtime = s.engine.runtimes.get? c.modelName ∧
      s.inflight c.modelName = 0 ∧ e.state = s.popModel c.modelName ∧ charges e.left = {c} := by
  have hnext {state : RouterState} {task' : RouterTask} {c' : Charge} (hcharge : task'.charge = some c')
      (hc : c ∈ charges (Effect.left { state := state, next := [task'] })) : c = c' := by
    rw [charges_next, hcharge] at hc
    exact List.mem_singleton.mp (Multiset.mem_coe.mp hc)
  have hnone {left : Multiset Charge} (hleft : left = 0) (hc : c ∈ left) : False :=
    Multiset.notMem_zero c (hleft ▸ hc)
  cases h with
  | aside hcharge hown hnext => exact (hnone (charges_aside hnext) hc).elim
  | stream request hex hk hloaded => exact (hnone (charges_next _ _) hc).elim
  | @executor j t i effect hj hrun => exact (hnone (charges_afterExecutor j t effect) hc).elim
  | begins task' hcharge hown hsettled hf hlifecycle hcharge' hnext =>
    rw [charges_begins hcharge' hnext] at hc
    obtain rfl := Multiset.mem_singleton.mp hc
    exact .inr (.inl ⟨rfl, .inl rfl⟩)
  | passes hcharge hcharge' hload hfinish =>
    obtain rfl := hnext hcharge' hc
    exact .inl hcharge
  | startExecutor call r j =>
    rw [charges_startExecutor] at hc
    obtain rfl := Multiset.mem_singleton.mp hc
    exact .inl rfl
  | givesUp error hcharge hruntime =>
    obtain rfl := hnext rfl hc
    exact .inr (.inl ⟨rfl, .inl rfl⟩)
  | buildRuntime call spec =>
    obtain rfl := hnext rfl hc
    exact .inr (.inl ⟨rfl, .inr rfl⟩)
  | loadRuntime call r =>
    obtain rfl := hnext rfl hc
    exact .inl rfl
  | buildExecutor call r =>
    obtain rfl := hnext rfl hc
    exact .inr (.inr (.inl ⟨rfl, rfl⟩))
  | breaksOff error hcharge hlifecycle hbreaks hruntime => exact (hnone (charges_leave _ _ _) hc).elim
  | fails error hcharge hf => exact (hnone (charges_leave _ _ _) hc).elim
  | register call r j gpuUsedAfterMib input => exact (hnone (charges_register ..) hc).elim
  | drained modelName deadline now hzero =>
    obtain rfl := hnext rfl hc
    exact .inr (.inr (.inr ⟨rfl, rfl, rfl, rfl, hzero, rfl, charges_next _ _⟩))
  | closed modelName j r =>
    obtain rfl := hnext rfl hc
    exact .inl rfl
  | closeRaised modelName j r error => exact (hnone (charges_leave _ _ _) hc).elim
  | finishUnload modelName j r input => exact (hnone (charges_finishUnload ..) hc).elim

/-- The ledger of unloads grows by what an unload has taken out. -/
theorem Ran.unloads (h : Ran s task input e) : e.state.unloads = s.unloads ∨
    ∃ c, task.charge = some c ∧ c.lifecycle = .unloading ∧
      e.state.unloads = s.unloads ++ [⟨c.modelName, c.executor, c.runtime⟩] := by
  cases h with
  | @executor j t i effect hj hrun =>
    obtain ⟨engine, -, -, hstate⟩ := afterExecutor_state s j t effect
    rw [hstate]
    exact .inl rfl
  | finishUnload modelName j r input => exact .inr ⟨_, rfl, rfl, rfl⟩
  | _ => exact .inl rfl

/-- Where the model is not loaded, its count does not go up. -/
theorem Handing.inflight_le (h : Handing s task e) (ht : Tables s bag) (hm : s.lifecycle? m ≠ some .loaded) :
    e.state.inflight m ≤ s.inflight m := by
  cases h with
  | @executor j t i effect hj hrun =>
    rw [inflight_afterExecutor]
    exact Nat.sub_le _ _
  | buildExecutor call r => exact le_rfl
  | hands j handed hh =>
    rw [hh.inflight]
    by_cases hpos : 0 < handed.countP (fun t => t.opens = true)
    · obtain ⟨m', hj, hloaded⟩ := hh.opening hpos
      have hname := (ht.registered m' j hj).2
      have hne : (s.executorTable j).modelName ≠ m := by
        rintro rfl
        exact hm (hname ▸ hloaded)
      rw [if_neg hne]
      exact le_rfl
    · rw [Nat.eq_zero_of_not_pos hpos, ite_self]
      exact le_rfl

/-! ### Drained executors -/

/-- **An executor that no request will come to any more**, and whose requests
are over. -/
structure Drained (s : RouterState) (bag : Multiset RouterTask) (k : ExecutorId) : Prop where
  built : k < s.nextExecutor
  unregistered : ∀ m, s.engine.executors.get? m ≠ some k
  unheld : ∀ c ∈ charges bag, c.lifecycle = .loading → c.executor ≠ some k
  finished : s.requests bag k = s.finishedStreams k

/-- No request is sent to an executor that is not registered, and its calls only
grow. -/
theorem Handing.drained (h : Handing s task e) (hs : Serving s (task ::ₘ bag)) (hk : k < s.nextExecutor)
    (hunregistered : ∀ m, s.engine.executors.get? m ≠ some k) :
    e.state.requests (e.left + bag) k = s.requests (task ::ₘ bag) k ∧
      s.finishedStreams k ≤ e.state.finishedStreams k := by
  cases h with
  | @executor j t i effect hj hrun =>
    rw [requests_afterExecutor hs hj hrun, finishedStreams_afterExecutor hs hj hrun]
    exact ⟨rfl, Nat.le_add_right _ _⟩
  | buildExecutor call r =>
    rw [requests, requests, finishedStreams, finishedStreams, buildExecutor_table hk.ne, buildExecutor_left]
    exact ⟨rfl, le_rfl⟩
  | hands j handed hh =>
    refine ⟨?_, (congrArg (fun table : ExecutorId → ServingExecutor =>
      (table k).state.streamsFinished.length) hh.table).ge⟩
    rw [hh.requests]
    by_cases hpos : 0 < handed.countP (fun t => t.opens = true)
    · obtain ⟨m, hj, -⟩ := hh.opening hpos
      have hne : k ≠ j := by
        rintro rfl
        exact hunregistered m hj
      rw [if_neg hne, Nat.add_zero]
    · rw [Nat.eq_zero_of_not_pos hpos, ite_self, Nat.add_zero]

/-- **A drained executor stays drained.** -/
theorem Drained.run (h : Drained s (task ::ₘ bag) k) (hok : Ok s (task ::ₘ bag)) (hr : Ran s task input e) :
    Drained e.state (e.left + bag) k := by
  have hh := hr.handing hok.tables
  have hmine : ∀ c, task.charge = some c → c.lifecycle = .loading → c.executor ≠ some k := fun c hc =>
    h.unheld c ((Multiset.mem_filterMap _ _).mpr ⟨task, Multiset.mem_cons_self _ _, hc⟩)
  have hbuilt := (hh.executorTable h.built).1
  refine ⟨hbuilt, fun m hm => ?_, fun c hc hloading hexecutor => ?_, ?_⟩
  · rcases hr.executors hm with hm | ⟨c, hc, hloading, hexecutor⟩
    · exact h.unregistered m hm
    · exact hmine c hc hloading hexecutor
  · rw [charges_add, Multiset.mem_add] at hc
    rcases hc with hc | hc
    · rcases hr.new_charge hc with hc | ⟨hnone, -⟩ | ⟨-, hnew⟩ | ⟨-, hunloading, -⟩
      · exact hmine c hc hloading hexecutor
      · cases hnone.symm.trans hexecutor
      · exact h.built.ne (Option.some.inj (hexecutor.symm.trans hnew))
      · cases hunloading.symm.trans hloading
    · exact h.unheld c (by rw [charges_cons]; exact Multiset.mem_add.mpr (.inr hc)) hloading hexecutor
  · obtain ⟨hrequests, hfinished⟩ := hh.drained hok.serving h.built h.unregistered
    have hle := (hok.serving.run hh).finishedStreams_le hbuilt
    have hold := h.finished
    omega

/-- An executor without requests is quiescent. -/
theorem Ok.quiescent (hok : Ok s bag) (hk : k < s.nextExecutor) (hover : s.requests bag k = s.finishedStreams k) :
    ExecutorState.Quiescent (s.executorTable k).state (tasksOf k bag) :=
  ExecutorState.quiescent (hok.serving.ok k hk) (hok.serving.served k hk) hover

/-! ### What unloads hold and have taken out -/

/-- What an unload has taken out is drained, and its model has no request in
flight until the unload is over. -/
structure Unloads (s : RouterState) (bag : Multiset RouterTask) : Prop where
  charged : ∀ c ∈ charges bag, c.lifecycle = .unloading →
    c.runtime = c.executor.map (fun k => (s.executorTable k).runtime) ∧
    ∀ k ∈ c.executor, Drained s bag k ∧ s.inflight c.modelName = 0
  ledger : ∀ u ∈ s.unloads, u.runtime = u.executor.map (fun k => (s.executorTable k).runtime) ∧
    ∀ k ∈ u.executor, Drained s bag k

/-- The executor that an unload takes out is drained from then on. -/
theorem Ok.drained (hok : Ok s (task ::ₘ bag)) (hr : Ran s task input e)
    (hcharge : task.charge = some ⟨m, .unloading, none, none⟩) (hzero : s.inflight m = 0)
    (hstate : e.state = s.popModel m) (hk : s.engine.executors.get? m = some k) {c : Charge}
    (hleft : charges e.left = {c}) (hunloading : c.lifecycle = .unloading) :
    Drained e.state (e.left + bag) k := by
  have hok' := hok.run hr
  obtain ⟨hlt, hname⟩ := hok.tables.registered m k hk
  have htable : e.state.executorTable = s.executorTable := by rw [hstate]; rfl
  have hnext : e.state.nextExecutor = s.nextExecutor := by rw [hstate]; rfl
  have hzero' : e.state.inflight m = 0 := by rw [hstate]; exact hzero
  refine ⟨hnext ▸ hlt, fun m' hm' => ?_, fun c' hc hloading hexecutor => ?_, ?_⟩
  · have hm' : (s.engine.executors.erase m).get? m' = some k := by rw [hstate] at hm'; exact hm'
    by_cases heq : m' = m
    · rw [heq, Dict.get?_erase_self] at hm'
      cases hm'
    · rw [Dict.get?_erase_of_ne _ heq] at hm'
      exact heq ((hok.tables.registered m' k hm').2.symm.trans hname)
  · rw [charges_add, hleft, Multiset.mem_add] at hc
    rcases hc with hc | hc
    · obtain rfl := Multiset.mem_singleton.mp hc
      cases hunloading.symm.trans hloading
    · -- a load that holds the executor would have the model in charge
      have hother := hok.tables.modelName_of_holds (hok.tables.holds_bag hc) hexecutor
      exact hok.charged.others hcharge c' hc (hother.symm.trans hname)
  · exact hok'.counted.finished hok'.serving hzero' (mem_executorsOf.mpr ⟨hnext ▸ hlt, by rw [htable, hname]⟩)

/-- **A step keeps what unloads hold drained.** -/
theorem Unloads.run (h : Unloads s (task ::ₘ bag)) (hok : Ok s (task ::ₘ bag)) (hr : Ran s task input e) :
    Unloads e.state (e.left + bag) := by
  have hh := hr.handing hok.tables
  -- what was drained stays so, with its runtime
  have hruntime : ∀ (runtime : Option RuntimeId) (executor : Option ExecutorId),
      runtime = executor.map (fun k => (s.executorTable k).runtime) →
      (∀ k ∈ executor, Drained s (task ::ₘ bag) k) →
      runtime = executor.map (fun k => (e.state.executorTable k).runtime) := by
    intro runtime executor hold hdrained
    rw [hold]
    exact Option.map_congr fun k hk => (hh.executorTable (hdrained k hk).built).2.2.symm
  have hkept : ∀ c ∈ charges (task ::ₘ bag), c.lifecycle = .unloading →
      c.runtime = c.executor.map (fun k => (e.state.executorTable k).runtime) ∧
      ∀ k ∈ c.executor, Drained e.state (e.left + bag) k ∧ e.state.inflight c.modelName = 0 := by
    intro c hc hunloading
    obtain ⟨hold, hdrained⟩ := h.charged c hc hunloading
    refine ⟨hruntime _ _ hold fun k hk => (hdrained k hk).1, fun k hk => ⟨(hdrained k hk).1.run hok hr, ?_⟩⟩
    have hle := hh.inflight_le hok.tables (m := c.modelName) (by
      rw [hok.charged.lifecycle c hc, hunloading]
      nofun)
    exact Nat.le_zero.mp (hle.trans_eq (hdrained k hk).2)
  have hmine : ∀ c, task.charge = some c → c ∈ charges (task ::ₘ bag) := fun c hc =>
    (Multiset.mem_filterMap _ _).mpr ⟨task, Multiset.mem_cons_self _ _, hc⟩
  refine ⟨fun c hc hunloading => ?_, fun u hu => ?_⟩
  · rw [charges_add, Multiset.mem_add] at hc
    rcases hc with hc | hc
    · rcases hr.new_charge hc with hcharge | ⟨hnone, hruntime⟩ | ⟨hloading, -⟩ |
        ⟨hcharge, -, hexecutor, hruntimes, hzero, hstate, hleft⟩
      · exact hkept c (hmine c hcharge) hunloading
      · rcases hruntime with hruntime | hloading
        · rw [hnone, hruntime]
          exact ⟨rfl, fun _ hk => absurd hk (Option.not_mem_none _)⟩
        · cases hloading.symm.trans hunloading
      · cases hloading.symm.trans hunloading
      · have htable : e.state.executorTable = s.executorTable := by rw [hstate]; rfl
        refine ⟨?_, fun k hk => ⟨hok.drained hr hcharge hzero hstate (hexecutor ▸ hk) hleft hunloading, ?_⟩⟩
        · rw [htable, hruntimes, hexecutor]
          exact hok.tables.runtimes c.modelName
        · rw [hstate]
          exact hzero
    · exact hkept c (by rw [charges_cons]; exact Multiset.mem_add.mpr (.inr hc)) hunloading
  · have hold : u ∈ s.unloads → u.runtime = u.executor.map (fun k => (e.state.executorTable k).runtime) ∧
        ∀ k ∈ u.executor, Drained e.state (e.left + bag) k := fun hu =>
      ⟨hruntime _ _ (h.ledger u hu).1 (h.ledger u hu).2, fun k hk => ((h.ledger u hu).2 k hk).run hok hr⟩
    rcases hr.unloads with hsame | ⟨c, hcharge, hunloading, hnew⟩
    · exact hold (hsame ▸ hu)
    · rw [hnew] at hu
      rcases List.mem_append.mp hu with hu | hu
      · exact hold hu
      · obtain rfl := List.mem_singleton.mp hu
        obtain ⟨hruntime, hdrained⟩ := hkept c (hmine c hcharge) hunloading
        exact ⟨hruntime, fun k hk => (hdrained k hk).1⟩

theorem Drained.entry (h : Drained s bag k) (hentry : task.entry = true) : Drained s (task ::ₘ bag) k where
  built := h.built
  unregistered := h.unregistered
  unheld := fun c hc => h.unheld c (charges_entry hentry bag ▸ hc)
  finished := by rw [requests_entry hentry, h.finished]

theorem Unloads.entry (h : Unloads s bag) (hentry : task.entry = true) : Unloads s (task ::ₘ bag) where
  charged := fun c hc hunloading => by
    rw [charges_entry hentry] at hc
    obtain ⟨hruntime, hdrained⟩ := h.charged c hc hunloading
    exact ⟨hruntime, fun k hk => ⟨(hdrained k hk).1.entry hentry, (hdrained k hk).2⟩⟩
  ledger := fun u hu => ⟨(h.ledger u hu).1, fun k hk => ((h.ledger u hu).2 k hk).entry hentry⟩

theorem after_unloads (settings : AppSettings) (actions : List RouterAction) :
    Ok (after settings actions).state (after settings actions).bag ∧
      Unloads (after settings actions).state (after settings actions).bag := by
  refine runs_of_ok (P := fun _ _ _ => True) settings ⟨fun c hc => ?_, fun u hu => absurd hu List.not_mem_nil⟩
    (fun s bag task hentry h => h.entry hentry) (fun s bag task input e _ hr hok h => h.run hok hr)
    (Threads.Program.along_true _ actions)
  rw [charges_start] at hc
  exact absurd hc (Multiset.notMem_zero c)

/-- The ledger of unloads only grows. -/
theorem mem_unloads_later {settings : AppSettings} {actions : List RouterAction} {u : Unload}
    (hu : u ∈ (after settings actions).state.unloads) (later : List RouterAction) :
    u ∈ (after settings (actions ++ later)).state.unloads := by
  rw [after, Threads.Program.runs_append]
  refine Threads.Program.runs_keep (p := routerProgram) (Q := fun s => u ∈ s.unloads) hu
    (fun s task input e hrun h => ?_) later
  rcases (ran_of_run hrun).unloads with hsame | ⟨c, -, -, hnew⟩
  · exact hsame ▸ h
  · rw [hnew]
    exact List.mem_append.mpr (.inl h)

/-- **Unloading never closes a runtime in use.**  While `close` is about to be
called on a runtime, no backend call runs on it, and every handle that `stream`
returned for the model is terminal.  Once the unload has returned, then and
after whatever else happens, the runtime's executor has no pending and no active
job, no backend call runs on the runtime, and no call of `stream` is on its way
there. -/
theorem unload_waits (settings : AppSettings) (actions later : List RouterAction) :
    let c := after settings actions
    let s := c.state
    let c' := after settings (actions ++ later)
    let s' := c'.state
    (∀ m k r, RouterTask.closeRuntime m k (some r) ∈ c.bag →
      (∀ j < s.nextExecutor, (s.executorTable j).runtime = r → ∀ t ∈ tasksOf j c.bag, t.inBackend = false) ∧
      ∀ j ∈ s.executorsOf m, ∀ job ∈ (s.executorTable j).state.accepted,
        ((s.executorTable j).state.handles job.streamHandle).terminal = true) ∧
    ∀ u ∈ s.unloads, ∀ r ∈ u.runtime, ∀ j < s'.nextExecutor, (s'.executorTable j).runtime = r →
      (s'.executorTable j).state.queue.pendingJobs = 0 ∧ (s'.executorTable j).state.queue.activeTickets = 0 ∧
      (s'.executorTable j).state.executor.runtimeInflight = 0 ∧
      ∀ t ∈ tasksOf j c'.bag, t.slotJob = none ∧ t.inBackend = false ∧ t.opens = false ∧ t.undecided = none := by
  intro c s c' s'
  refine ⟨fun m k r htask => ?_, fun u hu r hr j hj hruntime => ?_⟩
  · obtain ⟨hok, hunloads⟩ : Ok s c.bag ∧ Unloads s c.bag := after_unloads settings actions
    have hc : (⟨m, .unloading, some r, k⟩ : Charge) ∈ charges c.bag :=
      (Multiset.mem_filterMap _ _).mpr ⟨_, htask, rfl⟩
    obtain ⟨hmap, hdrained⟩ := hunloads.charged _ hc rfl
    obtain ⟨i, rfl, hi⟩ := Option.map_eq_some_iff.mp hmap.symm
    obtain ⟨hdrain, hzero⟩ := hdrained i rfl
    have hquiescent : ∀ j ∈ s.executorsOf m,
        ExecutorState.Quiescent (s.executorTable j).state (tasksOf j c.bag) := fun j hj =>
      hok.quiescent (mem_executorsOf.mp hj).1 (hok.counted.finished hok.serving hzero hj)
    refine ⟨fun j hj hruntime t ht => ?_, fun j hj job hjob => (hquiescent j hj).terminal hjob⟩
    obtain rfl := hok.tables.distinct j hj i hdrain.built (hruntime.trans hi.symm)
    have hname := hok.tables.modelName_of_holds (hok.tables.holds _ hc) rfl
    exact (hquiescent j (mem_executorsOf.mpr ⟨hj, hname⟩)).inBackend ht
  · obtain ⟨hok, hunloads⟩ : Ok s' c'.bag ∧ Unloads s' c'.bag := after_unloads settings (actions ++ later)
    obtain ⟨hmap, hdrained⟩ := hunloads.ledger u (mem_unloads_later hu later)
    obtain ⟨i, hi, rfl⟩ := Option.map_eq_some_iff.mp (hmap.symm.trans hr)
    have hdrain := hdrained i hi
    obtain rfl := hok.tables.distinct j hj i hdrain.built hruntime
    have hquiescent := hok.quiescent hj hdrain.finished
    refine ⟨hquiescent.pending, ?_, ?_, fun t ht => ⟨hquiescent.slotJob ht, hquiescent.inBackend ht,
      hquiescent.opens t ht, ?_⟩⟩
    · rw [(hok.serving.ok j hj).active, hquiescent.slots]
      rfl
    · rw [(hok.serving.ok j hj).inflight, hquiescent.slots]
      rfl
    · rw [Option.eq_none_iff_forall_ne_some]
      intro handle hhandle
      have hmem : handle ∈ undecided (tasksOf j c'.bag) := (Multiset.mem_filterMap _ _).mpr ⟨t, ht, hhandle⟩
      rw [hquiescent.undecided] at hmem
      exact absurd hmem (Multiset.notMem_zero handle)

end RouterState
end TtsPool
