/-
# Who holds a loaded runtime

A runtime whose `load` has returned holds the model's memory until its `close`
is called, and only `unload_model` calls it, on the runtime registered for the
model.  So a loaded runtime has to be registered, or in the hands of the call
that has loaded it or taken it out (`Kept`).  `load_model` lets go of one when
it fails after `load` has returned, and when it registers another one over it,
which happens where an unload has timed out and left its runtime registered
(`losesRuntime`).

`runtimes_kept`: in the runs without such a step no loaded runtime is orphaned.
-/

import TtsPool.Router.Runs

namespace TtsPool

open Threads (Effect Meets)

namespace RouterState

variable {s : RouterState} {task : RouterTask} {bag : Multiset RouterTask} {e : Step} {input : RouterInput}
  {r : RuntimeId}

/-- A runtime that is loaded and not closed. -/
structure Live (s : RouterState) (r : RuntimeId) : Prop where
  built : r < s.nextRuntime
  loaded : (s.runtimeTable r).loaded = true
  opened : (s.runtimeTable r).closed = false

/-- A runtime that is registered for its model. -/
def Registered (s : RouterState) (r : RuntimeId) : Prop :=
  s.engine.runtimes.get? (s.runtimeTable r).modelName = some r

/-- **A live runtime is registered or in some call's hands.** -/
structure Kept (s : RouterState) (bag : Multiset RouterTask) : Prop where
  live : ∀ r, Live s r → Registered s r ∨ ∃ c ∈ charges bag, c.runtime = some r
  loading : ∀ call r, RouterTask.loadRuntime call r ∈ bag → (s.runtimeTable r).loaded = false
  finishing : ∀ m k r, RouterTask.finishUnload m k (some r) ∈ bag → (s.runtimeTable r).closed = true

/-- A task that has not to say of its runtime whether it is loaded or closed. -/
def Silent (task : RouterTask) : Prop :=
  (∀ call r, task ≠ .loadRuntime call r) ∧ ∀ m k r, task ≠ .finishUnload m k (some r)

theorem silent_of_charges (h : charges bag = 0) : ∀ t ∈ bag, Silent t := by
  intro t ht
  have hnone : t.charge = none := by
    by_contra hsome
    obtain ⟨c, hc⟩ := Option.ne_none_iff_exists'.mp hsome
    exact Multiset.notMem_zero c (h ▸ (Multiset.mem_filterMap _ _).mpr ⟨t, ht, hc⟩)
  constructor <;> rintro _ _ <;> intros <;> rintro rfl <;> cases hnone

theorem silent_of_runtime {c : Charge} (hc : task.charge = some c) (hnone : c.runtime = none) : Silent task := by
  constructor
  · rintro call r rfl
    obtain rfl := Option.some.inj hc
    cases hnone
  · rintro m k r rfl
    obtain rfl := Option.some.inj hc
    cases hnone

theorem silent_next {state : RouterState} {task' : RouterTask} (h : Silent task') :
    ∀ t ∈ Effect.left { state := state, next := [task'] }, Silent t := by
  intro t ht
  exact Multiset.mem_singleton.mp ht ▸ h

/-- The runtimes as they were, and what the call has in hand not let go of. -/
theorem Kept.same (h : Kept s (task ::ₘ bag)) (htable : e.state.runtimeTable = s.runtimeTable)
    (hnext : e.state.nextRuntime = s.nextRuntime) (hruntimes : e.state.engine.runtimes = s.engine.runtimes)
    (hhand : ∀ c r, task.charge = some c → c.runtime = some r → Live s r →
      ∃ c' ∈ charges e.left, c'.runtime = some r)
    (hsilent : ∀ t ∈ e.left, Silent t) : Kept e.state (e.left + bag) := by
  refine ⟨fun r hr => ?_, fun call r hmem => ?_, fun m k r hmem => ?_⟩
  · have hlive : Live s r := ⟨hnext ▸ hr.built, htable ▸ hr.loaded, htable ▸ hr.opened⟩
    rw [Registered, htable, hruntimes]
    rcases h.live r hlive with hregistered | ⟨c, hc, hruntime⟩
    · exact .inl hregistered
    · rw [charges_cons, Multiset.mem_add] at hc
      rcases hc with hc | hc
      · obtain ⟨c', hc', hruntime'⟩ := hhand c r (by simpa using hc) hruntime hlive
        exact .inr ⟨c', by rw [charges_add]; exact Multiset.mem_add.mpr (.inl hc'), hruntime'⟩
      · exact .inr ⟨c, by rw [charges_add]; exact Multiset.mem_add.mpr (.inr hc), hruntime⟩
  · rw [htable]
    rcases Multiset.mem_add.mp hmem with hmem | hmem
    · exact absurd rfl ((hsilent _ hmem).1 call r)
    · exact h.loading call r (Multiset.mem_cons_of_mem hmem)
  · rw [htable]
    rcases Multiset.mem_add.mp hmem with hmem | hmem
    · exact absurd rfl ((hsilent _ hmem).2 m k r)
    · exact h.finishing m k r (Multiset.mem_cons_of_mem hmem)

theorem afterExecutor_runtimeTable (k : ExecutorId) (t : ExecutorTask)
    (effect : Effect ExecutorState ExecutorTask) :
    (s.afterExecutor k t effect).state.runtimeTable = s.runtimeTable := by
  obtain ⟨engine, -, -, hstate⟩ := afterExecutor_state s k t effect
  rw [hstate]
  rfl

/-- A runtime in the hands of the running call is in no other's. -/
theorem ne_of_others {c c' : Charge} (hok : Ok s (task ::ₘ bag)) (hc : task.charge = some c)
    (hr : c.runtime = some r) (hc' : c' ∈ charges bag) : c'.runtime ≠ some r := by
  intro hr'
  have hname := ((hok.tables.holds_task hc).runtime r hr).2
  have hname' := ((hok.tables.holds_bag hc').runtime r hr').2
  exact hok.charged.others hc c' hc' (hname'.symm.trans hname)

theorem Kept.buildRuntime {call : LoadCall} {spec : RuntimeSpec} (h : Kept s (.buildRuntime call ::ₘ bag))
    (hok : Ok s (.buildRuntime call ::ₘ bag)) :
    let e : Step := { state := s.addRuntime { spec with modelName := call.modelName }
                      next := [.loadRuntime call s.nextRuntime] }
    Kept e.state (e.left + bag) := by
  have hheld : ∀ t ∈ bag, ∀ c, t.charge = some c → ∀ r ∈ c.runtime,
      (s.addRuntime { spec with modelName := call.modelName }).runtimeTable r = s.runtimeTable r := by
    intro t ht c hc r hr
    have hholds := hok.tables.holds_bag ((Multiset.mem_filterMap _ _).mpr ⟨t, ht, hc⟩)
    exact addRuntime_of_lt (hholds.runtime r hr).1 _
  refine ⟨fun r hr => ?_, fun call' r hmem => ?_, fun m k r hmem => ?_⟩
  · rcases Nat.lt_succ_iff_lt_or_eq.mp hr.built with hlt | rfl
    · have hsame := addRuntime_of_lt hlt { spec with modelName := call.modelName }
      have hlive : Live s r := ⟨hlt, hsame ▸ hr.loaded, hsame ▸ hr.opened⟩
      refine (h.live r hlive).imp (fun hregistered => ?_) fun ⟨c, hc, hruntime⟩ => ?_
      · show s.engine.runtimes.get? _ = some r
        rw [hsame]
        exact hregistered
      · rw [charges_cons] at hc
        rcases Multiset.mem_add.mp hc with hc | hc
        · obtain rfl := List.mem_singleton.mp (Multiset.mem_coe.mp hc)
          cases hruntime
        · exact ⟨c, by rw [charges_add]; exact Multiset.mem_add.mpr (.inr hc), hruntime⟩
    · -- the new runtime is not loaded
      have hloaded := hr.loaded
      rw [addRuntime_self] at hloaded
      cases hloaded
  · rcases Multiset.mem_add.mp hmem with hmem | hmem
    · obtain ⟨-, rfl⟩ : call' = call ∧ r = s.nextRuntime := by simpa [Effect.left] using hmem
      exact congrArg TTSRuntime.loaded (addRuntime_self s _)
    · rw [hheld _ hmem _ rfl r rfl]
      exact h.loading call' r (Multiset.mem_cons_of_mem hmem)
  · rcases Multiset.mem_add.mp hmem with hmem | hmem
    · simp [Effect.left] at hmem
    · rw [hheld _ hmem _ rfl r rfl]
      exact h.finishing m k r (Multiset.mem_cons_of_mem hmem)

/-- The flags of the runtime in hand set; it goes on in the call's hands, or is
closed. -/
theorem Kept.setRuntime {c : Charge} (h : Kept s (task ::ₘ bag)) (runtime : TTSRuntime)
    (hok : Ok s (task ::ₘ bag)) (hc : task.charge = some c) (hr : c.runtime = some r)
    (hname : runtime.modelName = (s.runtimeTable r).modelName)
    (htable : e.state.runtimeTable = (s.setRuntime r runtime).runtimeTable)
    (hnext : e.state.nextRuntime = s.nextRuntime) (hruntimes : e.state.engine.runtimes = s.engine.runtimes)
    (hhand : charges e.left = {c} ∨ runtime.closed = true)
    (hleft : ∀ t ∈ e.left, (∀ call r', t ≠ .loadRuntime call r') ∧
      ∀ m k r', t = .finishUnload m k (some r') → r' = r ∧ runtime.closed = true) :
    Kept e.state (e.left + bag) := by
  have hold : ∀ r', r' ≠ r → e.state.runtimeTable r' = s.runtimeTable r' := fun r' hne => by
    rw [htable, setRuntime_of_ne hne]
  have hself : e.state.runtimeTable r = runtime := by rw [htable, setRuntime_self]
  have hothers : ∀ t ∈ bag, ∀ c', t.charge = some c' → ∀ r' ∈ c'.runtime,
      e.state.runtimeTable r' = s.runtimeTable r' := by
    intro t ht c' hc' r' hr'
    refine hold r' ?_
    rintro rfl
    exact ne_of_others hok hc hr ((Multiset.mem_filterMap _ _).mpr ⟨t, ht, hc'⟩) hr'
  refine ⟨fun r' hr' => ?_, fun call r' hmem => ?_, fun m k r' hmem => ?_⟩
  · by_cases hne : r' = r
    · subst hne
      rcases hhand with hhand | hclosed
      · refine .inr ⟨c, ?_, hr⟩
        rw [charges_add, hhand]
        exact Multiset.mem_add.mpr (.inl (Multiset.mem_singleton_self c))
      · have hopened := hr'.opened
        rw [hself, hclosed] at hopened
        cases hopened
    · have hsame := hold r' hne
      have hlive : Live s r' := ⟨hnext ▸ hr'.built, hsame ▸ hr'.loaded, hsame ▸ hr'.opened⟩
      refine (h.live r' hlive).imp (fun hregistered => ?_) fun ⟨c', hc', hruntime⟩ => ?_
      · rw [Registered, hsame, hruntimes]
        exact hregistered
      · rw [charges_cons, hc] at hc'
        rcases Multiset.mem_add.mp hc' with hc' | hc'
        · obtain rfl := List.mem_singleton.mp (Multiset.mem_coe.mp hc')
          exact absurd (Option.some.inj (hruntime.symm.trans hr)) hne
        · exact ⟨c', by rw [charges_add]; exact Multiset.mem_add.mpr (.inr hc'), hruntime⟩
  · rcases Multiset.mem_add.mp hmem with hmem | hmem
    · exact absurd rfl ((hleft _ hmem).1 call r')
    · rw [hothers _ hmem _ rfl r' rfl]
      exact h.loading call r' (Multiset.mem_cons_of_mem hmem)
  · rcases Multiset.mem_add.mp hmem with hmem | hmem
    · obtain ⟨rfl, hclosed⟩ := (hleft _ hmem).2 m k r' rfl
      rw [hself, hclosed]
    · rw [hothers _ hmem _ rfl r' rfl]
      exact h.finishing m k r' (Multiset.mem_cons_of_mem hmem)

/-- What is registered changes for one model, from what the call holds to what it
finds. -/
theorem Kept.register {call : LoadCall} {k : ExecutorId} {gpuUsedAfterMib : Option ℤ}
    (h : Kept s (.register call r k gpuUsedAfterMib ::ₘ bag))
    (hok : Ok s (.register call r k gpuUsedAfterMib ::ₘ bag))
    (hnone : s.engine.runtimes.get? call.modelName = none) :
    Kept (s.register call r k gpuUsedAfterMib).state ((s.register call r k gpuUsedAfterMib).left + bag) := by
  have hname := ((hok.tables.holds_task (c := ⟨call.modelName, .loading, some r, some k⟩) rfl).runtime r rfl).2
  have hsilent : ∀ t ∈ (s.register call r k gpuUsedAfterMib).left, Silent t :=
    silent_of_charges (charges_register ..)
  refine ⟨fun r' hr' => ?_, fun call' r' hmem => ?_, fun m j r' hmem => ?_⟩
  · have hlive : Live s r' := ⟨hr'.built, hr'.loaded, hr'.opened⟩
    have hset : Registered (s.register call r k gpuUsedAfterMib).state r' ↔
        (s.engine.runtimes.set call.modelName r).get? (s.runtimeTable r').modelName = some r' := Iff.rfl
    rcases h.live r' hlive with hregistered | ⟨c, hc, hruntime⟩
    · refine .inl (hset.mpr ?_)
      have hne : (s.runtimeTable r').modelName ≠ call.modelName := by
        intro heq
        rw [Registered, heq, hnone] at hregistered
        cases hregistered
      rw [Dict.get?_set_of_ne _ hne]
      exact hregistered
    · rw [charges_cons] at hc
      rcases Multiset.mem_add.mp hc with hc | hc
      · obtain rfl := List.mem_singleton.mp (Multiset.mem_coe.mp hc)
        obtain rfl := Option.some.inj hruntime
        refine .inl (hset.mpr ?_)
        rw [hname, Dict.get?_set_self]
      · exact .inr ⟨c, by rw [charges_add]; exact Multiset.mem_add.mpr (.inr hc), hruntime⟩
  · rcases Multiset.mem_add.mp hmem with hmem | hmem
    · exact absurd rfl ((hsilent _ hmem).1 call' r')
    · exact h.loading call' r' (Multiset.mem_cons_of_mem hmem)
  · rcases Multiset.mem_add.mp hmem with hmem | hmem
    · exact absurd rfl ((hsilent _ hmem).2 m j r')
    · exact h.finishing m j r' (Multiset.mem_cons_of_mem hmem)

theorem Kept.drained {modelName : String} {deadline : ℚ} (h : Kept s (.awaitDrain modelName deadline ::ₘ bag)) :
    let e : Step := { state := s.popModel modelName
                      next := [.closeRuntime modelName (s.engine.executors.get? modelName)
                        (s.engine.runtimes.get? modelName)] }
    Kept e.state (e.left + bag) := by
  intro e
  have hsilent : ∀ t ∈ e.left, Silent t := silent_next ⟨nofun, nofun⟩
  refine ⟨fun r hr => ?_, fun call r hmem => ?_, fun m k r hmem => ?_⟩
  · have hlive : Live s r := ⟨hr.built, hr.loaded, hr.opened⟩
    rw [charges_add, charges_next]
    rcases h.live r hlive with hregistered | ⟨c, hc, hruntime⟩
    · by_cases hname : (s.runtimeTable r).modelName = modelName
      · -- the runtime is taken in hand
        refine .inr ⟨⟨modelName, .unloading, s.engine.runtimes.get? modelName, s.engine.executors.get? modelName⟩,
          Multiset.mem_add.mpr (.inl (Multiset.mem_coe.mpr (List.mem_singleton_self _))), ?_⟩
        exact hname ▸ hregistered
      · refine .inl ?_
        show (s.engine.runtimes.erase modelName).get? (s.runtimeTable r).modelName = some r
        rw [Dict.get?_erase_of_ne _ hname]
        exact hregistered
    · rw [charges_cons] at hc
      rcases Multiset.mem_add.mp hc with hc | hc
      · obtain rfl := List.mem_singleton.mp (Multiset.mem_coe.mp hc)
        cases hruntime
      · exact .inr ⟨c, Multiset.mem_add.mpr (.inr hc), hruntime⟩
  · rcases Multiset.mem_add.mp hmem with hmem | hmem
    · exact absurd rfl ((hsilent _ hmem).1 call r)
    · exact h.loading call r (Multiset.mem_cons_of_mem hmem)
  · rcases Multiset.mem_add.mp hmem with hmem | hmem
    · exact absurd rfl ((hsilent _ hmem).2 m k r)
    · exact h.finishing m k r (Multiset.mem_cons_of_mem hmem)

/-- A call that ends has no loaded runtime in hand: none at all, or one whose `load` has
not returned. -/
theorem Kept.empty (h : Kept s (task ::ₘ bag)) {charge : Charge} (hcharge : task.charge = some charge)
    (hruntime : charge.runtime = none ∨ (∃ call r, task = .loadRuntime call r) ∨ s.losesRuntime task input = true)
    (hloses : s.losesRuntime task input = false) :
    ∀ c r, task.charge = some c → c.runtime = some r → ¬ Live s r := by
  intro c r hc hr hlive
  obtain rfl := Option.some.inj (hcharge.symm.trans hc)
  rcases hruntime with hnone | ⟨call, r', rfl⟩ | hloses'
  · cases hnone.symm.trans hr
  · obtain rfl := Option.some.inj ((congrArg Charge.runtime (Option.some.inj hcharge)).trans hr)
    cases (h.loading call _ (Multiset.mem_cons_self _ _)).symm.trans hlive.loaded
  · cases hloses.symm.trans hloses'

/-- **A step that lets go of no loaded runtime** keeps them all. -/
theorem Kept.run (h : Kept s (task ::ₘ bag)) (hok : Ok s (task ::ₘ bag)) (hr : Ran s task input e)
    (hloses : s.losesRuntime task input = false) : Kept e.state (e.left + bag) := by
  -- a call that has nothing in hand lets go of nothing
  have hempty : (∀ c, task.charge = some c → c.runtime = none) → ∀ c r, task.charge = some c →
      c.runtime = some r → Live s r → ∃ c' ∈ charges e.left, c'.runtime = some r := by
    intro hnone c r hc hruntime
    cases (hnone c hc).symm.trans hruntime
  have hidle : task.charge = none → ∀ c, task.charge = some c → c.runtime = none := by
    intro hnone c hc
    cases hnone.symm.trans hc
  cases hr with
  | aside hcharge hown hnext =>
    exact h.same rfl rfl rfl (hempty (hidle hcharge))
      (silent_of_charges (charges_aside hnext))
  | stream request hex hk hloaded =>
    exact h.same rfl rfl rfl (hempty (hidle rfl)) (silent_of_charges (charges_next _ _))
  | @executor k t i effect hk hrun =>
    have hfixed := fixed_afterExecutor (s := s) k t effect
    exact h.same (afterExecutor_runtimeTable k t effect) hfixed.nextRuntime hfixed.runtimes (hempty (hidle rfl))
      (silent_of_charges (charges_afterExecutor k t effect))
  | begins task' hcharge hown hsettled hf hlifecycle hcharge' hnext =>
    refine h.same rfl rfl rfl (hempty (hidle hcharge)) fun t ht => ?_
    rw [Effect.left_of_next rfl, Multiset.mem_coe] at ht
    have htask' := silent_of_runtime hcharge' rfl
    rcases hnext with rfl | ⟨k, -, rfl⟩
    · exact List.mem_singleton.mp ht ▸ htask'
    · rcases List.mem_cons.mp ht with rfl | ht
      · exact ⟨by simp, by simp⟩
      · exact List.mem_singleton.mp ht ▸ htask'
  | passes hcharge hcharge' hload hfinish =>
    refine h.same rfl rfl rfl (fun c r hc hruntime _ => ⟨c, ?_, hruntime⟩) (silent_next ⟨hload, hfinish⟩)
    rw [charges_next, hcharge', ← hcharge, hc]
    exact Multiset.mem_coe.mpr (List.mem_singleton_self c)
  | startExecutor call r k =>
    refine h.same rfl rfl rfl (fun c r' hc hruntime _ => ⟨c, ?_, hruntime⟩) fun t ht => ?_
    · rw [charges_startExecutor]
      exact Multiset.mem_singleton.mpr (Option.some.inj hc).symm
    · have ht : t = .queryGpuAfter call r k ∨ t = .executor k .runLoop := by simpa [Effect.left] using ht
      rcases ht with rfl | rfl <;> exact ⟨by simp, by simp⟩
  | givesUp error hcharge hruntime =>
    refine h.same rfl rfl rfl (fun c r hc hr hlive => ?_) (silent_next ⟨by simp, by simp⟩)
    exact absurd hlive (h.empty hcharge hruntime hloses c r hc hr)
  | buildRuntime call spec => exact h.buildRuntime hok
  | loadRuntime call r =>
    refine h.setRuntime { s.runtimeTable r with loaded := true } hok
      (c := ⟨call.modelName, .loading, some r, none⟩) rfl rfl rfl rfl rfl rfl (.inl (charges_next _ _)) fun t ht => ?_
    obtain rfl := Multiset.mem_singleton.mp ht
    exact ⟨by simp, by simp⟩
  | buildExecutor call r =>
    refine h.same rfl rfl rfl (fun c r' hc hruntime _ => ⟨⟨call.modelName, .loading, some r, some s.nextExecutor⟩,
      ?_, ?_⟩) (silent_next ⟨by simp, by simp⟩)
    · rw [RouterState.buildExecutor, charges_next]
      exact Multiset.mem_coe.mpr (List.mem_singleton_self _)
    · obtain rfl := Option.some.inj hc
      exact hruntime
  | breaksOff error hcharge hlifecycle hbreaks hruntime =>
    refine h.same rfl rfl rfl (fun c r hc hr hlive => ?_) (silent_of_charges (charges_leave _ _ _))
    exact absurd hlive (h.empty hcharge hruntime hloses c r hc hr)
  | fails error hcharge hf =>
    refine h.same rfl rfl rfl (hempty fun c hc => ?_) (silent_of_charges (charges_leave _ _ _))
    obtain rfl := Option.some.inj (hcharge.symm.trans hc)
    rfl
  | register call r k gpuUsedAfterMib input =>
    refine h.register hok ?_
    simpa [losesRuntime] using hloses
  | drained modelName deadline now hnone => exact h.drained
  | closed modelName k r =>
    refine h.setRuntime { s.runtimeTable r with closed := true } hok (c := ⟨modelName, .unloading, some r, k⟩)
      rfl rfl rfl rfl rfl rfl (.inr rfl) fun t ht => ?_
    obtain rfl := Multiset.mem_singleton.mp ht
    refine ⟨by simp, fun m j r' heq => ?_⟩
    cases heq
    exact ⟨rfl, rfl⟩
  | closeRaised modelName k r error =>
    refine h.setRuntime { s.runtimeTable r with closed := true } hok (c := ⟨modelName, .unloading, some r, k⟩)
      rfl rfl rfl rfl rfl rfl (.inr rfl) fun t ht => ?_
    obtain ⟨hload, hfinish⟩ := silent_of_charges (charges_leave _ _ _) t ht
    exact ⟨hload, fun m j r' heq => absurd heq (hfinish m j r')⟩
  | finishUnload modelName k r input =>
    refine h.same rfl rfl rfl (fun c r' hc hruntime hlive => ?_) (silent_of_charges (charges_finishUnload ..))
    obtain rfl := Option.some.inj hc
    obtain rfl : r = some r' := hruntime
    cases (h.finishing modelName k r' (Multiset.mem_cons_self _ _)).symm.trans hlive.opened

theorem Kept.entry (h : Kept s bag) (hentry : task.entry = true) : Kept s (task ::ₘ bag) where
  live := fun r hr => by
    rw [charges_entry hentry]
    exact h.live r hr
  loading := fun call r hmem => by
    rcases Multiset.mem_cons.mp hmem with rfl | hmem
    · cases hentry
    · exact h.loading call r hmem
  finishing := fun m k r hmem => by
    rcases Multiset.mem_cons.mp hmem with rfl | hmem
    · cases hentry
    · exact h.finishing m k r hmem

/-- **No loaded runtime is orphaned**, in any run without a step that lets go of
one: where no call has a model in charge, every runtime of the model that is
loaded and not closed is the one registered for it. -/
theorem runtimes_kept (settings : AppSettings) (actions : List RouterAction)
    (hmeets : Run.Along routerProgram.step (Meets fun s task input => s.losesRuntime task input = false)
      (RouterState.start settings) actions) (m : String)
    (hfree : ∀ c ∈ charges (after settings actions).bag, c.modelName ≠ m) (r : RuntimeId)
    (hlive : Live (after settings actions).state r)
    (hname : ((after settings actions).state.runtimeTable r).modelName = m) :
    (after settings actions).state.engine.runtimes.get? m = some r := by
  have hstart : Kept (RouterState.start settings).state (RouterState.start settings).bag := by
    refine ⟨fun r hr => absurd hr.built (Nat.not_lt_zero r), fun call r hmem => ?_, fun m k r hmem => ?_⟩ <;>
    · obtain ⟨_, _, heq⟩ := mem_start hmem
      cases heq
  obtain ⟨hok, hkept⟩ := runs_of_ok (I := Kept) settings hstart (fun s bag task hentry h => h.entry hentry)
    (fun s bag task input e hloses hr hok h => h.run hok hr hloses) hmeets
  rcases hkept.live r hlive with hregistered | ⟨c, hc, hruntime⟩
  · exact hname ▸ hregistered
  · exact absurd (((hok.tables.holds c hc).runtime r hruntime).2.symm.trans hname) (hfree c hc)

/-- A load that goes well. -/
def cleanLoad : List RouterAction :=
  [.call (.loadModel "m" none), .run 1 .returns, .run 1 (.subprocess (.ok none)), .run 1 (.built {}),
    .run 1 .returns, .run 1 .returns, .run 1 .returns, .run 1 .returns, .run 1 (.subprocess (.ok none)),
    .run 1 .returns, .run 1 .returns]

theorem runtimes_kept_clean_load : (after oneModel cleanLoad).state.engine.runtimes.get? "m" = some 0 :=
  runtimes_kept oneModel cleanLoad (by decide +kernel) "m" (by decide +kernel) 0
    ⟨by decide +kernel, by decide +kernel, by decide +kernel⟩ (by decide +kernel)

/-- A stream buffer of half a NanoVLLM chunk. -/
def smallBuffer : AppSettings :=
  { oneModel with backend := "nanovllm_voxcpm", grpc := { streamBufferBytes := 32768 } }

/-- A load that is refused once the runtime is loaded. -/
def largeChunks : List RouterAction :=
  [.call (.loadModel "m" none), .run 1 .returns, .run 1 (.subprocess (.ok none)),
    .run 1 (.built { maxStreamChunkBytes := some 65536 }), .run 1 .returns, .run 1 .returns, .run 1 .returns]

/-- **A loaded runtime is orphaned.**  The load has failed and is over; its
runtime is loaded, not closed and registered nowhere. -/
theorem runtime_orphaned : (∀ c ∈ charges (after smallBuffer largeChunks).bag, c.modelName ≠ "m") ∧
    Live (after smallBuffer largeChunks).state 0 ∧
    ((after smallBuffer largeChunks).state.runtimeTable 0).modelName = "m" ∧
    (after smallBuffer largeChunks).state.engine.runtimes.get? "m" ≠ some 0 :=
  ⟨by decide +kernel, ⟨by decide +kernel, by decide +kernel, by decide +kernel⟩, by decide +kernel,
    by decide +kernel⟩

end RouterState
end TtsPool
