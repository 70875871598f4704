/-
# What the load check promises

`load_model` compares the stream buffer with the largest chunk that a runtime
declares, once, when the runtime is loaded, and fails the load where the buffer
is smaller.  The check is made in a section of its own, and the runtime is
registered four sections later; but neither the settings nor what a runtime
declares ever changes (`Ran.bufferTooSmall`), so a call that has got past the
check can rely on it (`Checked`).

`registered_checked`: in every reachable state the buffer holds the largest chunk
that a registered runtime declares.  The buffer's size is what `load_settings` made
of the document; all it promises is that the buffer is not empty
(`Settings.router_of_loadSettings`).
-/

import TtsPool.Config.Validation
import TtsPool.Router.Runtimes

namespace TtsPool

open Threads (Effect)

/-- What the router reads of the `GrpcSettings` that `load_settings` makes. -/
def Settings.GrpcSettings.router? (grpc : Settings.GrpcSettings) : Option TtsPool.GrpcSettings :=
  match grpc.stalledConsumerTimeoutS, grpc.shutdownGraceS with
  | .finite stalledConsumerTimeoutS, .finite shutdownGraceS =>
    some {
      streamBufferChunks := grpc.streamBufferChunks
      streamBufferBytes := grpc.streamBufferBytes
      stalledConsumerTimeoutS
      shutdownGraceS }
  | _, _ => none

/-- Settings that `load_settings` accepts have what the router reads, and a buffer
that is not empty. -/
theorem Settings.router_of_loadSettings {base localOverride : Option JsonDocument} {settings : Settings.AppSettings}
    (hload : Settings.loadSettings base localOverride = .ok settings) :
    ∃ grpc, settings.service.grpc.router? = some grpc ∧ 1 ≤ grpc.streamBufferChunks ∧ 1 ≤ grpc.streamBufferBytes := by
  have hgood := Settings.grpc_good_of_loadSettings hload
  obtain ⟨stalled, hstalled⟩ := PyFloat.exists_finite hgood.stalledConsumerTimeoutS.1
  obtain ⟨grace, hgrace⟩ := PyFloat.exists_finite hgood.shutdownGraceS.1
  rw [Settings.GrpcSettings.router?, hstalled, hgrace]
  exact ⟨_, rfl, hgood.streamBufferChunks, hgood.streamBufferBytes⟩

/-- The runtime of a call of `load_model` that has got past the check. -/
def RouterTask.checked : RouterTask → Option RuntimeId
  | .buildExecutor _ r | .startExecutor _ r _ | .queryGpuAfter _ r _ | .register _ r _ _ => some r
  | _ => none

namespace RouterState

variable {s : RouterState} {task : RouterTask} {bag : Multiset RouterTask} {e : Step} {input : RouterInput}
  {r : RuntimeId}

/-- The settings are what the engine was made with. -/
theorem Ran.settings (h : Ran s task input e) : e.state.engine.settings = s.engine.settings := by
  cases h with
  | @executor k t i effect hk hrun =>
    simp only [afterExecutor]
    split <;> rfl
  | _ => rfl

/-- A chunk fits or not as before where size and settings are as before. -/
theorem bufferTooSmall_congr {s' : RouterState}
    (hsize : (s'.runtimeTable r).maxStreamChunkBytes = (s.runtimeTable r).maxStreamChunkBytes)
    (hsettings : s'.engine.settings = s.engine.settings) : s'.BufferTooSmall r ↔ s.BufferTooSmall r := by
  rw [BufferTooSmall, BufferTooSmall, hsize, hsettings]

/-- **What a runtime declares stays.** -/
theorem Ran.maxStreamChunkBytes (h : Ran s task input e) (hr : r < s.nextRuntime) :
    (e.state.runtimeTable r).maxStreamChunkBytes = (s.runtimeTable r).maxStreamChunkBytes := by
  -- an update of a flag of some runtime
  have hset : ∀ (r' : RuntimeId) (runtime : TTSRuntime),
      runtime.maxStreamChunkBytes = (s.runtimeTable r').maxStreamChunkBytes →
      ((s.setRuntime r' runtime).runtimeTable r).maxStreamChunkBytes =
        (s.runtimeTable r).maxStreamChunkBytes := by
    intro r' runtime hsize
    by_cases heq : r = r'
    · rw [heq, setRuntime_self, hsize]
    · rw [setRuntime_of_ne heq]
  cases h with
  | @executor k t i effect hk hrun => rw [afterExecutor_runtimeTable]
  | buildRuntime call spec => exact congrArg (·.maxStreamChunkBytes) (addRuntime_of_lt hr _)
  | loadRuntime call r' => exact hset r' _ rfl
  | closed modelName k r' => exact hset r' _ rfl
  | closeRaised modelName k r' error => exact hset r' _ rfl
  | _ => rfl

theorem Ran.bufferTooSmall (h : Ran s task input e) (hr : r < s.nextRuntime) :
    e.state.BufferTooSmall r ↔ s.BufferTooSmall r :=
  bufferTooSmall_congr (h.maxStreamChunkBytes hr) h.settings

/-- A task past the check has its runtime in hand. -/
theorem charge_of_checked (h : task.checked = some r) :
    ∃ c, task.charge = some c ∧ c.lifecycle = .loading ∧ c.runtime = some r := by
  cases task <;> cases h <;> exact ⟨_, rfl, rfl, rfl⟩

/-- **A task past the check comes of one**, or of the check itself. -/
theorem checked_of_run (hrun : s.run task input = some e) {t : RouterTask} (ht : t ∈ e.left)
    (hchecked : t.checked = some r) : task.checked = some r ∨
      ¬ s.BufferTooSmall r ∧ ∃ c, task.charge = some c ∧ c.runtime = some r := by
  obtain ⟨c, hc, hloading, hruntime⟩ := charge_of_checked hchecked
  have hmem : c ∈ charges e.left := (Multiset.mem_filterMap _ _).mpr ⟨t, ht, hc⟩
  have hnone : charges e.left ≠ 0 := fun heq => Multiset.notMem_zero c (heq ▸ hmem)
  have hone {state : RouterState} {task' : RouterTask}
      (hmem : t ∈ Effect.left { state := state, next := [task'] }) : t = task' := Multiset.mem_singleton.mp hmem
  cases ran_of_run hrun with
  | aside hcharge hown hnext => exact absurd (charges_aside hnext) hnone
  | stream request hex hk hloaded => exact absurd (charges_next _ _) hnone
  | @executor k t i effect hk heffect => exact absurd (charges_afterExecutor k t effect) hnone
  | begins task' hcharge hown hsettled hf hlifecycle hcharge' hnext =>
    rw [charges_begins hcharge' hnext] at hmem
    obtain rfl := Multiset.mem_singleton.mp hmem
    cases hruntime
  | passes hcharge hcharge' hload hfinish =>
    obtain rfl := hone ht
    obtain rfl := Option.some.inj (hc.symm.trans hcharge')
    cases task with
    | checkBuffer call r' =>
      obtain rfl : r' = r :=
        Option.some.inj ((congrArg Charge.runtime (Option.some.inj hcharge)).trans hruntime)
      by_cases hsmall : s.BufferTooSmall r'
      · have hnext := congrArg Effect.next (Option.some.inj hrun)
        simp only [checkBuffer, if_pos hsmall, List.cons.injEq, and_true] at hnext
        rw [← hnext] at hchecked
        cases hchecked
      · exact .inr ⟨hsmall, c, hcharge, hruntime⟩
    | loadRuntime call r' =>
      cases input with
      | returns =>
        have hnext := congrArg Effect.next (Option.some.inj hrun)
        simp only [RouterState.loadRuntime, List.cons.injEq, and_true] at hnext
        rw [← hnext] at hchecked
        cases hchecked
      | raises error =>
        cases hrun
        cases hchecked
      | escapes error =>
        have hnext := congrArg Effect.next (Option.some.inj hrun)
        simp only [leave, Option.toList_some, List.map_cons, List.cons.injEq] at hnext
        rw [← hnext.1] at hchecked
        cases hchecked
      | _ => cases hrun
    | buildExecutor | startExecutor | queryGpuAfter | register =>
      exact .inl ((congrArg Charge.runtime (Option.some.inj hcharge)).trans hruntime)
    | closeRuntime | finishUnload => cases (congrArg Charge.lifecycle (Option.some.inj hcharge)).trans hloading
    | _ => cases hcharge <;> cases hruntime
  | startExecutor call r' k =>
    rw [charges_startExecutor] at hmem
    obtain rfl := Multiset.mem_singleton.mp hmem
    exact .inl hruntime
  | givesUp error hcharge hruntime' =>
    obtain rfl := hone ht
    cases hchecked
  | buildRuntime call spec =>
    obtain rfl := hone ht
    cases hchecked
  | loadRuntime call r' =>
    obtain rfl := hone ht
    cases hchecked
  | buildExecutor call r' =>
    obtain rfl := hone ht
    exact .inl hchecked
  | breaksOff error hcharge hlifecycle hbreaks hruntime' => exact absurd (charges_leave _ _ _) hnone
  | fails error hcharge hf => exact absurd (charges_leave _ _ _) hnone
  | register call r' k gpuUsedAfterMib => exact absurd (charges_register ..) hnone
  | drained modelName deadline now hnone =>
    obtain rfl := hone ht
    cases hchecked
  | closed modelName k r' =>
    obtain rfl := hone ht
    cases hchecked
  | closeRaised modelName k r' error => exact absurd (charges_leave _ _ _) hnone
  | finishUnload modelName k r' => exact absurd (charges_finishUnload ..) hnone

/-- **A call that has got past the check can rely on it**, and so can who finds a
runtime registered. -/
structure Checked (s : RouterState) (bag : Multiset RouterTask) : Prop where
  tasks : ∀ task ∈ bag, ∀ r, task.checked = some r → ¬ s.BufferTooSmall r
  registered : ∀ m r, s.engine.runtimes.get? m = some r → ¬ s.BufferTooSmall r

/-- A registered runtime has been built. -/
theorem Tables.runtime_lt {m : String} (h : Tables s bag) (hr : s.engine.runtimes.get? m = some r) :
    r < s.nextRuntime := by
  rw [h.runtimes] at hr
  obtain ⟨k, hk, rfl⟩ := Option.map_eq_some_iff.mp hr
  exact (h.runs k (h.registered m k hk).1).1

/-- A runtime that is registered by now was before, or a load registers the one
it holds. -/
theorem Ran.runtimes {m : String} (h : Ran s task input e) (hr : e.state.engine.runtimes.get? m = some r) :
    s.engine.runtimes.get? m = some r ∨ task.checked = some r := by
  cases h with
  | @executor k t i effect hk hrun => exact .inl ((fixed_afterExecutor k t effect).runtimes ▸ hr)
  | register call r' k gpuUsedAfterMib input =>
    have hr : (s.engine.runtimes.set call.modelName r').get? m = some r := hr
    by_cases hm : m = call.modelName
    · rw [hm, Dict.get?_set_self] at hr
      exact .inr hr
    · rw [Dict.get?_set_of_ne _ hm] at hr
      exact .inl hr
  | drained modelName deadline now hnone =>
    have hr : (s.engine.runtimes.erase modelName).get? m = some r := hr
    by_cases hm : m = modelName
    · rw [hm, Dict.get?_erase_self] at hr
      cases hr
    · rw [Dict.get?_erase_of_ne _ hm] at hr
      exact .inl hr
  | _ => exact .inl hr

theorem Checked.run (h : Checked s (task ::ₘ bag)) (hok : Ok s (task ::ₘ bag))
    (hrun : s.run task input = some e) : Checked e.state (e.left + bag) := by
  have hran := ran_of_run hrun
  have hheld : ∀ t ∈ task ::ₘ bag, ∀ r, t.checked = some r → r < s.nextRuntime := by
    intro t ht r hchecked
    obtain ⟨c, hc, -, hruntime⟩ := charge_of_checked hchecked
    exact ((hok.tables.holds c ((Multiset.mem_filterMap _ _).mpr ⟨t, ht, hc⟩)).runtime r hruntime).1
  have hkept : ∀ t ∈ task ::ₘ bag, ∀ r, t.checked = some r → ¬ e.state.BufferTooSmall r := by
    intro t ht r hchecked
    rw [hran.bufferTooSmall (hheld t ht r hchecked)]
    exact h.tasks t ht r hchecked
  refine ⟨fun t ht r hchecked => ?_, fun m r hr => ?_⟩
  · rcases Multiset.mem_add.mp ht with ht | ht
    · rcases checked_of_run hrun ht hchecked with hbefore | ⟨hfits, c, hc, hruntime⟩
      · exact hkept task (Multiset.mem_cons_self _ _) r hbefore
      · rw [hran.bufferTooSmall ((hok.tables.holds_task hc).runtime r hruntime).1]
        exact hfits
    · exact hkept t (Multiset.mem_cons_of_mem ht) r hchecked
  · rcases hran.runtimes hr with hbefore | hchecked
    · rw [hran.bufferTooSmall (hok.tables.runtime_lt hbefore)]
      exact h.registered m r hbefore
    · exact hkept task (Multiset.mem_cons_self _ _) r hchecked

/-- **In every reachable state the buffer holds the largest chunk that a
registered runtime declares.** -/
theorem registered_checked (settings : AppSettings) (actions : List RouterAction) :
    (after settings actions).state.engine.settings = settings ∧
      ∀ m r, (after settings actions).state.engine.runtimes.get? m = some r →
        ¬ (after settings actions).state.BufferTooSmall r := by
  let Sound (s : RouterState) (bag : Multiset RouterTask) : Prop :=
    Ok s bag ∧ Checked s bag ∧ s.engine.settings = settings
  have hstart : Sound (RouterState.start settings).state (RouterState.start settings).bag := by
    refine ⟨.start settings, ⟨fun task htask r hchecked => ?_, nofun⟩, rfl⟩
    obtain ⟨m, target, rfl⟩ := mem_start htask
    cases hchecked
  have hentry : ∀ s bag task, RouterTask.entry task = true → Sound s bag → Sound s (task ::ₘ bag) := by
    intro s bag task hentry ⟨hok, hchecked, hsettings⟩
    refine ⟨hok.entry hentry, ⟨fun t ht r htask => ?_, hchecked.registered⟩, hsettings⟩
    rcases Multiset.mem_cons.mp ht with rfl | ht
    · obtain ⟨c, hc, -⟩ := charge_of_checked htask
      cases (RouterTask.charge_of_entry hentry).symm.trans hc
    · exact hchecked.tasks t ht r htask
  have h := Threads.Program.runs_of (p := routerProgram) hstart hentry
    (fun s bag task input e hrun ⟨hok, hchecked, hsettings⟩ =>
      ⟨hok.run (ran_of_run hrun), hchecked.run hok hrun, (ran_of_run hrun).settings.trans hsettings⟩) actions
  exact ⟨h.2.2, h.2.1.registered⟩

end RouterState
end TtsPool
