/-
# Runs of the executor

What holds after any schedule of the threads around one executor, whatever
calls come in and whatever the code outside does.

`terminated_once`: the handle of an accepted job is not terminal exactly while
the job is pending, active, or owned by one thread, and `_finish` is called on
it once.  `slots_accounted`: the three tables of running jobs agree, they stay
within the target, and no more backend calls run than slots are held.

Each caller enqueues a handle of its own, as `stream` does; that is how
`openStream` makes them.
-/

import TtsPool.Executor.Moves

namespace TtsPool

open Threads (Effect Action Config)

/-- A schedule of the threads around one executor. -/
abbrev ExecutorAction := Action ExecutorTask ExecutorInput

theorem LoadedModelExecutor.SameConfig.refl (executor : LoadedModelExecutor) : executor.SameConfig executor :=
  ⟨rfl, rfl, rfl, rfl⟩

theorem LoadedModelExecutor.SameConfig.trans {a b c : LoadedModelExecutor} (hab : a.SameConfig b)
    (hbc : b.SameConfig c) : a.SameConfig c :=
  ⟨hbc.modelName.trans hab.modelName, hbc.streaming.trans hab.streaming,
    hbc.configured.trans hab.configured, hbc.effective.trans hab.effective⟩

namespace ExecutorState

/-- The threads of a new executor after a schedule. -/
def after (modelName : String) (streaming : Bool) (configuredTargetInflight : ℤ)
    (settings : FairnessSettings) (runtimeCapability : ℤ) (actions : List ExecutorAction) :
    Config ExecutorState ExecutorTask :=
  executorProgram.runs
    (ExecutorState.start (.new modelName streaming configuredTargetInflight settings runtimeCapability)) actions

/-- **Every reachable state satisfies the invariant**, under the targets the
executor was made with. -/
theorem after_ok (modelName : String) (streaming : Bool) (configuredTargetInflight : ℤ)
    (settings : FairnessSettings) (runtimeCapability : ℤ) (actions : List ExecutorAction) :
    let c := after modelName streaming configuredTargetInflight settings runtimeCapability actions
    Ok c.state c.bag ∧ LoadedModelExecutor.SameConfig
      (.new modelName streaming configuredTargetInflight settings runtimeCapability) c.state.executor := by
  let Inv (s : ExecutorState) (bag : Multiset ExecutorTask) : Prop := Ok s bag ∧
    LoadedModelExecutor.SameConfig
      (.new modelName streaming configuredTargetInflight settings runtimeCapability) s.executor
  have hstart : Inv (.init _) {.runLoop} :=
    ⟨(Ok.init modelName streaming configuredTargetInflight settings runtimeCapability).spawn
      ⟨rfl, rfl, rfl, rfl⟩, .refl _⟩
  have hentry : ∀ s bag task, ExecutorTask.entry task = true → Inv s bag → Inv s (task ::ₘ bag) :=
    fun s bag task hentry h => ⟨h.1.spawn (.of_entry hentry), h.2⟩
  have hrun : ∀ s bag task input e, ExecutorState.run s task input = some e → Inv s (task ::ₘ bag) →
      Inv e.state (e.left + bag) := by
    intro s bag task input e hrun h
    obtain ⟨t, hm⟩ := h.1.moved hrun
    exact ⟨h.1.step hm, h.2.trans hm.config⟩
  exact Threads.Program.runs_of (p := executorProgram) hstart hentry hrun actions

variable {s : ExecutorState} {bag : Multiset ExecutorTask}

/-- The handles in `_active_stream_handles` are those of the running jobs. -/
theorem Ok.activeHandles_eq (h : Ok s bag) :
    (s.executor.activeStreamHandles.values : Multiset HandleId) =
      (slots bag).map SchedulerJob.streamHandle := by
  have hmap := congrArg (Multiset.map Prod.snd) h.activeHandles
  rw [Multiset.map_coe, Multiset.map_map] at hmap
  exact hmap

/-- **Not terminal exactly while it is held.**  An accepted handle that is not
terminal is in one of the three places, once; a terminal one is in none. -/
theorem Ok.held_iff (h : Ok s bag) {job : SchedulerJob} (hjob : job ∈ s.accepted) :
    (s.queue.pendingJobs.map SchedulerJob.streamHandle).count job.streamHandle +
      s.executor.activeStreamHandles.values.count job.streamHandle + (owned bag).count job.streamHandle =
      if (s.handles job.streamHandle).terminal = true then 0 else 1 := by
  have hplaces := h.places hjob
  rw [← h.activeHandles_eq, Multiset.coe_count] at hplaces
  have hterminal := h.terminal _ (h.lt_of_accepted hjob)
  split_ifs with hend
  · have hcount := List.count_pos_iff.mpr (hterminal.mp hend)
    omega
  · have hcount := List.count_eq_zero_of_not_mem (mt hterminal.mpr hend)
    omega

theorem Ok.finished_nodup (h : Ok s bag) : s.finished.Nodup := by
  refine Multiset.coe_nodup.mp (Multiset.nodup_of_le ?_ (Multiset.coe_nodup.mpr h.accepted_nodup))
  rw [← h.custody]
  exact Multiset.le_add_left _ _

/-- A thread about to finish a handle is the first to do so. -/
theorem Ok.not_terminal_of_owned (h : Ok s bag) {k : HandleId} (hk : k ∈ owned bag) :
    (s.handles k).terminal = false := by
  obtain ⟨job, hjob, rfl⟩ := h.exists_job (Multiset.mem_add.mpr (.inl hk))
  have hheld := h.held_iff hjob
  have hcount := Multiset.count_pos.mpr hk
  by_contra hend
  rw [Bool.not_eq_false] at hend
  rw [if_pos hend] at hheld
  omega

/-- Nothing in the executor knows a rejected handle. -/
theorem Ok.unknown_of_rejected (h : Ok s bag) {k : HandleId} (hk : k ∈ s.rejected) :
    (∀ job ∈ s.accepted, job.streamHandle ≠ k) ∧
      k ∉ s.queue.pendingJobs.map SchedulerJob.streamHandle ∧ k ∉ s.executor.activeStreamHandles.values ∧
      k ∉ owned bag ∧ k ∉ s.finished ∧ (s.handles k).terminal = false ∧
      (s.handles k).cancelCallback = none := by
  have hlt : k < s.nextHandle := by
    have hmem : k ∈ Multiset.range s.nextHandle := by
      rw [← h.decided]
      exact Multiset.mem_add.mpr (.inr (Multiset.mem_coe.mpr hk))
    exact Multiset.mem_range.mp hmem
  have hne : ∀ job ∈ s.accepted, job.streamHandle ≠ k := by
    rintro job hjob rfl
    have hnodup := (Multiset.nodup_add.mp h.decided_nodup).2.2
    refine Multiset.disjoint_left.mp hnodup ?_ (Multiset.mem_coe.mpr hk)
    exact Multiset.mem_add.mpr (.inr (List.mem_map_of_mem hjob))
  have hfinished : k ∉ s.finished := by
    intro hmem
    obtain ⟨job, hjob, hjk⟩ := h.exists_job (Multiset.mem_add.mpr (.inr hmem))
    exact hne job hjob hjk
  refine ⟨hne, ?_, ?_, ?_, hfinished, ?_, ?_⟩
  · intro hmem
    obtain ⟨job, hjob, hjk⟩ := Multiset.mem_map.mp hmem
    exact hne job (h.mem_accepted_of_pending hjob) hjk
  · intro hmem
    have hmem : k ∈ (slots bag).map SchedulerJob.streamHandle := by
      rw [← h.activeHandles_eq]
      exact hmem
    obtain ⟨job, hjob, hjk⟩ := Multiset.mem_map.mp hmem
    exact hne job (h.mem_accepted_of_slot hjob) hjk
  · intro hmem
    obtain ⟨job, hjob, hjk⟩ := h.exists_job (Multiset.mem_add.mpr (.inl hmem))
    exact hne job hjob hjk
  · rw [← Bool.not_eq_true]
    exact mt (h.terminal k hlt).mp hfinished
  · rw [Option.eq_none_iff_forall_ne_some]
    intro job hjob
    exact hne job (h.callbacks k hlt job hjob).1 (h.callbacks k hlt job hjob).2

/-- An `enqueue_stream` that raises leaves no job and no callback behind. -/
theorem rejected_leaves_nothing (hok : s.queue.Ok) (request : ResponseRequest) (h : HandleId) (now : ℚ)
    {error : EngineError} (hraised : (s.enqueueStream request h now).next = [.raised h error]) :
    let s' := (s.enqueueStream request h now).state
    s'.queue.pendingJobs = s.queue.pendingJobs ∧ s'.queue.activeTickets = s.queue.activeTickets ∧
      s'.executor.activeStreamHandles = s.executor.activeStreamHandles ∧
      s'.executor.runtimeInflight = s.executor.runtimeInflight ∧ s'.handles = s.handles ∧
      s'.accepted = s.accepted := by
  rcases enqueueStream_cases hok request h now with ⟨_, q', hflow, -, heq⟩ | ⟨_, _, -, -, -, -, heq⟩
  · have hpending : q'.pendingJobs = s.queue.pendingJobs := by simpa using hflow.pending
    have hactive : q'.activeTickets = s.queue.activeTickets := by simpa using hflow.active
    rw [heq]
    exact ⟨hpending, hactive, rfl, rfl, rfl, rfl⟩
  · rw [heq] at hraised
    simp at hraised

/-- **Every admitted stream is terminated once.**  In any reachable state the
handle of an accepted job is not terminal exactly while it is pending, active
or owned by one thread; no handle was finished twice, and a thread about to
finish one finds it open.  Once nothing is pending, active or owned, every
accepted handle is terminal and was finished once.  A rejected request leaves
nothing behind. -/
theorem terminated_once (modelName : String) (streaming : Bool) (configuredTargetInflight : ℤ)
    (settings : FairnessSettings) (runtimeCapability : ℤ) (actions : List ExecutorAction) :
    let c := after modelName streaming configuredTargetInflight settings runtimeCapability actions
    let s := c.state
    (∀ job ∈ s.accepted,
      (s.queue.pendingJobs.map SchedulerJob.streamHandle).count job.streamHandle +
        s.executor.activeStreamHandles.values.count job.streamHandle + (owned c.bag).count job.streamHandle =
        if (s.handles job.streamHandle).terminal = true then 0 else 1) ∧
    s.finished.Nodup ∧ (∀ k ∈ owned c.bag, (s.handles k).terminal = false) ∧
    (s.queue.pendingJobs = 0 → s.executor.activeStreamHandles.values = [] → owned c.bag = 0 →
      ∀ job ∈ s.accepted, (s.handles job.streamHandle).terminal = true ∧
        s.finished.count job.streamHandle = 1) ∧
    (∀ k ∈ s.rejected, (∀ job ∈ s.accepted, job.streamHandle ≠ k) ∧
      k ∉ s.queue.pendingJobs.map SchedulerJob.streamHandle ∧ k ∉ s.executor.activeStreamHandles.values ∧
      k ∉ owned c.bag ∧ k ∉ s.finished ∧ (s.handles k).terminal = false ∧
      (s.handles k).cancelCallback = none) ∧
    ∀ request k now error, (s.enqueueStream request k now).next = [.raised k error] →
      let s' := (s.enqueueStream request k now).state
      s'.queue.pendingJobs = s.queue.pendingJobs ∧ s'.queue.activeTickets = s.queue.activeTickets ∧
        s'.executor.activeStreamHandles = s.executor.activeStreamHandles ∧
        s'.executor.runtimeInflight = s.executor.runtimeInflight ∧ s'.handles = s.handles ∧
        s'.accepted = s.accepted := by
  intro c s
  have hok : Ok s c.bag :=
    (after_ok modelName streaming configuredTargetInflight settings runtimeCapability actions).1
  refine ⟨fun job hjob => hok.held_iff hjob, hok.finished_nodup, fun k hk => hok.not_terminal_of_owned hk, ?_,
    fun k hk => hok.unknown_of_rejected hk,
    fun request k now error hraised => rejected_leaves_nothing hok.queue request k now hraised⟩
  intro hpending hactive howned job hjob
  have hheld := hok.held_iff hjob
  rw [hpending, hactive, howned] at hheld
  have hend : (s.handles job.streamHandle).terminal = true := by
    by_contra hend
    rw [if_neg hend] at hheld
    simp at hheld
  exact ⟨hend, List.count_eq_one_of_mem hok.finished_nodup
    ((hok.terminal _ (hok.lt_of_accepted hjob)).mp hend)⟩

/-- The tasks in which the backend runs are among those that hold a slot. -/
theorem inBackend_le (bag : Multiset ExecutorTask) :
    bag.countP (fun task => task.inBackend = true) ≤ (slots bag).card := by
  induction bag using Multiset.induction with
  | empty => exact Nat.zero_le _
  | cons task bag ih =>
    by_cases hin : task.inBackend = true
    · obtain ⟨job, hslot⟩ : ∃ job, task.slotJob = some job := by
        cases task <;> first | exact ⟨_, rfl⟩ | cases hin
      rw [Multiset.countP_cons_of_pos (p := fun task => ExecutorTask.inBackend task = true) bag hin, slots,
        Multiset.filterMap_cons_some _ _ _ hslot, Multiset.card_cons]
      exact Nat.succ_le_succ ih
    · rw [Multiset.countP_cons_of_neg (p := fun task => ExecutorTask.inBackend task = true) bag hin, slots,
        Multiset.filterMap_cons, Multiset.card_add]
      exact ih.trans (Nat.le_add_left _ _)

/-- **Slot accounting and capacity.**  In any reachable state the count of
running jobs, the entries of `_active_stream_handles` and the active jobs of
the queue agree and stay within the target; no more backend calls run than
slots are held, each of them in the slot of its own job; the guarded decrements
find the count positive; and a snapshot adds up. -/
theorem slots_accounted (modelName : String) (streaming : Bool) (configuredTargetInflight : ℤ)
    (settings : FairnessSettings) (runtimeCapability : ℤ) (actions : List ExecutorAction) :
    let c := after modelName streaming configuredTargetInflight settings runtimeCapability actions
    let s := c.state
    s.executor.runtimeInflight = s.executor.activeStreamHandles.size ∧
    s.executor.runtimeInflight = (s.queue.states.sum fun _ state => state.activeStartedAt.size) ∧
    (s.executor.runtimeInflight : ℤ) ≤ min (max 1 configuredTargetInflight) (max 1 runtimeCapability) ∧
    c.bag.countP (fun task => task.inBackend = true) ≤ s.executor.runtimeInflight ∧
    (∀ task ∈ c.bag, ∀ job, task.slotJob = some job → 0 < s.executor.runtimeInflight ∧
      s.executor.activeStreamHandles.get? job.jobId = some job.streamHandle ∧
      job.ticket ∈ s.queue.activeTickets) ∧
    ∀ now, (s.snapshot now).2.queueDepth = (((s.snapshot now).2.fairnessKeys.map
        FairnessKeySnapshot.pending).sum : ℤ) ∧
      (s.snapshot now).2.runtimeInflight = ((s.snapshot now).2.fairnessKeys.map
        FairnessKeySnapshot.active).sum := by
  intro c s
  obtain ⟨hok, hconfig⟩ : Ok s c.bag ∧ LoadedModelExecutor.SameConfig
      (.new modelName streaming configuredTargetInflight settings runtimeCapability) s.executor :=
    after_ok modelName streaming configuredTargetInflight settings runtimeCapability actions
  have hactive : s.executor.runtimeInflight = s.queue.activeTickets.card := by
    rw [hok.inflight, hok.active, Multiset.card_map]
  refine ⟨?_, ?_, ?_, ?_, ?_, fun now => ⟨?_, ?_⟩⟩
  · have hcard := congrArg Multiset.card hok.activeHandles
    rw [Multiset.card_map, Multiset.coe_card] at hcard
    exact hok.inflight.trans hcard.symm
  · rw [hactive, FairPendingQueue.activeTickets, Dict.card_sum]
    simp [Dict.size, Dict.keys]
  · have hcapacity := hok.capacity
    rw [hconfig.effective] at hcapacity
    simp only [LoadedModelExecutor.new] at hcapacity
    omega
  · exact hok.inflight ▸ inBackend_le c.bag
  · intro task htask job hslot
    have hjob : job ∈ slots c.bag := (Multiset.mem_filterMap _ _).mpr ⟨task, htask, hslot⟩
    exact ⟨hok.inflight_pos hjob, hok.get?_of_slot hjob, hok.ticket_mem hjob⟩
  · exact (FairPendingQueue.sum_snapshots_pending hok.queue now).symm
  · exact hactive.trans (FairPendingQueue.sum_snapshots_active hok.queue now).symm

end ExecutorState
end TtsPool
