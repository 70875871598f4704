/-
# The dispatcher is woken

`_run_loop` waits on `_cond` while there is nothing for it to do: no job to
dispatch or no free slot, and no reason to end.  Whoever changes that notifies
before it lets go of `_cond`; `Awake` is the invariant that says so, and
`dispatcher_wakes` reads from it that the dispatcher never sleeps through work.

The dispatcher is one thread.  It ends when a stop was requested and nothing is
pending or active, and by then the executor takes no request, so what it leaves
behind stays settled.
-/

import TtsPool.Executor.Sections

namespace TtsPool

open Threads (Effect Config)

/-- The tasks of `_run_loop` in the bag, by whether they wait. -/
abbrev loops (bag : Multiset ExecutorTask) : Multiset Bool := bag.filterMap ExecutorTask.looping

namespace ExecutorState

/-- What makes the dispatcher dispatch. -/
def CanDispatch (s : ExecutorState) : Prop :=
  0 < s.queue.pendingCount ∧ s.executor.runtimeInflight < s.executor.effectiveTargetInflight

/-- What makes the dispatcher end. -/
def Settled (s : ExecutorState) : Prop :=
  s.executor.stopRequested = true ∧ s.queue.pendingCount = 0 ∧ s.executor.runtimeInflight = 0

/-- **The invariant of the dispatcher.**  It is one thread, and waits or not as
`dispatcher` says, or it has ended on a settled executor; and where it waits
unnotified with `_cond` free, it has nothing to do. -/
structure Awake (s : ExecutorState) (bag : Multiset ExecutorTask) : Prop where
  thread : loops bag = {decide (s.dispatcher ≠ .running)} ∨
    loops bag = 0 ∧ s.dispatcher = .running ∧ s.Settled
  awake : s.dispatcher = .waiting → s.locked = false → ¬ s.CanDispatch ∧ ¬ s.Settled

variable {s s' : ExecutorState} {task : ExecutorTask} {bag others : Multiset ExecutorTask} {e : Step}
  {input : ExecutorInput}

theorem loops_of_none {left : Multiset ExecutorTask} (h : ∀ task' ∈ left, task'.looping = none) :
    loops left = 0 := by
  refine Multiset.eq_zero_of_forall_notMem fun waits hwaits => ?_
  obtain ⟨task', htask, hlooping⟩ := (Multiset.mem_filterMap _ _).mp hwaits
  rw [h task' htask] at hlooping
  cases hlooping

/-- A task that is not the dispatcher's leaves the dispatcher's where they are. -/
theorem loops_after (hown : task.looping = none) (hleft : ∀ task' ∈ e.left, task'.looping = none) :
    loops (e.left + others) = loops (task ::ₘ others) := by
  have hzero : Multiset.filterMap ExecutorTask.looping e.left = 0 := loops_of_none hleft
  rw [loops, Multiset.filterMap_add, hzero, zero_add, loops, Multiset.filterMap_cons_none _ _ hown]

/-- The dispatcher is notified, if it waits. -/
theorem Awake.notified (h : Awake s bag) {bag' : Multiset ExecutorTask} (hloops : loops bag' = loops bag)
    (hdispatcher : s'.dispatcher = s.notifyAll.dispatcher) (hsettled : s.Settled → s'.Settled) :
    Awake s' bag' := by
  have hdecide : decide (s'.dispatcher ≠ .running) = decide (s.dispatcher ≠ .running) := by
    rw [hdispatcher, notifyAll]
    cases s.dispatcher <;> rfl
  refine ⟨?_, fun hwaiting => ?_⟩
  · rw [hloops, hdecide]
    refine h.thread.imp id ?_
    rintro ⟨hnone, hrunning, hs⟩
    refine ⟨hnone, ?_, hsettled hs⟩
    rw [hdispatcher, notifyAll, hrunning]
    rfl
  · rw [hdispatcher, notifyAll] at hwaiting
    cases hd : s.dispatcher <;> simp [hd] at hwaiting

/-- Nothing the dispatcher looks at has changed. -/
theorem Awake.same (h : Awake s bag) {bag' : Multiset ExecutorTask} (hloops : loops bag' = loops bag)
    (hdispatcher : s'.dispatcher = s.dispatcher) (hlocked : s'.locked = s.locked)
    (hcan : s'.CanDispatch ↔ s.CanDispatch) (hsettled : s'.Settled ↔ s.Settled) : Awake s' bag' := by
  refine ⟨?_, fun hwaiting hfree => ?_⟩
  · rw [hloops, hdispatcher]
    exact h.thread.imp id fun ⟨hnone, hrunning, hs⟩ => ⟨hnone, hrunning, hsettled.mpr hs⟩
  · rw [hcan, hsettled]
    exact h.awake (hdispatcher ▸ hwaiting) (hlocked ▸ hfree)

/-- Where a job is pending, `pop_next` finds one. -/
theorem popNext_isSome {q : FairPendingQueue} (h : q.Ok) (hpos : 0 < q.pendingCount) (now : ℚ) :
    ∃ job q', q.popNext now = (q', some job) := by
  rcases FairPendingQueue.popNext_flow h now with ⟨q', -, hnone, -⟩ | ⟨job, q', heq, -⟩
  · rw [h.count, hnone] at hpos
    simp at hpos
  · exact ⟨job, q', heq⟩

/-- Counting a flow in which no job moves. -/
theorem pendingCount_still {q q' : FairPendingQueue} (h : q.Ok) (hf : q.Flow 0 0 0 0 q') :
    q'.pendingCount = q.pendingCount := by
  have hp : q'.pendingJobs = q.pendingJobs := by simpa using hf.pending
  rw [h.count, hf.ok.count, hp]

/-- **One pass of the dispatcher**: it ends, dispatches, or waits for want of
anything to do. -/
theorem runLoop_awake (hok : s.queue.Ok) (hrunning : s.dispatcher = .running) (hothers : loops others = 0)
    (now : ℚ) : Awake (s.runLoop now).state ((s.runLoop now).left + others) := by
  have hloops : ∀ left : Multiset ExecutorTask, loops (left + others) = loops left := by
    intro left
    have hzero : Multiset.filterMap ExecutorTask.looping others = 0 := hothers
    rw [loops, Multiset.filterMap_add, hzero, add_zero]
  unfold runLoop
  split_ifs with hend hroom
  · refine ⟨.inr ⟨by rw [hloops]; rfl, hrunning, hend⟩, fun hwaiting => ?_⟩
    rw [hrunning] at hwaiting
    cases hwaiting
  · obtain ⟨job, q', heq⟩ := popNext_isSome hok hroom.1 now
    rw [heq]
    refine ⟨.inl ?_, fun hwaiting => ?_⟩
    · rw [hloops]
      simp only [hrunning, ne_eq, not_true_eq_false, decide_false]
      rfl
    · simp [hrunning] at hwaiting
  · refine ⟨.inl ?_, fun _ _ => ⟨hroom, hend⟩⟩
    rw [hloops]
    rfl

/-- **Every task keeps the dispatcher awake.** -/
theorem Awake.run (h : Awake s (task ::ₘ others)) (hok : Ok s (task ::ₘ others))
    (hrun : s.run task input = some e) : Awake e.state (e.left + others) := by
  obtain ⟨t, hmoved⟩ := hok.moved hrun
  have heffective := hmoved.config.effective
  cases turn_of_run hrun with
  | bystander hb =>
    have hloops : loops (e.left + others) = loops (task ::ₘ others) :=
      loops_after hb.own.2.2 fun task' htask => (hb.tasks task' htask).2.2
    rcases hb.wakes with hdispatcher | ⟨hdispatcher, hcount, hinflight, hstop⟩
    · refine h.notified hloops hdispatcher fun hs => ?_
      exact ⟨hb.stop hs.1, hb.settled hs.2.1 hs.2.2⟩
    · refine h.same hloops hdispatcher hb.locked ?_ ?_
      · rw [CanDispatch, CanDispatch, hcount, hinflight, heffective]
      · rw [Settled, Settled, hcount, hinflight, hstop]
  | entered request k now hfree =>
    rcases enqueueStream_cases hok.queue request k now with ⟨error, q', hflow, -, heq⟩ |
      ⟨job, q', hflow, -, -, -, heq⟩
    · have hcount := pendingCount_still hok.queue hflow
      rw [heq]
      refine h.same (loops_after rfl (by simp [Effect.left, ExecutorTask.looping])) rfl rfl ?_ ?_
      · exact iff_of_eq (by simp only [CanDispatch, ExecutorState.queue, setQueue, hcount])
      · exact iff_of_eq (by simp only [Settled, ExecutorState.queue, setQueue, hcount])
    · have hloops : loops (Effect.left
          { state := { s.setQueue q' with locked := true, accepted := s.accepted ++ [job] }
            next := [.setCancelCallback job, .leaveEnqueue] } + others) =
          loops (.enqueueStream request k ::ₘ others) :=
        loops_after rfl (by simp [Effect.left, ExecutorTask.looping])
      have hnot : ¬ s.Settled := by
        rintro ⟨hstop, -⟩
        simp [enqueueStream, hstop] at heq
      rw [heq]
      refine ⟨?_, fun _ hlocked => ?_⟩
      · rw [hloops]
        exact h.thread.imp id fun hended => absurd hended.2.2 hnot
      · cases hlocked
  | registered job =>
    refine h.same (loops_after rfl fun task' htask => ?_) rfl rfl Iff.rfl Iff.rfl
    simp only [setCancelCallback, Effect.left] at htask
    split_ifs at htask
    · obtain rfl : task' = .cancelStreamJob job true := by simpa using htask
      rfl
    · simp at htask
  | left => exact h.notified (loops_after rfl (by simp [Effect.left, leaveEnqueue])) rfl id
  | withdrew job holding now hheld =>
    rcases FairPendingQueue.remove_flow hok.queue job now with ⟨heq, -⟩ | ⟨found, q', heq, -, hflow, -⟩
    · unfold cancelStreamJob
      rw [heq]
      exact h.same (loops_after rfl (by simp [Effect.left])) rfl rfl Iff.rfl Iff.rfl
    · unfold cancelStreamJob
      rw [heq]
      refine h.notified (loops_after rfl (by simp [Effect.left, ExecutorTask.looping])) rfl fun hs => ?_
      -- a settled executor has no job to remove
      have hcard := congrArg Multiset.card hflow.pending
      have hzero := hs.2.1
      rw [hok.queue.count] at hzero
      simp only [Multiset.card_add, Multiset.card_singleton, Multiset.card_zero] at hcard
      omega
  | looped now hfree =>
    have hcons : loops (.runLoop ::ₘ others) = false ::ₘ loops others := Multiset.filterMap_cons_some _ _ _ rfl
    rcases h.thread with hone | ⟨hnone, -⟩
    · obtain ⟨hrunning, hothers⟩ := (Multiset.singleton_eq_cons_iff _).mp (hcons ▸ hone).symm
      exact runLoop_awake hok.queue (by simpa using hrunning) hothers now
    · rw [hcons] at hnone
      exact absurd hnone (Multiset.cons_ne_zero)
  | woken now hfree hnotified =>
    have hcons : loops (.parked ::ₘ others) = true ::ₘ loops others := Multiset.filterMap_cons_some _ _ _ rfl
    rcases h.thread with hone | ⟨hnone, -⟩
    · obtain ⟨-, hothers⟩ := (Multiset.singleton_eq_cons_iff _).mp (hcons ▸ hone).symm
      exact runLoop_awake (s := { s with dispatcher := .running }) hok.queue rfl hothers now
    · rw [hcons] at hnone
      exact absurd hnone (Multiset.cons_ne_zero)

/-- No call comes in as the dispatcher. -/
theorem loops_entry (hentry : task.entry = true) : loops (task ::ₘ bag) = loops bag := by
  have hnone : task.looping = none := by cases task <;> first | rfl | cases hentry
  exact Multiset.filterMap_cons_none _ _ hnone

/-- After any schedule the dispatcher is awake, and a section that is open will
still notify it. -/
theorem after_awake (modelName : String) (streaming : Bool) (configuredTargetInflight : ℤ)
    (settings : FairnessSettings) (runtimeCapability : ℤ) (actions : List ExecutorAction) :
    let c := after modelName streaming configuredTargetInflight settings runtimeCapability actions
    Sections c.state c.threads ∧ Awake c.state c.bag := by
  refine after_of (I := fun s threads => Awake s (Config.bag ⟨s, threads⟩)) modelName streaming
    configuredTargetInflight settings runtimeCapability ⟨.inl rfl, fun h => by cases h⟩ ?_ ?_ actions
  · intro s threads task hentry h
    rw [Threads.Program.bag_call]
    exact h.same (loops_entry hentry) rfl rfl Iff.rfl Iff.rfl
  · intro s pre task rest post input e hrun hok _ h
    rw [Threads.Program.bag_split rfl] at h
    rw [Threads.Program.bag_run]
    exact h.run hok hrun

/-- Only `enqueue_stream` accepts a job. -/
theorem accepted_of_run (hrun : s.run task input = some e) :
    e.state.accepted = s.accepted ∨ ∃ request h, task = .enqueueStream request h := by
  cases ran_of_run hrun with
  | quiet hquiet => exact .inl hquiet.accepted
  | enqueueStream request h now => exact .inr ⟨request, h, rfl⟩
  | raised h error => exact .inl rfl
  | cancelStreamJob job holding now =>
    unfold cancelStreamJob
    split <;> exact .inl rfl
  | runTerminalCallbacks h callback callbacks => cases callback <;> exact .inl rfl
  | runLoop dispatcher _ htask now =>
    refine .inl ?_
    unfold runLoop
    split_ifs
    · rfl
    · split <;> rfl
    · rfl
  | openStream | beginShutdown | addTerminalCallback | finish | abandonJob | release => exact .inl rfl

/-- Where the dispatcher is gone, the executor is settled. -/
theorem Awake.settled (h : Awake s bag) (hzero : loops bag = 0) : s.Settled := by
  rcases h.thread with hone | ⟨-, -, hsettled⟩
  · rw [hzero] at hone
    exact absurd hone.symm (Multiset.singleton_ne_zero _)
  · exact hsettled

/-- **Once it has ended**, the dispatcher stays away and no job is accepted. -/
theorem ended_run (h : Awake s (task ::ₘ others)) (hended : loops (task ::ₘ others) = 0)
    (hrun : s.run task input = some e) :
    loops (e.left + others) = 0 ∧ e.state.accepted = s.accepted := by
  have hstop : s.executor.stopRequested = true := (h.settled hended).1
  have hnone : task.looping = none := by
    cases hlooping : task.looping with
    | none => rfl
    | some waits =>
      rw [loops, Multiset.filterMap_cons_some _ _ _ hlooping] at hended
      exact absurd hended Multiset.cons_ne_zero
  have hrefused : ∀ request k now, s.enqueueStream request k now =
      { state := { s with rejected := s.rejected ++ [k] }
        next := [.raised k (.modelState s.executor.modelName "model_unloading")] } := by
    intro request k now
    simp [enqueueStream, hstop]
  have hleft : ∀ task' ∈ e.left, task'.looping = none := by
    cases turn_of_run hrun with
    | bystander hb => exact fun task' htask => (hb.tasks task' htask).2.2
    | entered request k now hfree => simp [hrefused, Effect.left, ExecutorTask.looping]
    | registered job =>
      simp only [setCancelCallback, Effect.left]
      split_ifs <;> simp [ExecutorTask.looping]
    | left => simp [Effect.left, leaveEnqueue]
    | withdrew job holding now hheld =>
      unfold cancelStreamJob
      split <;> simp [Effect.left, ExecutorTask.looping]
    | looped | woken => cases hnone
  refine ⟨(loops_after hnone hleft).trans hended, ?_⟩
  rcases accepted_of_run hrun with heq | ⟨request, k, rfl⟩
  · exact heq
  · cases input with
    | clock now =>
      simp only [ExecutorState.run] at hrun
      split_ifs at hrun
      obtain rfl := Option.some.inj hrun
      rw [hrefused]
    | _ => simp [ExecutorState.run] at hrun

theorem Ok.idle_or_full (h : Ok s bag) (hcan : ¬ s.CanDispatch) :
    s.queue.pendingCount = 0 ∨ s.executor.runtimeInflight = s.executor.effectiveTargetInflight := by
  have hcapacity := h.capacity
  have hcount := h.queue.count
  simp only [CanDispatch, not_and_or, not_lt] at hcan
  omega

/-- The dispatcher is gone when neither of its tasks is left. -/
theorem loops_eq_zero_iff : loops bag = 0 ↔ .runLoop ∉ bag ∧ .parked ∉ bag := by
  constructor
  · intro hzero
    have hnot : ∀ task waits, task.looping = some waits → task ∉ bag := by
      intro task waits hlooping htask
      have hwaits : waits ∈ loops bag := (Multiset.mem_filterMap _ _).mpr ⟨task, htask, hlooping⟩
      rw [hzero] at hwaits
      exact absurd hwaits (Multiset.notMem_zero _)
    exact ⟨hnot _ _ rfl, hnot _ _ rfl⟩
  · rintro ⟨hrun, hparked⟩
    refine loops_of_none fun task htask => ?_
    cases task <;> first | rfl | contradiction

/-- A parked dispatcher waits, or has been notified. -/
theorem Awake.waiting (h : Awake s bag) (hparked : .parked ∈ bag) (hnotified : s.dispatcher ≠ .notified) :
    s.dispatcher = .waiting := by
  rcases h.thread with hone | ⟨hnone, -⟩
  · have hwaits : true ∈ loops bag := (Multiset.mem_filterMap _ _).mpr ⟨.parked, hparked, rfl⟩
    rw [hone, Multiset.mem_singleton, eq_comm, decide_eq_true_eq] at hwaits
    cases hd : s.dispatcher <;> simp_all
  · exact absurd hparked (loops_eq_zero_iff.mp hnone).2

/-- `_cond` is free once no `enqueue_stream` has to leave it. -/
theorem Sections.free {threads : List (List ExecutorTask)} (h : Sections s threads)
    (hleave : .leaveEnqueue ∉ threads.flatten) : s.locked = false := by
  have hlock := h.lock
  by_contra hlocked
  rw [Bool.not_eq_false] at hlocked
  rw [hlocked, if_pos rfl] at hlock
  obtain ⟨task, htask, hleaves⟩ := List.countP_pos_iff.mp (hlock ▸ Nat.one_pos : 0 < openSections threads)
  cases task <;> first | exact hleave htask | cases hleaves

/-- A pass of the loop parks, dispatches or ends. -/
theorem runLoop_goes_on (hok : s.queue.Ok) (now : ℚ) : (s.runLoop now).next ≠ [.runLoop] := by
  unfold runLoop
  split_ifs with hend hroom
  · simp
  · obtain ⟨job, q', heq⟩ := popNext_isSome hok hroom.1 now
    rw [heq]
    simp
  · simp

/-- On a settled executor an accepted job has been finished, or a thread is about to. -/
theorem Ok.finishes (hok : Ok s bag) (hsettled : s.Settled) {job : SchedulerJob} (hjob : job ∈ s.accepted) :
    (s.handles job.streamHandle).terminal = true ∨ job.streamHandle ∈ owned bag := by
  have hplaces := hok.places hjob
  have hpending : s.queue.pendingJobs = 0 := by
    have hcount := hok.queue.count
    rw [hsettled.2.1] at hcount
    exact Multiset.card_eq_zero.mp (by exact_mod_cast hcount.symm)
  have hslots : slots bag = 0 := Multiset.card_eq_zero.mp (hok.inflight.symm.trans hsettled.2.2)
  rw [hpending, hslots] at hplaces
  simp only [Multiset.map_zero, Multiset.count_zero, zero_add] at hplaces
  by_cases howned : job.streamHandle ∈ owned bag
  · exact .inr howned
  · rw [Multiset.count_eq_zero_of_notMem howned, zero_add] at hplaces
    refine .inl ((hok.terminal _ (hok.lt_of_accepted hjob)).mpr (List.count_pos_iff.mp ?_))
    omega

/-- It ends for good. -/
theorem ended_runs {c : Config ExecutorState ExecutorTask} (hok : Ok c.state c.bag)
    (hawake : Awake c.state c.bag) (hzero : loops c.bag = 0) (more : List ExecutorAction) :
    loops (executorProgram.runs c more).bag = 0 ∧
      (executorProgram.runs c more).state.accepted = c.state.accepted := by
  let J (s' : ExecutorState) (bag : Multiset ExecutorTask) : Prop :=
    Ok s' bag ∧ Awake s' bag ∧ loops bag = 0 ∧ s'.accepted = c.state.accepted
  have hlater : J (executorProgram.runs c more).state (executorProgram.runs c more).bag := by
    refine Threads.Program.runs_of (I := J) ⟨hok, hawake, hzero, rfl⟩ ?_ ?_ more
    · rintro s' bag task hentry ⟨hok', hawake', hzero', haccepted⟩
      exact ⟨hok'.spawn (.of_entry hentry), hawake'.same (loops_entry hentry) rfl rfl Iff.rfl Iff.rfl,
        (loops_entry hentry).trans hzero', haccepted⟩
    · rintro s' bag task input e heffect ⟨hok', hawake', hzero', haccepted⟩
      obtain ⟨hstays, hsame⟩ := ended_run hawake' hzero' heffect
      exact ⟨hok'.run heffect, hawake'.run hok' heffect, hstays, hsame.trans haccepted⟩
  exact hlater.2.2

/-- **Work conservation.**  In any reachable state a dispatcher parked in
`_cond.wait` without a notification outstanding, by `notify_all` or at the end of
an `enqueue_stream` still inside, has no job to dispatch or no free slot, and no
reason to end.  `pop_next` finds a job wherever one is pending, so `_run_loop`
never spins; it returns on a settled executor only, and from then on no job is
accepted and no accepted one is left without a thread that finishes it. -/
theorem dispatcher_wakes (modelName : String) (streaming : Bool) (configuredTargetInflight : ℤ)
    (settings : FairnessSettings) (runtimeCapability : ℤ) (actions : List ExecutorAction) :
    let c := after modelName streaming configuredTargetInflight settings runtimeCapability actions
    let s := c.state
    (.parked ∈ c.bag → s.dispatcher ≠ .notified → .leaveEnqueue ∉ c.bag →
      (s.queue.pendingCount = 0 ∨ s.executor.runtimeInflight = s.executor.effectiveTargetInflight) ∧
        ¬ s.Settled) ∧
    (∀ now, 0 < s.queue.pendingCount → ∃ job q', s.queue.popNext now = (q', some job)) ∧
    (∀ now, (s.runLoop now).next ≠ [.runLoop]) ∧
    (.runLoop ∉ c.bag → .parked ∉ c.bag → s.Settled ∧
      (∀ job ∈ s.accepted, (s.handles job.streamHandle).terminal = true ∨ job.streamHandle ∈ owned c.bag) ∧
      ∀ more,
        let c' := after modelName streaming configuredTargetInflight settings runtimeCapability (actions ++ more)
        c'.state.accepted = s.accepted ∧ .runLoop ∉ c'.bag ∧ .parked ∉ c'.bag) := by
  intro c s
  have hok : Ok s c.bag :=
    (after_ok modelName streaming configuredTargetInflight settings runtimeCapability actions).1
  obtain ⟨hsections, hawake⟩ : Sections s c.threads ∧ Awake s c.bag :=
    after_awake modelName streaming configuredTargetInflight settings runtimeCapability actions
  refine ⟨fun hparked hnotified hleave => ?_, fun now hpos => popNext_isSome hok.queue hpos now,
    fun now => runLoop_goes_on hok.queue now, fun hrun hparked => ?_⟩
  · have hfree : s.locked = false := hsections.free fun hmem => hleave (Multiset.mem_coe.mpr hmem)
    obtain ⟨hcan, hsettled⟩ := hawake.awake (hawake.waiting hparked hnotified) hfree
    exact ⟨hok.idle_or_full hcan, hsettled⟩
  · have hzero : loops c.bag = 0 := loops_eq_zero_iff.mpr ⟨hrun, hparked⟩
    have hsettled := hawake.settled hzero
    refine ⟨hsettled, fun job hjob => hok.finishes hsettled hjob, fun more => ?_⟩
    obtain ⟨hstays, haccepted⟩ := ended_runs hok hawake hzero more
    rw [after, Threads.Program.runs_append]
    exact ⟨haccepted, loops_eq_zero_iff.mp hstays⟩

end ExecutorState
end TtsPool
