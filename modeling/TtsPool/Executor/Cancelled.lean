/-
# A stream cancelled while it is queued

`cancel` sets the flag under the lock of the handle and calls the cancel
callback afterwards; in between the dispatcher may take the job, and the
callback may not be there yet.  `Watched` is what holds at every point of this:
an accepted job that is not cancelled has its callback in place, or
`enqueue_stream` is about to put it there, which it does before anyone can take
the job out; and a cancelled job that is still pending has a task that will take
it out.

A job that has left the queue does not come back (`Left`), and no event reaches
a handle before its job has left.  `Doomed` follows a handle from a cancel that
takes effect before: the worker, if one is started, finds the flag, and the
backend is not called.
-/

import TtsPool.Executor.Dispatch
import TtsPool.Executor.Streams

namespace TtsPool

open Threads (Effect Config Action)

namespace ExecutorState

/-- The job of a handle has been taken out of the queue. -/
def Left (s : ExecutorState) (h : HandleId) : Prop :=
  ∃ job ∈ s.accepted, job.streamHandle = h ∧ job ∉ s.queue.pendingJobs

/-- **Who watches over a cancelled job.** -/
structure Watched (s : ExecutorState) (bag : Multiset ExecutorTask) : Prop where
  callback : ∀ job ∈ s.accepted, (s.handles job.streamHandle).cancelled = true ∨
    (s.handles job.streamHandle).cancelCallback = some job ∨ .setCancelCallback job ∈ bag
  registering : ∀ job, .setCancelCallback job ∈ bag → job ∈ s.queue.pendingJobs
  withdrawing : ∀ job ∈ s.queue.pendingJobs, (s.handles job.streamHandle).cancelled = true →
    ∃ task ∈ bag, task.named = some job
  silent : ∀ h, (s.handles h).events ≠ [] → s.Left h

variable {s : ExecutorState} {task : ExecutorTask} {bag others : Multiset ExecutorTask} {e : Step}
  {input : ExecutorInput} {h : HandleId} {job : SchedulerJob}

/-! ### What has left the queue -/

theorem Ok.eq_of_handle (hok : Ok s bag) {a b : SchedulerJob} (ha : a ∈ s.accepted) (hb : b ∈ s.accepted)
    (hhandle : a.streamHandle = b.streamHandle) : a = b :=
  List.inj_on_of_nodup_map hok.accepted_nodup ha hb hhandle

theorem Ok.left_of_slot (hok : Ok s bag) (hjob : job ∈ slots bag) : s.Left job.streamHandle :=
  ⟨job, hok.mem_accepted_of_slot hjob, rfl, fun hpending => hok.not_mem_slots hpending hjob⟩

theorem Ok.not_pending_of_owned (hok : Ok s bag) (howned : job.streamHandle ∈ owned bag) :
    job ∉ s.queue.pendingJobs := by
  intro hpending
  have hplaces := hok.places (hok.mem_accepted_of_pending hpending)
  have hcount := Multiset.count_pos.mpr (Multiset.mem_map_of_mem SchedulerJob.streamHandle hpending)
  have hcount' := Multiset.count_pos.mpr howned
  omega

theorem Ok.left_of_owned (hok : Ok s bag) (howned : h ∈ owned bag) : s.Left h := by
  obtain ⟨job, hjob, rfl⟩ := hok.exists_job (Multiset.mem_add.mpr (.inl howned))
  exact ⟨job, hjob, rfl, hok.not_pending_of_owned howned⟩

/-- A pending job has not left. -/
theorem Ok.not_left (hok : Ok s bag) (hjob : job ∈ s.queue.pendingJobs) : ¬ s.Left job.streamHandle := by
  rintro ⟨other, hother, hhandle, hnot⟩
  obtain rfl := hok.eq_of_handle hother (hok.mem_accepted_of_pending hjob) hhandle
  exact hnot hjob

/-- **What has left does not come back.** -/
theorem Left.run (hleft : s.Left h) (hok : Ok s (task ::ₘ others)) (hrun : s.run task input = some e) :
    e.state.Left h := by
  obtain ⟨job, hjob, hhandle, hnot⟩ := hleft
  obtain ⟨t, hm⟩ := hok.moved hrun
  refine ⟨job, hm.mem_accepted (.inl hjob), hhandle, fun hpending => ?_⟩
  rcases hm.queue.mem_pending hpending with hold | hnew
  · exact hnot hold
  · -- a job that comes in has a new id
    have hfresh := hok.fresh job hjob
    rw [hm.jobId job (Multiset.mem_coe.mp hnew)] at hfresh
    exact lt_irrefl _ hfresh

/-! ### One task -/

/-- A job that has just been accepted is pending, and its callback is about to be
registered. -/
theorem new_accepted (hok : Ok s (task ::ₘ others)) (hrun : s.run task input = some e)
    (hjob : job ∈ e.state.accepted) :
    job ∈ s.accepted ∨ .setCancelCallback job ∈ e.left ∧ job ∈ e.state.queue.pendingJobs := by
  rcases accepted_of_run hrun with heq | ⟨request, k, rfl⟩
  · exact .inl (heq ▸ hjob)
  · cases input with
    | clock now =>
      simp only [ExecutorState.run] at hrun
      split_ifs at hrun
      obtain rfl := Option.some.inj hrun
      rcases enqueueStream_cases hok.queue request k now with ⟨error, q', -, -, heq⟩ |
        ⟨new, q', hflow, -, -, -, heq⟩
      · rw [heq] at hjob
        exact .inl hjob
      · rw [heq] at hjob ⊢
        rcases List.mem_append.mp hjob with hjob | hjob
        · exact .inl hjob
        · obtain rfl := List.mem_singleton.mp hjob
          refine .inr ⟨by simp [Effect.left], ?_⟩
          have hpending : q'.pendingJobs = s.queue.pendingJobs + {job} := by simpa using hflow.pending
          simp [setQueue, hpending]
    | _ => simp [ExecutorState.run] at hrun

/-- Registering a callback is the business of `enqueue_stream`. -/
theorem registering_of_run (hok : Ok s (task ::ₘ others)) (hrun : s.run task input = some e)
    (hmem : .setCancelCallback job ∈ e.left) : job ∈ e.state.queue.pendingJobs := by
  have hnot : ∀ {left : Multiset ExecutorTask}, (∀ task' ∈ left, task'.inSection = false) →
      .setCancelCallback job ∉ left := fun hout hmem => Bool.noConfusion (hout _ hmem)
  cases turn_of_run hrun with
  | bystander hb => exact absurd hmem (hnot fun task' htask => (hb.tasks task' htask).1)
  | entered request k now hfree =>
    rcases enqueueStream_cases hok.queue request k now with ⟨error, q', -, -, heq⟩ |
      ⟨new, q', hflow, -, -, -, heq⟩
    · rw [heq] at hmem
      simp [Effect.left] at hmem
    · rw [heq] at hmem ⊢
      obtain rfl : job = new := by simpa [Effect.left] using hmem
      have hpending : q'.pendingJobs = s.queue.pendingJobs + {job} := by simpa using hflow.pending
      simp [setQueue, hpending]
  | registered other =>
    simp only [setCancelCallback, Effect.left] at hmem
    split_ifs at hmem <;> simp at hmem
  | left => simp [leaveEnqueue, Effect.left] at hmem
  | withdrew other holding now hheld =>
    unfold cancelStreamJob at hmem
    split at hmem <;> simp [Effect.left] at hmem
  | looped now hfree => exact absurd hmem (hnot fun task' htask => ((runLoop_left s now).2 task' htask).1)
  | woken now hfree hnotified =>
    exact absurd hmem (hnot fun task' htask => ((runLoop_left _ now).2 task' htask).1)

/-- While a callback is being registered, no other thread takes a job out. -/
theorem executor_of_run (hrun : s.run task input = some e) (hlocked : s.locked = true)
    (hout : task.inSection = false) : e.state.executor = s.executor := by
  cases turn_of_run hrun with
  | bystander hb => exact hb.held hlocked
  | entered request k now hfree => simp [hlocked] at hfree
  | registered other => cases hout
  | left => rfl
  | withdrew other holding now hheld =>
    rw [hheld hlocked] at hout
    cases hout
  | looped now hfree => simp [hlocked] at hfree
  | woken now hfree hnotified => simp [hlocked] at hfree

/-- The flag of a handle is set by `cancel`, which turns to the callback. -/
theorem cancelled_of_run (hrun : s.run task input = some e) {k : HandleId} (hlt : k < s.nextHandle)
    (hcancelled : (e.state.handles k).cancelled = true) :
    (s.handles k).cancelled = true ∨ task = .cancel k := by
  rcases handle_of_run hrun k with hsame | ⟨op, hop, heq⟩ | ⟨hnew, -⟩
  · exact .inl (hsame ▸ hcancelled)
  · rw [heq] at hcancelled
    refine (SynthesisHandle.cancelled_of_after hcancelled).imp id ?_
    rintro rfl
    cases task <;> first | cases hop; rfl | (cases input <;> cases hop)
  · exact absurd hnew hlt.ne

/-- A cancelled handle stays cancelled. -/
theorem cancelled_stays (hrun : s.run task input = some e) {k : HandleId} (hlt : k < s.nextHandle)
    (hcancelled : (s.handles k).cancelled = true) : (e.state.handles k).cancelled = true := by
  rcases handle_of_run hrun k with hsame | ⟨op, -, heq⟩ | ⟨hnew, -⟩
  · exact hsame ▸ hcancelled
  · exact heq ▸ SynthesisHandle.after_cancelled hcancelled op
  · exact absurd hnew hlt.ne

/-- A callback registered for a handle is the one of the task's own job. -/
theorem registers_own {k : HandleId} (hop : task.streamOp input = some (k, .setCancelCallback job)) :
    task.named = some job ∧ job.streamHandle = k := by
  cases task <;> first | (cases hop; exact ⟨rfl, rfl⟩) | (cases input <;> cases hop)

/-- The task that is to take a cancelled job out goes on, or has taken it out. -/
theorem named_of_run (hok : Ok s (task ::ₘ others)) (hrun : s.run task input = some e)
    (hnamed : task.named = some job) (hpending : job ∈ e.state.queue.pendingJobs)
    (hcancelled : (s.handles job.streamHandle).cancelled = true) :
    ∃ task' ∈ e.left + others, task'.named = some job := by
  cases task with
  | setCancelCallback own =>
    cases hnamed
    obtain rfl := Option.some.inj hrun
    refine ⟨.cancelStreamJob job true, Multiset.mem_add.mpr (.inl ?_), rfl⟩
    simp [setCancelCallback, SynthesisHandle.setCancelCallback, hcancelled, Effect.left]
  | cancelStreamJob own holding =>
    cases hnamed
    exfalso
    have hok' : Ok e.state (e.left + others) := hok.run hrun
    cases input with
    | clock now =>
      simp only [ExecutorState.run] at hrun
      split_ifs at hrun
      obtain rfl := Option.some.inj hrun
      rcases FairPendingQueue.remove_flow hok.queue job now with ⟨heq, hnot⟩ | ⟨found, q', heq, -⟩
      · simp only [cancelStreamJob, heq, setQueue] at hpending
        exact hnot (FairPendingQueue.pendingTickets_eq hok.queue ▸ Multiset.mem_map_of_mem _ hpending)
      · refine hok'.not_pending_of_owned ?_ hpending
        rw [owned, Multiset.filterMap_add]
        refine Multiset.mem_add.mpr (.inl ?_)
        simp [cancelStreamJob, heq, Effect.left, ExecutorTask.owner]
    | _ => simp [ExecutorState.run] at hrun
  | _ => cases hnamed

/-- The canceller of a pending job turns to its callback, or the callback is about
to be registered. -/
theorem Watched.cancelled (hw : Watched s (.cancel job.streamHandle ::ₘ others))
    (hok : Ok s (.cancel job.streamHandle ::ₘ others)) (hrun : s.run (.cancel job.streamHandle) input = some e)
    (hpending : job ∈ s.queue.pendingJobs) : ∃ task' ∈ e.left + others, task'.named = some job := by
  have hothers : ∀ task' ∈ (.cancel job.streamHandle ::ₘ others : Multiset ExecutorTask), task'.named = some job →
      ∃ task' ∈ e.left + others, task'.named = some job := by
    intro task' htask hnamed
    rcases Multiset.mem_cons.mp htask with rfl | htask
    · cases hnamed
    · exact ⟨task', Multiset.mem_add.mpr (.inr htask), hnamed⟩
  have hjob := hok.mem_accepted_of_pending hpending
  by_cases hcancelled : (s.handles job.streamHandle).cancelled = true
  · obtain ⟨task', htask, hnamed⟩ := hw.withdrawing job hpending hcancelled
    exact hothers task' htask hnamed
  rcases hw.callback job hjob with habsurd | hcallback | hmem
  · exact absurd habsurd hcancelled
  · -- a pending job's handle is open, so the cancel takes effect
    have hopen : ¬ (s.handles job.streamHandle).terminal = true := by
      intro hend
      have hheld := hok.held_iff hjob
      have hcount := Multiset.count_pos.mpr (Multiset.mem_map_of_mem SchedulerJob.streamHandle hpending)
      rw [if_pos hend] at hheld
      omega
    simp only [ExecutorState.run] at hrun
    split_ifs at hrun
    obtain rfl := Option.some.inj hrun
    refine ⟨.cancelStreamJob job false, Multiset.mem_add.mpr (.inl ?_), rfl⟩
    simp [cancel, SynthesisHandle.cancel, hopen, hcancelled, hcallback, Effect.left]
  · exact hothers _ hmem rfl

/-! ### The watch is kept -/

/-- Where a task inside a section is among the others, `_cond` is held and the
task that runs is outside. -/
theorem Sections.alone {pre post : List (List ExecutorTask)} {rest : List ExecutorTask}
    (hsections : Sections s (pre ++ (task :: rest) :: post)) {task' : ExecutorTask}
    (hmem : task' ∈ (↑rest + (↑pre.flatten + ↑post.flatten) : Multiset ExecutorTask))
    (hin : task'.inSection = true) : s.locked = true ∧ task.inSection = false := by
  have hle := hsections.inSection_le
  simp only [List.flatten_append, List.flatten_cons, List.countP_append, List.countP_cons] at hle
  have hpos : 0 < rest.countP ExecutorTask.inSection + pre.flatten.countP ExecutorTask.inSection +
      post.flatten.countP ExecutorTask.inSection := by
    have hlist : task' ∈ rest ++ pre.flatten ++ post.flatten := by
      simpa only [Multiset.mem_add, Multiset.mem_coe, List.mem_append, or_assoc] using hmem
    have hcount := List.countP_pos_iff.mpr ⟨task', hlist, hin⟩
    rwa [List.countP_append, List.countP_append] at hcount
  cases hlocked : s.locked with
  | false =>
    rw [hlocked, if_neg Bool.false_ne_true] at hle
    omega
  | true =>
    rw [hlocked, if_pos rfl] at hle
    refine ⟨rfl, ?_⟩
    by_contra hown
    rw [Bool.not_eq_false] at hown
    rw [if_pos hown] at hle
    omega

/-- **Every task keeps the watch.** -/
theorem Watched.run (hw : Watched s (task ::ₘ others)) (hok : Ok s (task ::ₘ others))
    (halone : ∀ task' ∈ others, task'.inSection = true → s.locked = true ∧ task.inSection = false)
    (hrun : s.run task input = some e) : Watched e.state (e.left + others) := by
  obtain ⟨t, hm⟩ := hok.moved hrun
  have hok' : Ok e.state (e.left + others) := hok.run hrun
  refine ⟨fun job hjob => ?_, fun job hmem => ?_, fun job hpending hcancelled => ?_, fun k hevents => ?_⟩
  · rcases new_accepted hok hrun hjob with hold | ⟨hnew, -⟩
    · have hlt := hok.lt_of_accepted hold
      rcases hw.callback job hold with hcancelled | hcallback | hmem
      · exact .inl (cancelled_stays hrun hlt hcancelled)
      · refine .inr (.inl ?_)
        rcases handle_of_run hrun job.streamHandle with hsame | ⟨op, hop, heq⟩ | ⟨hnew, -⟩
        · exact hsame ▸ hcallback
        · rw [heq]
          rcases (s.handles job.streamHandle).after_cancelCallback op with hkept | ⟨other, rfl, -, hset⟩
          · exact hkept.trans hcallback
          · -- whoever registers a callback for this handle registers this job's
            obtain ⟨hother, hhandle⟩ := registers_own hop
            obtain rfl := hok.eq_of_handle (hok.named task (Multiset.mem_cons_self _ _) other hother) hold hhandle
            exact hset
        · exact absurd hnew hlt.ne
      · rcases Multiset.mem_cons.mp hmem with rfl | hmem
        · obtain rfl := Option.some.inj hrun
          by_cases hcancelled : (s.handles job.streamHandle).cancelled = true
          · exact .inl (cancelled_stays hrun hlt hcancelled)
          · exact .inr (.inl (by simp [setCancelCallback, SynthesisHandle.setCancelCallback, hcancelled, setHandle]))
        · exact .inr (.inr (Multiset.mem_add.mpr (.inr hmem)))
    · exact .inr (.inr (Multiset.mem_add.mpr (.inl hnew)))
  · rcases Multiset.mem_add.mp hmem with hmem | hmem
    · exact registering_of_run hok hrun hmem
    · obtain ⟨hlocked, hout⟩ := halone _ hmem rfl
      have hsame := executor_of_run hrun hlocked hout
      rw [ExecutorState.queue, hsame]
      exact hw.registering job (Multiset.mem_cons_of_mem hmem)
  · rcases hm.queue.mem_pending hpending with hold | hnew
    · have hlt := hok.lt_of_accepted (hok.mem_accepted_of_pending hold)
      rcases cancelled_of_run hrun hlt hcancelled with hbefore | rfl
      · obtain ⟨task', htask', hnamed⟩ := hw.withdrawing job hold hbefore
        rcases Multiset.mem_cons.mp htask' with rfl | htask'
        · exact named_of_run hok hrun hnamed hpending hbefore
        · exact ⟨task', Multiset.mem_add.mpr (.inr htask'), hnamed⟩
      · obtain ⟨task', htask', hnamed⟩ := hw.cancelled hok hrun hold
        exact ⟨task', htask', hnamed⟩
    · have haccepted := hm.mem_accepted (.inr (Multiset.mem_coe.mp hnew))
      rcases new_accepted hok hrun haccepted with hold | ⟨hmem, -⟩
      · have hfresh := hok.fresh job hold
        rw [hm.jobId job (Multiset.mem_coe.mp hnew)] at hfresh
        exact absurd hfresh (lt_irrefl _)
      · exact ⟨_, Multiset.mem_add.mpr (.inl hmem), rfl⟩
  · refine Left.run ?_ hok hrun
    rcases handle_of_run hrun k with hsame | ⟨op, hop, heq⟩ | ⟨-, hempty⟩
    · exact hw.silent k (hsame ▸ hevents)
    · by_cases hbefore : (s.handles k).events = []
      · have happends : (s.handles k).appends op ≠ [] := fun hnone =>
          hevents (heq ▸ SynthesisHandle.events_after hbefore hnone)
        rcases appends_of_run hop happends with ⟨job, hslot, rfl⟩ | howner
        · exact hok.left_of_slot ((Multiset.mem_filterMap _ _).mpr ⟨task, Multiset.mem_cons_self _ _, hslot⟩)
        · exact hok.left_of_owned ((Multiset.mem_filterMap _ _).mpr ⟨task, Multiset.mem_cons_self _ _, howner⟩)
      · exact hw.silent k hbefore
    · exact absurd hempty hevents

/-! ### The backend is not called -/

/-- A backend task comes from a backend task of the same job, or from the worker's
look at the flag. -/
theorem inBackend_of_run (hrun : s.run task input = some e) {task' : ExecutorTask} (hmem : task' ∈ e.left)
    (hin : task'.inBackend = true) :
    (task.inBackend = true ∧ task'.slotJob = task.slotJob) ∨
      ∃ job backendStartedAt, task = .checkCancelled job backendStartedAt ∧
        (s.handles job.streamHandle).cancelled = false ∧ task'.slotJob = some job := by
  have hnone : ∀ {left : Multiset ExecutorTask}, slots left = 0 → task' ∉ left := by
    intro left hslots hmem
    obtain ⟨job, hslot⟩ : ∃ job, task'.slotJob = some job := by
      cases task' <;> first | exact ⟨_, rfl⟩ | cases hin
    have hjob : job ∈ slots left := (Multiset.mem_filterMap _ _).mpr ⟨task', hmem, hslot⟩
    rw [hslots] at hjob
    exact absurd hjob (Multiset.notMem_zero _)
  have hother : ∀ {other : ExecutorTask}, other.inBackend = false → task' ∉ ({other} : Multiset ExecutorTask) := by
    intro other hnot hmem
    rw [Multiset.mem_singleton.mp hmem, hnot] at hin
    cases hin
  cases fires_of_run hrun with
  | checkCancelled job backendStartedAt now =>
    refine .inr ⟨job, backendStartedAt, rfl, ?_⟩
    by_cases hcancelled : (s.handles job.streamHandle).cancelled = true
    · simp only [checkCancelled, if_pos hcancelled] at hmem
      exact absurd hmem (hother rfl)
    · simp only [checkCancelled, if_neg hcancelled] at hmem
      rw [Multiset.mem_singleton.mp (hmem : task' ∈ ({_} : Multiset ExecutorTask))]
      exact ⟨by simpa using hcancelled, rfl⟩
  | returnsAudio job backendStartedAt =>
    refine .inl ⟨rfl, ?_⟩
    rw [Multiset.mem_singleton.mp (hmem : task' ∈ ({_} : Multiset ExecutorTask))]
    rfl
  | backend _ job backendStartedAt _ _ htask hbackend =>
    have hslots := (runBackend_quiet htask hbackend).tasks.slots
    obtain ⟨own, hslot⟩ : ∃ own, task'.slotJob = some own := by
      cases task' <;> first | exact ⟨_, rfl⟩ | cases hin
    have hown : own ∈ slots e.left := (Multiset.mem_filterMap _ _).mpr ⟨task', hmem, hslot⟩
    rw [hslots, slots, filterMap_singleton, Multiset.mem_coe] at hown
    rcases htask with rfl | rfl <;> rw [hslot, List.mem_singleton.mp hown] <;> exact .inl ⟨rfl, rfl⟩
  | enqueueStream request k now =>
    unfold enqueueStream at hmem
    split_ifs at hmem
    · exact absurd hmem (hnone rfl)
    · split at hmem <;> exact absurd hmem (hnone rfl)
  | beginShutdown now =>
    simp only [beginShutdown, Effect.left, List.flatten_nil, List.append_nil, Multiset.mem_coe,
      List.mem_append, List.mem_map] at hmem
    rcases hmem with ⟨job, -, rfl⟩ | ⟨k, -, rfl⟩ <;> cases hin
  | addTerminalCallback k callback =>
    simp only [addTerminalCallback] at hmem
    split_ifs at hmem <;> exact absurd hmem (hnone rfl)
  | cancelStreamJob job holding now =>
    unfold cancelStreamJob at hmem
    split at hmem <;> exact absurd hmem (hnone rfl)
  | release job backendStartedAt backendFinishedAt outcome =>
    cases outcome <;> exact absurd hmem (hnone rfl)
  | setCancelCallback job =>
    simp only [setCancelCallback] at hmem
    split_ifs at hmem <;> exact absurd hmem (hnone rfl)
  | cancel k =>
    cases hcallback : (s.handles k).cancel.2 <;> simp only [cancel, hcallback] at hmem <;>
      exact absurd hmem (hnone rfl)
  | complete k result metrics =>
    simp only [complete] at hmem
    split_ifs at hmem <;> exact absurd hmem (hnone rfl)
  | runLoop now | parked now =>
    unfold runLoop at hmem
    split_ifs at hmem
    · exact absurd hmem (hnone rfl)
    · split at hmem
      · exact absurd hmem (hnone rfl)
      next queue job hpop =>
        have htask' : task' = .startWorker job now ∨ task' = .runLoop := by simpa [Effect.left] using hmem
        rcases htask' with rfl | rfl <;> cases hin
    · exact absurd hmem (hnone rfl)
  | startWorker | cannotStart | runJob => exact absurd hmem (hother rfl)
  | _ => exact absurd hmem (hnone rfl)

end ExecutorState

/-- The backend runs for a handle. -/
def ExecutorTask.Serves (h : HandleId) (task : ExecutorTask) : Prop :=
  task.inBackend = true ∧ ∃ job, task.slotJob = some job ∧ job.streamHandle = h

namespace ExecutorState

variable {s : ExecutorState} {task : ExecutorTask} {bag others : Multiset ExecutorTask} {e : Step}
  {input : ExecutorInput} {h : HandleId} {job : SchedulerJob}

/-- A handle cancelled before the backend is called for it. -/
structure Doomed (h : HandleId) (s : ExecutorState) (bag : Multiset ExecutorTask) : Prop where
  lt : h < s.nextHandle
  cancelled : (s.handles h).cancelled = true
  idle : ∀ task ∈ bag, ¬ task.Serves h

/-- **The worker finds the flag**: no task calls the backend for a doomed handle. -/
theorem Doomed.run (hd : Doomed h s (task ::ₘ others)) (hok : Ok s (task ::ₘ others))
    (hrun : s.run task input = some e) : Doomed h e.state (e.left + others) := by
  obtain ⟨t, hm⟩ := hok.moved hrun
  refine ⟨?_, cancelled_stays hrun hd.lt hd.cancelled, fun task' htask => ?_⟩
  · rw [← Multiset.mem_range, hm.handles]
    exact Multiset.mem_add.mpr (.inl (Multiset.mem_range.mpr hd.lt))
  · rcases Multiset.mem_add.mp htask with hmem | hmem
    · rintro ⟨hin, job, hslot, rfl⟩
      rcases inBackend_of_run hrun hmem hin with ⟨hown, hsame⟩ | ⟨other, backendStartedAt, rfl, hopen, hsame⟩
      · exact hd.idle task (Multiset.mem_cons_self _ _) ⟨hown, job, hsame.symm.trans hslot, rfl⟩
      · obtain rfl := Option.some.inj (hsame.symm.trans hslot)
        simp [hd.cancelled] at hopen
    · exact hd.idle task' (Multiset.mem_cons_of_mem hmem)

/-- No call comes in as a backend. -/
theorem Doomed.entry (hd : Doomed h s bag) (hentry : task.entry = true) : Doomed h s (task ::ₘ bag) := by
  refine ⟨hd.lt, hd.cancelled, fun task' htask => ?_⟩
  rcases Multiset.mem_cons.mp htask with rfl | htask
  · have hnot : task'.inBackend = false := by cases task' <;> first | rfl | cases hentry
    rintro ⟨hin, -⟩
    simp [hnot] at hin
  · exact hd.idle task' htask

/-- While its job has not left the queue, a handle is served by nobody. -/
theorem Ok.idle_of_not_left (hok : Ok s bag) (hleft : ¬ s.Left h) : ∀ task ∈ bag, ¬ task.Serves h := by
  rintro task htask ⟨-, job, hslot, rfl⟩
  exact hleft (hok.left_of_slot ((Multiset.mem_filterMap _ _).mpr ⟨task, htask, hslot⟩))

/-! ### Over a whole schedule -/

variable {c : Config ExecutorState ExecutorTask}

theorem runs_left (hok : Ok c.state c.bag) (hleft : c.state.Left h) (actions : List ExecutorAction) :
    (executorProgram.runs c actions).state.Left h := by
  refine (Threads.Program.runs_of (p := executorProgram) (I := fun s bag => Ok s bag ∧ s.Left h)
    ⟨hok, hleft⟩ ?_ ?_ actions).2
  · rintro s bag task hentry ⟨hok, hleft⟩
    exact ⟨hok.spawn (.of_entry hentry), hleft⟩
  · rintro s bag task input e hrun ⟨hok, hleft⟩
    exact ⟨hok.run hrun, hleft.run hok hrun⟩

theorem runs_doomed (hok : Ok c.state c.bag) (hd : Doomed h c.state c.bag) (actions : List ExecutorAction) :
    Doomed h (executorProgram.runs c actions).state (executorProgram.runs c actions).bag := by
  refine (Threads.Program.runs_of (p := executorProgram) (I := fun s bag => Ok s bag ∧ Doomed h s bag)
    ⟨hok, hd⟩ ?_ ?_ actions).2
  · rintro s bag task hentry ⟨hok, hd⟩
    exact ⟨hok.spawn (.of_entry hentry), hd.entry hentry⟩
  · rintro s bag task input e hrun ⟨hok, hd⟩
    exact ⟨hok.run hrun, hd.run hok hrun⟩

/-- **A cancel that takes effect in time dooms its handle.** -/
theorem doomed_of_cancel {thread : ℕ} (input : ExecutorInput) (hok : Ok c.state c.bag)
    (hnext : c.next? thread = some (.cancel h))
    (hlt : h < c.state.nextHandle) (hopen : (c.state.handles h).terminal = false) (hleft : ¬ c.state.Left h) :
    Doomed h (executorProgram.step c (.run thread input)).state
      (executorProgram.step c (.run thread input)).bag := by
  have hrun : c.state.run (.cancel h) input = some (c.state.cancel h) := by simp [ExecutorState.run, hlt]
  have hstate : (executorProgram.step c (.run thread input)).state = (c.state.cancel h).state :=
    Threads.Program.step_run hnext hrun
  have hidle := hok.idle_of_not_left hleft
  refine ⟨hstate ▸ hlt, ?_, ?_⟩
  · rw [hstate]
    simpa [cancel, setHandle] using SynthesisHandle.cancelled_cancel hopen
  · rcases Threads.Program.step_cases c (.run thread input) (p := executorProgram) with heq | ⟨_, hcall, -⟩ |
      ⟨_, _, task, e, others, hact, hnext', hrun', hold, -, hbag⟩
    · rwa [heq]
    · cases hcall
    · cases hact
      obtain rfl := Option.some.inj (hnext.symm.trans hnext')
      obtain rfl := Option.some.inj (hrun.symm.trans hrun')
      intro task' htask
      rw [hbag] at htask
      rcases Multiset.mem_add.mp htask with hmem | hmem
      · rintro ⟨hin, -⟩
        rcases inBackend_of_run hrun hmem hin with ⟨hown, -⟩ | ⟨_, _, hown, -⟩
        · cases hown
        · cases hown
      · exact hidle task' (hold ▸ Multiset.mem_cons_of_mem hmem)

/-- After any schedule the cancelled jobs are watched over. -/
theorem after_watched (modelName : String) (streaming : Bool) (configuredTargetInflight : ℤ)
    (settings : FairnessSettings) (runtimeCapability : ℤ) (actions : List ExecutorAction) :
    let c := after modelName streaming configuredTargetInflight settings runtimeCapability actions
    Watched c.state c.bag := by
  refine (after_of (I := fun s threads => Watched s (Config.bag ⟨s, threads⟩)) modelName streaming
    configuredTargetInflight settings runtimeCapability ?_ ?_ ?_ actions).2
  · exact ⟨fun _ hjob => absurd hjob List.not_mem_nil, fun job hmem => by simp [Config.bag] at hmem,
      fun _ hjob => absurd hjob (Multiset.notMem_zero _), fun _ hevents => absurd rfl hevents⟩
  · intro s threads task hentry hw
    rw [Threads.Program.bag_call]
    refine ⟨fun job hjob => ?_, fun job hmem => ?_, fun job hpending hcancelled => ?_, hw.silent⟩
    · exact (hw.callback job hjob).imp id (.imp id Multiset.mem_cons_of_mem)
    · rcases Multiset.mem_cons.mp hmem with rfl | hmem
      · cases hentry
      · exact hw.registering job hmem
    · obtain ⟨task', htask, hnamed⟩ := hw.withdrawing job hpending hcancelled
      exact ⟨task', Multiset.mem_cons_of_mem htask, hnamed⟩
  · intro s pre task rest post input e hrun hok hsections hw
    rw [Threads.Program.bag_split rfl] at hw
    rw [Threads.Program.bag_run]
    exact hw.run hok (fun task' hmem hin => hsections.alone hmem hin) hrun

/-- A cancel that takes effect while the job is pending, or before the callback is
in place, finds the job in the queue, if it was accepted at all. -/
theorem Watched.not_left (hw : Watched s bag) (hok : Ok s bag) (hfirst : (s.handles h).cancelled = false)
    (hqueued : (∃ job ∈ s.queue.pendingJobs, job.streamHandle = h) ∨ (s.handles h).cancelCallback = none) :
    ¬ s.Left h := by
  rcases hqueued with ⟨job, hjob, rfl⟩ | hnone
  · exact hok.not_left hjob
  · rintro ⟨job, hjob, rfl, hnot⟩
    rcases hw.callback job hjob with hcancelled | hcallback | hmem
    · simp [hfirst] at hcancelled
    · simp [hnone] at hcallback
    · exact hnot (hw.registering job hmem)

/-- A job no task has to do with is done with, when its handle is cancelled. -/
theorem Watched.done (hw : Watched s bag) (hok : Ok s bag) (hjob : job ∈ s.accepted)
    (hcancelled : (s.handles job.streamHandle).cancelled = true)
    (hnone : ∀ task ∈ bag, task.named ≠ some job ∧ task.slotJob ≠ some job ∧
      task.owner ≠ some job.streamHandle) :
    job ∉ s.queue.pendingJobs ∧ job.ticket ∉ s.queue.activeTickets ∧
      s.executor.activeStreamHandles.get? job.jobId = none ∧ (s.handles job.streamHandle).terminal = true := by
  have hpending : job ∉ s.queue.pendingJobs := by
    intro hpending
    obtain ⟨task, htask, hnamed⟩ := hw.withdrawing job hpending hcancelled
    exact (hnone task htask).1 hnamed
  have hslot : job ∉ slots bag := by
    intro hslot
    obtain ⟨task, htask, hown⟩ := (Multiset.mem_filterMap _ _).mp hslot
    exact (hnone task htask).2.1 hown
  have howned : job.streamHandle ∉ owned bag := by
    intro howned
    obtain ⟨task, htask, hown⟩ := (Multiset.mem_filterMap _ _).mp howned
    exact (hnone task htask).2.2 hown
  -- an id in one of the tables is the job's own, so it would hold a slot
  have hid : ∀ other ∈ slots bag, other.jobId ≠ job.jobId := by
    intro other hother hsame
    exact hslot (hok.eq_of_jobId (hok.mem_accepted_of_slot hother) hjob hsame ▸ hother)
  refine ⟨hpending, ?_, ?_, ?_⟩
  · rw [hok.active]
    intro hmem
    obtain ⟨other, hother, hticket⟩ := Multiset.mem_map.mp hmem
    exact hid other hother (congrArg Prod.snd hticket)
  · rw [Dict.get?_eq_none_iff]
    intro handle hentry
    have hmem : (job.jobId, handle) ∈ (slots bag).map SchedulerJob.entry := by
      rw [← hok.activeHandles]
      exact Multiset.mem_coe.mpr hentry
    obtain ⟨other, hother, hentry⟩ := Multiset.mem_map.mp hmem
    exact hid other hother (congrArg Prod.fst hentry)
  · have hplaces := hok.places hjob
    have hnot : ∀ jobs : Multiset SchedulerJob, (∀ other ∈ jobs, other ∈ s.accepted) → job ∉ jobs →
        (jobs.map SchedulerJob.streamHandle).count job.streamHandle = 0 := by
      intro jobs haccepted hnot
      refine Multiset.count_eq_zero_of_notMem fun hmem => ?_
      obtain ⟨other, hother, hhandle⟩ := Multiset.mem_map.mp hmem
      exact hnot (hok.eq_of_handle (haccepted other hother) hjob hhandle ▸ hother)
    rw [hnot _ (fun _ => hok.mem_accepted_of_pending) hpending, hnot _ (fun _ => hok.mem_accepted_of_slot) hslot,
      Multiset.count_eq_zero_of_notMem howned] at hplaces
    refine (hok.terminal _ (hok.lt_of_accepted hjob)).mpr (List.count_pos_iff.mp ?_)
    omega

/-- **A stream cancelled while queued never reaches the runtime.**  Where `cancel`
takes effect while the job is pending, or before the cancel callback is in place,
the backend runs for its handle in no state of the run, before or after, and no
state lets a reader have an event.  Once no task has to do with the job any more,
it is neither pending nor active, its slot is given back and its handle is
terminal. -/
theorem queued_cancel_wins (modelName : String) (streaming : Bool) (configuredTargetInflight : ℤ)
    (settings : FairnessSettings) (runtimeCapability : ℤ) (earlier later : List ExecutorAction)
    (thread : ℕ) (input : ExecutorInput) (h : HandleId) :
    let reached := after modelName streaming configuredTargetInflight settings runtimeCapability
    let s := (reached earlier).state
    (reached earlier).next? thread = some (.cancel h) → h < s.nextHandle →
    (s.handles h).terminal = false → (s.handles h).cancelled = false →
    ((∃ job ∈ s.queue.pendingJobs, job.streamHandle = h) ∨ (s.handles h).cancelCallback = none) →
    let actions := earlier ++ .run thread input :: later
    (∀ early, early <+: actions → (∀ task ∈ (reached early).bag, ¬ task.Serves h) ∧
      ∀ event, ((reached early).state.handles h).popEvent.2 ≠ .ok (some event)) ∧
    ∀ job ∈ (reached actions).state.accepted, job.streamHandle = h →
      (∀ task ∈ (reached actions).bag,
        task.named ≠ some job ∧ task.slotJob ≠ some job ∧ task.owner ≠ some h) →
      job ∉ (reached actions).state.queue.pendingJobs ∧
        job.ticket ∉ (reached actions).state.queue.activeTickets ∧
        (reached actions).state.executor.activeStreamHandles.get? job.jobId = none ∧
        ((reached actions).state.handles h).terminal = true := by
  intro reached s hnext hlt hopen hfirst hqueued actions
  have hok : ∀ actions, Ok (reached actions).state (reached actions).bag := fun actions =>
    (after_ok modelName streaming configuredTargetInflight settings runtimeCapability actions).1
  have hwatched : ∀ actions, Watched (reached actions).state (reached actions).bag := fun actions =>
    after_watched modelName streaming configuredTargetInflight settings runtimeCapability actions
  have hsplit : ∀ early more, reached (early ++ more) = executorProgram.runs (reached early) more :=
    fun early more => Threads.Program.runs_append ..
  have hqueue : ¬ s.Left h := (hwatched earlier).not_left (hok earlier) hfirst hqueued
  have hdoomed : ∀ more, Doomed h (reached (earlier ++ .run thread input :: more)).state
      (reached (earlier ++ .run thread input :: more)).bag := by
    intro more
    have hstep : reached (earlier ++ [.run thread input]) =
        executorProgram.step (reached earlier) (.run thread input) := hsplit earlier [.run thread input]
    have hstart := doomed_of_cancel input (hok earlier) hnext hlt hopen hqueue
    rw [← hstep] at hstart
    rw [List.append_cons, hsplit]
    exact runs_doomed (hok _) hstart more
  -- until then its job is in the queue, if there is one
  have hsilent : ∀ early, early <+: earlier → (∀ task ∈ (reached early).bag, ¬ task.Serves h) ∧
      ∀ event, ((reached early).state.handles h).popEvent.2 ≠ .ok (some event) := by
    rintro early ⟨more, hmore⟩
    have hnot : ¬ (reached early).state.Left h := by
      intro hleft
      refine hqueue ?_
      rw [show s = (reached earlier).state from rfl, ← hmore, hsplit]
      exact runs_left (hok early) hleft more
    refine ⟨(hok early).idle_of_not_left hnot, fun event hevent => hnot ((hwatched early).silent h ?_)⟩
    rcases ((reached early).state.handles h).popEvent_cases with ⟨-, heq⟩ | ⟨-, -, heq⟩ | ⟨_, _, -, hevents, -⟩
    · rw [heq] at hevent
      cases hevent
    · rw [heq, SynthesisHandle.final] at hevent
      split at hevent <;> cases hevent
    · simp [hevents]
  refine ⟨fun early hprefix => ?_, ?_⟩
  · rcases List.prefix_or_prefix_of_prefix hprefix (List.prefix_append earlier _) with hbefore | ⟨more, rfl⟩
    · exact hsilent early hbefore
    · cases more with
      | nil => exact hsilent _ (by simp)
      | cons a more =>
        rw [List.prefix_append_right_inj, List.cons_prefix_cons] at hprefix
        obtain ⟨rfl, -⟩ := hprefix
        refine ⟨(hdoomed more).idle, fun event hevent => ?_⟩
        rw [SynthesisHandle.popEvent, if_pos (hdoomed more).cancelled] at hevent
        cases hevent
  · rintro job hjob rfl hnone
    exact (hwatched actions).done (hok actions) hjob (hdoomed later).cancelled hnone

/-- A stream whose job is accepted, and whose callback is not in place yet, as its
caller turns to `cancel`. -/
def unregistered : List ExecutorAction :=
  [.call (.openStream { model := "m", fairnessKey := none }
      { responseId := "ttsresp_test", modelName := "m", maxBufferChunks := 1, maxBufferBytes := 8,
        stalledConsumerTimeoutS := 1 }),
    .run 1 (.clock 0), .run 1 (.clock 0), .call (.cancel 0)]

/-- `enqueue_stream` then calls the callback itself. -/
theorem queued_cancel_wins_unregistered :
    let reached := after "m" true 1 .pair 1
    let actions := unregistered ++ .run 2 (.clock 0) :: List.replicate 5 (.run 1 (.clock 0))
    (∀ early, early <+: actions → (∀ task ∈ (reached early).bag, ¬ task.Serves 0) ∧
      ∀ event, ((reached early).state.handles 0).popEvent.2 ≠ .ok (some event)) ∧
      ((reached actions).state.handles 0).terminal = true := by
  intro reached actions
  have h := queued_cancel_wins "m" true 1 .pair 1 unregistered (List.replicate 5 (.run 1 (.clock 0))) 2 (.clock 0) 0
    rfl (by decide +kernel) (by decide +kernel) (by decide +kernel) (.inr (by decide +kernel))
  have hdone : ∃ job ∈ (after "m" true 1 .pair 1 actions).state.accepted, job.streamHandle = 0 ∧
      ∀ task ∈ (after "m" true 1 .pair 1 actions).bag,
        task.named ≠ some job ∧ task.slotJob ≠ some job ∧ task.owner ≠ some 0 := by
    decide +kernel
  obtain ⟨job, hjob, hhandle, hnone⟩ := hdone
  exact ⟨h.1, (h.2 job hjob hhandle hnone).2.2.2⟩

end ExecutorState
end TtsPool
