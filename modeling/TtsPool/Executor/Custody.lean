/-
# Who holds each request

A request that came to the executor is in one place at a time.  It is undecided
while its caller is on the way into `enqueue_stream`; then it is rejected, or
its job is accepted and pending in the queue, in a slot with the thread that
works on it, owned by the thread that took it out and will finish its handle,
or finished.  The tasks of the threads say the middle part: `slotJob`, `owner`
and `undecided` read it off a task, and the bag of all tasks holds the slots,
the owned handles and the undecided ones.

`ExecutorState.Ok` says that every job and handle is accounted for in this way,
and that the three tables of running jobs agree: the active jobs of the queue,
`_active_stream_handles` and `_runtime_inflight`.  `Transfer` lists what one
task may hand from place to place and `Moved` says that it handed exactly that;
each kind of task has one lemma of this form, and `Ok.step` is the only place
where the invariant is proved kept.
-/

import TtsPool.Executor.Model
import TtsPool.Fair.Conservation

namespace TtsPool

open Threads (Effect)

namespace ExecutorTask

/-- The job a task works on while the job holds its slot. -/
def slotJob : ExecutorTask → Option SchedulerJob
  | .startWorker job _ | .abandonJob job _ | .runJob job _ | .checkCancelled job _ | .backend job _
  | .emitCompleteResult job _ | .release job _ _ _ => some job
  | _ => none

/-- The handle a task is about to finish. -/
def owner : ExecutorTask → Option HandleId
  | .finish h _ _ | .complete h _ _ | .combineMetrics h _ _ => some h
  | _ => none

/-- The handle whose enqueue has not been decided. -/
def undecided : ExecutorTask → Option HandleId
  | .enqueueStream _ h => some h
  | _ => none

/-- The job a task of the cancel callback names. -/
def named : ExecutorTask → Option SchedulerJob
  | .setCancelCallback job | .cancelStreamJob job _ => some job
  | _ => none

/-- The tasks that will make a new handle. -/
def opens : ExecutorTask → Bool
  | .openStream _ _ => true
  | _ => false

/-- The tasks in which the backend runs. -/
def inBackend : ExecutorTask → Bool
  | .backend _ _ | .emitCompleteResult _ _ => true
  | _ => false

end ExecutorTask

/-- The jobs that hold a slot. -/
abbrev slots (bag : Multiset ExecutorTask) : Multiset SchedulerJob := bag.filterMap ExecutorTask.slotJob

/-- The handles owned by the thread that will finish them. -/
abbrev owned (bag : Multiset ExecutorTask) : Multiset HandleId := bag.filterMap ExecutorTask.owner

/-- The handles on their way into `enqueue_stream`. -/
abbrev undecided (bag : Multiset ExecutorTask) : Multiset HandleId := bag.filterMap ExecutorTask.undecided

/-- The entry of a job in `_active_stream_handles`. -/
def SchedulerJob.entry (job : SchedulerJob) : ℕ × HandleId := (job.jobId, job.streamHandle)

/-- The parts of an executor that no method assigns. -/
structure LoadedModelExecutor.SameConfig (executor executor' : LoadedModelExecutor) : Prop where
  modelName : executor'.modelName = executor.modelName
  streaming : executor'.streaming = executor.streaming
  configured : executor'.configuredTargetInflight = executor.configuredTargetInflight
  effective : executor'.effectiveTargetInflight = executor.effectiveTargetInflight

namespace ExecutorState

/-- **The invariant of an executor and of the tasks of its threads.** -/
structure Ok (s : ExecutorState) (bag : Multiset ExecutorTask) : Prop where
  queue : s.queue.Ok
  active : s.queue.activeTickets = (slots bag).map SchedulerJob.ticket
  activeHandles : (s.executor.activeStreamHandles.entries : Multiset (ℕ × HandleId)) =
    (slots bag).map SchedulerJob.entry
  inflight : s.executor.runtimeInflight = (slots bag).card
  capacity : s.executor.runtimeInflight ≤ s.executor.effectiveTargetInflight
  jobs : ∀ job ∈ s.queue.pendingJobs + slots bag, job ∈ s.accepted
  custody : (s.queue.pendingJobs + slots bag).map SchedulerJob.streamHandle + owned bag + s.finished =
    (s.accepted.map SchedulerJob.streamHandle : Multiset HandleId)
  decided : undecided bag + (s.accepted.map SchedulerJob.streamHandle : Multiset HandleId) + s.rejected =
    Multiset.range s.nextHandle
  ids : (s.accepted.map SchedulerJob.jobId).Pairwise (· < ·)
  fresh : ∀ job ∈ s.accepted, job.jobId < s.queue.nextJobId
  terminal : ∀ h < s.nextHandle, (s.handles h).terminal = true ↔ h ∈ s.finished
  named : ∀ task ∈ bag, ∀ job, task.named = some job → job ∈ s.accepted
  callbacks : ∀ h < s.nextHandle, ∀ job, (s.handles h).cancelCallback = some job →
    job ∈ s.accepted ∧ job.streamHandle = h

/-- What a task hands from place to place. -/
structure Transfer where
  opened : Multiset HandleId := 0
  accepted : List SchedulerJob := []
  rejected : List HandleId := []
  dispatched : Multiset SchedulerJob := 0
  withdrawn : Multiset SchedulerJob := 0
  released : Multiset SchedulerJob := 0
  finished : List HandleId := []

/-- A task that hands over just `t`. -/
structure Moved (s : ExecutorState) (task : ExecutorTask) (e : Step) (t : Transfer) : Prop where
  config : s.executor.SameConfig e.state.executor
  queue : s.queue.Flow t.accepted (t.dispatched + t.withdrawn) (t.dispatched.map SchedulerJob.ticket)
    (t.released.map SchedulerJob.ticket) e.state.queue
  nextJobId : e.state.queue.nextJobId = s.queue.nextJobId + t.accepted.length
  one : t.accepted.length ≤ 1
  jobId : ∀ job ∈ t.accepted, job.jobId = s.queue.nextJobId
  activeHandles : (e.state.executor.activeStreamHandles.entries : Multiset (ℕ × HandleId)) +
    t.released.map SchedulerJob.entry =
      s.executor.activeStreamHandles.entries + t.dispatched.map SchedulerJob.entry
  inflight : e.state.executor.runtimeInflight + t.released.card =
    s.executor.runtimeInflight + t.dispatched.card
  room : e.state.executor.runtimeInflight ≤ max s.executor.runtimeInflight s.executor.effectiveTargetInflight
  slots : slots e.left + t.released = slots {task} + t.dispatched
  owned : owned e.left + t.finished = owned {task} + (t.withdrawn + t.released).map SchedulerJob.streamHandle
  undecided : undecided e.left + (t.accepted.map SchedulerJob.streamHandle : Multiset HandleId) + t.rejected =
    undecided {task} + t.opened
  handles : Multiset.range e.state.nextHandle = Multiset.range s.nextHandle + t.opened
  accepted : e.state.accepted = s.accepted ++ t.accepted
  rejected : e.state.rejected = s.rejected ++ t.rejected
  finished : e.state.finished = s.finished ++ t.finished
  terminal : ∀ h < s.nextHandle,
    (e.state.handles h).terminal = true ↔ (s.handles h).terminal = true ∨ h ∈ t.finished
  ended : ∀ h ∈ t.finished, h < s.nextHandle
  newHandles : ∀ h ∈ t.opened, (e.state.handles h).terminal = false ∧ (e.state.handles h).cancelCallback = none
  named : ∀ task' ∈ e.left, ∀ job, task'.named = some job →
    task.named = some job ∨ job ∈ t.accepted ∨ ∃ h < s.nextHandle, (s.handles h).cancelCallback = some job
  callbacks : ∀ h < s.nextHandle, ∀ job, (e.state.handles h).cancelCallback = some job →
    (s.handles h).cancelCallback = some job ∨ task.named = some job ∧ job.streamHandle = h

variable {s : ExecutorState} {task : ExecutorTask} {bag : Multiset ExecutorTask} {e : Step} {t : Transfer}

/-! ### What the invariant says of single requests -/

/-- A job that holds a slot has been accepted. -/
theorem Ok.mem_accepted_of_slot (h : Ok s bag) {job : SchedulerJob} (hjob : job ∈ slots bag) :
    job ∈ s.accepted := h.jobs job (Multiset.mem_add.mpr (.inr hjob))

theorem Ok.mem_accepted_of_pending (h : Ok s bag) {job : SchedulerJob} (hjob : job ∈ s.queue.pendingJobs) :
    job ∈ s.accepted := h.jobs job (Multiset.mem_add.mpr (.inl hjob))

/-- An id names one accepted job. -/
theorem Ok.eq_of_jobId (h : Ok s bag) {a b : SchedulerJob} (ha : a ∈ s.accepted) (hb : b ∈ s.accepted)
    (hid : a.jobId = b.jobId) : a = b :=
  List.inj_on_of_nodup_map (h.ids.imp fun hlt => hlt.ne) ha hb hid

/-- No handle is decided on twice. -/
theorem Ok.decided_nodup (h : Ok s bag) :
    (undecided bag + (s.accepted.map SchedulerJob.streamHandle : Multiset HandleId) + s.rejected).Nodup :=
  h.decided ▸ Multiset.nodup_range s.nextHandle

theorem Ok.accepted_nodup (h : Ok s bag) : (s.accepted.map SchedulerJob.streamHandle).Nodup := by
  refine Multiset.coe_nodup.mp (Multiset.nodup_of_le ?_ h.decided_nodup)
  exact (Multiset.le_add_left _ _).trans (Multiset.le_add_right _ _)

theorem Ok.lt_of_accepted (h : Ok s bag) {job : SchedulerJob} (hjob : job ∈ s.accepted) :
    job.streamHandle < s.nextHandle := by
  have hmem : job.streamHandle ∈ Multiset.range s.nextHandle := by
    rw [← h.decided]
    simp only [Multiset.mem_add, Multiset.mem_coe]
    exact .inl (.inr (List.mem_map_of_mem hjob))
  exact Multiset.mem_range.mp hmem

/-- **One place at a time**: pending, in a slot, owned, or finished. -/
theorem Ok.places (h : Ok s bag) {job : SchedulerJob} (hjob : job ∈ s.accepted) :
    (s.queue.pendingJobs.map SchedulerJob.streamHandle).count job.streamHandle +
      ((slots bag).map SchedulerJob.streamHandle).count job.streamHandle +
      (owned bag).count job.streamHandle + s.finished.count job.streamHandle = 1 := by
  have hone : (s.accepted.map SchedulerJob.streamHandle).count job.streamHandle = 1 :=
    List.count_eq_one_of_mem h.accepted_nodup (List.mem_map_of_mem hjob)
  have hcount := congrArg (Multiset.count job.streamHandle) h.custody
  simpa [Multiset.map_add, hone] using hcount

/-- Only accepted handles are owned or finished. -/
theorem Ok.exists_job (h : Ok s bag) {handle : HandleId} (hh : handle ∈ owned bag + s.finished) :
    ∃ job ∈ s.accepted, job.streamHandle = handle := by
  have hmem : handle ∈ (s.accepted.map SchedulerJob.streamHandle : Multiset HandleId) := by
    rw [← h.custody, add_assoc]
    exact Multiset.mem_add.mpr (.inr hh)
  simpa using hmem

/-! ### The invariant is kept -/

/-- A projection of the bag before a task and after it. -/
theorem filterMap_step {β : Type*} (f : ExecutorTask → Option β) {came gone : Multiset β}
    (h : e.left.filterMap f + gone = Multiset.filterMap f {task} + came) :
    (e.left + bag).filterMap f + gone = (task ::ₘ bag).filterMap f + came := by
  rw [← Multiset.singleton_add, Multiset.filterMap_add, Multiset.filterMap_add,
    add_right_comm, h, add_right_comm]

theorem slots_after (hm : Moved s task e t) (bag : Multiset ExecutorTask) :
    slots (e.left + bag) + t.released = slots (task ::ₘ bag) + t.dispatched := filterMap_step _ hm.slots

theorem owned_after (hm : Moved s task e t) (bag : Multiset ExecutorTask) :
    owned (e.left + bag) + t.finished =
      owned (task ::ₘ bag) + (t.withdrawn + t.released).map SchedulerJob.streamHandle :=
  filterMap_step _ hm.owned

theorem undecided_after (hm : Moved s task e t) (bag : Multiset ExecutorTask) :
    undecided (e.left + bag) + ((t.accepted.map SchedulerJob.streamHandle : Multiset HandleId) + t.rejected) =
      undecided (task ::ₘ bag) + t.opened :=
  filterMap_step _ ((add_assoc _ _ _).symm.trans hm.undecided)

/-- A handle allocated by now is an old one or a new one. -/
theorem Moved.handle_cases (hm : Moved s task e t) {handle : HandleId} (hlt : handle < e.state.nextHandle) :
    handle < s.nextHandle ∨ handle ∈ t.opened := by
  have hmem := Multiset.mem_range.mpr hlt
  rwa [hm.handles, Multiset.mem_add, Multiset.mem_range] at hmem

/-- A handle opened is a new one. -/
theorem Moved.not_lt_of_opened (hm : Moved s task e t) {handle : HandleId} (hmem : handle ∈ t.opened) :
    ¬ handle < s.nextHandle := by
  intro hlt
  have hnodup := Multiset.nodup_range e.state.nextHandle
  rw [hm.handles, Multiset.nodup_add] at hnodup
  exact Multiset.disjoint_left.mp hnodup.2.2 (Multiset.mem_range.mpr hlt) hmem

theorem Moved.mem_accepted (hm : Moved s task e t) {job : SchedulerJob}
    (hjob : job ∈ s.accepted ∨ job ∈ t.accepted) : job ∈ e.state.accepted := by
  rw [hm.accepted]
  exact List.mem_append.mpr hjob

/-- What is pending or in a slot after a task was accepted. -/
theorem Ok.step_jobs (h : Ok s (task ::ₘ bag)) (hm : Moved s task e t) :
    ∀ job ∈ e.state.queue.pendingJobs + slots (e.left + bag), job ∈ e.state.accepted := by
  intro job hjob
  refine hm.mem_accepted ?_
  rcases Multiset.mem_add.mp hjob with hjob | hjob
  · exact (hm.queue.mem_pending hjob).imp h.mem_accepted_of_pending Multiset.mem_coe.mp
  · have hjob : job ∈ slots (e.left + bag) + t.released := Multiset.mem_add.mpr (.inl hjob)
    rw [slots_after hm] at hjob
    rcases Multiset.mem_add.mp hjob with hjob | hjob
    · exact .inl (h.mem_accepted_of_slot hjob)
    · refine (hm.queue.mem_left (Multiset.mem_add.mpr (.inl hjob))).imp h.mem_accepted_of_pending ?_
      exact Multiset.mem_coe.mp

/-- The handles balance, place by place. -/
theorem Ok.step_custody (h : Ok s (task ::ₘ bag)) (hm : Moved s task e t) :
    (e.state.queue.pendingJobs + slots (e.left + bag)).map SchedulerJob.streamHandle + owned (e.left + bag) +
      e.state.finished = (e.state.accepted.map SchedulerJob.streamHandle : Multiset HandleId) := by
  have hp := congrArg (Multiset.map SchedulerJob.streamHandle) hm.queue.pending
  have hs := congrArg (Multiset.map SchedulerJob.streamHandle) (slots_after hm bag)
  refine Multiset.ext.mpr fun handle => ?_
  have h₁ := congrArg (Multiset.count handle) h.custody
  have h₂ := congrArg (Multiset.count handle) hp
  have h₃ := congrArg (Multiset.count handle) hs
  have h₄ := congrArg (Multiset.count handle) (owned_after hm bag)
  rw [hm.accepted, hm.finished]
  simp only [Multiset.map_add, Multiset.count_add, Multiset.map_coe, List.map_append,
    ← Multiset.coe_add] at h₁ h₂ h₃ h₄ ⊢
  omega

theorem Ok.step_decided (h : Ok s (task ::ₘ bag)) (hm : Moved s task e t) :
    undecided (e.left + bag) + (e.state.accepted.map SchedulerJob.streamHandle : Multiset HandleId) +
      e.state.rejected = Multiset.range e.state.nextHandle := by
  refine Multiset.ext.mpr fun handle => ?_
  have h₁ := congrArg (Multiset.count handle) h.decided
  have h₂ := congrArg (Multiset.count handle) (undecided_after hm bag)
  rw [hm.accepted, hm.rejected, hm.handles]
  simp only [Multiset.count_add, List.map_append, ← Multiset.coe_add] at h₁ h₂ ⊢
  omega

/-- Ids are given out in order: a task accepts one job at most, under the next
id of the queue. -/
theorem Ok.step_ids (h : Ok s (task ::ₘ bag)) (hm : Moved s task e t) :
    (e.state.accepted.map SchedulerJob.jobId).Pairwise (· < ·) := by
  rw [hm.accepted, List.map_append, List.pairwise_append]
  refine ⟨h.ids, ?_, ?_⟩
  · have hone := hm.one
    generalize t.accepted = accepted at hone ⊢
    rcases accepted with _ | ⟨first, _ | ⟨second, rest⟩⟩
    · exact List.Pairwise.nil
    · exact List.pairwise_singleton _ _
    · simp at hone
  · intro a ha b hb
    obtain ⟨first, hfirst, rfl⟩ := List.mem_map.mp ha
    obtain ⟨job, hjob, rfl⟩ := List.mem_map.mp hb
    exact hm.jobId job hjob ▸ h.fresh first hfirst

theorem Ok.step_fresh (h : Ok s (task ::ₘ bag)) (hm : Moved s task e t) :
    ∀ job ∈ e.state.accepted, job.jobId < e.state.queue.nextJobId := by
  intro job hjob
  rw [hm.nextJobId]
  rw [hm.accepted] at hjob
  rcases List.mem_append.mp hjob with hjob | hjob
  · exact (h.fresh job hjob).trans_le (Nat.le_add_right _ _)
  · rw [hm.jobId job hjob]
    exact Nat.lt_add_of_pos_right (List.length_pos_of_mem hjob)

/-- A handle is terminal once it is finished, a new one not yet. -/
theorem Ok.step_terminal (h : Ok s (task ::ₘ bag)) (hm : Moved s task e t) :
    ∀ handle < e.state.nextHandle, (e.state.handles handle).terminal = true ↔ handle ∈ e.state.finished := by
  intro handle hlt
  rw [hm.finished, List.mem_append]
  rcases hm.handle_cases hlt with hold | hnew
  · rw [hm.terminal handle hold, h.terminal handle hold]
  · rw [(hm.newHandles handle hnew).1]
    refine iff_of_false Bool.false_ne_true ?_
    rintro (hfin | hfin)
    · obtain ⟨job, hjob, rfl⟩ := h.exists_job (Multiset.mem_add.mpr (.inr hfin))
      exact hm.not_lt_of_opened hnew (h.lt_of_accepted hjob)
    · exact hm.not_lt_of_opened hnew (hm.ended _ hfin)

theorem Ok.step_named (h : Ok s (task ::ₘ bag)) (hm : Moved s task e t) :
    ∀ task' ∈ e.left + bag, ∀ job, task'.named = some job → job ∈ e.state.accepted := by
  intro task' htask job hjob
  refine hm.mem_accepted ?_
  rcases Multiset.mem_add.mp htask with htask | htask
  · rcases hm.named task' htask job hjob with hjob | hjob | ⟨handle, hlt, hjob⟩
    · exact .inl (h.named task (Multiset.mem_cons_self _ _) job hjob)
    · exact .inr hjob
    · exact .inl (h.callbacks handle hlt job hjob).1
  · exact .inl (h.named task' (Multiset.mem_cons_of_mem htask) job hjob)

theorem Ok.step_callbacks (h : Ok s (task ::ₘ bag)) (hm : Moved s task e t) :
    ∀ handle < e.state.nextHandle, ∀ job, (e.state.handles handle).cancelCallback = some job →
      job ∈ e.state.accepted ∧ job.streamHandle = handle := by
  intro handle hlt job hjob
  rcases hm.handle_cases hlt with hold | hnew
  · rcases hm.callbacks handle hold job hjob with hjob | ⟨hjob, hh⟩
    · exact ⟨hm.mem_accepted (.inl (h.callbacks handle hold job hjob).1), (h.callbacks handle hold job hjob).2⟩
    · exact ⟨hm.mem_accepted (.inl (h.named task (Multiset.mem_cons_self _ _) job hjob)), hh⟩
  · rw [(hm.newHandles handle hnew).2] at hjob
    cases hjob

/-- **A transfer keeps the invariant.** -/
theorem Ok.step (h : Ok s (task ::ₘ bag)) (hm : Moved s task e t) : Ok e.state (e.left + bag) where
  queue := hm.queue.ok
  active := by
    refine add_right_cancel (b := t.released.map SchedulerJob.ticket) ?_
    rw [hm.queue.active, h.active, ← Multiset.map_add, ← Multiset.map_add, slots_after hm]
  activeHandles := by
    refine add_right_cancel (b := t.released.map SchedulerJob.entry) ?_
    rw [hm.activeHandles, h.activeHandles, ← Multiset.map_add, ← Multiset.map_add, slots_after hm]
  inflight := by
    have hcard := congrArg Multiset.card (slots_after hm bag)
    have hinflight := hm.inflight
    rw [h.inflight] at hinflight
    simp only [Multiset.card_add] at hcard
    omega
  capacity := by
    have hroom := hm.room
    have hcapacity := h.capacity
    have heffective := hm.config.effective
    omega
  jobs := h.step_jobs hm
  custody := h.step_custody hm
  decided := h.step_decided hm
  ids := h.step_ids hm
  fresh := h.step_fresh hm
  terminal := h.step_terminal hm
  named := h.step_named hm
  callbacks := h.step_callbacks hm

end ExecutorState
end TtsPool
