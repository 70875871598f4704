/-
# What each task hands over

Each function of `Ran` has one `_moved` lemma, which states what it hands over;
together they give `Ok.run`, the step lemma of the invariant.  Here the guards
of the source are discharged: a slot given back was held, the job that `remove`
took out is the job of the callback, and the one popped was not active.
-/

import TtsPool.Executor.Steps

namespace TtsPool

open Threads (Effect)

namespace ExecutorState

variable {s : ExecutorState} {task : ExecutorTask} {bag : Multiset ExecutorTask} {e : Step} {t : Transfer}
  {input : ExecutorInput}

theorem Still.moved (h : Still s task e) (hok : s.queue.Ok) : Moved s task e {} where
  config := by
    rw [h.executor]
    exact ⟨rfl, rfl, rfl, rfl⟩
  queue := h.queue hok
  nextJobId := h.nextJobId
  one := Nat.zero_le 1
  jobId := by simp
  activeHandles := by rw [h.executor]
  inflight := by rw [h.executor]
  room := by
    rw [h.executor]
    exact le_max_left _ _
  slots := by simpa using h.tasks.slots
  owned := by simpa using h.tasks.owned
  undecided := by simpa using h.tasks.undecided
  handles := by simp [h.nextHandle]
  accepted := by simpa using h.accepted
  rejected := by simpa using h.rejected
  finished := by simpa using h.finished
  terminal := fun k _ => by simp [h.terminal k]
  ended := by simp
  newHandles := by simp
  named := fun task' htask job hjob => (h.tasks.named task' htask job hjob).imp id .inr
  callbacks := fun k _ => h.callbacks k

theorem openStream_moved (hok : s.queue.Ok) (request : ResponseRequest) (spec : HandleSpec) (now : ℚ) :
    Moved s (.openStream request spec) (s.openStream request spec now) { opened := {s.nextHandle} } where
  config := ⟨rfl, rfl, rfl, rfl⟩
  queue := .refl hok
  nextJobId := rfl
  one := Nat.zero_le 1
  jobId := by simp
  activeHandles := rfl
  inflight := rfl
  room := le_max_left _ _
  slots := rfl
  owned := rfl
  undecided := rfl
  handles := (Multiset.range_succ _).trans (by rw [← Multiset.singleton_add, add_comm])
  accepted := by simp [openStream, setHandle]
  rejected := by simp [openStream, setHandle]
  finished := by simp [openStream, setHandle]
  terminal := fun k hk => by simp [openStream, setHandle, hk.ne]
  ended := by simp
  newHandles := fun k hk => by
    obtain rfl := Multiset.mem_singleton.mp hk
    simp [openStream, setHandle, HandleSpec.handle, SynthesisHandle.new]
  named := fun task' htask job hjob => by
    obtain rfl : task' = .enqueueStream request s.nextHandle := by simpa [openStream, Effect.left] using htask
    cases hjob
  callbacks := fun k hk job hjob => .inl (by simpa [openStream, setHandle, hk.ne] using hjob)

/-- What `enqueue_stream` does with a request: refuse it, and keep nothing of
it, or take it in. -/
theorem enqueueStream_cases (hok : s.queue.Ok) (request : ResponseRequest) (h : HandleId) (now : ℚ) :
    (∃ error q', s.queue.Flow 0 0 0 0 q' ∧ q'.nextJobId = s.queue.nextJobId ∧
      s.enqueueStream request h now =
        { state := { s.setQueue q' with rejected := s.rejected ++ [h] }, next := [.raised h error] }) ∨
    ∃ job q', s.queue.Flow {job} 0 0 0 q' ∧ q'.nextJobId = s.queue.nextJobId + 1 ∧
      job.jobId = s.queue.nextJobId ∧ job.streamHandle = h ∧
      s.enqueueStream request h now =
        { state := { s.setQueue q' with locked := true, accepted := s.accepted ++ [job] }
          next := [.setCancelCallback job, .leaveEnqueue] } := by
  unfold enqueueStream
  split_ifs with hstop
  · exact .inl ⟨_, s.queue, .refl hok, rfl, rfl⟩
  · rcases FairPendingQueue.enqueue_flow hok request h now with ⟨error, q', heq, hflow, hnext⟩ |
      ⟨q', heq, hflow, hnext⟩
    · exact .inl ⟨error, q', hflow, hnext, by rw [heq]⟩
    · exact .inr ⟨s.queue.newJob request h now, q', hflow, hnext, rfl, rfl, by rw [heq]⟩

theorem enqueueStream_moved (hok : s.queue.Ok) (request : ResponseRequest) (h : HandleId) (now : ℚ) :
    ∃ t, Moved s (.enqueueStream request h) (s.enqueueStream request h now) t := by
  rcases enqueueStream_cases hok request h now with ⟨error, q', hflow, hnext, heq⟩ |
    ⟨job, q', hflow, hnext, hid, hhandle, heq⟩
  · rw [heq]
    refine ⟨{ rejected := [h] }, ?_⟩
    exact
      { config := ⟨rfl, rfl, rfl, rfl⟩
        queue := hflow
        nextJobId := hnext
        one := Nat.zero_le 1
        jobId := by simp
        activeHandles := rfl
        inflight := rfl
        room := le_max_left _ _
        slots := rfl
        owned := rfl
        undecided := rfl
        handles := (add_zero _).symm
        accepted := (List.append_nil _).symm
        rejected := rfl
        finished := (List.append_nil _).symm
        terminal := by simp [setQueue]
        ended := by simp
        newHandles := by simp
        named := fun task' htask job hjob => by
          obtain rfl : task' = .raised h error := by simpa [Effect.left] using htask
          cases hjob
        callbacks := fun _ _ _ => .inl }
  · rw [heq]
    refine ⟨{ accepted := [job] }, ?_⟩
    exact
      { config := ⟨rfl, rfl, rfl, rfl⟩
        queue := hflow
        nextJobId := hnext
        one := le_rfl
        jobId := by simpa using hid
        activeHandles := rfl
        inflight := rfl
        room := le_max_left _ _
        slots := rfl
        owned := rfl
        undecided := by
          rw [← hhandle]
          rfl
        handles := (add_zero _).symm
        accepted := rfl
        rejected := (List.append_nil _).symm
        finished := (List.append_nil _).symm
        terminal := by simp [setQueue]
        ended := by simp
        newHandles := by simp
        named := fun task' htask other hother => by
          have htask : task' = .setCancelCallback job ∨ task' = .leaveEnqueue := by
            simpa [Effect.left] using htask
          rcases htask with rfl | rfl
          · obtain rfl := Option.some.inj hother
            exact .inr (.inl (List.mem_singleton_self _))
          · cases hother
        callbacks := fun _ _ _ => .inl }

/-- Jobs taken out of the queue are owned by the thread that will fail them. -/
theorem withdrawn_moved {left : List ExecutorTask} {withdrawn : List SchedulerJob} {s' : ExecutorState}
    (hexecutor : s.executor.SameConfig s'.executor ∧
      s'.executor.activeStreamHandles = s.executor.activeStreamHandles ∧
      s'.executor.runtimeInflight = s.executor.runtimeInflight)
    (hflow : s.queue.Flow 0 withdrawn 0 0 s'.queue) (hnext : s'.queue.nextJobId = s.queue.nextJobId)
    (hstate : s'.handles = s.handles ∧ s'.nextHandle = s.nextHandle ∧ s'.accepted = s.accepted ∧
      s'.rejected = s.rejected ∧ s'.finished = s.finished)
    (hslots : left.filterMap ExecutorTask.slotJob = task.slotJob.toList)
    (howned : left.filterMap ExecutorTask.owner =
      task.owner.toList ++ withdrawn.map SchedulerJob.streamHandle)
    (hundecided : left.filterMap ExecutorTask.undecided = task.undecided.toList)
    (hnamed : ∀ task' ∈ left, task'.named = none) :
    Moved s task { state := s', next := left } { withdrawn := withdrawn } := by
  obtain ⟨hconfig, hactive, hinflight⟩ := hexecutor
  obtain ⟨hhandles, hnextHandle, haccepted, hrejected, hfinished⟩ := hstate
  have hleft : Effect.left { state := s', next := left } = (left : Multiset ExecutorTask) := by
    simp [Effect.left]
  exact
    { config := hconfig
      queue := by simpa using hflow
      nextJobId := hnext
      one := Nat.zero_le 1
      jobId := by simp
      activeHandles := by simp [hactive]
      inflight := by simp [hinflight]
      room := by simp [hinflight]
      slots := by simp [hleft, filterMap_singleton, hslots]
      owned := by simp [hleft, filterMap_singleton, howned]
      undecided := by simp [hleft, filterMap_singleton, hundecided]
      handles := by simp [hnextHandle]
      accepted := by simp [haccepted]
      rejected := by simp [hrejected]
      finished := by simp [hfinished]
      terminal := by simp [hhandles]
      ended := by simp
      newHandles := by simp
      named := fun task' htask job hjob => by
        rw [hleft, Multiset.mem_coe] at htask
        rw [hnamed task' htask] at hjob
        cases hjob
      callbacks := fun k _ job hjob => .inl (by simpa [hhandles] using hjob) }

theorem beginShutdown_moved (hok : s.queue.Ok) (now : ℚ) :
    Moved s .beginShutdown (s.beginShutdown now) { withdrawn := (s.queue.drain now).2 } := by
  obtain ⟨hflow, -, hnext⟩ := FairPendingQueue.drain_flow hok now
  refine withdrawn_moved ⟨⟨rfl, rfl, rfl, rfl⟩, rfl, rfl⟩ hflow hnext ⟨rfl, rfl, rfl, rfl, rfl⟩ ?_ ?_ ?_ ?_
  · simp [List.filterMap_append, List.filterMap_map, Function.comp_def, ExecutorTask.slotJob]
  · simp only [List.filterMap_append, List.filterMap_map, Function.comp_def, ExecutorTask.owner]
    simp [FairPendingQueue.drain]
  · simp [List.filterMap_append, List.filterMap_map, Function.comp_def, ExecutorTask.undecided]
  · intro task' htask
    rcases List.mem_append.mp htask with htask | htask
    · obtain ⟨job, -, rfl⟩ := List.mem_map.mp htask
      rfl
    · obtain ⟨h, -, rfl⟩ := List.mem_map.mp htask
      rfl

/-- What the cancel callback of an accepted job takes out is that job. -/
theorem cancelStreamJob_moved (h : Ok s (task ::ₘ bag)) {job : SchedulerJob} {holding : Bool}
    (htask : task = .cancelStreamJob job holding) (now : ℚ) :
    ∃ t, Moved s task (s.cancelStreamJob job now) t := by
  subst htask
  rcases FairPendingQueue.remove_flow h.queue job now with ⟨heq, -⟩ | ⟨found, q', heq, hticket, hflow, hnext⟩
  · refine ⟨{}, Still.moved ?_ h.queue⟩
    unfold cancelStreamJob
    rw [heq]
    exact .of_handles rfl ⟨rfl, rfl, rfl, rfl⟩ (fun _ => ⟨rfl, fun _ => .inl⟩) (.nil rfl rfl rfl)
  · have hjob : job ∈ s.accepted := h.named _ (Multiset.mem_cons_self _ _) job rfl
    have hfound : found ∈ s.accepted := by
      refine h.mem_accepted_of_pending ((hflow.mem_left (by simp)).resolve_right (by simp))
    obtain rfl : found = job := h.eq_of_jobId hfound hjob (congrArg Prod.snd hticket)
    refine ⟨{ withdrawn := ([found] : List SchedulerJob) }, ?_⟩
    unfold cancelStreamJob
    rw [heq]
    exact withdrawn_moved ⟨⟨rfl, rfl, rfl, rfl⟩, rfl, rfl⟩ hflow hnext ⟨rfl, rfl, rfl, rfl, rfl⟩ rfl rfl rfl
      (by simp [ExecutorTask.named])

/-- `_finish` ends the handle its thread owns. -/
theorem finish_moved (h : Ok s (task ::ₘ bag)) {k : HandleId} {event : Option StreamEvent}
    {error : Option EngineError} (htask : task = .finish k event error) :
    Moved s task (s.finish k event error) { finished := [k] } := by
  subst htask
  have hspec := SynthesisHandle.finish_spec (s.handles k) event error
  have hk : k < s.nextHandle := by
    have howned : k ∈ owned (.finish k event error ::ₘ bag) + s.finished := by simp [ExecutorTask.owner]
    obtain ⟨job, hjob, rfl⟩ := h.exists_job howned
    exact h.lt_of_accepted hjob
  exact
    { config := ⟨rfl, rfl, rfl, rfl⟩
      queue := .refl h.queue
      nextJobId := rfl
      one := Nat.zero_le 1
      jobId := by simp
      activeHandles := rfl
      inflight := rfl
      room := le_max_left _ _
      slots := rfl
      owned := rfl
      undecided := rfl
      handles := (add_zero _).symm
      accepted := (List.append_nil _).symm
      rejected := (List.append_nil _).symm
      finished := rfl
      terminal := fun other _ => by
        by_cases hother : other = k
        · subst hother
          simpa [finish, setHandle] using hspec.1
        · simp [finish, setHandle, hother]
      ended := by simpa using hk
      newHandles := by simp
      named := fun task' htask job hjob => by
        obtain rfl : task' = .runTerminalCallbacks k ((s.handles k).finish event error).2 := by
          simpa [finish, Effect.left] using htask
        cases hjob
      callbacks := fun other _ job hjob => by
        refine .inl ?_
        by_cases hother : other = k
        · subst hother
          rw [← hspec.2]
          simpa [finish, setHandle] using hjob
        · simpa [finish, setHandle, hother] using hjob }

/-- A running job is not pending. -/
theorem Ok.not_mem_slots (h : Ok s bag) {job : SchedulerJob} (hjob : job ∈ s.queue.pendingJobs) :
    job ∉ slots bag := by
  intro hslot
  have hplaces := h.places (h.mem_accepted_of_pending hjob)
  have hpending := Multiset.count_pos.mpr (Multiset.mem_map_of_mem SchedulerJob.streamHandle hjob)
  have hactive := Multiset.count_pos.mpr (Multiset.mem_map_of_mem SchedulerJob.streamHandle hslot)
  omega

/-- No entry of `_active_stream_handles` has the id of a pending job. -/
theorem Ok.get?_activeStreamHandles (h : Ok s bag) {job : SchedulerJob} (hjob : job ∈ s.queue.pendingJobs) :
    s.executor.activeStreamHandles.get? job.jobId = none := by
  rw [Dict.get?_eq_none_iff]
  intro handle hentry
  have hmem : (job.jobId, handle) ∈ (slots bag).map SchedulerJob.entry := by
    rw [← h.activeHandles]
    exact hentry
  obtain ⟨other, hother, heq⟩ := Multiset.mem_map.mp hmem
  obtain rfl : other = job :=
    h.eq_of_jobId (h.mem_accepted_of_slot hother) (h.mem_accepted_of_pending hjob) (congrArg Prod.fst heq)
  exact h.not_mem_slots hjob hother

/-- The entry of a running job. -/
theorem Ok.get?_of_slot (h : Ok s bag) {job : SchedulerJob} (hjob : job ∈ slots bag) :
    s.executor.activeStreamHandles.get? job.jobId = some job.streamHandle := by
  rw [Dict.get?_eq_some_iff]
  have hmem : job.entry ∈ (s.executor.activeStreamHandles.entries : Multiset (ℕ × HandleId)) := by
    rw [h.activeHandles]
    exact Multiset.mem_map_of_mem _ hjob
  exact hmem

/-- **The guards are idle.**  While a task holds a slot the count is not zero. -/
theorem Ok.inflight_pos (h : Ok s bag) {job : SchedulerJob} (hjob : job ∈ slots bag) :
    0 < s.executor.runtimeInflight := h.inflight ▸ Multiset.card_pos_iff_exists_mem.mpr ⟨job, hjob⟩

/-- A slot given back: the job leaves the three tables, and the thread owns its
handle. -/
theorem released_moved (h : Ok s (task ::ₘ bag)) {job : SchedulerJob} {queue : FairPendingQueue}
    {task' : ExecutorTask} (hslot : task.slotJob = some job) (howner : task.owner = none)
    (hundecided : task.undecided = none)
    (hflow : s.queue.Flow 0 0 0 {job.ticket} queue) (hnext : queue.nextJobId = s.queue.nextJobId)
    (hslot' : task'.slotJob = none) (howner' : task'.owner = some job.streamHandle)
    (hundecided' : task'.undecided = none) (hnamed : task'.named = none) :
    Moved s task { state := (s.releaseSlot job queue).notifyAll, next := [task'] }
      { released := {job} } := by
  have hjob : job ∈ slots (task ::ₘ bag) := by
    rw [slots, Multiset.filterMap_cons_some _ _ _ hslot]
    exact Multiset.mem_cons_self _ _
  have hpos := h.inflight_pos hjob
  have hleft : Effect.left { state := (s.releaseSlot job queue).notifyAll, next := [task'] } =
      ({task'} : Multiset ExecutorTask) := by simp [Effect.left]
  have herase := Dict.sum_erase (h.get?_of_slot hjob) fun id handle => ({(id, handle)} : Multiset (ℕ × HandleId))
  simp only [Dict.sum_singleton] at herase
  exact
    { config := ⟨rfl, rfl, rfl, rfl⟩
      queue := hflow
      nextJobId := hnext
      one := Nat.zero_le 1
      jobId := by simp
      activeHandles := by simpa [notifyAll, releaseSlot, SchedulerJob.entry] using herase
      inflight := by
        simp only [notifyAll, releaseSlot, hpos, if_true, Multiset.card_singleton, Multiset.card_zero]
        omega
      room := by
        simp only [notifyAll, releaseSlot, hpos, if_true]
        omega
      slots := by simp [hleft, filterMap_singleton, hslot, hslot']
      owned := by simp [hleft, filterMap_singleton, howner, howner']
      undecided := by simp [hleft, filterMap_singleton, hundecided, hundecided']
      handles := (add_zero _).symm
      accepted := (List.append_nil _).symm
      rejected := (List.append_nil _).symm
      finished := (List.append_nil _).symm
      terminal := by simp [notifyAll, releaseSlot]
      ended := by simp
      newHandles := by simp
      named := fun task'' htask other hother => by
        obtain rfl : task'' = task' := by simpa [hleft] using htask
        rw [hnamed] at hother
        cases hother
      callbacks := fun _ _ _ => .inl }

/-- The ticket of a running job is active in the queue. -/
theorem Ok.ticket_mem (h : Ok s bag) {job : SchedulerJob} (hjob : job ∈ slots bag) :
    job.ticket ∈ s.queue.activeTickets := h.active ▸ Multiset.mem_map_of_mem _ hjob

theorem abandonJob_moved (h : Ok s (task ::ₘ bag)) {job : SchedulerJob} {error : EngineError}
    (htask : task = .abandonJob job error) (now : ℚ) :
    Moved s task (s.abandonJob job error now) { released := {job} } := by
  subst htask
  have hticket : job.ticket ∈ s.queue.activeTickets := h.ticket_mem (by simp [slots, ExecutorTask.slotJob])
  obtain ⟨-, hflow⟩ := (FairPendingQueue.abandon_flow h.queue job now).resolve_right fun hno => hno.1 hticket
  exact released_moved h rfl rfl rfl hflow rfl rfl rfl rfl rfl

/-- `complete` issues no id. -/
theorem nextJobId_complete (q : FairPendingQueue) (job : SchedulerJob) (serviceMs now : ℚ) :
    (q.complete job serviceMs now).nextJobId = q.nextJobId := by
  unfold FairPendingQueue.complete
  split
  · rfl
  · split <;> rfl

theorem release_moved (h : Ok s (task ::ₘ bag)) {job : SchedulerJob} {backendStartedAt backendFinishedAt : ℚ}
    {outcome : Except EngineError RuntimeStreamResult}
    (htask : task = .release job backendStartedAt backendFinishedAt outcome) :
    Moved s task (s.release job backendStartedAt backendFinishedAt outcome) { released := {job} } := by
  subst htask
  have hticket : job.ticket ∈ s.queue.activeTickets := h.ticket_mem (by simp [slots, ExecutorTask.slotJob])
  obtain ⟨-, hflow⟩ := (FairPendingQueue.complete_flow h.queue job
    (max 0 ((backendFinishedAt - backendStartedAt) * 1000)) backendFinishedAt).resolve_right
      fun hno => hno.1 hticket
  have hnext := nextJobId_complete s.queue job (max 0 ((backendFinishedAt - backendStartedAt) * 1000))
    backendFinishedAt
  cases outcome with
  | error error => exact released_moved h rfl rfl rfl hflow hnext rfl rfl rfl rfl
  | ok result => exact released_moved h rfl rfl rfl hflow hnext rfl rfl rfl rfl

/-- A job dispatched: the dispatcher holds its slot. -/
theorem dispatched_moved (h : Ok s (task ::ₘ bag)) (htask : task = .runLoop ∨ task = .parked)
    {job : SchedulerJob} {queue : FairPendingQueue} {dispatcher : Dispatcher} {now : ℚ}
    (hflow : s.queue.Flow 0 {job} {job.ticket} 0 queue) (hnext : queue.nextJobId = s.queue.nextJobId)
    (hroom : s.executor.runtimeInflight < s.executor.effectiveTargetInflight) :
    Moved s task
      { state := { s with
          dispatcher := dispatcher
          executor := { s.executor with
            pendingQueue := queue
            runtimeInflight := s.executor.runtimeInflight + 1
            activeStreamHandles := s.executor.activeStreamHandles.set job.jobId job.streamHandle } }
        next := [.startWorker job now, .runLoop] } { dispatched := {job} } := by
  have hjob : job ∈ s.queue.pendingJobs := (hflow.mem_left (by simp)).resolve_right (by simp)
  have hnone := h.get?_activeStreamHandles hjob
  have hset := Dict.sum_set_new hnone (fun id handle => ({(id, handle)} : Multiset (ℕ × HandleId)))
    job.streamHandle
  simp only [Dict.sum_singleton] at hset
  exact
    { config := ⟨rfl, rfl, rfl, rfl⟩
      queue := hflow
      nextJobId := hnext
      one := Nat.zero_le 1
      jobId := by simp
      activeHandles := by simpa [SchedulerJob.entry] using hset
      inflight := rfl
      room := by
        simp only
        omega
      slots := by rcases htask with rfl | rfl <;> rfl
      owned := by rcases htask with rfl | rfl <;> rfl
      undecided := by rcases htask with rfl | rfl <;> rfl
      handles := (add_zero _).symm
      accepted := (List.append_nil _).symm
      rejected := (List.append_nil _).symm
      finished := (List.append_nil _).symm
      terminal := by simp
      ended := by simp
      newHandles := by simp
      named := fun task' htask' other hother => by
        have htask' : task' = .startWorker job now ∨ task' = .runLoop := by
          simpa [Effect.left] using htask'
        rcases htask' with rfl | rfl <;> cases hother
      callbacks := fun _ _ _ => .inl }

/-- One pass of the dispatcher. -/
theorem runLoop_moved (h : Ok s (task ::ₘ bag)) (htask : task = .runLoop ∨ task = .parked)
    (dispatcher : Dispatcher) (now : ℚ) :
    ∃ t, Moved s task (({ s with dispatcher := dispatcher } : ExecutorState).runLoop now) t := by
  have hslot : task.slotJob = none := by rcases htask with rfl | rfl <;> rfl
  have howner : task.owner = none := by rcases htask with rfl | rfl <;> rfl
  have hundecided : task.undecided = none := by rcases htask with rfl | rfl <;> rfl
  unfold runLoop
  split_ifs with hend hroom
  · exact ⟨{}, Still.moved (.of_handles rfl ⟨rfl, rfl, rfl, rfl⟩ (fun _ => ⟨rfl, fun _ => .inl⟩)
      (.nil hslot howner hundecided)) h.queue⟩
  · rcases FairPendingQueue.popNext_flow h.queue now with ⟨q', heq, -, hflow, hnext⟩ |
      ⟨job, q', heq, hflow, hnext⟩
    · refine ⟨{}, Still.moved ?_ h.queue⟩
      have hpop : ({ s with dispatcher := dispatcher } : ExecutorState).queue.popNext now = (q', none) := heq
      rw [hpop]
      exact ⟨rfl, fun _ => hflow, hnext, rfl, rfl, rfl, rfl, fun _ => rfl, fun _ _ => .inl,
        .single hslot.symm howner.symm hundecided.symm (by simp [ExecutorTask.named])⟩
    · refine ⟨{ dispatched := {job} }, ?_⟩
      have hpop : ({ s with dispatcher := dispatcher } : ExecutorState).queue.popNext now = (q', some job) := heq
      rw [hpop]
      exact dispatched_moved h htask hflow hnext hroom.2
  · exact ⟨{}, Still.moved (.of_handles rfl ⟨rfl, rfl, rfl, rfl⟩ (fun _ => ⟨rfl, fun _ => .inl⟩)
      (.single hslot.symm howner.symm hundecided.symm (by simp [ExecutorTask.named]))) h.queue⟩

/-- A terminal callback added. -/
theorem addTerminalCallback_still (k : HandleId) (callback : TerminalCallback) :
    Still s (.addTerminalCallback k callback) (s.addTerminalCallback k callback) := by
  have hspec := SynthesisHandle.addTerminalCallback_spec (s.handles k) callback
  refine .of_handles rfl ⟨rfl, rfl, rfl, rfl⟩ (fun other => ?_) ?_
  · by_cases hother : other = k
    · subst hother
      refine ⟨by simpa [addTerminalCallback, setHandle] using hspec.1, fun job hjob => .inl ?_⟩
      rw [← hspec.2]
      simpa [addTerminalCallback, setHandle] using hjob
    · simpa [addTerminalCallback, setHandle, hother] using fun _ => .inl
  · simp only [addTerminalCallback, Effect.left]
    split_ifs
    · exact .single rfl rfl rfl fun _ => .inl
    · exact .nil rfl rfl rfl

/-- A call of a terminal callback moves nothing in the executor. -/
theorem callBack_still (k : HandleId) (callback : TerminalCallback) {next : List ExecutorTask}
    (htasks : PassesOn s task (Effect.left { state := s.callBack k callback, next := next })) :
    Still s task { state := s.callBack k callback, next := next } := by
  cases callback <;>
    exact .of_handles rfl ⟨rfl, rfl, rfl, rfl⟩ (fun _ => ⟨rfl, fun _ => .inl⟩) htasks

/-- **Every task hands over what it says.** -/
theorem Ok.moved (h : Ok s (task ::ₘ bag)) (hrun : s.run task input = some e) : ∃ t, Moved s task e t := by
  cases ran_of_run hrun with
  | quiet hquiet => exact ⟨{}, hquiet.toStill.moved h.queue⟩
  | openStream request spec now => exact ⟨_, openStream_moved h.queue request spec now⟩
  | enqueueStream request k now => exact enqueueStream_moved h.queue request k now
  | raised k error => exact ⟨{}, (callBack_still k _ (.nil rfl rfl rfl)).moved h.queue⟩
  | beginShutdown now => exact ⟨_, beginShutdown_moved h.queue now⟩
  | addTerminalCallback k callback => exact ⟨{}, (addTerminalCallback_still k callback).moved h.queue⟩
  | cancelStreamJob job holding now => exact cancelStreamJob_moved h rfl now
  | finish k event error => exact ⟨_, finish_moved h rfl⟩
  | runTerminalCallbacks k callback callbacks =>
    have htasks : PassesOn s (.runTerminalCallbacks k (callback :: callbacks))
        {.runTerminalCallbacks k callbacks} := .single rfl rfl rfl fun _ => .inl
    exact ⟨{}, (callBack_still k callback htasks).moved h.queue⟩
  | runLoop dispatcher _ htask now => exact runLoop_moved h htask dispatcher now
  | abandonJob job error now => exact ⟨_, abandonJob_moved h rfl now⟩
  | release job backendStartedAt backendFinishedAt outcome => exact ⟨_, release_moved h rfl⟩

/-- **A run of a task keeps the invariant.** -/
theorem Ok.run (h : Ok s (task ::ₘ bag)) (hrun : s.run task input = some e) : Ok e.state (e.left + bag) := by
  obtain ⟨t, hm⟩ := h.moved hrun
  exact h.step hm

/-- A task that holds nothing: no slot, no handle, no request, no job. -/
structure Idle (task : ExecutorTask) : Prop where
  slot : task.slotJob = none
  owner : task.owner = none
  undecided : task.undecided = none
  named : task.named = none

/-- A call that comes in, or a thread that is started, holds nothing yet. -/
theorem Ok.spawn (h : Ok s bag) (hidle : Idle task) : Ok s (task ::ₘ bag) := by
  have hslots : slots (task ::ₘ bag) = slots bag := Multiset.filterMap_cons_none _ _ hidle.slot
  have howned : owned (task ::ₘ bag) = owned bag := Multiset.filterMap_cons_none _ _ hidle.owner
  have hundecided : undecided (task ::ₘ bag) = undecided bag :=
    Multiset.filterMap_cons_none _ _ hidle.undecided
  refine ⟨h.queue, ?_, ?_, ?_, h.capacity, ?_, ?_, ?_, h.ids, h.fresh, h.terminal, ?_, h.callbacks⟩
  · rw [hslots, h.active]
  · rw [hslots, h.activeHandles]
  · rw [hslots, h.inflight]
  · rw [hslots]
    exact h.jobs
  · rw [hslots, howned, h.custody]
  · rw [hundecided, h.decided]
  · intro task' htask job hjob
    rcases Multiset.mem_cons.mp htask with rfl | htask
    · rw [hidle.named] at hjob
      cases hjob
    · exact h.named task' htask job hjob

theorem Idle.of_entry (hentry : task.entry = true) : Idle task := by
  cases task <;> first | exact ⟨rfl, rfl, rfl, rfl⟩ | cases hentry

/-- A new executor, not started. -/
theorem Ok.init (modelName : String) (streaming : Bool) (configuredTargetInflight : ℤ)
    (settings : FairnessSettings) (runtimeCapability : ℤ) :
    Ok (.init (.new modelName streaming configuredTargetInflight settings runtimeCapability)) 0 where
  queue := FairPendingQueue.init_ok modelName settings
  active := rfl
  activeHandles := rfl
  inflight := rfl
  capacity := Nat.zero_le _
  jobs := fun _ hjob => absurd hjob (Multiset.notMem_zero _)
  custody := rfl
  decided := rfl
  ids := List.Pairwise.nil
  fresh := fun _ hjob => absurd hjob List.not_mem_nil
  terminal := fun h hlt => absurd hlt (Nat.not_lt_zero h)
  named := fun _ htask => absurd htask (Multiset.notMem_zero _)
  callbacks := fun h hlt => absurd hlt (Nat.not_lt_zero h)

end ExecutorState
end TtsPool
