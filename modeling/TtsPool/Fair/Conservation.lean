/-
# Where every job is

`History` runs the queue and keeps beside it what its callers have seen: the
jobs `enqueue` returned, the jobs `pop_next` returned, the tickets whose
`complete` or `abandon` released an active job, the tickets whose `remove`
answered `True`, the jobs `drain` returned.  A call may name any job at all,
stale or never issued; only a call that finds its job counts.

`History.Ok` balances the books: the pending, active, completed, abandoned,
removed and drained tickets together are the admitted ones, each with its
multiplicity.  The admitted ids increase strictly, so every multiplicity is
one (`jobs_conserved`).  Within a key the popped ids stay below the pending
ones, which stay below the ids still to come, whether or not the key's state
expired in between; that is the FIFO part of the theorem.
-/

import TtsPool.Fair.Invariant

namespace TtsPool

/-- The queue with what its callers have seen of it. -/
structure History where
  queue : FairPendingQueue
  admitted : List SchedulerJob := []
  popped : List SchedulerJob := []
  completed : List Ticket := []
  abandoned : List Ticket := []
  removed : List Ticket := []
  drained : List SchedulerJob := []

/-- Where a job can be. -/
inductive Place where
  | pending
  | active
  | completed
  | abandoned
  | removed
  | drained
deriving DecidableEq

namespace History

/-- One call, entered in the books. -/
def step (h : History) (c : QueueCall) : History :=
  let (queue, reply) := h.queue.perform c
  let h' := { h with queue := queue }
  match reply with
  | .enqueued (.ok job) => { h' with admitted := h.admitted ++ [job] }
  | .popped (some job) => { h' with popped := h.popped ++ [job] }
  | .drained jobs => { h' with drained := h.drained ++ jobs }
  | .removed true =>
    match c.op with
    | .remove job => { h' with removed := h.removed ++ [job.ticket] }
    | _ => h'
  | .done =>
    match c.op with
    | .complete job _ =>
      if job.ticket ∈ h.queue.activeTickets then { h' with completed := h.completed ++ [job.ticket] } else h'
    | .abandon job =>
      if job.ticket ∈ h.queue.activeTickets then { h' with abandoned := h.abandoned ++ [job.ticket] } else h'
    | _ => h'
  | _ => h'

/-- The books of a queue that has not been called yet. -/
def init (modelName : String) (settings : FairnessSettings) : History :=
  { queue := .init modelName settings }

/-- The books after a sequence of calls. -/
def run (h : History) (calls : List QueueCall) : History := calls.foldl step h

/-- The tickets in each place: the pending and the active ones under the key
whose state holds them. -/
def held (h : History) : Place → Multiset Ticket
  | .pending => h.queue.pendingTickets
  | .active => h.queue.activeTickets
  | .completed => h.completed
  | .abandoned => h.abandoned
  | .removed => h.removed
  | .drained => h.drained.map SchedulerJob.ticket

/-- The books balance, and the ids are in order. -/
structure Ok (h : History) : Prop where
  queue : h.queue.Ok
  balance : h.held .pending + h.held .active + h.held .completed + h.held .abandoned +
    h.held .removed + h.held .drained = (h.admitted.map SchedulerJob.ticket : Multiset Ticket)
  increasing : (h.admitted.map SchedulerJob.jobId).Pairwise (· < ·)
  fresh : ∀ job ∈ h.admitted, job.jobId < h.queue.nextJobId
  pending : ∀ job ∈ h.queue.pendingJobs, job ∈ h.admitted
  issued : ∀ job ∈ h.popped ++ h.drained, job ∈ h.admitted
  fifo : h.popped.Pairwise fun a b => a.fairnessKey = b.fairnessKey → a.jobId < b.jobId
  ahead : ∀ job ∈ h.popped, ∀ other ∈ h.queue.pendingJobs,
    job.fairnessKey = other.fairnessKey → job.jobId < other.jobId

end History

namespace FairPendingQueue

/-- Under the invariant the bucket of a pending job is the one of its own key. -/
theorem pendingTickets_eq {q : FairPendingQueue} (h : q.Ok) :
    q.pendingTickets = q.pendingJobs.map SchedulerJob.ticket := by
  have hmap : ∀ es : List (FairnessKey × FairnessState),
      (es.map fun e => (e.2.pendingJobs : Multiset SchedulerJob)).sum.map SchedulerJob.ticket =
        (es.map fun e => (↑(e.2.pendingJobs.map SchedulerJob.ticket) : Multiset Ticket)).sum := by
    intro es
    induction es with
    | nil => rfl
    | cons e es ih => simp [ih]
  unfold pendingTickets pendingJobs Dict.sum
  rw [hmap]
  refine congrArg List.sum (List.map_congr_left fun e he => ?_)
  have hown := (h.states e.1 e.2 (Dict.get?_eq_some_iff.mpr he)).own
  refine congrArg _ (List.map_congr_left fun job hjob => ?_)
  exact Prod.ext (hown job hjob).symm rfl

/-- The tickets move as the jobs do. -/
theorem Flow.tickets {q q' : FairPendingQueue} {came left : Multiset SchedulerJob}
    {started stopped : Multiset Ticket} (h : q.Ok) (hf : q.Flow came left started stopped q') :
    q'.pendingTickets + left.map SchedulerJob.ticket =
      q.pendingTickets + came.map SchedulerJob.ticket := by
  rw [pendingTickets_eq h, pendingTickets_eq hf.ok, ← Multiset.map_add, ← Multiset.map_add, hf.pending]

/-- What is pending after a flow was pending before it, or came. -/
theorem Flow.mem_pending {q q' : FairPendingQueue} {came left : Multiset SchedulerJob}
    {started stopped : Multiset Ticket} (hf : q.Flow came left started stopped q')
    {job : SchedulerJob} (hjob : job ∈ q'.pendingJobs) : job ∈ q.pendingJobs ∨ job ∈ came := by
  have : job ∈ q'.pendingJobs + left := Multiset.mem_add.mpr (.inl hjob)
  rwa [hf.pending, Multiset.mem_add] at this

/-- What left was pending before, or came. -/
theorem Flow.mem_left {q q' : FairPendingQueue} {came left : Multiset SchedulerJob}
    {started stopped : Multiset Ticket} (hf : q.Flow came left started stopped q')
    {job : SchedulerJob} (hjob : job ∈ left) : job ∈ q.pendingJobs ∨ job ∈ came := by
  have : job ∈ q'.pendingJobs + left := Multiset.mem_add.mpr (.inr hjob)
  rwa [hf.pending, Multiset.mem_add] at this

/-- **The oldest first.**  What stays pending under the key of the popped job
has a larger id. -/
theorem popNext_oldest {q q' : FairPendingQueue} (h : q.Ok) {now : ℚ} {job : SchedulerJob}
    (hpop : q.popNext now = (q', some job)) {other : SchedulerJob} (hother : other ∈ q'.pendingJobs)
    (hkey : job.fairnessKey = other.fairnessKey) : job.jobId < other.jobId := by
  have hx := expireIdleStates_ok h now
  have hq' : q'.Ok := by
    rcases popNext_flow h now with ⟨p, hp, -⟩ | ⟨j, p, hp, hf, -⟩
    · simp [hp] at hpop
    · obtain ⟨rfl, -⟩ := Prod.mk.inj (hp.symm.trans hpop)
      exact hf.ok
  unfold popNext at hpop
  simp only at hpop
  cases hsel : (q.expireIdleStates now).selected now with
  | none => simp [hsel] at hpop
  | some found =>
    obtain ⟨key, state⟩ := found
    obtain ⟨hs, -, -⟩ := selected_spec hsel
    cases hp : state.pendingJobs with
    | nil => simp [hsel, hp] at hpop
    | cons first rest =>
      simp only [hsel, hp, Prod.mk.injEq, Option.some.injEq] at hpop
      obtain ⟨rfl, rfl⟩ := hpop
      have hok := hx.states key state hs
      obtain ⟨k, s, hk, hmem⟩ := Dict.mem_sum.mp hother
      have hsame : k = key := by
        rw [← (hq'.states k s hk).own other hmem, ← hkey]
        exact hok.own first (by simp [hp])
      subst hsame
      simp only [dispatch, Dict.get?_set_self, Option.some.injEq] at hk
      subst hk
      have hfifo := hok.fifo
      rw [hp, List.map_cons, List.pairwise_cons] at hfifo
      exact hfifo.1 _ (List.mem_map_of_mem hmem)

end FairPendingQueue

namespace History

open FairPendingQueue

theorem init_ok (modelName : String) (settings : FairnessSettings) : (init modelName settings).Ok where
  queue := FairPendingQueue.init_ok modelName settings
  balance := rfl
  increasing := List.Pairwise.nil
  fresh := by simp [init]
  pending := by simp [init, FairPendingQueue.init, pendingJobs, Dict.sum]
  issued := by simp [init]
  fifo := List.Pairwise.nil
  ahead := by simp [init]

/-- The tickets a caller has been given back for good. -/
def closed (h : History) : Multiset Ticket :=
  h.held .completed + h.held .abandoned + h.held .removed + h.held .drained

/-- A call that issues and pops nothing keeps the order of the ids, whatever it
takes out, and the balance, if what it takes out it enters in the books. -/
theorem Ok.keep {h h' : History} (hok : h.Ok) {left : Multiset SchedulerJob}
    {started stopped : Multiset Ticket} (hf : h.queue.Flow 0 left started stopped h'.queue)
    (hadmitted : h'.admitted = h.admitted) (hpopped : h'.popped = h.popped)
    (hdrained : ∀ job ∈ h'.drained, job ∈ h.drained ∨ job ∈ left)
    (hclosed : h'.closed + started = h.closed + (left.map SchedulerJob.ticket + stopped)) : h'.Ok where
  queue := hf.ok
  balance := by
    refine Multiset.ext.mpr fun ticket => ?_
    have hb := congrArg (Multiset.count ticket) hok.balance
    have ht := congrArg (Multiset.count ticket) (hf.tickets hok.queue)
    have ha := congrArg (Multiset.count ticket) hf.active
    have hc := congrArg (Multiset.count ticket) hclosed
    rw [hadmitted]
    simp only [closed, held, Multiset.map_zero, Multiset.count_add, Multiset.count_zero] at hb ht ha hc ⊢
    omega
  increasing := hadmitted ▸ hok.increasing
  fresh := fun job hjob => (hok.fresh job (hadmitted ▸ hjob)).trans_le hf.grows.nextJobId
  pending := fun job hjob => by
    rw [hadmitted]
    exact hok.pending job ((hf.mem_pending hjob).resolve_right (by simp))
  issued := fun job hjob => by
    rw [hadmitted]
    rcases List.mem_append.mp hjob with hjob | hjob
    · exact hok.issued job (List.mem_append_left _ (hpopped ▸ hjob))
    · rcases hdrained job hjob with hjob | hjob
      · exact hok.issued job (List.mem_append_right _ hjob)
      · exact hok.pending job ((hf.mem_left hjob).resolve_right (by simp))
  fifo := hpopped ▸ hok.fifo
  ahead := fun job hjob other hother =>
    hok.ahead job (hpopped ▸ hjob) other ((hf.mem_pending hother).resolve_right (by simp))

/-- An admitted job is the youngest of all. -/
theorem Ok.enqueued {h h' : History} (hok : h.Ok) {job : SchedulerJob}
    (hf : h.queue.Flow {job} 0 0 0 h'.queue) (hid : job.jobId = h.queue.nextJobId)
    (hnext : h'.queue.nextJobId = h.queue.nextJobId + 1)
    (hh : h' = { h with queue := h'.queue, admitted := h.admitted ++ [job] }) : h'.Ok := by
  have ht := hf.tickets hok.queue
  have hactive : h'.queue.activeTickets = h.queue.activeTickets := by simpa using hf.active
  rw [hh] at ht hactive hf hnext ⊢
  simp only [Multiset.map_zero, add_zero] at ht hactive hf hnext
  refine ⟨hf.ok, ?_, ?_, ?_, ?_, ?_, hok.fifo, ?_⟩
  · have hb := hok.balance
    simp only [held] at hb ⊢
    rw [hactive, ht, List.map_append, ← Multiset.coe_add, ← hb]
    refine Multiset.ext.mpr fun ticket => ?_
    simp only [Multiset.count_add, Multiset.map_singleton, List.map_cons, List.map_nil,
      Multiset.coe_singleton]
    omega
  · rw [List.map_append, List.pairwise_append]
    refine ⟨hok.increasing, by simp, ?_⟩
    intro a ha b hb
    obtain ⟨first, hfirst, rfl⟩ := List.mem_map.mp ha
    obtain rfl : b = job.jobId := by simpa using hb
    exact hid ▸ hok.fresh first hfirst
  · intro a ha
    rw [hnext]
    rcases List.mem_append.mp ha with ha | ha
    · exact (hok.fresh a ha).trans (Nat.lt_succ_self _)
    · obtain rfl := List.mem_singleton.mp ha
      exact hid ▸ Nat.lt_succ_self _
  · intro a ha
    rcases hf.mem_pending ha with ha | ha
    · exact List.mem_append_left _ (hok.pending a ha)
    · exact List.mem_append_right _ (by simpa using ha)
  · exact fun a ha => List.mem_append_left _ (hok.issued a ha)
  · intro a ha b hb hkey
    rcases hf.mem_pending hb with hb | hb
    · exact hok.ahead a ha b hb hkey
    · obtain rfl := Multiset.mem_singleton.mp hb
      rw [hid]
      exact hok.fresh a (hok.issued a (List.mem_append_left _ ha))

/-- A popped job is older than what stays pending under its key, and younger
than what its key popped before. -/
theorem Ok.popped_next {h h' : History} (hok : h.Ok) {now : ℚ} {job : SchedulerJob}
    (hpop : h.queue.popNext now = (h'.queue, some job))
    (hf : h.queue.Flow 0 {job} {job.ticket} 0 h'.queue)
    (hh : h' = { h with queue := h'.queue, popped := h.popped ++ [job] }) : h'.Ok := by
  have ht := hf.tickets hok.queue
  have hactive := hf.active
  have hjob : job ∈ h.queue.pendingJobs := (hf.mem_left (by simp)).resolve_right (by simp)
  rw [hh] at ht hactive hf hpop ⊢
  simp only [Multiset.map_zero, add_zero, Multiset.map_singleton] at ht hactive hf hpop
  refine ⟨hf.ok, ?_, hok.increasing, ?_, ?_, ?_, ?_, ?_⟩
  · have hb := hok.balance
    simp only [held] at hb ⊢
    rw [← hb, ← ht, hactive]
    refine Multiset.ext.mpr fun ticket => ?_
    simp only [Multiset.count_add]
    omega
  · exact fun a ha => (hok.fresh a ha).trans_le hf.grows.nextJobId
  · exact fun a ha => hok.pending a ((hf.mem_pending ha).resolve_right (by simp))
  · intro a ha
    simp only [List.mem_append, List.mem_singleton] at ha
    rcases ha with (ha | rfl) | ha
    · exact hok.issued a (List.mem_append_left _ ha)
    · exact hok.pending a hjob
    · exact hok.issued a (List.mem_append_right _ ha)
  · rw [List.pairwise_append]
    refine ⟨hok.fifo, by simp, ?_⟩
    intro a ha b hb hkey
    obtain rfl := List.mem_singleton.mp hb
    exact hok.ahead a ha b hjob hkey
  · intro a ha b hb hkey
    rcases List.mem_append.mp ha with ha | ha
    · exact hok.ahead a ha b ((hf.mem_pending hb).resolve_right (by simp)) hkey
    · obtain rfl := List.mem_singleton.mp ha
      exact popNext_oldest hok.queue hpop hb hkey

/-- **Every call keeps the books.** -/
theorem step_ok {h : History} (hok : h.Ok) (c : QueueCall) : (h.step c).Ok := by
  obtain ⟨op, now⟩ := c
  -- a call that moves no job at all
  have still : ∀ {q'}, h.queue.Flow 0 0 0 0 q' → History.Ok { h with queue := q' } := fun hf =>
    hok.keep hf rfl rfl (fun _ => .inl) (by simp [closed, held])
  cases op with
  | enqueue request streamHandle =>
    rcases enqueue_flow hok.queue request streamHandle now with ⟨e, q', heq, hf, -⟩ | ⟨q', heq, hf, hn⟩
    · simpa [step, perform, heq] using still hf
    · simp only [step, perform, heq]
      exact hok.enqueued hf rfl hn rfl
  | remove job =>
    rcases remove_flow hok.queue job now with ⟨heq, -⟩ | ⟨found, q', heq, hticket, hf, -⟩
    · simpa [step, perform, heq] using hok
    · simp only [step, perform, heq]
      refine hok.keep hf rfl rfl (fun _ => .inl) ?_
      rw [Multiset.map_singleton, hticket, add_zero, add_zero, closed, closed]
      simp only [held, ← Multiset.coe_add, Multiset.coe_singleton]
      abel
  | popNext =>
    rcases popNext_flow hok.queue now with ⟨q', heq, -, hf, -⟩ | ⟨job, q', heq, hf, -⟩
    · simpa [step, perform, heq] using still hf
    · simp only [step, perform, heq]
      exact hok.popped_next heq hf rfl
  | complete job serviceMs =>
    rcases complete_flow hok.queue job serviceMs now with ⟨hm, hf⟩ | ⟨hm, heq⟩
    · simp only [step, perform, hm, if_true]
      refine hok.keep hf rfl rfl (fun _ => .inl) ?_
      rw [Multiset.map_zero, add_zero, zero_add, closed, closed]
      simp only [held, ← Multiset.coe_add, Multiset.coe_singleton]
      abel
    · simpa [step, perform, hm, heq] using hok
  | abandon job =>
    rcases abandon_flow hok.queue job now with ⟨hm, hf⟩ | ⟨hm, hf⟩
    · simp only [step, perform, hm, if_true]
      refine hok.keep hf rfl rfl (fun _ => .inl) ?_
      rw [Multiset.map_zero, add_zero, zero_add, closed, closed]
      simp only [held, ← Multiset.coe_add, Multiset.coe_singleton]
      abel
    · simpa [step, perform, hm] using still hf
  | drain =>
    obtain ⟨hf, -, -⟩ := drain_flow hok.queue now
    simp only [step, perform]
    refine hok.keep hf rfl rfl (fun job hjob => (List.mem_append.mp hjob).imp id id) ?_
    rw [add_zero, add_zero, closed, closed]
    simp only [held, List.map_append, ← Multiset.coe_add, Multiset.map_coe]
    abel
  | score key => simpa [step, perform, score] using still (expireIdleStates_flow hok.queue now)
  | snapshots => simpa [step, perform, snapshots] using still (expireIdleStates_flow hok.queue now)

theorem run_ok {h : History} (hok : h.Ok) (calls : List QueueCall) : (h.run calls).Ok := by
  induction calls generalizing h with
  | nil => exact hok
  | cons c calls ih => exact ih (step_ok hok c)

/-- The books are kept beside the queue: they do not steer it. -/
@[simp] theorem step_queue (h : History) (c : QueueCall) : (h.step c).queue = (h.queue.perform c).1 := by
  unfold step
  simp only
  repeat' split
  all_goals rfl

theorem run_queue (h : History) (calls : List QueueCall) : (h.run calls).queue = h.queue.run calls := by
  induction calls generalizing h with
  | nil => rfl
  | cons c calls ih => exact (ih (h.step c)).trans (by rw [step_queue, FairPendingQueue.run_cons])

/-- Six numbers adding up to one: one of them is one and the others are zero. -/
theorem Place.exists_one {f : Place → ℕ}
    (h : f .pending + f .active + f .completed + f .abandoned + f .removed + f .drained = 1) :
    ∃ place, f place = 1 ∧ ∀ other, other ≠ place → f other = 0 := by
  have hone : ∃ place, f place = 1 := by
    by_contra hno
    rw [not_exists] at hno
    have := hno .pending
    have := hno .active
    have := hno .completed
    have := hno .abandoned
    have := hno .removed
    have := hno .drained
    omega
  obtain ⟨place, hplace⟩ := hone
  refine ⟨place, hplace, fun other hother => ?_⟩
  cases place <;> cases other <;> first | exact absurd rfl hother | omega

theorem Ok.tickets_nodup {h : History} (hok : h.Ok) : (h.admitted.map SchedulerJob.ticket).Nodup := by
  have hids : (h.admitted.map SchedulerJob.jobId).Nodup := hok.increasing.imp fun hlt => hlt.ne
  refine List.Nodup.of_map Prod.snd ?_
  rwa [List.map_map]

/-- What a place holds, it holds once. -/
theorem Ok.held_nodup {h : History} (hok : h.Ok) (place : Place) : (h.held place).Nodup := by
  have hle : h.held place ≤ (h.admitted.map SchedulerJob.ticket : Multiset Ticket) := by
    rw [← hok.balance, Multiset.le_iff_count]
    intro ticket
    simp only [Multiset.count_add]
    cases place <;> omega
  exact Multiset.nodup_of_le hle (Multiset.coe_nodup.mpr hok.tickets_nodup)

/-- **Job conservation and FIFO.**  After any calls at any times, every job
that `enqueue` returned is in exactly one place and every place holds only such
jobs; no job was popped, removed or drained twice; the ids follow the order of
the enqueues, each key pops its jobs in that order, and the job popped next is
the oldest one pending under its key. -/
theorem jobs_conserved (modelName : String) (settings : FairnessSettings) (calls : List QueueCall) :
    let h := (init modelName settings).run calls
    h.queue = (FairPendingQueue.init modelName settings).run calls ∧
    (∀ job ∈ h.admitted, ∃ place, (h.held place).count job.ticket = 1 ∧
      ∀ other, other ≠ place → (h.held other).count job.ticket = 0) ∧
    (∀ place, ∀ ticket ∈ h.held place, ∃ job ∈ h.admitted, job.ticket = ticket) ∧
    (h.popped.map SchedulerJob.ticket).Nodup ∧ h.removed.Nodup ∧
    (h.drained.map SchedulerJob.ticket).Nodup ∧
    (h.admitted.map SchedulerJob.jobId).Pairwise (· < ·) ∧
    (h.popped.Pairwise fun a b => a.fairnessKey = b.fairnessKey → a.jobId < b.jobId) ∧
    ∀ now q' job, h.queue.popNext now = (q', some job) → job ∈ h.queue.pendingJobs ∧
      ∀ other ∈ h.queue.pendingJobs, other.fairnessKey = job.fairnessKey → job.jobId ≤ other.jobId := by
  intro h
  have hok : h.Ok := run_ok (init_ok modelName settings) calls
  refine ⟨run_queue _ _, fun job hjob => ?_, fun place ticket hticket => ?_, ?_, ?_, ?_, hok.increasing,
    hok.fifo, fun now q' job hpop => ?_⟩
  · refine Place.exists_one ?_
    simp only [← Multiset.count_add, hok.balance]
    exact Multiset.count_eq_one_of_mem (Multiset.coe_nodup.mpr hok.tickets_nodup)
      (Multiset.mem_coe.mpr (List.mem_map_of_mem hjob))
  · have hmem : ticket ∈ (h.admitted.map SchedulerJob.ticket : Multiset Ticket) := by
      rw [← hok.balance]
      cases place <;> simp [hticket]
    simpa using hmem
  · rw [List.Nodup, List.pairwise_map]
    refine hok.fifo.imp fun hlt heq => ?_
    exact absurd (congrArg Prod.snd heq) (hlt (congrArg Prod.fst heq)).ne
  · exact Multiset.coe_nodup.mp (hok.held_nodup .removed)
  · exact Multiset.coe_nodup.mp (hok.held_nodup .drained)
  · rcases popNext_flow hok.queue now with ⟨p, hp, -⟩ | ⟨j, p, hp, hf, -⟩
    · simp [hp] at hpop
    · obtain ⟨rfl, hj⟩ := Prod.mk.inj (hp.symm.trans hpop)
      obtain rfl := Option.some.inj hj
      refine ⟨(hf.mem_left (by simp)).resolve_right (by simp), fun other hother hkey => ?_⟩
      have hsplit := hf.pending
      rw [add_zero] at hsplit
      rw [← hsplit, Multiset.mem_add, Multiset.mem_singleton] at hother
      rcases hother with hother | rfl
      · exact (popNext_oldest hok.queue hp hother hkey.symm).le
      · exact le_rfl

end History
end TtsPool
