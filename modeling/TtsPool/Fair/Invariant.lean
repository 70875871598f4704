/-
# What every call leaves true of the queue

`StateOk` is the condition on one key's state, `FairPendingQueue.Ok` on the
queue: the job count is the number of pending jobs, a key is marked idle
exactly when it has neither pending nor active work, its job ids are distinct,
its bucket is in increasing order of ids and holds the key's own jobs only.
Expiry therefore never forgets work.

A call moves jobs between the bucket of pending jobs and the table of active
ones.  `Flow q came left started stopped q'` says which: the pending jobs
gained and lost, the active tickets gained and lost, with `Ok` kept.  Each
method has one lemma of this form (`enqueue_flow` … `drain_flow`), and whoever
accounts for jobs over the queue uses these and unfolds no method.
-/

import TtsPool.Fair.Queue
import Mathlib.Algebra.Order.Field.Rat
import Mathlib.Algebra.Order.Group.Multiset
import Mathlib.Data.Multiset.Count
import Mathlib.Tactic.Positivity

namespace TtsPool

/-- A job as the queue tells jobs apart: by key and id. -/
abbrev Ticket := FairnessKey × ℕ

def SchedulerJob.ticket (job : SchedulerJob) : Ticket := (job.fairnessKey, job.jobId)

namespace FairnessState

/-- The ids of the pending and of the active jobs of a key. -/
def jobIds (state : FairnessState) : List ℕ :=
  state.pendingJobs.map SchedulerJob.jobId ++ state.activeStartedAt.keys

theorem score_nonneg {state : FairnessState} (hw : 0 ≤ state.weight)
    (hv : 0 ≤ state.virtualServiceMs) (now : ℚ) : 0 ≤ state.score now := by
  refine add_nonneg hv (div_nonneg (List.sum_nonneg ?_) hw)
  simp only [List.mem_map, forall_exists_index, and_imp]
  rintro _ startedAt - rfl
  positivity

end FairnessState

namespace FairPendingQueue

/-- All pending jobs. -/
def pendingJobs (q : FairPendingQueue) : Multiset SchedulerJob :=
  q.states.sum fun _ state => (state.pendingJobs : Multiset SchedulerJob)

/-- The tickets of the pending jobs, under the key whose bucket holds them. -/
def pendingTickets (q : FairPendingQueue) : Multiset Ticket :=
  q.states.sum fun key state => ↑(state.pendingJobs.map fun job => (key, job.jobId))

/-- The tickets of the active jobs, under the key whose table holds them. -/
def activeTickets (q : FairPendingQueue) : Multiset Ticket :=
  q.states.sum fun key state => ↑(state.activeStartedAt.keys.map fun id => (key, id))

theorem mem_pendingTickets {q : FairPendingQueue} {ticket : Ticket} :
    ticket ∈ q.pendingTickets ↔ ∃ state, q.states.get? ticket.1 = some state ∧
      ∃ job ∈ state.pendingJobs, job.jobId = ticket.2 := by
  obtain ⟨key, id⟩ := ticket
  simp only [pendingTickets, Dict.mem_sum, Multiset.mem_coe, List.mem_map, Prod.mk.injEq]
  constructor
  · rintro ⟨k, state, hs, job, hjob, rfl, rfl⟩
    exact ⟨state, hs, job, hjob, rfl⟩
  · rintro ⟨state, hs, job, hjob, rfl⟩
    exact ⟨key, state, hs, job, hjob, rfl, rfl⟩

theorem mem_activeTickets {q : FairPendingQueue} {ticket : Ticket} :
    ticket ∈ q.activeTickets ↔ ∃ state, q.states.get? ticket.1 = some state ∧
      ∃ startedAt, state.activeStartedAt.get? ticket.2 = some startedAt := by
  obtain ⟨key, id⟩ := ticket
  simp only [activeTickets, Dict.mem_sum, Multiset.mem_coe, List.mem_map, Prod.mk.injEq,
    Dict.keys, ← Dict.mem_keys_iff]
  constructor
  · rintro ⟨k, state, hs, i, hi, rfl, rfl⟩
    exact ⟨state, hs, hi⟩
  · rintro ⟨state, hs, hi⟩
    exact ⟨key, state, hs, id, hi, rfl, rfl⟩

/-- The condition on one key's state. -/
structure StateOk (q : FairPendingQueue) (key : FairnessKey) (state : FairnessState) : Prop where
  weight : state.weight = q.settings.weight key
  account : 0 ≤ state.virtualServiceMs
  idle : state.idleSince = none ↔ state.Busy
  own : ∀ job ∈ state.pendingJobs, job.fairnessKey = key
  fresh : ∀ id ∈ state.jobIds, id < q.nextJobId
  nodup : state.jobIds.Nodup
  fifo : (state.pendingJobs.map SchedulerJob.jobId).Pairwise (· < ·)

/-- The representation invariant of the queue. -/
structure Ok (q : FairPendingQueue) : Prop where
  count : q.pendingCount = q.pendingJobs.card
  states : ∀ key state, q.states.get? key = some state → q.StateOk key state

/-- The settings stay and the job counter does not go back. -/
structure Grows (q q' : FairPendingQueue) : Prop where
  settings : q'.settings = q.settings
  nextJobId : q.nextJobId ≤ q'.nextJobId

theorem StateOk.mono {q q' : FairPendingQueue} {key : FairnessKey} {state : FairnessState}
    (h : q.StateOk key state) (hq : q.Grows q') : q'.StateOk key state :=
  { h with
    weight := by rw [hq.settings, h.weight]
    fresh := fun id hid => (h.fresh id hid).trans_le hq.nextJobId }

theorem StateOk.weight_pos {q : FairPendingQueue} {key : FairnessKey} {state : FairnessState}
    (h : q.StateOk key state) : 0 < state.weight := h.weight ▸ q.settings.weight_pos key

/-- Jobs moving between the pending and the active ones, the invariant kept. -/
structure Flow (q : FairPendingQueue) (came left : Multiset SchedulerJob)
    (started stopped : Multiset Ticket) (q' : FairPendingQueue) : Prop where
  ok : q'.Ok
  grows : q.Grows q'
  pending : q'.pendingJobs + left = q.pendingJobs + came
  active : q'.activeTickets + stopped = q.activeTickets + started

theorem Flow.refl {q : FairPendingQueue} (h : q.Ok) : q.Flow 0 0 0 0 q :=
  ⟨h, ⟨rfl, le_rfl⟩, rfl, rfl⟩

/-- A flow after a flow in which no job moved. -/
theorem Flow.of_still {q q₁ q₂ : FairPendingQueue} {came left : Multiset SchedulerJob}
    {started stopped : Multiset Ticket} (h₁ : q.Flow 0 0 0 0 q₁)
    (h₂ : q₁.Flow came left started stopped q₂) : q.Flow came left started stopped q₂ := by
  have hp : q₁.pendingJobs = q.pendingJobs := by simpa using h₁.pending
  have ha : q₁.activeTickets = q.activeTickets := by simpa using h₁.active
  exact ⟨h₂.ok, ⟨h₂.grows.settings.trans h₁.grows.settings, h₁.grows.nextJobId.trans h₂.grows.nextJobId⟩,
    hp ▸ h₂.pending, ha ▸ h₂.active⟩

/-! ### The initial queue and expiry -/

theorem init_ok (modelName : String) (settings : FairnessSettings) : (init modelName settings).Ok :=
  ⟨rfl, fun key state h => by simp [init] at h⟩

/-- A key with work is not expired. -/
theorem StateOk.not_expired {q : FairPendingQueue} {key : FairnessKey} {state : FairnessState}
    (h : q.StateOk key state) (hb : state.Busy) (now : ℚ) : ¬ state.Expired q.settings now := by
  rintro ⟨since, hs, -⟩
  rw [h.idle.mpr hb] at hs
  cases hs

@[simp] theorem expireIdleStates_settings (q : FairPendingQueue) (now : ℚ) :
    (q.expireIdleStates now).settings = q.settings := rfl

/-- What expiry keeps: the states not expired, unchanged. -/
theorem get?_expireIdleStates {q : FairPendingQueue} {now : ℚ} {key : FairnessKey}
    {state : FairnessState} :
    (q.expireIdleStates now).states.get? key = some state ↔
      q.states.get? key = some state ∧ ¬ state.Expired q.settings now := by
  simp [expireIdleStates, Dict.get?_filter]

/-- A key with work stays through expiry. -/
theorem get?_expireIdleStates_of_busy {q : FairPendingQueue} (h : q.Ok) {now : ℚ} {key : FairnessKey}
    {state : FairnessState} (hs : q.states.get? key = some state) (hb : state.Busy) :
    (q.expireIdleStates now).states.get? key = some state :=
  get?_expireIdleStates.mpr ⟨hs, (h.states key state hs).not_expired hb now⟩

theorem expireIdleStates_flow {q : FairPendingQueue} (h : q.Ok) (now : ℚ) :
    q.Flow 0 0 0 0 (q.expireIdleStates now) := by
  -- an expired state is idle, so it adds to neither sum
  have hidle : ∀ e ∈ q.states.entries, (!decide (e.2.Expired q.settings now)) = false →
      e.2.pendingJobs = [] ∧ e.2.activeStartedAt.entries = [] := by
    intro e he hx
    have hok := h.states e.1 e.2 (Dict.get?_eq_some_iff.mpr he)
    have hb : ¬ e.2.Busy := fun hb => hok.not_expired hb now (by simpa using hx)
    simpa [FairnessState.Busy] using hb
  have hp : (q.expireIdleStates now).pendingJobs = q.pendingJobs := by
    refine Dict.sum_filter_of_eq_zero q.states
      (fun _ state => (state.pendingJobs : Multiset SchedulerJob)) fun e he hx => ?_
    simp [(hidle e he hx).1]
  have ha : (q.expireIdleStates now).activeTickets = q.activeTickets := by
    refine Dict.sum_filter_of_eq_zero q.states
      (fun key state => (↑(state.activeStartedAt.keys.map fun id => (key, id)) : Multiset Ticket))
      fun e he hx => ?_
    simp [Dict.keys, (hidle e he hx).2]
  have hg : q.Grows (q.expireIdleStates now) := ⟨rfl, le_rfl⟩
  refine ⟨⟨?_, fun key state hs => ?_⟩, hg, by simp [hp], by simp [ha]⟩
  · rw [hp]
    exact h.count
  · exact (h.states key state (get?_expireIdleStates.mp hs).1).mono hg

theorem expireIdleStates_ok {q : FairPendingQueue} (h : q.Ok) (now : ℚ) :
    (q.expireIdleStates now).Ok := (expireIdleStates_flow h now).ok

/-! ### One key's state replaced -/

/-- What stands under a key before an update: its retained state, or nothing,
for which a state without work stands in. -/
def Prior (q : FairPendingQueue) (key : FairnessKey) (state : FairnessState) : Prop :=
  q.states.get? key = some state ∨
    q.states.get? key = none ∧ state.pendingJobs = [] ∧ state.activeStartedAt.entries = []

/-- A sum over the states moves by what the updated key adds. -/
theorem Prior.sum_set {M : Type*} [AddCommMonoid M] {q : FairPendingQueue} {key : FairnessKey}
    {state : FairnessState} (h : q.Prior key state) (f : FairnessKey → FairnessState → M)
    (hf : ∀ s : FairnessState, s.pendingJobs = [] → s.activeStartedAt.entries = [] → f key s = 0)
    (state' : FairnessState) :
    (q.states.set key state').sum f + f key state = q.states.sum f + f key state' := by
  rcases h with h | ⟨h, hp, ha⟩
  · exact Dict.sum_set h f state'
  · rw [Dict.sum_set_new h, hf state hp ha, add_zero]

/-- **One state replaced.**  The flow of a call that puts `state'` under `key`
is the difference of the two states. -/
theorem Flow.of_set {q q' : FairPendingQueue} (h : q.Ok) {key : FairnessKey}
    {state state' : FairnessState} {came left : Multiset SchedulerJob}
    (started stopped : Multiset ℕ) (hprior : q.Prior key state)
    (hstates : q'.states = q.states.set key state') (hgrows : q.Grows q')
    (hok : q'.StateOk key state')
    (hcount : q'.pendingCount + left.card = q.pendingCount + came.card)
    (hpending : (state'.pendingJobs : Multiset SchedulerJob) + left = state.pendingJobs + came)
    (hactive : (state'.activeStartedAt.keys : Multiset ℕ) + stopped =
      state.activeStartedAt.keys + started) :
    q.Flow came left (started.map fun id => (key, id)) (stopped.map fun id => (key, id)) q' := by
  have hp : q'.pendingJobs + left = q.pendingJobs + came := by
    have hsum := hprior.sum_set (fun _ s => (s.pendingJobs : Multiset SchedulerJob))
      (fun s hs _ => by simp [hs]) state'
    rw [← hstates] at hsum
    refine Multiset.ext.mpr fun job => ?_
    have h₁ := congrArg (Multiset.count job) hsum
    have h₂ := congrArg (Multiset.count job) hpending
    simp only [Multiset.count_add] at h₁ h₂ ⊢
    unfold pendingJobs
    omega
  refine ⟨⟨?_, fun a s hs => ?_⟩, hgrows, hp, ?_⟩
  · have hc := congrArg Multiset.card hp
    simp only [Multiset.card_add] at hc
    have := h.count
    omega
  · rw [hstates] at hs
    by_cases ha : a = key
    · subst ha
      rw [Dict.get?_set_self] at hs
      exact Option.some.inj hs ▸ hok
    · rw [Dict.get?_set_of_ne _ ha] at hs
      exact (h.states a s hs).mono hgrows
  · have hsum := hprior.sum_set
      (fun k s => (↑(s.activeStartedAt.keys.map fun id => (k, id)) : Multiset Ticket))
      (fun s _ hs => by simp [Dict.keys, hs]) state'
    rw [← hstates] at hsum
    have hmap := congrArg (Multiset.map fun id => (key, id)) hactive
    simp only [Multiset.map_add, Multiset.map_coe] at hmap
    refine Multiset.ext.mpr fun ticket => ?_
    have h₁ := congrArg (Multiset.count ticket) hsum
    have h₂ := congrArg (Multiset.count ticket) hmap
    simp only [Multiset.count_add] at h₁ h₂ ⊢
    unfold activeTickets
    omega

/-! ### One lemma for each method -/

/-- The scores that `baseline` takes the least of. -/
theorem mem_busyScores (q : FairPendingQueue) (now : ℚ) {x : ℚ} :
    x ∈ ((q.states.values.filter fun state => state.Busy).map fun state => state.score now) ↔
      ∃ key state, q.states.get? key = some state ∧ state.Busy ∧ state.score now = x := by
  constructor
  · intro hx
    obtain ⟨state, hs, rfl⟩ := List.mem_map.mp hx
    obtain ⟨hvalue, hb⟩ := List.mem_filter.mp hs
    obtain ⟨e, he, rfl⟩ := List.mem_map.mp hvalue
    exact ⟨e.1, e.2, Dict.get?_eq_some_iff.mpr he, of_decide_eq_true hb, rfl⟩
  · rintro ⟨key, state, hs, hb, rfl⟩
    have hvalue : state ∈ q.states.values := List.mem_map_of_mem (Dict.get?_eq_some_iff.mp hs)
    exact List.mem_map_of_mem (List.mem_filter.mpr ⟨hvalue, decide_eq_true hb⟩)

/-- The baseline is at or below the score of any busy key. -/
theorem baseline_le {q : FairPendingQueue} {key : FairnessKey} {state : FairnessState}
    (hs : q.states.get? key = some state) (hb : state.Busy) (now : ℚ) : q.baseline now ≤ state.score now := by
  have hmem := (mem_busyScores q now).mpr ⟨key, state, hs, hb, rfl⟩
  unfold baseline
  cases hmin : ((q.states.values.filter fun state => state.Busy).map fun state => state.score now).min? with
  | none => simp [List.min?_eq_none_iff.mp hmin] at hmem
  | some least => exact (List.le_min?_iff hmin).mp le_rfl _ hmem

/-- The baseline is the score of a busy key, or zero where no key is busy. -/
theorem baseline_cases (q : FairPendingQueue) (now : ℚ) :
    (∃ key state, q.states.get? key = some state ∧ state.Busy ∧ state.score now = q.baseline now) ∨
      q.baseline now = 0 ∧ ∀ key, ∀ state ∈ q.states.get? key, ¬ state.Busy := by
  unfold baseline
  cases hmin : ((q.states.values.filter fun state => state.Busy).map fun state => state.score now).min? with
  | none =>
    refine .inr ⟨rfl, fun key state hs hb => ?_⟩
    have hmem := (mem_busyScores q now).mpr ⟨key, state, hs, hb, rfl⟩
    simp [List.min?_eq_none_iff.mp hmin] at hmem
  | some least => exact .inl ((mem_busyScores q now).mp (List.min?_mem hmin))

/-- The account a new key starts with is not negative. -/
theorem baseline_nonneg {q : FairPendingQueue} (h : q.Ok) (now : ℚ) : 0 ≤ q.baseline now := by
  rcases q.baseline_cases now with ⟨key, state, hs, -, hscore⟩ | ⟨hzero, -⟩
  · have hok := h.states key state hs
    exact hscore ▸ FairnessState.score_nonneg hok.weight_pos.le hok.account now
  · exact hzero.ge

theorem admissionState_prior (q : FairPendingQueue) (key : FairnessKey) (now : ℚ) :
    q.Prior key (q.admissionState key now).1 := by
  unfold Prior admissionState
  cases h : q.states.get? key with
  | none => exact .inr ⟨rfl, rfl, rfl⟩
  | some state => exact .inl rfl

/-- The state a job is admitted to has the key's weight, an account that is not
negative, and a bucket in order. -/
theorem admissionState_ok {q : FairPendingQueue} (h : q.Ok) (key : FairnessKey) (now : ℚ) :
    let state := (q.admissionState key now).1
    state.weight = q.settings.weight key ∧ 0 ≤ state.virtualServiceMs ∧
      (∀ job ∈ state.pendingJobs, job.fairnessKey = key) ∧
      (∀ id ∈ state.jobIds, id < q.nextJobId) ∧ state.jobIds.Nodup ∧
      (state.pendingJobs.map SchedulerJob.jobId).Pairwise (· < ·) := by
  unfold admissionState
  cases hs : q.states.get? key with
  | none =>
    exact ⟨rfl, baseline_nonneg h now, by simp [newState], by simp [newState, FairnessState.jobIds, Dict.keys],
      by simp [newState, FairnessState.jobIds, Dict.keys], by simp [newState]⟩
  | some state =>
    have hok := h.states key state hs
    exact ⟨hok.weight, hok.account, hok.own, hok.fresh, hok.nodup, hok.fifo⟩

theorem accept_flow {q : FairPendingQueue} (h : q.Ok) (request : ResponseRequest)
    (streamHandle : HandleId) (now : ℚ) :
    q.Flow {q.newJob request streamHandle now} 0 0 0 (q.accept request streamHandle now) := by
  obtain ⟨hweight, haccount, hown, hfresh, hnodup, hfifo⟩ :=
    admissionState_ok h request.fairnessKey now
  have hids : ∀ id ∈ ((q.admissionState request.fairnessKey now).1.pendingJobs.map SchedulerJob.jobId),
      id < q.nextJobId := fun id hid => hfresh id (List.mem_append_left _ hid)
  refine Flow.of_set h 0 0 (admissionState_prior q request.fairnessKey now)
    rfl ⟨rfl, Nat.le_succ _⟩ ⟨hweight, haccount, ?_, ?_, ?_, ?_, ?_⟩ ?_ ?_ rfl
  · simp [FairnessState.Busy]
  · intro job hjob
    rcases List.mem_append.mp hjob with hjob | hjob
    · exact hown job hjob
    · exact List.mem_singleton.mp hjob ▸ rfl
  · intro id hid
    simp only [FairnessState.jobIds, List.map_append, List.mem_append, List.map_cons, List.map_nil,
      List.mem_singleton] at hid
    rcases hid with (hid | rfl) | hid
    · exact (hids id hid).trans (Nat.lt_succ_self _)
    · exact Nat.lt_succ_self _
    · exact (hfresh id (List.mem_append_right _ hid)).trans (Nat.lt_succ_self _)
  · have hnew : q.nextJobId ∉ (q.admissionState request.fairnessKey now).1.jobIds :=
      fun hmem => (hfresh _ hmem).false
    simp only [FairnessState.jobIds, List.map_append, List.map_cons, List.map_nil] at hnodup hnew ⊢
    rw [List.append_assoc, List.singleton_append, List.nodup_middle, List.nodup_cons]
    exact ⟨hnew, hnodup⟩
  · rw [List.map_append, List.pairwise_append]
    refine ⟨hfifo, by simp, ?_⟩
    intro id hid other hother
    obtain rfl : other = q.nextJobId := by simpa [newJob] using hother
    exact hids id hid
  · simp [accept]
  · exact (add_zero _).trans (Multiset.coe_add _ _).symm

/-- Counting a refusal moves no job. -/
theorem Flow.of_modify_counters {q q' : FairPendingQueue} (h : q.Ok) {key : FairnessKey}
    {f : FairnessState → FairnessState} (hstates : q'.states = q.states.modify key f)
    (hgrows : q.Grows q') (hcount : q'.pendingCount = q.pendingCount)
    (hf : ∀ s, (f s).pendingJobs = s.pendingJobs ∧ (f s).activeStartedAt = s.activeStartedAt ∧
      (f s).weight = s.weight ∧ (f s).virtualServiceMs = s.virtualServiceMs ∧
      (f s).idleSince = s.idleSince) : q.Flow 0 0 0 0 q' := by
  cases hs : q.states.get? key with
  | none =>
    rw [Dict.modify_of_get?_eq_none hs] at hstates
    refine ⟨⟨?_, fun a s ha => (h.states a s (hstates ▸ ha)).mono hgrows⟩, hgrows, ?_, ?_⟩
    · simp [hcount, h.count, pendingJobs, hstates]
    · simp [pendingJobs, hstates]
    · simp [activeTickets, hstates]
  | some state =>
    rw [Dict.modify_of_get?_eq_some hs] at hstates
    obtain ⟨hp, ha, hw, hv, hi⟩ := hf state
    have hok := (h.states key state hs).mono hgrows
    refine Flow.of_set h 0 0 (.inl hs) hstates hgrows ?_ (by simp [hcount])
      (by simp [hp]) (by simp [ha])
    exact ⟨hw.trans hok.weight, hv ▸ hok.account, by simpa [hi, FairnessState.Busy, hp, ha] using hok.idle,
      hp ▸ hok.own, by simpa [FairnessState.jobIds, hp, ha] using hok.fresh,
      by simpa [FairnessState.jobIds, hp, ha] using hok.nodup, hp ▸ hok.fifo⟩

/-- **`enqueue`** refuses and moves no job, or admits one new pending job. -/
theorem enqueue_flow {q : FairPendingQueue} (h : q.Ok) (request : ResponseRequest)
    (streamHandle : HandleId) (now : ℚ) :
    (∃ error q', q.enqueue request streamHandle now = (q', .error error) ∧ q.Flow 0 0 0 0 q' ∧
      q'.nextJobId = q.nextJobId) ∨
    ∃ q', q.enqueue request streamHandle now = (q', .ok (q.newJob request streamHandle now)) ∧
      q.Flow {q.newJob request streamHandle now} 0 0 0 q' ∧ q'.nextJobId = q.nextJobId + 1 := by
  have hx := expireIdleStates_flow h now
  unfold enqueue
  simp only
  split_ifs with hkey hfull
  · refine .inl ⟨_, _, rfl, hx.of_still ?_, rfl⟩
    exact Flow.of_modify_counters hx.ok rfl ⟨rfl, le_rfl⟩ rfl fun s => ⟨rfl, rfl, rfl, rfl, rfl⟩
  · refine .inl ⟨_, _, rfl, hx.of_still ?_, rfl⟩
    exact Flow.of_modify_counters hx.ok rfl ⟨rfl, le_rfl⟩ rfl fun s => ⟨rfl, rfl, rfl, rfl, rfl⟩
  · exact .inr ⟨_, rfl, hx.of_still (accept_flow hx.ok request streamHandle now), rfl⟩

/-- The idle mark after `_mark_idle_if_needed` is right when the mark before it
was right or missing on a key that has lost its last job. -/
theorem StateOk.markIdle {q : FairPendingQueue} {key : FairnessKey} {state : FairnessState} {now : ℚ}
    (hweight : state.weight = q.settings.weight key) (haccount : 0 ≤ state.virtualServiceMs)
    (hidle : state.Busy → state.idleSince = none)
    (hown : ∀ job ∈ state.pendingJobs, job.fairnessKey = key)
    (hfresh : ∀ id ∈ state.jobIds, id < q.nextJobId) (hnodup : state.jobIds.Nodup)
    (hfifo : (state.pendingJobs.map SchedulerJob.jobId).Pairwise (· < ·)) :
    q.StateOk key (state.markIdleIfNeeded now) := by
  unfold FairnessState.markIdleIfNeeded
  split_ifs with hb
  · exact ⟨hweight, haccount, iff_of_true (hidle hb) hb, hown, hfresh, hnodup, hfifo⟩
  · exact ⟨hweight, haccount, by simpa [FairnessState.Busy] using hb, hown, hfresh, hnodup, hfifo⟩

@[simp] theorem markIdleIfNeeded_pendingJobs (state : FairnessState) (now : ℚ) :
    (state.markIdleIfNeeded now).pendingJobs = state.pendingJobs := by
  unfold FairnessState.markIdleIfNeeded
  split_ifs <;> rfl

@[simp] theorem markIdleIfNeeded_activeStartedAt (state : FairnessState) (now : ℚ) :
    (state.markIdleIfNeeded now).activeStartedAt = state.activeStartedAt := by
  unfold FairnessState.markIdleIfNeeded
  split_ifs <;> rfl

/-- **`remove`** finds no pending job of the ticket, or takes one out. -/
theorem remove_flow {q : FairPendingQueue} (h : q.Ok) (job : SchedulerJob) (now : ℚ) :
    (q.remove job now = (q, false) ∧ job.ticket ∉ q.pendingTickets) ∨
    ∃ found q', q.remove job now = (q', true) ∧ found.ticket = job.ticket ∧
      q.Flow 0 {found} 0 0 q' ∧ q'.nextJobId = q.nextJobId := by
  unfold remove
  cases hs : q.states.get? job.fairnessKey with
  | none =>
    refine .inl ⟨rfl, fun hm => ?_⟩
    obtain ⟨s, hs', -⟩ := mem_pendingTickets.mp hm
    exact absurd (hs.symm.trans hs') (by simp)
  | some state =>
    simp only
    cases hf : state.pendingJobs.find? fun candidate => candidate.jobId = job.jobId with
    | none =>
      refine .inl ⟨rfl, fun hm => ?_⟩
      obtain ⟨s, hs', other, hother, hid⟩ := mem_pendingTickets.mp hm
      obtain rfl := Option.some.inj (hs.symm.trans hs')
      exact List.find?_eq_none.mp hf other hother (decide_eq_true hid)
    | some found =>
      have hmem : found ∈ state.pendingJobs := List.mem_of_find?_eq_some hf
      have hid : found.jobId = job.jobId := by simpa using List.find?_some hf
      have hok := h.states _ _ hs
      have hsub : (state.pendingJobs.erase found).Sublist state.pendingJobs := List.erase_sublist
      have hids : ({ state with pendingJobs := state.pendingJobs.erase found } : FairnessState).jobIds.Sublist
          state.jobIds := (hsub.map _).append_right _
      have hperm := List.perm_cons_erase hmem
      refine .inr ⟨found, _, rfl, Prod.ext (hok.own found hmem) hid, ?_, rfl⟩
      refine Flow.of_set h 0 0 (.inl hs) rfl ⟨rfl, le_rfl⟩ ?_ ?_ ?_ (by simp)
      · refine StateOk.markIdle hok.weight hok.account (fun hb => hok.idle.mpr ?_) ?_ ?_ ?_ ?_
        · exact hb.imp (fun hne he => hne (by simp [he])) id
        · exact fun other hother => hok.own other (hsub.subset hother)
        · exact fun id hmem => hok.fresh id (hids.subset hmem)
        · exact hok.nodup.sublist hids
        · exact hok.fifo.sublist (hsub.map _)
      · simp
      · rw [markIdleIfNeeded_pendingJobs, add_zero, Multiset.coe_eq_coe.mpr hperm]
        exact add_comm _ _

/-- **Selection** takes a retained key with pending work whose rank is least
among all such keys. -/
theorem selected_spec {q : FairPendingQueue} {now : ℚ} {key : FairnessKey} {state : FairnessState}
    (h : q.selected now = some (key, state)) :
    q.states.get? key = some state ∧ state.pendingJobs ≠ [] ∧
      ∀ other s, q.states.get? other = some s → s.pendingJobs ≠ [] →
        state.selectionRank q.settings now ≤ s.selectionRank q.settings now := by
  have hmem : (key, state) ∈ q.candidates := List.argmin_mem h
  simp only [candidates, List.mem_filter, decide_eq_true_eq] at hmem
  refine ⟨Dict.get?_eq_some_iff.mpr hmem.1, hmem.2, fun other s hs hpending => ?_⟩
  have hother : (other, s) ∈ q.candidates := by
    simpa [candidates] using ⟨Dict.get?_eq_some_iff.mp hs, hpending⟩
  have hle := List.le_of_mem_argmin hother (Option.mem_def.mpr h)
  exact hle

/-- Nothing is selected only when no job is pending. -/
theorem selected_eq_none {q : FairPendingQueue} {now : ℚ} (h : q.selected now = none) :
    q.pendingJobs = 0 := by
  have hnil : q.candidates = [] := List.argmin_eq_none.mp h
  refine Multiset.eq_zero_of_forall_notMem fun job hjob => ?_
  obtain ⟨key, state, hs, hmem⟩ := Dict.mem_sum.mp hjob
  have hempty := List.filter_eq_nil_iff.mp hnil (key, state) (Dict.get?_eq_some_iff.mp hs)
  simp only [decide_eq_true_eq, not_not] at hempty
  simp [hempty] at hmem

/-- The job at the front of a bucket is not active. -/
theorem StateOk.get?_active {q : FairPendingQueue} {key : FairnessKey} {state : FairnessState}
    (h : q.StateOk key state) {job : SchedulerJob} {rest : List SchedulerJob}
    (hp : state.pendingJobs = job :: rest) : state.activeStartedAt.get? job.jobId = none := by
  have hnodup := h.nodup
  rw [FairnessState.jobIds, hp, List.map_cons, List.cons_append, List.nodup_cons, List.mem_append,
    not_or] at hnodup
  rw [Option.eq_none_iff_forall_ne_some]
  exact fun startedAt hget => hnodup.1.2 (Dict.mem_keys_iff.mpr ⟨_, hget⟩)

theorem dispatch_flow {q : FairPendingQueue} (h : q.Ok) {key : FairnessKey} {state : FairnessState}
    {job : SchedulerJob} {rest : List SchedulerJob} (hs : q.states.get? key = some state)
    (hp : state.pendingJobs = job :: rest) (now : ℚ) :
    q.Flow 0 {job} {job.ticket} 0 (q.dispatch key state job rest now) := by
  have hok := h.states key state hs
  have hkey : job.fairnessKey = key := hok.own job (by simp [hp])
  have hids : state.jobIds = job.jobId :: (rest.map SchedulerJob.jobId ++ state.activeStartedAt.keys) := by
    simp [FairnessState.jobIds, hp]
  have hnodup := hok.nodup
  rw [hids, List.nodup_cons, List.mem_append, not_or] at hnodup
  have hnew := hok.get?_active hp
  have hkeys : (state.activeStartedAt.set job.jobId now).keys = state.activeStartedAt.keys ++ [job.jobId] := by
    simp [Dict.keys, Dict.entries_set_of_get?_eq_none hnew]
  have hflow : q.Flow 0 {job} (Multiset.map (fun id => (key, id)) {job.jobId}) (Multiset.map (fun id => (key, id)) 0)
      (q.dispatch key state job rest now) := by
    refine Flow.of_set h _ _ (.inl hs) rfl ⟨rfl, le_rfl⟩ ⟨hok.weight, hok.account, ?_, ?_, ?_, ?_, ?_⟩
      (by simp [dispatch]) ?_ ?_
    · refine iff_of_true rfl (.inr fun he => ?_)
      have := congrArg (List.map Prod.fst) he
      rw [show List.map Prod.fst (state.activeStartedAt.set job.jobId now).entries = _ from hkeys] at this
      simp at this
    · exact fun other hother => hok.own other (by simp [hp, hother])
    · intro id hid
      refine hok.fresh id ?_
      simp only [FairnessState.jobIds, hkeys, List.mem_append, List.mem_singleton] at hid
      rw [hids]
      simp only [List.mem_cons, List.mem_append]
      tauto
    · simp only [FairnessState.jobIds, hkeys]
      rw [← List.append_assoc]
      exact List.nodup_append_comm.mp (List.nodup_cons.mpr ⟨by simpa using hnodup.1, hnodup.2⟩)
    · have hfifo := hok.fifo
      rw [hp, List.map_cons, List.pairwise_cons] at hfifo
      exact hfifo.2
    · rw [hp, add_zero, add_comm]
      rfl
    · rw [hkeys, add_zero, ← Multiset.coe_add]
      rfl
  simpa [SchedulerJob.ticket, hkey] using hflow

/-- **`pop_next`** returns nothing when nothing is pending; else it makes one
pending job active. -/
theorem popNext_flow {q : FairPendingQueue} (h : q.Ok) (now : ℚ) :
    (∃ q', q.popNext now = (q', none) ∧ q.pendingJobs = 0 ∧ q.Flow 0 0 0 0 q' ∧
      q'.nextJobId = q.nextJobId) ∨
    ∃ job q', q.popNext now = (q', some job) ∧ q.Flow 0 {job} {job.ticket} 0 q' ∧
      q'.nextJobId = q.nextJobId := by
  have hx := expireIdleStates_flow h now
  unfold popNext
  simp only
  cases hsel : (q.expireIdleStates now).selected now with
  | none =>
    refine .inl ⟨_, rfl, ?_, hx, rfl⟩
    have hp := hx.pending
    rwa [selected_eq_none hsel, zero_add, add_zero, eq_comm] at hp
  | some found =>
    obtain ⟨key, state⟩ := found
    obtain ⟨hs, hne, -⟩ := selected_spec hsel
    simp only
    cases hp : state.pendingJobs with
    | nil => exact absurd hp hne
    | cons job rest => exact .inr ⟨job, _, rfl, hx.of_still (dispatch_flow hx.ok hs hp now), rfl⟩

/-- An active job leaves its key: what `complete` and `abandon` share. -/
theorem release_flow {q : FairPendingQueue} (h : q.Ok) {job : SchedulerJob} {state : FairnessState}
    {startedAt : ℚ} (hs : q.states.get? job.fairnessKey = some state)
    (hactive : state.activeStartedAt.get? job.jobId = some startedAt) {account : ℚ}
    (haccount : 0 ≤ account) (now : ℚ) :
    q.Flow 0 0 0 {job.ticket}
      { q with
        states := q.states.set job.fairnessKey
          ({ state with
              activeStartedAt := state.activeStartedAt.erase job.jobId
              virtualServiceMs := account }.markIdleIfNeeded now) } := by
  have hok := h.states _ _ hs
  have hkeys : state.activeStartedAt.keys.Perm (job.jobId :: (state.activeStartedAt.erase job.jobId).keys) := by
    obtain ⟨pre, post, he, hpre, hpost⟩ := Dict.exists_split hactive
    simp only [Dict.keys, Dict.entries_erase_of_split he hpre hpost, he, List.map_append, List.map_cons]
    exact List.perm_middle
  have hsub : (state.activeStartedAt.erase job.jobId).keys.Sublist state.activeStartedAt.keys :=
    List.filter_sublist.map _
  have hids : (state.pendingJobs.map SchedulerJob.jobId ++
      (state.activeStartedAt.erase job.jobId).keys).Sublist state.jobIds :=
    (List.Sublist.refl _).append hsub
  suffices hflow : q.Flow 0 0 (Multiset.map (fun id => (job.fairnessKey, id)) 0)
      (Multiset.map (fun id => (job.fairnessKey, id)) {job.jobId}) _ by
    simpa [SchedulerJob.ticket] using hflow
  refine Flow.of_set h 0 {job.jobId} (.inl hs) rfl ⟨rfl, le_rfl⟩ ?_ (by simp) (by simp) ?_
  · exact StateOk.markIdle hok.weight haccount
      (fun hb => hok.idle.mpr (hb.imp id fun hne he => hne (by simp [Dict.erase, Dict.filter, he])))
      hok.own (fun id hid => hok.fresh id (hids.subset hid)) (hok.nodup.sublist hids) hok.fifo
  · rw [markIdleIfNeeded_activeStartedAt, add_zero, Multiset.coe_eq_coe.mpr hkeys]
    exact add_comm _ _

/-- **`complete`** releases the active job; a job not active is left alone. -/
theorem complete_flow {q : FairPendingQueue} (h : q.Ok) (job : SchedulerJob) (serviceMs now : ℚ) :
    (job.ticket ∈ q.activeTickets ∧ q.Flow 0 0 0 {job.ticket} (q.complete job serviceMs now)) ∨
    job.ticket ∉ q.activeTickets ∧ q.complete job serviceMs now = q := by
  unfold complete
  cases hs : q.states.get? job.fairnessKey with
  | none =>
    refine .inr ⟨fun hm => ?_, rfl⟩
    obtain ⟨s, hs', -⟩ := mem_activeTickets.mp hm
    exact absurd (hs.symm.trans hs') (by simp)
  | some state =>
    simp only
    cases ha : state.activeStartedAt.get? job.jobId with
    | none =>
      refine .inr ⟨fun hm => ?_, rfl⟩
      obtain ⟨s, hs', startedAt, ha'⟩ := mem_activeTickets.mp hm
      obtain rfl := Option.some.inj (hs.symm.trans hs')
      exact absurd (ha.symm.trans ha') (by simp)
    | some startedAt =>
      refine .inl ⟨mem_activeTickets.mpr ⟨state, hs, startedAt, ha⟩, ?_⟩
      have hok := h.states _ _ hs
      refine release_flow h hs ha (add_nonneg hok.account ?_) now
      exact div_nonneg (le_max_left _ _) hok.weight_pos.le

/-- **`abandon`** releases the active job; of a job not active it moves
nothing. -/
theorem abandon_flow {q : FairPendingQueue} (h : q.Ok) (job : SchedulerJob) (now : ℚ) :
    (job.ticket ∈ q.activeTickets ∧ q.Flow 0 0 0 {job.ticket} (q.abandon job now)) ∨
    job.ticket ∉ q.activeTickets ∧ q.Flow 0 0 0 0 (q.abandon job now) := by
  cases hs : q.states.get? job.fairnessKey with
  | none =>
    refine .inr ⟨fun hm => ?_, ?_⟩
    · obtain ⟨s, hs', -⟩ := mem_activeTickets.mp hm
      exact absurd (hs.symm.trans hs') (by simp)
    · have : q.abandon job now = q := by simp [abandon, Dict.modify_of_get?_eq_none hs]
      rw [this]
      exact Flow.refl h
  | some state =>
    have heq : q.abandon job now = { q with
        states := q.states.set job.fairnessKey
          ({ state with activeStartedAt := state.activeStartedAt.erase job.jobId }.markIdleIfNeeded now) } := by
      simp [abandon, Dict.modify_of_get?_eq_some hs]
    have hok := h.states _ _ hs
    cases ha : state.activeStartedAt.get? job.jobId with
    | none =>
      refine .inr ⟨fun hm => ?_, ?_⟩
      · obtain ⟨s, hs', startedAt, ha'⟩ := mem_activeTickets.mp hm
        obtain rfl := Option.some.inj (hs.symm.trans hs')
        exact absurd (ha.symm.trans ha') (by simp)
      · rw [heq, Dict.erase_of_get?_eq_none ha]
        refine Flow.of_set h 0 0 (.inl hs) rfl ⟨rfl, le_rfl⟩ ?_ rfl (by simp) (by simp)
        exact StateOk.markIdle hok.weight hok.account hok.idle.mpr hok.own hok.fresh hok.nodup hok.fifo
    | some startedAt =>
      refine .inl ⟨mem_activeTickets.mpr ⟨state, hs, startedAt, ha⟩, ?_⟩
      rw [heq]
      exact release_flow h hs ha hok.account now

/-- **`drain`** takes out every pending job. -/
theorem drain_flow {q : FairPendingQueue} (h : q.Ok) (now : ℚ) :
    q.Flow 0 (q.drain now).2 0 0 (q.drain now).1 ∧ (q.drain now).1.pendingJobs = 0 ∧
      (q.drain now).1.nextJobId = q.nextJobId := by
  have hempty : (q.drain now).1.pendingJobs = 0 := by
    refine Multiset.eq_zero_of_forall_notMem fun job hjob => ?_
    obtain ⟨key, state, hs, hmem⟩ := Dict.mem_sum.mp hjob
    simp only [drain, Dict.get?_mapValues, Option.map_eq_some_iff] at hs
    obtain ⟨s, -, rfl⟩ := hs
    simp at hmem
  have hall : ((q.drain now).2 : Multiset SchedulerJob) = q.pendingJobs := by
    simp only [drain, pendingJobs, Dict.sum, Dict.values, List.flatMap_map]
    induction q.states.entries with
    | nil => rfl
    | cons e es ih => simp [ih, ← Multiset.coe_add]
  refine ⟨⟨⟨?_, fun key state hs => ?_⟩, ⟨rfl, le_rfl⟩, ?_, ?_⟩, hempty, rfl⟩
  · rw [hempty]
    rfl
  · simp only [drain, Dict.get?_mapValues, Option.map_eq_some_iff] at hs
    obtain ⟨s, hs, rfl⟩ := hs
    have hok := h.states key s hs
    have hids : ({ s with pendingJobs := [] } : FairnessState).jobIds.Sublist s.jobIds :=
      List.sublist_append_right _ _
    exact StateOk.markIdle hok.weight hok.account
      (fun hb => hok.idle.mpr (hb.imp (fun hne => absurd rfl hne) id)) (by simp)
      (fun id hid => hok.fresh id (hids.subset hid)) (hok.nodup.sublist hids) (by simp)
  · rw [hempty, hall, zero_add, add_zero]
  · rw [add_zero, add_zero]
    simp only [activeTickets, drain, Dict.sum_mapValues, markIdleIfNeeded_activeStartedAt]

/-- **Every call keeps the invariant.** -/
theorem perform_ok {q : FairPendingQueue} (h : q.Ok) (c : QueueCall) : (q.perform c).1.Ok := by
  obtain ⟨op, now⟩ := c
  cases op with
  | enqueue request streamHandle =>
    rcases enqueue_flow h request streamHandle now with ⟨e, q', heq, hf, -⟩ | ⟨q', heq, hf, -⟩ <;>
      simpa [perform, heq] using hf.ok
  | remove job =>
    rcases remove_flow h job now with ⟨heq, -⟩ | ⟨found, q', heq, -, hf, -⟩
    · simpa [perform, heq] using h
    · simpa [perform, heq] using hf.ok
  | popNext =>
    rcases popNext_flow h now with ⟨q', heq, -, hf, -⟩ | ⟨job, q', heq, hf, -⟩ <;>
      simpa [perform, heq] using hf.ok
  | complete job serviceMs =>
    rcases complete_flow h job serviceMs now with ⟨-, hf⟩ | ⟨-, heq⟩
    · exact hf.ok
    · simpa [perform, heq] using h
  | abandon job =>
    rcases abandon_flow h job now with ⟨-, hf⟩ | ⟨-, hf⟩ <;> exact hf.ok
  | drain => exact (drain_flow h now).1.ok
  | score key => exact expireIdleStates_ok h now
  | snapshots => exact expireIdleStates_ok h now

/-- A snapshot leaves out idle keys only, so a sum over the keys it lists is the
sum over all of them. -/
theorem sum_snapshots {q : FairPendingQueue} (now : ℚ) (f : FairnessKeySnapshot → ℕ)
    (g : FairnessState → ℕ) (hg : ∀ state, ¬ state.Busy → g state = 0)
    (hf : ∀ key state, f
      { fairnessKey := key
        pending := state.pendingJobs.length
        active := state.activeStartedAt.size
        weight := state.weight
        score := state.score now
        rejectedPerKeyLimit := state.rejectedPerKeyLimit
        rejectedExecutorLimit := state.rejectedExecutorLimit } = g state) :
    ((q.snapshots now).2.map f).sum = (q.expireIdleStates now).states.sum fun _ => g := by
  have hperm := List.mergeSort_perm (q.expireIdleStates now).states.entries fun a b => snapshotOrder a.1 b.1
  have hfilter : ∀ es : List (FairnessKey × FairnessState),
      ((es.filter fun e => e.2.Busy).map fun e => g e.2).sum = (es.map fun e => g e.2).sum := by
    intro es
    induction es with
    | nil => rfl
    | cons e es ih =>
      by_cases hb : e.2.Busy
      · simp [hb, ih]
      · simp [hb, ih, hg e.2 hb]
  simp only [snapshots, List.map_map, Function.comp_def, hf]
  rw [hfilter]
  exact (hperm.map fun e => g e.2).sum_eq

/-- The pending counts of a snapshot add up to the queue's. -/
theorem sum_snapshots_pending {q : FairPendingQueue} (h : q.Ok) (now : ℚ) :
    (((q.snapshots now).2.map FairnessKeySnapshot.pending).sum : ℤ) = q.pendingCount := by
  have hflow := expireIdleStates_flow h now
  have hpending : (q.expireIdleStates now).pendingJobs = q.pendingJobs := by simpa using hflow.pending
  rw [sum_snapshots now FairnessKeySnapshot.pending (fun state => state.pendingJobs.length)
    (fun state hb => by simp_all [FairnessState.Busy]) (fun _ _ => rfl), h.count, ← hpending, pendingJobs,
    Dict.card_sum]
  rfl

/-- The active counts of a snapshot add up to the number of active jobs. -/
theorem sum_snapshots_active {q : FairPendingQueue} (h : q.Ok) (now : ℚ) :
    ((q.snapshots now).2.map FairnessKeySnapshot.active).sum = q.activeTickets.card := by
  have hflow := expireIdleStates_flow h now
  have hactive : (q.expireIdleStates now).activeTickets = q.activeTickets := by simpa using hflow.active
  rw [sum_snapshots now FairnessKeySnapshot.active (fun state => state.activeStartedAt.size)
    (fun state hb => by simp_all [FairnessState.Busy, Dict.size]) (fun _ _ => rfl), ← hactive, activeTickets,
    Dict.card_sum]
  simp [Dict.size, Dict.keys]

/-- **Every reachable queue satisfies the invariant.** -/
theorem run_ok {q : FairPendingQueue} (h : q.Ok) (calls : List QueueCall) : (q.run calls).Ok := by
  induction calls generalizing q with
  | nil => exact h
  | cons c calls ih => exact ih (perform_ok h c)

end FairPendingQueue
end TtsPool
