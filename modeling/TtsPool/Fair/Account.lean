/-
# What one call does to the accounts

Fairness is a statement about scores, and a score has two parts: the account
`virtual_service_ms` and the elapsed time of the active jobs.  Only four things
ever move them.  A key that comes back unknown opens an account at the
baseline; `pop_next` starts a job of the key of least rank; `complete` stops a
job and charges it; `abandon` stops one uncharged.  Everything else a call does
to a key's state, `FairnessState.SameAccount`, leaves both parts alone.

`Change` lists the cases and `perform_change` says there are no others, so the
fairness proofs that follow unfold no method of the queue.
-/

import TtsPool.Fair.Invariant

namespace TtsPool

namespace FairnessState

/-- The weight, the account and the active jobs agree. -/
structure SameAccount (state state' : FairnessState) : Prop where
  weight : state'.weight = state.weight
  account : state'.virtualServiceMs = state.virtualServiceMs
  active : state'.activeStartedAt = state.activeStartedAt

theorem SameAccount.refl (state : FairnessState) : state.SameAccount state := ⟨rfl, rfl, rfl⟩

theorem SameAccount.markIdleIfNeeded {state state' : FairnessState} (h : state.SameAccount state')
    (now : ℚ) : state.SameAccount (state'.markIdleIfNeeded now) := by
  unfold FairnessState.markIdleIfNeeded
  split_ifs
  · exact h
  · exact ⟨h.weight, h.account, h.active⟩

theorem SameAccount.score_eq {state state' : FairnessState} (h : state.SameAccount state') (now : ℚ) :
    state'.score now = state.score now := by
  simp only [score, h.weight, h.account, h.active]

end FairnessState

namespace FairPendingQueue

/-- The key has a pending or an active job. -/
def KeyBusy (q : FairPendingQueue) (key : FairnessKey) : Prop :=
  ∃ state ∈ q.states.get? key, state.Busy

/-- The key has a pending job. -/
def KeyPending (q : FairPendingQueue) (key : FairnessKey) : Prop :=
  ∃ state ∈ q.states.get? key, state.pendingJobs ≠ []

instance (q : FairPendingQueue) (key : FairnessKey) : Decidable (q.KeyBusy key) :=
  inferInstanceAs (Decidable (∃ state ∈ q.states.get? key, _))

instance (q : FairPendingQueue) (key : FairnessKey) : Decidable (q.KeyPending key) :=
  inferInstanceAs (Decidable (∃ state ∈ q.states.get? key, _))

/-- The score of a busy key, as the method answers it. -/
theorem score_of_busy {q : FairPendingQueue} (h : q.Ok) {key : FairnessKey} {state : FairnessState}
    (hs : q.states.get? key = some state) (hb : state.Busy) (now : ℚ) :
    (q.score key now).2 = some (state.score now) := by
  simp only [score, get?_expireIdleStates_of_busy h hs hb, Option.map_some]

/-- The queue a method works on: `enqueue`, `pop_next`, `score` and
`snapshots` forget the expired keys first. -/
def aged (q : FairPendingQueue) (c : QueueCall) : FairPendingQueue :=
  match c.op with
  | .enqueue .. | .popNext | .score _ | .snapshots => q.expireIdleStates c.now
  | .remove _ | .complete .. | .abandon _ | .drain => q

theorem aged_ok {q : FairPendingQueue} (h : q.Ok) (c : QueueCall) : (q.aged c).Ok := by
  unfold aged
  split
  all_goals first | exact h | exact expireIdleStates_ok h c.now

@[simp] theorem aged_settings (q : FairPendingQueue) (c : QueueCall) :
    (q.aged c).settings = q.settings := by
  unfold aged
  split <;> rfl

/-- What the method works on was there before. -/
theorem get?_of_get?_aged {q : FairPendingQueue} {c : QueueCall} {key : FairnessKey}
    {state : FairnessState} (hs : (q.aged c).states.get? key = some state) :
    q.states.get? key = some state := by
  unfold aged at hs
  split at hs
  all_goals first | exact hs | exact (get?_expireIdleStates.mp hs).1

/-- No call touches the settings. -/
@[simp] theorem perform_settings (q : FairPendingQueue) (c : QueueCall) :
    (q.perform c).1.settings = q.settings := by
  obtain ⟨op, now⟩ := c
  cases op with
  | enqueue request streamHandle =>
    simp only [perform, enqueue]
    split_ifs <;> rfl
  | remove job =>
    simp only [perform, remove]
    repeat' split
    all_goals rfl
  | popNext =>
    simp only [perform, popNext]
    repeat' split
    all_goals rfl
  | complete job serviceMs =>
    simp only [perform, complete]
    repeat' split
    all_goals rfl
  | abandon | drain | score | snapshots => rfl

/-- Key states are only ever added to the ones activated so far. -/
theorem nextActivationOrder_le (q : FairPendingQueue) (c : QueueCall) :
    q.nextActivationOrder ≤ (q.perform c).1.nextActivationOrder := by
  obtain ⟨op, now⟩ := c
  cases op with
  | enqueue request streamHandle =>
    simp only [perform, enqueue]
    split_ifs
    · exact le_rfl
    · exact le_rfl
    · simp only [accept, admissionState]
      split
      · exact le_rfl
      · exact Nat.le_succ _
  | remove job =>
    simp only [perform, remove]
    repeat' split
    all_goals exact le_rfl
  | popNext =>
    simp only [perform, popNext]
    repeat' split
    all_goals exact le_rfl
  | complete job serviceMs =>
    simp only [perform, complete]
    repeat' split
    all_goals exact le_rfl
  | abandon | drain | score | snapshots => exact le_rfl

theorem run_settings (q : FairPendingQueue) (calls : List QueueCall) :
    (q.run calls).settings = q.settings := by
  induction calls generalizing q with
  | nil => rfl
  | cons c calls ih => rw [run_cons, ih, perform_settings]

/-- A key's active jobs are among the active jobs. -/
theorem size_le_activeTickets {q : FairPendingQueue} {key : FairnessKey} {state : FairnessState}
    (hs : q.states.get? key = some state) : state.activeStartedAt.size ≤ q.activeTickets.card := by
  obtain ⟨pre, post, he, -, -⟩ := Dict.exists_split hs
  simp only [activeTickets, Dict.sum, he, List.map_append, List.map_cons, List.sum_append,
    List.sum_cons, Multiset.card_add, Multiset.coe_card, List.length_map, Dict.keys, Dict.size]
  omega

/-- A busy key is there for every method. -/
theorem get?_aged_of_busy {q : FairPendingQueue} (h : q.Ok) (c : QueueCall) {key : FairnessKey}
    {state : FairnessState} (hs : q.states.get? key = some state) (hb : state.Busy) :
    (q.aged c).states.get? key = some state := by
  unfold aged
  split
  all_goals first | exact hs | exact get?_expireIdleStates_of_busy h hs hb

/-- Forgetting keys does not raise a sum of nonnegative terms. -/
theorem sum_aged_le (q : FairPendingQueue) (c : QueueCall) {f : FairnessKey → FairnessState → ℚ}
    (hf : ∀ key state, 0 ≤ f key state) : (q.aged c).states.sum f ≤ q.states.sum f := by
  unfold aged
  split
  all_goals first | exact le_rfl | exact Dict.sum_filter_le _ _ fun e _ => hf e.1 e.2

/-- How a call moves the account of a key, whose state becomes `state'`. -/
inductive Change (q : FairPendingQueue) (c : QueueCall) (key : FairnessKey)
    (state' : FairnessState) : Prop
  | kept (state : FairnessState) (hs : (q.aged c).states.get? key = some state)
      (hsame : state.SameAccount state')
  | entered (request : ResponseRequest) (streamHandle : HandleId)
      (hop : c.op = .enqueue request streamHandle) (hkey : request.fairnessKey = key)
      (hs : (q.aged c).states.get? key = none)
      (hnext : (q.perform c).1.nextActivationOrder = q.nextActivationOrder + 1)
      (hsame : ((q.aged c).newState key c.now).SameAccount state')
  | started (state : FairnessState) (job : SchedulerJob) (hop : c.op = .popNext)
      (hs : (q.aged c).states.get? key = some state)
      (hreply : (q.popNext c.now).2 = some job) (hkey : job.fairnessKey = key)
      (hpending : state.pendingJobs = job :: state'.pendingJobs)
      (hleast : ∀ other s, (q.aged c).states.get? other = some s → s.pendingJobs ≠ [] →
        state.selectionRank q.settings c.now ≤ s.selectionRank q.settings c.now)
      (hsame : { state with
        activeStartedAt := state.activeStartedAt.set job.jobId c.now }.SameAccount state')
  | charged (state : FairnessState) (job : SchedulerJob) (serviceMs startedAt : ℚ)
      (hop : c.op = .complete job serviceMs) (hkey : job.fairnessKey = key)
      (hs : (q.aged c).states.get? key = some state)
      (hactive : state.activeStartedAt.get? job.jobId = some startedAt)
      (hsame : { state with
        activeStartedAt := state.activeStartedAt.erase job.jobId
        virtualServiceMs := state.virtualServiceMs + max 0 serviceMs / state.weight }.SameAccount state')
  | released (state : FairnessState) (job : SchedulerJob) (hop : c.op = .abandon job)
      (hkey : job.fairnessKey = key) (hs : (q.aged c).states.get? key = some state)
      (hsame : { state with
        activeStartedAt := state.activeStartedAt.erase job.jobId }.SameAccount state')

/-- **A selection** starts the job it answers with, under the job's key, which
has pending work and the least rank. -/
theorem popNext_started {q : FairPendingQueue} (h : q.Ok) {now : ℚ} {job : SchedulerJob}
    (hreply : (q.popNext now).2 = some job) :
    ∃ state state', (q.expireIdleStates now).states.get? job.fairnessKey = some state ∧
      (q.popNext now).1.states = (q.expireIdleStates now).states.set job.fairnessKey state' ∧
      state.pendingJobs = job :: state'.pendingJobs ∧
      (∀ other s, (q.expireIdleStates now).states.get? other = some s → s.pendingJobs ≠ [] →
        state.selectionRank q.settings now ≤ s.selectionRank q.settings now) ∧
      { state with activeStartedAt := state.activeStartedAt.set job.jobId now }.SameAccount state' := by
  unfold popNext at hreply ⊢
  simp only at hreply ⊢
  cases hsel : (q.expireIdleStates now).selected now with
  | none => simp [hsel] at hreply
  | some found =>
    obtain ⟨key, state⟩ := found
    obtain ⟨hs, -, hleast⟩ := selected_spec hsel
    cases hp : state.pendingJobs with
    | nil => simp [hsel, hp] at hreply
    | cons first rest =>
      simp only [hsel, hp, Option.some.injEq] at hreply ⊢
      subst hreply
      obtain rfl := ((expireIdleStates_ok h now).states key state hs).own first (by simp [hp])
      exact ⟨state, _, hs, rfl, by simp [hp], hleast, rfl, rfl, rfl⟩

/-- A call of `pop_next` that finds no job only forgets the expired keys. -/
theorem popNext_none {q : FairPendingQueue} {now : ℚ} (hreply : (q.popNext now).2 = none) :
    (q.popNext now).1.states = (q.expireIdleStates now).states := by
  unfold popNext at hreply ⊢
  simp only at hreply ⊢
  repeat' split
  all_goals simp_all

/-- A refusal counted on a key leaves its account alone. -/
theorem Change.of_modify {q : FairPendingQueue} {c : QueueCall} {key : FairnessKey}
    {states : Dict FairnessKey FairnessState} {f : FairnessState → FairnessState}
    (heq : states = (q.aged c).states.modify key f) (hf : ∀ state : FairnessState, state.SameAccount (f state)) :
    states = (q.aged c).states ∨
      ∃ key state', states = (q.aged c).states.set key state' ∧ q.Change c key state' := by
  cases hs : (q.aged c).states.get? key with
  | none => exact .inl (heq.trans (Dict.modify_of_get?_eq_none hs f))
  | some state =>
    exact .inr ⟨key, f state, heq.trans (Dict.modify_of_get?_eq_some hs f), .kept state hs (hf state)⟩

/-- Only `pop_next` answers with a job. -/
theorem op_of_popped {q : FairPendingQueue} {c : QueueCall} {job : SchedulerJob}
    (h : (q.perform c).2 = .popped (some job)) : c.op = .popNext := by
  unfold perform at h
  cases hop : c.op <;> simp [hop] at h ⊢

/-- **One call, one account.**  A call that is not `drain` leaves every state
that survives expiry as it is, or changes the state of a single key in one of
the ways of `Change`. -/
theorem perform_change {q : FairPendingQueue} (h : q.Ok) (c : QueueCall) (hdrain : c.op ≠ .drain) :
    (q.perform c).1.states = (q.aged c).states ∨
      ∃ key state', (q.perform c).1.states = (q.aged c).states.set key state' ∧
        q.Change c key state' := by
  obtain ⟨op, now⟩ := c
  cases op with
  | enqueue request streamHandle =>
    simp only [perform, enqueue]
    split_ifs with hkey hfull
    · exact Change.of_modify rfl fun state => ⟨rfl, rfl, rfl⟩
    · exact Change.of_modify rfl fun state => ⟨rfl, rfl, rfl⟩
    · refine .inr ⟨request.fairnessKey, _, rfl, ?_⟩
      cases hs : (q.expireIdleStates now).states.get? request.fairnessKey with
      | some state =>
        refine .kept state hs ?_
        constructor <;> simp
      | none =>
        refine .entered request streamHandle rfl rfl hs ?_ ?_
        · simp only [perform, enqueue, if_neg hkey, if_neg hfull, accept, admissionState, hs]
          rfl
        · constructor <;> simp [aged]
  | remove job =>
    simp only [perform, remove]
    cases hs : q.states.get? job.fairnessKey with
    | none => exact .inl rfl
    | some state =>
      simp only
      cases state.pendingJobs.find? fun candidate => candidate.jobId = job.jobId with
      | none => exact .inl rfl
      | some found =>
        refine .inr ⟨job.fairnessKey, _, rfl, .kept state hs ?_⟩
        refine FairnessState.SameAccount.markIdleIfNeeded ?_ now
        exact ⟨rfl, rfl, rfl⟩
  | popNext =>
    cases hreply : (q.popNext now).2 with
    | none => exact .inl (popNext_none hreply)
    | some job =>
      obtain ⟨state, state', hs, heq, hpending, hleast, hsame⟩ := popNext_started h hreply
      exact .inr ⟨_, state', heq, .started state job rfl hs hreply rfl hpending hleast hsame⟩
  | complete job serviceMs =>
    simp only [perform, complete]
    cases hs : q.states.get? job.fairnessKey with
    | none => exact .inl rfl
    | some state =>
      simp only
      cases ha : state.activeStartedAt.get? job.jobId with
      | none => exact .inl rfl
      | some startedAt =>
        refine .inr ⟨job.fairnessKey, _, rfl, .charged state job serviceMs startedAt rfl rfl hs ha ?_⟩
        refine FairnessState.SameAccount.markIdleIfNeeded ?_ now
        exact ⟨rfl, rfl, rfl⟩
  | abandon job =>
    cases hs : q.states.get? job.fairnessKey with
    | none => exact .inl (Dict.modify_of_get?_eq_none hs _)
    | some state =>
      refine .inr ⟨job.fairnessKey, _, Dict.modify_of_get?_eq_some hs _, .released state job rfl rfl hs ?_⟩
      refine FairnessState.SameAccount.markIdleIfNeeded ?_ now
      exact ⟨rfl, rfl, rfl⟩
  | drain => exact absurd rfl hdrain
  | score key => exact .inl rfl
  | snapshots => exact .inl rfl

/-- The change of one key: whatever stands under it after a call came about in
one of the ways of `Change`. -/
theorem get?_perform {q : FairPendingQueue} (h : q.Ok) (c : QueueCall) {key : FairnessKey}
    {state' : FairnessState} (hs : (q.perform c).1.states.get? key = some state') :
    q.Change c key state' := by
  by_cases hdrain : c.op = .drain
  · have haged : q.aged c = q := by simp [aged, hdrain]
    have hstates : (q.perform c).1.states = (q.drain c.now).1.states := by
      unfold perform
      rw [hdrain]
    rw [hstates, drain, Dict.get?_mapValues, Option.map_eq_some_iff] at hs
    obtain ⟨state, hs, rfl⟩ := hs
    refine .kept state (by rwa [haged]) ?_
    refine FairnessState.SameAccount.markIdleIfNeeded ?_ c.now
    exact ⟨rfl, rfl, rfl⟩
  · rcases perform_change h c hdrain with heq | ⟨k, s, heq, hchange⟩
    · exact .kept state' (heq ▸ hs) (.refl state')
    · rw [heq] at hs
      by_cases hk : key = k
      · subst hk
        rw [Dict.get?_set_self, Option.some.injEq] at hs
        exact hs ▸ hchange
      · rw [Dict.get?_set_of_ne _ hk] at hs
        exact .kept state' hs (.refl state')

end FairPendingQueue
end TtsPool
