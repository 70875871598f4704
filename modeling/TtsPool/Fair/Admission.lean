/-
# Who is admitted, and what a refusal leaves behind

`enqueue` compares a counter it maintains with one limit and the length of a
bucket that may not exist with the other.  Under the invariant of
`TtsPool.Fair.Invariant` both are counts of the pending jobs there are, so the
test is exact (`enqueue_exact`): a request is admitted iff its key and the
queue both have room once the idle keys are forgotten.  An admitted job stands
last in its bucket and nothing else has moved; a refused request leaves the
aged queue with the counters of its refusal raised.

The limits then hold in every reachable state: only `enqueue` brings in a
pending job (`perform_flow`), and it looks first.
-/

import TtsPool.Fair.Account

namespace TtsPool
namespace FairPendingQueue

/-- The bucket of a key, oldest job first. -/
def bucket (q : FairPendingQueue) (key : FairnessKey) : List SchedulerJob :=
  ((q.states.get? key).map FairnessState.pendingJobs).getD []

/-- The key has room for one more pending job, and so has the queue. -/
def HasRoom (q : FairPendingQueue) (key : FairnessKey) : Prop :=
  (q.bucket key).length < q.settings.maxPendingPerKey ∧
    q.pendingJobs.card < q.settings.maxPendingPerExecutor

/-- `q'` is `q` with one job put last in the bucket of its key. -/
structure Admits (q : FairPendingQueue) (job : SchedulerJob) (q' : FairPendingQueue) : Prop where
  bucket : q'.bucket job.fairnessKey = q.bucket job.fairnessKey ++ [job]
  others : ∀ key, key ≠ job.fairnessKey → q'.states.get? key = q.states.get? key
  own : ∀ state, q.states.get? job.fairnessKey = some state →
    q'.states.get? job.fairnessKey =
      some { state with pendingJobs := state.pendingJobs ++ [job], idleSince := none }
  rest : q' = { q with
    states := q'.states
    nextActivationOrder := q'.nextActivationOrder
    nextJobId := q.nextJobId + 1
    pendingCount := q.pendingCount + 1 }

/-- `q'` is `q` with refusals counted: on the queue, and on the key where it has
a state. -/
structure Refuses (q : FairPendingQueue) (key : FairnessKey) (perKey executor : ℕ)
    (q' : FairPendingQueue) : Prop where
  keys : q'.states.keys = q.states.keys
  others : ∀ other, other ≠ key → q'.states.get? other = q.states.get? other
  own : q'.states.get? key = (q.states.get? key).map fun state =>
    { state with
      rejectedPerKeyLimit := state.rejectedPerKeyLimit + perKey
      rejectedExecutorLimit := state.rejectedExecutorLimit + executor }
  rest : q' = { q with
    states := q'.states
    rejectedPerKeyLimit := q.rejectedPerKeyLimit + perKey
    rejectedExecutorLimit := q.rejectedExecutorLimit + executor }

/-- The limits hold. -/
structure WithinLimits (q : FairPendingQueue) : Prop where
  perKey : ∀ key, (q.bucket key).length ≤ q.settings.maxPendingPerKey
  executor : q.pendingJobs.card ≤ q.settings.maxPendingPerExecutor

/-! ### Buckets are counts of the pending jobs -/

theorem bucket_eq {q : FairPendingQueue} {key : FairnessKey} {state : FairnessState}
    (hs : q.states.get? key = some state) : q.bucket key = state.pendingJobs := by
  simp [bucket, hs]

theorem bucket_eq_nil {q : FairPendingQueue} {key : FairnessKey} (hs : q.states.get? key = none) :
    q.bucket key = [] := by
  simp [bucket, hs]

theorem keyFull_iff {q : FairPendingQueue} {key : FairnessKey} :
    q.KeyFull key ↔ q.settings.maxPendingPerKey ≤ (q.bucket key).length := by
  unfold KeyFull
  cases hs : q.states.get? key with
  | none =>
    have hpos : 0 < q.settings.maxPendingPerKey := q.settings.maxPendingPerKey_pos
    simp [bucket_eq_nil hs, hpos.ne']
  | some state => simp [bucket_eq hs]

/-- **A bucket holds the pending jobs of its key.** -/
theorem length_bucket {q : FairPendingQueue} (h : q.Ok) (key : FairnessKey) :
    (q.bucket key).length = q.pendingJobs.countP fun job => job.fairnessKey = key := by
  have hsum : (q.pendingJobs.countP fun job => job.fairnessKey = key) =
      q.states.sum fun _ state => state.pendingJobs.countP fun job => job.fairnessKey = key := by
    simp [pendingJobs, Dict.countP_sum]
  have hother : ∀ other state, q.states.get? other = some state → other ≠ key →
      (state.pendingJobs.countP fun job => decide (job.fairnessKey = key)) = 0 := by
    intro other state hs hne
    rw [List.countP_eq_zero]
    intro job hjob
    simpa [(h.states other state hs).own job hjob] using hne
  rw [hsum]
  cases hs : q.states.get? key with
  | none =>
    rw [bucket_eq_nil hs, List.length_nil, eq_comm]
    refine List.sum_eq_zero fun n hn => ?_
    obtain ⟨e, he, rfl⟩ := List.mem_map.mp hn
    have he := Dict.get?_eq_some_iff.mpr he
    exact hother e.1 e.2 he fun hk => by simp [← hk, he] at hs
  | some state =>
    rw [bucket_eq hs, Dict.sum_eq_of_others_zero hs _ hother, eq_comm, List.countP_eq_length]
    exact fun job hjob => decide_eq_true ((h.states key state hs).own job hjob)

/-- Only `enqueue` brings in a pending job. -/
theorem perform_flow {q : FairPendingQueue} (h : q.Ok) (c : QueueCall)
    (hop : ∀ request streamHandle, c.op ≠ .enqueue request streamHandle) :
    ∃ left started stopped, q.Flow 0 left started stopped (q.perform c).1 := by
  obtain ⟨op, now⟩ := c
  cases op with
  | enqueue request streamHandle => exact absurd rfl (hop request streamHandle)
  | remove job =>
    rcases remove_flow h job now with ⟨heq, -⟩ | ⟨found, q', heq, -, hf, -⟩
    · exact ⟨0, 0, 0, by simpa [perform, heq] using Flow.refl h⟩
    · exact ⟨_, _, _, by simpa [perform, heq] using hf⟩
  | popNext =>
    rcases popNext_flow h now with ⟨q', heq, -, hf, -⟩ | ⟨job, q', heq, hf, -⟩
    · exact ⟨_, _, _, by simpa [perform, heq] using hf⟩
    · exact ⟨_, _, _, by simpa [perform, heq] using hf⟩
  | complete job serviceMs =>
    rcases complete_flow h job serviceMs now with ⟨-, hf⟩ | ⟨-, heq⟩
    · exact ⟨_, _, _, hf⟩
    · exact ⟨0, 0, 0, by simpa [perform, heq] using Flow.refl h⟩
  | abandon job =>
    rcases abandon_flow h job now with ⟨-, hf⟩ | ⟨-, hf⟩
    · exact ⟨_, _, _, hf⟩
    · exact ⟨_, _, _, hf⟩
  | drain => exact ⟨_, _, _, (drain_flow h now).1⟩
  | score key => exact ⟨_, _, _, expireIdleStates_flow h now⟩
  | snapshots => exact ⟨_, _, _, expireIdleStates_flow h now⟩

/-- Where no job comes in, no count of the pending jobs rises. -/
theorem Flow.countP_le {q q' : FairPendingQueue} {left : Multiset SchedulerJob}
    {started stopped : Multiset Ticket} (hf : q.Flow 0 left started stopped q')
    (p : SchedulerJob → Prop) [DecidablePred p] : q'.pendingJobs.countP p ≤ q.pendingJobs.countP p := by
  have hp := hf.pending
  rw [add_zero] at hp
  exact Multiset.countP_le_of_le p (hp ▸ Multiset.le_add_right _ _)

/-- The limits survive a call that brings in no job. -/
theorem Flow.withinLimits {q q' : FairPendingQueue} {left : Multiset SchedulerJob}
    {started stopped : Multiset Ticket} (hf : q.Flow 0 left started stopped q') (h : q.Ok)
    (hq : q.WithinLimits) : q'.WithinLimits where
  perKey := fun key => by
    rw [length_bucket hf.ok, hf.grows.settings]
    refine (hf.countP_le _).trans ?_
    rw [← length_bucket h]
    exact hq.perKey key
  executor := by
    rw [hf.grows.settings]
    have hcard := congrArg Multiset.card hf.pending
    simp only [Multiset.card_add, Multiset.card_zero] at hcard
    have := hq.executor
    omega

/-! ### The three ways out of `enqueue` -/

theorem accept_admits (q : FairPendingQueue) (request : ResponseRequest) (streamHandle : HandleId) (now : ℚ) :
    q.Admits (q.newJob request streamHandle now) (q.accept request streamHandle now) where
  bucket := by
    change (q.accept request streamHandle now).bucket request.fairnessKey = q.bucket request.fairnessKey ++ _
    rw [bucket_eq (Dict.get?_set_self ..)]
    cases hs : q.states.get? request.fairnessKey with
    | none => simp [bucket_eq_nil hs, newState]
    | some state => simp [bucket_eq hs]
  others := fun key hne => Dict.get?_set_of_ne _ hne _
  own := fun state hs => by
    change (q.accept request streamHandle now).states.get? request.fairnessKey = _
    replace hs : q.states.get? request.fairnessKey = some state := hs
    simp only [accept, Dict.get?_set_self, admissionState, hs]
  rest := rfl

/-- Storing under a key leaves the keys where they stand, if it was there. -/
theorem keys_modify (states : Dict FairnessKey FairnessState) (key : FairnessKey)
    (f : FairnessState → FairnessState) : (states.modify key f).keys = states.keys := by
  cases hs : states.get? key with
  | none => rw [Dict.modify_of_get?_eq_none hs]
  | some state =>
    obtain ⟨pre, post, he, hpre, hpost⟩ := Dict.exists_split hs
    rw [Dict.modify_of_get?_eq_some hs]
    simp only [Dict.keys, Dict.entries_set_of_split he hpre hpost, he, List.map_append, List.map_cons]

theorem rejectPerKey_refuses (q : FairPendingQueue) (key : FairnessKey) :
    q.Refuses key 1 0 (q.rejectPerKey key) where
  keys := keys_modify ..
  others := fun other hne => by rw [rejectPerKey, Dict.get?_modify, if_neg hne]
  own := by
    rw [rejectPerKey, Dict.get?_modify, if_pos rfl]
    rfl
  rest := rfl

theorem rejectExecutor_refuses (q : FairPendingQueue) (key : FairnessKey) :
    q.Refuses key 0 1 (q.rejectExecutor key) where
  keys := keys_modify ..
  others := fun other hne => by rw [rejectExecutor, Dict.get?_modify, if_neg hne]
  own := by
    rw [rejectExecutor, Dict.get?_modify, if_pos rfl]
    rfl
  rest := rfl

/-- **The three ways out.**  The counter and the bucket that `enqueue` looks at
are counts of the pending jobs. -/
theorem enqueue_cases {q : FairPendingQueue} (h : q.Ok) (request : ResponseRequest)
    (streamHandle : HandleId) (now : ℚ) :
    let aged := q.expireIdleStates now
    let key := request.fairnessKey
    (q.settings.maxPendingPerKey ≤ (aged.bucket key).length ∧
      q.enqueue request streamHandle now = (aged.rejectPerKey key, .error (q.keyQueueFull key))) ∨
    ((aged.bucket key).length < q.settings.maxPendingPerKey ∧
      q.settings.maxPendingPerExecutor ≤ aged.pendingJobs.card ∧
      q.enqueue request streamHandle now = (aged.rejectExecutor key, .error q.executorQueueFull)) ∨
    aged.HasRoom key ∧
      q.enqueue request streamHandle now =
        (aged.accept request streamHandle now, .ok (aged.newJob request streamHandle now)) := by
  intro aged key
  have hcount : aged.pendingCount = aged.pendingJobs.card := (expireIdleStates_ok h now).count
  by_cases hkey : aged.KeyFull key
  · refine .inl ⟨keyFull_iff.mp hkey, ?_⟩
    unfold enqueue
    exact if_pos hkey
  have hroom : (aged.bucket key).length < q.settings.maxPendingPerKey :=
    not_le.mp fun hle => hkey (keyFull_iff.mpr hle)
  by_cases hfull : (aged.settings.maxPendingPerExecutor : ℤ) ≤ aged.pendingCount
  · refine .inr (.inl ⟨hroom, ?_, ?_⟩)
    · rw [hcount] at hfull
      exact_mod_cast hfull
    · unfold enqueue
      exact (if_neg hkey).trans (if_pos hfull)
  · refine .inr (.inr ⟨⟨hroom, ?_⟩, ?_⟩)
    · rw [hcount, not_le] at hfull
      exact_mod_cast hfull
    · unfold enqueue
      exact (if_neg hkey).trans (if_neg hfull)

/-! ### Every call, every run -/

/-- **No call exceeds a limit.** -/
theorem perform_withinLimits {q : FairPendingQueue} (h : q.Ok) (hq : q.WithinLimits) (c : QueueCall) :
    (q.perform c).1.WithinLimits := by
  by_cases hop : ∀ request streamHandle, c.op ≠ .enqueue request streamHandle
  · obtain ⟨left, started, stopped, hf⟩ := perform_flow h c hop
    exact hf.withinLimits h hq
  · push Not at hop
    obtain ⟨request, streamHandle, hop⟩ := hop
    have hx := expireIdleStates_flow h c.now
    have hfst : (q.perform c).1 = (q.enqueue request streamHandle c.now).1 := by simp [perform, hop]
    rw [hfst]
    rcases enqueue_flow h request streamHandle c.now with ⟨e, q', heq, hf, -⟩ | ⟨q', heq, hf, -⟩
    · rw [heq]
      exact hf.withinLimits h hq
    have haged := hx.withinLimits h hq
    rcases enqueue_cases h request streamHandle c.now with ⟨-, h'⟩ | ⟨-, -, h'⟩ | ⟨⟨hkey, htotal⟩, h'⟩
    · simp [heq] at h'
    · simp [heq] at h'
    have hadmits := accept_admits (q.expireIdleStates c.now) request streamHandle c.now
    have hflow := accept_flow hx.ok request streamHandle c.now
    rw [h']
    refine ⟨fun key => ?_, ?_⟩
    · by_cases hk : key = request.fairnessKey
      · subst hk
        have hbucket := hadmits.bucket
        rw [show (newJob .. : SchedulerJob).fairnessKey = request.fairnessKey from rfl] at hbucket
        rw [hbucket, List.length_append, List.length_singleton]
        exact hkey
      · rw [bucket, hadmits.others key hk]
        exact haged.perKey key
    · have hcard := congrArg Multiset.card hflow.pending
      simp only [Multiset.card_add, Multiset.card_singleton, Multiset.card_zero] at hcard
      rw [hflow.grows.settings]
      change ((q.expireIdleStates c.now).accept request streamHandle c.now).pendingJobs.card ≤ _
      omega

theorem run_withinLimits {q : FairPendingQueue} (h : q.Ok) (hq : q.WithinLimits) (calls : List QueueCall) :
    (q.run calls).WithinLimits := by
  induction calls generalizing q with
  | nil => exact hq
  | cons c calls ih => exact ih (perform_ok h c) (perform_withinLimits h hq c)

theorem init_withinLimits (modelName : String) (settings : FairnessSettings) :
    (init modelName settings).WithinLimits :=
  ⟨fun key => by simp [bucket, init], by simp [init, pendingJobs, Dict.sum]⟩

/-- **Admission control is exact and atomic.**  In every reachable state an
`enqueue` admits iff key and queue have room after expiry, and reports the
key's refusal first; an admitted job stands last in its bucket and the other
keys stand as they stood; a refusal leaves the aged queue with the matching
counters raised by one and no new key.  So no bucket, and no queue, ever holds
more than its limit. -/
theorem enqueue_exact (modelName : String) (settings : FairnessSettings) (calls : List QueueCall) :
    let q := (init modelName settings).run calls
    q.WithinLimits ∧ q.settings = settings ∧
    ∀ (request : ResponseRequest) (streamHandle : HandleId) (now : ℚ),
      let aged := q.expireIdleStates now
      let key := request.fairnessKey
      let reply := q.enqueue request streamHandle now
      ((∃ job, reply.2 = .ok job) ↔ aged.HasRoom key) ∧
      (reply.2 = .error (q.keyQueueFull key) ↔
        settings.maxPendingPerKey ≤ (aged.bucket key).length) ∧
      (reply.2 = .error q.executorQueueFull ↔
        (aged.bucket key).length < settings.maxPendingPerKey ∧
          settings.maxPendingPerExecutor ≤ aged.pendingJobs.card) ∧
      (∀ job, reply.2 = .ok job →
        job = aged.newJob request streamHandle now ∧ aged.Admits job reply.1) ∧
      (reply.2 = .error (q.keyQueueFull key) → aged.Refuses key 1 0 reply.1) ∧
      (reply.2 = .error q.executorQueueFull → aged.Refuses key 0 1 reply.1) := by
  intro q
  have hok : q.Ok := run_ok (init_ok modelName settings) calls
  have hsettings : q.settings = settings := run_settings _ calls
  refine ⟨run_withinLimits (init_ok modelName settings) (init_withinLimits modelName settings) calls,
    hsettings, fun request streamHandle now => ?_⟩
  intro aged key reply
  -- the two refusals carry different codes
  have hne : q.keyQueueFull key ≠ q.executorQueueFull := by simp [keyQueueFull, executorQueueFull]
  have hroom : aged.HasRoom key ↔ (aged.bucket key).length < settings.maxPendingPerKey ∧
      aged.pendingJobs.card < settings.maxPendingPerExecutor := by
    simp only [HasRoom, aged, expireIdleStates_settings, hsettings]
  rw [← hsettings] at hroom ⊢
  rcases enqueue_cases hok request streamHandle now with ⟨hfull, heq⟩ | ⟨hkey, hfull, heq⟩ | ⟨hhas, heq⟩
  · have hreply : reply = (aged.rejectPerKey key, .error (q.keyQueueFull key)) := heq
    have hnot : ¬ (aged.bucket key).length < q.settings.maxPendingPerKey := not_lt.mpr hfull
    simp only [hreply, hroom, hnot, false_and, reduceCtorEq, exists_false, false_implies, implies_true,
      Except.error.injEq, true_iff, true_implies, hne, true_and, and_true]
    exact ⟨hfull, rejectPerKey_refuses aged key⟩
  · have hreply : reply = (aged.rejectExecutor key, .error q.executorQueueFull) := heq
    have hnot : ¬ aged.pendingJobs.card < q.settings.maxPendingPerExecutor := not_lt.mpr hfull
    have hnotFull : ¬ q.settings.maxPendingPerKey ≤ (aged.bucket key).length := not_le.mpr hkey
    simp only [hreply, hroom, hnot, and_false, reduceCtorEq, exists_false, false_implies, implies_true,
      Except.error.injEq, true_iff, true_implies, hne.symm, true_and, hnotFull]
    exact ⟨⟨hkey, hfull⟩, rejectExecutor_refuses aged key⟩
  · have hreply : reply = (aged.accept request streamHandle now, .ok (aged.newJob request streamHandle now)) := heq
    obtain ⟨hkey, htotal⟩ := hroom.mp hhas
    simp only [hreply, reduceCtorEq, false_implies, Except.ok.injEq, exists_eq', false_iff, not_le.mpr hkey,
      not_le, hkey, htotal, true_and, and_true, forall_eq', true_iff]
    exact ⟨hhas, accept_admits aged request streamHandle now⟩

end FairPendingQueue
end TtsPool
