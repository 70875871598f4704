/-
# The fair pending queue

`_FairPendingQueue` of `app/engine/scheduler.py`: one FIFO bucket of pending
jobs per fairness key, the start times of the key's active jobs, and a
normalized service account `virtual_service_ms`.  A free slot goes to the
pending key with the least score, the account plus the elapsed time of the
active jobs over the weight; ties fall to the soft cap, then to the key
selected least recently, then to the key activated first.

The state dictionary keeps insertion order (`Dict`), as a Python `dict` does.
Times and accounts are rationals, so arithmetic is exact.  The queue has no
clock: every method reads the `now` it is handed.  `FairPendingQueue.perform`
is one method call with its reply, `FairPendingQueue.run` a sequence of calls.
-/

import TtsPool.Common
import TtsPool.Support.Dict
import Mathlib.Algebra.Order.Ring.Rat
import Mathlib.Data.List.MinMax
import Mathlib.Data.Prod.Lex

namespace TtsPool

/-- `FairnessSettings` (`app/config.py`) with the bounds `load_settings`
checks: positive weights and time to live, limits of at least one. -/
structure FairnessSettings where
  defaultWeight : ℚ := 1
  weights : Dict String ℚ := Dict.empty
  softMaxInflightPerKey : ℕ := 1
  maxPendingPerKey : ℕ := 4
  maxPendingPerExecutor : ℕ := 8
  idleStateTtlS : ℚ := 300
  defaultWeight_pos : 0 < defaultWeight
  weights_pos : ∀ e ∈ weights.entries, 0 < e.2
  softMaxInflightPerKey_pos : 1 ≤ softMaxInflightPerKey
  maxPendingPerKey_pos : 1 ≤ maxPendingPerKey
  maxPendingPerExecutor_pos : 1 ≤ maxPendingPerExecutor
  idleStateTtlS_pos : 0 < idleStateTtlS

/-- `_weight`: the configured weight of a key, the default for the anonymous
bucket and for keys not listed. -/
def FairnessSettings.weight (s : FairnessSettings) : FairnessKey → ℚ
  | none => s.defaultWeight
  | some key => (s.weights.get? key).getD s.defaultWeight

theorem FairnessSettings.weight_pos (s : FairnessSettings) (key : FairnessKey) :
    0 < s.weight key := by
  cases key with
  | none => exact s.defaultWeight_pos
  | some key =>
    cases h : s.weights.get? key with
    | none => simpa [weight, h] using s.defaultWeight_pos
    | some w => simpa [weight, h] using s.weights_pos _ (Dict.get?_eq_some_iff.mp h)

/-- The default settings with one client, `"b"`, at three times the default
weight. -/
def FairnessSettings.pair : FairnessSettings where
  weights := Dict.empty.set "b" 3
  defaultWeight_pos := by decide +kernel
  weights_pos := by decide +kernel
  softMaxInflightPerKey_pos := by decide
  maxPendingPerKey_pos := by decide
  maxPendingPerExecutor_pos := by decide
  idleStateTtlS_pos := by decide +kernel

/-- `SchedulerJob`. -/
structure SchedulerJob where
  request : ResponseRequest
  streamHandle : HandleId
  enqueuedAt : ℚ
  jobId : ℕ := 0
  fairnessKey : FairnessKey := none
deriving DecidableEq

/-- `_FairnessState`, what the queue remembers of one key. -/
structure FairnessState where
  pendingJobs : List SchedulerJob
  weight : ℚ
  virtualServiceMs : ℚ
  activeStartedAt : Dict ℕ ℚ
  activationOrder : ℕ
  lastSelectedOrder : ℕ
  idleSince : Option ℚ := none
  rejectedPerKeyLimit : ℕ := 0
  rejectedExecutorLimit : ℕ := 0

namespace FairnessState

/-- A pending or an active job. -/
def Busy (state : FairnessState) : Prop :=
  state.pendingJobs ≠ [] ∨ state.activeStartedAt.entries ≠ []

instance (state : FairnessState) : Decidable state.Busy := inferInstanceAs (Decidable (_ ∨ _))

/-- `_score`: the account plus the elapsed milliseconds of the active jobs over
the weight. -/
def score (state : FairnessState) (now : ℚ) : ℚ :=
  let activeElapsedMs := (state.activeStartedAt.values.map fun startedAt => max 0 (now - startedAt) * 1000).sum
  state.virtualServiceMs + activeElapsedMs / state.weight

/-- `_mark_idle_if_needed`. -/
def markIdleIfNeeded (state : FairnessState) (now : ℚ) : FairnessState :=
  if state.Busy then state else { state with idleSince := some now }

/-- Idle for at least the time to live. -/
def Expired (settings : FairnessSettings) (now : ℚ) (state : FairnessState) : Prop :=
  ∃ since ∈ state.idleSince, settings.idleStateTtlS ≤ now - since

instance (settings : FairnessSettings) (now : ℚ) (state : FairnessState) :
    Decidable (state.Expired settings now) :=
  match h : state.idleSince with
  | none => isFalse fun ⟨_, hs, _⟩ => by simp [h] at hs
  | some since =>
    decidable_of_iff (settings.idleStateTtlS ≤ now - since)
      ⟨fun ht => ⟨since, h, ht⟩, fun ⟨_, hs, ht⟩ => by
        rw [Option.mem_def, h] at hs
        exact Option.some.inj hs ▸ ht⟩

/-- What `pop_next` minimizes over the keys with pending work: the score, then
whether the soft cap is reached, then the last selection, then the
activation. -/
def selectionRank (settings : FairnessSettings) (now : ℚ) (state : FairnessState) :
    ℚ ×ₗ Bool ×ₗ ℕ ×ₗ ℕ :=
  toLex (state.score now,
    toLex (decide (settings.softMaxInflightPerKey ≤ state.activeStartedAt.size),
      toLex (state.lastSelectedOrder, state.activationOrder)))

end FairnessState

/-- `FairnessKeySnapshot`. -/
structure FairnessKeySnapshot where
  fairnessKey : FairnessKey
  pending : ℕ
  active : ℕ
  weight : ℚ
  score : ℚ
  rejectedPerKeyLimit : ℕ
  rejectedExecutorLimit : ℕ
deriving DecidableEq

/-- `_FairPendingQueue`. -/
structure FairPendingQueue where
  modelName : String
  settings : FairnessSettings
  states : Dict FairnessKey FairnessState := Dict.empty
  pendingCount : ℤ := 0
  nextJobId : ℕ := 1
  nextActivationOrder : ℕ := 0
  nextSelectionOrder : ℕ := 1
  rejectedPerKeyLimit : ℕ := 0
  rejectedExecutorLimit : ℕ := 0

namespace FairPendingQueue

/-- `_display_key`. -/
def displayKey (key : FairnessKey) : String := key.getD "anonymous"

/-- `_expire_idle_states`: forget the keys idle for the time to live. -/
def expireIdleStates (q : FairPendingQueue) (now : ℚ) : FairPendingQueue :=
  { q with states := q.states.filter fun _ state => !decide (state.Expired q.settings now) }

/-- The least score of the busy keys, `0` when there is none. -/
def baseline (q : FairPendingQueue) (now : ℚ) : ℚ :=
  (((q.states.values.filter fun state => state.Busy).map fun state => state.score now).min?).getD 0

/-- `_new_state`, before the activation counter moves on. -/
def newState (q : FairPendingQueue) (key : FairnessKey) (now : ℚ) : FairnessState where
  pendingJobs := []
  weight := q.settings.weight key
  virtualServiceMs := q.baseline now
  activeStartedAt := Dict.empty
  activationOrder := q.nextActivationOrder
  lastSelectedOrder := 0

/-- The refusal of a key whose own bucket is full. -/
def keyQueueFull (q : FairPendingQueue) (key : FairnessKey) : EngineError :=
  .requestAdmission 429 "fairness_key_queue_full"
    ("pending queue for fairness key " ++ pyRepr (displayKey key) ++ " is full for model " ++
      pyRepr q.modelName)

/-- The refusal of an executor whose buckets together are full. -/
def executorQueueFull (q : FairPendingQueue) : EngineError :=
  .requestAdmission 429 "executor_queue_full"
    ("pending queue is full for model " ++ pyRepr q.modelName)

/-- The job `enqueue` builds for an admitted request. -/
def newJob (q : FairPendingQueue) (request : ResponseRequest) (streamHandle : HandleId)
    (now : ℚ) : SchedulerJob where
  request := request
  streamHandle := streamHandle
  enqueuedAt := now
  jobId := q.nextJobId
  fairnessKey := request.fairnessKey

/-- The refusal of the key's own limit, counted on the key and on the queue. -/
def rejectPerKey (q : FairPendingQueue) (key : FairnessKey) : FairPendingQueue :=
  { q with
    states := q.states.modify key fun state =>
      { state with rejectedPerKeyLimit := state.rejectedPerKeyLimit + 1 }
    rejectedPerKeyLimit := q.rejectedPerKeyLimit + 1 }

/-- The refusal of the executor's limit, counted on the queue and, when the key
is known, on the key. -/
def rejectExecutor (q : FairPendingQueue) (key : FairnessKey) : FairPendingQueue :=
  { q with
    states := q.states.modify key fun state =>
      { state with rejectedExecutorLimit := state.rejectedExecutorLimit + 1 }
    rejectedExecutorLimit := q.rejectedExecutorLimit + 1 }

/-- The key's state at admission: the retained one, or a new one, which moves
the activation counter on. -/
def admissionState (q : FairPendingQueue) (key : FairnessKey) (now : ℚ) : FairnessState × ℕ :=
  match q.states.get? key with
  | some state => (state, q.nextActivationOrder)
  | none => (q.newState key now, q.nextActivationOrder + 1)

/-- An admitted request: its job goes last in its key's bucket. -/
def accept (q : FairPendingQueue) (request : ResponseRequest) (streamHandle : HandleId) (now : ℚ) :
    FairPendingQueue :=
  let (state, nextActivationOrder) := q.admissionState request.fairnessKey now
  { q with
    states := q.states.set request.fairnessKey
      { state with
        pendingJobs := state.pendingJobs ++ [q.newJob request streamHandle now]
        idleSince := none }
    nextActivationOrder := nextActivationOrder
    nextJobId := q.nextJobId + 1
    pendingCount := q.pendingCount + 1 }

/-- The key's bucket has reached `max_pending_per_key`. -/
def KeyFull (q : FairPendingQueue) (key : FairnessKey) : Prop :=
  ∃ state ∈ q.states.get? key, q.settings.maxPendingPerKey ≤ state.pendingJobs.length

instance (q : FairPendingQueue) (key : FairnessKey) : Decidable (q.KeyFull key) :=
  inferInstanceAs (Decidable (∃ state ∈ q.states.get? key, _))

/-- `enqueue`. -/
def enqueue (q : FairPendingQueue) (request : ResponseRequest) (streamHandle : HandleId) (now : ℚ) :
    FairPendingQueue × Except EngineError SchedulerJob :=
  let q := q.expireIdleStates now
  let key := request.fairnessKey
  if q.KeyFull key then
    (q.rejectPerKey key, .error (q.keyQueueFull key))
  else if q.settings.maxPendingPerExecutor ≤ q.pendingCount then
    (q.rejectExecutor key, .error q.executorQueueFull)
  else
    (q.accept request streamHandle now, .ok (q.newJob request streamHandle now))

/-- `remove`: the first pending job of the key with the same id is taken out. -/
def remove (q : FairPendingQueue) (job : SchedulerJob) (now : ℚ) : FairPendingQueue × Bool :=
  match q.states.get? job.fairnessKey with
  | none => (q, false)
  | some state =>
    match state.pendingJobs.find? fun candidate => candidate.jobId = job.jobId with
    | none => (q, false)
    | some found =>
      ({ q with
          states := q.states.set job.fairnessKey
            ({ state with pendingJobs := state.pendingJobs.erase found }.markIdleIfNeeded now)
          pendingCount := q.pendingCount - 1 }, true)

/-- The keys `pop_next` chooses from, in dictionary order. -/
def candidates (q : FairPendingQueue) : List (FairnessKey × FairnessState) :=
  q.states.entries.filter fun e => e.2.pendingJobs ≠ []

/-- The key `pop_next` selects, once the expired ones are gone. -/
def selected (q : FairPendingQueue) (now : ℚ) : Option (FairnessKey × FairnessState) :=
  q.candidates.argmin fun e => e.2.selectionRank q.settings now

/-- The selected key hands its oldest job to a slot. -/
def dispatch (q : FairPendingQueue) (key : FairnessKey) (state : FairnessState) (job : SchedulerJob)
    (rest : List SchedulerJob) (now : ℚ) : FairPendingQueue :=
  { q with
    states := q.states.set key
      { state with
        pendingJobs := rest
        activeStartedAt := state.activeStartedAt.set job.jobId now
        lastSelectedOrder := q.nextSelectionOrder
        idleSince := none }
    nextSelectionOrder := q.nextSelectionOrder + 1
    pendingCount := q.pendingCount - 1 }

/-- `pop_next`. -/
def popNext (q : FairPendingQueue) (now : ℚ) : FairPendingQueue × Option SchedulerJob :=
  let q := q.expireIdleStates now
  match q.selected now with
  | none => (q, none)
  | some (key, state) =>
    match state.pendingJobs with
    -- a candidate's bucket is not empty, so `popleft` has a job to return
    | [] => (q, none)
    | job :: rest => (q.dispatch key state job rest now, some job)

/-- `complete`: the active job leaves its key and its service is charged. -/
def complete (q : FairPendingQueue) (job : SchedulerJob) (serviceMs now : ℚ) : FairPendingQueue :=
  match q.states.get? job.fairnessKey with
  | none => q
  | some state =>
    match state.activeStartedAt.get? job.jobId with
    | none => q
    | some _ =>
      { q with
        states := q.states.set job.fairnessKey
          ({ state with
              activeStartedAt := state.activeStartedAt.erase job.jobId
              virtualServiceMs := state.virtualServiceMs + max 0 serviceMs / state.weight }.markIdleIfNeeded now) }

/-- `abandon`: the active job leaves its key uncharged. -/
def abandon (q : FairPendingQueue) (job : SchedulerJob) (now : ℚ) : FairPendingQueue :=
  { q with
    states := q.states.modify job.fairnessKey fun state =>
      { state with activeStartedAt := state.activeStartedAt.erase job.jobId }.markIdleIfNeeded now }

/-- `drain`: every bucket is emptied, in dictionary order. -/
def drain (q : FairPendingQueue) (now : ℚ) : FairPendingQueue × List SchedulerJob :=
  ({ q with
      states := q.states.mapValues fun state => { state with pendingJobs := [] }.markIdleIfNeeded now
      pendingCount := 0 },
    q.states.values.flatMap FairnessState.pendingJobs)

/-- `score`. -/
def score (q : FairPendingQueue) (key : FairnessKey) (now : ℚ) : FairPendingQueue × Option ℚ :=
  let q := q.expireIdleStates now
  (q, (q.states.get? key).map fun state => state.score now)

/-- The order of `snapshots`: the anonymous bucket first, then the keys by
name. -/
def snapshotOrder : FairnessKey → FairnessKey → Bool
  | none, _ => true
  | some _, none => false
  | some a, some b => decide (a ≤ b)

/-- `snapshots`: the busy keys, in order. -/
def snapshots (q : FairPendingQueue) (now : ℚ) : FairPendingQueue × List FairnessKeySnapshot :=
  let q := q.expireIdleStates now
  (q, ((q.states.entries.mergeSort fun a b => snapshotOrder a.1 b.1).filter fun e => e.2.Busy).map fun e =>
    { fairnessKey := e.1
      pending := e.2.pendingJobs.length
      active := e.2.activeStartedAt.size
      weight := e.2.weight
      score := e.2.score now
      rejectedPerKeyLimit := e.2.rejectedPerKeyLimit
      rejectedExecutorLimit := e.2.rejectedExecutorLimit })

end FairPendingQueue

/-- The methods of `_FairPendingQueue`, with their arguments. -/
inductive QueueOp where
  | enqueue (request : ResponseRequest) (streamHandle : HandleId)
  | remove (job : SchedulerJob)
  | popNext
  | complete (job : SchedulerJob) (serviceMs : ℚ)
  | abandon (job : SchedulerJob)
  | drain
  | score (key : FairnessKey)
  | snapshots
deriving DecidableEq

/-- One method call, at the time it is handed. -/
structure QueueCall where
  op : QueueOp
  now : ℚ
deriving DecidableEq

/-- What a method call returns or raises. -/
inductive QueueReply where
  | enqueued (result : Except EngineError SchedulerJob)
  | removed (found : Bool)
  | popped (job : Option SchedulerJob)
  | done
  | drained (jobs : List SchedulerJob)
  | scored (value : Option ℚ)
  | listed (keys : List FairnessKeySnapshot)

namespace FairPendingQueue

/-- One method call: the queue after it, and its reply. -/
def perform (q : FairPendingQueue) (c : QueueCall) : FairPendingQueue × QueueReply :=
  match c.op with
  | .enqueue request streamHandle =>
    let (q, result) := q.enqueue request streamHandle c.now
    (q, .enqueued result)
  | .remove job =>
    let (q, found) := q.remove job c.now
    (q, .removed found)
  | .popNext =>
    let (q, job) := q.popNext c.now
    (q, .popped job)
  | .complete job serviceMs => (q.complete job serviceMs c.now, .done)
  | .abandon job => (q.abandon job c.now, .done)
  | .drain =>
    let (q, jobs) := q.drain c.now
    (q, .drained jobs)
  | .score key =>
    let (q, value) := q.score key c.now
    (q, .scored value)
  | .snapshots =>
    let (q, keys) := q.snapshots c.now
    (q, .listed keys)

/-- The queue after a sequence of method calls. -/
def run (q : FairPendingQueue) (calls : List QueueCall) : FairPendingQueue :=
  calls.foldl (fun q c => (q.perform c).1) q

@[simp] theorem run_nil (q : FairPendingQueue) : q.run [] = q := rfl

@[simp] theorem run_cons (q : FairPendingQueue) (c : QueueCall) (calls : List QueueCall) :
    q.run (c :: calls) = (q.perform c).1.run calls := rfl

/-- The queue of a new executor. -/
def init (modelName : String) (settings : FairnessSettings) : FairPendingQueue :=
  { modelName := modelName, settings := settings }

end FairPendingQueue
end TtsPool
