/-
# How the executor shares the time of its backend

All the executor does to its fair queue is call it: a task makes one call, or none
(`queueCall`, `queue_of_run`).  So a run of the executor is seen in its queue as the
run of the calls it makes, and what holds of every run of the queue holds here.

The calls are not metered as exactly as the queue might wish.  A slot is taken at
the dispatcher's reading of the clock, the backend begins later, and its end is read
before the worker has `_cond`; what is charged is the time between these last two.
`backend_time_shared` says what is left of fairness then: the backend times two
competing keys are charged, each over its weight, stay together up to the
executor's slots counted in full.
-/

import TtsPool.Executor.Runs
import TtsPool.Fair.Service

namespace TtsPool

open Threads (Effect Config Action)

namespace ExecutorState

/-- The call of the queue a task makes when it runs. -/
def queueCall (s : ExecutorState) (task : ExecutorTask) (input : ExecutorInput) : Option QueueCall :=
  match task, input with
  | .enqueueStream request h, .clock now =>
    if !s.executor.acceptingNewRequests || s.executor.stopRequested then none
    else some ⟨.enqueue request h, now⟩
  | .snapshot, .clock now => some ⟨.snapshots, now⟩
  | .beginShutdown, .clock now => some ⟨.drain, now⟩
  | .cancelStreamJob job _, .clock now => some ⟨.remove job, now⟩
  | .runLoop, .clock now | .parked, .clock now =>
    if 0 < s.queue.pendingCount ∧ s.executor.runtimeInflight < s.executor.effectiveTargetInflight then
      some ⟨.popNext, now⟩
    else none
  | .abandonJob job _, .clock now => some ⟨.abandon job, now⟩
  | .release job backendStartedAt backendFinishedAt _, _ =>
    some ⟨.complete job (max 0 ((backendFinishedAt - backendStartedAt) * 1000)), backendFinishedAt⟩
  | _, _ => none

variable {s : ExecutorState} {task : ExecutorTask} {bag : Multiset ExecutorTask} {e : Step}
  {input : ExecutorInput} {key i j : FairnessKey} {c : Config ExecutorState ExecutorTask} {L : ℚ}

theorem runLoop_queue (s : ExecutorState) (now : ℚ) :
    (s.runLoop now).state.queue = (s.queueCall .runLoop (.clock now)).elim s.queue
      fun call => (s.queue.perform call).1 := by
  have hcall : s.queueCall .runLoop (.clock now) =
      if 0 < s.queue.pendingCount ∧ s.executor.runtimeInflight < s.executor.effectiveTargetInflight then
        some ⟨.popNext, now⟩ else none := rfl
  rw [hcall]
  unfold runLoop
  split_ifs with hstop hpop hpop
  · omega
  · rfl
  · split
    · rename_i queue heq
      simp only [Option.elim_some, FairPendingQueue.perform, heq]
      rfl
    · rename_i queue job heq
      simp only [Option.elim_some, FairPendingQueue.perform, heq]
  · rfl

theorem enqueueStream_queue (s : ExecutorState) (request : ResponseRequest) (h : HandleId) (now : ℚ) :
    (s.enqueueStream request h now).state.queue = (s.queueCall (.enqueueStream request h) (.clock now)).elim s.queue
      fun call => (s.queue.perform call).1 := by
  have hcall : s.queueCall (.enqueueStream request h) (.clock now) =
      if !s.executor.acceptingNewRequests || s.executor.stopRequested then none
      else some ⟨.enqueue request h, now⟩ := rfl
  rw [hcall]
  unfold enqueueStream
  split_ifs
  · rfl
  · simp only [Option.elim_some, FairPendingQueue.perform]
    split <;> (rename_i heq; rw [heq]; rfl)

theorem runBackend_queue {job : SchedulerJob} {backendStartedAt : ℚ}
    (hrun : s.runBackend task job backendStartedAt input = some e) : e.state.queue = s.queue := by
  cases input with
  | emitStarted sampleRateHz channelCount =>
    obtain rfl := Option.some.inj hrun
    unfold emit
    split <;> rfl
  | emitAudio event remaining =>
    obtain rfl := Option.some.inj hrun
    unfold emit
    split <;> rfl
  | returns result now =>
    obtain rfl := Option.some.inj hrun
    rfl
  | raises error now =>
    obtain rfl := Option.some.inj hrun
    rfl
  | _ => simp [runBackend] at hrun

/-- **What a task does to the queue is its call**, or nothing. -/
theorem queue_of_run (hrun : s.run task input = some e) :
    e.state.queue = (s.queueCall task input).elim s.queue fun call => (s.queue.perform call).1 := by
  cases fires_of_run hrun with
  | enqueueStream request h now => exact enqueueStream_queue s request h now
  | cancelStreamJob job holding now =>
    unfold cancelStreamJob
    simp only [queueCall, Option.elim_some, FairPendingQueue.perform]
    split <;> (rename_i heq; rw [heq]; rfl)
  | callBack h callback callbacks => cases callback <;> rfl
  | runLoop now => exact runLoop_queue s now
  | parked now => exact runLoop_queue _ now
  | backend _ job backendStartedAt _ _ htask hbackend =>
    have hcall : s.queueCall task input = none := by rcases htask with rfl | rfl <;> rfl
    rw [runBackend_queue hbackend, hcall, Option.elim_none]
  | _ => rfl

/-- The backend time a task charges to a key when it runs. -/
def backendMs (key : FairnessKey) : ExecutorTask → ℚ
  | .release job backendStartedAt backendFinishedAt _ =>
    if job.fairnessKey = key then max 0 ((backendFinishedAt - backendStartedAt) * 1000) else 0
  | _ => 0

/-- What is charged is the backend time: a worker that gives its slot back finds its
job active. -/
theorem chargedMs_queueCall (hok : Ok s (task ::ₘ bag)) (hrun : s.run task input = some e) :
    ((s.queueCall task input).elim 0 fun call => s.queue.chargedMs key call) = backendMs key task := by
  cases fires_of_run hrun with
  | release job backendStartedAt backendFinishedAt outcome =>
    have hactive : job.ticket ∈ s.queue.activeTickets := hok.ticket_mem (by simp [slots, ExecutorTask.slotJob])
    obtain ⟨state, hs, startedAt, hstarted⟩ := FairPendingQueue.mem_activeTickets.mp hactive
    have hsome : (s.queue.startedAt? job).isSome := by
      rw [FairPendingQueue.startedAt?, show s.queue.states.get? job.fairnessKey = some state from hs]
      simp only [Option.bind_some]
      rw [show state.activeStartedAt.get? job.jobId = some startedAt from hstarted]
      rfl
    simp only [queueCall, Option.elim_some, FairPendingQueue.chargedMs, backendMs, hsome, and_true]
    split_ifs
    · exact max_eq_right (le_max_left _ _)
    · rfl
  | enqueueStream request h now =>
    have hcall : s.queueCall (.enqueueStream request h) (.clock now) =
        if !s.executor.acceptingNewRequests || s.executor.stopRequested then none
        else some ⟨.enqueue request h, now⟩ := rfl
    rw [hcall]
    split_ifs <;> rfl
  | runLoop now =>
    simp only [queueCall]
    split_ifs <;> rfl
  | parked now =>
    simp only [queueCall]
    split_ifs <;> rfl
  | backend _ job backendStartedAt _ _ htask hbackend => rcases htask with rfl | rfl <;> rfl
  | _ => rfl

end ExecutorState

/-! ### Runs -/

/-- The call of the queue an action makes. -/
def queueCallOf (c : Config ExecutorState ExecutorTask) : ExecutorAction → Option QueueCall
  | .call _ => none
  | .run thread input => (c.next? thread).bind fun task =>
    if (c.state.run task input).isSome then c.state.queueCall task input else none

/-- The backend time an action charges to a key. -/
def backendMsOf (key : FairnessKey) (c : Config ExecutorState ExecutorTask) : ExecutorAction → ℚ
  | .call _ => 0
  | .run thread input => (c.next? thread).elim 0 fun task =>
    if (c.state.run task input).isSome then ExecutorState.backendMs key task else 0

/-- The backend time charged to a key along a run. -/
def backendTimeMs (key : FairnessKey) :
    Config ExecutorState ExecutorTask → List ExecutorAction → ℚ
  | _, [] => 0
  | c, a :: actions => backendMsOf key c a + backendTimeMs key (executorProgram.step c a) actions

namespace ExecutorState

variable {s : ExecutorState} {task : ExecutorTask} {bag : Multiset ExecutorTask} {e : Step}
  {input : ExecutorInput} {key i j : FairnessKey} {c : Config ExecutorState ExecutorTask} {L : ℚ}

/-- One action, as the queue sees it. -/
theorem queue_step (c : Config ExecutorState ExecutorTask) (a : ExecutorAction) :
    (executorProgram.step c a).state.queue = (queueCallOf c a).elim c.state.queue
      fun call => (c.state.queue.perform call).1 := by
  cases a with
  | call task => rw [Threads.Program.state_call, queueCallOf, Option.elim_none]
  | run thread input =>
    rw [Threads.Program.state_turn, queueCallOf]
    cases c.next? thread with
    | none => rfl
    | some task =>
      simp only [Option.bind_some]
      cases hrun : c.state.run task input with
      | none =>
        have hrun : executorProgram.run c.state task input = none := hrun
        rw [hrun]
        rfl
      | some e =>
        have hprogram : executorProgram.run c.state task input = some e := hrun
        rw [hprogram, Option.elim_some, Option.isSome_some, if_pos rfl]
        exact queue_of_run hrun

/-- **The queue of an executor is a queue its calls were made of.** -/
theorem queue_runs (c : Config ExecutorState ExecutorTask) (actions : List ExecutorAction) :
    (executorProgram.runs c actions).state.queue =
      c.state.queue.run (Run.trace executorProgram.step queueCallOf c actions) :=
  Run.foldl_trace (I := fun _ => True) (fun c => c.state.queue) _ (fun _ _ _ => trivial)
    (fun c a _ => queue_step c a) trivial

/-- What an action charges, as the queue sees it. -/
theorem chargedMs_step (hok : Ok c.state c.bag) (a : ExecutorAction) :
    ((queueCallOf c a).elim 0 fun call => c.state.queue.chargedMs key call) = backendMsOf key c a := by
  cases a with
  | call task => rfl
  | run thread input =>
    rw [queueCallOf, backendMsOf]
    cases hnext : c.next? thread with
    | none => rfl
    | some task =>
      simp only [Option.bind_some, Option.elim_some]
      cases hrun : c.state.run task input with
      | none => rfl
      | some e =>
        obtain ⟨others, hbag⟩ := Multiset.exists_cons_of_mem (Threads.mem_bag_of_next? hnext)
        simp only [Option.isSome_some, if_true]
        exact chargedMs_queueCall (hbag ▸ hok) hrun

/-- The invariant, over one action. -/
theorem ok_step (hok : Ok c.state c.bag) (a : ExecutorAction) :
    Ok (executorProgram.step c a).state (executorProgram.step c a).bag :=
  Threads.Program.runs_of (p := executorProgram) (I := Ok) hok
    (fun _ _ _ hentry h => h.spawn (.of_entry hentry)) (fun _ _ _ _ _ hrun h => h.run hrun) [a]

/-- Along a run the queue is charged the backend times. -/
theorem serviceMs_trace (hok : Ok c.state c.bag) (actions : List ExecutorAction) :
    FairPendingQueue.serviceMs key c.state.queue (Run.trace executorProgram.step queueCallOf c actions) =
      backendTimeMs key c actions := by
  induction actions generalizing c with
  | nil => rfl
  | cons a actions ih =>
    have hlater := ih (c := executorProgram.step c a) (ok_step hok a)
    have hone := queue_step c a
    have hcharge : ((queueCallOf c a).elim 0 fun call => c.state.queue.chargedMs key call) = _ :=
      chargedMs_step hok a
    rw [Run.trace, backendTimeMs]
    cases hcall : queueCallOf c a with
    | none =>
      rw [hcall, Option.elim_none] at hone hcharge
      rw [Option.toList_none, List.nil_append, ← hcharge, zero_add, ← hlater, hone]
    | some call =>
      rw [hcall, Option.elim_some] at hone hcharge
      rw [Option.toList_some, List.singleton_append, FairPendingQueue.serviceMs, hcharge, ← hlater, hone]

/-- Two keys compete in an action: both are busy after it, and a dispatch finds both
with pending work.  No job takes longer than `L` milliseconds, as the dispatcher sees
it and as its backend call is timed. -/
structure Competes (i j : FairnessKey) (L : ℚ) (c : Config ExecutorState ExecutorTask) (a : ExecutorAction) :
    Prop where
  left : (executorProgram.step c a).state.queue.KeyBusy i
  right : (executorProgram.step c a).state.queue.KeyBusy j
  pending : ∀ call ∈ queueCallOf c a, call.op = .popNext →
    c.state.queue.KeyPending i ∧ c.state.queue.KeyPending j
  elapsed : ∀ call ∈ queueCallOf c a, call.op = .popNext → c.state.queue.ActiveWithin L call.now
  charge : ∀ call ∈ queueCallOf c a, call.op.chargeMs ≤ L

instance (i j : FairnessKey) (L : ℚ) (c : Config ExecutorState ExecutorTask) (a : ExecutorAction) :
    Decidable (Competes i j L c a) :=
  decidable_of_iff ((executorProgram.step c a).state.queue.KeyBusy i ∧
      (executorProgram.step c a).state.queue.KeyBusy j ∧
      (∀ call ∈ queueCallOf c a, call.op = .popNext →
        c.state.queue.KeyPending i ∧ c.state.queue.KeyPending j) ∧
      (∀ call ∈ queueCallOf c a, call.op = .popNext → c.state.queue.ActiveWithin L call.now) ∧
      ∀ call ∈ queueCallOf c a, call.op.chargeMs ≤ L)
    ⟨fun ⟨h₁, h₂, h₃, h₄, h₅⟩ => ⟨h₁, h₂, h₃, h₄, h₅⟩, fun ⟨h₁, h₂, h₃, h₄, h₅⟩ => ⟨h₁, h₂, h₃, h₄, h₅⟩⟩

/-- What every action of the executor keeps: the invariant, and its slots. -/
structure Kept (slots : ℕ) (c : Config ExecutorState ExecutorTask) : Prop where
  ok : Ok c.state c.bag
  effective : c.state.executor.effectiveTargetInflight = slots

theorem Kept.step {slots : ℕ} (h : Kept slots c) (a : ExecutorAction) : Kept slots (executorProgram.step c a) := by
  have hkept := Threads.Program.runs_of (p := executorProgram)
    (I := fun s bag => Ok s bag ∧ s.executor.effectiveTargetInflight = slots) (c := c) ⟨h.ok, h.effective⟩
    (fun _ _ _ hentry h => ⟨h.1.spawn (.of_entry hentry), h.2⟩)
    (fun _ _ _ _ _ hrun h => by
      obtain ⟨t, hm⟩ := h.1.moved hrun
      exact ⟨h.1.step hm, hm.config.effective.trans h.2⟩) [a]
  exact ⟨hkept.1, hkept.2⟩

/-- No more jobs are active than there are slots. -/
theorem Kept.card_le {slots : ℕ} (h : Kept slots c) : c.state.queue.activeTickets.card ≤ slots := by
  have hcapacity := h.ok.capacity
  rw [h.effective, h.ok.inflight] at hcapacity
  rwa [h.ok.active, Multiset.card_map]

/-- **Fairness of the backend time.**  While two keys compete, in whatever order the
threads come and whatever the clock shows them, the backend times the keys are
charged, each over its weight, are within what their accounts stood apart and the
executor's slots of `L` milliseconds over the lesser weight. -/
theorem backend_time_shared (modelName : String) (streaming : Bool) (configuredTargetInflight : ℤ)
    (settings : FairnessSettings) (runtimeCapability : ℤ) (before during : List ExecutorAction) (L : ℚ)
    (hL : 0 ≤ L) (i j : FairnessKey)
    (hi : (after modelName streaming configuredTargetInflight settings runtimeCapability
      before).state.queue.KeyBusy i)
    (hj : (after modelName streaming configuredTargetInflight settings runtimeCapability
      before).state.queue.KeyBusy j)
    (hcompete : Run.Along executorProgram.step (Competes i j L)
      (after modelName streaming configuredTargetInflight settings runtimeCapability before) during) :
    let c := after modelName streaming configuredTargetInflight settings runtimeCapability before
    let slots : ℤ := min (max 1 configuredTargetInflight) (max 1 runtimeCapability)
    |backendTimeMs i c during / settings.weight i - backendTimeMs j c during / settings.weight j| ≤
      |c.state.queue.accountMs i - c.state.queue.accountMs j| +
        slots * L / min (settings.weight i) (settings.weight j) := by
  intro c slots
  let n : ℕ := min (max 1 configuredTargetInflight).toNat (max 1 runtimeCapability).toNat
  have hkept : Kept n c := by
    obtain ⟨hok, hconfig⟩ := after_ok modelName streaming configuredTargetInflight settings runtimeCapability before
    exact ⟨hok, hconfig.effective⟩
  have hslots : (n : ℚ) = slots := by
    have hint : (n : ℤ) = slots := by omega
    exact_mod_cast hint
  have hkeep : ∀ c a, Kept n c → Kept n (executorProgram.step c a) := fun c a h => h.step a
  have hsee : ∀ c a, Kept n c → (executorProgram.step c a).state.queue =
      (queueCallOf c a).elim c.state.queue fun call => (c.state.queue.perform call).1 := fun c a _ => queue_step c a
  have hset : c.state.queue.settings = settings := by
    rw [show c.state.queue = _ from queue_runs _ before, FairPendingQueue.run_settings]
    rfl
  have hcalls : Run.Along (fun q call => (FairPendingQueue.perform q call).1)
      (FairPendingQueue.Contest i j n L) c.state.queue (Run.trace executorProgram.step queueCallOf c during) := by
    refine Run.Along.trace (fun c => c.state.queue) (fun q call => (FairPendingQueue.perform q call).1) hkeep hsee
      hkept hcompete ?_
    intro c a hc hcompetes call hcall
    have hone := hsee c a hc
    rw [Option.mem_def.mp hcall, Option.elim_some] at hone
    refine ⟨hone ▸ hcompetes.left, hone ▸ hcompetes.right, hcompetes.pending call hcall,
      hcompetes.elapsed call hcall, hcompetes.charge call hcall, ?_⟩
    exact hone ▸ (hc.step a).card_le
  have hshared := FairPendingQueue.service_shared hL hkept.ok.queue hcalls hi hj hkept.card_le
  rw [serviceMs_trace hkept.ok, serviceMs_trace hkept.ok, hset, hslots] at hshared
  exact hshared

/-- A request of a client, taken in at once by a thread of its own. -/
def takenIn (thread : ℕ) (client : String) : List ExecutorAction :=
  [.call (.openStream ⟨"m", some client⟩ ⟨"r", "m", 1, 1, 1, []⟩), .run thread (.clock 0), .run thread (.clock 0),
    .run thread (.clock 0), .run thread (.clock 0)]

/-- Two clients have two requests each. -/
def twoEach : List ExecutorAction := takenIn 1 "a" ++ takenIn 2 "a" ++ takenIn 3 "b" ++ takenIn 4 "b"

/-- The first of them is served for a second. -/
def oneServed : List ExecutorAction :=
  [.run 0 (.clock 0), .run 0 (.clock 0), .run 5 (.clock 0), .run 5 (.clock 0),
    .run 5 (.returns ⟨0, 0, 0, .empty, .empty⟩ 1), .run 5 (.clock 1)]

/-- One slot, calls of at most a second: the clients are a second apart. -/
theorem backend_time_shared_one_served :
    let c := after "m" true 1 .pair 1 twoEach
    backendTimeMs (some "a") c oneServed = 1000 ∧
      |backendTimeMs (some "a") c oneServed / FairnessSettings.pair.weight (some "a") -
        backendTimeMs (some "b") c oneServed / FairnessSettings.pair.weight (some "b")| ≤
      |c.state.queue.accountMs (some "a") - c.state.queue.accountMs (some "b")| +
        (1 : ℤ) * 1000 / min (FairnessSettings.pair.weight (some "a")) (FairnessSettings.pair.weight (some "b")) :=
  ⟨by decide +kernel, backend_time_shared "m" true 1 .pair 1 twoEach oneServed 1000 (by norm_num) (some "a")
    (some "b") (by decide +kernel) (by decide +kernel) (by decide +kernel)⟩

end ExecutorState
end TtsPool
