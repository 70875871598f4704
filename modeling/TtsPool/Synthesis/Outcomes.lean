/-
# One outcome for every RPC

`Synthesize` counts the request, a status, and of a cancellation whether it found the
synthesis queued or active; it logs one entry, the entry of a cancellation once the
runtime has released its handle.  `Accounted` says that these agree with how the RPC
has ended.

They do after every orderly interleaving (`outcomes_accounted`), and they need not
otherwise (`outcomes_disagree`).  `handle.dispatched` is read when the cancellation is
counted and again when it is logged, and a worker that has its job already marks the
handle in between.  A client that cancels while `context.abort` is awaited ends as
cancelled an RPC that was counted and logged as failed.  One that cancels while an
event is sent to it ends an RPC whose handler is closed at its `yield`, where it counts
and logs nothing.  And an exception whose `__str__` raises is counted and not logged.
-/

import TtsPool.Synthesis.Ledger

namespace TtsPool

open Threads (Effect Config Action)

/-- The counters of the statuses. -/
def statusCounters : List String :=
  ["status_ok", "status_not_found", "status_failed_precondition", "status_resource_exhausted", "status_cancelled",
    "status_invalid_argument", "status_internal"]

/-- The counters of where a cancellation finds the synthesis. -/
def scopeCounters : List String := ["queued_cancellations", "active_cancellations"]

/-- The counter of the status an RPC ends with; where its handler raises, that is
`UNKNOWN`, for which there is none. -/
def RpcOutcome.counter : RpcOutcome → String
  | .ok => "status_ok"
  | .aborted status _ _ => status.counter
  | .raised _ => "status_unknown"
  | .cancelled => "status_cancelled"

/-- The RPC ends cancelled, by its client or by the service. -/
def RpcOutcome.Cancelled : RpcOutcome → Prop
  | .cancelled | .aborted .cancelled _ _ => True
  | _ => False

/-- The entry of an RPC that ends otherwise. -/
def RpcOutcome.Logged : RpcOutcome → List RpcLog → Prop
  | .ok, logs => logs = [.completed]
  | .aborted status _ code, logs => ∃ error, logs = [.failed status code error]
  | .raised _, logs => ∃ status code error, logs = [.failed status code error]
  | .cancelled, _ => False

/-- **Counters and log agree with the outcome**; the entry of a cancellation is there
once the handle is released. -/
structure Accounted (counters : List String) (logs : List RpcLog) (outcome : RpcOutcome) (released : Prop) : Prop where
  requests : counters.count "requests_total" = 1
  status : counters.filter (· ∈ statusCounters) = [outcome.counter]
  cancelled : outcome.Cancelled → ∃ scope ∈ ["queued", "active"],
    counters.filter (· ∈ scopeCounters) = [scope ++ "_cancellations"] ∧
      (logs = [] ∧ ¬ released ∨ logs = [.cancelled scope])
  otherwise : ¬ outcome.Cancelled → counters.filter (· ∈ scopeCounters) = [] ∧ outcome.Logged logs

/-- A thread that is at the handle's terminal callbacks. -/
def SynthesisTask.callsBack : SynthesisTask → Bool
  | .handle (.addTerminalCallback _) | .handle (.runTerminalCallbacks (_ :: _)) => true
  | _ => false

/-- The handle is terminal, and its callbacks have run. -/
def Released (c : Config SynthesisState SynthesisTask) : Prop :=
  c.state.handle.terminal = true ∧ ∀ task ∈ c.bag, task.callsBack = false

instance (c : Config SynthesisState SynthesisTask) : Decidable (Released c) := inferInstanceAs (Decidable (_ ∧ _))

/-- What an RPC leaves behind that is refused before it has a handle. -/
structure RefusedRpc where
  counters : List String
  logs : List RpcLog
  outcome : RpcOutcome

/-- `Synthesize` where `request_from_proto` or `engine.stream` raises. -/
def refuse (error : EngineError) (cancelled : Bool) : RefusedRpc :=
  let (status, code) := statusForError error
  let counters := ["requests_total", status.counter] ++
    (if error.isStreamConsumerStalled then ["stalled_consumers"] else [])
  match error.str with
  | .error raised => { counters, logs := [], outcome := .raised raised }
  | .ok text =>
    { counters
      logs := if error.isSynthesisCancelled then [] else [.failed status code text]
      outcome := if cancelled then .cancelled else .aborted status (publicErrorDetail text code) code }

namespace SynthesisState

open SynthesisTask

/-- A status that is not that of a cancellation. -/
theorem accounted_failed (status : StatusCode) (detail code error : String) (stalled : Bool) (released : Prop)
    (h : status ≠ .cancelled) :
    Accounted (["requests_total", status.counter] ++ if stalled then ["stalled_consumers"] else [])
      [.failed status code error] (.aborted status detail code) released where
  requests := by cases status <;> cases stalled <;> decide
  status := by
    show _ = [status.counter]
    cases status <;> cases stalled <;> decide
  cancelled := fun hcancelled => by
    cases status with
    | cancelled => exact absurd rfl h
    | _ => exact hcancelled.elim
  otherwise := fun _ => ⟨by cases status <;> cases stalled <;> decide, error, rfl⟩

/-- A cancellation that was found queued or active. -/
theorem accounted_cancelled {outcome : RpcOutcome} (dispatched : Bool) {logs : List RpcLog} {released : Prop}
    (h : outcome.Cancelled) (hcounter : outcome.counter = "status_cancelled")
    (hlogs : logs = [] ∧ ¬ released ∨ logs = [.cancelled (if dispatched then "active" else "queued")]) :
    Accounted (RpcClass.cancelled dispatched).counters logs outcome released where
  requests := by cases dispatched <;> decide
  status := by
    rw [hcounter]
    cases dispatched <;> decide
  cancelled := fun _ => by
    cases dispatched with
    | true => exact ⟨"active", by simp, by decide, hlogs⟩
    | false => exact ⟨"queued", by simp, by decide, hlogs⟩
  otherwise := fun hnot => absurd h hnot

/-- An RPC that has ended is accounted for in the ledger. -/
theorem Ledger.accounted {c : Config SynthesisState SynthesisTask} (h : Ledger c.state c.bag) {outcome : RpcOutcome}
    (hended : c.state.outcome = some outcome) :
    Accounted c.state.counters c.state.logs outcome (Released c) := by
  obtain ⟨cls, hcounters, -, hends, hlogged⟩ := h.stands
  rw [hended] at hends
  rw [hcounters]
  cases cls with
  | undecided => cases hends
  | completed native =>
    cases hends
    rw [hlogged.1]
    refine ⟨?_, ?_, fun hcancelled => hcancelled.elim, fun _ => ⟨?_, rfl⟩⟩ <;> cases native <;> decide
  | failed status code error stalled =>
    obtain ⟨hstatus, hnone | ⟨detail, houtcome⟩⟩ := hends
    · cases hnone
    · cases houtcome
      rw [hlogged.1]
      exact accounted_failed status detail code error stalled _ hstatus
  | cancelled dispatched =>
    -- an entry on its way is registered with an open handle, or somebody is to call it
    have hlogs : c.state.logs = [] ∧ ¬ Released c ∨
        c.state.logs = [.cancelled (if dispatched then "active" else "queued")] := by
      refine hlogged.imp (fun ⟨hempty, hone, _⟩ => ⟨hempty, ?_⟩) And.left
      rintro ⟨hterminal, hnobody⟩
      have hheld : c.state.held = 0 := by rw [held, h.waiting hterminal, List.count_nil]
      have hsum : (c.bag.map awaits).sum = 0 := by
        refine Multiset.sum_eq_zero fun n hmem => ?_
        obtain ⟨task, htask, rfl⟩ := Multiset.mem_map.mp hmem
        have hidle := hnobody task htask
        cases task with
        | handle task =>
          cases task with
          | addTerminalCallback callback => cases hidle
          | runTerminalCallbacks callbacks =>
            cases callbacks with
            | nil => rfl
            | cons callback callbacks => cases hidle
          | _ => rfl
        | _ => rfl
      rw [awaited] at hone
      omega
    rcases hends with hnone | hcancelled | ⟨detail, code, habort⟩
    · cases hnone
    · cases hcancelled
      exact accounted_cancelled dispatched trivial rfl hlogs
    · cases habort
      exact accounted_cancelled dispatched trivial rfl hlogs

end SynthesisState

open SynthesisState in
/-- **One outcome per RPC.**  After every orderly interleaving of handler, worker and
everybody else, with the client cancelling wherever else it likes, an RPC that has ended
is accounted for; so is one that was refused before it had a handle, by an exception
with a text that only handles raise and not by its client while it is told. -/
theorem outcomes_accounted (backend : Backend) (spec : HandleSpec) (hfresh : logRelease ∉ spec.terminalCallbacks)
    (createdAt queueWaitMs receivedAt : ℚ) (actions : List (Action SynthesisTask SynthesisInput))
    (horderly : Run.Along (synthesisProgram backend).step (Threads.MeetsIn SynthesisTask.Orderly)
      (start (spec.handle createdAt) queueWaitMs receivedAt) actions) :
    let c := (synthesisProgram backend).runs (start (spec.handle createdAt) queueWaitMs receivedAt) actions
    (∀ outcome, c.state.outcome = some outcome →
      Accounted c.state.counters c.state.logs outcome (Released c)) ∧
      ∀ error : EngineError, error.isSynthesisCancelled = false → error.Printable →
        Accounted (refuse error false).counters (refuse error false).logs (refuse error false).outcome True := by
  intro c
  refine ⟨fun outcome hended => (runs_ledger backend spec hfresh createdAt queueWaitMs receivedAt horderly).accounted
    hended, fun error herror hprintable => ?_⟩
  obtain ⟨text, htext⟩ := hprintable.str
  have hstatus : (statusForError error).1 ≠ .cancelled := by
    rw [ne_eq, statusForError_cancelled, herror]
    exact Bool.false_ne_true
  simp only [refuse, herror, htext]
  exact accounted_failed _ _ _ _ _ True hstatus

/-- A handle of the default limits. -/
def plainHandle : HandleSpec where
  responseId := "ttsresp_test"
  modelName := "test-model"
  maxBufferChunks := 4
  maxBufferBytes := 4096
  stalledConsumerTimeoutS := 1

/-- A runtime that refuses the request. -/
def refusing : Backend := .completeOnly (.error (.valueError "text must not be empty"))

/-- The worker takes up its job, which the client then cancels. -/
def cancelledActive : List (Action SynthesisTask SynthesisInput) :=
  [.run 0 {}, .run 1 { cancelled := true }] ++ (List.replicate 4 (.run 1 {}) ++ List.replicate 6 (.run 0 {}))

open SynthesisState in
/-- An orderly run: counted as active, logged as active. -/
theorem outcomes_accounted_active :
    let c := (synthesisProgram refusing).runs (start (plainHandle.handle 0) 0 0) cancelledActive
    Released c ∧ c.state.counters = ["requests_total", "status_cancelled", "active_cancellations"] ∧
      Accounted c.state.counters c.state.logs .cancelled (Released c) :=
  ⟨by decide +kernel, by decide +kernel,
    (outcomes_accounted refusing plainHandle (by decide) 0 0 0 cancelledActive (by decide +kernel)).1 .cancelled
      (by decide +kernel)⟩

/-! ### Where they disagree -/

/-- The client cancels before the worker, which has its job already, takes it up. -/
def cancelledBetween : List (Action SynthesisTask SynthesisInput) :=
  [.run 1 { cancelled := true }] ++ (List.replicate 4 (.run 1 {}) ++ List.replicate 7 (.run 0 {}))

/-- The client cancels while its failure is reported to it. -/
def cancelledAborting : List (Action SynthesisTask SynthesisInput) :=
  List.replicate 7 (.run 0 {}) ++ (List.replicate 4 (.run 1 {}) ++ [.run 1 { cancelled := true }])

/-- A runtime that returns one frame. -/
def returning : Backend := .completeOnly (.ok { audio := some { sampleRateHz := 16000, frames := [0, 0] } })

/-- The client cancels while the Started event is sent to it; the callback of the RPC
then cancels the handle. -/
def cancelledYielding : List (Action SynthesisTask SynthesisInput) :=
  List.replicate 4 (.run 0 {}) ++ ([.run 1 {}, .run 1 {}, .run 1 { cancelled := true }] ++
    ([.call (.handle .cancel), .run 2 {}] ++ List.replicate 6 (.run 0 {})))

/-- A runtime that raises an exception without a text. -/
def speechless : Backend := .completeOnly (.error (.unprintable "ModelError" "TypeError" "__str__ returned non-string"))

/-- The worker fails, and the handler finds out. -/
def failedUnprintable : List (Action SynthesisTask SynthesisInput) :=
  List.replicate 7 (.run 0 {}) ++ List.replicate 4 (.run 1 {})

/-- Another status is counted than the RPC ends with. -/
theorem Accounted.not_of_status {counters : List String} {logs : List RpcLog} {outcome : RpcOutcome} {released : Prop}
    (h : counters.filter (· ∈ statusCounters) ≠ [outcome.counter]) : ¬ Accounted counters logs outcome released :=
  fun haccounted => h haccounted.status

/-- It is counted as queued and logged as active. -/
theorem Accounted.not_of_scope {released : Prop} :
    ¬ Accounted ["requests_total", "status_cancelled", "queued_cancellations"] [.cancelled "active"] .cancelled
      released := by
  intro h
  obtain ⟨scope, -, hscope, hentry⟩ := h.cancelled trivial
  have hcounted : ["queued_cancellations"] = [scope ++ "_cancellations"] := hscope
  rcases hentry with ⟨hempty, -⟩ | hentry
  · cases hempty
  · cases hentry
    exact absurd hcounted (by decide)

open SynthesisState in
/-- **Counters and log disagree.**  The first RPC is counted as a queued cancellation
and logged as an active one.  The second ends cancelled, is counted as neither, and is
logged as failed.  The third ends cancelled, and is neither counted nor logged.  The
fourth ends `UNKNOWN`, is counted as `INTERNAL`, and is not logged. -/
theorem outcomes_disagree :
    let c₁ := (synthesisProgram refusing).runs (start (plainHandle.handle 0) 0 0) cancelledBetween
    let c₂ := (synthesisProgram refusing).runs (start (plainHandle.handle 0) 0 0) cancelledAborting
    let c₃ := (synthesisProgram returning).runs (start (plainHandle.handle 0) 0 0) cancelledYielding
    let c₄ := (synthesisProgram speechless).runs (start (plainHandle.handle 0) 0 0) failedUnprintable
    (c₁.state.outcome = some .cancelled ∧ Released c₁ ∧
      c₁.state.counters = ["requests_total", "status_cancelled", "queued_cancellations"] ∧
      c₁.state.logs = [.cancelled "active"] ∧
      ¬ Accounted c₁.state.counters c₁.state.logs .cancelled (Released c₁)) ∧
    (c₂.state.outcome = some .cancelled ∧ Released c₂ ∧
      c₂.state.counters = ["requests_total", "status_invalid_argument"] ∧
      c₂.state.logs = [.failed .invalidArgument "invalid_request" "text must not be empty"] ∧
      ¬ Accounted c₂.state.counters c₂.state.logs .cancelled (Released c₂)) ∧
    (c₃.state.outcome = some .cancelled ∧ Released c₃ ∧
      c₃.state.counters = ["requests_total"] ∧ c₃.state.logs = [] ∧
      ¬ Accounted c₃.state.counters c₃.state.logs .cancelled (Released c₃)) ∧
    (c₄.state.outcome = some (.raised (.other "TypeError" "__str__ returned non-string")) ∧ Released c₄ ∧
      c₄.state.counters = ["requests_total", "status_internal"] ∧ c₄.state.logs = [] ∧
      ¬ Accounted c₄.state.counters c₄.state.logs (.raised (.other "TypeError" "__str__ returned non-string"))
        (Released c₄)) := by
  intro c₁ c₂ c₃ c₄
  have hcounters₁ : c₁.state.counters = ["requests_total", "status_cancelled", "queued_cancellations"] := by
    decide +kernel
  have hlogs₁ : c₁.state.logs = [.cancelled "active"] := by decide +kernel
  have hcounters₂ : c₂.state.counters = ["requests_total", "status_invalid_argument"] := by decide +kernel
  have hcounters₃ : c₃.state.counters = ["requests_total"] := by decide +kernel
  have hcounters₄ : c₄.state.counters = ["requests_total", "status_internal"] := by decide +kernel
  refine ⟨⟨by decide +kernel, by decide +kernel, hcounters₁, hlogs₁, ?_⟩,
    ⟨by decide +kernel, by decide +kernel, hcounters₂, by decide +kernel, Accounted.not_of_status ?_⟩,
    ⟨by decide +kernel, by decide +kernel, hcounters₃, by decide +kernel, Accounted.not_of_status ?_⟩,
    by decide +kernel, by decide +kernel, hcounters₄, by decide +kernel, Accounted.not_of_status ?_⟩
  · rw [hcounters₁, hlogs₁]
    exact Accounted.not_of_scope
  · rw [hcounters₂]
    decide
  · rw [hcounters₃]
    decide
  · rw [hcounters₄]
    decide

end TtsPool
