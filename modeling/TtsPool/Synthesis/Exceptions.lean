/-
# What the client sees of an exception

What a call of the model raises is either concealed, and then the client is
answered the same whatever it is, or it is one of the five that are not, and
there is a runtime with which the client sees the difference: `ValueError` is
taken for a request that is not valid, two of them end the loop around an
iterator, one of them nobody catches, and one has no text for the handler to log.
The difference is seen in a schedule in which the worker gets to the call
(`reaches`), the call raises (`raising_run`), and the handler answers
(`leads_answer`).  `failures_alike_iff` puts the two together.
-/

import TtsPool.Synthesis.Answers
import TtsPool.Synthesis.Schedules

namespace TtsPool

open Threads (Effect Config Action)

/-- A runtime that gets as far as this call. -/
def ModelCall.reaching : ModelCall → Backend
  | .encodeLatents => .nanovllm { prepared := .ok 16000, referenceWav := true, chunks := [] }
  | .generate | .nextChunk => .nanovllm { prepared := .ok 16000, chunks := [] }
  | .voxcpm2Generate => .voxcpm2 { generate := .ok (some []), sampleRateHz := 16000 }
  | .kokoroPipeline | .kokoroNext => .kokoro { results := [] }

/-- The task that makes the call. -/
def ModelCall.task : ModelCall → SynthesisTask
  | .encodeLatents => .encodeLatents 16000
  | .generate => .generate 16000
  | .nextChunk => .nextChunk 16000 0 0 []
  | .voxcpm2Generate | .kokoroPipeline | .kokoroNext => .runBackend

/-- What `_run_job` catches where it raises; `none` for what it does not catch. -/
def ModelCall.caught (call : ModelCall) (error : LibraryError) : Option EngineError :=
  match call, error with
  | .nextChunk, .stopAsyncIteration _ => some (.valueError "NanoVLLM VoxCPM returned no audio chunks")
  | .kokoroNext, .stopIteration _ => some (.valueError "Kokoro returned no audio")
  | call, error => if call.onLoop then error.throughLoop else some error.toEngineError

namespace SynthesisState

variable {backend : Backend} {call : ModelCall} {error e₁ e₂ : LibraryError}

/-- The client sees the same of two runtimes, in every run: the same messages, and
the same end. -/
def Alike (backend backend' : Backend) : Prop :=
  ∀ (spec : HandleSpec) (createdAt queueWaitMs receivedAt : ℚ) (actions : List (Action SynthesisTask SynthesisInput)),
    let c := start (spec.handle createdAt) queueWaitMs receivedAt
    let s := ((synthesisProgram backend).runs c actions).state
    let s' := ((synthesisProgram backend').runs c actions).state
    s.sent = s'.sent ∧ s.outcome = s'.outcome

/-- The client is told that the synthesis has failed and nothing else, and is told
in the end: before that some thread can be got further, and not for ever. -/
structure EndsInternal (backend : Backend) (c : Config SynthesisState SynthesisTask) : Prop where
  told : c.state.outcome = none ∨ c.state.outcome = some .synthesisFailed
  rest : (synthesisProgram backend).AtRest Undisturbed c → c.state.outcome = some .synthesisFailed
  bounded : ∃ bound, ∀ later : List (Action SynthesisTask SynthesisInput), (∀ a ∈ later, Undisturbed a) →
    Run.Along (synthesisProgram backend).step (synthesisProgram backend).Moves c later → later.length ≤ bound

/-- So it is in every run that nothing disturbs and in which the call has
raised. -/
def Answered (call : ModelCall) (backend : Backend) : Prop :=
  ∀ (spec : HandleSpec) (createdAt queueWaitMs receivedAt : ℚ) (actions : List (Action SynthesisTask SynthesisInput)),
    (∀ a ∈ actions, Undisturbed a) → ∀ c, c = (synthesisProgram backend).runs
      (start (spec.handle createdAt) queueWaitMs receivedAt) actions →
        c.state.modelRaised = some call → EndsInternal backend c

/-- **A concealed exception is answered.** -/
theorem answered_of_conceals (h : call.Conceals error) (backend : Backend) :
    Answered call (backend.raising call error) := by
  intro spec createdAt queueWaitMs receivedAt actions hundisturbed c hc hraised
  have hraised' : c.state.modelRaised ≠ none := by simp [hraised]
  have hfailing : Failing c.state c.bag := by
    rw [hc] at hraised ⊢
    rcases runs_failing h backend spec createdAt queueWaitMs receivedAt hundisturbed with hfailing | hpast
    · exact hfailing
    · exact absurd hraised hpast.raised
  refine ⟨hfailing.answered, ?_, c.state.weight c.bag, fun later hlater hmoves => ?_⟩
  · exact hfailing.answered_of_rest hraised' (hc ▸ loops_alone _ spec createdAt queueWaitMs receivedAt actions)
  · refine Threads.Program.length_le_of_measure (p := synthesisProgram (backend.raising call error))
      (I := fun s bag => Failing s bag ∧ s.modelRaised ≠ none) ⟨hfailing, hraised'⟩ ?_ hlater hmoves
    rintro s bag task thread input e ⟨hcancelled, hrefused⟩ hrun ⟨hfails, hraise⟩
    have hturned := run_turned hfails.incomplete (hfails.tasks task (Multiset.mem_cons_self ..))
      (hfails.raised hraise task (Multiset.mem_cons_self ..)) hcancelled hrefused hrun
    obtain ⟨hfails', hless⟩ := hfails.turned (stepped_of_run hrun) hturned
    exact ⟨⟨hfails', hturned.raised ▸ hraise⟩, hless⟩

/-- **Concealed exceptions look alike.** -/
theorem alike_of_conceals (h₁ : call.Conceals e₁) (h₂ : call.Conceals e₂) (backend : Backend) :
    Alike (backend.raising call e₁) (backend.raising call e₂) := by
  intro spec createdAt queueWaitMs receivedAt actions c s s'
  have hview : s.view = s'.view := runs_view (raising_seen h₁ h₂ backend) c actions
  show s.view.sent = s'.view.sent ∧ s.view.outcome = s'.view.outcome
  exact ⟨congrArg SynthesisState.sent hview, congrArg SynthesisState.outcome hview⟩

/-! ### What is not concealed -/

/-- A handle as the router makes them. -/
def oneHandle : HandleSpec where
  responseId := "ttsresp_test"
  modelName := "m"
  maxBufferChunks := 8
  maxBufferBytes := 262144
  stalledConsumerTimeoutS := 10

/-- **The worker gets to the call**, of a runtime that gets that far. -/
theorem reaches (call : ModelCall) (error : LibraryError) : ∃ s, Emptied 262144 s ∧
    Leads (call.reaching.raising call error) (start (oneHandle.handle 0) 0 0) ⟨s, [[call.task], [.readEvent]]⟩ := by
  obtain ⟨s₁, hempty₁, hbackend⟩ :=
    leads_backend (call.reaching.raising call error) 0 (start_emptied oneHandle 0 0 0)
  cases call with
  | voxcpm2Generate | kokoroPipeline | kokoroNext => exact ⟨s₁, hempty₁, hbackend⟩
  | encodeLatents =>
    obtain ⟨s₂, hempty₂, hstarted⟩ := leads_started
      { prepared := .ok 16000, referenceWav := true, encodeLatents := some error, chunks := [] } 16000 rfl hempty₁
    exact ⟨s₂, hempty₂, hbackend.trans hstarted⟩
  | generate =>
    let nano : NanoVLLMCall := { prepared := .ok 16000, generate := some error, chunks := [] }
    obtain ⟨s₂, hempty₂, hstarted⟩ := leads_started nano 16000 rfl hempty₁
    exact ⟨s₂, hempty₂, (hbackend.trans hstarted).trans (leads_encoded nano 16000 rfl hempty₂)⟩
  | nextChunk =>
    let nano : NanoVLLMCall := { prepared := .ok 16000, chunks := [], ending := some error }
    obtain ⟨s₂, hempty₂, hstarted⟩ := leads_started nano 16000 rfl hempty₁
    have hgenerated := (leads_encoded nano 16000 rfl hempty₂).trans (leads_generated nano 16000 rfl)
    exact ⟨s₂, hempty₂, (hbackend.trans hstarted).trans hgenerated⟩

/-- **The call raises.** -/
theorem raising_run (call : ModelCall) (error : LibraryError) (s : SynthesisState) :
    SynthesisState.run (call.reaching.raising call error) s call.task {} =
      some
        { state := { s with modelRaised := some call }
          next := [.release ((call.caught error).map .error)] } := by
  cases call <;> cases error <;> rfl

/-- What is caught of an exception that is not concealed is a `ValueError`, or has no
text. -/
theorem caught_of_not_conceals (h : ¬ call.Conceals error) {caught : EngineError}
    (hcaught : call.caught error = some caught) : (∃ message, caught = .valueError message) ∨
      ∃ className raisedClassName raisedMessage, caught = .unprintable className raisedClassName raisedMessage := by
  cases error with
  | valueError message =>
    cases message with
    | text message => exact .inl ⟨message, by cases call <;> cases hcaught <;> rfl⟩
    | raises className raised => exact .inr ⟨_, _, _, by cases call <;> cases hcaught <;> rfl⟩
  | stopIteration message =>
    obtain rfl : call = .kokoroNext := not_not.mp h
    cases hcaught
    exact .inl ⟨_, rfl⟩
  | stopAsyncIteration message =>
    by_cases hcall : call = .nextChunk
    · subst hcall
      cases hcaught
      exact .inl ⟨_, rfl⟩
    · cases message with
      | text message => exact absurd ⟨hcall, trivial⟩ h
      | raises className raised =>
        exact .inr ⟨_, _, _, by cases call <;> first | exact absurd rfl hcall | (cases hcaught; rfl)⟩
  | futuresCancelled message =>
    have hloop : call.onLoop = true := Bool.eq_true_of_not_eq_false h
    cases call with
    | encodeLatents | generate | nextChunk => cases hcaught
    | _ => cases hloop
  | other className message =>
    cases message with
    | text message => exact absurd trivial h
    | raises className raised => exact .inr ⟨_, _, _, by cases call <;> cases hcaught <;> rfl⟩

/-- The client is told something else, or waits for ever. -/
structure Shows (call : ModelCall) (c : Config SynthesisState SynthesisTask) : Prop where
  raised : c.state.modelRaised = some call
  shown : (∃ outcome, c.state.outcome = some outcome ∧ outcome ≠ .synthesisFailed) ∨
    c.state.outcome = none ∧ c.threads = [[], [.readEvent]] ∧ ¬ c.state.handle.Readable

/-- **An exception that is not concealed shows.** -/
theorem exists_shows (h : ¬ call.Conceals error) :
    ∃ c, Leads (call.reaching.raising call error) (start (oneHandle.handle 0) 0 0) c ∧ Shows call c := by
  obtain ⟨s, hempty, hreaches⟩ := reaches call error
  let raised : SynthesisState := { s with modelRaised := some call }
  have hraised : Emptied 262144 raised :=
    ⟨hempty.underway, hempty.buffered, hempty.events, hempty.cancelled, hempty.opened, hempty.bytes⟩
  have hdrained : call.task.Drained s {} := by
    cases call <;> trivial
  have hraises := hreaches.trans (leads_worker _ hdrained (raising_run call error s) rfl)
  cases hcaught : call.caught error with
  | none =>
    rw [hcaught] at hraises
    refine ⟨_, hraises.trans (leads_worker _ trivial rfl rfl), rfl, .inr ⟨hraised.underway, rfl, ?_⟩⟩
    have hwaits : ¬ raised.handle.Readable := by
      simp [SynthesisHandle.Readable, hraised.events, hraised.cancelled, hraised.opened]
    exact hwaits
  | some caught =>
    rw [hcaught] at hraises
    have hcaught := caught_of_not_conceals h hcaught
    have hsame : caught.throughCoroutine = caught := by
      rcases hcaught with ⟨message, rfl⟩ | ⟨className, raisedClassName, raisedMessage, rfl⟩ <;> rfl
    have hnot : caught.throughCoroutine.isSynthesisCancelled = false := by
      rw [hsame]
      rcases hcaught with ⟨message, rfl⟩ | ⟨className, raisedClassName, raisedMessage, rfl⟩ <;> rfl
    obtain ⟨s₁, callbacks, hfailed, hraised₁, hfails⟩ := leads_failed (call.reaching.raising call error) caught hraised
    obtain ⟨s₂, hanswer, hraised₂, hanswers⟩ := leads_answer (call.reaching.raising call error) hfailed hnot
    refine ⟨_, (hraises.trans hfails).trans hanswers, hraised₂.trans hraised₁, .inl ⟨_, hanswer, ?_⟩⟩
    rw [hsame]
    rcases hcaught with ⟨message, rfl⟩ | ⟨className, raisedClassName, raisedMessage, rfl⟩ <;>
      simp [EngineError.answer, EngineError.str, statusForError, RpcOutcome.synthesisFailed]

/-- And the client is not answered as it should be. -/
theorem Shows.not_answered {c : Config SynthesisState SynthesisTask} (h : Shows call c)
    (houtcome : c.state.outcome = none ∨ c.state.outcome = some .synthesisFailed) :
    (synthesisProgram backend).AtRest Undisturbed c ∧ c.state.outcome = none := by
  rcases h.shown with ⟨outcome, htold, hother⟩ | ⟨hnone, hthreads, hwaits⟩
  · rcases houtcome with houtcome | houtcome
    · cases htold.symm.trans houtcome
    · exact absurd (Option.some.inj (htold.symm.trans houtcome)) hother
  · refine ⟨?_, hnone⟩
    rintro thread input task ⟨hcancelled, -⟩ hnext
    rw [Config.next?, hthreads] at hnext
    rcases thread with _ | _ | thread
    · cases hnext
    · cases hnext
      show SynthesisState.readEvent _ input = none
      rw [SynthesisState.readEvent, if_neg (by simp [hcancelled]), if_neg hwaits]
    · cases hnext

/-- Nothing disturbs such a schedule. -/
theorem undisturbed_of_along {c : Config SynthesisState SynthesisTask}
    {actions : List (Action SynthesisTask SynthesisInput)}
    (h : Run.Along (synthesisProgram backend).step (Threads.Program.Takes SynthesisTask.Calm) c actions) :
    ∀ a ∈ actions, Undisturbed a := by
  intro a hmem
  obtain ⟨pre, post, rfl⟩ := List.append_of_mem hmem
  have htakes := (Run.along_append.mp h).2.1
  cases a with
  | call task => exact htakes.elim
  | run thread input =>
    obtain ⟨task, -, hcalm⟩ := htakes
    rw [hcalm.2]
    exact ⟨rfl, rfl⟩

theorem not_answered_of_not_conceals (h : ¬ call.Conceals error) :
    ¬ Answered call (call.reaching.raising call error) := by
  intro hanswered
  obtain ⟨c, ⟨actions, htakes, hc⟩, hshows⟩ := exists_shows h
  have hends := hanswered oneHandle 0 0 0 actions (undisturbed_of_along htakes) c hc.symm hshows.raised
  obtain ⟨hresting, hnone⟩ := hshows.not_answered hends.told
  exact Option.some_ne_none _ ((hends.rest hresting).symm.trans hnone)

/-- **Which failures of the model look the same.**  Whatever the runtime, the
client sees the same of the two exceptions and is told `INTERNAL`, exactly when
the call conceals both. -/
theorem failures_alike_iff (call : ModelCall) (e₁ e₂ : LibraryError) :
    (∀ backend : Backend, Alike (backend.raising call e₁) (backend.raising call e₂) ∧
      Answered call (backend.raising call e₁) ∧ Answered call (backend.raising call e₂)) ↔
      call.Conceals e₁ ∧ call.Conceals e₂ := by
  constructor
  · intro halike
    obtain ⟨-, hanswered₁, hanswered₂⟩ := halike call.reaching
    exact ⟨by_contra fun h => not_answered_of_not_conceals h hanswered₁,
      by_contra fun h => not_answered_of_not_conceals h hanswered₂⟩
  · rintro ⟨h₁, h₂⟩ backend
    exact ⟨alike_of_conceals h₁ h₂ backend, answered_of_conceals h₁ backend, answered_of_conceals h₂ backend⟩

/-- A worker that gets as far as it gets, and then its handler. -/
def workerFirst : List (Action SynthesisTask SynthesisInput) :=
  List.replicate 16 (.run 0 {}) ++ List.replicate 12 (.run 1 {})

/-- The exception is raised by a runtime that gets that far. -/
def raisedBy (call : ModelCall) (error : LibraryError) : Config SynthesisState SynthesisTask :=
  (synthesisProgram (call.reaching.raising call error)).runs (start (oneHandle.handle 0) 0 0) workerFirst

/-- **A `ValueError` of the model's is shown to the client**, where a
`RuntimeError` with the same text is not. -/
theorem failures_differ :
    ¬ Alike (ModelCall.generate.reaching.raising .generate (.valueError "mat1 and mat2 shapes cannot be multiplied"))
      (ModelCall.generate.reaching.raising .generate
        (.other "RuntimeError" "mat1 and mat2 shapes cannot be multiplied")) ∧
    (raisedBy .generate (.valueError "mat1 and mat2 shapes cannot be multiplied")).state.outcome =
      some (.aborted .invalidArgument "mat1 and mat2 shapes cannot be multiplied" "invalid_request") ∧
    (raisedBy .generate (.other "RuntimeError" "mat1 and mat2 shapes cannot be multiplied")).state.outcome =
      some .synthesisFailed := by
  have hshown : (raisedBy .generate (.valueError "mat1 and mat2 shapes cannot be multiplied")).state.outcome =
      some (.aborted .invalidArgument "mat1 and mat2 shapes cannot be multiplied" "invalid_request") := by
    decide +kernel
  have hconcealed : (raisedBy .generate
      (.other "RuntimeError" "mat1 and mat2 shapes cannot be multiplied")).state.outcome =
        some .synthesisFailed := by decide +kernel
  refine ⟨fun halike => ?_, hshown, hconcealed⟩
  cases hshown.symm.trans ((halike oneHandle 0 0 0 workerFirst).2.trans hconcealed)

end SynthesisState
end TtsPool
