/-
# A model that raises

A call of the model can raise anything.  Most exceptions end as `INTERNAL` with
the same text (`Conceals`); the others do not, each for a reason of its own.
`ValueError` is what the engine raises for a request that is not valid, and the
client is shown its text.  `StopIteration` and `StopAsyncIteration` end the loop
around the iterator that raises them.  A `concurrent.futures.CancelledError` on
NanoVLLM's loop comes out as a cancellation, which `_run_job` does not catch: no
one finishes the handle, and the client waits.  And an exception whose `__str__`
raises makes the handler raise before it has told the client anything.

Two exceptions that a call conceals are seen alike from the step on that raises
them (`raising_seen`).  Where such an exception comes from a worker that may
still call the model, it is in hand of that worker; otherwise the worker goes
on, or is past the call (`run_onward`).
-/

import TtsPool.Synthesis.Concealed

namespace TtsPool

open Threads (Effect Config Action)

/-- Raised by this call, the exception is `INTERNAL` to the client. -/
def ModelCall.Conceals (call : ModelCall) : LibraryError → Prop
  | .valueError _ => False
  | .stopIteration _ => call ≠ .kokoroNext
  | .stopAsyncIteration message => call ≠ .nextChunk ∧ message.Printable
  | .futuresCancelled _ => call.onLoop = false
  | .other _ message => message.Printable

/-- The worker, as long as it may still call the model. -/
def SynthesisTask.generates : SynthesisTask → Bool
  | .runJob _ | .checkDispatch | .runBackend | .checkPrepared _ | .checkGeneration _ | .startedSink _
  | .encodeLatents _ | .checkEncoded _ | .generate _ | .nextChunk .. | .checkChunk .. | .chunkSink .. => true
  | _ => false

/-- What the client is told when the model has failed. -/
def RpcOutcome.synthesisFailed : RpcOutcome := .aborted .internal "TTS synthesis failed" "synthesis_failed"

namespace SynthesisState

variable {backend : Backend} {s : SynthesisState} {task : SynthesisTask} {input : SynthesisInput} {e : Step}
  {bag : Multiset SynthesisTask} {call : ModelCall} {error e₁ e₂ : LibraryError} {task' : SynthesisTask}

/-! ### Seen alike -/

theorem internal_of_printable {className : String} {message : ErrorText} (h : message.Printable) :
    (message.toEngineError className).Internal := by
  cases message with
  | text message => exact ⟨rfl, rfl⟩
  | raises => exact h.elim

theorem internal_of_conceals (h : call.Conceals error) : error.toEngineError.Internal := by
  cases error with
  | valueError message => exact h.elim
  | stopAsyncIteration message => exact internal_of_printable h.2
  | other className message => exact internal_of_printable h
  | stopIteration | futuresCancelled => exact ⟨rfl, rfl⟩

theorem conceal_of_conceals (h : call.Conceals error) : error.toEngineError.conceal = .runtimeError "" :=
  (internal_of_conceals h).conceal

/-- On the loop such an exception comes out of the coroutine. -/
theorem throughLoop_of_conceals (h : call.Conceals error) (hloop : call.onLoop = true) :
    error.throughLoop = some error.toEngineError.throughCoroutine := by
  cases error with
  | futuresCancelled message => cases hloop.symm.trans h
  | _ => rfl

/-- Two of them, out of a call of the server, are seen alike. -/
theorem callServer_seen (h₁ : call.Conceals e₁) (h₂ : call.Conceals e₂) (hloop : call.onLoop = true)
    (s : SynthesisState) (task' : SynthesisTask) :
    seen (s.callServer call (some e₁) task') = seen (s.callServer call (some e₂) task') := by
  refine seen_congr rfl ?_
  rw [throughLoop_of_conceals h₁ hloop, throughLoop_of_conceals h₂ hloop]
  simp [SynthesisTask.conceal, conceal_of_conceals h₁, conceal_of_conceals h₂]

/-- Out of a complete-only runtime's function too. -/
theorem callComplete_seen (h₁ : call.Conceals e₁) (h₂ : call.Conceals e₂) (s : SynthesisState)
    (raised raised' : Option ModelCall) :
    seen (s.callComplete raised (.error e₁.toEngineError)) =
      seen (s.callComplete raised' (.error e₂.toEngineError)) := by
  refine seen_congr (view_congr rfl ⟨rfl, rfl, rfl, rfl, rfl⟩) ?_
  simp [SynthesisTask.conceal, conceal_of_conceals h₁, conceal_of_conceals h₂]

/-- Whatever the model raised. -/
theorem callComplete_congr (s : SynthesisState) (raised raised' : Option ModelCall)
    (result : Except EngineError EngineResult) :
    seen (s.callComplete raised result) = seen (s.callComplete raised' result) :=
  seen_congr (view_congr rfl ⟨rfl, rfl, rfl, rfl, rfl⟩) rfl

/-- An iterator of Kokoro's that raises one of them fails the call. -/
theorem kokoro_ending (h : ModelCall.kokoroNext.Conceals error) (results : List (Option (List ℚ)))
    (metrics : Dict String (Option ℚ)) (metadata : Dict String MetadataValue) :
    KokoroCall.synthesize { results, ending := some error, metrics, metadata } = .error error.toEngineError := by
  cases error with
  | stopIteration message => exact absurd rfl h
  | _ => rfl

/-- NanoVLLM's that does is a call of the server that raises. -/
theorem nextChunk_ending (h : ModelCall.nextChunk.Conceals error) (s : SynthesisState) (nano : NanoVLLMCall)
    (sampleRateHz : ℤ) (chunkCount totalSampleCount : ℕ) :
    s.nextChunk { nano with ending := some error } sampleRateHz chunkCount totalSampleCount [] =
      s.callServer .nextChunk (some error) .runBackend := by
  cases error with
  | stopAsyncIteration message => exact absurd rfl h.1
  | _ => rfl

/-- **A runtime is seen alike** whichever of them a call of its model raises. -/
theorem raising_seen (h₁ : call.Conceals e₁) (h₂ : call.Conceals e₂) (backend : Backend) (s : SynthesisState)
    (task : SynthesisTask) (input : SynthesisInput) :
    (SynthesisState.run (backend.raising call e₁) s task input).map seen =
      (SynthesisState.run (backend.raising call e₂) s task input).map seen := by
  cases task with
  | runBackend =>
    refine congrArg some ?_
    cases backend with
    | nanovllm nano => cases call <;> rfl
    | completeOnly result => cases call <;> rfl
    | voxcpm2 vox =>
      cases call with
      | voxcpm2Generate =>
        simp only [Backend.raising, runBackend, VoxCPM2Call.synthesize]
        cases vox.prepared with
        | some error => exact s.callComplete_congr _ _ _
        | none => exact callComplete_seen h₁ h₂ s _ _
      | _ => rfl
    | kokoro pipe =>
      cases call with
      | kokoroPipeline =>
        simp only [Backend.raising, runBackend, KokoroCall.synthesize]
        cases pipe.prepared with
        | some error => exact s.callComplete_congr _ _ _
        | none => exact callComplete_seen h₁ h₂ s _ _
      | kokoroNext =>
        simp only [Backend.raising, runBackend]
        rcases pipe with ⟨_ | error, _ | error, results, ending, metrics, metadata⟩
        · rw [kokoro_ending h₁, kokoro_ending h₂]
          exact callComplete_seen h₁ h₂ s _ _
        · exact s.callComplete_congr _ _ _
        · exact s.callComplete_congr _ _ _
        · exact s.callComplete_congr _ _ _
      | _ => rfl
  | encodeLatents sampleRateHz =>
    cases backend with
    | nanovllm nano =>
      cases call with
      | encodeLatents =>
        refine congrArg some ?_
        simp only
        cases nano.referenceWav with
        | false => rfl
        | true => exact callServer_seen h₁ h₂ rfl s _
      | _ => rfl
    | _ => cases call <;> rfl
  | generate sampleRateHz =>
    cases backend with
    | nanovllm nano =>
      cases call with
      | generate => exact congrArg some (callServer_seen h₁ h₂ rfl s _)
      | _ => rfl
    | _ => cases call <;> rfl
  | nextChunk sampleRateHz chunkCount totalSampleCount chunks =>
    cases backend with
    | nanovllm nano =>
      cases call with
      | nextChunk =>
        refine congrArg some ?_
        cases chunks with
        | cons samples chunks => rfl
        | nil =>
          simp only
          rw [nextChunk_ending h₁, nextChunk_ending h₂]
          exact callServer_seen h₁ h₂ rfl s _
      | _ => cases chunks <;> rfl
    | _ => cases call <;> rfl
  | _ => rfl

/-! ### Up to the raise -/

/-- Where a worker that may call the model gets to: it may still, or it has this
exception in hand, or the call has not raised and will not be made. -/
def Onward (call : ModelCall) (e : Step) : Prop :=
  ∃ task, e.next = [task] ∧
    (task.generates = true ∧ e.state.modelRaised = none ∨
      (∃ error, task = .release (some (.error error)) ∧ error.Internal) ∨
      task.generates = false ∧ e.state.modelRaised ≠ some call)

theorem Onward.on {s' : SynthesisState} (hgenerates : task'.generates = true) (hraised : s'.modelRaised = none) :
    Onward call { state := s', next := [task'] } :=
  ⟨task', rfl, .inl ⟨hgenerates, hraised⟩⟩

theorem Onward.fails {s' : SynthesisState} {error : EngineError} (hinternal : error.Internal) :
    Onward call { state := s', next := [.release (some (.error error))] } :=
  ⟨_, rfl, .inr (.inl ⟨error, rfl, hinternal⟩)⟩

theorem Onward.past {s' : SynthesisState} (hgenerates : task'.generates = false)
    (hraised : s'.modelRaised ≠ some call) : Onward call { state := s', next := [task'] } :=
  ⟨task', rfl, .inr (.inr ⟨hgenerates, hraised⟩)⟩

theorem not_raised (hraised : s.modelRaised = none) : s.modelRaised ≠ some call := by simp [hraised]

theorem unlessCancelled_onward {message : String} (huncancelled : s.handle.cancelled = false)
    (hraised : s.modelRaised = none) (hgenerates : task'.generates = true) :
    Onward call (s.unlessCancelled message task') := by
  simp only [unlessCancelled, huncancelled]
  exact .on hgenerates hraised

theorem callServer_onward {call' : ModelCall} {raises : Option LibraryError} (h : call.Conceals error)
    (hloop : call'.onLoop = true) (hraises : call' = call → ∀ error' ∈ raises, error' = error)
    (hon : Onward call { state := s, next := [task'] }) : Onward call (s.callServer call' raises task') := by
  cases raises with
  | none => exact hon
  | some error' =>
    by_cases hcall : call' = call
    · obtain rfl := hcall
      obtain rfl := hraises rfl error' rfl
      simp only [callServer, throughLoop_of_conceals h hloop]
      exact .fails (EngineError.internal_throughCoroutine.mpr (internal_of_conceals h))
    · exact .past rfl (by simpa using hcall)

theorem callComplete_onward {raised : Option ModelCall} {result : Except EngineError EngineResult}
    (hresult : raised = some call → ∃ error, result = .error error ∧ error.Internal) :
    Onward call (s.callComplete raised result) := by
  by_cases hraised : raised = some call
  · obtain ⟨error, rfl, hinternal⟩ := hresult hraised
    exact .fails hinternal
  · cases result with
    | error error => exact .past rfl hraised
    | ok result => exact .past rfl hraised

theorem emitAudio_onward {event : StreamAudioChunk} {remaining : ℚ} {again : SynthesisTask}
    (hraised : s.modelRaised = none) (hagain : again.generates = true) (hgenerates : task'.generates = true) :
    Onward call (s.emitAudio event remaining again task') := by
  simp only [SynthesisState.emitAudio]
  split
  · exact .on hgenerates hraised
  · exact .on hagain hraised
  · exact .past rfl (not_raised hraised)

/-- The exception is that of the call of NanoVLLM's server. -/
theorem streamFn_raising {nano : NanoVLLMCall} (h : (backend.raising call error).streamFn = some nano) :
    (.encodeLatents = call → nano.encodeLatents = some error) ∧ (.generate = call → nano.generate = some error) ∧
      (.nextChunk = call → nano.ending = some error) := by
  cases backend with
  | nanovllm nano' => cases call <;> cases h <;> simp
  | _ => cases call <;> cases h

/-- A complete-only runtime whose call of the model raises. -/
theorem runBackend_onward (h : call.Conceals error) (backend : Backend) (hraised : s.modelRaised = none) :
    Onward call (s.runBackend (backend.raising call error)) := by
  have hinternal := internal_of_conceals h
  cases backend with
  | nanovllm nano =>
    obtain ⟨nano', heq⟩ : ∃ nano', (Backend.nanovllm nano).raising call error = .nanovllm nano' := by
      cases call <;> exact ⟨_, rfl⟩
    rw [heq]
    simp only [runBackend, SynthesisState.proceed]
    cases nano'.prepareSynthesis with
    | error error => exact .past rfl (not_raised hraised)
    | ok sampleRateHz => exact .on rfl hraised
  | completeOnly result => cases call <;> exact callComplete_onward fun hraise => by cases hraise
  | voxcpm2 vox =>
    cases call with
    | voxcpm2Generate =>
      refine callComplete_onward fun hraise => ?_
      rcases vox with ⟨_ | error', generate, sampleRateHz, metrics, metadata⟩
      · exact ⟨_, rfl, hinternal⟩
      · cases hraise
    | _ =>
      refine callComplete_onward fun hraise => ?_
      simp only [VoxCPM2Call.modelRaised] at hraise
      split at hraise <;> cases hraise
  | kokoro pipe =>
    rcases pipe with ⟨_ | error', pipeline, results, ending, metrics, metadata⟩
    · cases call with
      | kokoroPipeline => exact callComplete_onward fun _ => ⟨_, rfl, hinternal⟩
      | kokoroNext =>
        refine callComplete_onward fun hraise => ?_
        cases pipeline with
        | none => exact ⟨_, kokoro_ending h results metrics metadata, hinternal⟩
        | some error' => cases hraise
      | _ =>
        refine callComplete_onward fun hraise => ?_
        cases pipeline <;> cases ending <;> cases hraise
    · -- it has failed before it calls the model
      cases call <;> exact callComplete_onward fun hraise => by cases hraise

/-- **A worker that may call the model** goes on, until it fails with what the
client is to see as `INTERNAL`, or is past the call. -/
theorem run_onward (h : call.Conceals error) (hrun : run (backend.raising call error) s task input = some e)
    (hgenerates : task.generates = true) (huncancelled : s.handle.cancelled = false)
    (hraised : s.modelRaised = none) : Onward call e := by
  cases task with
  | runJob queueWaitMs => cases hrun; exact .on rfl hraised
  | checkDispatch => cases hrun; exact unlessCancelled_onward huncancelled hraised rfl
  | runBackend => cases hrun; exact runBackend_onward h backend hraised
  | checkPrepared sampleRateHz => cases hrun; exact unlessCancelled_onward huncancelled hraised rfl
  | checkGeneration sampleRateHz => cases hrun; exact unlessCancelled_onward huncancelled hraised rfl
  | startedSink sampleRateHz =>
    cases hrun
    simp only [SynthesisState.emitStarted]
    split
    · exact .on rfl hraised
    · exact .past rfl (not_raised hraised)
  | encodeLatents sampleRateHz =>
    obtain ⟨nano, hnano, rfl⟩ := Option.map_eq_some_iff.mp hrun
    refine callServer_onward h rfl (fun hcall error' hmem => ?_) (.on rfl hraised)
    rw [(streamFn_raising hnano).1 hcall] at hmem
    split_ifs at hmem
    · exact (Option.some.inj hmem).symm
    · cases hmem
  | checkEncoded sampleRateHz => cases hrun; exact unlessCancelled_onward huncancelled hraised rfl
  | generate sampleRateHz =>
    obtain ⟨nano, hnano, rfl⟩ := Option.map_eq_some_iff.mp hrun
    refine callServer_onward h rfl (fun hcall error' hmem => ?_) (.on rfl hraised)
    rw [(streamFn_raising hnano).2.1 hcall] at hmem
    exact (Option.some.inj hmem).symm
  | nextChunk sampleRateHz chunkCount totalSampleCount chunks =>
    obtain ⟨nano, hnano, rfl⟩ := Option.map_eq_some_iff.mp hrun
    cases chunks with
    | cons samples chunks => exact .on rfl hraised
    | nil =>
      have hending := (streamFn_raising hnano).2.2
      simp only [SynthesisState.nextChunk]
      split
      · next message hstop =>
        refine .past rfl fun hcall => ?_
        -- the loop takes it for its end, and the call would not conceal it
        obtain rfl := Option.some.inj hcall
        cases hstop.symm.trans (hending rfl)
        exact h.1 rfl
      · refine callServer_onward h rfl (fun hcall error' hmem => ?_) (.past rfl (not_raised hraised))
        rw [hending hcall] at hmem
        exact (Option.some.inj hmem).symm
  | checkChunk sampleRateHz chunkCount totalSampleCount samples chunks =>
    cases hrun
    exact unlessCancelled_onward huncancelled hraised rfl
  | chunkSink sampleRateHz chunkCount totalSampleCount samples chunks =>
    cases hrun
    exact emitAudio_onward hraised rfl rfl
  | _ => cases hgenerates

end SynthesisState
end TtsPool
