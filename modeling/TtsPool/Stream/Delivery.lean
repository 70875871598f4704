/-
# What goes into a stream and what comes out

`StreamOp` lists the sections under the lock of a `SynthesisHandle`, and
`Delivery` runs them with two ledgers beside the handle: the events appended
and the answers of the reads, both in the order of the sections.  Whatever the
threads are, what they do to a handle is a list of these operations, so what
`Delivery.run` keeps holds under every interleaving.

Between the ledgers stands one equation, `Fifo`: the events appended are the
events returned, then those still buffered.  `Later` collects what no operation
takes back: the ledgers only grow, a terminal handle is appended to no more, and
a handle that ended before it was cancelled is never cancelled.  From there on
its reads are determined (`reads_of_ended`), as are those of a cancelled one
(`reads_of_cancelled`).
-/

import TtsPool.Stream.Handle
import Mathlib.Data.List.Infix

namespace TtsPool

/-- The sections under the lock of a handle. -/
inductive StreamOp where
  | markDispatched (queueWaitMs : ℚ)
  | setCancelCallback (callback : SchedulerJob)
  | addTerminalCallback (callback : TerminalCallback)
  | cancel
  | emitStarted (sampleRateHz channelCount : ℤ)
  | emitAudio (event : StreamAudioChunk) (remaining : ℚ)
  | finish (event : Option StreamEvent) (error : Option EngineError)
  | read

/-- An operation that finishes does so as `complete` and `fail` do. -/
def StreamOp.Ends : StreamOp → Prop
  | .finish event error =>
    (∃ result, event = some (.completed result) ∧ error = none) ∨ ∃ e, event = none ∧ error = some e
  | _ => True

theorem StreamOp.ends_completed (result : StreamCompleted) :
    (StreamOp.finish (some (.completed result)) none).Ends := .inl ⟨result, rfl, rfl⟩

theorem StreamOp.ends_failed (error : EngineError) : (StreamOp.finish none (some error)).Ends :=
  .inr ⟨error, rfl, rfl⟩

/-- The event of a completed synthesis. -/
def StreamEvent.isCompleted : StreamEvent → Bool
  | .completed _ => true
  | _ => false

/-- What a read returns or raises. -/
abbrev StreamAnswer := Except EngineError (Option StreamEvent)

/-- The event an answer delivers. -/
def StreamAnswer.event : StreamAnswer → Option StreamEvent
  | .ok event => event
  | .error _ => none

namespace SynthesisHandle

/-- The event `emit_started` appends. -/
def startedEvent (handle : SynthesisHandle) (sampleRateHz channelCount : ℤ) : StreamEvent :=
  .started
    { responseId := handle.responseId
      model := handle.modelName
      sampleRateHz := sampleRateHz
      channelCount := channelCount
      encoding := "pcm_s16le"
      schedulerQueueWaitMs := handle.schedulerQueueWaitMs }

/-- The handle after an operation; one that raises or waits leaves it alone. -/
def after (handle : SynthesisHandle) : StreamOp → SynthesisHandle
  | .markDispatched queueWaitMs => handle.markDispatched queueWaitMs
  | .setCancelCallback callback => (handle.setCancelCallback callback).1
  | .addTerminalCallback callback => (handle.addTerminalCallback callback).1
  | .cancel => handle.cancel.1
  | .emitStarted sampleRateHz channelCount =>
    match handle.emitStarted sampleRateHz channelCount with
    | .ok handle' => handle'
    | .error _ => handle
  | .emitAudio event remaining =>
    match handle.emitAudio event remaining with
    | .ok (some handle') => handle'
    | _ => handle
  | .finish event error => (handle.finish event error).1
  | .read => if handle.Readable then handle.popEvent.1 else handle

/-- The events an operation appends. -/
def appends (handle : SynthesisHandle) : StreamOp → List StreamEvent
  | .emitStarted sampleRateHz channelCount =>
    match handle.emitStarted sampleRateHz channelCount with
    | .ok _ => [handle.startedEvent sampleRateHz channelCount]
    | .error _ => []
  | .emitAudio event remaining =>
    match handle.emitAudio event remaining with
    | .ok (some _) => [.audio event]
    | _ => []
  | .finish event _ => if handle.terminal then [] else event.toList
  | _ => []

/-- The answers an operation gives. -/
def answers (handle : SynthesisHandle) : StreamOp → List StreamAnswer
  | .read => if handle.Readable then [handle.popEvent.2] else []
  | _ => []

/-- What reads answer once a terminal handle is empty. -/
def final (handle : SynthesisHandle) : StreamAnswer :=
  match handle.error with
  | some error => .error error
  | none => .ok none

/-- The answer of every read of a cancelled handle. -/
def cancelledAnswer : StreamAnswer := .error (.synthesisCancelled "synthesis was cancelled")

end SynthesisHandle

/-- A handle with what has gone into it and what has come out. -/
structure Delivery where
  handle : SynthesisHandle
  appended : List StreamEvent := []
  reads : List StreamAnswer := []

namespace Delivery

/-- The events the reads have returned, in their order. -/
def returned (d : Delivery) : List StreamEvent := d.reads.filterMap StreamAnswer.event

/-- One section under the lock. -/
def perform (d : Delivery) (op : StreamOp) : Delivery where
  handle := d.handle.after op
  appended := d.appended ++ d.handle.appends op
  reads := d.reads ++ d.handle.answers op

/-- The sections in their order. -/
def run (d : Delivery) (ops : List StreamOp) : Delivery := ops.foldl perform d

end Delivery

namespace SynthesisHandle

/-! ### What each operation does -/

/-- `_raise_if_stopped_locked` lets a handle pass that is neither cancelled nor
terminal. -/
theorem raiseIfStopped_eq_none {handle : SynthesisHandle} :
    handle.raiseIfStopped = none ↔ handle.cancelled = false ∧ handle.terminal = false := by
  unfold raiseIfStopped
  split_ifs <;> simp_all

theorem emitStarted_cases (handle : SynthesisHandle) (sampleRateHz channelCount : ℤ) :
    (handle.cancelled = false ∧ handle.terminal = false ∧ handle.emitStarted sampleRateHz channelCount =
      .ok { handle with events := handle.events ++ [handle.startedEvent sampleRateHz channelCount] }) ∨
    ∃ error, handle.raiseIfStopped = some error ∧
      handle.emitStarted sampleRateHz channelCount = .error error := by
  unfold emitStarted appendControl
  cases hstop : handle.raiseIfStopped with
  | none =>
    obtain ⟨hcancelled, hterminal⟩ := raiseIfStopped_eq_none.mp hstop
    exact .inl ⟨hcancelled, hterminal, rfl⟩
  | some error => exact .inr ⟨error, rfl, rfl⟩

/-- A look at the buffer appends the chunk, waits, or raises. -/
theorem emitAudio_cases (handle : SynthesisHandle) (event : StreamAudioChunk) (remaining : ℚ) :
    (handle.cancelled = false ∧ handle.terminal = false ∧ ¬ handle.Full event.pcm.length ∧
      handle.emitAudio event remaining = .ok (some (handle.appendAudio event))) ∨
    (handle.Full event.pcm.length ∧ handle.emitAudio event remaining = .ok none) ∨
    ∃ error, handle.emitAudio event remaining = .error error := by
  unfold emitAudio
  by_cases hsize : handle.maxBufferBytes < event.pcm.length
  · exact .inr (.inr ⟨_, if_pos hsize⟩)
  rw [if_neg hsize]
  cases hstop : handle.raiseIfStopped with
  | some error => exact .inr (.inr ⟨error, rfl⟩)
  | none =>
    obtain ⟨hcancelled, hterminal⟩ := raiseIfStopped_eq_none.mp hstop
    by_cases hfull : handle.Full event.pcm.length
    · by_cases hlate : remaining ≤ 0
      · exact .inr (.inr ⟨_, by simp [hfull, hlate]; rfl⟩)
      · exact .inr (.inl ⟨hfull, by simp [hfull, hlate]⟩)
    · exact .inl ⟨hcancelled, hterminal, hfull, by simp [hfull]⟩

/-- An open handle is cancelled from then on. -/
theorem cancelled_cancel {handle : SynthesisHandle} (h : handle.terminal = false) :
    handle.cancel.1.cancelled = true := by
  unfold cancel
  split_ifs with hstop
  · simpa [h] using hstop
  · rfl

/-- The handle without its first event. -/
def popped (handle : SynthesisHandle) (event : StreamEvent) (events : List StreamEvent) : SynthesisHandle :=
  match event with
  | .audio chunk =>
    { handle with
      events := events
      bufferedAudioChunks := handle.bufferedAudioChunks - 1
      bufferedAudioBytes := handle.bufferedAudioBytes - chunk.pcm.length }
  | _ => { handle with events := events }

/-- A read of a cancelled handle raises; of any other it takes the first event,
and of an empty one it answers how the handle ended. -/
theorem popEvent_cases (handle : SynthesisHandle) :
    (handle.cancelled = true ∧ handle.popEvent = (handle, cancelledAnswer)) ∨
    (handle.cancelled = false ∧ handle.events = [] ∧ handle.popEvent = (handle, handle.final)) ∨
    ∃ event events, handle.cancelled = false ∧ handle.events = event :: events ∧
      handle.popEvent = (handle.popped event events, .ok (some event)) := by
  unfold popEvent
  split_ifs with hcancelled
  · exact .inl ⟨hcancelled, rfl⟩
  rw [Bool.not_eq_true] at hcancelled
  cases hevents : handle.events with
  | nil =>
    refine .inr (.inl ⟨hcancelled, rfl, ?_⟩)
    simp only [final]
    cases handle.error <;> rfl
  | cons event events =>
    refine .inr (.inr ⟨event, events, hcancelled, rfl, ?_⟩)
    cases event <;> rfl

@[simp] theorem popped_events (handle : SynthesisHandle) (event : StreamEvent) (events : List StreamEvent) :
    (handle.popped event events).events = events := by
  cases event <;> rfl

end SynthesisHandle

namespace Delivery

open SynthesisHandle

/-- What an operation can do to how the handle stands. -/
structure Later (d d' : Delivery) : Prop where
  appended : d.appended <+: d'.appended
  reads : d.reads <+: d'.reads
  terminal : d.handle.terminal = true → d'.handle.terminal = true ∧ d'.handle.error = d.handle.error ∧
    d'.appended = d.appended ∧ d'.handle.cancelled = d.handle.cancelled
  cancelled : d.handle.cancelled = true → d'.handle.cancelled = true

theorem Later.refl (d : Delivery) : d.Later d :=
  ⟨List.prefix_rfl, List.prefix_rfl, fun h => ⟨h, rfl, rfl, rfl⟩, id⟩

theorem Later.trans {d₁ d₂ d₃ : Delivery} (h : d₁.Later d₂) (h' : d₂.Later d₃) : d₁.Later d₃ where
  appended := h.appended.trans h'.appended
  reads := h.reads.trans h'.reads
  terminal := fun hend => by
    obtain ⟨hend₂, herror, happended, hcancelled⟩ := h.terminal hend
    obtain ⟨hend₃, herror', happended', hcancelled'⟩ := h'.terminal hend₂
    exact ⟨hend₃, herror'.trans herror, happended'.trans happended, hcancelled'.trans hcancelled⟩
  cancelled := h'.cancelled ∘ h.cancelled

/-- An operation that leaves the end, the flag and a terminal handle's events
alone. -/
theorem Later.of_perform {d : Delivery} {op : StreamOp}
    (h : (d.handle.after op).terminal = d.handle.terminal ∧ (d.handle.after op).error = d.handle.error ∧
      (d.handle.after op).cancelled = d.handle.cancelled)
    (happends : d.handle.terminal = true → d.handle.appends op = []) : d.Later (d.perform op) where
  appended := List.prefix_append _ _
  reads := List.prefix_append _ _
  terminal := fun hend => ⟨h.1.trans hend, h.2.1, by simp [perform, happends hend], h.2.2⟩
  cancelled := fun hcancelled => h.2.2.trans hcancelled

/-- **No operation takes anything back.** -/
theorem perform_later (d : Delivery) (op : StreamOp) : d.Later (d.perform op) := by
  cases op with
  | markDispatched queueWaitMs => exact .of_perform ⟨rfl, rfl, rfl⟩ fun _ => rfl
  | setCancelCallback callback =>
    refine .of_perform ?_ fun _ => rfl
    simp only [SynthesisHandle.after, SynthesisHandle.setCancelCallback]
    split_ifs <;> exact ⟨rfl, rfl, rfl⟩
  | addTerminalCallback callback =>
    refine .of_perform ?_ fun _ => rfl
    simp only [SynthesisHandle.after, SynthesisHandle.addTerminalCallback]
    split_ifs <;> exact ⟨rfl, rfl, rfl⟩
  | cancel =>
    have hcancel : (d.perform .cancel).handle = d.handle.cancel.1 := rfl
    refine ⟨List.prefix_append _ _, List.prefix_append _ _, fun hend => ?_, fun hcancelled => ?_⟩
    · rw [hcancel, SynthesisHandle.cancel, if_pos (.inl hend)]
      exact ⟨hend, rfl, List.append_nil _, rfl⟩
    · rw [hcancel, SynthesisHandle.cancel, if_pos (.inr hcancelled)]
      exact hcancelled
  | emitStarted sampleRateHz channelCount =>
    rcases d.handle.emitStarted_cases sampleRateHz channelCount with ⟨-, hopen, heq⟩ | ⟨error, -, heq⟩
    · refine .of_perform ?_ fun hend => by simp [hopen] at hend
      simp only [SynthesisHandle.after, heq, and_self]
    · refine .of_perform ?_ fun _ => by simp only [appends, heq]
      simp only [SynthesisHandle.after, heq, and_self]
  | emitAudio event remaining =>
    rcases d.handle.emitAudio_cases event remaining with ⟨-, hopen, -, heq⟩ | ⟨-, heq⟩ | ⟨error, heq⟩
    · refine .of_perform ?_ fun hend => by simp [hopen] at hend
      simp only [SynthesisHandle.after, heq, appendAudio, and_self]
    · refine .of_perform ?_ fun _ => by simp only [appends, heq]
      simp only [SynthesisHandle.after, heq, and_self]
    · refine .of_perform ?_ fun _ => by simp only [appends, heq]
      simp only [SynthesisHandle.after, heq, and_self]
  | finish event error =>
    refine ⟨List.prefix_append _ _, List.prefix_append _ _, fun hend => ?_, fun hcancelled => ?_⟩
    · simp [perform, SynthesisHandle.after, SynthesisHandle.finish, appends, hend]
    · simp only [perform, SynthesisHandle.after, SynthesisHandle.finish]
      split_ifs <;> exact hcancelled
  | read =>
    refine .of_perform ?_ fun _ => rfl
    simp only [SynthesisHandle.after]
    split_ifs
    · rcases d.handle.popEvent_cases with ⟨-, heq⟩ | ⟨-, -, heq⟩ | ⟨event, events, -, -, heq⟩
      · simp only [heq, and_self]
      · simp only [heq, and_self]
      · rw [heq]
        cases event <;> exact ⟨rfl, rfl, rfl⟩
    · exact ⟨rfl, rfl, rfl⟩

theorem run_later (d : Delivery) (ops : List StreamOp) : d.Later (d.run ops) := by
  induction ops generalizing d with
  | nil => exact .refl d
  | cons op ops ih => exact (d.perform_later op).trans (ih (d.perform op))

/-! ### In order, each once, none lost -/

/-- What has been appended is what has been returned, then what is buffered. -/
def Fifo (d : Delivery) : Prop := d.appended = d.returned ++ d.handle.events

/-- **Every operation keeps the order.** -/
theorem perform_fifo {d : Delivery} (h : d.Fifo) (op : StreamOp) : (d.perform op).Fifo := by
  -- an operation that answers nothing puts what it appends last
  have hkeep : d.handle.answers op = [] → (d.handle.after op).events = d.handle.events ++ d.handle.appends op →
      (d.perform op).Fifo := by
    intro hanswers hevents
    simp only [Fifo, perform, returned, hanswers, hevents, List.append_nil] at h ⊢
    rw [h, List.append_assoc]
  cases op with
  | markDispatched queueWaitMs => exact hkeep rfl (List.append_nil _).symm
  | setCancelCallback callback =>
    refine hkeep rfl ?_
    simp only [SynthesisHandle.after, SynthesisHandle.setCancelCallback, appends, List.append_nil]
    split_ifs <;> rfl
  | addTerminalCallback callback =>
    refine hkeep rfl ?_
    simp only [SynthesisHandle.after, SynthesisHandle.addTerminalCallback, appends, List.append_nil]
    split_ifs <;> rfl
  | cancel =>
    refine hkeep rfl ?_
    simp only [SynthesisHandle.after, SynthesisHandle.cancel, appends, List.append_nil]
    split_ifs <;> rfl
  | emitStarted sampleRateHz channelCount =>
    refine hkeep rfl ?_
    rcases d.handle.emitStarted_cases sampleRateHz channelCount with ⟨-, -, heq⟩ | ⟨error, -, heq⟩
    · simp only [SynthesisHandle.after, appends, heq]
    · simp only [SynthesisHandle.after, appends, heq, List.append_nil]
  | emitAudio event remaining =>
    refine hkeep rfl ?_
    rcases d.handle.emitAudio_cases event remaining with ⟨-, -, -, heq⟩ | ⟨-, heq⟩ | ⟨error, heq⟩
    · simp only [SynthesisHandle.after, appends, heq, appendAudio]
    · simp only [SynthesisHandle.after, appends, heq, List.append_nil]
    · simp only [SynthesisHandle.after, appends, heq, List.append_nil]
  | finish event error =>
    refine hkeep rfl ?_
    simp only [SynthesisHandle.after, SynthesisHandle.finish, appends]
    split_ifs
    · exact (List.append_nil _).symm
    · rfl
  | read =>
    by_cases hread : d.handle.Readable
    · simp only [Fifo, perform, returned, SynthesisHandle.after, appends, answers, if_pos hread,
        List.filterMap_append, List.append_nil] at h ⊢
      rcases d.handle.popEvent_cases with ⟨-, heq⟩ | ⟨-, hempty, heq⟩ | ⟨event, events, -, hevents, heq⟩
      · rw [heq, h]
        simp [cancelledAnswer, StreamAnswer.event]
      · rw [heq, h, final]
        cases d.handle.error <;> simp [StreamAnswer.event]
      · rw [heq, h, hevents]
        simp [StreamAnswer.event]
    · simpa only [Fifo, perform, returned, SynthesisHandle.after, appends, answers, if_neg hread,
        List.append_nil] using h

/-- What the operations of one kind keep. -/
theorem run_of {I : Delivery → Prop} {P : StreamOp → Prop} {d : Delivery} (h : I d)
    (hstep : ∀ d op, P op → I d → I (d.perform op)) {ops : List StreamOp} (hops : ∀ op ∈ ops, P op) :
    I (d.run ops) := by
  induction ops generalizing d with
  | nil => exact h
  | cons op ops ih =>
    exact ih (hstep d op (hops op List.mem_cons_self) h) fun op' hmem => hops op' (List.mem_cons_of_mem op hmem)

/-! ### How a stream ends -/

/-- **The Completed event**: it is appended last, as the stream ends without an
error, and who has received it was not cancelled. -/
structure Concluded (d : Delivery) : Prop where
  fifo : d.Fifo
  last : d.appended.Pairwise fun earlier _ => earlier.isCompleted = false
  ended : ∀ event ∈ d.appended, event.isCompleted = true → d.handle.terminal = true ∧ d.handle.error = none
  received : ∀ event ∈ d.returned, event.isCompleted = true → d.handle.cancelled = false

/-- An operation appends nothing, or one event to an open handle; a Completed
event ends it. -/
theorem appends_cases (handle : SynthesisHandle) {op : StreamOp} (hop : op.Ends) :
    handle.appends op = [] ∨ ∃ event, handle.appends op = [event] ∧ handle.terminal = false ∧
      (event.isCompleted = true → (handle.after op).terminal = true ∧ (handle.after op).error = none) := by
  cases op with
  | emitStarted sampleRateHz channelCount =>
    rcases handle.emitStarted_cases sampleRateHz channelCount with ⟨-, hopen, heq⟩ | ⟨error, -, heq⟩
    · refine .inr ⟨handle.startedEvent sampleRateHz channelCount, by simp only [appends, heq], hopen, ?_⟩
      exact fun hcompleted => Bool.noConfusion hcompleted
    · exact .inl (by simp only [appends, heq])
  | emitAudio event remaining =>
    rcases handle.emitAudio_cases event remaining with ⟨-, hopen, -, heq⟩ | ⟨-, heq⟩ | ⟨error, heq⟩
    · refine .inr ⟨.audio event, by simp only [appends, heq], hopen, ?_⟩
      exact fun hcompleted => Bool.noConfusion hcompleted
    · exact .inl (by simp only [appends, heq])
    · exact .inl (by simp only [appends, heq])
  | finish event error =>
    by_cases hend : handle.terminal = true
    · exact .inl (by simp [appends, hend])
    · rw [Bool.not_eq_true] at hend
      rcases hop with ⟨result, rfl, rfl⟩ | ⟨e, rfl, rfl⟩
      · refine .inr ⟨.completed result, by simp [appends, hend], hend, fun _ => ?_⟩
        simp [SynthesisHandle.after, SynthesisHandle.finish, hend]
      · exact .inl (by simp [appends])
  | _ => exact .inl rfl

/-- A Completed event is appended by finishing with it. -/
theorem appends_completed {handle : SynthesisHandle} {op : StreamOp} (hop : op.Ends) {event : StreamEvent}
    (hmem : event ∈ handle.appends op) (hcompleted : event.isCompleted = true) :
    ∃ result, op = .finish (some (.completed result)) none ∧ handle.appends op = [.completed result] := by
  cases op with
  | emitStarted sampleRateHz channelCount =>
    simp only [appends] at hmem
    split at hmem
    · rw [List.mem_singleton.mp hmem] at hcompleted
      exact Bool.noConfusion hcompleted
    · exact absurd hmem List.not_mem_nil
  | emitAudio event' remaining =>
    simp only [appends] at hmem
    split at hmem
    · rw [List.mem_singleton.mp hmem] at hcompleted
      exact Bool.noConfusion hcompleted
    · exact absurd hmem List.not_mem_nil
  | finish event' error =>
    rcases hop with ⟨result, rfl, rfl⟩ | ⟨cause, rfl, rfl⟩
    · simp only [appends] at hmem ⊢
      split_ifs at hmem ⊢
      · exact absurd hmem List.not_mem_nil
      · exact ⟨result, rfl, rfl⟩
    · simp [appends] at hmem
  | _ => exact absurd hmem List.not_mem_nil

/-- An answer that delivers an event comes from a handle that is not cancelled. -/
theorem open_of_answer {handle : SynthesisHandle} {op : StreamOp} {event : StreamEvent}
    (h : event ∈ (handle.answers op).filterMap StreamAnswer.event) :
    handle.cancelled = false ∧ (handle.after op).cancelled = false := by
  cases op with
  | read =>
    simp only [answers] at h
    split_ifs at h with hread
    · rcases handle.popEvent_cases with ⟨-, heq⟩ | ⟨hopen, -, heq⟩ | ⟨first, events, hopen, -, heq⟩
      · simp [heq, cancelledAnswer, StreamAnswer.event] at h
      · exact ⟨hopen, by simpa only [SynthesisHandle.after, if_pos hread, heq] using hopen⟩
      · refine ⟨hopen, ?_⟩
        rw [SynthesisHandle.after, if_pos hread, heq]
        cases first <;> exact hopen
    · simp at h
  | _ => simp [answers] at h

theorem perform_concluded {d : Delivery} (h : d.Concluded) {op : StreamOp} (hop : op.Ends) :
    (d.perform op).Concluded := by
  have hlater := d.perform_later op
  have hold : ∀ event ∈ d.appended, event.isCompleted = true →
      (d.perform op).handle.terminal = true ∧ (d.perform op).handle.error = none := fun event hmem hcompleted => by
    obtain ⟨hend, herror⟩ := h.ended event hmem hcompleted
    obtain ⟨hend', herror', -, -⟩ := hlater.terminal hend
    exact ⟨hend', herror'.trans herror⟩
  refine ⟨perform_fifo h.fifo op, ?_, ?_, fun event hmem hcompleted => ?_⟩
  · rcases appends_cases d.handle hop with heq | ⟨event, heq, hopen, -⟩
    · simpa only [perform, heq, List.append_nil] using h.last
    · rw [perform, heq]
      refine List.pairwise_append.mpr ⟨h.last, List.pairwise_singleton _ _, fun earlier hmem _ _ => ?_⟩
      -- an open handle has no Completed event yet
      by_contra hcompleted
      have hend := (h.ended earlier hmem (by simpa using hcompleted)).1
      simp [hopen] at hend
  · intro event hmem hcompleted
    rcases appends_cases d.handle hop with heq | ⟨event', heq, -, hends⟩
    · exact hold event (by simpa only [perform, heq, List.append_nil] using hmem) hcompleted
    · rw [perform, heq] at hmem
      rcases List.mem_append.mp hmem with hmem | hmem
      · exact hold event hmem hcompleted
      · exact hends (List.mem_singleton.mp hmem ▸ hcompleted)
  · simp only [perform, returned, List.filterMap_append] at hmem
    rcases List.mem_append.mp hmem with hmem | hmem
    · have happended : event ∈ d.appended := by
        rw [h.fifo]
        exact List.mem_append_left _ hmem
      exact (hlater.terminal (h.ended event happended hcompleted).1).2.2.2.trans (h.received event hmem hcompleted)
    · exact (open_of_answer hmem).2

/-- Finishing alone makes a handle terminal. -/
theorem after_terminal (handle : SynthesisHandle) (op : StreamOp) :
    (handle.after op).terminal = handle.terminal ∨ ∃ event error, op = .finish event error := by
  cases op with
  | markDispatched queueWaitMs => exact .inl rfl
  | setCancelCallback callback => exact .inl (handle.setCancelCallback_spec callback).1
  | addTerminalCallback callback => exact .inl (handle.addTerminalCallback_spec callback).1
  | cancel => exact .inl handle.cancel_ending.terminal
  | emitStarted sampleRateHz channelCount =>
    refine .inl ?_
    simp only [SynthesisHandle.after]
    split
    · exact (emitStarted_ending ‹_›).terminal
    · rfl
  | emitAudio event remaining =>
    refine .inl ?_
    simp only [SynthesisHandle.after]
    split
    · exact (emitAudio_ending ‹_›).terminal
    · rfl
  | finish event error => exact .inr ⟨event, error, rfl⟩
  | read =>
    refine .inl ?_
    simp only [SynthesisHandle.after]
    split_ifs
    · exact handle.popEvent_ending.terminal
    · rfl

/-- A stream that has ended without an error has its Completed event. -/
theorem perform_completed {d : Delivery} {op : StreamOp} (hop : op.Ends)
    (h : d.handle.terminal = true → d.handle.error = none → ∃ event ∈ d.appended, event.isCompleted = true)
    (hend : (d.perform op).handle.terminal = true) (herror : (d.perform op).handle.error = none) :
    ∃ event ∈ (d.perform op).appended, event.isCompleted = true := by
  cases hopen : d.handle.terminal with
  | true =>
    obtain ⟨-, hsame, happended, -⟩ := (d.perform_later op).terminal hopen
    rw [happended]
    exact h hopen (hsame ▸ herror)
  | false =>
    rcases after_terminal d.handle op with hsame | ⟨event, error, rfl⟩
    · exact absurd (hsame.symm.trans hend) (by simp [hopen])
    · rcases hop with ⟨result, rfl, rfl⟩ | ⟨cause, rfl, rfl⟩
      · exact ⟨.completed result, by simp [perform, appends, hopen], rfl⟩
      · simp [perform, SynthesisHandle.after, SynthesisHandle.finish, hopen] at herror

/-- **A cancelled handle answers every read alike.** -/
theorem reads_of_cancelled {d : Delivery} (h : d.handle.cancelled = true) (ops : List StreamOp) :
    ∃ n, (d.run ops).reads = d.reads ++ List.replicate n cancelledAnswer := by
  induction ops generalizing d with
  | nil => exact ⟨0, (List.append_nil _).symm⟩
  | cons op ops ih =>
    obtain ⟨n, hn⟩ := ih ((d.perform_later op).cancelled h)
    have hop : ∃ m, d.handle.answers op = List.replicate m cancelledAnswer := by
      cases op with
      | read =>
        rcases d.handle.popEvent_cases with ⟨-, heq⟩ | ⟨hnot, -⟩ | ⟨_, _, hnot, -⟩
        · simp only [answers, heq]
          split_ifs
          · exact ⟨1, rfl⟩
          · exact ⟨0, rfl⟩
        · simp [h] at hnot
        · simp [h] at hnot
      | _ => exact ⟨0, rfl⟩
    obtain ⟨m, hm⟩ := hop
    refine ⟨m + n, ?_⟩
    rw [show d.run (op :: ops) = (d.perform op).run ops from rfl, hn, perform, hm, List.append_assoc,
      ← List.replicate_add]

/-- The answers to the next reads of a handle that has ended: what is buffered,
in order, then how it ended. -/
def answersTo (events : List StreamEvent) (final : StreamAnswer) (n : ℕ) : List StreamAnswer :=
  (events.take n).map (fun event => .ok (some event)) ++ List.replicate (n - events.length) final

/-- On a handle that ended uncancelled an operation says nothing, or it takes the
first event out, or it says how the handle ended. -/
theorem ended_cases {d : Delivery} (hend : d.handle.terminal = true) (hopen : d.handle.cancelled = false)
    (op : StreamOp) :
    (d.handle.answers op = [] ∧ (d.handle.after op).events = d.handle.events) ∨
    (∃ event events, d.handle.events = event :: events ∧ d.handle.answers op = [.ok (some event)] ∧
      (d.handle.after op).events = events) ∨
    d.handle.events = [] ∧ d.handle.answers op = [d.handle.final] ∧ (d.handle.after op).events = [] := by
  have hread : d.handle.Readable := .inr (.inl hend)
  cases op with
  | read =>
    simp only [answers, SynthesisHandle.after, if_pos hread]
    rcases d.handle.popEvent_cases with ⟨hnot, -⟩ | ⟨-, hempty, heq⟩ | ⟨event, events, -, hevents, heq⟩
    · simp [hopen] at hnot
    · exact .inr (.inr ⟨hempty, by rw [heq], by rw [heq, hempty]⟩)
    · exact .inr (.inl ⟨event, events, hevents, by rw [heq], by rw [heq, popped_events]⟩)
  | markDispatched queueWaitMs => exact .inl ⟨rfl, rfl⟩
  | setCancelCallback callback =>
    refine .inl ⟨rfl, ?_⟩
    simp only [SynthesisHandle.after, SynthesisHandle.setCancelCallback]
    split_ifs <;> rfl
  | addTerminalCallback callback =>
    refine .inl ⟨rfl, ?_⟩
    simp only [SynthesisHandle.after, SynthesisHandle.addTerminalCallback, if_pos hend]
  | cancel =>
    refine .inl ⟨rfl, ?_⟩
    simp only [SynthesisHandle.after, SynthesisHandle.cancel, hend, true_or, if_true]
  | emitStarted sampleRateHz channelCount =>
    rcases d.handle.emitStarted_cases sampleRateHz channelCount with ⟨-, hnot, -⟩ | ⟨error, -, heq⟩
    · simp [hend] at hnot
    · exact .inl ⟨rfl, by simp only [SynthesisHandle.after, heq]⟩
  | emitAudio event remaining =>
    rcases d.handle.emitAudio_cases event remaining with ⟨-, hnot, -, -⟩ | ⟨-, heq⟩ | ⟨error, heq⟩
    · simp [hend] at hnot
    · exact .inl ⟨rfl, by simp only [SynthesisHandle.after, heq]⟩
    · exact .inl ⟨rfl, by simp only [SynthesisHandle.after, heq]⟩
  | finish event error =>
    refine .inl ⟨rfl, ?_⟩
    simp only [SynthesisHandle.after, SynthesisHandle.finish, if_pos hend]

/-- **A handle that ended uncancelled** delivers all it buffers, then answers how
it ended, for ever. -/
theorem reads_of_ended {d : Delivery} (hend : d.handle.terminal = true) (hopen : d.handle.cancelled = false)
    (ops : List StreamOp) :
    ∃ n, (d.run ops).reads = d.reads ++ answersTo d.handle.events d.handle.final n := by
  induction ops generalizing d with
  | nil => exact ⟨0, by simp [run, answersTo]⟩
  | cons op ops ih =>
    obtain ⟨hend', herror, -, hcancelled⟩ := (d.perform_later op).terminal hend
    obtain ⟨n, hn⟩ := ih hend' (hcancelled.trans hopen)
    have hfinal : (d.perform op).handle.final = d.handle.final := by rw [final, final, herror]
    rw [show d.run (op :: ops) = (d.perform op).run ops from rfl]
    rw [hn, hfinal]
    rcases ended_cases hend hopen op with ⟨hanswers, hevents⟩ | ⟨event, events, hold, hanswers, hevents⟩ |
      ⟨hold, hanswers, hevents⟩
    · exact ⟨n, by simp [perform, hanswers, hevents]⟩
    · exact ⟨n + 1, by simp [perform, hanswers, hevents, hold, answersTo]⟩
    · refine ⟨n + 1, ?_⟩
      simp [perform, hanswers, hevents, hold, answersTo, List.replicate_succ]

/-- Finishing an open handle settles its reads. -/
theorem reads_after_finish {d : Delivery} (hopen : d.handle.terminal = false)
    (hcancelled : d.handle.cancelled = false) (event : Option StreamEvent) (error : Option EngineError)
    (ops : List StreamOp) :
    ∃ n, ((d.perform (.finish event error)).run ops).reads =
      d.reads ++ answersTo (d.handle.events ++ event.toList) (error.elim (.ok none) .error) n := by
  have hhandle : (d.perform (.finish event error)).handle = (d.handle.finish event error).1 := rfl
  have hfinish : d.handle.finish event error =
      ({ d.handle with
          events := d.handle.events ++ event.toList
          error := error
          terminal := true
          terminalCallbacks := [] }, d.handle.terminalCallbacks) := if_neg (by simp [hopen])
  have hreads : (d.perform (.finish event error)).reads = d.reads := List.append_nil _
  obtain ⟨n, hn⟩ := reads_of_ended (d := d.perform (.finish event error)) (by rw [hhandle, hfinish])
    (by rw [hhandle, hfinish, hcancelled]) ops
  rw [hreads, hhandle, hfinish] at hn
  exact ⟨n, by cases error <;> exact hn⟩

/-- So does cancelling one. -/
theorem reads_after_cancel {d : Delivery} (hopen : d.handle.terminal = false) (ops : List StreamOp) :
    ∃ n, ((d.perform .cancel).run ops).reads = d.reads ++ List.replicate n cancelledAnswer := by
  have hcancelled : (d.perform .cancel).handle.cancelled = true := cancelled_cancel hopen
  have hreads : (d.perform .cancel).reads = d.reads := List.append_nil _
  exact hreads ▸ reads_of_cancelled hcancelled ops

/-- **Who has received the Completed event** reads nothing more, and no error. -/
theorem reads_of_received {d : Delivery} (h : d.Concluded) {event : StreamEvent} (hmem : event ∈ d.returned)
    (hcompleted : event.isCompleted = true) (ops : List StreamOp) :
    ∃ n, (d.run ops).reads = d.reads ++ List.replicate n (.ok none) := by
  have happended : event ∈ d.appended := by
    rw [h.fifo]
    exact List.mem_append_left _ hmem
  obtain ⟨hend, herror⟩ := h.ended event happended hcompleted
  obtain ⟨n, hn⟩ := reads_of_ended hend (h.received event hmem hcompleted) ops
  -- nothing was appended after it, so nothing is left to read
  have hempty : d.handle.events = [] := by
    refine List.eq_nil_iff_forall_not_mem.mpr fun later hlater => ?_
    have hlast := h.last
    rw [h.fifo] at hlast
    have hearlier := (List.pairwise_append.mp hlast).2.2 event hmem later hlater
    simp [hcompleted] at hearlier
  exact ⟨n, by simpa [answersTo, hempty, final, herror] using hn⟩

end Delivery
end TtsPool
