/-
# The bounded buffer

The two counters of a handle are what they say, the number of audio chunks among
its events and their total length, and stay within the limits the handle was
made with (`Buffered`).  Every operation moves them in one of three ways
(`after_cases`): a chunk that fits is appended and counted, the first chunk is
taken out and counted off, or they stay.

The maxima are high-water marks (`perform_peaks`), so over a schedule they are
the greatest values the counters have had.  `complete` reads them in a section
of its own, before the one that finishes: what a Completed event reports are the
greatest values up to that look (`Reported`).
-/

import TtsPool.Stream.Calls

namespace TtsPool

open Threads (Effect Config Action)

/-- The audio chunk of an event. -/
def StreamEvent.audio? : StreamEvent → Option StreamAudioChunk
  | .audio event => some event
  | _ => none

/-- The audio chunks among events. -/
def audioChunks (events : List StreamEvent) : List StreamAudioChunk := events.filterMap StreamEvent.audio?

/-- The bytes of audio among events. -/
def audioBytes (events : List StreamEvent) : ℕ := ((audioChunks events).map fun event => event.pcm.length).sum

@[simp] theorem audioChunks_append (events more : List StreamEvent) :
    audioChunks (events ++ more) = audioChunks events ++ audioChunks more := List.filterMap_append

namespace SynthesisHandle

/-- The accounts of the buffer agree with its events and keep to its limits. -/
structure Buffered (handle : SynthesisHandle) : Prop where
  chunks : handle.bufferedAudioChunks = (audioChunks handle.events).length
  bytes : handle.bufferedAudioBytes = audioBytes handle.events
  chunks_le : handle.bufferedAudioChunks ≤ handle.maxBufferChunks
  bytes_le : handle.bufferedAudioBytes ≤ handle.maxBufferBytes
  chunks_peak : handle.bufferedAudioChunks ≤ handle.maximumBufferedAudioChunks
  bytes_peak : handle.bufferedAudioBytes ≤ handle.maximumBufferedAudioBytes
  limit_pos : 0 < handle.maxBufferChunks

/-- Neither the audio nor its accounts have moved. -/
structure SameBuffer (handle handle' : SynthesisHandle) : Prop where
  audio : audioChunks handle'.events = audioChunks handle.events
  chunks : handle'.bufferedAudioChunks = handle.bufferedAudioChunks
  bytes : handle'.bufferedAudioBytes = handle.bufferedAudioBytes
  maximumChunks : handle'.maximumBufferedAudioChunks = handle.maximumBufferedAudioChunks
  maximumBytes : handle'.maximumBufferedAudioBytes = handle.maximumBufferedAudioBytes
  maxChunks : handle'.maxBufferChunks = handle.maxBufferChunks
  maxBytes : handle'.maxBufferBytes = handle.maxBufferBytes

theorem SameBuffer.refl (handle : SynthesisHandle) : handle.SameBuffer handle :=
  ⟨rfl, rfl, rfl, rfl, rfl, rfl, rfl⟩

/-- **What an operation does to the buffer**: a chunk that fits comes in, the
first one goes out, or nothing. -/
theorem after_cases (handle : SynthesisHandle) {op : StreamOp} (hop : op.Ends) :
    (∃ event, ¬ handle.Full event.pcm.length ∧ handle.after op = handle.appendAudio event) ∨
    (∃ event events, handle.events = .audio event :: events ∧
      handle.after op = handle.popped (.audio event) events) ∨
    handle.SameBuffer (handle.after op) := by
  cases op with
  | markDispatched queueWaitMs => exact .inr (.inr ⟨rfl, rfl, rfl, rfl, rfl, rfl, rfl⟩)
  | setCancelCallback callback =>
    refine .inr (.inr ?_)
    simp only [after, setCancelCallback]
    split_ifs <;> exact ⟨rfl, rfl, rfl, rfl, rfl, rfl, rfl⟩
  | addTerminalCallback callback =>
    refine .inr (.inr ?_)
    simp only [after, addTerminalCallback]
    split_ifs <;> exact ⟨rfl, rfl, rfl, rfl, rfl, rfl, rfl⟩
  | cancel =>
    refine .inr (.inr ?_)
    simp only [after, cancel]
    split_ifs <;> exact ⟨rfl, rfl, rfl, rfl, rfl, rfl, rfl⟩
  | emitStarted sampleRateHz channelCount =>
    refine .inr (.inr ?_)
    rcases handle.emitStarted_cases sampleRateHz channelCount with ⟨-, -, heq⟩ | ⟨error, -, heq⟩
    · rw [after, heq]
      exact ⟨by rw [audioChunks_append]; exact List.append_nil _, rfl, rfl, rfl, rfl, rfl, rfl⟩
    · rw [after, heq]
      exact .refl handle
  | emitAudio event remaining =>
    rcases handle.emitAudio_cases event remaining with ⟨-, -, hroom, heq⟩ | ⟨-, heq⟩ | ⟨error, heq⟩
    · exact .inl ⟨event, hroom, by rw [after, heq]⟩
    · exact .inr (.inr (by rw [after, heq]; exact .refl handle))
    · exact .inr (.inr (by rw [after, heq]; exact .refl handle))
  | finish event error =>
    refine .inr (.inr ?_)
    simp only [after, finish]
    split_ifs
    · exact .refl handle
    · rcases hop with ⟨result, rfl, rfl⟩ | ⟨e, rfl, rfl⟩
      · exact ⟨by rw [audioChunks_append]; exact List.append_nil _, rfl, rfl, rfl, rfl, rfl, rfl⟩
      · exact ⟨by rw [audioChunks_append]; exact List.append_nil _, rfl, rfl, rfl, rfl, rfl, rfl⟩
  | read =>
    rw [after]
    split_ifs
    · rcases handle.popEvent_cases with ⟨-, heq⟩ | ⟨-, -, heq⟩ | ⟨event, events, -, hevents, heq⟩
      · exact .inr (.inr (by rw [heq]; exact .refl handle))
      · exact .inr (.inr (by rw [heq]; exact .refl handle))
      · rw [heq]
        cases event with
        | audio chunk => exact .inr (.inl ⟨chunk, events, hevents, rfl⟩)
        | started event =>
          refine .inr (.inr ⟨?_, rfl, rfl, rfl, rfl, rfl, rfl⟩)
          rw [hevents]
          rfl
        | completed event =>
          refine .inr (.inr ⟨?_, rfl, rfl, rfl, rfl, rfl, rfl⟩)
          rw [hevents]
          rfl
    · exact .inr (.inr (.refl handle))

theorem Buffered.same {handle handle' : SynthesisHandle} (h : handle.Buffered) (hs : handle.SameBuffer handle') :
    handle'.Buffered where
  chunks := by rw [hs.chunks, hs.audio, h.chunks]
  bytes := by rw [hs.bytes, audioBytes, hs.audio, h.bytes, audioBytes]
  chunks_le := by rw [hs.chunks, hs.maxChunks]; exact h.chunks_le
  bytes_le := by rw [hs.bytes, hs.maxBytes]; exact h.bytes_le
  chunks_peak := by rw [hs.chunks, hs.maximumChunks]; exact h.chunks_peak
  bytes_peak := by rw [hs.bytes, hs.maximumBytes]; exact h.bytes_peak
  limit_pos := by rw [hs.maxChunks]; exact h.limit_pos

theorem Buffered.appendAudio {handle : SynthesisHandle} (h : handle.Buffered) {event : StreamAudioChunk}
    (hroom : ¬ handle.Full event.pcm.length) : (handle.appendAudio event).Buffered := by
  obtain ⟨hchunks, hbytes⟩ : handle.bufferedAudioChunks < handle.maxBufferChunks ∧
      handle.bufferedAudioBytes + event.pcm.length ≤ handle.maxBufferBytes := by
    simpa only [Full, not_or, not_le, not_lt] using hroom
  refine ⟨?_, ?_, hchunks, hbytes, le_max_right _ _, le_max_right _ _, h.limit_pos⟩
  · simp [SynthesisHandle.appendAudio, h.chunks, audioChunks, StreamEvent.audio?]
  · simp [SynthesisHandle.appendAudio, h.bytes, audioBytes, audioChunks, StreamEvent.audio?]

theorem Buffered.popped {handle : SynthesisHandle} (h : handle.Buffered) {event : StreamAudioChunk}
    {events : List StreamEvent} (hevents : handle.events = .audio event :: events) :
    (handle.popped (.audio event) events).Buffered := by
  have hchunks := h.chunks
  have hbytes := h.bytes
  simp only [hevents, audioBytes, audioChunks, List.filterMap_cons, StreamEvent.audio?, List.length_cons,
    List.map_cons, List.sum_cons] at hchunks hbytes
  have hlimits := h.chunks_le
  have hlimit := h.bytes_le
  have hpeak := h.chunks_peak
  have hpeak' := h.bytes_peak
  refine ⟨?_, ?_, ?_, ?_, ?_, ?_, h.limit_pos⟩ <;>
    simp only [SynthesisHandle.popped, audioBytes, audioChunks] <;> push_cast at * <;> omega

theorem Buffered.after {handle : SynthesisHandle} (h : handle.Buffered) {op : StreamOp} (hop : op.Ends) :
    (handle.after op).Buffered := by
  rcases handle.after_cases hop with ⟨event, hroom, heq⟩ | ⟨event, events, hevents, heq⟩ | hsame
  · exact heq ▸ h.appendAudio hroom
  · exact heq ▸ h.popped hevents
  · exact h.same hsame

/-- **The maxima are high-water marks.** -/
theorem Buffered.peaks {handle : SynthesisHandle} (h : handle.Buffered) {op : StreamOp} (hop : op.Ends) :
    (handle.after op).maximumBufferedAudioChunks =
        max handle.maximumBufferedAudioChunks (handle.after op).bufferedAudioChunks ∧
      (handle.after op).maximumBufferedAudioBytes =
        max handle.maximumBufferedAudioBytes (handle.after op).bufferedAudioBytes := by
  have hpeak := h.chunks_peak
  have hpeak' := h.bytes_peak
  rcases handle.after_cases hop with ⟨event, hroom, heq⟩ | ⟨event, events, hevents, heq⟩ | hsame
  · rw [heq]
    exact ⟨rfl, rfl⟩
  · rw [heq]
    simp only [SynthesisHandle.popped]
    omega
  · rw [hsame.maximumChunks, hsame.maximumBytes, hsame.chunks, hsame.bytes]
    exact ⟨(max_eq_left hpeak).symm, (max_eq_left hpeak').symm⟩

/-- The limits are those the handle was made with. -/
theorem after_limits (handle : SynthesisHandle) (op : StreamOp) :
    (handle.after op).maxBufferChunks = handle.maxBufferChunks ∧
      (handle.after op).maxBufferBytes = handle.maxBufferBytes := by
  by_cases hop : op.Ends
  · rcases handle.after_cases hop with ⟨event, -, heq⟩ | ⟨event, events, -, heq⟩ | hsame
    · exact heq ▸ ⟨rfl, rfl⟩
    · exact heq ▸ ⟨rfl, rfl⟩
    · exact ⟨hsame.maxChunks, hsame.maxBytes⟩
  · cases op with
    | finish event error =>
      simp only [after, finish]
      split_ifs <;> exact ⟨rfl, rfl⟩
    | _ => exact absurd trivial hop

/-- **An empty buffer takes any chunk** of the size it may have. -/
theorem Buffered.room {handle : SynthesisHandle} (h : handle.Buffered) (hcancelled : handle.cancelled = false)
    (hopen : handle.terminal = false) (hempty : audioChunks handle.events = []) {event : StreamAudioChunk}
    (hsize : event.pcm.length ≤ handle.maxBufferBytes) (remaining : ℚ) :
    handle.emitAudio event remaining = .ok (some (handle.appendAudio event)) := by
  have hroom : ¬ handle.Full event.pcm.length := by
    have hlimit := h.limit_pos
    rw [Full, h.chunks, h.bytes, audioBytes, hempty]
    simp only [List.length_nil, List.map_nil, List.sum_nil]
    omega
  rw [emitAudio, if_neg (by omega), raiseIfStopped_eq_none.mpr ⟨hcancelled, hopen⟩]
  exact if_neg hroom

/-- A new handle has nothing to account for. -/
theorem new_buffered (responseId modelName : String) (createdAt : ℚ) (maxBufferChunks maxBufferBytes : ℤ)
    (timeout : ℚ) : (new responseId modelName createdAt maxBufferChunks maxBufferBytes timeout).Buffered := by
  refine ⟨rfl, rfl, ?_, ?_, le_rfl, le_rfl, ?_⟩ <;> simp only [new] <;> omega

/-- A Completed event is appended by the section that finishes with it. -/
theorem mem_appends_completed {handle : SynthesisHandle} {op : StreamOp} {completed : StreamCompleted}
    (h : .completed completed ∈ handle.appends op) : ∃ error, op = .finish (some (.completed completed)) error := by
  cases op with
  | emitStarted sampleRateHz channelCount =>
    simp only [appends] at h
    split at h <;> simp [startedEvent] at h
  | emitAudio event remaining =>
    simp only [appends] at h
    split at h <;> simp at h
  | finish event error =>
    simp only [appends] at h
    split_ifs at h
    · simp at h
    · exact ⟨error, by rw [Option.mem_toList.mp h]⟩
  | _ => simp [appends] at h

/-- An audio event is appended by `emit_audio`. -/
theorem mem_appends_audio {handle : SynthesisHandle} {op : StreamOp} {event : StreamAudioChunk} (hop : op.Ends)
    (h : .audio event ∈ handle.appends op) : ∃ remaining, op = .emitAudio event remaining := by
  cases op with
  | emitStarted sampleRateHz channelCount =>
    simp only [appends] at h
    split at h <;> simp [startedEvent] at h
  | emitAudio event' remaining =>
    simp only [appends] at h
    split at h
    · obtain rfl := StreamEvent.audio.inj (List.mem_singleton.mp h)
      exact ⟨remaining, rfl⟩
    · cases h
  | finish event' error => rcases hop with ⟨result, rfl, rfl⟩ | ⟨e, rfl, rfl⟩ <;> simp [appends] at h
  | _ => simp [appends] at h

end SynthesisHandle

namespace StreamState

variable {s : StreamState} {task : StreamTask} {remaining : ℚ} {e : Step}
  {c₀ : Config StreamState StreamTask} {actions : List (Action StreamTask ℚ)} {completed : StreamCompleted}

/-- Accounts and tasks are in order. -/
def InOrder (c : Config StreamState StreamTask) : Prop :=
  c.state.handle.Buffered ∧ ∀ task ∈ c.bag, task.Ends

theorem InOrder.step {c : Config StreamState StreamTask} (h : InOrder c) (a : Action StreamTask ℚ) :
    InOrder (streamProgram.step c a) := by
  obtain ⟨hstep, hbag⟩ := step_delivery h.2 a
  refine ⟨?_, hbag⟩
  rcases hstep with heq | ⟨op, hop, heq⟩
  · rw [handle, heq]
    exact h.1
  · rw [handle, heq]
    exact h.1.after hop

theorem InOrder.runs {c : Config StreamState StreamTask} (h : InOrder c) (actions : List (Action StreamTask ℚ)) :
    InOrder (streamProgram.runs c actions) :=
  List.foldlRecOn actions streamProgram.step h fun _ hc a _ => hc.step a

theorem InOrder.limits {c : Config StreamState StreamTask} (h : InOrder c)
    (actions : List (Action StreamTask ℚ)) :
    (streamProgram.runs c actions).state.handle.maxBufferChunks = c.state.handle.maxBufferChunks ∧
      (streamProgram.runs c actions).state.handle.maxBufferBytes = c.state.handle.maxBufferBytes := by
  obtain ⟨ops, hops, heq⟩ := (runs_delivery h.2 actions).1
  rw [handle, heq]
  refine Delivery.run_of (I := fun d => d.handle.maxBufferChunks = c.state.handle.maxBufferChunks ∧
    d.handle.maxBufferBytes = c.state.handle.maxBufferBytes) ⟨rfl, rfl⟩ (fun d op hop hd => ?_) hops
  obtain ⟨hchunks, hbytes⟩ := d.handle.after_limits op
  exact ⟨hchunks.trans hd.1, hbytes.trans hd.2⟩

theorem InOrder.peaks {c : Config StreamState StreamTask} (h : InOrder c) (a : Action StreamTask ℚ) :
    (streamProgram.step c a).state.handle.maximumBufferedAudioChunks =
        max c.state.handle.maximumBufferedAudioChunks (streamProgram.step c a).state.handle.bufferedAudioChunks ∧
      (streamProgram.step c a).state.handle.maximumBufferedAudioBytes =
        max c.state.handle.maximumBufferedAudioBytes (streamProgram.step c a).state.handle.bufferedAudioBytes := by
  rcases (step_delivery h.2 a).1 with heq | ⟨op, hop, heq⟩
  · rw [handle, heq]
    exact ⟨(max_eq_left h.1.chunks_peak).symm, (max_eq_left h.1.bytes_peak).symm⟩
  · rw [handle, heq]
    exact h.1.peaks hop

/-- The greatest value a counter has had in a schedule. -/
abbrev IsMaximum (c₀ : Config StreamState StreamTask) (actions : List (Action StreamTask ℚ))
    (counter : SynthesisHandle → ℤ) (maximum : ℤ) : Prop :=
  IsGreatest {n | ∃ early, early <+: actions ∧ n = counter (streamProgram.runs c₀ early).state.handle} maximum

/-- **The marks hold the maxima** of the schedule so far, when they start level
with the counters. -/
theorem InOrder.chunks_maximum (h : InOrder c₀)
    (hlevel : c₀.state.handle.maximumBufferedAudioChunks = c₀.state.handle.bufferedAudioChunks)
    (actions : List (Action StreamTask ℚ)) :
    IsMaximum c₀ actions (·.bufferedAudioChunks)
      (streamProgram.runs c₀ actions).state.handle.maximumBufferedAudioChunks :=
  Run.isGreatest_mark (I := InOrder) (m := fun c : Config StreamState StreamTask =>
      c.state.handle.maximumBufferedAudioChunks) (f := fun c => c.state.handle.bufferedAudioChunks) h hlevel
    (fun _ a hc => hc.step a) (fun _ a hc => (hc.peaks a).1) actions

theorem InOrder.bytes_maximum (h : InOrder c₀)
    (hlevel : c₀.state.handle.maximumBufferedAudioBytes = c₀.state.handle.bufferedAudioBytes)
    (actions : List (Action StreamTask ℚ)) :
    IsMaximum c₀ actions (·.bufferedAudioBytes)
      (streamProgram.runs c₀ actions).state.handle.maximumBufferedAudioBytes :=
  Run.isGreatest_mark (I := InOrder) (m := fun c : Config StreamState StreamTask =>
      c.state.handle.maximumBufferedAudioBytes) (f := fun c => c.state.handle.bufferedAudioBytes) h hlevel
    (fun _ a hc => hc.step a) (fun _ a hc => (hc.peaks a).2) actions

/-- In the schedule there is a look at the maxima that a Completed event
reports. -/
def Reported (c₀ : Config StreamState StreamTask) (actions : List (Action StreamTask ℚ))
    (completed : StreamCompleted) : Prop :=
  ∃ early thread remaining later result metrics, actions = early ++ .run thread remaining :: later ∧
    (streamProgram.runs c₀ early).next? thread = some (.combineMetrics result metrics) ∧
    .completed completed = (streamProgram.runs c₀ early).state.handle.completedEvent result metrics

theorem Reported.later (h : Reported c₀ actions completed) (a : Action StreamTask ℚ) :
    Reported c₀ (actions ++ [a]) completed := by
  obtain ⟨early, thread, remaining, later, result, metrics, rfl, hnext, hevent⟩ := h
  exact ⟨early, thread, remaining, later ++ [a], result, metrics, by simp, hnext, hevent⟩

/-- A task that finishes with an event follows a look at the maxima. -/
theorem run_finish {event : StreamEvent} {error : Option EngineError} (h : s.run task remaining = some e)
    (hmem : .finish (some event) error ∈ e.next) :
    ∃ result metrics, task = .combineMetrics result metrics ∧ event = s.handle.completedEvent result metrics := by
  cases task with
  | readEvent =>
    simp only [run] at h
    split_ifs at h
    cases h
    cases hmem
  | runTerminalCallbacks callbacks => cases callbacks <;> cases h <;> simp at hmem
  | emitAudio event =>
    cases h
    simp only [emitAudio] at hmem
    split at hmem <;> simp at hmem
  | addTerminalCallback callback =>
    cases h
    simp only [addTerminalCallback] at hmem
    split_ifs at hmem <;> simp at hmem
  | complete result metrics =>
    cases h
    simp only [complete] at hmem
    split_ifs at hmem <;> simp at hmem
  | combineMetrics result metrics =>
    cases h
    have hevent : event = s.handle.completedEvent result metrics ∧ error = none := by simpa using hmem
    exact ⟨result, metrics, rfl, hevent.1⟩
  | fail error => cases h; simp at hmem
  | finish event error => cases h; simp [finish] at hmem
  | _ => cases h; cases hmem

/-- **Every Completed event reports a look at the maxima**, the one still to be
appended too. -/
theorem runs_reported (handle : SynthesisHandle) (actions : List (Action StreamTask ℚ)) :
    (∀ completed error, .finish (some (.completed completed)) error ∈
        (streamProgram.runs (start handle) actions).bag → Reported (start handle) actions completed) ∧
    ∀ completed, .completed completed ∈ (streamProgram.runs (start handle) actions).state.delivery.appended →
      Reported (start handle) actions completed := by
  induction actions using List.reverseRecOn with
  | nil => exact ⟨fun _ _ hmem => absurd hmem (Multiset.notMem_zero _), fun _ hmem => absurd hmem List.not_mem_nil⟩
  | append_singleton actions a ih =>
    obtain ⟨htasks, hevents⟩ := ih
    rw [Threads.Program.runs_snoc]
    rcases Threads.Program.step_cases (streamProgram.runs (start handle) actions) a (p := streamProgram) with
      heq | ⟨task, rfl, hentry, hstate, hbag⟩ |
      ⟨thread, remaining, task, e, others, rfl, hnext, hrun, hold, hstate, hbag⟩
    · rw [heq]
      exact ⟨fun completed error hmem => (htasks completed error hmem).later a,
        fun completed hmem => (hevents completed hmem).later a⟩
    · rw [hbag, hstate]
      refine ⟨fun completed error hmem => ?_, fun completed hmem => (hevents completed hmem).later _⟩
      rcases Multiset.mem_cons.mp hmem with rfl | hmem
      · cases hentry
      · exact (htasks completed error hmem).later _
    · rw [hbag, hstate, run_perform hrun]
      refine ⟨fun completed error hmem => ?_, fun completed hmem => ?_⟩
      · rcases Multiset.mem_add.mp hmem with hmem | hmem
        · -- the look has just been taken
          rw [Effect.left_of_next (run_spawned hrun), Multiset.mem_coe] at hmem
          obtain ⟨result, metrics, rfl, hevent⟩ := run_finish hrun hmem
          exact ⟨actions, thread, remaining, [], result, metrics, rfl, hnext, hevent⟩
        · exact (htasks completed error (hold ▸ Multiset.mem_cons_of_mem hmem)).later _
      · cases hop : task.op remaining with
        | none => exact (hevents completed (by simpa [hop] using hmem)).later _
        | some op =>
          rw [hop, Option.elim_some, Delivery.perform] at hmem
          rcases List.mem_append.mp hmem with hmem | hmem
          · exact (hevents completed hmem).later _
          · obtain ⟨error, rfl⟩ := SynthesisHandle.mem_appends_completed hmem
            obtain rfl : task = .finish (some (.completed completed)) error := by
              cases task <;> simp_all [StreamTask.op]
            exact (htasks completed error (Threads.mem_bag_of_next? hnext)).later _

/-- A look that does not append changes nothing. -/
theorem emitAudio_same {event : StreamAudioChunk}
    (h : ∀ handle', s.handle.emitAudio event remaining ≠ .ok (some handle')) :
    (s.emitAudio event remaining).state = s := by
  have hsame : s.delivery.perform (.emitAudio event remaining) = s.delivery := by
    rcases s.handle.emitAudio_cases event remaining with ⟨-, -, -, heq⟩ | ⟨-, heq⟩ | ⟨error, heq⟩
    · exact absurd heq (h _)
    · simp only [Delivery.perform, SynthesisHandle.after, SynthesisHandle.appends, SynthesisHandle.answers, heq,
        List.append_nil]
    · simp only [Delivery.perform, SynthesisHandle.after, SynthesisHandle.appends, SynthesisHandle.answers, heq,
        List.append_nil]
  rw [emitAudio, perform, hsame]

/-- **The bounded buffer.**  In every reachable state the counters are the number
and the length of the audio chunks buffered and keep to the limits; a look of
`emit_audio` that does not append changes nothing; an empty buffer of an open
handle takes any chunk of the size it may have; and a Completed event reports
the greatest values the counters have had up to the look of `complete` at them. -/
theorem buffer_bounded (responseId modelName : String) (createdAt : ℚ) (maxBufferChunks maxBufferBytes : ℤ)
    (timeout : ℚ) (actions : List (Action StreamTask ℚ)) :
    let start := start (.new responseId modelName createdAt maxBufferChunks maxBufferBytes timeout)
    let c := streamProgram.runs start actions
    let handle := c.state.handle
    (handle.bufferedAudioChunks = (audioChunks handle.events).length ∧
      handle.bufferedAudioBytes = audioBytes handle.events ∧
      handle.bufferedAudioChunks ≤ max 1 maxBufferChunks ∧ handle.bufferedAudioBytes ≤ max 1 maxBufferBytes) ∧
    (∀ thread remaining event, c.next? thread = some (.emitAudio event) →
      (∀ handle', handle.emitAudio event remaining ≠ .ok (some handle')) →
      (streamProgram.step c (.run thread remaining)).state = c.state) ∧
    (handle.cancelled = false → handle.terminal = false → audioChunks handle.events = [] →
      ∀ event remaining, (event.pcm.length : ℤ) ≤ max 1 maxBufferBytes →
        handle.emitAudio event remaining = .ok (some (handle.appendAudio event))) ∧
    ∀ completed, .completed completed ∈ c.state.delivery.appended →
      ∃ early thread remaining later result metrics, actions = early ++ .run thread remaining :: later ∧
        (streamProgram.runs start early).next? thread = some (.combineMetrics result metrics) ∧
        ∃ chunks bytes : ℤ,
          completed.metrics.get? "stream_max_buffered_chunks" = some (some (chunks : ℚ)) ∧
          completed.metrics.get? "stream_max_buffered_bytes" = some (some (bytes : ℚ)) ∧
          IsMaximum start early (·.bufferedAudioChunks) chunks ∧
          IsMaximum start early (·.bufferedAudioBytes) bytes := by
  intro start c handle
  have hstart : InOrder start := ⟨SynthesisHandle.new_buffered .., start_ends _⟩
  have hbuffered : handle.Buffered := (hstart.runs actions).1
  obtain ⟨hchunks, hbytes⟩ := hstart.limits actions
  have hmaxChunks : (handle.maxBufferChunks : ℤ) = max 1 maxBufferChunks := by
    rw [hchunks]
    exact Int.toNat_of_nonneg (by omega)
  have hmaxBytes : (handle.maxBufferBytes : ℤ) = max 1 maxBufferBytes := by
    rw [hbytes]
    exact Int.toNat_of_nonneg (by omega)
  refine ⟨⟨hbuffered.chunks, hbuffered.bytes, hmaxChunks ▸ hbuffered.chunks_le, hmaxBytes ▸ hbuffered.bytes_le⟩,
    fun thread remaining event hnext hlook => ?_, fun hcancelled hopen hempty event remaining hsize => ?_,
    fun completed hmem => ?_⟩
  · have hrun : c.state.run (.emitAudio event) remaining = some (c.state.emitAudio event remaining) := rfl
    rw [Threads.Program.step_run hnext hrun]
    exact emitAudio_same hlook
  · exact hbuffered.room hcancelled hopen hempty (by omega) remaining
  · obtain ⟨early, thread, remaining, later, result, metrics, hsplit, hnext, hevent⟩ :=
      (runs_reported _ actions).2 completed hmem
    have hmetrics : completed.metrics = _ := congrArg RuntimeStreamResult.metrics (StreamEvent.completed.inj hevent)
    refine ⟨early, thread, remaining, later, result, metrics, hsplit, hnext, _, _, ?_, ?_,
      hstart.chunks_maximum rfl early, hstart.bytes_maximum rfl early⟩
    · rw [hmetrics, Dict.get?_set_of_ne _ (by decide), Dict.get?_set_self]
    · rw [hmetrics, Dict.get?_set_self]

/-- A chunk appended between the look of `complete` at the maxima and its end is
in the stream and not in what the Completed event reports. -/
theorem maxima_outdated :
    let result : RuntimeStreamResult := { totalSampleCount := 0, durationMs := 0, chunkCount := 0 }
    let event : StreamAudioChunk := { sequenceNumber := 0, firstSample := 0, pcm := [0, 0] }
    let c := streamProgram.runs (start (.new "ttsresp_test" "test-model" 0 1 8 1))
      [.call (.complete result Dict.empty), .run 0 0, .run 0 0, .call (.emitAudio event), .run 1 0]
    let d := (streamProgram.step c (.run 0 0)).state.delivery
    c.state.handle.bufferedAudioChunks = 1 ∧ c.state.handle.terminal = false ∧
      ∃ completed, d.appended = [.audio event, .completed completed] ∧
        completed.metrics.get? "stream_max_buffered_chunks" = some (some 0) :=
  ⟨rfl, rfl, _, rfl, by decide⟩

end StreamState
end TtsPool
