/-
# The client's checker

`_GrpcClient.synthesize` of `scripts/tts_pool_fairness_bench.py` reads the
messages of an RPC one by one and raises on the first that is out of order.  The
order it asks for is `Said`, what a stream that has begun has said so far: one
Started, then chunks that are numbered from zero, that start at the frames sent
before them, and that are whole frames.  A stream is whole (`Whole`) when a
Completed message follows whose counts are those of what was said, and nothing
after it.  The checker accepts every whole stream (`synthesize_whole`).
-/

import TtsPool.Synthesis.Service
import Mathlib.Algebra.BigOperators.Group.List.Basic
import Mathlib.Algebra.Order.Group.Unbundled.Int

namespace TtsPool

/-- Bytes of a frame, as the client reckons. -/
def Started.frameBytes (started : Started) : ℤ := started.channelCount * 2

/-! ### The checker -/

/-- The variables of the loop. -/
structure GrpcClient where
  started : Option Started := none
  completed : Option Completed := none
  chunks : List (List UInt8) := []
  nextSequence : ℤ := 0
  nextSample : ℤ := 0

/-- `_GrpcSynthesisResult`. -/
structure GrpcSynthesisResult where
  pcm : List UInt8
  sampleRateHz : ℤ
  channelCount : ℤ
  durationMs : ℤ
  metrics : Dict String (Option ℚ)

namespace GrpcClient

/-- One pass of the loop, with the text of the `RuntimeError` it may raise. -/
def receive (client : GrpcClient) (event : SynthesisEvent) : Except String GrpcClient :=
  if client.completed.isSome then .error "gRPC event received after Completed"
  else
    match event with
    | .started started =>
      if client.started.isSome ∨ client.chunks ≠ [] then .error "gRPC Started event is out of order"
      else if started.encoding ≠ .pcmS16le then .error "gRPC stream did not return PCM S16LE"
      else .ok { client with started := some started }
    | .audioChunk chunk =>
      match client.started with
      | none => .error "gRPC audio arrived before Started"
      | some started =>
        if chunk.sequenceNumber ≠ client.nextSequence ∨ chunk.firstSample ≠ client.nextSample then
          .error "gRPC audio chunk is out of order"
        else if started.frameBytes ≤ 0 ∨ (chunk.pcm.length : ℤ) % started.frameBytes ≠ 0 then
          .error "gRPC audio chunk is not frame-aligned"
        else .ok
          { client with
            chunks := client.chunks ++ [chunk.pcm]
            nextSequence := client.nextSequence + 1
            nextSample := client.nextSample + chunk.pcm.length / started.frameBytes }
    | .completed completed => .ok { client with completed := some completed }
    | .none => .error "gRPC stream returned an empty event"

/-- What follows the loop. -/
def finish (client : GrpcClient) : Except String GrpcSynthesisResult :=
  match client.started, client.completed with
  | some started, some completed =>
    if completed.chunkCount ≠ client.nextSequence ∨ completed.totalSampleCount ≠ client.nextSample then
      .error "gRPC terminal counts do not match received audio"
    else .ok
      { pcm := client.chunks.flatten
        sampleRateHz := started.sampleRateHz
        channelCount := started.channelCount
        durationMs := completed.durationMs
        metrics := completed.metrics }
  | _, _ => .error "gRPC stream ended without terminal metadata"

/-- `synthesize`, on the messages of the RPC. -/
def synthesize (events : List SynthesisEvent) : Except String GrpcSynthesisResult :=
  (events.foldlM receive {}).bind finish

end GrpcClient

/-! ### What it asks for -/

/-- The frames of some chunks. -/
def frameCount (frameBytes : ℤ) (chunks : List AudioChunk) : ℤ :=
  (chunks.map fun chunk => (chunk.pcm.length : ℤ) / frameBytes).sum

/-- Every chunk has its number, starts at the frames before it, and is of whole
frames. -/
def Numbered (frameBytes : ℤ) (chunks : List AudioChunk) : Prop :=
  ∀ (early : List AudioChunk) (chunk : AudioChunk) (later : List AudioChunk), chunks = early ++ chunk :: later →
    chunk.sequenceNumber = early.length ∧ chunk.firstSample = frameCount frameBytes early ∧
      (chunk.pcm.length : ℤ) % frameBytes = 0

/-- The messages are one Started, and then numbered chunks, so many and of so
many frames. -/
def Said (frameBytes : ℤ) (messages : List SynthesisEvent) (chunkCount totalSampleCount : ℤ) : Prop :=
  ∃ (started : Started) (chunks : List AudioChunk),
    messages = .started started :: chunks.map .audioChunk ∧ started.encoding = .pcmS16le ∧
    started.frameBytes = frameBytes ∧ Numbered frameBytes chunks ∧ chunkCount = chunks.length ∧
    totalSampleCount = frameCount frameBytes chunks

/-- **A whole stream**: one Started first, numbered chunks, and one Completed
last, with the counts of the chunks. -/
def Whole (messages : List SynthesisEvent) : Prop :=
  ∃ frameBytes said completed, 0 < frameBytes ∧ messages = said ++ [.completed completed] ∧
    Said frameBytes said completed.chunkCount completed.totalSampleCount

variable {frameBytes chunkCount totalSampleCount : ℤ} {messages : List SynthesisEvent}

theorem numbered_nil (frameBytes : ℤ) : Numbered frameBytes [] := fun early chunk later h => by simp at h

/-- A chunk more. -/
theorem numbered_snoc {chunks : List AudioChunk} {chunk : AudioChunk} :
    Numbered frameBytes (chunks ++ [chunk]) ↔
      Numbered frameBytes chunks ∧ chunk.sequenceNumber = chunks.length ∧
        chunk.firstSample = frameCount frameBytes chunks ∧ (chunk.pcm.length : ℤ) % frameBytes = 0 := by
  constructor
  · intro h
    refine ⟨fun early chunk' later heq => h early chunk' (later ++ [chunk]) (by simp [heq]), ?_⟩
    exact h chunks chunk [] rfl
  · rintro ⟨hchunks, hlast⟩ early chunk' later heq
    -- the chunk in question is the last one, or one of those before
    rcases List.eq_nil_or_concat later with rfl | ⟨later, last, rfl⟩
    · obtain ⟨rfl, hchunk⟩ := List.append_inj' heq rfl
      cases hchunk
      exact hlast
    · rw [List.concat_eq_append, ← List.cons_append, ← List.append_assoc] at heq
      exact hchunks early chunk' later (List.append_inj' heq rfl).1

theorem frameCount_snoc (chunks : List AudioChunk) (chunk : AudioChunk) :
    frameCount frameBytes (chunks ++ [chunk]) = frameCount frameBytes chunks + chunk.pcm.length / frameBytes := by
  simp [frameCount]

theorem said_started {started : Started} (hencoding : started.encoding = .pcmS16le) :
    Said started.frameBytes [.started started] 0 0 :=
  ⟨started, [], rfl, hencoding, rfl, numbered_nil _, rfl, rfl⟩

/-- The next chunk. -/
theorem Said.chunk (h : Said frameBytes messages chunkCount totalSampleCount) {chunk : AudioChunk}
    (hsequence : chunk.sequenceNumber = chunkCount) (hfirst : chunk.firstSample = totalSampleCount)
    (hwhole : (chunk.pcm.length : ℤ) % frameBytes = 0) :
    Said frameBytes (messages ++ [.audioChunk chunk]) (chunkCount + 1)
      (totalSampleCount + chunk.pcm.length / frameBytes) := by
  obtain ⟨started, chunks, rfl, hencoding, hframe, hnumbered, rfl, rfl⟩ := h
  refine ⟨started, chunks ++ [chunk], by simp, hencoding, hframe, ?_, by simp, (frameCount_snoc _ _).symm⟩
  exact numbered_snoc.mpr ⟨hnumbered, hsequence, hfirst, hwhole⟩

namespace GrpcClient

/-- The loop over numbered chunks. -/
theorem receive_chunks {started : Started} (hpos : 0 < started.frameBytes) {chunks : List AudioChunk}
    (h : Numbered started.frameBytes chunks) :
    (chunks.map SynthesisEvent.audioChunk).foldlM receive { started := some started } =
      .ok
        { started := some started
          chunks := chunks.map AudioChunk.pcm
          nextSequence := chunks.length
          nextSample := frameCount started.frameBytes chunks } := by
  induction chunks using List.reverseRecOn with
  | nil => rfl
  | append_singleton chunks chunk ih =>
    obtain ⟨hchunks, hsequence, hfirst, hwhole⟩ := numbered_snoc.mp h
    rw [List.map_append, List.foldlM_append, ih hchunks]
    simp [receive, hsequence, hfirst, hwhole, not_le.mpr hpos, frameCount_snoc, pure, Except.pure, bind,
      Except.bind]

/-- **The checker accepts a whole stream**, and returns its audio. -/
theorem synthesize_whole (h : Whole messages) : ∃ result, synthesize messages = .ok result := by
  obtain ⟨frameBytes, said, completed, hpos, rfl, started, chunks, rfl, hencoding, rfl, hnumbered, hcount,
    htotal⟩ := h
  have hstarted : receive {} (.started started) = .ok { started := some started } := by
    simp [receive, hencoding]
  have hloop := receive_chunks hpos hnumbered
  rw [synthesize, List.cons_append, List.foldlM_cons, hstarted]
  change ∃ result, (List.foldlM receive { started := some started } _).bind finish = .ok result
  rw [List.foldlM_append, hloop]
  exact ⟨_, if_neg (by simp [hcount, htotal])⟩

end GrpcClient
end TtsPool
