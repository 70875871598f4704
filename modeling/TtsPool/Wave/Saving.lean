/-
# From the runtime's bytes to the client's file

`_GrpcSynthesisResult.wav_bytes` of `scripts/tts_pool_fairness_bench.py` makes a WAV
file of what `_GrpcClient.synthesize` has collected.  Here that file is traced back,
past the client's checker, the RPC and the handle, to what the runtime made.

An RPC that ends OK has sent the events of its stream, to the Completed event that
ends it (`Relayed`); so the client has the sound of the backend's script, the rate and
the audio, and one channel (`client_receives`).

`saved_file`: the client saves, byte for byte, the file that a runtime without a
`synthesize_stream` returned, if the runtime wrote it; and of a native stream the file
that NanoVLLM's `synthesize` would have written.  The checker takes whole frames only:
the runtimes that call a model make no others (`Backend.wholeFrames_iff`).
-/

import TtsPool.Synthesis.Protocol
import TtsPool.Wave.Streaming

namespace TtsPool

open Threads (Effect Config Action)
open SynthesisHandle (appends)

/-- `_GrpcSynthesisResult.wav_bytes`. -/
def GrpcSynthesisResult.wavBytes (result : GrpcSynthesisResult) : Except WaveError (List UInt8) :=
  withWriter do
    WaveWriter.setnchannels result.channelCount.toNat
    WaveWriter.setsampwidth 2
    WaveWriter.setframerate result.sampleRateHz.toNat
    WaveWriter.writeframes result.pcm

/-- The result as the synthesis works on it, with what a reader finds in its bytes. -/
def BytesResult.read (result : BytesResult) : EngineResult :=
  result.opened ((waveOpen result.audio).toOption.map WaveReader.read)

/-! ### What is sent is what the stream has said -/

/-- What a message tells of the sound. -/
def SynthesisEvent.sound? : SynthesisEvent → Option Sound
  | .started message => some (.started message.sampleRateHz)
  | .audioChunk message => some (.audio message.pcm)
  | .completed _ | .none => Option.none

theorem sound_eventToProto (event : StreamEvent) : (eventToProto event).sound? = event.sound? := by
  cases event <;> rfl

theorem sound_of_completed {event : StreamEvent} (h : event.isCompleted = true) : event.sound? = none := by
  cases event with
  | completed completed => rfl
  | started started => cases h
  | audio chunk => cases h

/-- The events of the stream were sent, to the Completed event. -/
structure SynthesisState.Relayed (s : SynthesisState) : Prop where
  sent : ∃ earlier last event, s.delivery.appended = earlier ++ [last] ∧ last.isCompleted = true ∧
    Stamped last event ∧ s.sent = earlier.map eventToProto ++ [eventToProto event]

/-- A Started event names one channel. -/
def OneChannel (events : List StreamEvent) : Prop :=
  ∀ started, .started started ∈ events → started.channelCount = 1

/-! ### Whole frames -/

/-- Samples are frames. -/
theorem wavOf_wholeFrames {result : EngineResult} {samples : List ℚ} {sampleRateHz : ℕ}
    (h : result.audio = some (wavOf samples sampleRateHz)) : result.WholeFrames := by
  intro source hsource
  obtain rfl := Option.some.inj (h.symm.trans hsource)
  show (pcmBytes samples).length % 2 = 0
  rw [length_pcmBytes]
  omega

theorem VoxCPM2Call.synthesize_wholeFrames {call : VoxCPM2Call} {result : EngineResult}
    (h : call.synthesize = .ok result) : result.WholeFrames := by
  unfold synthesize at h
  split at h
  · cases h
  · cases h
  · split_ifs at h
    split at h
    · cases h
    · cases h
      exact wavOf_wholeFrames rfl

theorem KokoroCall.synthesize_wholeFrames {call : KokoroCall} {result : EngineResult}
    (h : call.synthesize = .ok result) : result.WholeFrames := by
  unfold synthesize at h
  split at h
  · cases h
  · cases h
  · split at h
    · cases h
    · cases h
    · cases h
    · cases h
    all_goals
      dsimp only at h
      split_ifs at h
      cases h
      exact wavOf_wholeFrames rfl

/-- **The runtimes that call a model make whole frames**; of any other it has to be
known. -/
theorem Backend.wholeFrames_iff (backend : Backend) :
    backend.WholeFrames ↔ ∀ result, backend = .completeOnly (.ok result) → result.WholeFrames := by
  constructor
  · rintro hwhole result rfl
    exact hwhole result rfl
  · intro hresult result hcomplete
    cases backend with
    | nanovllm call => cases hcomplete
    | voxcpm2 call => exact VoxCPM2Call.synthesize_wholeFrames (Option.some.inj hcomplete)
    | kokoro call => exact KokoroCall.synthesize_wholeFrames (Option.some.inj hcomplete)
    | completeOnly result' => exact hresult result (congrArg Backend.completeOnly (Option.some.inj hcomplete))

namespace SynthesisState

open SynthesisTask

variable {backend : Backend} {s : SynthesisState} {task : SynthesisTask} {input : SynthesisInput} {e : Step}
  {bag others : Multiset SynthesisTask}

/-- Behind a Completed event that was read the stream has nothing. -/
theorem appended_of_returned (h : Protocol s bag) {earlier : List StreamEvent} {last : StreamEvent}
    (hreturned : s.delivery.returned = earlier ++ [last]) (hlast : last.isCompleted = true) :
    s.delivery.appended = earlier ++ [last] := by
  have hfifo : s.delivery.appended = s.delivery.returned ++ s.delivery.handle.events := h.concluded.fifo
  have hempty : s.delivery.handle.events = [] := by
    refine List.eq_nil_iff_forall_not_mem.mpr fun later hlater => ?_
    have hpairs := h.concluded.last
    rw [hfifo, hreturned] at hpairs
    have hopen := (List.pairwise_append.mp hpairs).2.2 last (by simp) later hlater
    simp [hlast] at hopen
  rw [hfifo, hreturned, hempty, List.append_nil]

/-- **The last message of an RPC that ends OK** is that of the last event. -/
theorem relayed_of_run (h : Protocol s (task ::ₘ others)) (hold : s.outcome = some .ok → s.Relayed)
    (hrun : SynthesisState.run backend s task input = some e) (hok : e.state.outcome = some .ok) :
    e.state.Relayed := by
  have hst := stepped_of_run hrun
  rcases accepted_of_run h hrun hst hok with ⟨hbefore, hhandles⟩ | ⟨hhandles, -, -⟩
  · obtain ⟨earlier, last, event, happended, hlast, hstamp, hsent⟩ := (hold hbefore).sent
    refine ⟨earlier, last, event, ?_, hlast, hstamp, (hst.quiet hhandles).1.trans hsent⟩
    -- a stream with a Completed event has ended
    have hend := (h.concluded.ended last (by simp [happended]) hlast).1
    exact (terminal_of_run hst hend).2.2.trans happended
  · have hnot : s.outcome ≠ some .ok := by
      intro hbefore
      have hnone := Multiset.countP_eq_zero.mp (h.accepted hbefore).1 task (Multiset.mem_cons_self _ _)
      exact hnone hhandles
    have hfollows := h.follows task (Multiset.mem_cons_self _ _)
    cases task with
    | resume event =>
      cases hrun
      obtain ⟨earlier, last, hreturned, hstamp, hsent, -⟩ := hfollows
      simp only [SynthesisState.resume] at hok ⊢
      split_ifs at hok ⊢
      · cases hok
      · cases event with
        | started event => exact absurd hok hnot
        | audio event => exact absurd hok hnot
        | completed event =>
          have hlast : last.isCompleted = true := by
            rcases hstamp with rfl | ⟨result, metrics, rfl, -⟩ <;> rfl
          exact ⟨earlier, last, _, appended_of_returned h hreturned hlast, hlast, hstamp, hsent⟩
    | readEvent =>
      simp only [run, SynthesisState.readEvent] at hrun
      split_ifs at hrun <;> cases hrun <;> exact absurd hok hnot
    | send event =>
      cases hrun
      simp only [SynthesisState.send] at hok
      split at hok <;> exact absurd hok hnot
    | returnEmpty => exact hfollows.elim
    | raiseCancelled => cases hrun; cases hok
    | abort status detail code =>
      cases hrun
      simp only at hok
      split_ifs at hok <;> cases hok
    | clientCancelled => cases hrun; exact absurd hok hnot
    | failRpc error => cases hrun; exact absurd hok hnot
    | classify error =>
      cases hrun
      obtain ⟨counters, logs, outcome, hstate, hsame⟩ := classify_state s error
      have houtcome : outcome = some .ok := (congrArg SynthesisState.outcome hstate).symm.trans hok
      rcases hsame with heq | ⟨raised, heq⟩
      · exact absurd (heq.symm.trans houtcome) hnot
      · cases heq.symm.trans houtcome
    | _ => exact Bool.noConfusion hhandles

/-- A Started event comes of `emit_started`, with one channel. -/
theorem oneChannel_of_run (hknows : task.Knows s.messages) (hst : Stepped s task input e)
    (h : OneChannel s.delivery.appended) : OneChannel e.state.delivery.appended := by
  intro started hmem
  rw [hst.delivery] at hmem
  cases hop : task.streamOp s input with
  | none =>
    rw [hop] at hmem
    exact h started hmem
  | some op =>
    rw [hop] at hmem
    rcases List.mem_append.mp hmem with hmem | hmem
    · exact h started hmem
    · have hends := ends_of_knows hknows hop
      cases op with
      | emitStarted sampleRateHz channelCount =>
        have hone : channelCount = 1 := by
          cases task with
          | startedSink rate => cases hop; rfl
          | emitResult result =>
            simp only [streamOp] at hop
            split at hop
            · next emission frames hopen =>
                cases hop
                exact_mod_cast (openResult_spec hopen).2.1
            · cases hop
          | handle task => cases task <;> first | exact hknows.elim | cases hop
          | readEvent =>
            simp only [streamOp] at hop
            split_ifs at hop
            cases hop
          | _ => cases hop
        simp only [appends] at hmem
        split at hmem
        · obtain rfl := StreamEvent.started.inj (List.mem_singleton.mp hmem)
          exact hone
        · cases hmem
      | emitAudio event remaining =>
        simp only [appends] at hmem
        split at hmem <;> simp at hmem
      | finish event error => rcases hends with ⟨result, rfl, rfl⟩ | ⟨error, rfl, rfl⟩ <;> simp [appends] at hmem
      | _ => cases hmem

/-- The RPC, what it has sent and what it has said, in every run. -/
theorem runs_relayed (hwhole : backend.WholeFrames) (spec : HandleSpec) (createdAt queueWaitMs receivedAt : ℚ)
    (actions : List (Action SynthesisTask SynthesisInput)) :
    let c := (synthesisProgram backend).runs (start (spec.handle createdAt) queueWaitMs receivedAt) actions
    Protocol c.state c.bag ∧ (c.state.outcome = some .ok → c.state.Relayed) ∧
      OneChannel c.state.delivery.appended := by
  refine Threads.Program.runs_of (p := synthesisProgram backend)
    (I := fun s bag => Protocol s bag ∧ (s.outcome = some .ok → s.Relayed) ∧ OneChannel s.delivery.appended)
    ⟨start_protocol spec createdAt queueWaitMs receivedAt, (fun hok => by cases hok),
      fun started hmem => absurd hmem List.not_mem_nil⟩ ?_ ?_ actions
  · rintro s bag task hentry ⟨hprotocol, hrelayed, hone⟩
    exact ⟨Protocol.entry hprotocol hentry, hrelayed, hone⟩
  · rintro s bag task input e hrun ⟨hprotocol, hrelayed, hone⟩
    have hknows := hprotocol.knows task (Multiset.mem_cons_self _ _)
    exact ⟨Protocol.run hwhole hprotocol hrun, relayed_of_run hprotocol hrelayed hrun,
      oneChannel_of_run hknows (stepped_of_run hrun) hone⟩

end SynthesisState

/-! ### What the client makes of it -/

/-- What the checker returns of a whole stream. -/
theorem GrpcClient.synthesize_said {begun : Started} {chunks : List AudioChunk} {ended : Completed}
    (hencoding : begun.encoding = .pcmS16le) (hpos : 0 < begun.frameBytes)
    (hnumbered : Numbered begun.frameBytes chunks) (hcount : ended.chunkCount = chunks.length)
    (htotal : ended.totalSampleCount = frameCount begun.frameBytes chunks) :
    synthesize (.started begun :: chunks.map .audioChunk ++ [.completed ended]) = .ok
      { pcm := (chunks.map AudioChunk.pcm).flatten
        sampleRateHz := begun.sampleRateHz
        channelCount := begun.channelCount
        durationMs := ended.durationMs
        metrics := ended.metrics } := by
  have hstarted : receive {} (.started begun) = .ok { started := some begun } := by
    simp [receive, hencoding]
  have hloop := receive_chunks hpos hnumbered
  rw [synthesize, List.cons_append, List.foldlM_cons, hstarted]
  change (List.foldlM receive { started := some begun } _).bind finish = _
  rw [List.foldlM_append, hloop]
  exact if_neg (by simp [hcount, htotal])

namespace SynthesisState

/-- **What the client has of an RPC that ended OK**: the script of the backend, its
rate, its audio in order, and one channel. -/
theorem client_receives {backend : Backend} (hwhole : backend.WholeFrames) (spec : HandleSpec)
    (createdAt queueWaitMs receivedAt : ℚ) (actions : List (Action SynthesisTask SynthesisInput)) :
    let s := ((synthesisProgram backend).runs (start (spec.handle createdAt) queueWaitMs receivedAt) actions).state
    s.outcome = some .ok → ∃ (saved : GrpcSynthesisResult) (chunks : List (List UInt8)) (totalSampleCount : ℤ),
      GrpcClient.synthesize s.sent = .ok saved ∧
      saved.channelCount = 1 ∧ saved.pcm = chunks.flatten ∧
      backend.script (spec.handle createdAt).maxBufferBytes =
        ⟨.started saved.sampleRateHz :: chunks.map .audio, .ok totalSampleCount⟩ := by
  intro s hok
  obtain ⟨hprotocol, hrelayed, hone⟩ := runs_relayed hwhole spec createdAt queueWaitMs receivedAt actions
  obtain ⟨earlier, last, event, happended, hlast, hstamp, hsent⟩ := (hrelayed hok).sent
  obtain ⟨frameBytes, said, ended, hpos, hmessages, begun, chunks, hsaid, hencoding, rfl, hnumbered, hcount,
    htotal⟩ := (hprotocol.accepted hok).2
  -- the messages before the last are those of the events before the last
  obtain ⟨hearlier, -⟩ := List.append_inj' (hsent.symm.trans hmessages) rfl
  have hsame : earlier.map eventToProto = .started begun :: chunks.map .audioChunk := hearlier.trans hsaid
  have hsounds : s.said = .started begun.sampleRateHz :: (chunks.map AudioChunk.pcm).map .audio := by
    have hfilter : sounds earlier = (earlier.map eventToProto).filterMap SynthesisEvent.sound? := by
      rw [List.filterMap_map]
      exact List.filterMap_congr fun event _ => (sound_eventToProto event).symm
    have hchunks : (chunks.map SynthesisEvent.audioChunk).filterMap SynthesisEvent.sound? =
        (chunks.map AudioChunk.pcm).map .audio := by
      rw [List.filterMap_map, List.map_map]
      exact congrFun (List.filterMap_eq_map (f := Sound.audio ∘ AudioChunk.pcm)) chunks
    have hnone : sounds [last] = [] := List.filterMap_cons_none (sound_of_completed hlast)
    show sounds s.delivery.appended = _
    rw [happended, sounds_append, hnone, List.append_nil, hfilter, hsame, List.filterMap_cons, hchunks]
    rfl
  have hchannel : begun.channelCount = 1 := by
    have hfirst : SynthesisEvent.started begun ∈ earlier.map eventToProto := by simp [hsame]
    obtain ⟨first, hmem, hproto⟩ := List.mem_map.mp hfirst
    cases first with
    | started started =>
      have hchannels : started.channelCount = 1 := hone started (by simp [happended, hmem])
      cases hproto
      exact hchannels
    | audio chunk => cases hproto
    | completed completed => cases hproto
  obtain ⟨completed, rfl⟩ : ∃ completed, last = .completed completed := by
    cases last with
    | completed completed => exact ⟨completed, rfl⟩
    | started started => cases hlast
    | audio chunk => cases hlast
  have hscript := runs_scripted backend (spec.handle createdAt) queueWaitMs receivedAt actions completed
    (by rw [show _ = earlier ++ _ from happended]; simp)
  have hreturns := GrpcClient.synthesize_said hencoding hpos hnumbered hcount htotal
  rw [← hsaid, ← hmessages] at hreturns
  refine ⟨_, chunks.map AudioChunk.pcm, completed.totalSampleCount, hreturns, hchannel, rfl, ?_⟩
  exact Script.ext (hscript.1.symm.trans hsounds) hscript.2

/-! ### The file it saves -/

/-- Of one channel, the client writes what the runtimes write. -/
theorem wavBytes_eq {saved : GrpcSynthesisResult} (h : saved.channelCount = 1) :
    saved.wavBytes = pcmWavBytes saved.pcm saved.sampleRateHz.toNat := by
  have hone : saved.channelCount.toNat = 1 := by omega
  rw [GrpcSynthesisResult.wavBytes, hone, pcmWavBytes, monoWav]
  congr 1
  simp [setMono, WriteCall.runAll, WriteCall.run, bind_assoc]

/-- The file depends on the bytes alone, not on the calls that write them. -/
theorem monoWav_same {sampleRateHz : ℕ} {calls calls' : List WriteCall} {bytes : List UInt8}
    (h : monoWav sampleRateHz calls = .ok bytes)
    (hsame : (calls'.map WriteCall.data).flatten = (calls.map WriteCall.data).flatten) :
    monoWav sampleRateHz calls' = .ok bytes := by
  obtain ⟨hok, herror⟩ := monoWav_eq sampleRateHz calls
  by_cases hroom : 0 < sampleRateHz ∧ sampleRateHz * 2 < 2 ^ 32 ∧
      36 + (calls.map WriteCall.data).flatten.length < 2 ^ 32
  · rw [(monoWav_eq sampleRateHz calls').1 (hsame ▸ hroom), hsame]
    exact (hok hroom).symm.trans h
  · obtain ⟨error, herror⟩ := herror hroom
    cases herror.symm.trans h

/-- The rate of a result that is emitted. -/
theorem openResult_rate {result : EngineResult} {source : WaveRead} {maxAudioChunkBytes : ℕ}
    {emission : WaveEmission} {frames : List UInt8}
    (h : openResult result maxAudioChunkBytes = .ok (emission, frames)) (haudio : result.audio = some source) :
    emission.sampleRateHz = source.sampleRateHz := by
  unfold openResult at h
  split_ifs at h
  simp only [haudio] at h
  split_ifs at h
  cases h
  rfl

/-- The script of a complete result that comes to its end. -/
theorem completeScript_ok {result : EngineResult} {maxBufferBytes : ℕ} {sampleRateHz totalSampleCount : ℤ}
    {chunks : List (List UInt8)} (h : completeScript maxBufferBytes (.ok result) =
      ⟨.started sampleRateHz :: chunks.map .audio, .ok totalSampleCount⟩) :
    ∃ source, result.audio = some source ∧ (source.sampleRateHz : ℤ) = sampleRateHz ∧
      source.frames = chunks.flatten := by
  rw [completeScript, EngineResult.script] at h
  cases hopen : openResult result maxBufferBytes with
  | error error =>
    rw [hopen] at h
    cases congrArg Script.sounds h
  | ok opened =>
    obtain ⟨emission, frames⟩ := opened
    rw [hopen] at h
    obtain ⟨⟨source, haudio, rfl⟩, -, hframe, hpos, -⟩ := openResult_spec hopen
    have hsounds : Sound.started emission.sampleRateHz :: (emission.pieces source.frames).map .audio =
        .started sampleRateHz :: chunks.map .audio := congrArg Script.sounds h
    obtain ⟨hrate, hpieces⟩ := List.cons.inj hsounds
    obtain rfl := List.map_injective_iff.mpr (fun _ _ heq => Sound.audio.inj heq) hpieces
    refine ⟨source, haudio, openResult_rate hopen haudio ▸ Sound.started.inj hrate, ?_⟩
    exact (flatten_pieces (by rw [hframe]; omega) source.frames).symm

/-- **The file that the client saves.**  Under every interleaving, the client has of an
RPC that ended OK the whole audio that the runtime made.  What it saves of a complete
result is, byte for byte, the file that the runtime wrote; and of a native stream it is
the file that NanoVLLM's `synthesize` would have written.  Of a runtime other than the
three that call a model, the frames have to be whole. -/
theorem saved_file {backend : Backend}
    (hwhole : ∀ result, backend = .completeOnly (.ok result) → result.WholeFrames) (spec : HandleSpec)
    (createdAt queueWaitMs receivedAt : ℚ) (actions : List (Action SynthesisTask SynthesisInput)) :
    let s := ((synthesisProgram backend).runs (start (spec.handle createdAt) queueWaitMs receivedAt) actions).state
    s.outcome = some .ok → ∃ saved, GrpcClient.synthesize s.sent = .ok saved ∧
      (∀ result : BytesResult, backend.completeFn = some (.ok result.read) →
        ∃ source, waveOpen result.audio = .ok source ∧ saved.sampleRateHz = source.format.framerate ∧
          saved.pcm = source.frames ∧ ∀ (sampleRateHz : ℕ) (calls : List WriteCall),
            monoWav sampleRateHz calls = .ok result.audio → saved.wavBytes = .ok result.audio) ∧
      ∀ call, backend = .nanovllm call → ∃ sampleRateHz, call.prepareSynthesis = .ok sampleRateHz ∧
        saved.wavBytes = pcmWavBytes (call.chunks.map pcmBytes).flatten sampleRateHz.toNat := by
  intro s hok
  obtain ⟨saved, chunks, totalSampleCount, hsaved, hone, hpcm, hscript⟩ :=
    client_receives (backend.wholeFrames_iff.mpr hwhole) spec createdAt queueWaitMs receivedAt actions hok
  refine ⟨saved, hsaved, fun result hcomplete => ?_, fun call hcall => ?_⟩
  · have hresult : completeScript (spec.handle createdAt).maxBufferBytes (.ok result.read) =
        backend.script (spec.handle createdAt).maxBufferBytes := by
      cases backend with
      | nanovllm call => cases hcomplete
      | voxcpm2 call => rw [Backend.script, Option.some.inj hcomplete]
      | kokoro call => rw [Backend.script, Option.some.inj hcomplete]
      | completeOnly result' => rw [Backend.script, Option.some.inj hcomplete]
    obtain ⟨found, haudio, hrate, hframes⟩ := completeScript_ok (hresult.trans hscript)
    cases hopen : waveOpen result.audio with
    | error error =>
      rw [BytesResult.read, hopen] at haudio
      cases haudio
    | ok source =>
      rw [BytesResult.read, hopen] at haudio
      obtain rfl : source.read = found := Option.some.inj haudio
      refine ⟨source, rfl, hrate.symm, hpcm.trans hframes.symm, fun sampleRateHz calls hwritten => ?_⟩
      obtain ⟨source', hopen', -, hread⟩ := read_monoWav hwritten
      obtain rfl := Except.ok.inj (hopen'.symm.trans hopen)
      have hrate' : saved.sampleRateHz.toNat = sampleRateHz := by
        rw [← hrate, hread]
        exact Int.toNat_natCast sampleRateHz
      have hpcm' : saved.pcm = (calls.map WriteCall.data).flatten := by
        rw [hpcm, ← hframes, hread]
      rw [wavBytes_eq hone, hrate', pcmWavBytes]
      exact monoWav_same hwritten (by simp [WriteCall.data, hpcm'])
  · subst hcall
    cases hprepare : call.prepareSynthesis with
    | error error =>
      rw [Backend.script, hprepare] at hscript
      cases congrArg Script.sounds hscript
    | ok sampleRateHz =>
      rw [Backend.script, hprepare] at hscript
      have hsounds := (congrArg Script.sounds (NanoVLLMCall.script_eq call sampleRateHz)).symm.trans
        (congrArg Script.sounds hscript)
      obtain ⟨hrate, hchunks⟩ := List.cons.inj hsounds
      obtain rfl := List.map_injective_iff.mpr (fun _ _ heq => Sound.audio.inj heq) hchunks
      refine ⟨sampleRateHz, rfl, ?_⟩
      rw [wavBytes_eq hone, hpcm, ← Sound.started.inj hrate]

/-- Over a buffer that holds one frame, the client gets the file of two. -/
theorem saved_file_two_frames :
    let s := ((synthesisProgram (.completeOnly (.ok twoFrameFile.read))).runs (start
      (HandleSpec.handle ⟨"ttsresp_test", "test-model", 4, 2, 1, []⟩ 0) 0 0) turnByTurn).state
    ∃ saved, GrpcClient.synthesize s.sent = .ok saved ∧ saved.wavBytes = .ok twoFrameFile.audio := by
  intro s
  obtain ⟨source, hopen, -, hread⟩ := read_monoWav twoFrameFile_written
  have hwhole : ∀ result, Backend.completeOnly (.ok twoFrameFile.read) = .completeOnly (.ok result) →
      result.WholeFrames := by
    rintro result ⟨⟩ source' hsource'
    have hsource : twoFrameFile.read.audio = some source.read := by rw [BytesResult.read, hopen]; rfl
    obtain rfl := Option.some.inj (hsource.symm.trans hsource')
    rw [hread]
    rfl
  obtain ⟨saved, hsaved, hcomplete, -⟩ :=
    saved_file hwhole ⟨"ttsresp_test", "test-model", 4, 2, 1, []⟩ 0 0 0 turnByTurn (by decide +kernel)
  obtain ⟨source', -, -, -, hbytes⟩ := hcomplete twoFrameFile rfl
  exact ⟨saved, hsaved, hbytes 16000 _ twoFrameFile_written⟩

end SynthesisState

end TtsPool
