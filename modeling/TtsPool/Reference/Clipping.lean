/-
# What a model is handed of a reference

Positions and durations are computed from the frame count that the header
declares; the frames come from the file.  So a file that is prepared is the source
without its first `nframes - f` frames, `f` being the frames the code counts on:
all that are declared, or as many as the limit allows (`Prepared`).

Of a file that holds what its header declares, at most what the limit allows is
handed over, up to one frame or one millisecond, and it is always a tail
(`reference_within_limit`).  Where frames are missing the tail is counted from an
end that is not there: it may be empty, and its reported duration counts the
missing frames in.  `reported_duration_iff` says for which files and limits the
report is right.
-/

import TtsPool.Reference.Durations

namespace TtsPool

open FiniteFloat

variable {Frame : Type} {n r : ℕ}

namespace DurationLimit

variable (limit : DurationLimit)

theorem times_lt (hr : n < 2 ^ 32) : limit.value * n ≤ (60 * 2 ^ 32 : ℕ) := by
  have hn : (n : ℚ) ≤ 2 ^ 32 := by exact_mod_cast hr.le
  have := limit.le_sixty
  have : limit.value * n ≤ 60 * 2 ^ 32 := by gcongr
  exact_mod_cast this

theorem times_nonneg : 0 ≤ limit.value * n := mul_nonneg (by linarith [limit.one_le]) n.cast_nonneg

/-- `int(max_duration_s * n)` is the exact product, up or down to an integer next
to it. -/
theorem int_times (hn : n < 2 ^ 32) :
    ⌊limit.value * n⌋₊ ≤ (limit.times n).int ∧ (limit.times n).int ≤ ⌈limit.value * n⌉₊ := by
  have hceil : ⌈limit.value * n⌉₊ ≤ 2 ^ 53 := (Nat.ceil_le.mpr (limit.times_lt hn)).trans (by norm_num)
  constructor
  · exact le_int_nearest ((Nat.floor_le_ceil _).trans hceil) (Nat.floor_le limit.times_nonneg)
  · exact int_nearest_le hceil limit.times_nonneg (Nat.le_ceil _)

/-- A source within the limit lasts no more milliseconds than the limit. -/
theorem frameDurationMs_le (hr : 0 < r) (h : n ≤ limit.value * r) : frameDurationMs n r ≤ limit.ms := by
  have hpos : (0 : ℚ) < r := by exact_mod_cast hr
  have hquotient : (quotient n r).value ≤ limit.value := by
    rw [← limit.representable]
    exact nearest_mono (by positivity) ((div_le_iff₀ hpos).mpr h)
  apply Nat.floor_le_floor
  refine nearest_mono (mul_nonneg quotient_nonneg (Nat.cast_nonneg _)) ?_
  gcongr

/-- A source that is not found too long is over the limit's milliseconds by one at
most. -/
theorem length_le_of_frameDurationMs_le (hn : n < 2 ^ 32) (hr : 0 < r) (hr32 : r < 2 ^ 32)
    (h : frameDurationMs n r ≤ limit.ms) : 1000 * n ≤ (limit.ms + 1) * r := by
  have hms := frameDurationMs_add hn hr hr32
  split_ifs at hms with hshort
  · calc 1000 * n = 1000 * n / r * r := (Nat.div_mul_cancel hshort.1).symm
      _ ≤ (limit.ms + 1) * r := Nat.mul_le_mul_right r (by omega)
  · have hlt : 1000 * n / r < limit.ms + 1 := by omega
    exact ((Nat.div_lt_iff_lt_mul hr).mp hlt).le

end DurationLimit

theorem FiniteFloat.clamped_value (x : FiniteFloat) : x.clamped.value = max 1 (min 60 x.value) := by
  have hone : (nearest 1).value = 1 := by exact_mod_cast nearest_natCast (n := 1) (by norm_num)
  have hsixty : (nearest 60).value = 60 := by exact_mod_cast nearest_natCast (n := 60) (by norm_num)
  unfold clamped
  split_ifs with hlow hhigh
  · rw [hone, max_eq_left ((min_le_right _ _).trans hlow.le)]
  · rw [hsixty, min_eq_left hhigh.le, max_eq_right (by norm_num)]
  · rw [min_eq_right (not_lt.mp hhigh), max_eq_right (not_lt.mp hlow)]

/-- The source passes whole. -/
def ReferenceAudio.PassesWhole (referenceAudio : ReferenceAudio Frame) (configured : DurationLimit) : Prop :=
  frameDurationMs referenceAudio.data.nframes referenceAudio.data.framerate ≤ (referenceAudio.limit configured).ms ∨
    (promptTextForRequest referenceAudio).isSome = true

instance (referenceAudio : ReferenceAudio Frame) (configured : DurationLimit) :
    Decidable (referenceAudio.PassesWhole configured) := inferInstanceAs (Decidable (_ ∨ _))

/-- The frames whose duration is reported. -/
def ReferenceAudio.countedFrames (referenceAudio : ReferenceAudio Frame) (configured : DurationLimit) : ℕ :=
  if referenceAudio.PassesWhole configured then referenceAudio.data.nframes
  else referenceAudio.data.keepFrames (referenceAudio.limit configured)

/-- The prepared file: the source without the frames before the counted ones, and
their duration. -/
structure Prepared (referenceAudio : ReferenceAudio Frame) (configured : DurationLimit) (wav : Wav Frame)
    (metadata : ReferenceMetadata) : Prop where
  rate_pos : 0 < referenceAudio.data.framerate
  framerate : wav.framerate = referenceAudio.data.framerate
  frames : wav.frames = referenceAudio.data.frames.drop
    (referenceAudio.data.nframes - referenceAudio.countedFrames configured)
  reported : metadata.referenceDurationMs =
    frameDurationMs (referenceAudio.countedFrames configured) referenceAudio.data.framerate
  whole : referenceAudio.PassesWhole configured → wav = referenceAudio.data

theorem Wav.readframes_tail (wav : Wav Frame) (count : ℕ) :
    wav.readframes (wav.nframes - count) count = wav.frames.drop (wav.nframes - count) := by
  have hlength := wav.length_frames
  rw [readframes, List.take_of_length_le]
  rw [List.length_drop]
  omega

theorem decodeReferenceAudio_eq {referenceAudio : ReferenceAudio Frame} {source : Wav Frame}
    (h : decodeReferenceAudio referenceAudio = .ok source) : referenceAudio.data = source := by
  unfold decodeReferenceAudio at h
  split_ifs at h
  exact Except.ok.inj h

section prepareReference

variable {referenceAudio : ReferenceAudio Frame} {configured : DurationLimit} {wav : Wav Frame}
  {metadata : ReferenceMetadata}

/-- A source that passes whole. -/
theorem prepareReference_whole (configured : DurationLimit)
    (hdecode : decodeReferenceAudio referenceAudio = .ok referenceAudio.data)
    (hpos : 0 < referenceAudio.data.framerate) (hwhole : referenceAudio.PassesWhole configured) :
    ∃ metadata, prepareReference configured (some referenceAudio) = .ok (some (referenceAudio.data, metadata)) ∧
      metadata.referenceDurationMs = frameDurationMs referenceAudio.data.nframes referenceAudio.data.framerate := by
  simp only [prepareReference, hdecode, wavDurationMs, if_neg hpos.ne', bind, Except.bind, pure, Except.pure]
  unfold ReferenceAudio.PassesWhole at hwhole
  rw [if_pos hwhole]
  exact ⟨_, rfl, rfl⟩

/-- A source that is cut. -/
theorem prepareReference_cut (configured : DurationLimit)
    (hdecode : decodeReferenceAudio referenceAudio = .ok referenceAudio.data)
    (hpos : 0 < referenceAudio.data.framerate) (hwhole : ¬ referenceAudio.PassesWhole configured) :
    let keepFrames := referenceAudio.data.keepFrames (referenceAudio.limit configured)
    ∃ metadata, prepareReference configured (some referenceAudio) =
        (if 4 < referenceAudio.data.sampwidth then .error (.other "Error" "sample width not specified")
          else .ok (some (referenceAudio.data.written (referenceAudio.data.nframes - keepFrames) keepFrames, metadata))) ∧
      metadata.referenceDurationMs = frameDurationMs keepFrames referenceAudio.data.framerate := by
  simp only [prepareReference, copyWavTail, hdecode, wavDurationMs, if_neg hpos.ne', bind, Except.bind, pure,
    Except.pure]
  unfold ReferenceAudio.PassesWhole at hwhole
  rw [if_neg hwhole]
  refine ⟨⟨referenceAudio.mimeType, referenceAudio.limit configured,
    frameDurationMs referenceAudio.data.nframes referenceAudio.data.framerate, true,
    frameDurationMs (referenceAudio.data.keepFrames (referenceAudio.limit configured)) referenceAudio.data.framerate,
    false⟩, ?_, rfl⟩
  split_ifs <;> rfl

/-- **What is prepared**, when anything is. -/
theorem prepareReference_prepared
    (h : prepareReference configured (some referenceAudio) = .ok (some (wav, metadata))) :
    Prepared referenceAudio configured wav metadata := by
  cases hdecode : decodeReferenceAudio referenceAudio with
  | error error => simp [prepareReference, hdecode, bind, Except.bind] at h
  | ok source =>
    obtain rfl := decodeReferenceAudio_eq hdecode
    rcases Nat.eq_zero_or_pos referenceAudio.data.framerate with hzero | hpos
    · simp [prepareReference, hdecode, wavDurationMs, hzero, bind, Except.bind] at h
    · by_cases hwhole : referenceAudio.PassesWhole configured
      · obtain ⟨whole, heq, hms⟩ := prepareReference_whole _ hdecode hpos hwhole
        obtain ⟨rfl, rfl⟩ : referenceAudio.data = wav ∧ whole = metadata := by simpa [heq] using h
        constructor
        · exact hpos
        · rfl
        · rw [ReferenceAudio.countedFrames, if_pos hwhole, Nat.sub_self, List.drop_zero]
        · rw [ReferenceAudio.countedFrames, if_pos hwhole, hms]
        · exact fun _ => rfl
      · obtain ⟨cut, heq, hms⟩ := prepareReference_cut _ hdecode hpos hwhole
        rw [heq] at h
        split_ifs at h
        obtain ⟨rfl, rfl⟩ : _ = wav ∧ cut = metadata := by simpa using h
        constructor
        · exact hpos
        · rfl
        · rw [ReferenceAudio.countedFrames, if_neg hwhole, ← Wav.readframes_tail]
          rfl
        · rw [ReferenceAudio.countedFrames, if_neg hwhole, hms]
        · exact fun h => absurd h hwhole

end prepareReference

/-! ### Files that hold what they declare -/

/-- A reference that both runtimes accept. -/
structure ReferenceAudio.Valid (referenceAudio : ReferenceAudio Frame) : Prop where
  decodes : decodeReferenceAudio referenceAudio = .ok referenceAudio.data
  framerate : 0 < referenceAudio.data.framerate
  sampwidth : referenceAudio.data.sampwidth ≤ 4
  nframes : referenceAudio.data.nframes = referenceAudio.data.frames.length

/-- What is handed over of a source under a limit: a tail; the whole of a source
within the limit; the source as well when its whole milliseconds are within those of
the limit, and when they are not, as many of its last frames as the limit has. -/
structure WithinLimit (source wav : Wav Frame) (limit : DurationLimit) : Prop where
  tail : wav.frames <:+ source.frames
  framerate : wav.framerate = source.framerate
  whole : source.frames.length ≤ limit.value * source.framerate → wav = source
  bounded :
    (frameDurationMs source.nframes source.framerate ≤ limit.ms ∧ wav = source ∧
      1000 * source.frames.length ≤ (limit.ms + 1) * source.framerate) ∨
    (¬ frameDurationMs source.nframes source.framerate ≤ limit.ms ∧
      wav.frames.length = min source.frames.length (max 1 (limit.frames source.framerate)) ∧
      ⌊limit.value * source.framerate⌋₊ ≤ wav.frames.length ∧
      wav.frames.length ≤ ⌈limit.value * source.framerate⌉₊)
  limit_ms : limit.ms ≤ ⌈1000 * limit.value⌉₊

section Valid

variable {referenceAudio : ReferenceAudio Frame} {configured : DurationLimit} {source : Wav Frame}
  {limit : DurationLimit}

theorem DurationLimit.ms_le (limit : DurationLimit) : limit.ms ≤ ⌈1000 * limit.value⌉₊ := by
  have h := (limit.int_times (n := 1000) (by norm_num)).2
  rwa [mul_comm, Nat.cast_ofNat] at h

/-- The tail that is kept of a source over the limit has a frame, and its length is
the limit's up to one frame. -/
theorem Wav.keepFrames_within (hpos : 0 < source.framerate)
    (hlong : limit.value * source.framerate < source.nframes) :
    ⌊limit.value * source.framerate⌋₊ ≤ source.keepFrames limit ∧
      source.keepFrames limit ≤ ⌈limit.value * source.framerate⌉₊ := by
  obtain ⟨hlow, hhigh⟩ := limit.int_times source.framerate_lt
  have hone : (1 : ℚ) ≤ limit.value * source.framerate := by
    have : (1 : ℚ) ≤ source.framerate := by exact_mod_cast hpos
    nlinarith [limit.one_le]
  have hceil : ⌈limit.value * source.framerate⌉₊ ≤ source.nframes := Nat.ceil_le.mpr hlong.le
  have hfloor : 1 ≤ ⌊limit.value * source.framerate⌋₊ := Nat.le_floor (by exact_mod_cast hone)
  unfold keepFrames DurationLimit.frames
  omega

theorem withinLimit_whole (hn : source.nframes = source.frames.length) (hpos : 0 < source.framerate)
    (hms : frameDurationMs source.nframes source.framerate ≤ limit.ms) : WithinLimit source source limit where
  tail := List.suffix_rfl
  framerate := rfl
  whole := fun _ => rfl
  bounded :=
    .inl ⟨hms, rfl, hn ▸ limit.length_le_of_frameDurationMs_le source.nframes_lt hpos source.framerate_lt hms⟩
  limit_ms := limit.ms_le

theorem withinLimit_cut (hn : source.nframes = source.frames.length) (hpos : 0 < source.framerate)
    (hms : ¬ frameDurationMs source.nframes source.framerate ≤ limit.ms) :
    WithinLimit source (source.written (source.nframes - source.keepFrames limit) (source.keepFrames limit)) limit := by
  have hlong : limit.value * source.framerate < source.nframes :=
    not_le.mp fun h => hms (limit.frameDurationMs_le hpos h)
  have hkeep : source.keepFrames limit ≤ source.nframes := min_le_left _ _
  have hlength : (source.readframes (source.nframes - source.keepFrames limit) (source.keepFrames limit)).length =
      source.keepFrames limit := by
    rw [source.length_readframes]
    omega
  constructor
  · show source.readframes _ _ <:+ source.frames
    rw [source.readframes_tail]
    exact List.drop_suffix _ _
  · rfl
  · exact fun h => absurd (hn ▸ h) hlong.not_ge
  · refine .inr ⟨hms, ?_⟩
    show (source.readframes _ _).length = _ ∧ _ ≤ (source.readframes _ _).length ∧ (source.readframes _ _).length ≤ _
    rw [hlength]
    exact ⟨by rw [Wav.keepFrames, hn], Wav.keepFrames_within hpos hlong⟩
  · exact limit.ms_le

theorem prepareReference_within (h : referenceAudio.Valid) :
    ∃ wav metadata, prepareReference configured (some referenceAudio) = .ok (some (wav, metadata)) ∧
      ((promptTextForRequest referenceAudio).isSome = true → wav = referenceAudio.data) ∧
      (promptTextForRequest referenceAudio = none →
        WithinLimit referenceAudio.data wav (referenceAudio.limit configured)) := by
  by_cases hwhole : referenceAudio.PassesWhole configured
  · obtain ⟨metadata, heq, -⟩ := prepareReference_whole _ h.decodes h.framerate hwhole
    refine ⟨_, metadata, heq, fun _ => rfl, fun hnone => withinLimit_whole h.nframes h.framerate ?_⟩
    rcases hwhole with hms | hprompt
    · exact hms
    · simp [hnone] at hprompt
  · obtain ⟨metadata, heq, -⟩ := prepareReference_cut _ h.decodes h.framerate hwhole
    rw [if_neg (by have := h.sampwidth; omega)] at heq
    refine ⟨_, metadata, heq, fun hprompt => absurd (.inr hprompt) hwhole, fun _ => ?_⟩
    exact withinLimit_cut h.nframes h.framerate fun hms => hwhole (.inl hms)

end Valid

/-- The runtimes that prepare a reference. -/
inductive ReferenceRuntime where
  | voxcpm2
  | nanovllm

/-- The limit in a runtime's settings. -/
def ReferenceRuntime.configured (settings : ReferenceSettings) : ReferenceRuntime → DurationLimit
  | .voxcpm2 => settings.voxcpm2ReferenceMaxDurationS
  | .nanovllm => settings.nanovllmReferenceMaxDurationS

/-- What a runtime prepares. -/
def ReferenceRuntime.prepare (settings : ReferenceSettings) :
    ReferenceRuntime → Option (ReferenceAudio Frame) → Except EngineError (Option (Wav Frame × ReferenceMetadata))
  | .voxcpm2 => VoxCPM2TTSRuntime.referencePath settings
  | .nanovllm => NanoVLLMVoxCPMTTSRuntime.referenceWav settings

theorem ReferenceRuntime.prepare_eq (settings : ReferenceSettings) (runtime : ReferenceRuntime) :
    (runtime.prepare settings : Option (ReferenceAudio Frame) → _) =
      prepareReference (runtime.configured settings) := by
  cases runtime <;> rfl

/-- **Clipping keeps to the limit**, up to a frame or a millisecond.  The limit is the
configured one, or the requested one brought between 1 and 60 seconds.  A valid
reference is always prepared: with a transcript it is handed over as it is, and
without one a tail of it is, whole when it lasts no longer than the limit. -/
theorem reference_within_limit (settings : ReferenceSettings) (runtime : ReferenceRuntime)
    (referenceAudio : ReferenceAudio Frame) (h : referenceAudio.Valid) :
    ∃ wav metadata, runtime.prepare settings (some referenceAudio) = .ok (some (wav, metadata)) ∧
      ((promptTextForRequest referenceAudio).isSome = true → wav = referenceAudio.data) ∧
      (promptTextForRequest referenceAudio = none →
        WithinLimit referenceAudio.data wav (referenceAudio.limit (runtime.configured settings))) := by
  rw [runtime.prepare_eq]
  exact prepareReference_within h

/-- A silent file of one channel and 16 bits. -/
def silence (framerate count : Fin (2 ^ 32)) : Wav Unit where
  nchannels := 1
  sampwidth := 2
  framerate := framerate
  nframes := count
  frames := List.replicate count ()
  length_frames := (List.length_replicate ..).le
  framerate_lt := framerate.isLt
  nframes_lt := count.isLt

/-- A request for a duration between 0 and 60 seconds, without a transcript. -/
def clippedTo (maxDurationS : FiniteFloat) (h : 0 < maxDurationS.value ∧ maxDurationS.value ≤ 60) (data : Wav Unit) :
    ReferenceAudio Unit where
  mimeType := "audio/wav"
  data := data
  maxDurationS := some maxDurationS
  promptText := none
  maxDurationS_bounds := fun m hm => by obtain rfl := Option.mem_some_iff.mp hm; exact h

/-- The defaults of `ModelSettings`. -/
def ReferenceSettings.default : ReferenceSettings where
  voxcpm2ReferenceMaxDurationS := (nearest 8).clamped
  nanovllmReferenceMaxDurationS := (nearest 8).clamped

theorem clippedTo_valid (m : FiniteFloat) (h : 0 < m.value ∧ m.value ≤ 60) (framerate count : Fin (2 ^ 32))
    (hpos : 0 < framerate.val) : (clippedTo m h (silence framerate count)).Valid where
  decodes := if_pos (show (pyStrip "audio/wav").toLower ∈ ["audio/wav", "audio/x-wav", "audio/wave"] by decide +kernel)
  framerate := hpos
  sampwidth := show 2 ≤ 4 by decide
  nframes := (List.length_replicate ..).symm

/-- Two seconds of silence at 8 kHz, of which one second is asked for. -/
theorem reference_within_limit_two_seconds :
    ∃ wav metadata, ReferenceRuntime.nanovllm.prepare .default
        (some (clippedTo (nearest 1) (by decide +kernel) (silence 8000 16000))) = .ok (some (wav, metadata)) ∧
      ((promptTextForRequest (clippedTo (nearest 1) (by decide +kernel) (silence 8000 16000))).isSome = true →
        wav = silence 8000 16000) ∧
      (promptTextForRequest (clippedTo (nearest 1) (by decide +kernel) (silence 8000 16000)) = none →
        WithinLimit (silence 8000 16000) wav (nearest 1).clamped) :=
  reference_within_limit .default .nanovllm _ (clippedTo_valid _ _ _ _ (by decide))

/-- Half a second is asked for and 800 ms are handed over, since no limit is under
one second; one second at 1500 Hz, and 1501 frames are, since they last 1000 whole
milliseconds; 1.4 seconds at 10 Hz, and 14 frames are, though the double next to 1.4
is under it. -/
theorem reference_over_limit :
    (∃ wav metadata, VoxCPM2TTSRuntime.referencePath .default
        (some (clippedTo (nearest (1 / 2)) (by decide +kernel) (silence 1000 800))) = .ok (some (wav, metadata)) ∧
      (nearest (1 / 2)).value * wav.framerate < wav.frames.length) ∧
    (∃ wav metadata, VoxCPM2TTSRuntime.referencePath .default
        (some (clippedTo (nearest 1) (by decide +kernel) (silence 1500 1501))) = .ok (some (wav, metadata)) ∧
      (nearest 1).value * wav.framerate < wav.frames.length) ∧
    (∃ wav metadata, VoxCPM2TTSRuntime.referencePath .default
        (some (clippedTo (nearest (7 / 5)) (by decide +kernel) (silence 10 20))) = .ok (some (wav, metadata)) ∧
      (nearest (7 / 5)).value * wav.framerate < wav.frames.length) := by
  refine ⟨?_, ?_, ?_⟩
  · obtain ⟨metadata, h, -⟩ := prepareReference_whole (nearest 8).clamped
      (clippedTo_valid (nearest (1 / 2)) (by decide +kernel) 1000 800 (by decide)).decodes
      (by decide) (by decide +kernel)
    exact ⟨_, metadata, h, by decide +kernel⟩
  · obtain ⟨metadata, h, -⟩ := prepareReference_whole (nearest 8).clamped
      (clippedTo_valid (nearest 1) (by decide +kernel) 1500 1501 (by decide)).decodes
      (by decide) (by decide +kernel)
    exact ⟨_, metadata, h, by decide +kernel⟩
  · obtain ⟨metadata, h, -⟩ := prepareReference_cut (nearest 8).clamped
      (clippedTo_valid (nearest (7 / 5)) (by decide +kernel) 10 20 (by decide)).decodes
      (by decide) (by decide +kernel)
    exact ⟨_, metadata, h, by decide +kernel⟩

/-! ### Files with fewer frames than they declare -/

/-- The prepared file is a tail of the frames present and not empty, and the duration
that is reported is its own. -/
structure ReportsKept (source wav : Wav Frame) (metadata : ReferenceMetadata) : Prop where
  nonempty : wav.frames ≠ []
  tail : wav.frames <:+ source.frames
  duration : metadata.referenceDurationMs = 1000 * wav.frames.length / wav.framerate

/-- The frames that the header declares and the file lacks. -/
def Wav.missing (wav : Wav Frame) : ℕ := wav.nframes - wav.frames.length

/-- Of the frames counted on one at least is there, and those that are missing last no
longer than the part of a millisecond that truncation drops of the duration of the
counted ones.  Where that duration is a whole number of milliseconds and the double
falls short of it, the missing frames have to make up for it, with a millisecond at
most. -/
def Wav.MissingUnnoticed (wav : Wav Frame) (counted : ℕ) : Prop :=
  wav.missing < counted ∧
    if FallsShort counted wav.framerate then 0 < wav.missing ∧ 1000 * wav.missing ≤ wav.framerate
    else 1000 * wav.missing ≤ 1000 * counted % wav.framerate

theorem sub_div_eq_iff {x y : ℕ} (hr : 0 < r) (hyx : y ≤ x) : (x - y) / r = x / r ↔ y ≤ x % r := by
  have hsplit := Nat.div_add_mod x r
  have hlt := Nat.mod_lt x hr
  rw [Nat.div_eq_iff hr]
  rw [Nat.mul_comm] at hsplit
  omega

theorem sub_div_add_one_eq_iff {x y : ℕ} (hr : 0 < r) (hyx : y ≤ x) (hx : 0 < x) (hdvd : r ∣ x) :
    (x - y) / r + 1 = x / r ↔ 0 < y ∧ y ≤ r := by
  obtain ⟨q, rfl⟩ := hdvd
  have hq : 1 ≤ q := Nat.pos_of_mul_pos_left hx
  have hstep : (r * q - y) / r + 1 = q ↔ (r * q - y) / r = q - 1 := by omega
  have : r ≤ r * q := Nat.le_mul_of_pos_right r hq
  rw [Nat.mul_div_cancel_left q hr, hstep, Nat.div_eq_iff hr, Nat.sub_mul, Nat.mul_comm q]
  omega

section Prepared

variable {referenceAudio : ReferenceAudio Frame} {configured : DurationLimit} {wav : Wav Frame}
  {metadata : ReferenceMetadata}

theorem ReferenceAudio.countedFrames_le : referenceAudio.countedFrames configured ≤ referenceAudio.data.nframes := by
  unfold countedFrames
  split_ifs
  · exact le_rfl
  · exact min_le_left _ _

/-- A prepared file has the counted frames that are not missing. -/
theorem Prepared.length_frames (h : Prepared referenceAudio configured wav metadata) :
    wav.frames.length = referenceAudio.countedFrames configured - referenceAudio.data.missing := by
  have hcounted : referenceAudio.countedFrames configured ≤ referenceAudio.data.nframes :=
    ReferenceAudio.countedFrames_le
  have hpresent := referenceAudio.data.length_frames
  rw [h.frames, List.length_drop]
  unfold Wav.missing
  omega

theorem Prepared.reportsKept_iff (h : Prepared referenceAudio configured wav metadata) :
    ReportsKept referenceAudio.data wav metadata ↔
      referenceAudio.data.MissingUnnoticed (referenceAudio.countedFrames configured) := by
  have hlength := h.length_frames
  have hcounted : referenceAudio.countedFrames configured ≤ referenceAudio.data.nframes :=
    ReferenceAudio.countedFrames_le
  set f := referenceAudio.countedFrames configured
  have hms := frameDurationMs_add (hcounted.trans_lt referenceAudio.data.nframes_lt) h.rate_pos
    referenceAudio.data.framerate_lt
  have htail : wav.frames <:+ referenceAudio.data.frames := h.frames ▸ List.drop_suffix _ _
  have hreports : ReportsKept referenceAudio.data wav metadata ↔
      referenceAudio.data.missing < f ∧
        frameDurationMs f referenceAudio.data.framerate =
          1000 * (f - referenceAudio.data.missing) / referenceAudio.data.framerate := by
    constructor
    · rintro ⟨hnonempty, -, hduration⟩
      have := List.length_pos_of_ne_nil hnonempty
      rw [h.reported, hlength, h.framerate] at hduration
      exact ⟨by omega, hduration⟩
    · rintro ⟨hpresent, hduration⟩
      refine ⟨List.ne_nil_of_length_pos (by omega), htail, ?_⟩
      rw [h.reported, hlength, h.framerate, hduration]
  rw [hreports, Wav.MissingUnnoticed, and_congr_right_iff]
  intro hpresent
  have hle : 1000 * referenceAudio.data.missing ≤ 1000 * f := by omega
  rw [Nat.mul_sub]
  split_ifs at hms ⊢ with hshort
  · have hiff := sub_div_add_one_eq_iff h.rate_pos hle (by omega) hshort.1
    rw [← hms] at hiff
    constructor
    · intro heq
      have := hiff.mp (by omega)
      omega
    · rintro ⟨hpos, hsmall⟩
      have := hiff.mpr (by omega)
      omega
  · rw [← sub_div_eq_iff h.rate_pos hle, ← hms]
    exact eq_comm

end Prepared

/-- **When the report is right.**  Whenever a runtime prepares a reference, the file is
a tail of the frames present, not empty and as long as the report says, if and only
if the frames its header declares too many go unnoticed. -/
theorem reported_duration_iff (settings : ReferenceSettings) (runtime : ReferenceRuntime)
    (referenceAudio : ReferenceAudio Frame) (wav : Wav Frame) (metadata : ReferenceMetadata)
    (h : runtime.prepare settings (some referenceAudio) = .ok (some (wav, metadata))) :
    ReportsKept referenceAudio.data wav metadata ↔
      referenceAudio.data.MissingUnnoticed (referenceAudio.countedFrames (runtime.configured settings)) := by
  rw [runtime.prepare_eq] at h
  exact (prepareReference_prepared h).reportsKept_iff

/-- Three seconds of silence at 10 Hz under a header that declares ten. -/
def streamedSilence : Wav Unit where
  nchannels := 1
  sampwidth := 2
  framerate := 10
  nframes := 100
  frames := List.replicate 30 ()
  length_frames := by decide
  framerate_lt := by decide
  nframes_lt := by decide

theorem streamedSilence_decodes (m : FiniteFloat) (h : 0 < m.value ∧ m.value ≤ 60) :
    decodeReferenceAudio (clippedTo m h streamedSilence) = .ok streamedSilence :=
  if_pos (show (pyStrip "audio/wav").toLower ∈ ["audio/wav", "audio/x-wav", "audio/wave"] by decide +kernel)

/-- The last two seconds that are declared: none of them is there. -/
theorem reported_duration_iff_two_seconds :
    ∃ wav metadata, ReferenceRuntime.nanovllm.prepare .default
        (some (clippedTo (nearest 2) (by decide +kernel) streamedSilence)) = .ok (some (wav, metadata)) ∧
      (ReportsKept streamedSilence wav metadata ↔ streamedSilence.MissingUnnoticed 20) := by
  obtain ⟨metadata, h, -⟩ := prepareReference_cut (nearest 8).clamped
    (streamedSilence_decodes (nearest 2) (by decide +kernel)) (by decide) (by decide +kernel)
  refine ⟨_, metadata, h, ?_⟩
  have hiff := reported_duration_iff .default .nanovllm _ _ _ h
  have hcounted :
      (clippedTo (nearest 2) (by decide +kernel) streamedSilence).countedFrames (nearest 8).clamped = 20 := by
    decide +kernel
  rw [← hcounted]
  exact hiff

/-- Of a file with three seconds of sound an empty one is prepared and reported to last
two seconds. -/
theorem reported_duration_wrong :
    streamedSilence.frames ≠ [] ∧
    ∃ wav metadata, VoxCPM2TTSRuntime.referencePath .default
        (some (clippedTo (nearest 2) (by decide +kernel) streamedSilence)) = .ok (some (wav, metadata)) ∧
      wav.frames = [] ∧ metadata.referenceDurationMs = 2000 ∧ ¬ ReportsKept streamedSilence wav metadata := by
  refine ⟨by decide, ?_⟩
  obtain ⟨metadata, h, hms⟩ := prepareReference_cut (nearest 8).clamped
    (streamedSilence_decodes (nearest 2) (by decide +kernel)) (by decide) (by decide +kernel)
  refine ⟨_, metadata, h, by decide +kernel, ?_, fun hkept => hkept.nonempty (by decide +kernel)⟩
  rw [hms]
  decide +kernel

end TtsPool
