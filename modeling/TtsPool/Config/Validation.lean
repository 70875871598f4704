/-
# What validation lets through

`load_settings` is meant to raise a `ValueError` or to return settings that are fit
for use.  It does neither for some documents.  `int()` and `float()` of a model's
fields raise a `TypeError` on `null`, on a list and on a dictionary; `int()` of an
infinity and `float()` of an integer past the doubles raise an `OverflowError`, which
no converter catches; and a field that is only bounded from below takes an infinity.

The fate of every value is read off the value itself (`intFate` and its siblings), in
the order in which the fields are evaluated (`loadFates`), since the first value that
stops the loading decides how it ends.
-/

import TtsPool.Support.Checks
import TtsPool.Config.Settings

namespace TtsPool
namespace PyFloat

/-- Finite and at least a minimum. -/
def AtLeast (minimum x : PyFloat) : Prop := x.isFinite = true ∧ x.lt minimum = false

/-- Finite and between two bounds. -/
def Within (minimum maximum x : PyFloat) : Prop := minimum.AtLeast x ∧ maximum.lt x = false

/-- Finite and greater than 0. -/
def Positive (x : PyFloat) : Prop := x.isFinite = true ∧ (finite 0).lt x = true

instance (x : PyFloat) : Decidable x.Positive := inferInstanceAs (Decidable (_ ∧ _))

variable {m M x : ℚ}

@[simp] theorem finite_max : (finite m).max (finite x) = finite (Max.max m x) := by
  rcases lt_or_ge m x with h | h
  · simp [PyFloat.max, lt, h, max_eq_right h.le]
  · simp [PyFloat.max, lt, h.not_gt, max_eq_left h]

@[simp] theorem finite_min : (finite M).min (finite x) = finite (Min.min M x) := by
  rcases lt_or_ge x M with h | h
  · simp [PyFloat.min, lt, h, min_eq_right h.le]
  · simp [PyFloat.min, lt, h.not_gt, min_eq_left h]

@[simp] theorem atLeast_finite : (finite m).AtLeast (finite x) ↔ m ≤ x := by
  simp [AtLeast, lt, isFinite]

@[simp] theorem within_finite : (finite m).Within (finite M) (finite x) ↔ m ≤ x ∧ x ≤ M := by
  simp [Within, lt]

theorem exists_finite {x : PyFloat} (h : x.isFinite = true) : ∃ value, x = finite value := by
  cases x with
  | finite value => exact ⟨value, rfl⟩
  | _ => cases h

end PyFloat

namespace SettingsError

@[simp] theorem isValueError_valueError (message : String) : (valueError message).IsValueError := ⟨message, rfl⟩

@[simp] theorem not_isValueError_typeError (message : String) : ¬ (typeError message).IsValueError := by
  rintro ⟨_, h⟩
  cases h

@[simp] theorem not_isValueError_overflowError (message : String) : ¬ (overflowError message).IsValueError := by
  rintro ⟨_, h⟩
  cases h

end SettingsError

namespace Settings

/-! ### The fates of values -/

/-- Under `int(value)`. -/
def intFate : Json → Fate
  | .null | .list _ | .object _ | .float (.infinity _) => .escapes
  | .float .nan => .refused
  | .str s => if (parseInt s).isSome then .taken else .refused
  | .bool _ | .int _ | .float (.finite _) => .taken

/-- Of a float from which the result is taken, with an upper bound or without one. -/
def passed (capped : Bool) (x : PyFloat) : Fate :=
  if capped = false ∧ x = .infinity false then .leaks else .taken

/-- Under `float(value)`. -/
def floatFate (capped : Bool) : Json → Fate
  | .null | .list _ | .object _ => .escapes
  | .int n => if (PyFloat.nearest n).isFinite then .taken else .escapes
  | .str s =>
    match parseFloat s with
    | some x => passed capped x
    | none => .refused
  | .float x => passed capped x
  | .bool _ => .taken

/-- Under `None if value is None else …`. -/
def optionalFates (fate : Json → Fate) : Json → List Fate
  | .null => []
  | value => [fate value]

/-- Under `_positive_int`. -/
def positiveIntFate : Json → Fate
  | .float (.infinity _) => .escapes
  | .float (.finite x) => if x.den = 1 ∧ 0 < x then .taken else .refused
  | .int n => if 0 < n then .taken else .refused
  | .str s => if (parseInt s).any (0 < ·) then .taken else .refused
  | _ => .refused

/-- Under `_positive_float`. -/
def positiveFloatFate : Json → Fate
  | .int n =>
    if (PyFloat.nearest n).isFinite then
      if (PyFloat.finite 0).lt (.nearest n) then .taken else .refused
    else .escapes
  | .float x => if x.Positive then .taken else .refused
  | .str s => if (parseFloat s).any (decide <| PyFloat.Positive ·) then .taken else .refused
  | .bool value => if value then .taken else .refused
  | _ => .refused

/-- The integer that a value stands for. -/
def intValue : Json → ℤ
  | .float (.finite x) => x.num
  | .int n => n
  | .str s => (parseInt s).getD 0
  | _ => 0

/-- Under `_port`. -/
def portFates (value : Json) : List Fate :=
  [positiveIntFate value, if 65535 < intValue value then .refused else .taken]

/-- Under `_nonempty_str`. -/
def textFate (value : Json) : Fate := if isBlank value then .refused else .taken

/-- In the loop of `_fairness_weights`, a key and its weight after another. -/
def weightsFates (seen : List String) : List (String × Json) → List Fate
  | [] => []
  | (rawKey, rawWeight) :: rest =>
    (if pyStrip rawKey = "" ∨ 128 < (pyStrip rawKey).length ∨ pyStrip rawKey ∈ seen then .refused else .taken) ::
      positiveFloatFate rawWeight :: weightsFates (seen ++ [pyStrip rawKey]) rest

/-- Under `_fairness_weights`. -/
def fairnessWeightsFates : Json → List Fate
  | .object entries => weightsFates [] entries
  | _ => [.refused]

/-- Of an item in the loop of `_int_tuple`. -/
def itemFate : Json → Fate
  | .float (.infinity _) => .escapes
  | .int _ | .bool _ | .str _ | .null | .float _ | .list _ | .object _ => .taken

/-- Under `_int_tuple`. -/
def intTupleFates : Json → List Fate
  | .list items => items.map itemFate
  | _ => []

/-- In a case of `_voxcpm2_warmup_cases`. -/
def voxcpm2WarmupFates (payload : List (String × Json)) : List Fate :=
  floatFate true (get payload "reference_duration_s" (.float (literal 4))) ::
    optionalFates (floatFate false) (get payload "cfg_value") ++
    optionalFates intFate (get payload "inference_timesteps")

/-- In a case of `_nanovllm_warmup_cases`. -/
def nanovllmWarmupFates (payload : List (String × Json)) : List Fate :=
  floatFate true (get payload "reference_duration_s" (.float (literal 2))) ::
    optionalFates (floatFate false) (get payload "cfg_value") ++
    optionalFates (floatFate true) (get payload "temperature") ++
    optionalFates intFate (get payload "max_generate_length")

/-- In an entry of `engine.models`. -/
def modelFates (payload : List (String × Json)) : List Fate :=
  [ intFate (get payload "target_inflight" (.int 1)),
    floatFate false (get payload "kokoro_speed" (.float (literal 1))),
    floatFate false (get payload "voxcpm2_cfg_value" (.float (literal 2))),
    intFate (get payload "voxcpm2_inference_timesteps" (.int 10)),
    floatFate true (get payload "voxcpm2_reference_max_duration_s" (.float (literal 8))) ] ++
  (warmupPayloads (get payload "voxcpm2_warmup_cases")).flatMap voxcpm2WarmupFates ++
  intTupleFates (get payload "nanovllm_devices") ++
  [ intFate (get payload "nanovllm_max_num_seqs" (.int 4)),
    intFate (get payload "nanovllm_max_num_batched_tokens" (.int 4096)),
    intFate (get payload "nanovllm_max_model_len" (.int 2048)),
    floatFate true (get payload "nanovllm_gpu_memory_utilization" (.float (literal (17 / 20)))),
    intFate (get payload "nanovllm_inference_timesteps" (.int 10)),
    intFate (get payload "nanovllm_max_generate_length" (.int 256)),
    floatFate true (get payload "nanovllm_temperature" (.float (literal 1))),
    floatFate false (get payload "nanovllm_cfg_value" (.float (literal 2))),
    floatFate true (get payload "nanovllm_reference_max_duration_s" (.float (literal 8))) ] ++
  (warmupPayloads (get payload "nanovllm_warmup_cases")).flatMap nanovllmWarmupFates

/-- Of the two ports. -/
def portsFates (servicePayload grpcPayload : List (String × Json)) : List Fate :=
  portFates (get servicePayload "port" (.int 8020)) ++ portFates (get grpcPayload "port" (.int 8021)) ++
  [ if (get grpcPayload "enabled" (.bool false)).truthy = true ∧
        intValue (get grpcPayload "port" (.int 8021)) = intValue (get servicePayload "port" (.int 8020)) then .refused
      else .taken ]

/-- In `service.grpc`. -/
def grpcFates (payload : List (String × Json)) : List Fate :=
  [ textFate (get payload "host" (.str "127.0.0.1")),
    positiveIntFate (get payload "max_receive_message_bytes" (.int 16777216)),
    positiveIntFate (get payload "max_send_message_bytes" (.int 16777216)),
    positiveIntFate (get payload "stream_buffer_chunks" (.int 4)),
    positiveIntFate (get payload "stream_buffer_bytes" (.int 1048576)),
    positiveFloatFate (get payload "stalled_consumer_timeout_s" (.float (literal 2))),
    positiveFloatFate (get payload "shutdown_grace_s" (.float (literal 5))) ]

/-- In `engine.fairness`. -/
def fairnessFates (payload : List (String × Json)) : List Fate :=
  positiveFloatFate (get payload "default_weight" (.float (literal 1))) ::
    fairnessWeightsFates (get payload "weights" (.object [])) ++
    [ positiveIntFate (get payload "soft_max_inflight_per_key" (.int 1)),
      positiveIntFate (get payload "max_pending_per_key" (.int 4)),
      positiveIntFate (get payload "max_pending_per_executor" (.int 8)),
      positiveFloatFate (get payload "idle_state_ttl_s" (.float (literal 300))) ]

/-- In a merged document, in the order of evaluation. -/
def loadFates (payload : List (String × Json)) : List Fate :=
  match get (dict (get payload "engine")) "fairness" (.object []) with
  | .object fairnessPayload =>
    (dict (get (dict (get payload "engine")) "models")).flatMap (fun entry => modelFates (dict entry.2)) ++
    portsFates (dict (get payload "service")) (dict (get (dict (get payload "service")) "grpc")) ++
    [ textFate (get (dict (get payload "service")) "host" (.str "127.0.0.1")),
      textFate (get (dict (get payload "service")) "log_level" (.str "info")) ] ++
    grpcFates (dict (get (dict (get payload "service")) "grpc")) ++
    fairnessFates fairnessPayload
  | _ => [.refused]

/-! ### The converters -/

section Converters

variable {clean : Prop} {value : Json} {name : String} {minimum maximum : PyFloat}

/-- A computation that goes on from `float(value)` without a check of its own. -/
theorem toFloat_follows {α : Type} {capped : Bool} {g : PyFloat → α} {Fits : α → Prop} (value : Json)
    (hg : ∀ x, Fits (g x) ↔ ¬ (capped = false ∧ x = .infinity false)) :
    Follows SettingsError.IsValueError True (do let parsed ← value.toFloat; return g parsed) Fits
      [floatFate capped value] := by
  have hpassed : ∀ x, Follows SettingsError.IsValueError True (.ok (g x)) Fits [passed capped x] := by
    intro x
    unfold passed
    split_ifs with h
    · exact .leaks fun hfits => (hg x).mp hfits h
    · exact .taken (iff_of_true ((hg x).mpr h) trivial)
  have htaken : ∀ x, Follows SettingsError.IsValueError True (.ok (g (.finite x))) Fits [.taken] := fun x =>
    .taken (iff_of_true ((hg _).mpr (by simp)) trivial)
  cases value with
  | bool b => exact htaken _
  | int n =>
    simp only [Json.toFloat, floatFate]
    cases PyFloat.nearest n with
    | finite x => exact htaken x
    | _ => exact .escapes (SettingsError.not_isValueError_overflowError _)
  | float x => exact hpassed x
  | str s =>
    simp only [Json.toFloat, floatFate]
    cases parseFloat s with
    | some x => exact hpassed x
    | none => exact .refused ⟨_, rfl⟩
  | _ => exact .escapes (SettingsError.not_isValueError_typeError _)

theorem floatFrom_follows (hmin : minimum.isFinite = true) :
    Follows SettingsError.IsValueError True (floatFrom minimum value) minimum.AtLeast [floatFate false value] := by
  refine toFloat_follows value fun x => ?_
  cases minimum with
  | finite m =>
    -- a `NaN` and what is too small give the minimum
    have hsmall : (PyFloat.finite m).AtLeast (.finite m) := PyFloat.atLeast_finite.mpr le_rfl
    cases x with
    | finite x => exact iff_of_true (by simp) (by simp)
    | infinity negative =>
      cases negative with
      | true => exact iff_of_true hsmall (by simp)
      | false => exact iff_of_false (fun h => by cases h.1) (by simp)
    | nan => exact iff_of_true hsmall (by simp)
  | _ => cases hmin

theorem boundedFloat_follows (hmin : minimum.isFinite = true) (hmax : maximum.isFinite = true)
    (hle : maximum.lt minimum = false) :
    Follows SettingsError.IsValueError True (boundedFloat value minimum maximum) (minimum.Within maximum)
      [floatFate true value] := by
  refine toFloat_follows value fun x => iff_of_true ?_ (by simp)
  cases minimum with
  | finite m =>
    cases maximum with
    | finite M =>
      have hle : m ≤ M := by simpa [PyFloat.lt] using hle
      have hbound {x : ℚ} (hx : x ≤ M) :
          (PyFloat.finite m).Within (.finite M) ((PyFloat.finite m).max (.finite x)) := by
        rw [PyFloat.finite_max, PyFloat.within_finite]
        exact ⟨le_max_left _ _, max_le hle hx⟩
      cases x with
      | finite x => exact PyFloat.finite_min ▸ hbound (min_le_left _ _)
      | infinity negative =>
        cases negative with
        | true => exact PyFloat.within_finite.mpr ⟨le_rfl, hle⟩
        | false => exact hbound le_rfl
      | nan => exact hbound le_rfl
    | _ => cases hmax
  | _ => cases hmin

/-- A computation that goes on from `int(value)` without a check of its own. -/
theorem intFromOne_follows :
    Follows SettingsError.IsValueError True (intFromOne value) (1 ≤ ·) [intFate value] := by
  have htaken (n : ℤ) : Follows SettingsError.IsValueError True (.ok (max 1 n)) (1 ≤ ·) [.taken] :=
    .taken (iff_of_true (le_max_left 1 n) trivial)
  cases value with
  | bool b => exact htaken _
  | int n => exact htaken n
  | float x =>
    cases x with
    | finite x => exact htaken _
    | infinity negative => exact .escapes (SettingsError.not_isValueError_overflowError _)
    | nan => exact .refused ⟨_, rfl⟩
  | str s =>
    simp only [intFromOne, Json.toInt, intFate]
    cases parseInt s with
    | some n => exact htaken n
    | none => exact .refused ⟨_, rfl⟩
  | _ => exact .escapes (SettingsError.not_isValueError_typeError _)

theorem optional_follows {α : Type} {convert : Json → Except SettingsError α} {Fits : α → Prop} {fate : Json → Fate}
    (h : ∀ value, Follows SettingsError.IsValueError True (convert value) Fits [fate value]) :
    Follows SettingsError.IsValueError True (optional convert value) (fun a? => ∀ a ∈ a?, Fits a)
      (optionalFates fate value) := by
  cases value with
  | null => exact .done (by simp)
  | _ => exact (h _).first fun a _ => .done (by simp)

theorem toInt_of_den {x : ℚ} (h : x.den = 1) : (if 0 ≤ x then ⌊x⌋ else ⌈x⌉) = x.num := by
  have hx : x = x.num := (Rat.coe_int_num_of_den_eq_one h).symm
  split_ifs
  · rw [hx, Int.floor_intCast, Rat.num_intCast]
  · rw [hx, Int.ceil_intCast, Rat.num_intCast]

/-- A positive integer is the one that the value stands for. -/
theorem positiveInt_reads :
    Follows SettingsError.IsValueError True (positiveInt value name) (fun n => n = intValue value ∧ 1 ≤ n)
      [positiveIntFate value] := by
  have hrefused {e : SettingsError} (he : e.IsValueError) :
      Follows SettingsError.IsValueError True (.error e : Except SettingsError ℤ)
        (fun n => n = intValue value ∧ 1 ≤ n) [.refused] := .refused he
  -- where the integer is checked for being positive
  have hchecked (n : ℤ) (hn : n = intValue value) :
      Follows SettingsError.IsValueError True
        (if n ≤ 0 then .error (.valueError (name ++ " must be an integer greater than 0")) else .ok n)
        (fun n => n = intValue value ∧ 1 ≤ n) [if 0 < n then .taken else .refused] := by
    by_cases h : n ≤ 0
    · rw [if_pos h, if_neg h.not_gt]
      exact .refused ⟨_, rfl⟩
    · rw [if_neg h, if_pos (not_le.mp h)]
      exact .taken (iff_of_true ⟨hn, not_le.mp h⟩ trivial)
  cases value with
  | int n => exact hchecked n rfl
  | float x =>
    cases x with
    | finite x =>
      by_cases hden : x.den = 1
      · have hpos : 0 < x ↔ 0 < x.num := Rat.num_pos.symm
        simp only [positiveInt, Json.toInt, isIntegral, positiveIntFate, toInt_of_den hden, hden, hpos, true_and,
          decide_true, Bool.not_true, Bool.false_eq_true, if_false]
        exact hchecked x.num rfl
      · simp only [positiveInt, Json.toInt, isIntegral, positiveIntFate, hden, false_and, decide_false, Bool.not_false,
          if_true, if_false]
        exact hrefused ⟨_, rfl⟩
    | infinity negative => exact .escapes (SettingsError.not_isValueError_overflowError _)
    | nan => exact hrefused ⟨_, rfl⟩
  | str s =>
    simp only [positiveInt, Json.toInt, positiveIntFate, intValue] at hchecked hrefused ⊢
    cases hs : parseInt s with
    | some n => simpa [isIntegral, hs] using hchecked n (by rw [hs]; rfl)
    | none => simpa [hs] using hrefused ⟨_, rfl⟩
  | _ => exact hrefused ⟨_, rfl⟩

theorem positiveIntFate_ne_leaks : positiveIntFate value ≠ .leaks := by
  unfold positiveIntFate
  split <;> (try split_ifs) <;> simp

theorem positiveInt_follows :
    Follows SettingsError.IsValueError True (positiveInt value name) (1 ≤ ·) [positiveIntFate value] :=
  positiveInt_reads.congr fun n hn => by
    have hfits := positiveInt_reads.fits (by simpa using positiveIntFate_ne_leaks.symm) hn
    exact iff_of_true hfits.2 hfits

theorem positiveFloat_follows :
    Follows SettingsError.IsValueError True (positiveFloat value name) PyFloat.Positive
      [positiveFloatFate value] := by
  have hrefused {e : SettingsError} (he : e.IsValueError) :
      Follows SettingsError.IsValueError True (.error e : Except SettingsError PyFloat) PyFloat.Positive [.refused] :=
    .refused he
  -- where the float is checked for being finite and positive
  have hchecked (x : PyFloat) :
      Follows SettingsError.IsValueError True
        (if !x.isFinite || !(PyFloat.finite 0).lt x then
          .error (.valueError (name ++ " must be a finite number greater than 0")) else .ok x) PyFloat.Positive
        [if x.Positive then .taken else .refused] := by
    by_cases h : x.Positive
    · rw [if_pos h, if_neg (by simp [h.1, h.2])]
      exact .taken (iff_of_true h trivial)
    · rw [if_neg h, if_pos (by simpa [PyFloat.Positive, or_iff_not_imp_left] using h)]
      exact .refused ⟨_, rfl⟩
  cases value with
  | bool b =>
    have := hchecked (.finite (if b then 1 else 0))
    cases b with
    | true => exact this
    | false => exact this
  | int n =>
    simp only [positiveFloat, Json.toFloat, positiveFloatFate]
    cases hx : PyFloat.nearest n with
    | finite x => simpa [PyFloat.Positive, PyFloat.isFinite] using hchecked (.finite x)
    | _ => exact .escapes (SettingsError.not_isValueError_overflowError _)
  | float x => exact hchecked x
  | str s =>
    simp only [positiveFloat, Json.toFloat, positiveFloatFate]
    cases parseFloat s with
    | some x => simpa using hchecked x
    | none => exact hrefused ⟨_, rfl⟩
  | _ => exact hrefused ⟨_, rfl⟩

/-- A port: between 1 and 65535. -/
def IsPort (n : ℤ) : Prop := 1 ≤ n ∧ n ≤ 65535

theorem port_follows :
    Follows SettingsError.IsValueError True (port value name) (fun n => n = intValue value ∧ IsPort n)
      (portFates value) := by
  refine .first positiveInt_reads fun n hn => ?_
  obtain ⟨hvalue, hpos⟩ := positiveInt_reads.fits (by simpa using positiveIntFate_ne_leaks.symm) hn
  by_cases h : 65535 < n
  · rw [if_pos h, if_pos (hvalue ▸ h)]
    exact .refused ⟨_, rfl⟩
  · rw [if_neg h, if_neg (hvalue ▸ h)]
    exact .taken (iff_of_true ⟨hvalue, hpos, not_lt.mp h⟩ ⟨trivial, hvalue, hpos⟩)

theorem eq_of_port {n : ℤ} (h : port value name = .ok n) : n = intValue value ∧ IsPort n := by
  refine port_follows.fits ?_ h
  simp only [portFates, List.mem_cons, List.not_mem_nil, or_false, not_or]
  refine ⟨positiveIntFate_ne_leaks.symm, ?_⟩
  split_ifs <;> simp

theorem nonemptyStr_follows :
    Follows SettingsError.IsValueError True (nonemptyStr value name) (fun _ => True) [textFate value] := by
  unfold nonemptyStr textFate
  split_ifs
  · exact .refused ⟨_, rfl⟩
  · exact .taken (iff_of_true trivial trivial)

theorem intTupleLoop_follows (parsed : List ℤ) (items : List Json) :
    Follows SettingsError.IsValueError True (intTupleLoop parsed items) (fun _ => True) (items.map itemFate) := by
  induction items generalizing parsed with
  | nil => exact .done (iff_of_true trivial trivial)
  | cons item items ih =>
    cases item with
    | float x =>
      cases x with
      | finite x => exact (ih _).skip
      | infinity negative => exact .escapes (SettingsError.not_isValueError_overflowError _)
      | nan => exact (ih _).skip
    | str s =>
      simp only [intTupleLoop, Json.toInt, List.map_cons, itemFate]
      cases parseInt s with
      | some n => exact (ih _).skip
      | none => exact (ih _).skip
    | _ => exact (ih _).skip

theorem intTuple_follows {default : List ℤ} :
    Follows SettingsError.IsValueError True (intTuple value default) (fun _ => True) (intTupleFates value) := by
  cases value with
  | list items => exact .last (intTupleLoop_follows [] items) fun parsed _ => ⟨_, rfl, by simp⟩
  | _ => exact .done (iff_of_true trivial trivial)

/-- A positive weight for every configured key, under the key trimmed, and no two keys
that are the same trimmed. -/
structure GoodWeights (entries : List (String × Json)) (weights : List (String × PyFloat)) : Prop where
  keys : weights.map Prod.fst = entries.map fun entry => pyStrip entry.1
  nodup : (weights.map Prod.fst).Nodup
  positive : ∀ weight ∈ weights, weight.2.Positive

theorem textFate_ne_leaks : textFate value ≠ .leaks := by
  unfold textFate
  split <;> simp

theorem positiveFloatFate_ne_leaks : positiveFloatFate value ≠ .leaks := by
  unfold positiveFloatFate
  split <;> (try split_ifs) <;> simp

theorem weightsLoop_follows (entries : List (String × Json)) {done : List (String × Json)}
    {parsed : List (String × PyFloat)} (h : GoodWeights done parsed) :
    Follows SettingsError.IsValueError True (weightsLoop parsed entries) (GoodWeights (done ++ entries))
      (weightsFates (parsed.map Prod.fst) entries) := by
  induction entries generalizing done parsed with
  | nil => exact .done (iff_of_true (by rwa [List.append_nil]) trivial)
  | cons entry entries ih =>
    obtain ⟨rawKey, rawWeight⟩ := entry
    simp only [weightsLoop, weightsFates]
    by_cases hkey : pyStrip rawKey = "" ∨ 128 < (pyStrip rawKey).length ∨ pyStrip rawKey ∈ parsed.map Prod.fst
    · rw [if_pos hkey]
      split_ifs with hblank hlong hknown
      · exact .refused ⟨_, rfl⟩
      · exact .refused ⟨_, rfl⟩
      · exact .refused ⟨_, rfl⟩
      · exact absurd hkey (by simp [hblank, hlong, hknown])
    · obtain ⟨hblank, hlong, hnew⟩ : pyStrip rawKey ≠ "" ∧ ¬ 128 < (pyStrip rawKey).length ∧
          pyStrip rawKey ∉ parsed.map Prod.fst := by
        simpa only [not_or] using hkey
      rw [if_neg hkey, if_neg hblank, if_neg hlong, if_neg hnew]
      apply Follows.skip
      refine .first positiveFloat_follows fun weight hweight => ?_
      have hpositive := positiveFloat_follows.fits (by simpa using positiveFloatFate_ne_leaks.symm) hweight
      have hnext : GoodWeights (done ++ [(rawKey, rawWeight)]) (parsed ++ [(pyStrip rawKey, weight)]) := by
        constructor
        · simp [h.keys]
        · rw [List.map_append, List.nodup_append']
          exact ⟨h.nodup, by simp, by simpa using hnew⟩
        · intro w hw
          rcases List.mem_append.mp hw with hold | hnew
          · exact h.positive w hold
          · rw [List.mem_singleton.mp hnew]
            exact hpositive
      have hrest := ih hnext
      rw [List.append_assoc, List.map_append] at hrest
      exact hrest.after ⟨trivial, hpositive⟩

theorem fairnessWeights_follows :
    Follows SettingsError.IsValueError True (fairnessWeights value) (GoodWeights (dict value))
      (fairnessWeightsFates value) := by
  cases value with
  | object entries =>
    have hempty : GoodWeights [] [] := ⟨rfl, List.nodup_nil, by simp⟩
    exact weightsLoop_follows entries hempty
  | _ => exact .refused ⟨_, rfl⟩

end Converters

/-! ### The settings that are fit for use -/

/-- The numbers of a warm-up case are fit for use. -/
@[mk_iff]
structure VoxCPM2WarmupCase.Good (s : VoxCPM2WarmupCase) : Prop where
  referenceDurationS : (literal (1 / 5)).Within (literal 60) s.referenceDurationS
  cfgValue : ∀ x ∈ s.cfgValue, (literal (1 / 10)).AtLeast x
  inferenceTimesteps : ∀ n ∈ s.inferenceTimesteps, 1 ≤ n

@[mk_iff, inherit_doc VoxCPM2WarmupCase.Good]
structure NanoVLLMWarmupCase.Good (s : NanoVLLMWarmupCase) : Prop where
  referenceDurationS : (literal (1 / 5)).Within (literal 60) s.referenceDurationS
  cfgValue : ∀ x ∈ s.cfgValue, (literal (1 / 10)).AtLeast x
  temperature : ∀ x ∈ s.temperature, (literal (1 / 100)).Within (literal 5) x
  maxGenerateLength : ∀ n ∈ s.maxGenerateLength, 1 ≤ n

/-- The numbers of a model are fit for use. -/
@[mk_iff]
structure ModelSettings.Good (s : ModelSettings) : Prop where
  targetInflight : 1 ≤ s.targetInflight
  kokoroSpeed : (literal (1 / 4)).AtLeast s.kokoroSpeed
  voxcpm2CfgValue : (literal (1 / 10)).AtLeast s.voxcpm2CfgValue
  voxcpm2InferenceTimesteps : 1 ≤ s.voxcpm2InferenceTimesteps
  voxcpm2ReferenceMaxDurationS : (literal 1).Within (literal 60) s.voxcpm2ReferenceMaxDurationS
  voxcpm2WarmupCases : ∀ c ∈ s.voxcpm2WarmupCases, c.Good
  nanovllmMaxNumSeqs : 1 ≤ s.nanovllmMaxNumSeqs
  nanovllmMaxNumBatchedTokens : 1 ≤ s.nanovllmMaxNumBatchedTokens
  nanovllmMaxModelLen : 1 ≤ s.nanovllmMaxModelLen
  nanovllmGpuMemoryUtilization : (literal (1 / 10)).Within (literal 1) s.nanovllmGpuMemoryUtilization
  nanovllmInferenceTimesteps : 1 ≤ s.nanovllmInferenceTimesteps
  nanovllmMaxGenerateLength : 1 ≤ s.nanovllmMaxGenerateLength
  nanovllmTemperature : (literal (1 / 100)).Within (literal 5) s.nanovllmTemperature
  nanovllmCfgValue : (literal (1 / 10)).AtLeast s.nanovllmCfgValue
  nanovllmReferenceMaxDurationS : (literal 1).Within (literal 60) s.nanovllmReferenceMaxDurationS
  nanovllmWarmupCases : ∀ c ∈ s.nanovllmWarmupCases, c.Good

/-- The settings of the gRPC service are fit for use. -/
@[mk_iff]
structure GrpcSettings.Good (s : GrpcSettings) : Prop where
  maxReceiveMessageBytes : 1 ≤ s.maxReceiveMessageBytes
  maxSendMessageBytes : 1 ≤ s.maxSendMessageBytes
  streamBufferChunks : 1 ≤ s.streamBufferChunks
  streamBufferBytes : 1 ≤ s.streamBufferBytes
  stalledConsumerTimeoutS : s.stalledConsumerTimeoutS.Positive
  shutdownGraceS : s.shutdownGraceS.Positive

/-- The two ports are ports, and they differ where both are used. -/
@[mk_iff]
structure ServiceSettings.GoodPorts (s : ServiceSettings) : Prop where
  port : IsPort s.port
  grpcPort : IsPort s.grpc.port
  differ : s.grpc.enabled = true → s.grpc.port ≠ s.port

/-- The settings of the scheduler are fit for use. -/
@[mk_iff]
structure FairnessSettings.Good (weights : List (String × Json)) (s : FairnessSettings) : Prop where
  defaultWeight : s.defaultWeight.Positive
  weights : GoodWeights weights s.weights
  softMaxInflightPerKey : 1 ≤ s.softMaxInflightPerKey
  maxPendingPerKey : 1 ≤ s.maxPendingPerKey
  maxPendingPerExecutor : 1 ≤ s.maxPendingPerExecutor
  idleStateTtlS : s.idleStateTtlS.Positive

/-- The weights that a merged document configures. -/
def configuredWeights (payload : List (String × Json)) : List (String × Json) :=
  dict (get (dict (get (dict (get payload "engine")) "fairness" (.object []))) "weights" (.object []))

/-- **Settings that are fit for use**: every number in them finite and in its range. -/
structure AppSettings.Good (payload : List (String × Json)) (s : AppSettings) : Prop where
  ports : s.service.GoodPorts
  grpc : s.service.grpc.Good
  models : ∀ model ∈ s.models, model.2.Good
  fairness : s.fairness.Good (configuredWeights payload)

/-! ### The sections -/

section Sections

variable (payload servicePayload grpcPayload : List (String × Json))

theorem voxcpm2WarmupCase_follows :
    Follows SettingsError.IsValueError True (voxcpm2WarmupCase payload) VoxCPM2WarmupCase.Good
      (voxcpm2WarmupFates payload) := by
  refine .first (boundedFloat_follows (by decide +kernel) (by decide +kernel) (by decide +kernel)) fun _ _ => ?_
  refine .andThen (optional_follows fun _ => floatFrom_follows (by decide +kernel)) fun _ _ => ?_
  refine .last (optional_follows fun _ => intFromOne_follows) fun _ _ => ⟨_, rfl, ?_⟩
  simp only [VoxCPM2WarmupCase.good_iff, true_and, and_assoc]

theorem nanovllmWarmupCase_follows :
    Follows SettingsError.IsValueError True (nanovllmWarmupCase payload) NanoVLLMWarmupCase.Good
      (nanovllmWarmupFates payload) := by
  simp only [nanovllmWarmupFates, List.append_assoc, List.cons_append]
  refine .first (boundedFloat_follows (by decide +kernel) (by decide +kernel) (by decide +kernel)) fun _ _ => ?_
  refine .andThen (optional_follows fun _ => floatFrom_follows (by decide +kernel)) fun _ _ => ?_
  refine .andThen (optional_follows fun _ =>
    boundedFloat_follows (by decide +kernel) (by decide +kernel) (by decide +kernel)) fun _ _ => ?_
  refine .last (optional_follows fun _ => intFromOne_follows) fun _ _ => ⟨_, rfl, ?_⟩
  simp only [NanoVLLMWarmupCase.good_iff, true_and, and_assoc]

theorem modelSettings_follows :
    Follows SettingsError.IsValueError True (modelSettings payload) ModelSettings.Good (modelFates payload) := by
  simp only [modelFates, List.append_assoc, List.cons_append, List.nil_append]
  refine .first intFromOne_follows fun _ _ => ?_
  refine .first (floatFrom_follows (by decide +kernel)) fun _ _ => ?_
  refine .first (floatFrom_follows (by decide +kernel)) fun _ _ => ?_
  refine .first intFromOne_follows fun _ _ => ?_
  refine .first (boundedFloat_follows (by decide +kernel) (by decide +kernel) (by decide +kernel)) fun _ _ => ?_
  refine .andThen (.mapM voxcpm2WarmupCase_follows _) fun _ _ => ?_
  refine .andThen intTuple_follows fun _ _ => ?_
  refine .first intFromOne_follows fun _ _ => ?_
  refine .first intFromOne_follows fun _ _ => ?_
  refine .first intFromOne_follows fun _ _ => ?_
  refine .first (boundedFloat_follows (by decide +kernel) (by decide +kernel) (by decide +kernel)) fun _ _ => ?_
  refine .first intFromOne_follows fun _ _ => ?_
  refine .first intFromOne_follows fun _ _ => ?_
  refine .first (boundedFloat_follows (by decide +kernel) (by decide +kernel) (by decide +kernel)) fun _ _ => ?_
  refine .first (floatFrom_follows (by decide +kernel)) fun _ _ => ?_
  refine .first (boundedFloat_follows (by decide +kernel) (by decide +kernel) (by decide +kernel)) fun _ _ => ?_
  refine .last (.mapM nanovllmWarmupCase_follows _) fun _ _ => ⟨_, rfl, ?_⟩
  simp only [ModelSettings.good_iff, true_and, and_true, and_assoc]

theorem ports_follows :
    Follows SettingsError.IsValueError True (ports servicePayload grpcPayload)
      (fun p => IsPort p.1 ∧ IsPort p.2 ∧ ((get grpcPayload "enabled" (.bool false)).truthy = true → p.2 ≠ p.1))
      (portsFates servicePayload grpcPayload) := by
  simp only [portsFates, List.append_assoc]
  refine .andThen port_follows fun servicePort hservice => ?_
  refine .andThen port_follows fun grpcPort hgrpc => ?_
  obtain ⟨hserviceValue, hservicePort⟩ := eq_of_port hservice
  obtain ⟨hgrpcValue, hgrpcPort⟩ := eq_of_port hgrpc
  rw [← hserviceValue, ← hgrpcValue]
  by_cases h : (get grpcPayload "enabled" (.bool false)).truthy = true ∧ grpcPort = servicePort
  · rw [if_pos h, if_pos (by simpa using h)]
    exact .refused ⟨_, rfl⟩
  · rw [if_neg h, if_neg (by simpa using h)]
    refine .taken (iff_of_true ⟨hservicePort, hgrpcPort, fun henabled heq => h ⟨henabled, heq⟩⟩ ?_)
    exact ⟨⟨trivial, rfl, hservicePort⟩, rfl, hgrpcPort⟩

theorem grpcSettings_follows (enabled : Bool) (grpcPort : ℤ) :
    Follows SettingsError.IsValueError True (grpcSettings grpcPayload enabled grpcPort) GrpcSettings.Good
      (grpcFates grpcPayload) := by
  refine .first nonemptyStr_follows fun _ _ => ?_
  refine .first positiveInt_follows fun _ _ => ?_
  refine .first positiveInt_follows fun _ _ => ?_
  refine .first positiveInt_follows fun _ _ => ?_
  refine .first positiveInt_follows fun _ _ => ?_
  refine .first positiveFloat_follows fun _ _ => ?_
  refine .last positiveFloat_follows fun _ _ => ⟨_, rfl, ?_⟩
  simp only [GrpcSettings.good_iff, true_and, and_assoc]

/-- In `service.grpc` nothing leaks. -/
theorem leaks_notMem_grpcFates : .leaks ∉ grpcFates grpcPayload := by
  simp only [grpcFates, List.mem_cons, List.not_mem_nil, or_false, not_or]
  exact ⟨textFate_ne_leaks.symm, positiveIntFate_ne_leaks.symm, positiveIntFate_ne_leaks.symm,
    positiveIntFate_ne_leaks.symm, positiveIntFate_ne_leaks.symm, positiveFloatFate_ne_leaks.symm,
    positiveFloatFate_ne_leaks.symm⟩

theorem grpcSettings_eq {enabled : Bool} {grpcPort : ℤ} {s : GrpcSettings}
    (h : grpcSettings grpcPayload enabled grpcPort = .ok s) : s.enabled = enabled ∧ s.port = grpcPort := by
  obtain ⟨-, -, h⟩ := ok_of_bind h
  obtain ⟨maxReceiveMessageBytes, -, h⟩ := ok_of_bind h
  obtain ⟨maxSendMessageBytes, -, h⟩ := ok_of_bind h
  obtain ⟨streamBufferChunks, -, h⟩ := ok_of_bind h
  obtain ⟨streamBufferBytes, -, h⟩ := ok_of_bind h
  obtain ⟨stalledConsumerTimeoutS, -, h⟩ := ok_of_bind h
  obtain ⟨shutdownGraceS, -, h⟩ := ok_of_bind h
  obtain rfl := Except.ok.inj h
  exact ⟨rfl, rfl⟩

theorem fairnessSettings_follows :
    Follows SettingsError.IsValueError True (fairnessSettings payload)
      (FairnessSettings.Good (dict (get payload "weights" (.object [])))) (fairnessFates payload) := by
  refine .first positiveFloat_follows fun _ _ => ?_
  refine .andThen fairnessWeights_follows fun _ _ => ?_
  refine .first positiveInt_follows fun _ _ => ?_
  refine .first positiveInt_follows fun _ _ => ?_
  refine .first positiveInt_follows fun _ _ => ?_
  refine .last positiveFloat_follows fun _ _ => ⟨_, rfl, ?_⟩
  simp only [FairnessSettings.good_iff, true_and, and_assoc]

theorem settingsOf_follows :
    Follows SettingsError.IsValueError True (settingsOf payload) (AppSettings.Good payload) (loadFates payload) := by
  cases hfairness : get (dict (get payload "engine")) "fairness" (.object []) with
  | object fairnessPayload =>
    have hweights : configuredWeights payload = dict (get fairnessPayload "weights" (.object [])) := by
      rw [configuredWeights, hfairness]
      rfl
    simp only [settingsOf, loadFates, hfairness, List.append_assoc, List.cons_append, List.nil_append]
    have hmodel (entry : String × Json) :
        Follows SettingsError.IsValueError True
          (do let settings ← modelSettings (dict entry.2); return (entry.1, settings))
          (fun model : String × ModelSettings => model.2.Good) (modelFates (dict entry.2)) :=
      .last (modelSettings_follows _) fun settings _ => ⟨_, rfl, by simp⟩
    refine .andThen (.mapM hmodel _) fun models _ => ?_
    refine .andThen (ports_follows _ _) fun _ _ => ?_
    refine .first nonemptyStr_follows fun _ _ => ?_
    refine .first nonemptyStr_follows fun _ _ => ?_
    refine .andThen (grpcSettings_follows _ _ _) fun grpc hgrpc => ?_
    refine .last (fairnessSettings_follows _) fun fairness _ => ⟨_, rfl, ?_⟩
    obtain ⟨henabled, hport⟩ := grpcSettings_eq _ hgrpc
    rw [← hweights]
    constructor
    · rintro ⟨⟨hservice, hgrpcPort, hdiffer⟩, hgrpc, hmodels, hfairness⟩
      simp only [henabled, hport] at hgrpcPort hdiffer
      exact ⟨⟨⟨⟨⟨⟨trivial, hmodels⟩, hservice, hgrpcPort, hdiffer⟩, trivial⟩, trivial⟩, hgrpc⟩, hfairness⟩
    · rintro ⟨⟨⟨⟨⟨⟨-, hmodels⟩, hservice, hgrpcPort, hdiffer⟩, -⟩, -⟩, hgrpc⟩, hfairness⟩
      refine ⟨⟨hservice, ?_, ?_⟩, hgrpc, hmodels, hfairness⟩
      · simpa only [hport] using hgrpcPort
      · simpa only [henabled, hport] using hdiffer
  | _ =>
    simp only [settingsOf, loadFates, hfairness]
    exact .refused ⟨_, rfl⟩

end Sections

/-- **When validation is total.**  For every pair of documents, `load_settings` raises a
`ValueError` or returns settings that are fit for use, if and only if the first value
that stops it, in the order of evaluation, is one that is refused, or none stops it
and no infinity leaks. -/
theorem settings_validated_iff (base localOverride : Option JsonDocument) :
    Acceptable SettingsError.IsValueError (AppSettings.Good (mergedPayload base localOverride).entries)
        (loadSettings base localOverride) ↔
      Fate.Sound (loadFates (mergedPayload base localOverride).entries) :=
  (settingsOf_follows _).acceptable_iff

/-- Whatever else leaks, what is accepted for the gRPC service is fit for use. -/
theorem grpc_good_of_loadSettings {base localOverride : Option JsonDocument} {settings : AppSettings}
    (hload : loadSettings base localOverride = .ok settings) : settings.service.grpc.Good := by
  rw [loadSettings, settingsOf] at hload
  split at hload
  · obtain ⟨models, -, hload⟩ := ok_of_bind hload
    obtain ⟨ports, -, hload⟩ := ok_of_bind hload
    obtain ⟨-, -, hload⟩ := ok_of_bind hload
    obtain ⟨-, -, hload⟩ := ok_of_bind hload
    obtain ⟨grpc, hgrpc, hload⟩ := ok_of_bind hload
    obtain ⟨fairness, -, hload⟩ := ok_of_bind hload
    obtain rfl := Except.ok.inj hload
    exact (grpcSettings_follows _ _ _).fits (leaks_notMem_grpcFates _) hgrpc
  · cases hload

/-- The defaults are sound: those of an empty document, and those of a model. -/
theorem defaults_sound : Fate.Sound (loadFates []) ∧ Fate.Sound (modelFates []) := by
  decide +kernel

/-- A document with one model `m` that has one field. -/
def modelDocument (field : String) (value : Json) (h : value.UniqueKeys) : JsonDocument where
  value := .object [("engine", .object [("models", .object [("m", .object [(field, value)])])])]
  uniqueKeys := by simp [Json.UniqueKeys, Json.UniqueKeysEntries, Json.UniqueKeysEntry, h]

/-- A document with an infinite HTTP port. -/
def infinitePort : JsonDocument where
  value := .object [("service", .object [("port", .float (.infinity false))])]
  uniqueKeys := by simp [Json.UniqueKeys, Json.UniqueKeysEntries, Json.UniqueKeysEntry]

/-- A `null` for a model's integer ends in a `TypeError`, an infinite port in an
`OverflowError`, and an infinite speed of speech is taken over into the settings. -/
theorem settings_not_validated :
    (∃ message, loadSettings (some (modelDocument "target_inflight" .null trivial)) none =
      .error (.typeError message)) ∧
    (∃ message, loadSettings (some infinitePort) none = .error (.overflowError message)) ∧
    ∃ settings, loadSettings (some (modelDocument "kokoro_speed" (.float (.infinity false)) trivial)) none =
        .ok settings ∧ settings.models.map (fun model => model.2.kokoroSpeed) = [.infinity false] := by
  refine ⟨⟨_, rfl⟩, ⟨_, rfl⟩, ?_⟩
  have hspeed : (loadSettings (some (modelDocument "kokoro_speed" (.float (.infinity false)) trivial)) none).toOption.map
      (fun settings => settings.models.map fun model => model.2.kokoroSpeed) = some [.infinity false] := by
    decide +kernel
  cases hload : loadSettings (some (modelDocument "kokoro_speed" (.float (.infinity false)) trivial)) none with
  | error e => simp [hload, Except.toOption] at hspeed
  | ok settings => exact ⟨settings, rfl, by simpa [hload, Except.toOption] using hspeed⟩

end Settings
end TtsPool
