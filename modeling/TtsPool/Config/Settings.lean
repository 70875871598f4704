/-
# Loading the settings

`load_settings` of `app/config.py` from the two parsed documents on: the merge, the
sections, and every number in them, in the order in which Python evaluates them,
with the defaults and the exceptions.

The settings here have the numbers, and the switch that the check of the two ports
reads.  The texts, the other switches and the lists of texts cannot raise and stand
in no relation to a number; of a text that must not be blank the check is kept.  A
dictionary is the list of its entries.
-/

import TtsPool.Config.Merge
import TtsPool.Config.Numbers

namespace TtsPool

/-- A document that `json.loads` gives. -/
structure JsonDocument where
  value : Json
  uniqueKeys : value.UniqueKeys

/-- The document where it is a dictionary. -/
def JsonDocument.object? : JsonDocument → Option JsonObject
  | ⟨.object entries, h⟩ => some ⟨entries, h⟩
  | _ => none

namespace Settings

/-- The numbers of a `VoxCPM2WarmupCase`. -/
structure VoxCPM2WarmupCase where
  referenceDurationS : PyFloat
  cfgValue : Option PyFloat
  inferenceTimesteps : Option ℤ

/-- The numbers of a `NanoVLLMWarmupCase`. -/
structure NanoVLLMWarmupCase where
  referenceDurationS : PyFloat
  cfgValue : Option PyFloat
  temperature : Option PyFloat
  maxGenerateLength : Option ℤ

/-- The numbers of a `ModelSettings`. -/
structure ModelSettings where
  targetInflight : ℤ
  kokoroSpeed : PyFloat
  voxcpm2CfgValue : PyFloat
  voxcpm2InferenceTimesteps : ℤ
  voxcpm2ReferenceMaxDurationS : PyFloat
  voxcpm2WarmupCases : List VoxCPM2WarmupCase
  nanovllmDevices : List ℤ
  nanovllmMaxNumSeqs : ℤ
  nanovllmMaxNumBatchedTokens : ℤ
  nanovllmMaxModelLen : ℤ
  nanovllmGpuMemoryUtilization : PyFloat
  nanovllmInferenceTimesteps : ℤ
  nanovllmMaxGenerateLength : ℤ
  nanovllmTemperature : PyFloat
  nanovllmCfgValue : PyFloat
  nanovllmReferenceMaxDurationS : PyFloat
  nanovllmWarmupCases : List NanoVLLMWarmupCase

/-- `GrpcSettings`. -/
structure GrpcSettings where
  enabled : Bool
  port : ℤ
  maxReceiveMessageBytes : ℤ
  maxSendMessageBytes : ℤ
  streamBufferChunks : ℤ
  streamBufferBytes : ℤ
  stalledConsumerTimeoutS : PyFloat
  shutdownGraceS : PyFloat

/-- `ServiceSettings`. -/
structure ServiceSettings where
  port : ℤ
  grpc : GrpcSettings

/-- `FairnessSettings`. -/
structure FairnessSettings where
  defaultWeight : PyFloat
  weights : List (String × PyFloat)
  softMaxInflightPerKey : ℤ
  maxPendingPerKey : ℤ
  maxPendingPerExecutor : ℤ
  idleStateTtlS : PyFloat

/-- `AppSettings`, and the `EngineSettings` in it. -/
structure AppSettings where
  service : ServiceSettings
  models : List (String × ModelSettings)
  fairness : FairnessSettings

/-! ### The converters -/

/-- A `float` literal. -/
abbrev literal (x : ℚ) : PyFloat := .nearest x

/-- `payload.get(key, default)`. -/
def get (payload : List (String × Json)) (key : String) (default : Json := .null) : Json :=
  (payload.lookup key).getD default

/-- `_dict`. -/
def dict : Json → List (String × Json)
  | .object entries => entries
  | _ => []

/-- `_positive_float`. -/
def positiveFloat (value : Json) (fieldName : String) : Except SettingsError PyFloat :=
  let refuse := .error (.valueError (fieldName ++ " must be a finite number greater than 0"))
  match value.toFloat with
  | .error (.overflowError message) => .error (.overflowError message)
  | .error _ => refuse
  | .ok parsed => if !parsed.isFinite || !(PyFloat.finite 0).lt parsed then refuse else .ok parsed

/-- `value.is_integer()` of a `float`; any other value is let through. -/
def isIntegral : Json → Bool
  | .float (.finite value) => value.den = 1
  | .float _ => false
  | _ => true

/-- `_positive_int`. -/
def positiveInt (value : Json) (fieldName : String) : Except SettingsError ℤ :=
  let refuse := .error (.valueError (fieldName ++ " must be an integer greater than 0"))
  match value with
  | .bool _ => refuse
  | _ =>
    match value.toInt with
    | .error (.overflowError message) => .error (.overflowError message)
    | .error _ => refuse
    | .ok parsed => if !isIntegral value then refuse else if parsed ≤ 0 then refuse else .ok parsed

/-- `_port`. -/
def port (value : Json) (name : String) : Except SettingsError ℤ := do
  let parsed ← positiveInt value name
  if 65535 < parsed then .error (.valueError (name ++ " must be at most 65535"))
  else return parsed

/-- `not str(value or "").strip()`: the text of a value that is no string is not blank
unless the value is false. -/
def isBlank : Json → Bool
  | .str s => pyStrip s = ""
  | value => !value.truthy

/-- `_nonempty_str`, without the text. -/
def nonemptyStr (value : Json) (name : String) : Except SettingsError Unit :=
  if isBlank value then .error (.valueError (name ++ " must not be blank")) else .ok ()

/-- The loop of `_fairness_weights`, on the weights parsed before. -/
def weightsLoop (parsed : List (String × PyFloat)) :
    List (String × Json) → Except SettingsError (List (String × PyFloat))
  | [] => .ok parsed
  | (rawKey, rawWeight) :: rest => do
    let key := pyStrip rawKey
    if key = "" then .error (.valueError "engine.fairness.weights keys must not be blank")
    else if 128 < key.length then
      .error (.valueError "engine.fairness.weights keys must be at most 128 characters")
    else if key ∈ parsed.map Prod.fst then
      .error (.valueError ("duplicate normalized fairness weight key: " ++ key))
    else
      let weight ← positiveFloat rawWeight ("engine.fairness.weights['" ++ key ++ "']")
      weightsLoop (parsed ++ [(key, weight)]) rest

/-- `_fairness_weights`. -/
def fairnessWeights : Json → Except SettingsError (List (String × PyFloat))
  | .object entries => weightsLoop [] entries
  | _ => .error (.valueError "engine.fairness.weights must be an object of \x7bfairness_key: weight\x7d")

/-- The loop of `_int_tuple`, on the numbers parsed before. -/
def intTupleLoop (parsed : List ℤ) : List Json → Except SettingsError (List ℤ)
  | [] => .ok parsed
  | item :: rest =>
    match item.toInt with
    | .error (.overflowError message) => .error (.overflowError message)
    | .error _ => intTupleLoop parsed rest
    | .ok n => intTupleLoop (parsed ++ [n]) rest

/-- `_int_tuple`. -/
def intTuple (value : Json) (default : List ℤ) : Except SettingsError (List ℤ) :=
  match value with
  | .bool b => .ok [if b then 1 else 0]
  | .int n => .ok [n]
  | .list items => do
    let parsed ← intTupleLoop [] items
    return if parsed = [] then default else parsed
  | _ => .ok default

/-- `_bounded_float`. -/
def boundedFloat (value : Json) (minimum maximum : PyFloat) : Except SettingsError PyFloat := do
  let parsed ← value.toFloat
  return minimum.max (maximum.min parsed)

/-- `max(minimum, float(value))`. -/
def floatFrom (minimum : PyFloat) (value : Json) : Except SettingsError PyFloat := do
  let parsed ← value.toFloat
  return minimum.max parsed

/-- `max(1, int(value))`. -/
def intFromOne (value : Json) : Except SettingsError ℤ := do
  let parsed ← value.toInt
  return max 1 parsed

/-- `None if value is None else …`. -/
def optional {α : Type} (convert : Json → Except SettingsError α) : Json → Except SettingsError (Option α)
  | .null => .ok none
  | value => do
    let parsed ← convert value
    return some parsed

/-- One case of `_voxcpm2_warmup_cases`. -/
def voxcpm2WarmupCase (payload : List (String × Json)) : Except SettingsError VoxCPM2WarmupCase := do
  let referenceDurationS ←
    boundedFloat (get payload "reference_duration_s" (.float (literal 4))) (literal (1 / 5)) (literal 60)
  let cfgValue ← optional (floatFrom (literal (1 / 10))) (get payload "cfg_value")
  let inferenceTimesteps ← optional intFromOne (get payload "inference_timesteps")
  return { referenceDurationS, cfgValue, inferenceTimesteps }

/-- One case of `_nanovllm_warmup_cases`. -/
def nanovllmWarmupCase (payload : List (String × Json)) : Except SettingsError NanoVLLMWarmupCase := do
  let referenceDurationS ←
    boundedFloat (get payload "reference_duration_s" (.float (literal 2))) (literal (1 / 5)) (literal 60)
  let cfgValue ← optional (floatFrom (literal (1 / 10))) (get payload "cfg_value")
  let temperature ← optional (boundedFloat · (literal (1 / 100)) (literal 5)) (get payload "temperature")
  let maxGenerateLength ← optional intFromOne (get payload "max_generate_length")
  return { referenceDurationS, cfgValue, temperature, maxGenerateLength }

/-- The items of a list of warm-up cases that are dictionaries with entries. -/
def warmupPayloads : Json → List (List (String × Json))
  | .list items => (items.map dict).filter fun payload => !payload.isEmpty
  | _ => []

/-- `_voxcpm2_warmup_cases`. -/
def voxcpm2WarmupCases (value : Json) : Except SettingsError (List VoxCPM2WarmupCase) :=
  (warmupPayloads value).mapM voxcpm2WarmupCase

/-- `_nanovllm_warmup_cases`. -/
def nanovllmWarmupCases (value : Json) : Except SettingsError (List NanoVLLMWarmupCase) :=
  (warmupPayloads value).mapM nanovllmWarmupCase

/-! ### The settings -/

/-- The `ModelSettings` of one entry of `engine.models`. -/
def modelSettings (payload : List (String × Json)) : Except SettingsError ModelSettings := do
  let targetInflight ← intFromOne (get payload "target_inflight" (.int 1))
  let kokoroSpeed ← floatFrom (literal (1 / 4)) (get payload "kokoro_speed" (.float (literal 1)))
  let voxcpm2CfgValue ← floatFrom (literal (1 / 10)) (get payload "voxcpm2_cfg_value" (.float (literal 2)))
  let voxcpm2InferenceTimesteps ← intFromOne (get payload "voxcpm2_inference_timesteps" (.int 10))
  let voxcpm2ReferenceMaxDurationS ←
    boundedFloat (get payload "voxcpm2_reference_max_duration_s" (.float (literal 8))) (literal 1) (literal 60)
  let voxcpm2WarmupCases ← voxcpm2WarmupCases (get payload "voxcpm2_warmup_cases")
  let nanovllmDevices ← intTuple (get payload "nanovllm_devices") [0]
  let nanovllmMaxNumSeqs ← intFromOne (get payload "nanovllm_max_num_seqs" (.int 4))
  let nanovllmMaxNumBatchedTokens ← intFromOne (get payload "nanovllm_max_num_batched_tokens" (.int 4096))
  let nanovllmMaxModelLen ← intFromOne (get payload "nanovllm_max_model_len" (.int 2048))
  let nanovllmGpuMemoryUtilization ←
    boundedFloat (get payload "nanovllm_gpu_memory_utilization" (.float (literal (17 / 20)))) (literal (1 / 10))
      (literal 1)
  let nanovllmInferenceTimesteps ← intFromOne (get payload "nanovllm_inference_timesteps" (.int 10))
  let nanovllmMaxGenerateLength ← intFromOne (get payload "nanovllm_max_generate_length" (.int 256))
  let nanovllmTemperature ←
    boundedFloat (get payload "nanovllm_temperature" (.float (literal 1))) (literal (1 / 100)) (literal 5)
  let nanovllmCfgValue ← floatFrom (literal (1 / 10)) (get payload "nanovllm_cfg_value" (.float (literal 2)))
  let nanovllmReferenceMaxDurationS ←
    boundedFloat (get payload "nanovllm_reference_max_duration_s" (.float (literal 8))) (literal 1) (literal 60)
  let nanovllmWarmupCases ← nanovllmWarmupCases (get payload "nanovllm_warmup_cases")
  return {
    targetInflight, kokoroSpeed, voxcpm2CfgValue, voxcpm2InferenceTimesteps, voxcpm2ReferenceMaxDurationS,
    voxcpm2WarmupCases, nanovllmDevices, nanovllmMaxNumSeqs, nanovllmMaxNumBatchedTokens, nanovllmMaxModelLen,
    nanovllmGpuMemoryUtilization, nanovllmInferenceTimesteps, nanovllmMaxGenerateLength, nanovllmTemperature,
    nanovllmCfgValue, nanovllmReferenceMaxDurationS, nanovllmWarmupCases }

/-- The `GrpcSettings` of `service.grpc`, with its port. -/
def grpcSettings (payload : List (String × Json)) (enabled : Bool) (grpcPort : ℤ) : Except SettingsError GrpcSettings := do
  nonemptyStr (get payload "host" (.str "127.0.0.1")) "service.grpc.host"
  let maxReceiveMessageBytes ←
    positiveInt (get payload "max_receive_message_bytes" (.int 16777216)) "service.grpc.max_receive_message_bytes"
  let maxSendMessageBytes ←
    positiveInt (get payload "max_send_message_bytes" (.int 16777216)) "service.grpc.max_send_message_bytes"
  let streamBufferChunks ← positiveInt (get payload "stream_buffer_chunks" (.int 4)) "service.grpc.stream_buffer_chunks"
  let streamBufferBytes ←
    positiveInt (get payload "stream_buffer_bytes" (.int 1048576)) "service.grpc.stream_buffer_bytes"
  let stalledConsumerTimeoutS ←
    positiveFloat (get payload "stalled_consumer_timeout_s" (.float (literal 2)))
      "service.grpc.stalled_consumer_timeout_s"
  let shutdownGraceS ←
    positiveFloat (get payload "shutdown_grace_s" (.float (literal 5))) "service.grpc.shutdown_grace_s"
  return {
    enabled, port := grpcPort, maxReceiveMessageBytes, maxSendMessageBytes, streamBufferChunks, streamBufferBytes,
    stalledConsumerTimeoutS, shutdownGraceS }

/-- The `FairnessSettings` of `engine.fairness`. -/
def fairnessSettings (payload : List (String × Json)) : Except SettingsError FairnessSettings := do
  let defaultWeight ← positiveFloat (get payload "default_weight" (.float (literal 1))) "engine.fairness.default_weight"
  let weights ← fairnessWeights (get payload "weights" (.object []))
  let softMaxInflightPerKey ←
    positiveInt (get payload "soft_max_inflight_per_key" (.int 1)) "engine.fairness.soft_max_inflight_per_key"
  let maxPendingPerKey ← positiveInt (get payload "max_pending_per_key" (.int 4)) "engine.fairness.max_pending_per_key"
  let maxPendingPerExecutor ←
    positiveInt (get payload "max_pending_per_executor" (.int 8)) "engine.fairness.max_pending_per_executor"
  let idleStateTtlS ←
    positiveFloat (get payload "idle_state_ttl_s" (.float (literal 300))) "engine.fairness.idle_state_ttl_s"
  return { defaultWeight, weights, softMaxInflightPerKey, maxPendingPerKey, maxPendingPerExecutor, idleStateTtlS }

/-- The ports, which have to differ where both are used. -/
def ports (servicePayload grpcPayload : List (String × Json)) : Except SettingsError (ℤ × ℤ) := do
  let servicePort ← port (get servicePayload "port" (.int 8020)) "service.port"
  let grpcPort ← port (get grpcPayload "port" (.int 8021)) "service.grpc.port"
  if (get grpcPayload "enabled" (.bool false)).truthy && grpcPort = servicePort then
    .error (.valueError "service.grpc.port must differ from service.port")
  else return (servicePort, grpcPort)

/-- The entries that both documents give together; a file may be missing, and what is
no dictionary is passed over. -/
def mergedPayload (base localOverride : Option JsonDocument) : JsonObject :=
  let payload := (base.bind JsonDocument.object?).getD .empty
  match localOverride.bind JsonDocument.object? with
  | some loaded => payload.mergeDicts loaded
  | none => payload

/-- `load_settings`, on the entries of the merged document. -/
def settingsOf (payload : List (String × Json)) : Except SettingsError AppSettings := do
  let servicePayload := dict (get payload "service")
  let grpcPayload := dict (get servicePayload "grpc")
  let enginePayload := dict (get payload "engine")
  match get enginePayload "fairness" (.object []) with
  | .object fairnessPayload =>
    let models ← (dict (get enginePayload "models")).mapM fun entry => do
      let settings ← modelSettings (dict entry.2)
      return (entry.1, settings)
    let (servicePort, grpcPort) ← ports servicePayload grpcPayload
    nonemptyStr (get servicePayload "host" (.str "127.0.0.1")) "service.host"
    nonemptyStr (get servicePayload "log_level" (.str "info")) "service.log_level"
    let grpc ← grpcSettings grpcPayload (get grpcPayload "enabled" (.bool false)).truthy grpcPort
    let fairness ← fairnessSettings fairnessPayload
    return { service := { port := servicePort, grpc }, models, fairness }
  | _ => .error (.valueError "engine.fairness must be an object")

/-- `load_settings`. -/
def loadSettings (base localOverride : Option JsonDocument) : Except SettingsError AppSettings :=
  settingsOf (mergedPayload base localOverride).entries

end Settings
end TtsPool
