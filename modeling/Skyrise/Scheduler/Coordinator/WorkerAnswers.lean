/-
The messages of the workers as the collector of a pipeline reads them.

A message is taken for the answer of a worker: the identifier and the success are
read first, and a success of a worker that has already succeeded is dropped.  Of
every other message the pipeline is checked, and its fields are passed to the
callback.  The sizes of the data are read as 32-bit numbers and then widened.

A worker is understood if its message leads to one callback with what it has to
report.  That is so if and only if the handler of the worker answers by itself and
both sizes fit into 31 bits: the error objects that the function and the runtime
send instead carry no pipeline, so that the check throws.
-/
import Skyrise.Function.WorkerFunction

open JsonValue

namespace Skyrise

open WorkerFunction

namespace WorkerAnswers

/-- `PqpPipelineFragmentExecutionResult`. -/
structure FragmentExecutionResult (R : Type) where
  /-- The pipeline. -/
  pipelineId : Bytes
  /-- The worker. -/
  workerId : Bytes
  /-- Whether the worker has succeeded. -/
  isSuccess : Bool
  /-- What the worker says. -/
  message : Bytes
  /-- How long the worker took. -/
  runtimeMs : ℕ
  /-- The memory of the worker. -/
  functionInstanceSizeMb : ℕ
  /-- The size of the data that were written. -/
  exportDataSizeBytes : ℕ
  /-- The size of the data that were read. -/
  importDataSizeBytes : ℕ
  /-- The requests that the worker made. -/
  metering : JsonValue R

/-- How the JSON library reads a number as one of 32 bits: a number that fits is read as it is. -/
structure Int32Reading where
  /-- The number that is read. -/
  read : ℤ → ℤ
  read_mem : ∀ n, -2 ^ 31 ≤ read n ∧ read n < 2 ^ 31
  read_eq : ∀ n, -2 ^ 31 ≤ n → n < 2 ^ 31 → read n = n

/-- What the threads of a collector share, with the results that were passed to the callback. -/
structure CollectorState (R : Type) where
  /-- The workers of which a success was received. -/
  processedWorkerIds : List Bytes := []
  /-- The callbacks so far. -/
  callbacks : List (FragmentExecutionResult R) := []

variable {R : Type}

/-- A number cast to `size_t`. -/
def toSize (n : ℤ) : ℕ := (n % 2 ^ 64).toNat

/-- The result that is read of a message. -/
def fragmentResult (reading : Int32Reading) (pipelineId : Bytes) (response : JsonValue R) :
    FragmentExecutionResult R where
  pipelineId := pipelineId
  workerId := response.getString "worker_id"
  isSuccess := decide (reading.read (response.getInteger "isSuccess") ≠ 0)
  message := response.getString "message"
  runtimeMs := toSize (reading.read (response.getInteger "worker_runtime_ms"))
  functionInstanceSizeMb := toSize (response.getInteger "worker_memory_size_mb")
  exportDataSizeBytes := toSize (reading.read (response.getInteger "export_data_size_bytes"))
  importDataSizeBytes := toSize (reading.read (response.getInteger "import_data_size_bytes"))
  metering := response.getObject "metering"

/-- What `handle_message` does with one message. -/
def handleMessage (reading : Int32Reading) (pipelineId : Bytes) (state : CollectorState R)
    (response : JsonValue R) : Except Exception (CollectorState R) := do
  let responderWorkerId := response.getString "worker_id"
  let isSuccess := decide (reading.read (response.getInteger "isSuccess") ≠ 0)
  let isDuplicate := isSuccess && decide (responderWorkerId ∈ state.processedWorkerIds)
  let processedWorkerIds :=
    if isSuccess && !isDuplicate then responderWorkerId :: state.processedWorkerIds
    else state.processedWorkerIds
  if isDuplicate then return state
  else
    assert (decide (pipelineId = response.getString "pipeline_id"))
      "Worker response arrived to the wrong handler."
    return ⟨processedWorkerIds, state.callbacks ++ [fragmentResult reading pipelineId response]⟩

/-- `handle_message`. -/
def handleMessages (reading : Int32Reading) (pipelineId : Bytes) (state : CollectorState R)
    (messages : List (JsonValue R)) : Except Exception (CollectorState R) :=
  messages.foldlM (handleMessage reading pipelineId) state

/-! ### What a worker has to report -/

/-- What an invocation of a worker comes to. -/
inductive Outcome where
  /-- The request is rejected. -/
  | invalidRequest
  /-- An exception escapes the handler or the extension of its response. -/
  | escaped (what : Bytes)
  /-- The execution of the fragment ends with an exception or with success. -/
  | answered (execution : Execution)
deriving DecidableEq, Repr

/-- The outcome of an invocation. -/
def outcome (env : Environment) (request : JsonValue R) : Outcome :=
  let introspection : Except Bytes Unit :=
    if isIntrospectionEnabled request then env.environmentId.map fun _ => () else .ok ()
  if validateRequest request then
    match env.memorySizeMb, introspection with
    | .error what, _ => .escaped what
    | .ok _, .error what => .escaped what
    | .ok _, .ok () => .answered env.execution
  else
    match introspection with
    | .error what => .escaped what
    | .ok () => .invalidRequest

/-- What a worker has to report. -/
structure Report where
  /-- Whether it has succeeded. -/
  isSuccess : Bool
  /-- What it says. -/
  message : Bytes
  /-- The size of the data that were read. -/
  importDataSizeBytes : ℕ
  /-- The size of the data that were written. -/
  exportDataSizeBytes : ℕ
deriving DecidableEq, Repr

/-- The report of an outcome. -/
def Outcome.report : Outcome → Report
  | invalidRequest => ⟨false, "Invalid parameters provided.", 0, 0⟩
  | escaped what => ⟨false, what, 0, 0⟩
  | answered execution => ⟨decide (execution.exception = none), responseString execution,
      execution.importDataSizeBytes, execution.exportDataSizeBytes⟩

/-- What the coordinator takes for the report of a worker. -/
def FragmentExecutionResult.report (result : FragmentExecutionResult R) : Report :=
  ⟨result.isSuccess, result.message, result.importDataSizeBytes, result.exportDataSizeBytes⟩

/-- The message of a worker leads to one callback with its report. -/
def Understood (lib : TextLibrary R) (reading : Int32Reading) (env : Environment)
    (request : JsonValue R) (state : CollectorState R) : Prop :=
  ∃ message state' result, sentMessage lib env request = some message ∧
    handleMessage reading (request.getString "pipeline_id") state message = .ok state' ∧
    state'.callbacks = state.callbacks ++ [result] ∧
    result.workerId = request.getString "worker_id" ∧
    result.report = (outcome env request).report

/-- The worker answers by itself: the request is valid and no exception escapes. -/
structure Answers (env : Environment) (request : JsonValue R) : Prop where
  valid : validateRequest request = true
  memorySizeMb : ∃ memorySizeMb, env.memorySizeMb = .ok memorySizeMb
  environmentId : isIntrospectionEnabled request = true →
    ∃ environmentId, env.environmentId = .ok environmentId

section

variable {lib : TextLibrary R} {reading : Int32Reading} {env : Environment}
  {request payload payload' : JsonValue R} {state : CollectorState R} {pipelineId key : Bytes}

/-! ### The messages -/

lemma find_addIntrospection (h : addIntrospection env request payload = .ok payload')
    (hkey : key ≠ "introspection") : payload'.find key = payload.find key := by
  rw [addIntrospection] at h
  split at h
  · obtain ⟨environmentId, -, hpayload⟩ := exists_of_bind_eq_ok h
    obtain rfl := Except.ok.inj hpayload
    rw [find_withObject, if_neg hkey.symm]
  · obtain rfl := Except.ok.inj h
    rfl

lemma find_addMetering (hkey : key ≠ "metering") :
    (addMetering env request payload).find key = payload.find key := by
  rw [addMetering]
  split
  · rw [RequestCounters.writeSummaryToJson, find_withObject, if_neg hkey.symm]
  · rfl

lemma getObject_congr (h : payload.find key = payload'.find key) :
    payload.getObject key = payload'.getObject key := by
  rw [getObject, getObject, h]

/-- An object that is not extended at a key has its value there. -/
lemma getObject_extended (h : addIntrospection env request payload = .ok payload')
    (hi : key ≠ "introspection") (hm : key ≠ "metering") :
    (addMetering env request payload').getObject key = payload.getObject key :=
  getObject_congr ((find_addMetering hm).trans (find_addIntrospection h hi))

/-- An error object of the runtime carries neither a success nor a pipeline. -/
lemma find_failure (errorMessage errorType : Bytes) :
    (InvocationResponse.failure lib errorMessage errorType).payload.find "isSuccess" = none ∧
      (InvocationResponse.failure lib errorMessage errorType).payload.find "pipeline_id" = none := by
  constructor <;> simp [InvocationResponse.failure]

variable (lib) in
/-- The message of a worker that answers by itself is its response, possibly extended. -/
lemma sentMessage_of_answers (hqueue : responseSqsQueue request ≠ [])
    (hwarmup : isWarmup request = false) (h : Answers env request) :
    ∃ memorySizeMb payload, env.memorySizeMb = .ok memorySizeMb ∧
      addIntrospection env request (response env memorySizeMb request) = .ok payload ∧
      sentMessage lib env request = some (addMetering env request payload) := by
  obtain ⟨memorySizeMb, hmemory⟩ := h.memorySizeMb
  have hpayload : ∃ payload,
      addIntrospection env request (response env memorySizeMb request) = .ok payload := by
    rw [addIntrospection]
    split
    · next hintrospection =>
      obtain ⟨environmentId, hid⟩ := h.environmentId hintrospection
      rw [hid]
      exact ⟨_, rfl⟩
    · exact ⟨_, rfl⟩
  obtain ⟨payload, hpayload⟩ := hpayload
  have htry : tryRespond lib env request =
      .ok ⟨addMetering env request payload, "application/json", true⟩ := by
    rw [tryRespond, handlerFunction, hwarmup, if_neg Bool.false_ne_true, onHandleRequest,
      if_pos h.valid, hmemory]
    show (addIntrospection env request (response env memorySizeMb request)).bind _ = _
    rw [hpayload]
    rfl
  refine ⟨memorySizeMb, payload, hmemory, hpayload, ?_⟩
  rw [sentMessage, if_pos hqueue, respond, htry]

variable (lib) in
/-- The message sent in place of a worker that does not answer carries neither a success nor a
pipeline. -/
lemma sentMessage_of_not_answers (hqueue : responseSqsQueue request ≠ [])
    (hwarmup : isWarmup request = false) (h : ¬ Answers env request) :
    ∃ message, sentMessage lib env request = some message ∧
      message.find "isSuccess" = none ∧ message.find "pipeline_id" = none := by
  rw [sentMessage, if_pos hqueue]
  refine ⟨_, rfl, ?_⟩
  rw [respond]
  cases htry : tryRespond lib env request with
  | error what => exact find_failure _ _
  | ok answer =>
    rw [tryRespond, handlerFunction, hwarmup, if_neg Bool.false_ne_true] at htry
    obtain ⟨handled, hhandled, htry⟩ := exists_of_bind_eq_ok htry
    obtain ⟨payload, hpayload, htry⟩ := exists_of_bind_eq_ok htry
    obtain rfl := Except.ok.inj htry
    rw [onHandleRequest] at hhandled
    split at hhandled
    · next hvalid =>
      -- the handler answers, and so does the function around it
      obtain ⟨memorySizeMb, hmemory, -⟩ := exists_of_bind_eq_ok hhandled
      refine absurd ⟨hvalid, ⟨memorySizeMb, hmemory⟩, fun hintrospection => ?_⟩ h
      rw [addIntrospection, if_pos hintrospection] at hpayload
      obtain ⟨environmentId, hid, -⟩ := exists_of_bind_eq_ok hpayload
      exact ⟨environmentId, hid⟩
    · obtain rfl := Except.ok.inj hhandled
      rw [find_addMetering (by simp), find_addMetering (by simp),
        find_addIntrospection hpayload (by simp), find_addIntrospection hpayload (by simp)]
      exact find_failure _ _

/-- A message without a success and a pipeline makes the handler throw. -/
lemma handleMessage_of_find_none {message : JsonValue R} (hpipeline : pipelineId ≠ [])
    (hsuccess : message.find "isSuccess" = none) (hnone : message.find "pipeline_id" = none) :
    handleMessage reading pipelineId state message =
      .error (.assertionFailed "Worker response arrived to the wrong handler.") := by
  have hread : reading.read (message.getInteger (Bytes.ofString "isSuccess")) = 0 := by
    rw [getInteger, getObject, hsuccess]
    exact reading.read_eq 0 (by omega) (by omega)
  have hid : message.getString "pipeline_id" = [] := by
    rw [getString, getObject, hnone]
    rfl
  simp only [handleMessage, hread, hid]
  simp [hpipeline]

/-- A batch with such a message makes the thread of the batch throw. -/
lemma handleMessages_ne_ok {messages : List (JsonValue R)} {message : JsonValue R}
    (hpipeline : pipelineId ≠ []) (hmem : message ∈ messages)
    (hsuccess : message.find "isSuccess" = none) (hnone : message.find "pipeline_id" = none)
    (state' : CollectorState R) : handleMessages reading pipelineId state messages ≠ .ok state' := by
  intro h
  obtain ⟨s₁, s₂, hstep⟩ := exists_of_foldlM_eq_ok h hmem
  rw [handleMessage_of_find_none hpipeline hsuccess hnone] at hstep
  cases hstep

/-! ### The sizes -/

lemma bmod_eq_self {n : ℕ} (h : n < 2 ^ 63) : (n : ℤ).bmod (2 ^ 64) = n := by
  rw [Int.bmod_def]
  omega

/-- A size is read as it was written if and only if it fits into 31 bits. -/
lemma toSize_read_eq_iff {n : ℕ} (h : n < 2 ^ 63) :
    toSize (reading.read ((n : ℤ).bmod (2 ^ 64))) = n ↔ n < 2 ^ 31 := by
  rw [bmod_eq_self h, toSize]
  obtain ⟨hlow, hhigh⟩ := reading.read_mem n
  constructor
  · intro heq
    omega
  · intro hlt
    have hmod : (n : ℤ) % 2 ^ 64 = n := Int.emod_eq_of_lt (by omega) (by omega)
    rw [reading.read_eq n (by omega) (by omega), hmod, Int.toNat_natCast]

/-! ### The result of an answer -/

variable {message : JsonValue R} {memorySizeMb : ℕ}

/-- The values that the handler reads of a message that extends the response of a worker. -/
structure Extends (message response : JsonValue R) : Prop where
  getObject_eq : ∀ key : Bytes, key ≠ "introspection" → key ≠ "metering" →
    message.getObject key = response.getObject key

lemma extends_addMetering (h : addIntrospection env request payload = .ok payload') :
    Extends (addMetering env request payload') payload :=
  ⟨fun _ hi hm => getObject_extended h hi hm⟩

/-- The success that is read of an answer. -/
lemma read_isSuccess (h : Extends message (response env memorySizeMb request)) :
    decide (reading.read (message.getInteger "isSuccess") ≠ 0) =
      decide (env.execution.exception = none) := by
  rw [getInteger, h.getObject_eq _ (by simp) (by simp)]
  by_cases hexception : env.execution.exception = none
  · have hone : reading.read 1 = 1 := reading.read_eq 1 (by omega) (by omega)
    simp [response, getObject, asInteger, hexception, hone]
  · have hzero : reading.read 0 = 0 := reading.read_eq 0 (by omega) (by omega)
    simp [response, getObject, asInteger, hexception, hzero]

/-- The texts that are read of an answer. -/
lemma read_texts (h : Extends message (response env memorySizeMb request)) :
    message.getString "worker_id" = request.getString "worker_id" ∧
      message.getString "pipeline_id" = request.getString "pipeline_id" ∧
      message.getString "message" = responseString env.execution := by
  simp only [getString, h.getObject_eq (Bytes.ofString "worker_id") (by simp) (by simp),
    h.getObject_eq (Bytes.ofString "pipeline_id") (by simp) (by simp),
    h.getObject_eq (Bytes.ofString "message") (by simp) (by simp)]
  refine ⟨?_, ?_, ?_⟩ <;> simp [response, getObject, asString, getString]

/-- The sizes that are read of an answer. -/
lemma read_sizes (h : Extends message (response env memorySizeMb request)) :
    message.getInteger "import_data_size_bytes" =
        (env.execution.importDataSizeBytes : ℤ).bmod (2 ^ 64) ∧
      message.getInteger "export_data_size_bytes" =
        (env.execution.exportDataSizeBytes : ℤ).bmod (2 ^ 64) := by
  have hin : (response env memorySizeMb request).find "import_data_size_bytes" =
      some (.integer ((env.execution.importDataSizeBytes : ℤ).bmod (2 ^ 64))) := by
    rw [response, find_withInteger, if_neg (by simp), find_withInteger, if_pos rfl]
  have hout : (response env memorySizeMb request).find "export_data_size_bytes" =
      some (.integer ((env.execution.exportDataSizeBytes : ℤ).bmod (2 ^ 64))) := by
    rw [response, find_withInteger, if_pos rfl]
  constructor
  · rw [getInteger, h.getObject_eq _ (by simp) (by simp)]
    exact getInteger_of_find hin
  · rw [getInteger, h.getObject_eq _ (by simp) (by simp)]
    exact getInteger_of_find hout

variable (reading) in
/-- A first answer of a worker is passed to the callback. -/
lemma handleMessage_of_extends (h : Extends message (response env memorySizeMb request))
    (hfirst : request.getString "worker_id" ∉ state.processedWorkerIds) :
    ∃ state', handleMessage reading (request.getString "pipeline_id") state message = .ok state' ∧
      state'.callbacks = state.callbacks ++
        [fragmentResult reading (request.getString "pipeline_id") message] := by
  obtain ⟨hworker, hpipeline, -⟩ := read_texts h
  simp only [handleMessage, hworker, hpipeline, hfirst, decide_false, Bool.and_false,
    Bool.false_eq_true, if_false, decide_true, assert_true]
  exact ⟨_, rfl, rfl⟩

variable (reading pipelineId) in
/-- The report that is read of an answer is right if and only if the sizes fit into 31 bits. -/
lemma report_fragmentResult_iff (h : Extends message (response env memorySizeMb request))
    (himport : env.execution.importDataSizeBytes < 2 ^ 63)
    (hexport : env.execution.exportDataSizeBytes < 2 ^ 63) :
    (fragmentResult reading pipelineId message).report =
        ⟨decide (env.execution.exception = none), responseString env.execution,
          env.execution.importDataSizeBytes, env.execution.exportDataSizeBytes⟩ ↔
      env.execution.importDataSizeBytes < 2 ^ 31 ∧ env.execution.exportDataSizeBytes < 2 ^ 31 := by
  obtain ⟨-, -, hmessage⟩ := read_texts h
  obtain ⟨hin, hout⟩ := read_sizes h
  rw [FragmentExecutionResult.report, fragmentResult, read_isSuccess h, hmessage, hin, hout,
    Report.mk.injEq, toSize_read_eq_iff himport, toSize_read_eq_iff hexport]
  exact ⟨fun hreport => ⟨hreport.2.2.1, hreport.2.2.2⟩, fun hsizes => ⟨rfl, rfl, hsizes⟩⟩

/-- What a worker that answers reports. -/
lemma report_of_answers (h : Answers env request) :
    (outcome env request).report = ⟨decide (env.execution.exception = none),
      responseString env.execution, env.execution.importDataSizeBytes,
      env.execution.exportDataSizeBytes⟩ := by
  obtain ⟨memorySizeMb, hmemory⟩ := h.memorySizeMb
  have hintrospection : (if isIntrospectionEnabled request then
      env.environmentId.map fun _ => () else .ok ()) = (.ok () : Except Bytes Unit) := by
    split
    · next hintrospection =>
      obtain ⟨environmentId, hid⟩ := h.environmentId hintrospection
      rw [hid]
      rfl
    · rfl
  simp only [outcome, hintrospection, h.valid, hmemory, if_true]
  rfl

end

/-- **A worker is understood if and only if it answers by itself and its sizes fit into 31 bits.**
The pipeline is named, as every pipeline is, and the message is the first of the worker. -/
theorem understood_iff {R : Type} (lib : TextLibrary R) (reading : Int32Reading)
    (env : Environment) (request : JsonValue R) (state : CollectorState R)
    (hqueue : responseSqsQueue request ≠ []) (hwarmup : isWarmup request = false)
    (hpipeline : request.getString "pipeline_id" ≠ [])
    (hfirst : request.getString "worker_id" ∉ state.processedWorkerIds)
    (himport : env.execution.importDataSizeBytes < 2 ^ 63)
    (hexport : env.execution.exportDataSizeBytes < 2 ^ 63) :
    Understood lib reading env request state ↔ Answers env request ∧
      env.execution.importDataSizeBytes < 2 ^ 31 ∧ env.execution.exportDataSizeBytes < 2 ^ 31 := by
  by_cases h : Answers env request
  · obtain ⟨memorySizeMb, payload, -, hpayload, hsent⟩ :=
      sentMessage_of_answers lib hqueue hwarmup h
    have hextends := extends_addMetering hpayload
    obtain ⟨state', hstate', hcallbacks⟩ :=
      handleMessage_of_extends reading hextends hfirst
    have hreport := report_fragmentResult_iff reading
      (request.getString "pipeline_id") hextends himport hexport
    rw [← report_of_answers h] at hreport
    constructor
    · rintro ⟨message, state'', result, hsent', hstate'', hcallback, -, hresult⟩
      obtain rfl := Option.some.inj (hsent.symm.trans hsent')
      obtain rfl := Except.ok.inj (hstate'.symm.trans hstate'')
      obtain rfl := List.singleton_inj.mp (List.append_cancel_left (hcallbacks.symm.trans hcallback))
      exact ⟨h, hreport.mp hresult⟩
    · rintro ⟨-, hsizes⟩
      exact ⟨_, state', _, hsent, hstate', hcallbacks, (read_texts hextends).1, hreport.mpr hsizes⟩
  · obtain ⟨message, hsent, hsuccess, hnone⟩ :=
      sentMessage_of_not_answers lib hqueue hwarmup h
    refine iff_of_false ?_ fun hanswers => h hanswers.1
    rintro ⟨message', state', result, hsent', hstate', -⟩
    obtain rfl := Option.some.inj (hsent.symm.trans hsent')
    rw [handleMessage_of_find_none hpipeline hsuccess hnone] at hstate'
    cases hstate'

/-- A number that does not fit into 32 bits is read as the nearest one that does. -/
def saturating : Int32Reading where
  read n := max (-2 ^ 31) (min n (2 ^ 31 - 1))
  read_mem n := by omega
  read_eq n := by omega

/-- Texts that are read as they were written. -/
def plainTexts : TextLibrary Unit := ⟨fun _ => [], id⟩

/-- A worker that reads and writes a little. -/
def smallExecution : Environment := ⟨⟨none, 100, 200⟩, 5, .ok 1024, .ok "host", []⟩

/-- A request without a plan. -/
def requestWithoutPlan : JsonValue Unit :=
  ((empty.withString "worker_id" "p-worker0").withString "pipeline_id" "p").withString
    "response_queue_url" "queue"

/-- A request with a plan and a fragment. -/
def validRequest : JsonValue Unit :=
  (requestWithoutPlan.withString "pqp_pipeline_template" "plan").withArray "fragment_definitions"
    [empty]

/-- A valid request is answered, and the answer is understood. -/
theorem understood_validRequest :
    Understood plainTexts saturating smallExecution validRequest {} := by
  refine (understood_iff plainTexts saturating smallExecution validRequest {} ?_ ?_ ?_ ?_ ?_ ?_).mpr
    ⟨⟨?_, ⟨1024, rfl⟩, fun _ => ⟨"host", rfl⟩⟩, ?_, ?_⟩
  all_goals decide +kernel

/-- The rejection of a request without a plan is not understood. -/
theorem not_understood_requestWithoutPlan :
    ¬ Understood plainTexts saturating smallExecution requestWithoutPlan {} := by
  have hanswers : ¬ Answers smallExecution requestWithoutPlan := fun h =>
    absurd h.valid (by decide +kernel)
  obtain ⟨message, hsent, hsuccess, hnone⟩ := sentMessage_of_not_answers plainTexts
    (show responseSqsQueue requestWithoutPlan ≠ [] by decide +kernel) (by decide +kernel) hanswers
  rintro ⟨message', state', result, hsent', hstate', -⟩
  obtain rfl := Option.some.inj (hsent.symm.trans hsent')
  rw [handleMessage_of_find_none (by decide +kernel) hsuccess hnone] at hstate'
  cases hstate'

end WorkerAnswers

end Skyrise
