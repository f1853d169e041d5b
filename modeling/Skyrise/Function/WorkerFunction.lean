/-
The response of a worker function.

A function hands the request to its handler and extends the response with an
introspection and a metering object before it puts it on the queue that the request
names.  An exception that escapes the handler is reported in its place.  The handler
of a worker rejects an invalid request, catches what the execution of the fragment
throws and otherwise reports the sizes of the data that were read and written.

A failure of the Lambda runtime is an error object around the text of the failure.
So every payload is the text of a JSON value, and the value stands for it.  Requests
are taken as they are after they were unpacked and decompressed.
-/
import Mathlib.Algebra.Group.Int.Defs
import Mathlib.Algebra.Group.Nat.Defs
import Mathlib.Data.Int.Init
import Skyrise.Json.Value
import Skyrise.Utils.Assert

open JsonValue

namespace Skyrise

namespace WorkerFunction

/-- The counts of the requests of one kind. -/
structure Statistics where
  /-- The requests that failed. -/
  failed : ℕ := 0
  /-- The requests that failed for good or succeeded. -/
  finished : ℕ := 0
  /-- The requests that were retried. -/
  retried : ℕ := 0
  /-- The requests that succeeded. -/
  succeeded : ℕ := 0
deriving DecidableEq, Repr

/-- The counters of a request tracker. -/
abbrev RequestCounters := List (Bytes × Statistics)

/-- The counters after those of a key are updated. -/
def RequestCounters.update (counters : RequestCounters) (key : Bytes)
    (f : Statistics → Statistics) : RequestCounters :=
  (key, f (((counters.find? fun counter => counter.1 = key).map Prod.snd).getD {})) ::
    counters.filter fun counter => counter.1 ≠ key

/-- The texts that the libraries make of what is given to them. -/
structure TextLibrary (R : Type) where
  /-- `WriteCompact`. -/
  writeCompact : JsonValue R → Bytes
  /-- What is read of a text that the Lambda runtime has escaped. -/
  escaped : Bytes → Bytes

/-- What the execution of the fragment comes to. -/
structure Execution where
  /-- The text of the exception that it throws, if any. -/
  exception : Option Bytes
  /-- The size of the data that were read so far. -/
  importDataSizeBytes : ℕ
  /-- The size of the data that were written so far. -/
  exportDataSizeBytes : ℕ
deriving DecidableEq, Repr

/-- What an invocation depends on besides the request. -/
structure Environment where
  /-- The execution of the fragment. -/
  execution : Execution
  /-- The time that it takes. -/
  runtimeMs : ℕ
  /-- The memory size, or the text of the exception if it is not given by a number. -/
  memorySizeMb : Except Bytes ℕ
  /-- The identifier of the host, or the text of the exception with which it is not found. -/
  environmentId : Except Bytes Bytes
  /-- The requests that were made. -/
  requestCounters : RequestCounters

/-- `invocation_response`. -/
structure InvocationResponse (R : Type) where
  /-- The payload. -/
  payload : JsonValue R
  /-- The type of the payload. -/
  contentType : Bytes
  /-- Whether the invocation was successful. -/
  isSuccess : Bool

variable {R : Type}

/-- `invocation_response::success`. -/
def InvocationResponse.success (payload : JsonValue R) (contentType : Bytes) :
    InvocationResponse R :=
  ⟨payload, contentType, true⟩

/-- `invocation_response::failure`. -/
def InvocationResponse.failure (lib : TextLibrary R) (errorMessage errorType : Bytes) :
    InvocationResponse R where
  payload := ((empty.withString "errorMessage" (lib.escaped errorMessage)).withString "errorType"
    (lib.escaped errorType)).withArray "stackTrace" []
  contentType := "application/json"
  isSuccess := false

/-- `RequestTracker::WriteSummaryToJson`. -/
def RequestCounters.writeSummaryToJson (counters : RequestCounters) (json : JsonValue R) :
    JsonValue R :=
  json.withObject "metering" (counters.foldl (fun metering counter =>
    metering.withObject counter.1
      ((((empty.withInteger "finished" counter.2.finished).withInteger "succeeded"
        counter.2.succeeded).withInteger "retried" counter.2.retried).withInteger "failed"
          counter.2.failed)) empty)

/-! ### The worker -/

/-- `ValidateRequest`. -/
def validateRequest (request : JsonValue R) : Bool :=
  request.keyExists "worker_id" && request.keyExists "pqp_pipeline_template" &&
    request.keyExists "fragment_definitions" &&
      decide (0 < (request.getArray "fragment_definitions").length)

/-- The message of an execution. -/
def responseString (execution : Execution) : Bytes :=
  match execution.exception with
  | none => "Worker executed successfully."
  | some what => Bytes.ofString "Worker failed " ++ what

/-- The payload for an execution.  The numbers are narrowed to what the setters take. -/
def response (env : Environment) (memorySizeMb : ℕ) (request : JsonValue R) : JsonValue R :=
  (((((((empty.withInteger "isSuccess" (if env.execution.exception = none then 1 else 0)).withString
    "message" (responseString env.execution)).withString
      "worker_id" (request.getString "worker_id")).withString
        "pipeline_id" (request.getString "pipeline_id")).withInteger
          "worker_runtime_ms" ((env.runtimeMs : ℤ).bmod (2 ^ 32))).withInteger
            "worker_memory_size_mb" ((memorySizeMb : ℤ).bmod (2 ^ 32))).withInteger
    "import_data_size_bytes" ((env.execution.importDataSizeBytes : ℤ).bmod (2 ^ 64))).withInteger
      "export_data_size_bytes" ((env.execution.exportDataSizeBytes : ℤ).bmod (2 ^ 64))

/-- `OnHandleRequest`; an error is the text of an exception that escapes. -/
def onHandleRequest (lib : TextLibrary R) (env : Environment) (request : JsonValue R) :
    Except Bytes (InvocationResponse R) :=
  if validateRequest request then do
    let memorySizeMb ← env.memorySizeMb
    return .success (response env memorySizeMb request) "application/json"
  else .ok (.failure lib "Invalid parameters provided." "text/plain")

/-! ### The function around it -/

/-- Whether the request only keeps the function warm. -/
def isWarmup (request : JsonValue R) : Bool :=
  request.keyExists "warmup" && request.keyExists "concurrency_duration_seconds"

/-- `HandlerFunction`. -/
def handlerFunction (lib : TextLibrary R) (env : Environment) (request : JsonValue R) :
    Except Bytes (InvocationResponse R) :=
  if isWarmup request then .ok (.success request "application/json")
  else onHandleRequest lib env request

/-- The queue for the response, an empty name if there is none. -/
def responseSqsQueue (request : JsonValue R) : Bytes :=
  if request.keyExists "response_queue_url" then request.getString "response_queue_url" else []

/-- Whether the response is extended by an introspection object. -/
def isIntrospectionEnabled (request : JsonValue R) : Bool :=
  if request.keyExists "enable_introspection" then request.getBool "enable_introspection"
  else false

/-- Whether the response is extended by a metering object. -/
def isMeteringEnabled (request : JsonValue R) : Bool :=
  if request.keyExists "enable_metering" then request.getBool "enable_metering" else true

/-- The payload with the introspection object. -/
def addIntrospection (env : Environment) (request payload : JsonValue R) :
    Except Bytes (JsonValue R) :=
  if isIntrospectionEnabled request then do
    let environmentId ← env.environmentId
    return payload.withObject "introspection" (empty.withString "environment_id" environmentId)
  else .ok payload

/-- The payload with the metering object, in which the request to the queue is counted. -/
def addMetering (env : Environment) (request payload : JsonValue R) : JsonValue R :=
  if isMeteringEnabled request then
    let counters :=
      if responseSqsQueue request ≠ [] then
        (env.requestCounters.update "SQS:SendMessage" fun statistics =>
          { statistics with succeeded := statistics.succeeded + 1 }).update "SQS:SendMessage"
            fun statistics => { statistics with finished := statistics.finished + 1 }
      else env.requestCounters
    counters.writeSummaryToJson payload
  else payload

/-- What is done in the `try` block. -/
def tryRespond (lib : TextLibrary R) (env : Environment) (request : JsonValue R) :
    Except Bytes (InvocationResponse R) := do
  let response ← handlerFunction lib env request
  let payload ← addIntrospection env request response.payload
  return ⟨addMetering env request payload, response.contentType, response.isSuccess⟩

/-- The response to a request. -/
def respond (lib : TextLibrary R) (env : Environment) (request : JsonValue R) :
    InvocationResponse R :=
  match tryRespond lib env request with
  | .ok response => response
  | .error what => .failure lib
      (lib.writeCompact ((empty.withString "message" what).withInteger "isSuccess" 0))
      "application/json"

/-- The message that `HandleRequest` puts on the queue. -/
def sentMessage (lib : TextLibrary R) (env : Environment) (request : JsonValue R) :
    Option (JsonValue R) :=
  if responseSqsQueue request ≠ [] then some (respond lib env request).payload else none

end WorkerFunction

end Skyrise
