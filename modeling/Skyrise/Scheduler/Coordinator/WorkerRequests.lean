/-
The requests with which the fragments of a pipeline reach the workers.

The coordinator cuts the fragment definitions into batches, so that it invokes no
more workers than its threshold.  A worker executes the first definition of its
request and invokes a worker for every other one, whose request has this definition
alone.  So every definition comes first in one request, all requests bear different
identifiers, and no worker of the second level invokes another.

The writer of an array drops the entries to which no value was assigned, which the
last batch has at its end.  A request is delivered as the JSON value it was made of.
-/
import Mathlib.Data.List.Perm.Basic
import Mathlib.Data.List.ReduceOption
import Mathlib.Data.Rat.Floor
import Skyrise.Compiler.PipelineFragmentDefinition
import Skyrise.Function.WorkerFunction
import Skyrise.Utils.List

open JsonValue

namespace Skyrise

open WorkerFunction

namespace WorkerRequests

variable {R : Type}

/-! ### What the coordinator invokes -/

/-- The most workers that the coordinator invokes. -/
def kWorkerRecursiveInvocationThreshold : ℕ := 32

/-- The definitions for one worker; the quotient by a power of two is exact. -/
def fragmentsPerWorkerCount (fragmentCount : ℕ) : ℕ :=
  ⌈(fragmentCount : ℚ) / kWorkerRecursiveInvocationThreshold⌉₊

/-- What stands for a definition in a request. -/
def fragmentJson (definition : PipelineFragmentDefinition) : JsonValue R :=
  empty.withObject "fragment_definition" definition.toJson

/-- The array of a batch, as long as any; behind the last definition nothing is assigned. -/
def fragmentArray (definitions : List PipelineFragmentDefinition) (i fragmentsPerWorkerCount : ℕ) :
    List (Option (JsonValue R)) :=
  (List.range fragmentsPerWorkerCount).map fun j =>
    if h : j + i < definitions.length then some (fragmentJson definitions[j + i]) else none

lemma fragmentsPerWorkerCount_bounds (n : ℕ) :
    n ≤ kWorkerRecursiveInvocationThreshold * fragmentsPerWorkerCount n := by
  have hle : (n : ℚ) / kWorkerRecursiveInvocationThreshold ≤ (fragmentsPerWorkerCount n : ℚ) :=
    Nat.le_ceil _
  rw [div_le_iff₀ (by norm_num [kWorkerRecursiveInvocationThreshold])] at hle
  rw [Nat.mul_comm]
  exact_mod_cast hle

lemma fragmentsPerWorkerCount_pos {n : ℕ} (hn : 0 < n) : 0 < fragmentsPerWorkerCount n := by
  have hle := fragmentsPerWorkerCount_bounds n
  by_contra hzero
  rw [Nat.eq_zero_of_not_pos hzero, Nat.mul_zero] at hle
  omega

/-- The loop of `Execute` from a definition on: the requests, of which every one is made by changing
the one before. -/
def invokeWorkers (definitions : List PipelineFragmentDefinition) (pipelineId queueUrl : Bytes)
    (i workerCount : ℕ) (requestBody : JsonValue R) : List (JsonValue R) :=
  if i < definitions.length then
    let count := fragmentsPerWorkerCount definitions.length
    let workerId := pipelineId ++ Bytes.ofString "-worker" ++ Bytes.decimal workerCount
    let requestBody := (((requestBody.withArray "fragment_definitions"
      (fragmentArray definitions i count).reduceOption).withString "worker_id" workerId).withString
        "pipeline_id" pipelineId).withString "response_queue_url" queueUrl
    requestBody :: invokeWorkers definitions pipelineId queueUrl (i + count) (workerCount + 1)
      requestBody
  else []
termination_by definitions.length - i
decreasing_by
  have hpos := fragmentsPerWorkerCount_pos (Nat.zero_lt_of_lt ‹i < definitions.length›)
  omega

/-- `LambdaExecutor::Execute`: the requests for a pipeline with a template. -/
def execute (template pipelineId queueUrl : Bytes) (definitions : List PipelineFragmentDefinition) :
    List (JsonValue R) :=
  invokeWorkers definitions pipelineId queueUrl 0 0
    (empty.withString "pqp_pipeline_template" template)

/-! ### What a worker invokes -/

/-- The loop of `InvokeRecursive` from a definition on. -/
def invokeFrom (workerId : Bytes) (fragmentDefinitions : List (JsonValue R)) (i : ℕ)
    (payload : JsonValue R) : List (JsonValue R) :=
  if h : i < fragmentDefinitions.length then
    let payload := (payload.withString "worker_id"
      (workerId ++ Bytes.ofString "-" ++ Bytes.decimal i)).withArray "fragment_definitions"
        [fragmentDefinitions[i]]
    payload :: invokeFrom workerId fragmentDefinitions (i + 1) payload
  else []
termination_by fragmentDefinitions.length - i

/-- `InvokeRecursive`. -/
def invokeRecursive (request : JsonValue R) : Except Exception (List (JsonValue R)) := do
  assert (request.keyExists "response_queue_url")
    "Recursive worker invocation requires an SQS queue to process responses."
  return invokeFrom (request.getString "worker_id") (request.getArray "fragment_definitions") 1
    request

/-- The requests that a worker makes if its own has further definitions. -/
def invokeOthers (request : JsonValue R) : Except Exception (List (JsonValue R)) :=
  if 1 < (request.getArray "fragment_definitions").length then invokeRecursive request else .ok []

/-- What a worker does with a request until it executes its fragment: the requests that it makes
and the definition that it reads, if the request is one for a fragment. -/
def takeRequest (request : JsonValue R) :
    Except Exception (Option (List (JsonValue R) × JsonValue R)) := do
  if isWarmup request || !validateRequest request then return none
  else
    let invoked ← invokeOthers request
    return some (invoked, ((request.getArray "fragment_definitions").head?.getD empty).getObject
      "fragment_definition")

/-- The requests that a worker makes. -/
def invocations (request : JsonValue R) : List (JsonValue R) :=
  match takeRequest request with
  | .ok (some (invoked, _)) => invoked
  | _ => []

/-- The requests a number of invocations after those of the coordinator. -/
def generation (requests : List (JsonValue R)) : ℕ → List (JsonValue R)
  | 0 => requests
  | n + 1 => (generation requests n).flatMap invocations

/-- The requests bring every definition to one worker. -/
structure Distributes (definitions : List PipelineFragmentDefinition)
    (requests : List (JsonValue R)) : Prop where
  /-- The coordinator invokes no more workers than its threshold. -/
  length_le : requests.length ≤ kWorkerRecursiveInvocationThreshold
  /-- The workers that the coordinator invokes invoke others, which do not. -/
  generation_eq_nil : ∀ n, generation requests (n + 2) = []
  /-- Every definition comes first in one request. -/
  first : ((generation requests 0 ++ generation requests 1).map fun request =>
    (request.getArray "fragment_definitions").head?).Perm (definitions.map (some ∘ fragmentJson))
  /-- Every request is taken, and the worker reads the definition that comes first. -/
  taken : ∀ request ∈ generation requests 0 ++ generation requests 1,
    ∃ invoked definition, (request.getArray "fragment_definitions").head? =
      some (fragmentJson definition) ∧ takeRequest request = .ok (some (invoked, definition.toJson))
  /-- The workers have different identifiers. -/
  workerId_nodup : ((generation requests 0 ++ generation requests 1).map fun request =>
    request.getString "worker_id").Nodup

/-! ### One request -/

/-- A request for a worker with an identifier and definitions. -/
structure IsRequest (request : JsonValue R) (workerId : Bytes)
    (definitions : List PipelineFragmentDefinition) : Prop where
  workerId : request.getString "worker_id" = workerId
  definitions : request.getArray "fragment_definitions" = definitions.map fragmentJson
  keys : request.keyExists "worker_id" ∧ request.keyExists "fragment_definitions" ∧
    request.keyExists "pqp_pipeline_template" ∧ request.keyExists "response_queue_url"
  warmup : request.find "warmup" = none

/-- The identifier of the worker for a definition of a request. -/
def workerIdOf (workerId : Bytes) (j : ℕ) : Bytes :=
  if j = 0 then workerId else workerId ++ Bytes.ofString "-" ++ Bytes.decimal j

section Request

variable {request : JsonValue R} {workerId : Bytes}
  {definitions : List PipelineFragmentDefinition}

/-- The loop makes a request for every definition that is left. -/
lemma invokeFrom_spec (i : ℕ) (hi : 0 < i) (payload : JsonValue R)
    (htemplate : payload.keyExists "pqp_pipeline_template")
    (hqueue : payload.keyExists "response_queue_url") (hwarmup : payload.find "warmup" = none) :
    List.Forall₂ (fun (p : PipelineFragmentDefinition × ℕ) r =>
        IsRequest r (workerIdOf workerId p.2) [p.1]) ((definitions.drop i).zipIdx i)
      (invokeFrom workerId (definitions.map fragmentJson) i payload) := by
  rw [invokeFrom]
  split
  · next hlt =>
    have hlt' : i < definitions.length := by simpa using hlt
    rw [List.drop_eq_getElem_cons hlt', List.zipIdx_cons]
    refine List.Forall₂.cons ?_ (invokeFrom_spec (i + 1) (Nat.succ_pos i) _ ?_ ?_ ?_)
    · refine ⟨?_, ?_, ?_, ?_⟩
      · rw [workerIdOf, if_neg (Nat.ne_of_gt hi)]
        simp [getString, getObject, asString]
      · simp [getArray, getObject, asArray]
      · simp only [keyExists] at htemplate hqueue ⊢
        simp [htemplate, hqueue]
      · simpa using hwarmup
    · simpa [keyExists] using htemplate
    · simpa [keyExists] using hqueue
    · simpa using hwarmup
  · next hge =>
    rw [List.drop_eq_nil_of_le (by simpa using hge)]
    exact List.Forall₂.nil
termination_by definitions.length - i

/-- What a worker does with a request. -/
lemma IsRequest.takeRequest {definition : PipelineFragmentDefinition}
    (h : IsRequest request workerId (definition :: definitions)) :
    takeRequest request = .ok (some (invokeFrom workerId
      ((definition :: definitions).map fragmentJson) 1 request, definition.toJson)) := by
  obtain ⟨hworker, hdefinitions, htemplate, hqueue⟩ := h.keys
  have hwarm : isWarmup request = false := by
    rw [isWarmup, keyExists, h.warmup]
    rfl
  have hvalid : validateRequest request = true := by
    rw [validateRequest, hworker, hdefinitions, htemplate, h.definitions]
    rfl
  have hinvoked : invokeOthers request =
      .ok (invokeFrom workerId ((definition :: definitions).map fragmentJson) 1 request) := by
    rw [invokeOthers, h.definitions]
    split
    · rw [invokeRecursive, hqueue, h.workerId, h.definitions]
      rfl
    · next hone => rw [invokeFrom, dif_neg hone]
  have hjson : (fragmentJson definition : JsonValue R).getObject "fragment_definition" =
      definition.toJson := by
    simp [fragmentJson, getObject]
  rw [WorkerRequests.takeRequest, hwarm, hvalid, hinvoked, h.definitions, ← hjson]
  rfl

/-- The requests that a worker makes. -/
lemma IsRequest.invocations {definition : PipelineFragmentDefinition}
    (h : IsRequest request workerId (definition :: definitions)) :
    List.Forall₂ (fun (p : PipelineFragmentDefinition × ℕ) r =>
      IsRequest r (workerIdOf workerId p.2) [p.1]) (definitions.zipIdx 1) (invocations request) := by
  obtain ⟨-, -, htemplate, hqueue⟩ := h.keys
  rw [WorkerRequests.invocations, h.takeRequest]
  exact @invokeFrom_spec _ _ (definition :: definitions) 1 Nat.one_pos request htemplate
    hqueue h.warmup

/-- A worker with one definition makes no requests. -/
lemma IsRequest.invocations_eq_nil {definition : PipelineFragmentDefinition}
    (h : IsRequest request workerId [definition]) : WorkerRequests.invocations request = [] :=
  List.forall₂_nil_left_iff.mp h.invocations

/-- The requests for the definitions of a request: the request and those that its worker makes. -/
lemma IsRequest.cons_invocations (h : IsRequest request workerId definitions)
    (hne : definitions ≠ []) :
    (request :: WorkerRequests.invocations request).map (fun r =>
        (r.getArray "fragment_definitions").head?) = definitions.map (some ∘ fragmentJson) ∧
      (request :: WorkerRequests.invocations request).map (fun r => r.getString "worker_id") =
        (List.range definitions.length).map (workerIdOf workerId) := by
  obtain ⟨definition, definitions, rfl⟩ := List.exists_cons_of_ne_nil hne
  constructor
  · have hheads := List.map_eq_map_of_forall₂ (f := fun p => (some ∘ fragmentJson) p.1)
      (g := fun r => (r.getArray "fragment_definitions").head?)
      (h.invocations.imp fun p r hr => by rw [hr.definitions]; rfl)
    have hfst : (definitions.zipIdx 1).map (fun p => (some ∘ fragmentJson (R := R)) p.1) =
        definitions.map (some ∘ fragmentJson) := by
      show (definitions.zipIdx 1).map ((some ∘ fragmentJson) ∘ Prod.fst) = _
      rw [← List.map_map, List.zipIdx_map_fst]
    rw [List.map_cons, List.map_cons, h.definitions, ← hheads, hfst]
    rfl
  · have hids := List.map_eq_map_of_forall₂ (f := fun p => workerIdOf workerId p.2)
      (g := fun r => r.getString "worker_id") (h.invocations.imp fun p r hr => hr.workerId.symm)
    have hsnd : (definitions.zipIdx 1).map (fun p => workerIdOf workerId p.2) =
        ((List.range definitions.length).map Nat.succ).map (workerIdOf workerId) := by
      show (definitions.zipIdx 1).map (workerIdOf workerId ∘ Prod.snd) = _
      rw [← List.map_map, List.zipIdx_map_snd, List.range'_eq_map_range]
      simp only [Nat.add_comm]
    rw [List.map_cons, h.workerId, ← hids, hsnd, List.length_cons, List.range_succ_eq_map,
      List.map_cons]
    rfl

end Request

/-! ### The requests of the coordinator -/

lemma workerIdOf_inj {pre : Bytes} {c c' j j' : ℕ}
    (h : workerIdOf (pre ++ Bytes.decimal c) j = workerIdOf (pre ++ Bytes.decimal c') j') :
    c = c' ∧ j = j' := by
  rw [workerIdOf, workerIdOf] at h
  simp only [List.append_assoc] at h
  split at h <;> split at h
  · next hj hj' =>
    exact ⟨Bytes.decimal_injective (List.append_cancel_left h), hj.trans hj'.symm⟩
  · exact absurd (List.append_cancel_left h) Bytes.decimal_ne_dash
  · exact absurd (List.append_cancel_left h).symm Bytes.decimal_ne_dash
  · exact Bytes.decimal_dash_inj (List.append_cancel_left h)

/-- The writer keeps the definitions of a batch. -/
lemma reduceOption_fragmentArray (definitions : List PipelineFragmentDefinition) (i count : ℕ) :
    (fragmentArray definitions i count : List (Option (JsonValue R))).reduceOption =
      ((definitions.drop i).take count).map fragmentJson := by
  induction count with
  | zero => rfl
  | succ count ih =>
    rw [fragmentArray, List.range_succ, List.map_append, List.reduceOption_append]
    rw [fragmentArray] at ih
    rw [ih, List.map_singleton]
    split
    · next hlt =>
      have hget : (definitions.drop i)[count]? = some definitions[count + i] := by
        rw [List.getElem?_drop, Nat.add_comm, List.getElem?_eq_getElem hlt]
      rw [List.take_add_one, hget, List.map_append]
      rfl
    · next hge =>
      rw [List.take_add_one, List.getElem?_eq_none (by rw [List.length_drop]; omega)]
      simp

variable {definitions : List PipelineFragmentDefinition} {pipelineId queueUrl : Bytes}

/-- The identifier of a worker that the coordinator invokes. -/
def directId (pipelineId : Bytes) (workerCount : ℕ) : Bytes :=
  pipelineId ++ Bytes.ofString "-worker" ++ Bytes.decimal workerCount

/-- What holds of the requests for the definitions from one on, which are numbered from a number on:
every one is for a batch, and with those that their workers make they bring every definition to one
worker. -/
structure Covers (definitions : List PipelineFragmentDefinition) (pipelineId : Bytes) (count c : ℕ)
    (requests : List (JsonValue R)) : Prop where
  isRequest : ∀ r ∈ requests, ∃ c' batch, c ≤ c' ∧ batch ≠ [] ∧
    IsRequest r (directId pipelineId c') batch
  length_le : ∀ m, definitions.length ≤ m * count → requests.length ≤ m
  first : ((requests.flatMap fun r => r :: invocations r).map fun r =>
    (r.getArray "fragment_definitions").head?) = definitions.map (some ∘ fragmentJson)
  ids : ∀ r ∈ requests.flatMap fun r => r :: invocations r, ∃ c' j, c ≤ c' ∧
    r.getString "worker_id" = workerIdOf (directId pipelineId c') j
  ids_nodup : ((requests.flatMap fun r => r :: invocations r).map fun r =>
    r.getString "worker_id").Nodup

/-- No definitions need no requests. -/
lemma Covers.nil {count c : ℕ} : Covers [] pipelineId count c ([] : List (JsonValue R)) where
  isRequest r hr := by cases hr
  length_le m _ := Nat.zero_le m
  first := rfl
  ids r hr := by cases hr
  ids_nodup := List.nodup_nil

/-- A request for the next batch. -/
lemma Covers.cons {count c : ℕ} {r : JsonValue R} {rs : List (JsonValue R)}
    (hne : definitions ≠ []) (hcount : 0 < count)
    (hr : IsRequest r (directId pipelineId c) (definitions.take count))
    (h : Covers (definitions.drop count) pipelineId count (c + 1) rs) :
    Covers definitions pipelineId count c (r :: rs) := by
  have htake : definitions.take count ≠ [] := by
    intro hnil
    rcases List.take_eq_nil_iff.mp hnil with hzero | hnil
    · exact absurd hzero (Nat.ne_of_gt hcount)
    · exact hne hnil
  obtain ⟨hfirst, hids⟩ := hr.cons_invocations htake
  refine ⟨?_, ?_, ?_, ?_, ?_⟩
  · intro r' hr'
    rcases List.mem_cons.mp hr' with rfl | hr'
    · exact ⟨c, _, le_rfl, htake, hr⟩
    · obtain ⟨c', batch, hle, hbatch, hrequest⟩ := h.isRequest r' hr'
      exact ⟨c', batch, by omega, hbatch, hrequest⟩
  · intro m hm
    have hpos : 0 < definitions.length := List.length_pos_of_ne_nil hne
    obtain ⟨m, rfl⟩ : ∃ m', m = m' + 1 := by
      refine Nat.exists_eq_add_one.mpr (Nat.pos_of_ne_zero ?_)
      rintro rfl
      omega
    rw [Nat.succ_mul] at hm
    exact Nat.succ_le_succ (h.length_le m (by rw [List.length_drop]; omega))
  · rw [List.flatMap_cons, List.map_append, hfirst, h.first, ← List.map_append,
      List.take_append_drop]
  · intro r' hr'
    rw [List.flatMap_cons] at hr'
    rcases List.mem_append.mp hr' with hr' | hr'
    · have hid := List.mem_map_of_mem (f := fun r => r.getString "worker_id") hr'
      rw [hids] at hid
      obtain ⟨j, -, hj⟩ := List.mem_map.mp hid
      exact ⟨c, j, le_rfl, hj.symm⟩
    · obtain ⟨c', j, hle, hid⟩ := h.ids r' hr'
      exact ⟨c', j, by omega, hid⟩
  · rw [List.flatMap_cons, List.map_append, hids]
    refine List.Nodup.append ?_ h.ids_nodup ?_
    · refine List.nodup_range.map ?_
      intro j j' hj
      exact (workerIdOf_inj hj).2
    · -- later requests have later numbers
      intro id hid hid'
      obtain ⟨j, -, rfl⟩ := List.mem_map.mp hid
      obtain ⟨r', hr', heq⟩ := List.mem_map.mp hid'
      obtain ⟨c', j', hle, hid'⟩ := h.ids r' hr'
      have hc := (workerIdOf_inj (heq.symm.trans hid')).1
      omega

lemma invokeWorkers_covers (i c : ℕ) (requestBody : JsonValue R)
    (htemplate : requestBody.keyExists "pqp_pipeline_template")
    (hwarmup : requestBody.find "warmup" = none) :
    Covers (definitions.drop i) pipelineId (fragmentsPerWorkerCount definitions.length) c
      (invokeWorkers definitions pipelineId queueUrl i c requestBody) := by
  rw [invokeWorkers]
  split
  · next hlt =>
    have hpos := fragmentsPerWorkerCount_pos (Nat.zero_lt_of_lt hlt)
    refine Covers.cons ?_ hpos ?_ ?_
    · intro hnil
      exact absurd (List.drop_eq_nil_iff.mp hnil) (Nat.not_le_of_lt hlt)
    · refine ⟨?_, ?_, ?_, ?_⟩
      · simp [getString, getObject, asString, directId]
      · rw [reduceOption_fragmentArray]
        simp [getArray, getObject, asArray]
      · rw [keyExists] at htemplate
        simp [keyExists, htemplate]
      · simpa using hwarmup
    · rw [List.drop_drop]
      refine invokeWorkers_covers _ _ _ ?_ ?_
      · simpa [keyExists] using htemplate
      · simpa using hwarmup
  · next hge =>
    rw [List.drop_eq_nil_of_le (Nat.le_of_not_lt hge)]
    exact Covers.nil
termination_by definitions.length - i

/-- **Every fragment comes first in one request**, of a worker with an identifier of its own; the
coordinator invokes at most as many workers as its threshold, and these invoke the others. -/
theorem execute_distributes (template pipelineId queueUrl : Bytes)
    (definitions : List PipelineFragmentDefinition) :
    Distributes definitions (execute template pipelineId queueUrl definitions : List (JsonValue R)) := by
  have h := @invokeWorkers_covers _ definitions pipelineId
    queueUrl 0 0 ((empty : JsonValue R).withString "pqp_pipeline_template" template)
    (by simp [keyExists]) (by simp)
  rw [List.drop_zero, ← execute] at h
  generalize (execute template pipelineId queueUrl definitions : List (JsonValue R)) = requests at h
  have hsecond : ∀ r ∈ requests.flatMap invocations, ∃ workerId definition,
      IsRequest r workerId [definition] := by
    intro r hr
    obtain ⟨r₀, hr₀, hr⟩ := List.mem_flatMap.mp hr
    obtain ⟨c, batch, -, hne, hrequest⟩ := h.isRequest r₀ hr₀
    obtain ⟨definition, batch, rfl⟩ := List.exists_cons_of_ne_nil hne
    exact hrequest.invocations.forall_mem_right (P := fun r => ∃ workerId definition,
      IsRequest r workerId [definition]) (fun p _ r hr => ⟨_, _, hr⟩) r hr
  have hperm : (requests ++ requests.flatMap invocations).Perm
      (requests.flatMap fun r => r :: invocations r) := by
    have happend := List.flatMap_append_perm requests (fun r => [r]) invocations
    rwa [List.flatMap_singleton'] at happend
  refine ⟨?_, ?_, ?_, ?_, ?_⟩
  · exact h.length_le _ (fragmentsPerWorkerCount_bounds _)
  · intro n
    have htwo : generation requests 2 = [] := by
      refine List.flatMap_eq_nil_iff.mpr ?_
      intro r hr
      obtain ⟨workerId, definition, hrequest⟩ := hsecond r hr
      exact hrequest.invocations_eq_nil
    induction n with
    | zero => exact htwo
    | succ n ih =>
      rw [generation, ih]
      rfl
  · exact (hperm.map _).trans (List.Perm.of_eq h.first)
  · intro r hr
    rcases List.mem_append.mp hr with hr | hr
    · obtain ⟨c, batch, -, hne, hrequest⟩ := h.isRequest r hr
      obtain ⟨definition, batch, rfl⟩ := List.exists_cons_of_ne_nil hne
      refine ⟨_, definition, ?_, hrequest.takeRequest⟩
      rw [hrequest.definitions]
      rfl
    · obtain ⟨workerId, definition, hrequest⟩ := hsecond r hr
      refine ⟨_, definition, ?_, hrequest.takeRequest⟩
      rw [hrequest.definitions]
      rfl
  · exact (hperm.map _).nodup_iff.mpr h.ids_nodup

end WorkerRequests

end Skyrise
