/-
Batches of DynamoDB items.

Items are read and written in batches of bounded size.  The service may process a part of a
batch only and returns the rest as unprocessed, without an error.  Reading asks for the rest
again until nothing is left; writing does not look at it.
-/
import Mathlib.Data.List.Count
import Mathlib.Data.List.Range
import Skyrise.Utils.Assert

namespace Skyrise

/-! ### Batches -/

/-- The loop over the starts of batches: the elements from every start on, up to the limit. -/
def batches {α : Type} (limit : ℕ) (l : List α) : List (List α) :=
  (List.range ((l.length + limit - 1) / limit)).map fun batch =>
    (l.drop (batch * limit)).take limit

section Batches

variable {α : Type} {limit : ℕ}

/-- The first batches have the first elements. -/
lemma flatten_batches_take (limit : ℕ) (l : List α) (n : ℕ) :
    ((List.range n).map fun batch => (l.drop (batch * limit)).take limit).flatten =
      l.take (n * limit) := by
  induction n with
  | zero => rw [Nat.zero_mul, List.take_zero]; rfl
  | succ n ih =>
    rw [List.range_succ, List.map_append, List.flatten_append, ih, Nat.succ_mul, List.take_add]
    simp

/-- The batches have all elements in their order. -/
lemma flatten_batches (hlimit : 0 < limit) (l : List α) : (batches limit l).flatten = l := by
  rw [batches, flatten_batches_take, List.take_of_length_le]
  have hlt := Nat.lt_div_mul_add hlimit (a := l.length + limit - 1)
  omega

/-- A batch has elements, but not more than the limit. -/
lemma length_of_mem_batches (hlimit : 0 < limit) {l batch : List α} (h : batch ∈ batches limit l) :
    batch ≠ [] ∧ batch.length ≤ limit := by
  obtain ⟨n, hn, rfl⟩ := List.mem_map.mp h
  refine ⟨?_, List.length_take_le _ _⟩
  have hlt : n * limit < l.length := by
    have hn := List.mem_range.mp hn
    rw [Nat.lt_div_iff_mul_lt hlimit] at hn
    omega
  rw [← List.length_pos_iff, List.length_take, List.length_drop]
  omega

end Batches

/-! ### The service -/

/-- The outcome of a batch call. -/
structure BatchOutcome (α β : Type) where
  /-- The message of the error, if the call was not a success. -/
  error : Option String := none
  /-- The items that were found. -/
  items : List α := []
  /-- What was not processed. -/
  unprocessed : List β := []

/-- `IsSuccess`. -/
def BatchOutcome.isSuccess {α β : Type} (outcome : BatchOutcome α β) : Bool := outcome.error.isNone

/-- The items of a table.  An item has its key. -/
structure DynamoDbTable (κ ι : Type) where
  item : κ → Option ι
  keyOf : ι → κ
  keyOf_item : ∀ key i, item key = some i → keyOf i = key

namespace DynamoDb

variable {κ ι : Type}

/-- `kDynamoDbBatchGetItemLimit`. -/
def kBatchGetItemLimit : ℕ := 100

/-- `kDynamoDbBatchWriteItemLimit`. -/
def kBatchWriteItemLimit : ℕ := 25

/-- What the service answers to a call, after a number of calls. -/
abbrev GetService (κ ι : Type) : Type := ℕ → List κ → BatchOutcome ι κ

/-- What the service writes at a call, after a number of calls, and what it answers. -/
abbrev WriteService (ι : Type) : Type := ℕ → List ι → List ι × BatchOutcome Unit ι

/-- The service finds the items of some keys of each batch, of which there is at least one, and
returns the others as unprocessed. -/
def ProcessesGets (table : DynamoDbTable κ ι) (service : GetService κ ι) : Prop :=
  ∀ calls keys, keys ≠ [] → (service calls keys).error = none ∧ ∃ processed, processed ≠ [] ∧
    (processed ++ (service calls keys).unprocessed).Perm keys ∧
      (service calls keys).items.Perm (processed.filterMap table.item)

/-- The service writes some items of each batch, of which there is at least one, and returns the
others as unprocessed. -/
def ProcessesWrites (service : WriteService ι) : Prop :=
  ∀ calls items, items ≠ [] → (service calls items).2.error = none ∧ (service calls items).1 ≠ [] ∧
    ((service calls items).1 ++ (service calls items).2.unprocessed).Perm items

/-! ### Reading -/

/-- `DebugAssert(outcome.IsSuccess(), ...)`, which is there in a debug build only. -/
def failure {α β : Type} (isDebug : Bool) (outcome : BatchOutcome α β) : Option Exception :=
  if isDebug then outcome.error.map .assertionFailed else none

/-- `BatchGetItem`, with a bound for the depth of its recursion. -/
def batchGetItem (isDebug : Bool) (service : GetService κ ι) :
    ℕ → List κ → List (BatchOutcome ι κ) → Option (Except Exception (List (BatchOutcome ι κ)))
  | 0, _, _ => none
  | depth + 1, itemKeys, outcomes =>
    let outcome := service outcomes.length itemKeys
    match failure isDebug outcome with
    | some e => some (.error e)
    | none =>
      let outcomes := outcomes ++ [outcome]
      if outcome.unprocessed.isEmpty then some (.ok outcomes)
      else batchGetItem isDebug service depth outcome.unprocessed outcomes

/-- The loop of `GetDynamoDbItems`. -/
def getBatches (isDebug : Bool) (service : GetService κ ι) (depth : ℕ) :
    List (List κ) → List (BatchOutcome ι κ) → Option (Except Exception (List (BatchOutcome ι κ)))
  | [], outcomes => some (.ok outcomes)
  | keys :: rest, outcomes =>
    match batchGetItem isDebug service depth keys outcomes with
    | some (.ok outcomes) => getBatches isDebug service depth rest outcomes
    | failed => failed

/-- `GetDynamoDbItems`. -/
def getDynamoDbItems (isDebug : Bool) (service : GetService κ ι) (depth : ℕ) (itemKeys : List κ) :
    Option (Except Exception (List (BatchOutcome ι κ))) :=
  getBatches isDebug service depth (batches kBatchGetItemLimit itemKeys) []

/-! ### Writing -/

/-- The loop of `WriteDynamoDbItems`: the outcomes or what was thrown, and what was written. -/
def writeBatches (isDebug : Bool) (service : WriteService ι) :
    List (List ι) → List (BatchOutcome Unit ι) → List ι →
      Except Exception (List (BatchOutcome Unit ι)) × List ι
  | [], outcomes, written => (.ok outcomes, written)
  | writeRequests :: rest, outcomes, written =>
    let (processed, outcome) := service outcomes.length writeRequests
    let outcomes := outcomes ++ [outcome]
    match failure isDebug outcome with
    | some e => (.error e, written ++ processed)
    | none => writeBatches isDebug service rest outcomes (written ++ processed)

/-- `WriteDynamoDbItems`. -/
def writeDynamoDbItems (isDebug : Bool) (service : WriteService ι) (items : List ι) :
    Except Exception (List (BatchOutcome Unit ι)) × List ι :=
  writeBatches isDebug service (batches kBatchWriteItemLimit items) [] []

/-! ### What is read and written -/

section

variable {table : DynamoDbTable κ ι} {getService : GetService κ ι} {writeService : WriteService ι}
  {isDebug : Bool}

/-- A batch is read until nothing of it is left. -/
lemma batchGetItem_spec (isDebug : Bool) (h : ProcessesGets table getService) {depth : ℕ}
    {itemKeys : List κ} (hkeys : itemKeys ≠ []) (hdepth : itemKeys.length ≤ depth)
    (outcomes : List (BatchOutcome ι κ)) : ∃ more,
      batchGetItem isDebug getService depth itemKeys outcomes = some (.ok (outcomes ++ more)) ∧
        (more.flatMap BatchOutcome.items).Perm (itemKeys.filterMap table.item) := by
  induction depth generalizing itemKeys outcomes with
  | zero => exact absurd (List.length_eq_zero_iff.mp (Nat.le_zero.mp hdepth)) hkeys
  | succ depth ih =>
    obtain ⟨herror, processed, hprocessed, hperm, hitems⟩ := h outcomes.length itemKeys hkeys
    have hfailure : failure isDebug (getService outcomes.length itemKeys) = none := by
      rw [failure, herror]
      exact ite_self none
    rw [batchGetItem]
    simp only [hfailure]
    by_cases hrest : (getService outcomes.length itemKeys).unprocessed = []
    · refine ⟨[getService outcomes.length itemKeys], ?_, ?_⟩
      · rw [hrest]
        rfl
      · rw [hrest, List.append_nil] at hperm
        rw [List.flatMap_singleton]
        exact hitems.trans (hperm.filterMap _)
    · -- some key was processed, so that fewer are left
      have hless : (getService outcomes.length itemKeys).unprocessed.length ≤ depth := by
        have hlength := hperm.length_eq
        have hpos := List.length_pos_iff.mpr hprocessed
        rw [List.length_append] at hlength
        omega
      obtain ⟨more, hmore, hmoreItems⟩ :=
        ih hrest hless (outcomes ++ [getService outcomes.length itemKeys])
      refine ⟨getService outcomes.length itemKeys :: more, ?_, ?_⟩
      · rw [if_neg (by rwa [List.isEmpty_iff]), hmore, List.append_assoc]
        rfl
      · rw [List.flatMap_cons]
        refine (hitems.append hmoreItems).trans ?_
        rw [← List.filterMap_append]
        exact hperm.filterMap _

lemma getBatches_spec (isDebug : Bool) (h : ProcessesGets table getService) {depth : ℕ}
    {parts : List (List κ)}
    (hparts : ∀ keys ∈ parts, keys ≠ [] ∧ keys.length ≤ depth)
    (outcomes : List (BatchOutcome ι κ)) : ∃ more,
      getBatches isDebug getService depth parts outcomes = some (.ok (outcomes ++ more)) ∧
        (more.flatMap BatchOutcome.items).Perm (parts.flatten.filterMap table.item) := by
  induction parts generalizing outcomes with
  | nil => exact ⟨[], by rw [getBatches, List.append_nil], .nil⟩
  | cons keys parts ih =>
    obtain ⟨⟨hkeys, hdepth⟩, hparts⟩ := List.forall_mem_cons.mp hparts
    obtain ⟨first, hfirst, hfirstItems⟩ :=
      batchGetItem_spec isDebug h hkeys hdepth outcomes
    obtain ⟨more, hmore, hmoreItems⟩ := ih hparts (outcomes ++ first)
    refine ⟨first ++ more, ?_, ?_⟩
    · rw [getBatches, hfirst]
      exact hmore.trans (by rw [List.append_assoc])
    · rw [List.flatMap_append, List.flatten_cons, List.filterMap_append]
      exact hfirstItems.append hmoreItems

/-- **All items of the keys are read**, the item of a key as often as that is requested. -/
lemma getDynamoDbItems_spec (isDebug : Bool) (h : ProcessesGets table getService) {depth : ℕ}
    (hdepth : kBatchGetItemLimit ≤ depth) (itemKeys : List κ) : ∃ outcomes,
      getDynamoDbItems isDebug getService depth itemKeys = some (.ok outcomes) ∧
        (outcomes.flatMap BatchOutcome.items).Perm (itemKeys.filterMap table.item) := by
  have hpos : 0 < kBatchGetItemLimit := by decide
  obtain ⟨outcomes, hread, hitems⟩ := getBatches_spec isDebug h
    (fun keys (hkeys : keys ∈ batches kBatchGetItemLimit itemKeys) => ⟨(length_of_mem_batches hpos hkeys).1,
      (length_of_mem_batches hpos hkeys).2.trans hdepth⟩) []
  rw [flatten_batches hpos] at hitems
  exact ⟨outcomes, hread, hitems⟩

/-- An item is found as often as its key is requested. -/
lemma count_filterMap_item [DecidableEq κ] [DecidableEq ι] {key : κ} {i : ι}
    (hi : table.item key = some i) (itemKeys : List κ) :
    (itemKeys.filterMap table.item).count i = itemKeys.count key := by
  induction itemKeys with
  | nil => rfl
  | cons key' itemKeys ih =>
    rcases eq_or_ne key' key with rfl | hne
    · rw [List.filterMap_cons_some hi, List.count_cons_self, List.count_cons_self, ih]
    · rw [List.count_cons_of_ne hne, ← ih]
      cases hitem : table.item key' with
      | none => rw [List.filterMap_cons_none hitem]
      | some i' =>
        rw [List.filterMap_cons_some hitem, List.count_cons_of_ne]
        rintro rfl
        exact hne ((table.keyOf_item key' i' hitem).symm.trans (table.keyOf_item key i' hi))

/-- What is written of the batches, from a number of calls on. -/
lemma writeBatches_spec (isDebug : Bool) (h : ProcessesWrites writeService)
    {parts : List (List ι)}
    (hparts : ∀ requests ∈ parts, requests ≠ []) (outcomes : List (BatchOutcome Unit ι))
    (houtcomes : ∀ outcome ∈ outcomes, outcome.error = none) (written : List ι) :
    ∃ more processed, writeBatches isDebug writeService parts outcomes written =
        (.ok (outcomes ++ more), written ++ processed) ∧
      (∀ outcome ∈ outcomes ++ more, outcome.error = none) ∧
        (processed ++ more.flatMap BatchOutcome.unprocessed).Perm parts.flatten ∧
          more = (parts.zipIdx outcomes.length).map fun part =>
            (writeService part.2 part.1).2 := by
  induction parts generalizing outcomes written with
  | nil =>
    exact ⟨[], [], by rw [writeBatches, List.append_nil, List.append_nil],
      by rwa [List.append_nil], .nil, rfl⟩
  | cons requests parts ih =>
    obtain ⟨hrequests, hparts⟩ := List.forall_mem_cons.mp hparts
    obtain ⟨herror, -, hperm⟩ := h outcomes.length requests hrequests
    have hfailure : failure isDebug (writeService outcomes.length requests).2 = none := by
      rw [failure, herror]
      exact ite_self none
    obtain ⟨more, processed, hrun, hsuccess, hrest, hmore⟩ :=
      ih hparts (outcomes ++ [(writeService outcomes.length requests).2])
        (List.forall_mem_append.mpr ⟨houtcomes, by simpa using herror⟩)
        (written ++ (writeService outcomes.length requests).1)
    refine ⟨(writeService outcomes.length requests).2 :: more,
      (writeService outcomes.length requests).1 ++ processed, ?_, ?_, ?_, ?_⟩
    · rw [writeBatches]
      simp only [hfailure]
      rw [hrun, List.append_assoc, List.append_assoc]
      rfl
    · rw [List.append_assoc] at hsuccess
      exact hsuccess
    · rw [List.flatMap_cons, List.flatten_cons]
      refine List.Perm.trans ?_ (hperm.append hrest)
      rw [List.append_assoc, List.append_assoc]
      refine List.Perm.append_left _ ?_
      rw [← List.append_assoc, ← List.append_assoc]
      exact List.perm_append_comm.append_right _
    · rw [List.zipIdx_cons, List.map_cons, hmore, List.length_append, List.length_singleton]

/-! ### Complete batches -/

/-- Reading returns, with the item of every key that has one exactly once. -/
def GetsComplete [DecidableEq ι] (table : DynamoDbTable κ ι)
    (result : Option (Except Exception (List (BatchOutcome ι κ)))) (itemKeys : List κ) : Prop :=
  ∃ outcomes, result = some (.ok outcomes) ∧ ∀ key ∈ itemKeys, ∀ i, table.item key = some i →
    (outcomes.flatMap BatchOutcome.items).count i = 1

/-- Writing reports an error, by an exception or an outcome, or every item was written. -/
def WritesComplete (result : Except Exception (List (BatchOutcome Unit ι)) × List ι)
    (items : List ι) : Prop :=
  (∀ outcomes, result.1 = .ok outcomes → ∃ outcome ∈ outcomes, outcome.isSuccess = false) ∨
    result.2.Perm items

/-- The service processes every batch of items as a whole. -/
def ProcessesWholeBatches (service : WriteService ι) (items : List ι) : Prop :=
  ∀ part ∈ (batches kBatchWriteItemLimit items).zipIdx,
    (service part.2 part.1).2.unprocessed = []

/-- **Reading returns the item of every key once if and only if no key with an item is requested
twice, and writing writes all items or reports an error if and only if the service processes every
batch as a whole.** -/
theorem batches_complete_iff [DecidableEq κ] [DecidableEq ι] (isDebug : Bool)
    (hget : ProcessesGets table getService) (hwrite : ProcessesWrites writeService)
    (itemKeys : List κ) (items : List ι) {depth : ℕ} (hdepth : kBatchGetItemLimit ≤ depth) :
    (GetsComplete table (getDynamoDbItems isDebug getService depth itemKeys) itemKeys ↔
      ∀ key ∈ itemKeys, (table.item key).isSome → itemKeys.count key = 1) ∧
    (WritesComplete (writeDynamoDbItems isDebug writeService items) items ↔
      ProcessesWholeBatches writeService items) := by
  constructor
  · obtain ⟨outcomes, hread, hitems⟩ :=
      getDynamoDbItems_spec isDebug hget hdepth itemKeys
    have hcount : ∀ key i, table.item key = some i →
        (outcomes.flatMap BatchOutcome.items).count i = itemKeys.count key := fun key i hi =>
      (hitems.count_eq i).trans (count_filterMap_item hi itemKeys)
    constructor
    · rintro ⟨outcomes', hread', hone⟩ key hkey hsome
      obtain rfl := Except.ok.inj (Option.some.inj (hread.symm.trans hread'))
      obtain ⟨i, hi⟩ := Option.isSome_iff_exists.mp hsome
      rw [← hcount key i hi]
      exact hone key hkey i hi
    · intro hone
      refine ⟨outcomes, hread, fun key hkey i hi => ?_⟩
      rw [hcount key i hi]
      exact hone key hkey (by rw [hi]; rfl)
  · have hpos : 0 < kBatchWriteItemLimit := by decide
    obtain ⟨more, processed, hrun, hsuccess, hperm, hmore⟩ :=
      writeBatches_spec isDebug hwrite
        (fun requests (hrequests : requests ∈ batches kBatchWriteItemLimit items) =>
          (length_of_mem_batches hpos hrequests).1) []
        (fun _ hmem => absurd hmem List.not_mem_nil) []
    rw [flatten_batches hpos] at hperm
    rw [List.nil_append] at hrun hsuccess
    rw [writeDynamoDbItems, hrun]
    have hunprocessed : ProcessesWholeBatches writeService items ↔
        more.flatMap BatchOutcome.unprocessed = [] := by
      rw [hmore, List.flatMap_map, List.flatMap_eq_nil_iff]
      exact Iff.rfl
    rw [hunprocessed]
    constructor
    · rintro (hreports | hall)
      · obtain ⟨outcome, houtcome, hfails⟩ := hreports more rfl
        rw [BatchOutcome.isSuccess, hsuccess outcome houtcome] at hfails
        cases hfails
      · have hlength := hperm.length_eq
        rw [List.length_append, (show processed.Perm items from hall).length_eq] at hlength
        exact List.length_eq_zero_iff.mp (by omega)
    · intro hnone
      rw [hnone, List.append_nil] at hperm
      exact .inr hperm

end

/-! ### A service under load -/

/-- Items that are their keys. -/
def numbers : DynamoDbTable ℕ ℕ := ⟨some, id, fun _ _ h => (Option.some.inj h).symm⟩

/-- A service that finds one item of each batch. -/
def getOne : GetService ℕ ℕ := fun _ keys => { items := keys.take 1, unprocessed := keys.drop 1 }

/-- A service that writes one item of each batch. -/
def writeOne : WriteService ℕ := fun _ items =>
  (items.take 1, { unprocessed := items.drop 1 })

lemma processesGets_getOne : ProcessesGets numbers getOne := by
  intro calls keys hkeys
  refine ⟨rfl, keys.take 1, ?_, ?_, ?_⟩
  · cases keys with
    | nil => exact absurd rfl hkeys
    | cons key keys => exact List.cons_ne_nil _ _
  · exact .of_eq (List.take_append_drop 1 keys)
  · exact .of_eq (List.filterMap_some).symm

lemma processesWrites_writeOne : ProcessesWrites writeOne := by
  intro calls items hitems
  refine ⟨rfl, ?_, .of_eq (List.take_append_drop 1 items)⟩
  cases items with
  | nil => exact absurd rfl hitems
  | cons item items => exact List.cons_ne_nil _ _

/-- Two keys, of which the service finds one at a time, and one item. -/
theorem batches_complete_iff_two :
    GetsComplete numbers (getDynamoDbItems true getOne 100 [1, 2]) [1, 2] ∧
      WritesComplete (writeDynamoDbItems true writeOne [1]) [1] := by
  obtain ⟨hget, hwrite⟩ := batches_complete_iff true processesGets_getOne processesWrites_writeOne
    [1, 2] [1] (show kBatchGetItemLimit ≤ 100 from le_refl _)
  refine ⟨hget.mpr fun key hkey _ => ?_, hwrite.mpr fun part hpart => ?_⟩
  · rcases List.mem_cons.mp hkey with rfl | hkey
    · rfl
    · obtain rfl := List.mem_singleton.mp hkey
      rfl
  · have hbatches : (batches kBatchWriteItemLimit [1]).zipIdx = [([1], 0)] := by decide
    rw [hbatches, List.mem_singleton] at hpart
    rw [hpart]
    rfl

/-- Of two items one is written, and no error is reported. -/
theorem not_batches_complete : ¬ ∀ (getService : GetService ℕ ℕ) (writeService : WriteService ℕ)
    (isDebug : Bool) (itemKeys items : List ℕ) (depth : ℕ), ProcessesGets numbers getService →
      ProcessesWrites writeService → kBatchGetItemLimit ≤ depth →
        GetsComplete numbers (getDynamoDbItems isDebug getService depth itemKeys) itemKeys ∧
          WritesComplete (writeDynamoDbItems isDebug writeService items) items := by
  intro hclaim
  rcases (hclaim getOne writeOne true [] [1, 2] 100 processesGets_getOne processesWrites_writeOne
    (le_refl _)).2 with hreports | hall
  · obtain ⟨outcome, houtcome, hfails⟩ := hreports [{ unprocessed := [2] }] rfl
    rw [List.mem_singleton.mp houtcome] at hfails
    cases hfails
  · exact absurd hall.length_eq (by decide)

end DynamoDb

end Skyrise
