/-
The results of the groups.

The results of an aggregate are kept in a vector, and the key of a row leads to the index
of its result: it is looked up, or the key itself holds it.  Either way the rows are
numbered, and a result is what is aggregated of the rows with its index, also where the
vector has results that belong to no group.
-/
import Skyrise.Operator.Aggregate.AggregateKey
import Skyrise.Operator.Aggregate.AggregateFunction
import Mathlib.Algebra.Order.BigOperators.Group.List

namespace Skyrise

variable {R : Type}

/-- `AggregateResult`.  A result without a row is no result of a group. -/
structure AggregateResult (R : Type) extends AggregateValue R where
  rowId : Option RowId
deriving DecidableEq, Repr

/-- An `AggregateContext`: the results of the groups for one aggregate, and where they are. -/
structure AggregateContext (R : Type) where
  /-- What a new result starts with. -/
  start : AggregateValue R
  resultIds : List (AggregateKey × ℕ)
  results : List (AggregateResult R)
deriving Repr

namespace AggregateContext

/-- `results_.resize`, if there are fewer results. -/
def resize (context : AggregateContext R) (size : ℕ) : AggregateContext R :=
  { context with results := context.results ++
      List.replicate (size - context.results.length) ⟨context.start, none⟩ }

/-- The row of a result. -/
def setRowId (context : AggregateContext R) (resultId : ℕ) (rowId : RowId) : AggregateContext R :=
  { context with results := context.results.modify resultId fun r => { r with rowId := some rowId } }

/-- A new result with a row. -/
def addResult (context : AggregateContext R) (rowId : RowId) : AggregateContext R :=
  { context with results := context.results ++ [⟨context.start, some rowId⟩] }

/-- An update of a result. -/
def updateResult (context : AggregateContext R) (resultId : ℕ)
    (update : AggregateValue R → Except Exception (AggregateValue R)) :
    Except Exception (AggregateContext R) :=
  match context.results[resultId]? with
  | none => .error .undefinedBehavior
  | some r => do
    let s ← update r.toAggregateValue
    return { context with results := context.results.set resultId { r with toAggregateValue := s } }

/-- The rows of the results, without those of no group. -/
def positionList (context : AggregateContext R) : List RowId :=
  context.results.filterMap AggregateResult.rowId

end AggregateContext

/-- `GetOrAddResult`: the index of the result of a row, the key of the row afterwards, and the
results. -/
def getOrAddResult (cacheResultIds : Bool) (context : AggregateContext R) (key : AggregateKey)
    (rowId : RowId) : Except Exception (ℕ × AggregateKey × AggregateContext R) :=
  match key.firstKeyEntry with
  | none =>
    if context.results.isEmpty then .ok (0, key, context.addResult rowId)
    else .ok (context.results.length - 1, key, context)
  | some (.cached resultId) =>
    if cacheResultIds then
      let context := if context.results.length ≤ resultId then
        context.resize ((resultId + 1) * 3 / 2) else context
      .ok (resultId, key, context.setRowId resultId rowId)
    else .error (.assertionFailed
      "CacheResultIds is set to false, but a cached or immediate key shortcut entry was found.")
  | some (.id _) =>
    let cached (resultId : ℕ) :=
      if cacheResultIds then key.setFirstKeyEntry (.cached resultId) else key
    match context.resultIds.lookup key with
    | some resultId => .ok (resultId, cached resultId, context)
    | none =>
      let resultId := context.results.length
      .ok (resultId, cached resultId,
        { context.addResult rowId with resultIds := (key, resultId) :: context.resultIds })

/-- One row after the other: the result of its group is looked up and updated. -/
def aggregateRows (cacheResultIds : Bool)
    (update : RowId → AggregateValue R → Except Exception (AggregateValue R)) :
    List (AggregateKey × RowId) → AggregateContext R →
      Except Exception (List (AggregateKey × RowId) × AggregateContext R)
  | [], context => .ok ([], context)
  | (key, rowId) :: rows, context => do
    let (resultId, key, context) ← getOrAddResult cacheResultIds context key rowId
    let context ← context.updateResult resultId (update rowId)
    let (rows, context) ← aggregateRows cacheResultIds update rows context
    return ((key, rowId) :: rows, context)

/-! ### Numbers of rows -/

/-- The row that a result keeps of the rows of its group: the first one if keys are looked up, and
the last one if they are indexes. -/
def KeyKind.pickRow : KeyKind → List RowId → Option RowId
  | .cached, rows => rows.getLast?
  | _, rows => rows.head?

/-- The index of the result for a key, and the indexes of the keys afterwards. -/
def resultIdOf (size : ℕ) (ids : List (AggregateKey × ℕ)) (key : AggregateKey) :
    ℕ × List (AggregateKey × ℕ) :=
  match key.firstKeyEntry with
  | none => (0, ids)
  | some (.cached resultId) => (resultId, ids)
  | some (.id _) =>
    match ids.lookup key with
    | some resultId => (resultId, ids)
    | none => (size + ids.length, (key, size + ids.length) :: ids)

/-- The rows with the indexes of their results, and the indexes of the keys afterwards. -/
def numberRows (size : ℕ) : List (AggregateKey × ℕ) → List (AggregateKey × RowId) →
    List (ℕ × RowId) × List (AggregateKey × ℕ)
  | ids, [] => ([], ids)
  | ids, (key, rowId) :: rows =>
    let (resultId, ids) := resultIdOf size ids key
    let (numbered, ids) := numberRows size ids rows
    ((resultId, rowId) :: numbered, ids)

/-- The rows with an index. -/
def rowsOfResult (done : List (ℕ × RowId)) (resultId : ℕ) : List RowId :=
  (done.filter fun d => d.1 = resultId).map Prod.snd

lemma rowsOfResult_append (done done' : List (ℕ × RowId)) (resultId : ℕ) :
    rowsOfResult (done ++ done') resultId = rowsOfResult done resultId ++ rowsOfResult done' resultId := by
  simp [rowsOfResult]

lemma rowsOfResult_singleton_self (resultId : ℕ) (rowId : RowId) :
    rowsOfResult [(resultId, rowId)] resultId = [rowId] := by
  simp [rowsOfResult]

lemma rowsOfResult_singleton_of_ne {resultId i : ℕ} (h : i ≠ resultId) (rowId : RowId) :
    rowsOfResult [(resultId, rowId)] i = [] := by
  simp [rowsOfResult, h.symm]

lemma rowsOfResult_eq_nil_iff {done : List (ℕ × RowId)} {resultId : ℕ} :
    rowsOfResult done resultId = [] ↔ ∀ d ∈ done, d.1 ≠ resultId := by
  simp [rowsOfResult]

lemma KeyKind.isSome_pickRow (kind : KeyKind) (rows : List RowId) :
    (kind.pickRow rows).isSome = !rows.isEmpty := by
  cases kind <;> cases rows <;> simp [pickRow]

/-- What is aggregated of the rows of an index. -/
def aggregated (g : RowId → AggregateValue R → AggregateValue R) (start : AggregateValue R)
    (rows : List RowId) : AggregateValue R :=
  rows.foldl (fun s rowId => g rowId s) start

/-- The results of rows that have been numbered. -/
structure HasResults (kind : KeyKind) (g : RowId → AggregateValue R → AggregateValue R)
    (start : AggregateValue R) (results : List (AggregateResult R)) (done : List (ℕ × RowId)) :
    Prop where
  lt : ∀ d ∈ done, d.1 < results.length
  eq : ∀ i r, results[i]? = some r → r.toAggregateValue = aggregated g start (rowsOfResult done i) ∧
    r.rowId = kind.pickRow (rowsOfResult done i)

section

variable {kind : KeyKind} {g : RowId → AggregateValue R → AggregateValue R} {size : ℕ}
  {start : AggregateValue R} {results : List (AggregateResult R)} {done : List (ℕ × RowId)}
  {context : AggregateContext R} {resultId : ℕ} {rowId : RowId}
  {update : RowId → AggregateValue R → Except Exception (AggregateValue R)}

lemma HasResults.append_empty (h : HasResults kind g start results done) (n : ℕ) :
    HasResults kind g start (results ++ List.replicate n ⟨start, none⟩) done := by
  refine ⟨fun d hd => ?_, fun i r hr => ?_⟩
  · have := h.lt d hd
    rw [List.length_append]
    omega
  · rcases lt_or_ge i results.length with hi | hi
    · rw [List.getElem?_append_left hi] at hr
      exact h.eq i r hr
    · rw [List.getElem?_append_right hi] at hr
      obtain rfl := (List.mem_replicate.mp (List.mem_of_getElem? hr)).2
      have hnil : rowsOfResult done i = [] :=
        rowsOfResult_eq_nil_iff.mpr fun d hd => ((h.lt d hd).trans_le hi).ne
      rw [hnil]
      cases kind <;> exact ⟨rfl, rfl⟩

/-- The results once the result for a row is there, and keeps the row if it is to. -/
structure Located (kind : KeyKind) (g : RowId → AggregateValue R → AggregateValue R)
    (start : AggregateValue R) (results : List (AggregateResult R)) (done : List (ℕ × RowId))
    (resultId : ℕ) (rowId : RowId) : Prop where
  lt : ∀ d ∈ done, d.1 < results.length
  resultId_lt : resultId < results.length
  eq : ∀ i r, results[i]? = some r → r.toAggregateValue = aggregated g start (rowsOfResult done i) ∧
    r.rowId = kind.pickRow (rowsOfResult (done ++ [(resultId, rowId)]) i)

/-- The update of the result. -/
lemma Located.updateResult (h : Located kind g start context.results done resultId rowId)
    (hupdate : ∀ s, update rowId s = .ok (g rowId s)) :
    ∃ results, context.updateResult resultId (update rowId) = .ok { context with results := results } ∧
      results.length = context.results.length ∧
      HasResults kind g start results (done ++ [(resultId, rowId)]) := by
  obtain ⟨r, hr⟩ : ∃ r, context.results[resultId]? = some r :=
    ⟨_, List.getElem?_eq_getElem h.resultId_lt⟩
  refine ⟨context.results.set resultId { r with toAggregateValue := g rowId r.toAggregateValue },
    ?_, List.length_set, ?_, ?_⟩
  · rw [AggregateContext.updateResult, hr]
    dsimp only
    rw [hupdate]
    rfl
  · intro d hd
    rw [List.length_set]
    rcases List.mem_append.mp hd with hd | hd
    · exact h.lt d hd
    · rw [List.mem_singleton.mp hd]
      exact h.resultId_lt
  · intro i r' hr'
    rw [rowsOfResult_append]
    by_cases hi : i = resultId
    · subst hi
      rw [List.getElem?_set_self h.resultId_lt] at hr'
      obtain rfl := Option.some.inj hr'
      obtain ⟨hvalue, hrow⟩ := h.eq i r hr
      rw [rowsOfResult_append] at hrow
      refine ⟨?_, hrow⟩
      dsimp only
      rw [hvalue, rowsOfResult_singleton_self, aggregated, aggregated, List.foldl_append]
      rfl
    · rw [List.getElem?_set_ne (Ne.symm hi)] at hr'
      obtain ⟨hvalue, hrow⟩ := h.eq i r' hr'
      rw [rowsOfResult_append] at hrow
      refine ⟨?_, hrow⟩
      rw [hvalue, rowsOfResult_singleton_of_ne hi, List.append_nil]

/-- What a context satisfies after some rows with keys of one kind. -/
structure Aggregated (size : ℕ) (kind : KeyKind) (g : RowId → AggregateValue R → AggregateValue R)
    (context : AggregateContext R) (done : List (ℕ × RowId)) (ids : List (AggregateKey × ℕ)) :
    Prop where
  hasResults : HasResults kind g context.start context.results done
  empty : kind = .empty → context.results.length = if done = [] then 0 else 1
  resultIds : kind = .hashed → context.resultIds = ids
  length : kind = .hashed → context.results.length = size + ids.length
  exists_row : kind = .hashed → ∀ key i, ids.lookup key = some i → ∃ d ∈ done, d.1 = i

/-- The key of a row after its result has been looked up. -/
def keyAfter (cacheResultIds : Bool) (key : AggregateKey) (resultId : ℕ) : AggregateKey :=
  if key.kind = .hashed ∧ cacheResultIds = true then key.setFirstKeyEntry (.cached resultId) else key


/-- A result that is there keeps the row of its group. -/
lemma HasResults.located_of_mem (h : HasResults kind g start results done) (hkind : kind ≠ .cached)
    (hmem : ∃ d ∈ done, d.1 = resultId) : Located kind g start results done resultId rowId := by
  obtain ⟨d, hd, rfl⟩ := hmem
  refine ⟨h.lt, h.lt d hd, fun i r hr => ?_⟩
  obtain ⟨hvalue, hrow⟩ := h.eq i r hr
  refine ⟨hvalue, ?_⟩
  rw [hrow, rowsOfResult_append]
  by_cases hi : i = d.1
  · have hne : rowsOfResult done i ≠ [] := fun hnil =>
      rowsOfResult_eq_nil_iff.mp hnil d hd hi.symm
    obtain ⟨first, rest, hrows⟩ := List.exists_cons_of_ne_nil hne
    rw [hrows]
    cases kind with
    | cached => exact absurd rfl hkind
    | empty => rfl
    | hashed => rfl
  · rw [rowsOfResult_singleton_of_ne hi, List.append_nil]

/-- A new result starts with the row. -/
lemma HasResults.located_addResult (h : HasResults kind g start results done)
    (hkind : kind ≠ .cached) : Located kind g start (results ++ [⟨start, some rowId⟩]) done
      results.length rowId := by
  refine ⟨fun d hd => ?_, by simp, fun i r hr => ?_⟩
  · have := h.lt d hd
    simp only [List.length_append, List.length_singleton]
    omega
  · rw [rowsOfResult_append]
    rcases lt_trichotomy i results.length with hi | rfl | hi
    · rw [List.getElem?_append_left hi] at hr
      rw [rowsOfResult_singleton_of_ne hi.ne, List.append_nil]
      exact h.eq i r hr
    · have hnil : rowsOfResult done results.length = [] :=
        rowsOfResult_eq_nil_iff.mpr fun d hd => (h.lt d hd).ne
      rw [List.getElem?_append_right le_rfl, Nat.sub_self] at hr
      obtain rfl := Option.some.inj hr
      rw [hnil, rowsOfResult_singleton_self]
      cases kind with
      | cached => exact absurd rfl hkind
      | empty => exact ⟨rfl, rfl⟩
      | hashed => exact ⟨rfl, rfl⟩
    · rw [List.getElem?_eq_none (by simp; omega)] at hr
      cases hr

/-- A result with a known index gets the row. -/
lemma HasResults.located_modify (h : HasResults .cached g start results done)
    (hlt : resultId < results.length) :
    Located .cached g start (results.modify resultId fun r => { r with rowId := some rowId }) done
      resultId rowId := by
  refine ⟨fun d hd => by rw [List.length_modify]; exact h.lt d hd,
    by rwa [List.length_modify], fun i r hr => ?_⟩
  rw [List.getElem?_modify] at hr
  obtain ⟨r', hr', heq⟩ := Option.map_eq_some_iff.mp hr
  obtain ⟨hvalue, hrow⟩ := h.eq i r' hr'
  rw [rowsOfResult_append]
  by_cases hi : resultId = i
  · subst hi
    rw [if_pos rfl] at heq
    subst heq
    rw [rowsOfResult_singleton_self]
    exact ⟨hvalue, by simp [KeyKind.pickRow]⟩
  · rw [if_neg hi] at heq
    obtain rfl : r' = r := heq
    rw [rowsOfResult_singleton_of_ne (Ne.symm hi), List.append_nil]
    exact ⟨hvalue, hrow⟩

/-- What a lookup leaves. -/
structure LookedUp (size : ℕ) (kind : KeyKind) (g : RowId → AggregateValue R → AggregateValue R)
    (start : AggregateValue R) (context : AggregateContext R) (done : List (ℕ × RowId))
    (ids : List (AggregateKey × ℕ)) (resultId : ℕ) (rowId : RowId) : Prop where
  start_eq : context.start = start
  located : Located kind g start context.results done resultId rowId
  empty : kind = .empty → context.results.length = 1
  resultIds : kind = .hashed → context.resultIds = ids
  length : kind = .hashed → context.results.length = size + ids.length
  exists_row : kind = .hashed → ∀ key i, ids.lookup key = some i → (∃ d ∈ done, d.1 = i) ∨ i = resultId

variable {cacheResultIds : Bool} {key : AggregateKey} {ids : List (AggregateKey × ℕ)}

/-- **`GetOrAddResult`.**  The result for a key is where the numbers of the rows say. -/
lemma Aggregated.getOrAddResult (h : Aggregated size kind g context done ids)
    (hkind : key.kind = kind) (hcache : kind = .cached → cacheResultIds = true) (rowId : RowId) :
    ∃ context', getOrAddResult cacheResultIds context key rowId =
        .ok ((resultIdOf size ids key).1, keyAfter cacheResultIds key (resultIdOf size ids key).1,
          context') ∧
      LookedUp size kind g context.start context' done (resultIdOf size ids key).2
        (resultIdOf size ids key).1 rowId := by
  rw [AggregateKey.kind] at hkind
  rw [Skyrise.getOrAddResult, resultIdOf, keyAfter, AggregateKey.kind]
  split at hkind
  · next hfirst =>
    subst hkind
    have hlength := h.empty rfl
    simp only [hfirst, reduceCtorEq, false_and, if_false]
    by_cases hdone : done = []
    · rw [if_pos hdone] at hlength
      have hnil := List.length_eq_zero_iff.mp hlength
      have hlocated : Located .empty g context.start (context.results ++ [⟨context.start, some rowId⟩])
          done context.results.length rowId := h.hasResults.located_addResult (by simp)
      rw [hlength] at hlocated
      rw [hnil, List.isEmpty_nil, if_pos rfl]
      exact ⟨_, rfl, rfl, hlocated, fun _ => by simp [AggregateContext.addResult, hnil], by simp,
        by simp, by simp⟩
    · rw [if_neg hdone] at hlength
      obtain ⟨d, rest, rfl⟩ := List.exists_cons_of_ne_nil hdone
      have hzero : d.1 = 0 := by
        have := h.hasResults.lt d List.mem_cons_self
        omega
      have hne : context.results.isEmpty = false := by
        rw [List.isEmpty_eq_false_iff]
        exact List.ne_nil_of_length_pos (by omega)
      rw [hne, hlength]
      exact ⟨_, rfl, rfl, h.hasResults.located_of_mem (by simp) ⟨d, List.mem_cons_self, hzero⟩,
        fun _ => hlength, by simp, by simp, by simp⟩
  · next number hfirst =>
    subst hkind
    have hlength := h.length rfl
    simp only [hfirst, true_and]
    rw [h.resultIds rfl]
    cases hlookup : ids.lookup key with
    | some resultId =>
      exact ⟨_, rfl, rfl,
        h.hasResults.located_of_mem (by simp) (h.exists_row rfl key resultId hlookup), by simp,
        fun _ => h.resultIds rfl, fun _ => hlength, fun _ key i hi => .inl (h.exists_row rfl key i hi)⟩
    | none =>
      dsimp only
      rw [← hlength]
      refine ⟨_, rfl, rfl, h.hasResults.located_addResult (by simp), by simp, fun _ => rfl,
        fun _ => ?_, fun _ key' i hi => ?_⟩
      · simp only [AggregateContext.addResult, List.length_append, List.length_cons,
          List.length_nil]
        omega
      · rw [List.lookup_cons] at hi
        split at hi
        · exact .inr (Option.some.inj hi).symm
        · exact .inl (h.exists_row rfl key' i hi)
  · next resultId hfirst =>
    subst hkind
    simp only [hfirst, reduceCtorEq, false_and, if_false, hcache rfl, if_true]
    refine ⟨_, rfl, ?_, ?_, by simp, by simp, by simp, by simp⟩
    · split <;> rfl
    · split
      · next hle =>
        rw [AggregateContext.resize]
        refine HasResults.located_modify (h.hasResults.append_empty _) ?_
        simp only [List.length_append, List.length_replicate]
        omega
      · next hlt => exact h.hasResults.located_modify (by omega)

/-- One row. -/
lemma Aggregated.aggregateRow (h : Aggregated size kind g context done ids)
    (hkind : key.kind = kind) (hcache : kind = .cached → cacheResultIds = true)
    (hupdate : ∀ s, update rowId s = .ok (g rowId s)) :
    ∃ context' context'', Skyrise.getOrAddResult cacheResultIds context key rowId =
        .ok ((resultIdOf size ids key).1, keyAfter cacheResultIds key (resultIdOf size ids key).1,
          context') ∧
      context'.updateResult (resultIdOf size ids key).1 (update rowId) = .ok context'' ∧
      context''.start = context.start ∧
      Aggregated size kind g context'' (done ++ [((resultIdOf size ids key).1, rowId)])
        (resultIdOf size ids key).2 := by
  obtain ⟨context', hget, hlooked⟩ := h.getOrAddResult hkind hcache rowId
  have hstart := hlooked.start_eq
  rw [← hstart] at hlooked
  obtain ⟨results, hupdated, hlength, hresults⟩ := hlooked.located.updateResult hupdate
  refine ⟨context', { context' with results := results }, hget, hupdated, hstart, hresults,
    fun hk => ?_, fun hk => ?_, fun hk => ?_, fun hk key' i hi => ?_⟩
  · simpa [hlength] using hlooked.empty hk
  · exact hlooked.resultIds hk
  · rw [hlength]
    exact hlooked.length hk
  · rcases hlooked.exists_row hk key' i hi with ⟨d, hd, hdi⟩ | rfl
    · exact ⟨d, List.mem_append_left _ hd, hdi⟩
    · exact ⟨_, List.mem_append_right _ List.mem_cons_self, rfl⟩

/-- The rows with the keys after a run over them. -/
def rowsAfter (cacheResultIds : Bool) (rows : List (AggregateKey × RowId))
    (numbered : List (ℕ × RowId)) : List (AggregateKey × RowId) :=
  rows.zipWith (fun row d => (keyAfter cacheResultIds row.1 d.1, row.2)) numbered

/-- **A run over rows** with keys of one kind. -/
lemma Aggregated.aggregateRows {rows : List (AggregateKey × RowId)}
    (h : Aggregated size kind g context done ids)
    (hkind : ∀ row ∈ rows, row.1.kind = kind) (hcache : kind = .cached → cacheResultIds = true)
    (hupdate : ∀ row ∈ rows, ∀ s, update row.2 s = .ok (g row.2 s)) :
    ∃ context', Skyrise.aggregateRows cacheResultIds update rows context =
        .ok (rowsAfter cacheResultIds rows (numberRows size ids rows).1, context') ∧
      context'.start = context.start ∧
      Aggregated size kind g context' (done ++ (numberRows size ids rows).1)
        (numberRows size ids rows).2 := by
  induction rows generalizing context done ids with
  | nil => exact ⟨context, rfl, rfl, by rwa [numberRows, List.append_nil]⟩
  | cons row rows ih =>
    obtain ⟨key, rowId⟩ := row
    rw [List.forall_mem_cons] at hkind hupdate
    obtain ⟨context', context'', hget, hupdated, hstart, hrow⟩ :=
      h.aggregateRow hkind.1 hcache hupdate.1
    obtain ⟨result, hrows, hstart', hresult⟩ := ih hrow hkind.2 hupdate.2
    refine ⟨result, ?_, hstart'.trans hstart, ?_⟩
    · rw [Skyrise.aggregateRows, hget]
      show (do
        let context ← context'.updateResult (resultIdOf size ids key).1 (update rowId)
        let (rows, context) ← Skyrise.aggregateRows cacheResultIds update rows context
        return ((keyAfter cacheResultIds key (resultIdOf size ids key).1, rowId) :: rows,
          context)) = _
      rw [hupdated]
      show (do
        let (rows, context) ← Skyrise.aggregateRows cacheResultIds update rows context''
        return ((keyAfter cacheResultIds key (resultIdOf size ids key).1, rowId) :: rows,
          context)) = _
      rw [hrows]
      rfl
    · rw [numberRows]
      simpa using hresult

end

/-! ### Keys that are indexes -/

lemma numberRows_append (size : ℕ) (ids : List (AggregateKey × ℕ))
    (rows rows' : List (AggregateKey × RowId)) :
    numberRows size ids (rows ++ rows') =
      ((numberRows size ids rows).1 ++ (numberRows size (numberRows size ids rows).2 rows').1,
        (numberRows size (numberRows size ids rows).2 rows').2) := by
  induction rows generalizing ids with
  | nil => rfl
  | cons row rows ih => simp [numberRows, ih]

/-- Keys that are not looked up have the same indexes whatever has been looked up. -/
lemma numberRows_of_ne_hashed {size : ℕ} {rows : List (AggregateKey × RowId)}
    (h : ∀ row ∈ rows, row.1.kind ≠ .hashed) (ids ids' : List (AggregateKey × ℕ)) :
    (numberRows size ids rows).1 = (numberRows size ids' rows).1 ∧
      (numberRows size ids rows).2 = ids := by
  induction rows generalizing ids ids' with
  | nil => exact ⟨rfl, rfl⟩
  | cons row rows ih =>
    rw [List.forall_mem_cons] at h
    have hid : (resultIdOf size ids row.1).1 = (resultIdOf size ids' row.1).1 ∧
        (resultIdOf size ids row.1).2 = ids := by
      have hkind := h.1
      rw [AggregateKey.kind] at hkind
      rw [resultIdOf, resultIdOf]
      split at hkind <;> simp_all
    simp only [numberRows]
    rw [hid.1, hid.2, (ih h.2 ids _).1, (ih h.2 ids []).2]
    exact ⟨rfl, rfl⟩

lemma resultIdOf_of_cached {key : AggregateKey} {resultId : ℕ}
    (h : key.firstKeyEntry = some (.cached resultId)) (size : ℕ) (ids : List (AggregateKey × ℕ)) :
    resultIdOf size ids key = (resultId, ids) := by
  rw [resultIdOf, h]

/-- After a run that stores the indexes in the keys, the keys are indexes, those of the rows. -/
lemma rowsAfter_of_hashed (size : ℕ) {rows : List (AggregateKey × RowId)}
    (h : ∀ row ∈ rows, row.1.kind = .hashed) (ids ids' : List (AggregateKey × ℕ)) :
    (∀ row ∈ rowsAfter true rows (numberRows size ids rows).1, row.1.kind = .cached) ∧
      (rowsAfter true rows (numberRows size ids rows).1).map Prod.snd = rows.map Prod.snd ∧
      (numberRows size ids' (rowsAfter true rows (numberRows size ids rows).1)).1 =
        (numberRows size ids rows).1 := by
  induction rows generalizing ids ids' with
  | nil => exact ⟨by simp [rowsAfter], rfl, rfl⟩
  | cons row rows ih =>
    rw [List.forall_mem_cons] at h
    obtain ⟨key, rowId⟩ := row
    obtain ⟨hkinds, hrows, hnumbers⟩ := ih h.2 (resultIdOf size ids key).2 ids'
    have hfirst : (keyAfter true key (resultIdOf size ids key).1).firstKeyEntry =
        some (.cached (resultIdOf size ids key).1) := by
      rw [keyAfter, if_pos ⟨h.1, rfl⟩]
      have hkind := h.1
      cases key <;> simp_all [AggregateKey.kind, AggregateKey.firstKeyEntry,
        AggregateKey.setFirstKeyEntry]
    have hkind : (keyAfter true key (resultIdOf size ids key).1).kind = .cached := by
      rw [AggregateKey.kind, hfirst]
    have hafter : rowsAfter true ((key, rowId) :: rows) (numberRows size ids ((key, rowId) :: rows)).1 =
        (keyAfter true key (resultIdOf size ids key).1, rowId) ::
          rowsAfter true rows (numberRows size (resultIdOf size ids key).2 rows).1 := rfl
    rw [hafter]
    refine ⟨List.forall_mem_cons.mpr ⟨hkind, hkinds⟩, congrArg (rowId :: ·) hrows, ?_⟩
    rw [numberRows, resultIdOf_of_cached hfirst, numberRows]
    dsimp only
    rw [hnumbers]

/-- Keys that are not looked up stay as they are. -/
lemma rowsAfter_of_ne_hashed {size : ℕ} {rows : List (AggregateKey × RowId)}
    (h : ∀ row ∈ rows, row.1.kind ≠ .hashed) (cacheResultIds : Bool)
    (ids : List (AggregateKey × ℕ)) :
    rowsAfter cacheResultIds rows (numberRows size ids rows).1 = rows := by
  induction rows generalizing ids with
  | nil => rfl
  | cons row rows ih =>
    rw [List.forall_mem_cons] at h
    have hkey : keyAfter cacheResultIds row.1 (resultIdOf size ids row.1).1 = row.1 :=
      if_neg fun hhashed => h.1 hhashed.1
    show (keyAfter cacheResultIds row.1 (resultIdOf size ids row.1).1, row.2) ::
      rowsAfter cacheResultIds rows (numberRows size _ rows).1 = _
    rw [hkey, ih h.2]

/-! ### Groups -/

/-- The indexes of the results that have rows. -/
def occurring (done : List (ℕ × RowId)) : List ℕ :=
  (List.range (done.map fun d => d.1 + 1).sum).filter fun i => !(rowsOfResult done i).isEmpty

lemma filter_range_eq_of_le {p : ℕ → Bool} {m n : ℕ} (hle : m ≤ n) (h : ∀ i, p i = true → i < m) :
    (List.range n).filter p = (List.range m).filter p := by
  obtain ⟨k, rfl⟩ := Nat.exists_eq_add_of_le hle
  have hnil : ((List.range k).map (m + ·)).filter p = [] := by
    refine List.filter_eq_nil_iff.mpr fun i hi hp => ?_
    obtain ⟨j, -, rfl⟩ := List.mem_map.mp hi
    have := h _ hp
    omega
  rw [List.range_add, List.filter_append, hnil, List.append_nil]

lemma filter_range_eq {p : ℕ → Bool} {m n : ℕ} (hm : ∀ i, p i = true → i < m)
    (hn : ∀ i, p i = true → i < n) : (List.range n).filter p = (List.range m).filter p := by
  rcases le_total m n with hle | hle
  · exact filter_range_eq_of_le hle hm
  · exact (filter_range_eq_of_le hle hn).symm

lemma exists_of_rowsOfResult {done : List (ℕ × RowId)} {i : ℕ}
    (h : (!(rowsOfResult done i).isEmpty) = true) : ∃ d ∈ done, d.1 = i := by
  by_contra hnone
  push Not at hnone
  rw [rowsOfResult_eq_nil_iff.mpr hnone] at h
  cases h

lemma filter_range_occurring {done : List (ℕ × RowId)} {n : ℕ} (h : ∀ d ∈ done, d.1 < n) :
    ((List.range n).filter fun i => !(rowsOfResult done i).isEmpty) = occurring done := by
  refine filter_range_eq (fun i hi => ?_) fun i hi => ?_
  · obtain ⟨d, hd, rfl⟩ := exists_of_rowsOfResult hi
    have := List.single_le_sum (fun _ _ => Nat.zero_le _) (d.1 + 1)
      (List.mem_map_of_mem (f := fun d : ℕ × RowId => d.1 + 1) hd)
    omega
  · obtain ⟨d, hd, rfl⟩ := exists_of_rowsOfResult hi
    exact h d hd

/-- The result for an index. -/
def resultFor (kind : KeyKind) (g : RowId → AggregateValue R → AggregateValue R)
    (start : AggregateValue R) (done : List (ℕ × RowId)) (i : ℕ) : AggregateResult R :=
  ⟨aggregated g start (rowsOfResult done i), kind.pickRow (rowsOfResult done i)⟩

namespace HasResults

variable {kind : KeyKind} {g : RowId → AggregateValue R → AggregateValue R}
  {start : AggregateValue R} {results : List (AggregateResult R)} {done : List (ℕ × RowId)}

lemma eq_map (h : HasResults kind g start results done) :
    results = (List.range results.length).map (resultFor kind g start done) := by
  apply List.ext_getElem
  · simp
  · intro i h₁ h₂
    obtain ⟨hvalue, hrow⟩ := h.eq i _ (List.getElem?_eq_getElem h₁)
    rw [List.getElem_map, List.getElem_range, resultFor, ← hvalue, ← hrow]

/-- The results of groups. -/
lemma filter_eq (h : HasResults kind g start results done) :
    (results.filter fun r => r.rowId.isSome) = (occurring done).map (resultFor kind g start done) := by
  conv_lhs => rw [h.eq_map]
  rw [List.filter_map, ← filter_range_occurring h.lt]
  congr 1
  refine List.filter_congr fun i _ => ?_
  exact kind.isSome_pickRow _

/-- The rows of the results. -/
lemma filterMap_eq (h : HasResults kind g start results done) :
    results.filterMap AggregateResult.rowId =
      (occurring done).filterMap fun i => kind.pickRow (rowsOfResult done i) := by
  have hfilter : results.filterMap AggregateResult.rowId =
      (results.filter fun r => r.rowId.isSome).filterMap AggregateResult.rowId := by
    rw [List.filterMap_filter]
    refine List.filterMap_congr fun r _ => ?_
    cases r.rowId <;> rfl
  rw [hfilter, h.filter_eq, List.filterMap_map]
  rfl

end HasResults

lemma length_filterMap_pickRow (kind : KeyKind) (done : List (ℕ × RowId)) :
    ((occurring done).filterMap fun i => kind.pickRow (rowsOfResult done i)).length =
      (occurring done).length := by
  rw [List.length_filterMap_eq_countP]
  refine List.countP_eq_length.mpr fun i hi => ?_
  rw [kind.isSome_pickRow]
  exact (List.mem_filter.mp hi).2

end Skyrise
