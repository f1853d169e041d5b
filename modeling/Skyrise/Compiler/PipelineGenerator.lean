/-
The inputs of the fragments of a pipeline.

An input of a pipeline is read by all of its fragments as a whole, or partition by
partition, or object by object.  `BuildPipelineFragmentsInputsMap` lists for every
fragment the objects that it reads for each of the inputs.
-/
import Skyrise.Compiler.PipelineFragmentDefinition
import Skyrise.Relational.Join

namespace Skyrise

/-- How the fragments of a pipeline share an input. -/
inductive InputShareType where
  | broadcastedRead
  | partitionedRead
  | partitionedByFileRead
deriving DecidableEq, Repr

/-- An input of a pipeline. -/
structure PipelineInput where
  /-- The identity of the import that reads the input. -/
  inputId : Bytes
  /-- How the fragments share the input. -/
  inputShareType : InputShareType
  /-- The objects of the input. -/
  inputObjects : List ObjectReference

namespace IdentityMap

/-- The map with a list of objects assigned to an identity. -/
def assign (m : IdentityMap) (identity : Bytes) (objects : List ObjectReference) : IdentityMap where
  entries := (m.entries.filter fun entry => entry.1 ≠ identity) ++ [(identity, objects)]
  nodup := by
    rw [List.map_append, List.nodup_append]
    refine ⟨m.nodup.sublist (List.filter_sublist.map _), List.nodup_singleton _, ?_⟩
    intro key hkey key' hkey'
    obtain ⟨entry, hentry, rfl⟩ := List.mem_map.mp hkey
    obtain rfl := List.mem_singleton.mp hkey'
    simpa using List.of_mem_filter hentry

lemma find_assign {m : IdentityMap} {identity key : Bytes} {objects : List ObjectReference} :
    (m.assign identity objects).find key = if identity = key then some objects else m.find key := by
  rw [find, assign, List.find?_append]
  by_cases h : identity = key
  · subst h
    have hnone : (m.entries.filter fun entry => entry.1 ≠ identity).find?
        (fun entry => entry.1 = identity) = none := by
      refine List.find?_eq_none.mpr fun entry hentry => ?_
      simpa using List.of_mem_filter hentry
    rw [hnone]
    simp
  · rw [if_neg h, find, List.find?_filter]
    have hcongr : (fun entry : Bytes × List ObjectReference =>
        decide (decide (entry.1 ≠ identity) = true ∧ decide (entry.1 = key) = true)) =
          fun entry => decide (entry.1 = key) := by
      funext entry
      by_cases hkey : entry.1 = key
      · have hne : key ≠ identity := fun heq => h heq.symm
        simp [hkey, hne]
      · simp [hkey]
    rw [hcongr]
    simp [h]

/-- The objects of an identity, none if it has no entry. -/
def objectsOf (m : IdentityMap) (identity : Bytes) : List ObjectReference :=
  (m.find identity).getD []

@[simp] lemma objectsOf_empty {identity : Bytes} : empty.objectsOf identity = [] := rfl

lemma objectsOf_assign {m : IdentityMap} {identity key : Bytes} {objects : List ObjectReference} :
    (m.assign identity objects).objectsOf key =
      if identity = key then objects else m.objectsOf key := by
  rw [objectsOf, find_assign]
  split <;> rfl

lemma objectsOf_emplaceBack {m : IdentityMap} {identity key : Bytes} {r : ObjectReference} :
    (m.emplaceBack identity r).objectsOf key =
      if identity = key then m.objectsOf key ++ [r] else m.objectsOf key := by
  rw [objectsOf, find_emplaceBack]
  split
  · next h => rw [h, objectsOf, Option.getD_some]
  · rfl

lemma objectsOf_foldl_emplaceBack {identity key : Bytes} {α : Type} (f : α → ObjectReference)
    (l : List α) (m : IdentityMap) :
    (l.foldl (fun m a => m.emplaceBack identity (f a)) m).objectsOf key =
      if identity = key then m.objectsOf key ++ l.map f else m.objectsOf key := by
  induction l generalizing m with
  | nil => simp
  | cons a l ih =>
    rw [List.foldl_cons, ih, objectsOf_emplaceBack]
    split <;> simp

end IdentityMap

namespace PipelineGenerator

open IdentityMap

/-- The reference to a partition of an object. -/
def partitionReference (fragmentId : ℕ) (r : ObjectReference) : ObjectReference :=
  ⟨r.bucketName, r.identifier, [], some [Int32.ofNat fragmentId]⟩

/-- `AddPipelineInputToMap`. -/
def addPipelineInputToMap (fragmentToInputs : List IdentityMap) (input : PipelineInput) :
    Except Exception (List IdentityMap) :=
  match input.inputShareType with
  | .broadcastedRead =>
    -- each fragment reads the whole of the input
    pure <| fragmentToInputs.map fun m =>
      input.inputObjects.foldl (fun m r => m.emplaceBack input.inputId r) m
  | .partitionedRead =>
    -- each fragment reads its own partition of each input object
    pure <| fragmentToInputs.mapIdx fun fragmentId m =>
      input.inputObjects.foldl
        (fun m r => m.emplaceBack input.inputId (partitionReference fragmentId r))
        (m.assign input.inputId [])
  | .partitionedByFileRead => do
    let fragmentsCount := fragmentToInputs.length
    assert (decide (fragmentsCount ≤ input.inputObjects.length))
      "For kPartitionedByFileRead, each fragment must get at least one file."
    if fragmentsCount = 0 ∧ input.inputObjects ≠ [] then
      throw .divisionByZero
    pure <| input.inputObjects.zipIdx.foldl (fun fragmentToInputs ri =>
      fragmentToInputs.modify (ri.2 % fragmentsCount) fun m =>
        m.emplaceBack input.inputId ri.1) fragmentToInputs

/-- `BuildPipelineFragmentsInputsMap`.  The vector is resized to a count that is converted to an
unsigned number. -/
def buildPipelineFragmentsInputsMap (pipelineInputs : List PipelineInput) (fragmentsCount : Int32) :
    Except Exception (List IdentityMap) := do
  if fragmentsCount < 0 then
    throw .lengthError
  pipelineInputs.foldlM addPipelineInputToMap
    (List.replicate fragmentsCount.toNatClampNeg IdentityMap.empty)

/-! ### Tilings -/

/-- The lists of objects that the fragments read for an input. -/
def readLists (fragments : List IdentityMap) (inputId : Bytes) : List (List ObjectReference) :=
  fragments.map fun m => m.objectsOf inputId

/-- The fragments with these lists read every part of an input that they should, once each. -/
def TilesInput (lists : List (List ObjectReference)) (input : PipelineInput) : Prop :=
  match input.inputShareType with
  | .broadcastedRead => ∀ objects ∈ lists, objects = input.inputObjects
  | .partitionedRead => ∀ (f : ℕ) (objects : List ObjectReference), lists[f]? = some objects →
      objects = input.inputObjects.map (partitionReference f)
  | .partitionedByFileRead => lists.flatten.Perm input.inputObjects ∧ [] ∉ lists

/-- The number of fragments is the given one, and they tile all inputs. -/
structure Tiles (fragmentsCount : ℕ) (pipelineInputs : List PipelineInput)
    (fragments : List IdentityMap) : Prop where
  length : fragments.length = fragmentsCount
  inputs : ∀ input ∈ pipelineInputs, TilesInput (readLists fragments input.inputId) input

/-! ### The list of one input -/

variable {fragments : List IdentityMap} {input : PipelineInput} {inputId : Bytes}

@[simp] lemma length_readLists : (readLists fragments inputId).length = fragments.length := by
  simp [readLists]

/-- The lists after the objects of an input have been dealt out in turn. -/
lemma readLists_deal (n : ℕ) (id : Bytes) (objects : List (ObjectReference × ℕ)) (f : ℕ)
    (fragments : List IdentityMap) :
    (readLists (objects.foldl (fun fragments ri =>
      fragments.modify (ri.2 % n) fun m => m.emplaceBack id ri.1) fragments) inputId)[f]? =
      (readLists fragments inputId)[f]?.map fun list => if id = inputId then
        list ++ (objects.filter fun ri => ri.2 % n = f).map Prod.fst else list := by
  induction objects generalizing fragments with
  | nil => simp
  | cons ri objects ih =>
    rw [List.foldl_cons, ih]
    simp only [readLists, List.getElem?_map, List.getElem?_modify, Option.map_map]
    cases fragments[f]? with
    | none => rfl
    | some m =>
      by_cases hf : ri.2 % n = f <;> by_cases hid : id = inputId <;>
        simp [hf, hid, objectsOf_emplaceBack]

/-- What adding an input to the map does: the lists of the other inputs stay as they are. -/
structure Adds (fragments fragments' : List IdentityMap) (input : PipelineInput) : Prop where
  length : fragments'.length = fragments.length
  others : ∀ inputId, input.inputId ≠ inputId →
    readLists fragments' inputId = readLists fragments inputId
  tiles : TilesInput (readLists fragments' input.inputId) input

/-- An input is added to fragments none of which reads objects for it. -/
lemma addPipelineInputToMap_eq_ok (hpos : 0 < fragments.length)
    (hnew : ∀ m ∈ fragments, m.objectsOf input.inputId = [])
    (hfiles : input.inputShareType = .partitionedByFileRead →
      fragments.length ≤ input.inputObjects.length) :
    ∃ fragments', addPipelineInputToMap fragments input = .ok fragments' ∧
      Adds fragments fragments' input := by
  cases hshare : input.inputShareType with
  | broadcastedRead =>
    refine ⟨_, by rw [addPipelineInputToMap, hshare]; rfl, by simp, fun id hid => ?_, ?_⟩
    · simp [readLists, objectsOf_foldl_emplaceBack (fun r => r), hid]
    · simp only [TilesInput, hshare, readLists, List.map_map, List.mem_map]
      rintro objects ⟨m, hm, rfl⟩
      simp [objectsOf_foldl_emplaceBack (fun r => r), hnew m hm]
  | partitionedRead =>
    refine ⟨_, by rw [addPipelineInputToMap, hshare]; rfl, by simp, fun id hid => ?_, ?_⟩
    · apply List.ext_getElem?
      intro f
      simp [readLists, objectsOf_foldl_emplaceBack, objectsOf_assign, hid, Function.comp_def]
    · simp only [TilesInput, hshare]
      intro f objects hobjects
      simp only [readLists, List.getElem?_map, List.getElem?_mapIdx, Option.map_map] at hobjects
      obtain ⟨m, -, rfl⟩ := Option.map_eq_some_iff.mp hobjects
      simp [objectsOf_foldl_emplaceBack, objectsOf_assign]
  | partitionedByFileRead =>
    have hlen := hfiles hshare
    have hassert : decide (fragments.length ≤ input.inputObjects.length) = true :=
      decide_eq_true hlen
    have hne : ¬ (fragments.length = 0 ∧ input.inputObjects ≠ []) := fun h => Nat.ne_of_gt hpos h.1
    refine ⟨_, by rw [addPipelineInputToMap, hshare]; simp only [hassert, if_neg hne]; rfl, ?_,
      fun id hid => ?_, ?_⟩
    · have hfold : ∀ (objects : List (ObjectReference × ℕ)) (fragments' : List IdentityMap),
          (objects.foldl (fun fragments' ri => fragments'.modify (ri.2 % fragments.length) fun m =>
            m.emplaceBack input.inputId ri.1) fragments').length = fragments'.length := by
        intro objects
        induction objects with
        | nil => exact fun _ => rfl
        | cons ri objects ih => exact fun fragments' => (ih _).trans (List.length_modify _ _ _)
      exact hfold _ _
    · apply List.ext_getElem?
      intro f
      rw [readLists_deal]
      simp [hid]
    · -- fragment `f` gets the objects whose index has the remainder `f`
      have hlists : readLists (input.inputObjects.zipIdx.foldl (fun fragments' ri =>
          fragments'.modify (ri.2 % fragments.length) fun m =>
            m.emplaceBack input.inputId ri.1) fragments) input.inputId =
          (List.range fragments.length).map fun f =>
            (input.inputObjects.zipIdx.filter fun ri => ri.2 % fragments.length = f).map
              Prod.fst := by
        apply List.ext_getElem?
        intro f
        rw [readLists_deal]
        by_cases hf : f < fragments.length
        · simp [readLists, hf, hnew fragments[f] (List.getElem_mem hf)]
        · simp [readLists, hf]
      simp only [TilesInput, hshare, hlists]
      constructor
      · rw [← List.flatMap_def, ← List.map_flatMap]
        have hperm := Relational.flatMap_filter_perm (f := fun ri : ObjectReference × ℕ =>
          ri.2 % fragments.length) (List.nodup_range (n := fragments.length))
          (l := input.inputObjects.zipIdx) fun _ _ => List.mem_range.mpr (Nat.mod_lt _ hpos)
        simpa using hperm.map Prod.fst
      · rw [List.mem_map]
        rintro ⟨f, hf, hnil⟩
        have hf' := List.mem_range.mp hf
        have hmem : (input.inputObjects[f], f) ∈ input.inputObjects.zipIdx.filter
            fun ri => ri.2 % fragments.length = f :=
          List.mem_filter.mpr ⟨List.mem_zipIdx_iff_getElem?.mpr (by simp),
            by simp [Nat.mod_eq_of_lt hf']⟩
        rw [List.map_eq_nil_iff.mp hnil] at hmem
        cases hmem

lemma toNatClampNeg_pos {fragmentsCount : Int32} (hpos : 0 < fragmentsCount) :
    0 < fragmentsCount.toNatClampNeg := by
  rw [Int32.lt_iff_toInt_lt, Int32.toInt_zero] at hpos
  rw [← Int32.toNat_toInt]
  omega

/-- The map is built, and its fragments tile the inputs. -/
lemma exists_tiles {pipelineInputs : List PipelineInput} {fragmentsCount : Int32}
    (hid : (pipelineInputs.map PipelineInput.inputId).Nodup) (hpos : 0 < fragmentsCount)
    (hfiles : ∀ input ∈ pipelineInputs, input.inputShareType = .partitionedByFileRead →
      fragmentsCount.toNatClampNeg ≤ input.inputObjects.length) :
    ∃ fragments, buildPipelineFragmentsInputsMap pipelineInputs fragmentsCount = .ok fragments ∧
      Tiles fragmentsCount.toNatClampNeg pipelineInputs fragments := by
  have hcount := toNatClampNeg_pos hpos
  have hnotneg : ¬ fragmentsCount < 0 := by
    rw [Int32.lt_iff_toInt_lt] at hpos ⊢
    omega
  -- the inputs that are still to be added have no entries
  have hloop : ∀ (inputs : List PipelineInput) (fragments : List IdentityMap),
      (inputs.map PipelineInput.inputId).Nodup → inputs ⊆ pipelineInputs →
      fragments.length = fragmentsCount.toNatClampNeg →
      (∀ input ∈ inputs, ∀ m ∈ fragments, m.objectsOf input.inputId = []) →
      ∃ fragments', inputs.foldlM addPipelineInputToMap fragments = .ok fragments' ∧
        fragments'.length = fragmentsCount.toNatClampNeg ∧
        (∀ inputId ∉ inputs.map PipelineInput.inputId,
          readLists fragments' inputId = readLists fragments inputId) ∧
        ∀ input ∈ inputs, TilesInput (readLists fragments' input.inputId) input := by
    intro inputs
    induction inputs with
    | nil => exact fun fragments _ _ hlen _ => ⟨fragments, rfl, hlen, fun _ _ => rfl, by simp⟩
    | cons input inputs ih =>
      intro fragments hnodup hsub hlen hnew
      rw [List.map_cons, List.nodup_cons] at hnodup
      obtain ⟨fragments₁, hadd, hadds⟩ := addPipelineInputToMap_eq_ok (hlen ▸ hcount)
        (hnew input List.mem_cons_self) (hlen ▸ hfiles input (hsub List.mem_cons_self))
      have hne : ∀ other ∈ inputs, input.inputId ≠ other.inputId := fun other hother heq =>
        hnodup.1 (heq ▸ List.mem_map_of_mem hother)
      have hnew₁ : ∀ other ∈ inputs, ∀ m ∈ fragments₁, m.objectsOf other.inputId = [] := by
        intro other hother m hm
        have hmem : m.objectsOf other.inputId ∈ readLists fragments₁ other.inputId :=
          List.mem_map_of_mem hm
        rw [hadds.others _ (hne other hother)] at hmem
        obtain ⟨m', hm', heq⟩ := List.mem_map.mp hmem
        rw [← heq]
        exact hnew other (List.mem_cons_of_mem _ hother) m' hm'
      obtain ⟨fragments₂, hrest, hlen₂, hothers, htiles⟩ := ih fragments₁ hnodup.2
        (fun other hother => hsub (List.mem_cons_of_mem _ hother)) (hadds.length.trans hlen) hnew₁
      refine ⟨fragments₂, ?_, hlen₂, fun inputId hinputId => ?_, fun other hother => ?_⟩
      · rw [List.foldlM_cons, hadd]
        exact hrest
      · rw [List.map_cons, List.mem_cons, not_or] at hinputId
        rw [hothers inputId hinputId.2, hadds.others inputId fun heq => hinputId.1 heq.symm]
      · rcases List.mem_cons.mp hother with rfl | hother
        · rw [hothers _ hnodup.1]
          exact hadds.tiles
        · exact htiles other hother
  obtain ⟨fragments, hbuild, hlen, -, htiles⟩ := hloop pipelineInputs
    (List.replicate fragmentsCount.toNatClampNeg IdentityMap.empty) hid (List.Subset.refl _)
    (List.length_replicate ..) fun input _ m hm => by
      rw [List.eq_of_mem_replicate hm, objectsOf_empty]
  refine ⟨fragments, ?_, hlen, htiles⟩
  rw [buildPipelineFragmentsInputsMap, if_neg hnotneg]
  exact hbuild

end PipelineGenerator

end Skyrise
