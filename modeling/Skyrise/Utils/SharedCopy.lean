/-
Copies of graphs in a heap.

A heap has nodes at addresses, and a node has a value and up to two inputs, which are
addresses.  A graph is copied from a root on, the inputs of a node before the node, with a
memo of the copies that there are.  If the graph is acyclic, every node that the root reaches
is copied once: the copies are a graph of the same shape, at new addresses.  A breadth-first
visit finds every node that the root reaches once.
-/
import Mathlib.Data.List.Nodup
import Mathlib.Data.Finset.Card
import Mathlib.Data.Set.Function
import Mathlib.Order.Interval.Set.Basic
import Mathlib.Logic.Relation
import Mathlib.Order.Lattice.Nat

namespace SharedCopy

/-- A node of a heap. -/
structure Node (α : Type) where
  value : α
  left : Option ℕ := none
  right : Option ℕ := none
deriving DecidableEq

variable {α ε : Type}

/-- The inputs of a node, the left one first. -/
def Node.inputs (node : Node α) : List ℕ := node.left.toList ++ node.right.toList

/-- A node with another value. -/
def Node.mapValue (f : α → α) (node : Node α) : Node α := { node with value := f node.value }

/-- An input of the node at an address. -/
def IsInput (heap : List (Node α)) (x i : ℕ) : Prop :=
  ∃ node, heap[x]? = some node ∧ i ∈ node.inputs

/-- The addresses that are reached from an address. -/
def Reaches (heap : List (Node α)) : ℕ → ℕ → Prop := Relation.ReflTransGen (IsInput heap)

/-- No path from a root comes back to where it was: the addresses have ranks, which are not larger
than the heap, and on the paths the ranks become smaller. -/
def Acyclic (heap : List (Node α)) (root : ℕ) : Prop :=
  ∃ rank : ℕ → ℕ, (∀ x, rank x ≤ heap.length) ∧
    ∀ x i, Reaches heap root x → IsInput heap x i → rank i < rank x

lemma reaches_of_isInput {heap : List (Node α)} {x i y : ℕ} (h : IsInput heap x i)
    (hy : Reaches heap i y) : Reaches heap x y := Relation.ReflTransGen.head h hy

lemma rank_le_of_reaches {heap : List (Node α)} {rank : ℕ → ℕ} {a x : ℕ}
    (hrank : ∀ x i, Reaches heap a x → IsInput heap x i → rank i < rank x)
    (h : Reaches heap a x) : rank x ≤ rank a := by
  induction h with
  | refl => exact le_rfl
  | tail hreaches hinput ih => exact (hrank _ _ hreaches hinput).le.trans ih

/-- The inputs of every node have been made before it. -/
def MadeInOrder (heap : List (Node α)) : Prop := ∀ p ∈ heap.zipIdx, ∀ i ∈ p.1.inputs, i < p.2

lemma MadeInOrder.lt {heap : List (Node α)} (h : MadeInOrder heap) {x i : ℕ}
    (hinput : IsInput heap x i) : i < x := by
  obtain ⟨node, hget, hi⟩ := hinput
  exact h (node, x) (List.mem_zipIdx_iff_getElem?.mpr hget) i hi

lemma MadeInOrder.le_of_reaches {heap : List (Node α)} (h : MadeInOrder heap) {root x : ℕ}
    (hx : Reaches heap root x) : x ≤ root := by
  induction hx with
  | refl => exact le_rfl
  | tail _ hinput ih => exact (h.lt hinput).le.trans ih

lemma MadeInOrder.acyclic {heap : List (Node α)} (h : MadeInOrder heap) (root : ℕ) :
    Acyclic heap root := by
  refine ⟨fun x => min x heap.length, fun x => min_le_right _ _, fun x i _ hinput => ?_⟩
  have hi := h.lt hinput
  obtain ⟨node, hget, -⟩ := hinput
  have hlt := (List.getElem?_eq_some_iff.mp hget).1
  dsimp only
  omega

/-- Some node that a root reaches has no inputs. -/
lemma exists_reaches_not_isInput {heap : List (Node α)} {root : ℕ} (h : Acyclic heap root) :
    ∃ x, Reaches heap root x ∧ ∀ i, ¬ IsInput heap x i := by
  obtain ⟨rank, -, hrank⟩ := h
  suffices hn : ∀ n x, rank x = n → Reaches heap root x →
      ∃ y, Reaches heap root y ∧ ∀ i, ¬ IsInput heap y i from hn _ root rfl .refl
  intro n
  induction n using Nat.strong_induction_on with
  | _ n ih =>
    rintro x rfl hx
    by_cases hinput : ∃ i, IsInput heap x i
    · obtain ⟨i, hi⟩ := hinput
      exact ih (rank i) (hrank x i hx hi) i rfl (hx.tail hi)
    · exact ⟨x, hx, not_exists.mp hinput⟩

/-! ### Copying -/

/-- A heap with a memo of what has been copied to where. -/
structure State (α : Type) where
  heap : List (Node α)
  copied : List (ℕ × ℕ) := []

section

variable (copy : α → Option ℕ → Option ℕ → Except ε (Node α)) (stuck : ε)

/-- A copy of what may be an input. -/
def copyInput (copyNode : ℕ → State α → Except ε (ℕ × State α)) (input : Option ℕ) (s : State α) :
    Except ε (Option ℕ × State α) :=
  match input with
  | none => .ok (none, s)
  | some i => do
    let (copied, s) ← copyNode i s
    return (some copied, s)

/-- The copy of a node, unless it is in the memo, in a number of recursive calls. -/
def copyNode : ℕ → ℕ → State α → Except ε (ℕ × State α)
  | 0, _, _ => .error stuck
  | fuel + 1, a, s =>
    match s.copied.lookup a with
    | some b => .ok (b, s)
    | none =>
      match s.heap[a]? with
      | none => .error stuck
      | some node => do
        let (left, s) ← copyInput (copyNode fuel) node.left s
        let (right, s) ← copyInput (copyNode fuel) node.right s
        let node ← copy node.value left right
        return (s.heap.length, ⟨s.heap ++ [node], (a, s.heap.length) :: s.copied⟩)

/-- The copy of a graph: no path is longer than the heap. -/
def copyGraph (heap : List (Node α)) (root : ℕ) : Except ε (ℕ × List (Node α)) := do
  let (b, s) ← copyNode copy stuck (heap.length + 1) root { heap := heap }
  return (b, s.heap)

/-- A node that can be copied with any copies of its inputs. -/
def Copyable (node : Node α) : Prop :=
  ∀ left right, left.isSome = node.left.isSome → right.isSome = node.right.isSome →
    ∃ node', copy node.value left right = .ok node'

/-- A copy of a node, whose inputs are copies in a memo. -/
def IsCopy (copied : List (ℕ × ℕ)) (node node' : Node α) : Prop :=
  ∃ left right, Option.Rel (fun i j => (i, j) ∈ copied) node.left left ∧
    Option.Rel (fun i j => (i, j) ∈ copied) node.right right ∧
    copy node.value left right = .ok node'

/-- A state in which some nodes of a heap have been copied once, to all new addresses. -/
structure Copying (heap : List (Node α)) (s : State α) : Prop where
  prefix_heap : heap <+: s.heap
  fresh : s.copied.map Prod.snd =
    (List.range' heap.length (s.heap.length - heap.length)).reverse
  nodup : (s.copied.map Prod.fst).Nodup
  isCopy : ∀ p ∈ s.copied, ∃ node node', heap[p.1]? = some node ∧ s.heap[p.2]? = some node' ∧
    IsCopy copy s.copied node node'

/-- What the copy of an input leads to. -/
structure Copied (heap : List (Node α)) (s s' : State α) (input output : Option ℕ) : Prop where
  copying : Copying copy heap s'
  suffix : s.copied <:+ s'.copied
  rel : Option.Rel (fun i j => (i, j) ∈ s'.copied) input output
  reaches : ∀ x ∈ s'.copied.map Prod.fst, x ∈ s.copied.map Prod.fst ∨
    ∃ i, input = some i ∧ Reaches heap i x

end

variable {copy : α → Option ℕ → Option ℕ → Except ε (Node α)} {stuck : ε}
  {heap : List (Node α)} {s : State α}

lemma rel_mono {copied copied' : List (ℕ × ℕ)} (h : copied <:+ copied') {input output : Option ℕ}
    (hrel : Option.Rel (fun i j => (i, j) ∈ copied) input output) :
    Option.Rel (fun i j => (i, j) ∈ copied') input output := by
  cases hrel with
  | some hmem => exact .some (h.subset hmem)
  | none => exact .none

lemma isSome_eq_of_rel {P : ℕ → ℕ → Prop} {input output : Option ℕ}
    (hrel : Option.Rel P input output) : output.isSome = input.isSome := by
  cases hrel <;> rfl

lemma IsCopy.mono {copied copied' : List (ℕ × ℕ)} (h : copied <:+ copied') {node node' : Node α}
    (hcopy : IsCopy copy copied node node') : IsCopy copy copied' node node' := by
  obtain ⟨left, right, hleft, hright, hnode⟩ := hcopy
  exact ⟨left, right, rel_mono h hleft, rel_mono h hright, hnode⟩

lemma Copying.init (heap : List (Node α)) : Copying copy heap { heap := heap } where
  prefix_heap := List.prefix_refl heap
  fresh := by rw [Nat.sub_self]; rfl
  nodup := List.nodup_nil
  isCopy p hp := by cases hp

lemma Copying.getElem? (h : Copying copy heap s) {a : ℕ} {node : Node α}
    (hnode : heap[a]? = some node) : s.heap[a]? = some node := by
  obtain ⟨rest, hrest⟩ := h.prefix_heap
  have hlt : a < heap.length := (List.getElem?_eq_some_iff.mp hnode).1
  rw [← hrest, List.getElem?_append_left hlt, hnode]

/-- A node whose inputs have been copied is copied. -/
lemma Copying.push (h : Copying copy heap s) {a : ℕ} (ha : a ∉ s.copied.map Prod.fst)
    {node node' : Node α} (hnode : heap[a]? = some node) (hcopy : IsCopy copy s.copied node node') :
    Copying copy heap ⟨s.heap ++ [node'], (a, s.heap.length) :: s.copied⟩ where
  prefix_heap := h.prefix_heap.trans (List.prefix_append _ _)
  fresh := by
    have hle := h.prefix_heap.length_le
    rw [List.map_cons, h.fresh, List.length_append, List.length_singleton, Nat.sub_add_comm hle,
      List.range'_concat, List.reverse_append, Nat.one_mul, Nat.add_sub_cancel' hle]
    rfl
  nodup := List.nodup_cons.mpr ⟨ha, h.nodup⟩
  isCopy := by
    have hsuffix : s.copied <:+ (a, s.heap.length) :: s.copied := List.suffix_cons _ _
    intro p hp
    rcases List.mem_cons.mp hp with rfl | hp
    · exact ⟨node, node', hnode, List.getElem?_concat_length, hcopy.mono hsuffix⟩
    · obtain ⟨node, node', hnode, hnode', hcopy⟩ := h.isCopy p hp
      have hlt : p.2 < s.heap.length := (List.getElem?_eq_some_iff.mp hnode').1
      exact ⟨node, node', hnode, by rw [List.getElem?_append_left hlt, hnode'],
        hcopy.mono hsuffix⟩

lemma copyInput_spec {copyNode : ℕ → State α → Except ε (ℕ × State α)} {input : Option ℕ}
    (hcopyNode : ∀ i, input = some i → ∃ b s', copyNode i s = .ok (b, s') ∧
      Copied copy heap s s' (some i) (some b)) (hs : Copying copy heap s) :
    ∃ output s', copyInput copyNode input s = .ok (output, s') ∧
      Copied copy heap s s' input output := by
  cases input with
  | none =>
    exact ⟨none, s, rfl, hs, List.suffix_refl _, .none, fun x hx => .inl hx⟩
  | some i =>
    obtain ⟨b, s', hok, hcopied⟩ := hcopyNode i rfl
    refine ⟨some b, s', ?_, hcopied⟩
    rw [copyInput, hok]
    rfl

/-- The copies of both inputs of a node, and of the node with them. -/
lemma copyInputs_spec {copyNode : ℕ → State α → Except ε (ℕ × State α)} {node : Node α}
    (hcopyNode : ∀ {s i}, Copying copy heap s → i ∈ node.inputs → ∃ b s',
      copyNode i s = .ok (b, s') ∧ Copied copy heap s s' (some i) (some b))
    (hs : Copying copy heap s) (hcopyable : Copyable copy node) :
    ∃ left right s₁ s₂ node', copyInput copyNode node.left s = .ok (left, s₁) ∧
      copyInput copyNode node.right s₁ = .ok (right, s₂) ∧ copy node.value left right = .ok node' ∧
      Copying copy heap s₂ ∧ s.copied <:+ s₂.copied ∧ IsCopy copy s₂.copied node node' ∧
      ∀ x ∈ s₂.copied.map Prod.fst, x ∈ s.copied.map Prod.fst ∨
        ∃ i ∈ node.inputs, Reaches heap i x := by
  have hleftInput : ∀ i, node.left = some i → i ∈ node.inputs := fun i hi =>
    List.mem_append_left _ (Option.mem_toList.mpr hi)
  have hrightInput : ∀ i, node.right = some i → i ∈ node.inputs := fun i hi =>
    List.mem_append_right _ (Option.mem_toList.mpr hi)
  obtain ⟨left, s₁, hleft, hcopiedLeft⟩ := copyInput_spec
    (fun i hi => hcopyNode hs (hleftInput i hi)) hs
  obtain ⟨right, s₂, hright, hcopiedRight⟩ := copyInput_spec
    (fun i hi => hcopyNode hcopiedLeft.copying (hrightInput i hi)) hcopiedLeft.copying
  obtain ⟨node', hnode'⟩ := hcopyable left right (isSome_eq_of_rel hcopiedLeft.rel)
    (isSome_eq_of_rel hcopiedRight.rel)
  refine ⟨left, right, s₁, s₂, node', hleft, hright, hnode', hcopiedRight.copying,
    hcopiedLeft.suffix.trans hcopiedRight.suffix, ?_, ?_⟩
  · exact ⟨left, right, rel_mono hcopiedRight.suffix hcopiedLeft.rel, hcopiedRight.rel, hnode'⟩
  · intro x hx
    rcases hcopiedRight.reaches x hx with hx | ⟨i, hi, hx⟩
    · rcases hcopiedLeft.reaches x hx with hx | ⟨i, hi, hx⟩
      · exact .inl hx
      · exact .inr ⟨i, hleftInput i hi, hx⟩
    · exact .inr ⟨i, hrightInput i hi, hx⟩

lemma notMem_of_lookup_eq_none {l : List (ℕ × ℕ)} {a : ℕ} (h : l.lookup a = none) :
    a ∉ l.map Prod.fst := by
  intro hmem
  obtain ⟨p, hp, rfl⟩ := List.mem_map.mp hmem
  exact absurd h (by simpa [List.lookup_eq_none_iff] using ⟨p.2, hp⟩)

/-- **A node and all that it reaches** are copied, if they can be. -/
lemma copyNode_spec {rank : ℕ → ℕ} {fuel a : ℕ}
    (hrank : ∀ x i, Reaches heap a x → IsInput heap x i → rank i < rank x)
    (hfuel : rank a < fuel) (hs : Copying copy heap s)
    (hok : ∀ x, Reaches heap a x → ∃ node, heap[x]? = some node ∧ Copyable copy node) :
    ∃ b s', copyNode copy stuck fuel a s = .ok (b, s') ∧
      Copied copy heap s s' (some a) (some b) := by
  induction fuel generalizing a s with
  | zero => exact absurd hfuel (Nat.not_lt_zero _)
  | succ fuel ih =>
    rw [copyNode]
    cases hlookup : s.copied.lookup a with
    | some b =>
      refine ⟨b, s, rfl, hs, List.suffix_refl _, .some ?_, fun x hx => .inl hx⟩
      obtain ⟨before, after, hcopied, -⟩ := List.lookup_eq_some_iff.mp hlookup
      rw [hcopied]
      exact List.mem_append_right _ List.mem_cons_self
    | none =>
      obtain ⟨node, hnode, hcopyable⟩ := hok a .refl
      have hinput : ∀ {i}, i ∈ node.inputs → IsInput heap a i := fun hi => ⟨node, hnode, hi⟩
      -- the copy of an input, from any state of the copying
      have hstep : ∀ {s : State α} {i : ℕ}, Copying copy heap s → i ∈ node.inputs →
          ∃ b s', copyNode copy stuck fuel i s = .ok (b, s') ∧
            Copied copy heap s s' (some i) (some b) := by
        intro s i hs hi
        have hlt := hrank a i .refl (hinput hi)
        refine ih (fun x j hx => ?_) (by omega) hs fun x hx => ?_
        · exact hrank x j (reaches_of_isInput (hinput hi) hx)
        · exact hok x (reaches_of_isInput (hinput hi) hx)
      obtain ⟨left, right, s₁, s₂, node', hleft, hright, hnode', hs₂, hsuffix, hcopy, hkeys⟩ :=
        copyInputs_spec hstep hs hcopyable
      -- the inputs reach only nodes of smaller ranks
      have ha : a ∉ s₂.copied.map Prod.fst := by
        intro hmem
        rcases hkeys a hmem with hmem | ⟨i, hi, hreaches⟩
        · exact notMem_of_lookup_eq_none hlookup hmem
        · have hle := rank_le_of_reaches
            (fun y j hy => hrank y j (reaches_of_isInput (hinput hi) hy)) hreaches
          exact absurd (hrank a i .refl (hinput hi)) (Nat.not_lt_of_le hle)
      refine ⟨s₂.heap.length, ⟨s₂.heap ++ [node'], (a, s₂.heap.length) :: s₂.copied⟩, ?_,
        hs₂.push ha hnode hcopy, ?_, .some List.mem_cons_self, ?_⟩
      · dsimp only
        rw [hs.getElem? hnode]
        dsimp only [bind, Except.bind]
        rw [hleft]
        dsimp only
        rw [hright]
        dsimp only
        rw [hnode']
        rfl
      · exact hsuffix.trans (List.suffix_cons _ _)
      · intro x hx
        rcases List.mem_cons.mp hx with rfl | hx
        · exact .inr ⟨_, rfl, .refl⟩
        · rcases hkeys x hx with hx | ⟨i, hi, hx⟩
          · exact .inl hx
          · exact .inr ⟨a, rfl, reaches_of_isInput (hinput hi) hx⟩

/-- A copy of a graph: the old nodes are as they were, and all that the root reaches has been copied
once, to all new addresses, with the copies of its inputs. -/
structure IsCopyOf (copy : α → Option ℕ → Option ℕ → Except ε (Node α)) (heap heap' : List (Node α))
    (root root' : ℕ) (f : ℕ → ℕ) : Prop where
  prefix_heap : heap <+: heap'
  map_root : f root = root'
  bijOn : Set.BijOn f {x | Reaches heap root x} (Set.Ico heap.length heap'.length)
  node : ∀ x node, Reaches heap root x → heap[x]? = some node → ∃ node', heap'[f x]? = some node' ∧
    copy node.value (node.left.map f) (node.right.map f) = .ok node'

lemma lookup_eq_some_of_mem {l : List (ℕ × ℕ)} (h : (l.map Prod.fst).Nodup) {x y : ℕ}
    (hmem : (x, y) ∈ l) : l.lookup x = some y := by
  induction l with
  | nil => cases hmem
  | cons p l ih =>
    obtain ⟨k, v⟩ := p
    rw [List.map_cons, List.nodup_cons] at h
    rcases List.mem_cons.mp hmem with heq | hmem'
    · obtain ⟨rfl, rfl⟩ := Prod.mk.inj heq
      rw [List.lookup_cons_self]
    · have hne : x ≠ k := by
        rintro rfl
        exact h.1 (List.mem_map.mpr ⟨(x, y), hmem', rfl⟩)
      rw [List.lookup_cons, beq_eq_false_iff_ne.mpr hne]
      exact ih h.2 hmem'

namespace Copying

/-- The copy that a memo has of a node. -/
lemma getD_lookup (h : Copying copy heap s) {x y : ℕ} (hmem : (x, y) ∈ s.copied) :
    (s.copied.lookup x).getD 0 = y := by
  rw [lookup_eq_some_of_mem h.nodup hmem]
  rfl

lemma map_getD_lookup (h : Copying copy heap s) {input output : Option ℕ}
    (hrel : Option.Rel (fun i j => (i, j) ∈ s.copied) input output) :
    input.map (fun x => (s.copied.lookup x).getD 0) = output := by
  cases hrel with
  | some hmem => rw [Option.map_some, h.getD_lookup hmem]
  | none => rfl

lemma mem_map_snd_iff (h : Copying copy heap s) {y : ℕ} :
    y ∈ s.copied.map Prod.snd ↔ y ∈ Set.Ico heap.length s.heap.length := by
  rw [h.fresh, List.mem_reverse, List.mem_range'_1,
    Nat.add_sub_cancel' h.prefix_heap.length_le, Set.mem_Ico]

lemma nodup_map_snd (h : Copying copy heap s) : (s.copied.map Prod.snd).Nodup := by
  rw [h.fresh, List.nodup_reverse]
  exact List.nodup_range'

/-- With a node all that it reaches has been copied. -/
lemma exists_mem_of_reaches (h : Copying copy heap s) {root root' x : ℕ}
    (hroot : (root, root') ∈ s.copied) (hx : Reaches heap root x) : ∃ y, (x, y) ∈ s.copied := by
  induction hx with
  | refl => exact ⟨root', hroot⟩
  | @tail x i _ hinput ih =>
    obtain ⟨y, hy⟩ := ih
    obtain ⟨node, node', hnode, -, left, right, hleft, hright, -⟩ := h.isCopy _ hy
    obtain ⟨node₂, hnode₂, hi⟩ := hinput
    obtain rfl := Option.some.inj (hnode.symm.trans hnode₂)
    rcases List.mem_append.mp hi with hi | hi
    · rw [Option.mem_toList.mp hi] at hleft
      cases hleft with
      | some hmem => exact ⟨_, hmem⟩
    · rw [Option.mem_toList.mp hi] at hright
      cases hright with
      | some hmem => exact ⟨_, hmem⟩

end Copying

/-- **The copy of a graph** whose nodes can be copied. -/
theorem copyGraph_spec {root : ℕ} (hacyclic : Acyclic heap root)
    (hok : ∀ x, Reaches heap root x → ∃ node, heap[x]? = some node ∧ Copyable copy node) :
    ∃ root' heap' f, copyGraph copy stuck heap root = .ok (root', heap') ∧
      IsCopyOf copy heap heap' root root' f := by
  obtain ⟨rank, hbound, hrank⟩ := hacyclic
  obtain ⟨root', s, hcopyNode, hcopied⟩ := @copyNode_spec _ _ copy stuck heap _ rank
    _ root hrank (Nat.lt_succ_of_le (hbound root)) (Copying.init heap) hok
  have hs := hcopied.copying
  have hroot : (root, root') ∈ s.copied := by
    cases hcopied.rel with
    | some hmem => exact hmem
  -- what has been copied is what the root reaches
  have hreaches : ∀ {x y}, (x, y) ∈ s.copied → Reaches heap root x := by
    intro x y hmem
    rcases hcopied.reaches x (List.mem_map.mpr ⟨_, hmem, rfl⟩) with hx | ⟨i, hi, hx⟩
    · cases hx
    · obtain rfl := Option.some.inj hi
      exact hx
  refine ⟨root', s.heap, fun x => (s.copied.lookup x).getD 0, ?_, hs.prefix_heap,
    hs.getD_lookup hroot, ⟨?_, ?_, ?_⟩, ?_⟩
  · rw [copyGraph, hcopyNode]
    rfl
  · intro x hx
    obtain ⟨y, hy⟩ := hs.exists_mem_of_reaches hroot hx
    dsimp only
    rw [hs.getD_lookup hy]
    exact hs.mem_map_snd_iff.mp (List.mem_map.mpr ⟨_, hy, rfl⟩)
  · intro x hx x' hx' heq
    obtain ⟨y, hy⟩ := hs.exists_mem_of_reaches hroot hx
    obtain ⟨y', hy'⟩ := hs.exists_mem_of_reaches hroot hx'
    dsimp only at heq
    rw [hs.getD_lookup hy, hs.getD_lookup hy'] at heq
    subst heq
    exact congrArg Prod.fst (List.inj_on_of_nodup_map hs.nodup_map_snd hy hy' rfl)
  · intro y hy
    obtain ⟨⟨x, y'⟩, hmem, rfl⟩ := List.mem_map.mp (hs.mem_map_snd_iff.mpr hy)
    exact ⟨x, hreaches hmem, hs.getD_lookup hmem⟩
  · intro x node hx hnode
    obtain ⟨y, hy⟩ := hs.exists_mem_of_reaches hroot hx
    obtain ⟨node₂, node', hnode₂, hnode', left, right, hleft, hright, hcopy⟩ := hs.isCopy _ hy
    obtain rfl := Option.some.inj (hnode.symm.trans hnode₂)
    rw [hs.getD_lookup hy, hs.map_getD_lookup hleft, hs.map_getD_lookup hright]
    exact ⟨node', hnode', hcopy⟩

/-! ### Images -/

/-- The nodes of a heap are as they were in another one. -/
def Extends (heap heap' : List (Node α)) : Prop :=
  ∀ (x : ℕ) (node : Node α), heap[x]? = some node → heap'[x]? = some node

/-- An image of a graph: every node that the root reaches has been copied once, to all new
addresses, with another value and the copies of its inputs. -/
structure IsImage (heap heap' : List (Node α)) (root root' : ℕ) (f : ℕ → ℕ) (g : ℕ → α → α) :
    Prop where
  allocated : ∀ x, Reaches heap root x → ∃ node, heap[x]? = some node
  map_root : f root = root'
  bijOn : Set.BijOn f {x | Reaches heap root x} (Set.Ico heap.length heap'.length)
  node : ∀ x node, Reaches heap root x → heap[x]? = some node →
    heap'[f x]? = some ⟨g x node.value, node.left.map f, node.right.map f⟩

section Image

variable {heap' heap'' : List (Node α)} {root root' : ℕ} {f : ℕ → ℕ} {g : ℕ → α → α}

lemma Extends.refl (heap : List (Node α)) : Extends heap heap := fun _ _ h => h

lemma Extends.trans (h : Extends heap heap') (h' : Extends heap' heap'') : Extends heap heap'' :=
  fun x node hnode => h' x node (h x node hnode)

lemma Extends.length_le (h : Extends heap heap') : heap.length ≤ heap'.length := by
  by_contra! hlt
  have hnode := h heap'.length _ (List.getElem?_eq_getElem hlt)
  rw [List.getElem?_eq_none le_rfl] at hnode
  cases hnode

/-- What is reached through nodes of a heap is reached in every heap that extends it. -/
lemma Extends.reaches_iff (h : Extends heap heap')
    (hallocated : ∀ x, Reaches heap root x → ∃ node, heap[x]? = some node) {x : ℕ} :
    Reaches heap' root x ↔ Reaches heap root x := by
  constructor
  · intro hx
    induction hx with
    | refl => exact .refl
    | tail _ hinput ih =>
      obtain ⟨node, hnode⟩ := hallocated _ ih
      obtain ⟨node', hnode', hi⟩ := hinput
      obtain rfl := Option.some.inj ((h _ _ hnode).symm.trans hnode')
      exact ih.tail ⟨node, hnode, hi⟩
  · intro hx
    induction hx with
    | refl => exact .refl
    | tail _ hinput ih =>
      obtain ⟨node, hnode, hi⟩ := hinput
      exact ih.tail ⟨node, h _ _ hnode, hi⟩

lemma Extends.acyclic (h : Extends heap heap')
    (hallocated : ∀ x, Reaches heap root x → ∃ node, heap[x]? = some node)
    (hacyclic : Acyclic heap root) : Acyclic heap' root := by
  obtain ⟨rank, hbound, hrank⟩ := hacyclic
  refine ⟨rank, fun x => (hbound x).trans h.length_le, fun x i hx hi => ?_⟩
  have hx := (h.reaches_iff hallocated).mp hx
  obtain ⟨node, hnode⟩ := hallocated x hx
  obtain ⟨node', hnode', hi⟩ := hi
  obtain rfl := Option.some.inj ((h _ _ hnode).symm.trans hnode')
  exact hrank x i hx ⟨node, hnode, hi⟩

/-- Nodes of a heap stay as they are if only others get new values. -/
lemma Extends.update (h : Extends heap heap') {m : ℕ → α → α}
    (hnode : ∀ y, heap''[y]? = heap'[y]?.map (Node.mapValue (m y)))
    (hm : ∀ y < heap.length, ∀ value, m y value = value) : Extends heap heap'' := by
  intro x node hget
  have hlt := (List.getElem?_eq_some_iff.mp hget).1
  rw [hnode, h x node hget, Option.map_some, Node.mapValue, hm x hlt]

lemma IsCopyOf.extends (h : IsCopyOf copy heap heap' root root' f) : Extends heap heap' := by
  obtain ⟨rest, rfl⟩ := h.prefix_heap
  intro x node hnode
  rw [List.getElem?_append_left (List.getElem?_eq_some_iff.mp hnode).1, hnode]

/-- A copy that keeps the inputs is an image. -/
lemma IsCopyOf.isImage (h : IsCopyOf copy heap heap' root root' f)
    (hnode : ∀ x, Reaches heap root x → ∃ node, heap[x]? = some node ∧
      ∀ left right, left.isSome = node.left.isSome → right.isSome = node.right.isSome →
        copy node.value left right = .ok ⟨g x node.value, left, right⟩) :
    IsImage heap heap' root root' f g where
  allocated x hx := by
    obtain ⟨node, hnode, -⟩ := hnode x hx
    exact ⟨node, hnode⟩
  map_root := h.map_root
  bijOn := h.bijOn
  node x node hx hget := by
    obtain ⟨node₂, hget₂, hcopy⟩ := hnode x hx
    obtain rfl := Option.some.inj (hget.symm.trans hget₂)
    obtain ⟨node', hget', hcopy'⟩ := h.node x node hx hget
    rw [hcopy _ _ Option.isSome_map Option.isSome_map] at hcopy'
    rw [hget', ← Except.ok.inj hcopy']

namespace IsImage

lemma isInput_iff (h : IsImage heap heap' root root' f g) {x j : ℕ} (hx : Reaches heap root x) :
    IsInput heap' (f x) j ↔ ∃ i, IsInput heap x i ∧ f i = j := by
  obtain ⟨node, hnode⟩ := h.allocated x hx
  have hinputs : ∀ value, (Node.mk (α := α) value (node.left.map f) (node.right.map f)).inputs =
      node.inputs.map f := by
    intro value
    rw [Node.inputs, Node.inputs, List.map_append]
    cases node.left <;> cases node.right <;> rfl
  constructor
  · rintro ⟨node', hnode', hj⟩
    rw [h.node x node hx hnode] at hnode'
    obtain rfl := Option.some.inj hnode'
    rw [hinputs, List.mem_map] at hj
    obtain ⟨i, hi, rfl⟩ := hj
    exact ⟨i, ⟨node, hnode, hi⟩, rfl⟩
  · rintro ⟨i, ⟨node₂, hnode₂, hi⟩, rfl⟩
    obtain rfl := Option.some.inj (hnode.symm.trans hnode₂)
    refine ⟨_, h.node x node hx hnode, ?_⟩
    rw [hinputs]
    exact List.mem_map_of_mem hi

/-- The root of the image reaches the images of what the root reaches. -/
lemma reaches_iff (h : IsImage heap heap' root root' f g) {y : ℕ} :
    Reaches heap' root' y ↔ ∃ x, Reaches heap root x ∧ f x = y := by
  constructor
  · intro hy
    induction hy with
    | refl => exact ⟨root, .refl, h.map_root⟩
    | tail _ hinput ih =>
      obtain ⟨x, hx, rfl⟩ := ih
      obtain ⟨i, hi, rfl⟩ := (h.isInput_iff hx).mp hinput
      exact ⟨i, hx.tail hi, rfl⟩
  · rintro ⟨x, hx, rfl⟩
    induction hx with
    | refl =>
      rw [h.map_root]
      exact .refl
    | tail hreaches hinput ih => exact ih.tail ((h.isInput_iff hreaches).mpr ⟨_, hinput, rfl⟩)

lemma acyclic (h : IsImage heap heap' root root' f g) (hle : heap.length ≤ heap'.length)
    (hacyclic : Acyclic heap root) :
    Acyclic heap' root' := by
  obtain ⟨rank, hbound, hrank⟩ := hacyclic
  have hinv := h.bijOn.invOn_invFunOn.1
  refine ⟨fun y => rank (Function.invFunOn f {x | Reaches heap root x} y),
    fun y => (hbound _).trans hle, fun y j hy hj => ?_⟩
  obtain ⟨x, hx, rfl⟩ := h.reaches_iff.mp hy
  obtain ⟨i, hi, rfl⟩ := (h.isInput_iff hx).mp hj
  dsimp only
  rw [hinv hx, hinv (hx.tail hi)]
  exact hrank x i hx hi

/-- New values in the image. -/
lemma update (h : IsImage heap heap' root root' f g) {m : ℕ → α → α}
    (hlength : heap''.length = heap'.length)
    (hnode : ∀ y, heap''[y]? = heap'[y]?.map (Node.mapValue (m y))) :
    IsImage heap heap'' root root' f fun x value => m (f x) (g x value) where
  allocated := h.allocated
  map_root := h.map_root
  bijOn := by
    rw [hlength]
    exact h.bijOn
  node x node hx hget := by
    rw [hnode, h.node x node hx hget]
    rfl

/-- Values that are the same where the root reaches. -/
lemma congr (h : IsImage heap heap' root root' f g) {g' : ℕ → α → α}
    (hg : ∀ x node, Reaches heap root x → heap[x]? = some node → g x node.value = g' x node.value) :
    IsImage heap heap' root root' f g' where
  allocated := h.allocated
  map_root := h.map_root
  bijOn := h.bijOn
  node x node hx hget := by rw [← hg x node hx hget, h.node x node hx hget]

/-- The image is behind the heap. -/
lemma length_le (h : IsImage heap heap' root root' f g) {x : ℕ} (hx : Reaches heap root x) :
    heap.length ≤ f x :=
  (h.bijOn.mapsTo hx).1

end IsImage

end Image

/-! ### Updates -/

/-- A node with another value. -/
def updateNode (stuck : ε) (f : α → Except ε α) (heap : List (Node α)) (a : ℕ) :
    Except ε (List (Node α)) :=
  match heap[a]? with
  | none => .error stuck
  | some node => do
    let value ← f node.value
    return heap.set a { node with value }

lemma updateNode_eq (stuck : ε) {f : α → Except ε α} {a : ℕ} {node : Node α} {value : α}
    (hnode : heap[a]? = some node) (hvalue : f node.value = .ok value) :
    updateNode stuck f heap a = .ok (heap.set a { node with value }) := by
  rw [updateNode, hnode]
  dsimp only
  rw [hvalue]
  rfl

lemma getElem?_set_mapValue {g : α → α} {a : ℕ} {node : Node α} (hnode : heap[a]? = some node)
    (y : ℕ) : (heap.set a (node.mapValue g))[y]? =
      heap[y]?.map (Node.mapValue fun value => if y = a then g value else value) := by
  by_cases hy : y = a
  · subst hy
    rw [List.getElem?_set_self (List.getElem?_eq_some_iff.mp hnode).1, hnode, Option.map_some]
    simp
  · rw [List.getElem?_set_ne (Ne.symm hy)]
    cases heap[y]? <;> simp [hy, Node.mapValue]

/-- Some nodes with other values. -/
lemma foldlM_updateNode (stuck : ε) {f : α → Except ε α} {g : α → α} {l : List ℕ} (hnodup : l.Nodup)
    (hok : ∀ a ∈ l, ∃ node, heap[a]? = some node ∧ f node.value = .ok (g node.value)) :
    ∃ heap', l.foldlM (updateNode stuck f) heap = .ok heap' ∧ heap'.length = heap.length ∧
      ∀ y, heap'[y]? = heap[y]?.map (Node.mapValue fun value =>
        if y ∈ l then g value else value) := by
  induction l generalizing heap with
  | nil =>
    refine ⟨heap, rfl, rfl, fun y => ?_⟩
    cases heap[y]? <;> simp [Node.mapValue]
  | cons a l ih =>
    rw [List.nodup_cons] at hnodup
    rw [List.forall_mem_cons] at hok
    obtain ⟨⟨node, hnode, hvalue⟩, hok⟩ := hok
    obtain ⟨heap', hfold, hlength, hget⟩ := @ih (heap.set a (node.mapValue g)) hnodup.2 (by
      intro b hb
      obtain ⟨node', hnode', hvalue'⟩ := hok b hb
      have hne : b ≠ a := fun h => hnodup.1 (h ▸ hb)
      exact ⟨node', by rw [List.getElem?_set_ne (Ne.symm hne), hnode'], hvalue'⟩)
    refine ⟨heap', ?_, by rw [hlength, List.length_set], fun y => ?_⟩
    · rw [List.foldlM_cons, updateNode_eq stuck hnode hvalue]
      exact hfold
    · rw [hget, getElem?_set_mapValue hnode, Option.map_map]
      cases hy : heap[y]? with
      | none => rfl
      | some node' =>
        by_cases hya : y = a
        · subst hya
          simp [hnodup.1, Node.mapValue]
        · simp [hya, Node.mapValue]

/-! ### Visits -/

/-- The inputs of a node, if they are entered. -/
def entered (enters : Node α → Bool) (node : Node α) : List ℕ :=
  if enters node then node.inputs else []

/-- The nodes of a queue and those that they reach, each once, in the order of a breadth-first
search; the inputs of some nodes are not entered. -/
def visit (heap : List (Node α)) (enters : Node α → Bool) (visited : List ℕ) :
    List ℕ → Option (List ℕ)
  | [] => some []
  | a :: queue =>
    if a ∈ visited then visit heap enters visited queue
    else if hlt : a < heap.length then
      (visit heap enters (a :: visited) (queue ++ entered enters heap[a])).map (a :: ·)
    else none
termination_by queue => (((Finset.range heap.length).filter (· ∉ visited)).card, queue.length)
decreasing_by
  · exact Prod.Lex.right _ (Nat.lt_succ_self _)
  · next hnew =>
    apply Prod.Lex.left
    apply Finset.card_lt_card
    refine ⟨fun x hx => ?_, fun hsubset => ?_⟩
    · rw [Finset.mem_filter, List.mem_cons, not_or] at hx
      exact Finset.mem_filter.mpr ⟨hx.1, hx.2.2⟩
    · have ha := hsubset (Finset.mem_filter.mpr ⟨Finset.mem_range.mpr hlt, hnew⟩)
      exact (Finset.mem_filter.mp ha).2 List.mem_cons_self

/-- What a visit finds: what its queue reaches, if what is not entered has no inputs. -/
lemma visit_spec {enters : Node α → Bool} (visited queue : List ℕ)
    (hok : ∀ q ∈ queue, ∀ x, Reaches heap q x → ∃ node, heap[x]? = some node ∧
      (enters node = false → node.inputs = [])) :
    ∃ found, visit heap enters visited queue = some found ∧ found.Nodup ∧
      (∀ x ∈ found, x ∉ visited) ∧ (∀ q ∈ queue, q ∈ visited ∨ q ∈ found) ∧
      (∀ x ∈ found, ∃ q ∈ queue, Reaches heap q x) ∧
      ∀ x ∈ found, ∀ i, IsInput heap x i → i ∈ visited ∨ i ∈ found := by
  induction visited, queue using visit.induct heap enters with
  | case1 visited =>
    refine ⟨[], by rw [visit], List.nodup_nil, ?_⟩
    simp
  | case2 visited a queue ha ih =>
    rw [List.forall_mem_cons] at hok
    obtain ⟨found, hfound, hnodup, hnew, hqueue, hbelow, hinputs⟩ := ih hok.2
    refine ⟨found, by rw [visit, if_pos ha, hfound], hnodup, hnew, ?_, ?_, hinputs⟩
    · exact List.forall_mem_cons.mpr ⟨.inl ha, hqueue⟩
    · intro x hx
      obtain ⟨q, hq, hreaches⟩ := hbelow x hx
      exact ⟨q, List.mem_cons_of_mem _ hq, hreaches⟩
  | case3 visited a queue ha hlt ih =>
    obtain ⟨node, hnode, hstop⟩ := hok a List.mem_cons_self a .refl
    obtain ⟨_, hget⟩ := List.getElem?_eq_some_iff.mp hnode
    -- the inputs that are entered are all inputs
    have hentered : entered enters heap[a] = node.inputs := by
      rw [hget, entered]
      by_cases henters : enters node
      · rw [if_pos henters]
      · rw [if_neg henters, hstop (Bool.eq_false_of_not_eq_true henters)]
    rw [hentered] at ih
    have hinput : ∀ {i}, i ∈ node.inputs → IsInput heap a i := fun hi => ⟨node, hnode, hi⟩
    obtain ⟨found, hfound, hnodup, hnew, hqueue, hbelow, hinputs⟩ := ih (by
      intro q hq x hx
      rcases List.mem_append.mp hq with hq | hq
      · exact hok q (List.mem_cons_of_mem _ hq) x hx
      · exact hok a List.mem_cons_self x (reaches_of_isInput (hinput hq) hx))
    have hmem : ∀ {x}, x ∈ a :: visited ∨ x ∈ found → x ∈ visited ∨ x ∈ a :: found := by
      intro x hx
      simp only [List.mem_cons] at hx ⊢
      tauto
    refine ⟨a :: found, ?_, ?_, ?_, ?_, ?_, ?_⟩
    · rw [visit, if_neg ha, dif_pos hlt, hentered, hfound]
      rfl
    · exact List.nodup_cons.mpr ⟨fun hafound => hnew a hafound List.mem_cons_self, hnodup⟩
    · refine List.forall_mem_cons.mpr ⟨ha, fun x hx hvisited => ?_⟩
      exact hnew x hx (List.mem_cons_of_mem _ hvisited)
    · refine List.forall_mem_cons.mpr ⟨.inr List.mem_cons_self, fun q hq => ?_⟩
      exact hmem (hqueue q (List.mem_append_left _ hq))
    · refine List.forall_mem_cons.mpr ⟨⟨a, List.mem_cons_self, .refl⟩, fun x hx => ?_⟩
      obtain ⟨q, hq, hreaches⟩ := hbelow x hx
      rcases List.mem_append.mp hq with hq | hq
      · exact ⟨q, List.mem_cons_of_mem _ hq, hreaches⟩
      · exact ⟨a, List.mem_cons_self, reaches_of_isInput (hinput hq) hreaches⟩
    · refine List.forall_mem_cons.mpr ⟨fun i hi => ?_, fun x hx i hi => hmem (hinputs x hx i hi)⟩
      obtain ⟨node', hnode', hi⟩ := hi
      obtain rfl := Option.some.inj (hnode.symm.trans hnode')
      exact hmem (hqueue i (List.mem_append_right _ hi))
  | case4 visited a queue ha hge =>
    obtain ⟨node, hnode, -⟩ := hok a List.mem_cons_self a .refl
    exact absurd (List.getElem?_eq_some_iff.mp hnode).1 hge

/-- **A visit** from a root finds what the root reaches, each node once. -/
theorem visit_root {enters : Node α → Bool} {root : ℕ}
    (hok : ∀ x, Reaches heap root x → ∃ node, heap[x]? = some node ∧
      (enters node = false → node.inputs = [])) :
    ∃ found, visit heap enters [] [root] = some found ∧ found.Nodup ∧
      ∀ x, x ∈ found ↔ Reaches heap root x := by
  obtain ⟨found, hfound, hnodup, -, hqueue, hbelow, hinputs⟩ :=
    visit_spec [] [root] (List.forall_mem_singleton.mpr hok)
  refine ⟨found, hfound, hnodup, fun x => ⟨fun hx => ?_, fun hx => ?_⟩⟩
  · obtain ⟨q, hq, hreaches⟩ := hbelow x hx
    obtain rfl := List.mem_singleton.mp hq
    exact hreaches
  · induction hx with
    | refl => exact (hqueue root List.mem_cons_self).resolve_left List.not_mem_nil
    | tail _ hinput ih => exact (hinputs _ ih _ hinput).resolve_left List.not_mem_nil

end SharedCopy
