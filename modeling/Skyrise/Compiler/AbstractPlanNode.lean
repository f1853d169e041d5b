/-
The links between plan nodes.

A plan node owns its inputs, and each input lists the nodes that it is an input of, by
pointers that do not own them.  `SetInput` unties a node from the input that it has had on a
side and ties in the new one.  The entry to remove is the first that is the node, or whose
node does not exist any more.

The nodes are held by their owners, so that they all exist.
-/
import Mathlib.Data.List.Count
import Skyrise.Utils.Assert

namespace Skyrise

/-- `DebugAssert`, which is an assertion in a debug build only. -/
def debugAssert (isDebug condition : Bool) (message : String) : Except Exception Unit :=
  if isDebug then assert condition message else .ok ()

/-- `PlanInputSide`. -/
inductive PlanInputSide where
  | left
  | right
deriving DecidableEq, Repr

/-- `AbstractPlanNode`; the other nodes are given by their names. -/
structure AbstractPlanNode (ν : Type) where
  name : String
  requiresRightInput : Bool
  leftInput : Option ν := none
  rightInput : Option ν := none
  outputs : List ν := []

namespace AbstractPlanNode

variable {ν : Type}

/-- The input on a side. -/
def input (side : PlanInputSide) (node : AbstractPlanNode ν) : Option ν :=
  match side with
  | .left => node.leftInput
  | .right => node.rightInput

/-- The node with another input on a side. -/
def withInput (side : PlanInputSide) (input : Option ν) (node : AbstractPlanNode ν) :
    AbstractPlanNode ν :=
  match side with
  | .left => { node with leftInput := input }
  | .right => { node with rightInput := input }

@[simp] lemma outputs_withInput (side : PlanInputSide) (input : Option ν)
    (node : AbstractPlanNode ν) : (node.withInput side input).outputs = node.outputs := by
  cases side <;> rfl

/-- `AddOutputPointer`. -/
def addOutputPointer (output : ν) (node : AbstractPlanNode ν) : AbstractPlanNode ν :=
  { node with outputs := node.outputs ++ [output] }

variable [DecidableEq ν]

/-- `RemoveOutputPointer`. -/
def removeOutputPointer (isExpired : ν → Bool) (output : ν) (node : AbstractPlanNode ν) :
    Except Exception (AbstractPlanNode ν) := do
  assert (node.outputs.any fun other => decide (other = output) || isExpired other)
    "Specified output node is not actually an output of this node."
  return { node with
    outputs := node.outputs.eraseP fun other => decide (other = output) || isExpired other }

/-- The number of sides on which a node has an input. -/
def inputSides (n : ν) (node : AbstractPlanNode ν) : ℕ :=
  [node.leftInput, node.rightInput].count (some n)

/-- A side that gets another input. -/
lemma inputSides_withInput (side : PlanInputSide) (input : Option ν) (node : AbstractPlanNode ν)
    (n : ν) : (node.withInput side input).inputSides n + [node.input side].count (some n) =
      node.inputSides n + [input].count (some n) := by
  cases side with
  | left =>
    simp only [withInput, inputSides, AbstractPlanNode.input, List.count_cons, List.count_nil]
    omega
  | right =>
    simp only [withInput, inputSides, AbstractPlanNode.input, List.count_cons, List.count_nil]
    omega

lemma inputSides_congr {node node' : AbstractPlanNode ν}
    (h : ∀ side, node'.input side = node.input side) (n : ν) :
    node'.inputSides n = node.inputSides n := by
  rw [inputSides, inputSides, show node'.leftInput = node.leftInput from h .left,
    show node'.rightInput = node.rightInput from h .right]

lemma inputSides_pos {side : PlanInputSide} {node : AbstractPlanNode ν} {n : ν}
    (h : node.input side = some n) : 0 < node.inputSides n := by
  rw [inputSides, List.count_pos_iff, ← h]
  cases side <;> simp [input]

/-- Of nodes that all exist, the first entry of the node is removed. -/
lemma removeOutputPointer_eq_ok {isExpired : ν → Bool} (hexist : ∀ n, isExpired n = false)
    {output : ν} {node : AbstractPlanNode ν} (h : output ∈ node.outputs) :
    node.removeOutputPointer isExpired output =
      .ok { node with outputs := node.outputs.erase output } := by
  have hentry : (fun other => decide (other = output) || isExpired other) =
      fun other => other == output := by
    funext other
    rw [hexist, Bool.or_false]
    rfl
  have hany : (node.outputs.any fun other => other == output) = true :=
    List.any_eq_true.mpr ⟨output, h, beq_self_eq_true output⟩
  rw [removeOutputPointer, hentry, hany, List.erase_eq_eraseP']
  rfl

end AbstractPlanNode

/-- Plan nodes with their names. -/
structure PlanNodes (ν : Type) where
  node : ν → AbstractPlanNode ν
  /-- Whether a node does not exist any more. -/
  isExpired : ν → Bool

namespace PlanNodes

variable {ν : Type} [DecidableEq ν]

/-- The nodes with another one of a name. -/
def set (n : ν) (node : AbstractPlanNode ν) (s : PlanNodes ν) : PlanNodes ν :=
  { s with node := Function.update s.node n node }

/-- Unties a node from its input, if it has one. -/
def untie (n : ν) (current : Option ν) (s : PlanNodes ν) : Except Exception (PlanNodes ν) :=
  match current with
  | none => return s
  | some c => return s.set c (← (s.node c).removeOutputPointer s.isExpired n)

/-- Ties in the input of a node, if there is one. -/
def tieIn (n : ν) (input : Option ν) (s : PlanNodes ν) : PlanNodes ν :=
  match input with
  | none => s
  | some m => s.set m ((s.node m).addOutputPointer n)

/-- `SetInput` of a node. -/
def setInput (isDebug : Bool) (side : PlanInputSide) (n : ν) (input : Option ν) (s : PlanNodes ν) :
    Except Exception (PlanNodes ν) := do
  debugAssert isDebug (side == .left || input.isNone || (s.node n).requiresRightInput)
    ("The plan node " ++ (s.node n).name ++ " does not accept a right input")
  if (s.node n).input side = input then return s
  let s ← s.untie n ((s.node n).input side)
  return (s.set n ((s.node n).withInput side input)).tieIn n input

/-- `SetLeftInput`. -/
def setLeftInput (isDebug : Bool) (n : ν) (leftInput : Option ν) (s : PlanNodes ν) :
    Except Exception (PlanNodes ν) := s.setInput isDebug .left n leftInput

/-- `SetRightInput`. -/
def setRightInput (isDebug : Bool) (n : ν) (rightInput : Option ν) (s : PlanNodes ν) :
    Except Exception (PlanNodes ν) := s.setInput isDebug .right n rightInput

/-- The calls that change links. -/
inductive Call (ν : Type) where
  | setInput (side : PlanInputSide) (n : ν) (input : Option ν)
  | setLeftInput (n : ν) (leftInput : Option ν)
  | setRightInput (n : ν) (rightInput : Option ν)

/-- What a call returns. -/
def call (isDebug : Bool) (s : PlanNodes ν) : Call ν → Except Exception (PlanNodes ν)
  | .setInput side n input => s.setInput isDebug side n input
  | .setLeftInput n leftInput => s.setLeftInput isDebug n leftInput
  | .setRightInput n rightInput => s.setRightInput isDebug n rightInput

/-- The nodes after some calls.  A call that throws has not changed anything. -/
def run (isDebug : Bool) (s : PlanNodes ν) (calls : List (Call ν)) : PlanNodes ν :=
  calls.foldl (fun s c => (s.call isDebug c).toOption.getD s) s

/-- New nodes. -/
def new (name : ν → String) (requiresRightInput : ν → Bool) : PlanNodes ν :=
  ⟨fun n => { name := name n, requiresRightInput := requiresRightInput n }, fun _ => false⟩

/-! ### Consistent links -/

/-- Every node lists another one as often as it is an input of that, and all nodes exist. -/
structure Consistent (s : PlanNodes ν) : Prop where
  exist : ∀ n, s.isExpired n = false
  count : ∀ n o, (s.node n).outputs.count o = (s.node o).inputSides n

lemma consistent_new (name : ν → String) (requiresRightInput : ν → Bool) :
    (new name requiresRightInput).Consistent where
  exist _ := rfl
  count _ _ := rfl

variable {s s' : PlanNodes ν} {n : ν} {isDebug : Bool}

/-- A node is untied from an input that lists it. -/
lemma untie_spec (hexist : ∀ m, s.isExpired m = false) (n : ν) {current : Option ν}
    (h : ∀ c, current = some c → n ∈ (s.node c).outputs) : ∃ s', s.untie n current = .ok s' ∧
      s'.isExpired = s.isExpired ∧ (∀ o side, (s'.node o).input side = (s.node o).input side) ∧
        ∀ m o, (s'.node m).outputs.count o + (if o = n then [current].count (some m) else 0) =
          (s.node m).outputs.count o := by
  cases current with
  | none => exact ⟨s, rfl, rfl, fun _ _ => rfl, fun m o => by simp⟩
  | some c =>
    have hremove := AbstractPlanNode.removeOutputPointer_eq_ok hexist (h c rfl)
    refine ⟨s.set c { s.node c with outputs := (s.node c).outputs.erase n }, ?_, rfl,
      fun o side => ?_, fun m o => ?_⟩
    · rw [untie, hremove]
      rfl
    · rcases eq_or_ne o c with rfl | hoc
      · cases side <;> simp [set, AbstractPlanNode.input]
      · simp [set, hoc]
    · rcases eq_or_ne m c with rfl | hmc
      · have hpos := List.count_pos_iff.mpr (h m rfl)
        rcases eq_or_ne o n with rfl | hon
        · simp only [set, Function.update_self, List.count_erase_self, if_true,
            List.count_singleton_self]
          omega
        · simp [set, hon, List.count_erase_of_ne]
      · simp [set, hmc, hmc.symm]

lemma tieIn_spec (n : ν) (input : Option ν) (s : PlanNodes ν) :
    (s.tieIn n input).isExpired = s.isExpired ∧
      (∀ o side, ((s.tieIn n input).node o).input side = (s.node o).input side) ∧
        ∀ m o, ((s.tieIn n input).node m).outputs.count o =
          (s.node m).outputs.count o + (if o = n then [input].count (some m) else 0) := by
  cases input with
  | none => exact ⟨rfl, fun _ _ => rfl, fun m o => by simp [tieIn]⟩
  | some c =>
    refine ⟨rfl, fun o side => ?_, fun m o => ?_⟩
    · rcases eq_or_ne o c with rfl | hoc
      · cases side <;> simp [tieIn, set, AbstractPlanNode.input, AbstractPlanNode.addOutputPointer]
      · simp [tieIn, set, hoc]
    · rcases eq_or_ne m c with rfl | hmc
      · rcases eq_or_ne o n with rfl | hon
        · simp [tieIn, set, AbstractPlanNode.addOutputPointer]
        · simp [tieIn, set, AbstractPlanNode.addOutputPointer, hon, hon.symm]
      · simp [tieIn, set, hmc, hmc.symm]

/-- A call that is allowed unties the node and ties it in. -/
lemma Consistent.setInput (h : s.Consistent) (side : PlanInputSide) (input : Option ν)
    (hallowed : isDebug = true →
      (side == .left || input.isNone || (s.node n).requiresRightInput) = true) :
    ∃ s', s.setInput isDebug side n input = .ok s' ∧ s'.Consistent := by
  have hassert : ∀ message, debugAssert isDebug
      (side == .left || input.isNone || (s.node n).requiresRightInput) message = .ok () := by
    intro message
    rw [debugAssert]
    split
    · rw [hallowed ‹_›]
      rfl
    · rfl
  by_cases hsame : (s.node n).input side = input
  · refine ⟨s, ?_, h⟩
    rw [PlanNodes.setInput, hassert]
    exact if_pos hsame
  · obtain ⟨u, huntie, hexpired, hinputs, houtputs⟩ :=
      untie_spec h.exist n fun c (hc : (s.node n).input side = some c) => by
        rw [← List.count_pos_iff, h.count]
        exact AbstractPlanNode.inputSides_pos hc
    obtain ⟨hexpired', hinputs', houtputs'⟩ :=
      tieIn_spec n input (u.set n ((u.node n).withInput side input))
    refine ⟨(u.set n ((u.node n).withInput side input)).tieIn n input, ?_, fun m => ?_,
      fun m o => ?_⟩
    · rw [PlanNodes.setInput, hassert, huntie]
      exact if_neg hsame
    · rw [hexpired']
      exact (congrFun hexpired m).trans (h.exist m)
    · rw [houtputs', AbstractPlanNode.inputSides_congr (hinputs' o)]
      rcases eq_or_ne o n with rfl | hon
      · -- the side of the node itself
        have hside := AbstractPlanNode.inputSides_withInput side input (u.node o) m
        rw [hinputs o side, AbstractPlanNode.inputSides_congr (hinputs o), ← h.count,
          ← houtputs m o, if_pos rfl] at hside
        have hsame' : ((u.set o ((u.node o).withInput side input)).node m).outputs =
            (u.node m).outputs := by
          rcases eq_or_ne m o with rfl | hmo
          · simp [set]
          · simp [set, hmo]
        rw [hsame', if_pos rfl]
        simp only [set, Function.update_self]
        omega
      · have hsame' : ((u.set n ((u.node n).withInput side input)).node m).outputs =
            (u.node m).outputs := by
          rcases eq_or_ne m n with rfl | hmn
          · simp [set]
          · simp [set, hmn]
        have hother : (u.set n ((u.node n).withInput side input)).node o = u.node o :=
          Function.update_of_ne hon _ _
        have hcount := houtputs m o
        rw [if_neg hon, Nat.add_zero] at hcount
        rw [hsame', hother, if_neg hon, Nat.add_zero, hcount, h.count,
          AbstractPlanNode.inputSides_congr (hinputs o)]

/-- A call that is not allowed fails in a debug build. -/
lemma setInput_eq_error {side : PlanInputSide} {input : Option ν} (hdebug : isDebug = true)
    (hallowed : (side == .left || input.isNone || (s.node n).requiresRightInput) = false) :
    s.setInput isDebug side n input = .error (.assertionFailed
      ("The plan node " ++ (s.node n).name ++ " does not accept a right input")) := by
  rw [setInput, debugAssert, hdebug, hallowed]
  rfl

/-- A call keeps the links consistent. -/
lemma Consistent.call (h : s.Consistent) (isDebug : Bool) (c : Call ν) :
    ((s.call isDebug c).toOption.getD s).Consistent := by
  have hset : ∀ side n input, ((s.setInput isDebug side n input).toOption.getD s).Consistent := by
    intro side n input
    by_cases hallowed : isDebug = true →
        (side == .left || input.isNone || (s.node n).requiresRightInput) = true
    · obtain ⟨s', hs', hconsistent⟩ := h.setInput side input hallowed
      rw [hs']
      exact hconsistent
    · rw [Classical.not_imp, Bool.not_eq_true] at hallowed
      rw [setInput_eq_error hallowed.1 hallowed.2]
      exact h
  cases c with
  | setInput side n input => exact hset side n input
  | setLeftInput n leftInput => exact hset .left n leftInput
  | setRightInput n rightInput => exact hset .right n rightInput

/-- **After every sequence of calls a node occurs in the outputs of another one as often as that is
an input of it.** -/
theorem count_outputs_run (name : ν → String) (requiresRightInput : ν → Bool) (isDebug : Bool)
    (calls : List (Call ν)) (n o : ν) :
    (((new name requiresRightInput).run isDebug calls).node n).outputs.count o =
      (((new name requiresRightInput).run isDebug calls).node o).inputSides n := by
  have hrun : ∀ s : PlanNodes ν, s.Consistent → (s.run isDebug calls).Consistent := by
    induction calls with
    | nil => exact fun s hs => hs
    | cons c calls ih => exact fun s hs => ih _ (hs.call isDebug c)
  exact (hrun _ (consistent_new name requiresRightInput)).count n o

end PlanNodes

end Skyrise
