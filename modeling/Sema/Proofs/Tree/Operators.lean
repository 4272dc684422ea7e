import Sema.Proofs.Tree.Erasure
import Sema.Typing.Operator

/-!
# Trees with known operators

What the grammar asks beyond the families of nodes: operators are those that the language has, and
a statement that assigns consists of an assignment.
-/

namespace Sema

namespace Node

def isAssign : Node → Bool
  | .assign _ _ => true
  | _ => false

/-- The operator, if the node has one, is an operator of the language. -/
def hasKnownOperator : Node → Bool
  | .unary op _ => (unaryRule? op).isSome
  | .binary op _ _ => (binaryRule? op).isSome
  | _ => true

/-- A statement that assigns consists of an assignment. -/
def holdsAssign : Node → Bool
  | .assignStmt e => e.isAssign
  | _ => true

def isProper (n : Node) : Bool := n.hasKnownOperator && n.holdsAssign

/-- In an expression there are only operators to be known. -/
theorem throughout_isProper_of_isExpr {e : Node} (hexpr : e.isExpr = true)
    (hoperators : ∀ m ∈ allNodes [e], m.hasKnownOperator = true) :
    e.Throughout (isProper · = true) := by
  have hproper : ∀ m ∈ allNodes [e], m.isProper = true := by
    intro m hm
    have hm' : m.isExpr = true :=
      forall_allNodes (fun _ h _ => isExpr_child h) (List.forall_mem_singleton.mpr hexpr) m hm
    have hassign : m.holdsAssign = true := by
      cases m with
      | assignStmt e => cases hm'
      | _ => rfl
    rw [isProper, hoperators m hm, hassign, Bool.and_self]
  exact forall_mem_allNodes.mp hproper e (List.mem_singleton_self e)

@[simp] theorem hasKnownOperator_erase (n : Node) :
    n.erase.hasKnownOperator = n.hasKnownOperator := by
  cases n <;> rfl

@[simp] theorem isProper_erase (n : Node) : n.erase.isProper = n.isProper := by
  have hassign (e : Node) : e.erase.isAssign = e.isAssign := by
    cases e <;> rfl
  have hholds : n.erase.holdsAssign = n.holdsAssign := by
    cases n with
    | assignStmt e => exact hassign e
    | _ => rfl
  rw [isProper, isProper, hasKnownOperator_erase, hholds]

theorem forall_isProper_of_eraseAll {ns ms : List Node} (h : eraseAll ns = eraseAll ms)
    (hms : ∀ m ∈ allNodes ms, m.isProper = true) : ∀ n ∈ allNodes ns, n.isProper = true :=
  forall_of_eraseAll isProper_erase h hms

end Node

end Sema
