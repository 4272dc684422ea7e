import Sema.Typing.Check

/-! # Operators

What each operator asks of its operands. A use of any other operator is no mistake of the program
but a tree that cannot have been read from one.
-/

namespace Sema

/-- Operands of one required type, the kind of complaint about any other, and the type of the result. -/
structure OperandRule where
  required : Ty
  kind : DiagnosticKind
  result : Ty

inductive BinaryRule where
  | uniform (rule : OperandRule)
  /-- operands of equal type, if values of that type can be compared -/
  | equality

def unaryRule? (op : String) : Option OperandRule :=
  if op = "-" then some ⟨.int, .arithmetic, .int⟩
  else if op = "!" then some ⟨.bool, .logical, .bool⟩
  else none

def arithmeticOps : List String := ["+", "-", "*", "/"]
def logicalOps : List String := ["&&", "||"]
def relationalOps : List String := ["<", ">", "<=", ">="]
def equalityOps : List String := ["==", "!="]

def binaryRule? (op : String) : Option BinaryRule :=
  if op ∈ arithmeticOps then some (.uniform ⟨.int, .arithmetic, .int⟩)
  else if op ∈ logicalOps then some (.uniform ⟨.bool, .logical, .bool⟩)
  else if op ∈ relationalOps then some (.uniform ⟨.int, .relational, .bool⟩)
  else if op ∈ equalityOps then some .equality
  else none

end Sema
