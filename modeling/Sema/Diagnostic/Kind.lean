/-! # Kinds of diagnostics

The first six kinds belong to name analysis, the others to type analysis.
-/

namespace Sema

inductive DiagnosticKind where
  | multiplyDeclared
  | undeclared
  | badVoidType
  | undefinedStructType
  | dotAccessOfNonStruct
  | invalidStructField
  | arithmetic
  | logical
  | relational
  | equalityMismatch
  | equalityOperandBanned
  | invalidAssignmentTarget
  | assignmentMismatch
  | callOfNonFunction
  | arityMismatch
  | argumentMismatch
  | returnValueFromVoid
  | missingReturnValue
  | missingReturn
  | badReturnValue
  | nonBoolCondition
  | readOfFunction
  | readOfStructName
  | readOfStructVariable
  | writeOfFunction
  | writeOfStructName
  | writeOfStructVariable
  | writeOfVoid
  deriving DecidableEq, Repr

namespace DiagnosticKind

/-- Every kind, in the order they are listed to a user. -/
def all : List DiagnosticKind :=
  [multiplyDeclared, undeclared, badVoidType, undefinedStructType, dotAccessOfNonStruct,
    invalidStructField, arithmetic, logical, relational, equalityMismatch, equalityOperandBanned,
    invalidAssignmentTarget, assignmentMismatch, callOfNonFunction, arityMismatch, argumentMismatch,
    returnValueFromVoid, missingReturnValue, missingReturn, badReturnValue, nonBoolCondition,
    readOfFunction, readOfStructName, readOfStructVariable, writeOfFunction, writeOfStructName,
    writeOfStructVariable, writeOfVoid]

/-- The stable identifier of the kind. -/
def code : DiagnosticKind → String
  | multiplyDeclared => "multiply-declared"
  | undeclared => "undeclared"
  | badVoidType => "bad-void-type"
  | undefinedStructType => "undefined-struct-type"
  | dotAccessOfNonStruct => "dot-access-of-non-struct"
  | invalidStructField => "invalid-struct-field"
  | arithmetic => "arithmetic"
  | logical => "logical"
  | relational => "relational"
  | equalityMismatch => "equality-mismatch"
  | equalityOperandBanned => "equality-operand-banned"
  | invalidAssignmentTarget => "invalid-assignment-target"
  | assignmentMismatch => "assignment-mismatch"
  | callOfNonFunction => "call-of-non-function"
  | arityMismatch => "arity-mismatch"
  | argumentMismatch => "argument-mismatch"
  | returnValueFromVoid => "return-value-from-void"
  | missingReturnValue => "missing-return-value"
  | missingReturn => "missing-return"
  | badReturnValue => "bad-return-value"
  | nonBoolCondition => "non-bool-condition"
  | readOfFunction => "read-of-function"
  | readOfStructName => "read-of-struct-name"
  | readOfStructVariable => "read-of-struct-variable"
  | writeOfFunction => "write-of-function"
  | writeOfStructName => "write-of-struct-name"
  | writeOfStructVariable => "write-of-struct-variable"
  | writeOfVoid => "write-of-void"

/-- What a diagnostic of the kind says unless it is given words of its own. -/
def message : DiagnosticKind → String
  | multiplyDeclared => "Multiply declared identifier"
  | undeclared => "Undeclared identifier"
  | badVoidType => "Non-function declared void"
  | undefinedStructType => "Invalid name of struct type"
  | dotAccessOfNonStruct => "Dot-access of non-struct type"
  | invalidStructField => "Invalid struct field name"
  | arithmetic => "Arithmetic operator applied to non-numeric operand"
  | logical => "Logical operator applied to non-bool operand"
  | relational => "Relational operator applied to non-numeric operand"
  | equalityMismatch => "Type mismatch"
  | equalityOperandBanned => "Equality operator applied to an invalid operand"
  | invalidAssignmentTarget => "Invalid assignment target"
  | assignmentMismatch => "Type mismatch"
  | callOfNonFunction => "Attempt to call a non-function"
  | arityMismatch => "Function call with wrong number of args"
  | argumentMismatch => "Type of actual does not match type of formal"
  | returnValueFromVoid => "Return with a value in a void function"
  | missingReturnValue => "Missing return value"
  | missingReturn => "Missing return statement"
  | badReturnValue => "Bad return value"
  | nonBoolCondition => "Non-bool expression used as a condition"
  | readOfFunction => "Attempt to read a function"
  | readOfStructName => "Attempt to read a struct name"
  | readOfStructVariable => "Attempt to read a struct variable"
  | writeOfFunction => "Attempt to write a function"
  | writeOfStructName => "Attempt to write a struct name"
  | writeOfStructVariable => "Attempt to write a struct variable"
  | writeOfVoid => "Attempt to write void"

/-- The code in capitals, words joined by underscores. -/
def title (k : DiagnosticKind) : String :=
  k.code.map fun c => if c = '-' then '_' else c.toUpper

def ofCode? (code : String) : Option DiagnosticKind := all.find? (·.code == code)

/-- No two kinds share a code. -/
theorem ofCode?_code (k : DiagnosticKind) : ofCode? k.code = some k := by
  cases k <;> rfl

end DiagnosticKind

end Sema
