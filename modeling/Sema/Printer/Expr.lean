import Sema.Fault

/-! # Expressions as text

Every compound expression stands in parentheses. With annotations, the use of a bound name is
followed by the signature of its symbol. A number with too many digits cannot be printed.
-/

namespace Sema

def Ident.text (annotated : Bool) (id : Ident) : String :=
  match annotated, id.symbol with
  | true, some symbol => id.name ++ "(" ++ symbol.text ++ ")"
  | _, _ => id.name

def Literal.text : Literal → Except Fault String
  | .int value => written (Text.numeral? value)
  | .string lexeme => return lexeme
  | .bool value => return if value then "true" else "false"

namespace Node

mutual

def exprText (annotated : Bool) : Node → Except Fault String
  | .lit value _ => value.text
  | .ident id => return id.text annotated
  | .dot base field => return "(" ++ (← exprText annotated base) ++ ")." ++ field.text annotated
  | .assign target value =>
    return "(" ++ (← exprText annotated target) ++ " = " ++ (← exprText annotated value) ++ ")"
  | .call callee args =>
    return callee.text annotated ++ "(" ++ ", ".intercalate (← exprTexts annotated args) ++ ")"
  | .unary op operand => return "(" ++ op ++ (← exprText annotated operand) ++ ")"
  | .binary op left right =>
    return "(" ++ (← exprText annotated left) ++ " " ++ op ++ " " ++
      (← exprText annotated right) ++ ")"
  | node => throw (.unprintable .expression node)

def exprTexts (annotated : Bool) : List Node → Except Fault (List String)
  | [] => return []
  | e :: es => return (← exprText annotated e) :: (← exprTexts annotated es)

end

/-- The text of an assignment that is a statement, without parentheses. -/
def assignText (annotated : Bool) : Node → Except Fault String
  | .assign target value =>
    return (← exprText annotated target) ++ " = " ++ (← exprText annotated value)
  | _ => throw .missingPart

def typeText : Node → Except Fault String
  | .primType type => return type.text
  | .structType id => return "struct " ++ id.name
  | node => throw (.unprintable .type node)

def formalText (formal : Node) : Except Fault String :=
  match formal.typed? with
  | some (type, id) => return (← type.typeText) ++ " " ++ id.name
  | none => throw .missingPart

end Node

end Sema
