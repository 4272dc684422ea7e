import Sema.Fault

/-! # Static types -/

namespace Sema

inductive Ty where
  | int | bool | void | string
  /-- the type of a bare struct name, a layout and no value -/
  | structName (name : String)
  /-- the type of a variable that has a struct's layout -/
  | structVar (name : String)
  | function (params : List Ty) (result : Option Ty)
  /-- the type of what could not be typed; it is blamed once and then absorbs -/
  | error
  /-- the type of a statement or declaration that passed -/
  | success
  /-- no type in particular -/
  | unspecified

namespace Ty

mutual

def beq : Ty → Ty → Bool
  | .int, .int | .bool, .bool | .void, .void | .string, .string => true
  | .error, .error | .success, .success | .unspecified, .unspecified => true
  | .structName a, .structName b => a == b
  | .structVar a, .structVar b => a == b
  | .function ps r, .function qs s => beqAll ps qs && beqResult r s
  | _, _ => false

def beqAll : List Ty → List Ty → Bool
  | [], [] => true
  | a :: as, b :: bs => beq a b && beqAll as bs
  | _, _ => false

def beqResult : Option Ty → Option Ty → Bool
  | none, none => true
  | some a, some b => beq a b
  | _, _ => false

end

mutual

theorem beq_iff_eq (a b : Ty) : beq a b = true ↔ a = b := by
  cases a with
  | function ps r =>
    cases b <;> simp [beq, beqAll_iff_eq ps, beqResult_iff_eq r]
  | _ => cases b <;> simp [beq]

theorem beqAll_iff_eq (as bs : List Ty) : beqAll as bs = true ↔ as = bs := by
  cases as with
  | nil => cases bs <;> simp [beqAll]
  | cons a as => cases bs <;> simp [beqAll, beq_iff_eq a, beqAll_iff_eq as]

theorem beqResult_iff_eq (a b : Option Ty) : beqResult a b = true ↔ a = b := by
  cases a with
  | none => cases b <;> simp [beqResult]
  | some a => cases b <;> simp [beqResult, beq_iff_eq a]

end

instance : DecidableEq Ty := fun a b => decidable_of_iff _ (beq_iff_eq a b)

mutual

/-- The text of a type. There is none for a type that is not specified. -/
def describe : Ty → Except Fault String
  | .int => .ok "int"
  | .bool => .ok "bool"
  | .void => .ok "void"
  | .string => .ok "String"
  | .structName name => .ok name
  | .structVar name => .ok name
  | .function params result => do
    return ",".intercalate (← describeAll params) ++ "->" ++ (← describeResult result)
  | .error => .ok "error"
  | .success => .ok "success"
  | .unspecified => .error .undescribed

def describeAll : List Ty → Except Fault (List String)
  | [] => .ok []
  | t :: ts => do return (← describe t) :: (← describeAll ts)

/-- The text of a type that may be absent. -/
def describeResult : Option Ty → Except Fault String
  | none => .ok "None"
  | some t => describe t

end

def isError : Ty → Bool
  | .error => true
  | _ => false

/-- Equal, or one of them an error: nobody is blamed twice. -/
def compatible (a b : Ty) : Bool := a.isError || b.isError || a == b

/-- Compatibility of types that may be absent. An absent type is no error. -/
def compatible? (a b : Option Ty) : Bool := a.any isError || b.any isError || a == b

theorem compatible?_some (a b : Ty) : compatible? (some a) (some b) = a.compatible b := by
  simp [compatible?, compatible]

/-- The type of a value declared with the named type. -/
def ofName (name : String) : Ty :=
  if name = "int" then .int
  else if name = "bool" then .bool
  else if name = "void" then .void
  else .structVar name

/-- Why values of the type cannot be compared, if they cannot. -/
def comparisonBan? : Ty → Option String
  | .void => some "Equality operator applied to void functions"
  | .function _ _ => some "Equality operator applied to functions"
  | .structName _ => some "Equality operator applied to struct names"
  | _ => none

theorem isError_iff {t : Ty} : t.isError = true ↔ t = .error := by
  cases t <;> simp [isError]

/-- The outcome of several checks: passed if each of them passed. -/
def all (results : List Ty) : Ty := if results.any isError then .error else .success

theorem all_eq_error_iff {results : List Ty} : all results = .error ↔ .error ∈ results := by
  simp [all, isError_iff]

end Ty

/-- The type of a use of the symbol. -/
def Symbol.type : Symbol → Except Fault Ty
  | .var t => .ok (Ty.ofName t)
  | .function params result => .ok (.function (params.map Ty.ofName) (some (Ty.ofName result)))
  | .structDecl name _ => .ok (.structName name)
  | .structVar struct => .ok (.structVar struct)
  | .unknown _ => .error (.breach .unknownSymbol .origin)

/-- The type of a use of an identifier: an error if it is bound to nothing. -/
def Ident.type (id : Ident) : Except Fault Ty :=
  match id.symbol with
  | none => .ok .error
  | some s => s.type

end Sema
