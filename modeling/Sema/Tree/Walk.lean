import Sema.Tree.Node

/-! # Whole-tree views

The identifiers of a tree in the order they are written, and agreement of two trees.
-/

namespace Sema

/-- Same name at the same place, whatever the symbols. -/
def Ident.agrees (a b : Ident) : Bool := a.name == b.name && a.pos == b.pos

namespace Node

mutual

/-- Declared names, type names, uses and fields, from left to right. -/
def idents : Node → List Ident
  | .ident id => [id]
  | .dot base field => base.idents ++ [field]
  | .assign target value => target.idents ++ value.idents
  | .call callee args => callee :: identsAll args
  | .unary _ operand => operand.idents
  | .binary _ left right => left.idents ++ right.idents
  | .structType id => [id]
  | .varDecl type id => type.idents ++ [id]
  | .formalDecl type id => type.idents ++ [id]
  | .fnDecl type id formals decls stmts =>
    type.idents ++ id :: (identsAll formals ++ identsAll decls ++ identsAll stmts)
  | .structDecl id decls => id :: identsAll decls
  | .assignStmt e => e.idents
  | .stepStmt _ e => e.idents
  | .readStmt e => e.idents
  | .writeStmt e => e.idents
  | .ifStmt cond decls stmts => cond.idents ++ identsAll decls ++ identsAll stmts
  | .ifElseStmt cond ds ss ds' ss' =>
    cond.idents ++ identsAll ds ++ identsAll ss ++ identsAll ds' ++ identsAll ss'
  | .whileStmt cond decls stmts => cond.idents ++ identsAll decls ++ identsAll stmts
  | .callStmt e => e.idents
  | .returnStmt value _ => value.idents
  | .lit _ _ | .primType _ | .foreign | .missing => []

def identsAll : List Node → List Ident
  | [] => []
  | n :: ns => n.idents ++ identsAll ns

end

mutual

/-- Same shape and same leaves, whatever symbols the identifiers carry. A foreign thing agrees with
nothing, not even with another one. -/
def agrees : Node → Node → Bool
  | .lit v p, .lit w q => v == w && p == q
  | .ident a, .ident b => a.agrees b
  | .dot e f, .dot e' f' => agrees e e' && f.agrees f'
  | .assign t v, .assign t' v' => agrees t t' && agrees v v'
  | .call c es, .call c' es' => c.agrees c' && agreesAll es es'
  | .unary op e, .unary op' e' => op == op' && agrees e e'
  | .binary op l r, .binary op' l' r' => op == op' && agrees l l' && agrees r r'
  | .primType t, .primType t' => t == t'
  | .structType id, .structType id' => id.agrees id'
  | .varDecl t id, .varDecl t' id' => agrees t t' && id.agrees id'
  | .formalDecl t id, .formalDecl t' id' => agrees t t' && id.agrees id'
  | .fnDecl t id fs ds ss, .fnDecl t' id' fs' ds' ss' =>
    agrees t t' && id.agrees id' && agreesAll fs fs' && agreesAll ds ds' && agreesAll ss ss'
  | .structDecl id ds, .structDecl id' ds' => id.agrees id' && agreesAll ds ds'
  | .assignStmt e, .assignStmt e' => agrees e e'
  | .stepStmt op e, .stepStmt op' e' => op == op' && agrees e e'
  | .readStmt e, .readStmt e' => agrees e e'
  | .writeStmt e, .writeStmt e' => agrees e e'
  | .ifStmt c ds ss, .ifStmt c' ds' ss' => agrees c c' && agreesAll ds ds' && agreesAll ss ss'
  | .ifElseStmt c ds ss es ts, .ifElseStmt c' ds' ss' es' ts' =>
    agrees c c' && agreesAll ds ds' && agreesAll ss ss' && agreesAll es es' && agreesAll ts ts'
  | .whileStmt c ds ss, .whileStmt c' ds' ss' =>
    agrees c c' && agreesAll ds ds' && agreesAll ss ss'
  | .callStmt e, .callStmt e' => agrees e e'
  | .returnStmt v p, .returnStmt v' p' => agrees v v' && p == p'
  | .missing, .missing => true
  | _, _ => false

def agreesAll : List Node → List Node → Bool
  | [], [] => true
  | n :: ns, m :: ms => agrees n m && agreesAll ns ms
  | _, _ => false

end

end Node

end Sema
