import Sema.Proofs.Printer.Annotation
import Sema.Proofs.Typing.Calls

/-!
# Signatures describe types

The signature that is printed behind a use is put together from the names of types. The type of the
use is made from the same names, and described. Both ways lead to one text, so that a program with
bound names is printed with the types of its uses.
-/

namespace Sema

/-- The symbol is of a kind that the analysis knows. -/
def Symbol.IsKnown : Symbol → Prop
  | .unknown _ => False
  | _ => True

theorem Symbol.IsRegular.isKnown {s : Symbol} (h : s.IsRegular) : s.IsKnown := by
  cases s with
  | unknown _ => exact h
  | _ => trivial

namespace Ty

theorem describe_ofName (name : String) : (ofName name).describe = .ok name := by
  rw [ofName]
  split
  · subst name
    rfl
  · split
    · subst name
      rfl
    · split
      · subst name
        rfl
      · rfl

theorem describeAll_ofName (names : List String) :
    describeAll (names.map ofName) = .ok names := by
  induction names with
  | nil => rfl
  | cons name names ih =>
    rw [List.map_cons, describeAll, describe_ofName, ih]
    rfl

end Ty

theorem Symbol.describe_type {s : Symbol} (h : s.IsKnown) :
    ∃ t, s.type = .ok t ∧ t.describe = .ok s.text := by
  cases s with
  | var name => exact ⟨_, rfl, Ty.describe_ofName name⟩
  | function params result =>
    refine ⟨_, rfl, ?_⟩
    rw [Ty.describe, Ty.describeAll_ofName, Ty.describeResult, Ty.describe_ofName]
    rfl
  | structDecl name fields => exact ⟨_, rfl, rfl⟩
  | structVar struct => exact ⟨_, rfl, rfl⟩
  | unknown name => cases h

namespace Node

/-- The identifier that the node uses: a name that stands for itself, a field or a callee. -/
def use? : Node → Option Ident
  | .ident id => some id
  | .dot _ field => some field
  | .call callee _ => some callee
  | _ => none

theorem mem_idents_of_use? {n : Node} {id : Ident} (h : n.use? = some id) : id ∈ n.idents := by
  cases n with
  | ident | dot | call =>
    cases h
    simp [idents]
  | _ => cases h

/-- It matters only where the identifiers of the tree are taken to. -/
theorem relabel_congr {use use' name : Ident → Ident} {place : Pos → Pos} (n : Node)
    (h : ∀ id ∈ n.idents, use id = use' id) :
    n.relabel use name place = n.relabel use' name place := by
  induction n using Node.induct with
  | step n ih =>
    have hchildren : ∀ m ∈ n.children, m.relabel use name place = m.relabel use' name place :=
      fun m hm => ih m hm fun id hid => h id (idents_of_child (mem_identsAll.mpr ⟨m, hm, hid⟩))
    clear ih
    cases n <;> simp_all [relabel, relabelAll_eq_map, children, idents, or_imp, forall_and]

/-- The type that type analysis gives to the identifier that a node uses. A name or a field has the
type of its node. A callee has the type of its name, and its call is checked by that. -/
inductive UseTyped : Node → Ident → Ty → Prop where
  | ident {id : Ident} {t : Ty} : checkExpr (.ident id) = ⟨[], .ok t⟩ → UseTyped (.ident id) id t
  | field {base : Node} {field : Ident} {t : Ty} : checkExpr (.dot base field) = ⟨[], .ok t⟩ →
    UseTyped (.dot base field) field t
  | callee {callee : Ident} {args : List Node} {t : Ty} :
    checkExpr (.ident callee) = ⟨[], .ok t⟩ →
    checkExpr (.call callee args) =
      (do let ts ← checkExprs args
          checkCall callee.pos t ((args.map Node.pos).zip ts)) →
    UseTyped (.call callee args) callee t

theorem useTyped_of_type {n : Node} {id : Ident} {t : Ty} (huse : n.use? = some id)
    (ht : id.type = .ok t) : n.UseTyped id t := by
  have hident : checkExpr (.ident id) = ⟨[], .ok t⟩ := by
    rw [checkExpr, ht]
    rfl
  cases n with
  | ident id =>
    cases huse
    exact .ident hident
  | dot base field =>
    cases huse
    exact .field hident
  | call callee args =>
    cases huse
    refine .callee hident ?_
    rw [checkExpr, ht]
    rfl
  | _ => cases huse

end Node

/-- The identifier with the description of its type, if it has one, for a part of its name. -/
def Ident.describeType (id : Ident) : Ident :=
  match id.type >>= Ty.describe with
  | .ok text => { id with name := id.name ++ "(" ++ text ++ ")" }
  | .error _ => id

/-- The program with the description of its type in the name of every use. -/
def Program.describeUses (program : Program) : Program :=
  Node.relabelAll Ident.describeType id id program

section

variable {id : Ident}

theorem Ident.exists_description (hbound : id.Bound) (hregular : id.Regular) :
    ∃ s t, id.symbol = some s ∧ id.type = .ok t ∧ t.describe = .ok s.text := by
  obtain ⟨s, hs⟩ := Option.isSome_iff_exists.mp hbound
  obtain ⟨t, ht, hdescribe⟩ := Symbol.describe_type (hregular s hs).isKnown
  refine ⟨s, t, hs, ?_, hdescribe⟩
  rw [Ident.type, hs]
  exact ht

theorem Ident.describeType_eq_annotate (hbound : id.Bound) (hregular : id.Regular) :
    id.describeType = id.annotate := by
  obtain ⟨s, t, hs, ht, hdescribe⟩ := exists_description hbound hregular
  have htext : id.type >>= Ty.describe = .ok s.text := by
    rw [ht]
    exact hdescribe
  rw [describeType, htext, annotate, hs]

end

theorem Node.relabelAll_congr {use use' name : Ident → Ident} {place : Pos → Pos} {ns : List Node}
    (h : ∀ id ∈ identsAll ns, use id = use' id) :
    relabelAll use name place ns = relabelAll use' name place ns := by
  rw [relabelAll_eq_map, relabelAll_eq_map]
  refine List.map_congr_left fun n hn => relabel_congr n fun id hid => ?_
  exact h id (mem_identsAll.mpr ⟨n, hn, hid⟩)

/-- The type of every symbol of a known kind is described by the signature of the symbol. So a
program whose names are bound without a complaint is printed with the description of its type behind
every name, field or callee in use. -/
theorem signatures_describe_types :
    (∀ s : Symbol, s.IsKnown → ∃ t, s.type = .ok t ∧ t.describe = .ok s.text) ∧
    ∀ program : Program, NamesClean program →
      let bound := (resolveProgram program .empty).value
      (∀ n ∈ Node.allNodes bound, ∀ id, n.use? = some id →
        ∃ t text, n.UseTyped id t ∧ t.describe = .ok text ∧
          id.text true = id.name ++ "(" ++ text ++ ")" ∧
          id.describeType.name = id.text true) ∧
      Program.print true bound = Program.print false bound.describeUses := by
  refine ⟨fun s hs => Symbol.describe_type hs, ?_⟩
  intro program hclean bound
  have hsame : ∀ id ∈ Node.identsAll bound, id.describeType = id.annotate := fun id hid =>
    Ident.describeType_eq_annotate (hclean.bound id hid) (hclean.regular id hid)
  constructor
  · intro n hn id huse
    have hid := Node.idents_of_part hn (Node.mem_idents_of_use? huse)
    obtain ⟨s, t, hs, ht, hdescribe⟩ :=
      Ident.exists_description (hclean.bound id hid) (hclean.regular id hid)
    refine ⟨t, s.text, Node.useTyped_of_type huse ht, hdescribe, ?_, ?_⟩
    · simp only [Ident.text, hs]
    · rw [hsame id hid]
      exact printsAlike_annotate.use_text id
  · rw [Program.describeUses, Node.relabelAll_congr hsame,
      Program.print_relabel printsAlike_annotate]

/-- A function that calls itself on its parameter and selects a field of it. -/
def describedProgram : Program :=
  let p : Ident := ⟨"p", ⟨3, 18⟩, none⟩
  [.structDecl ⟨"P", ⟨1, 8⟩, none⟩ [.varDecl (.primType .int) ⟨"x", ⟨2, 7⟩, none⟩],
    .fnDecl (.primType .int) ⟨"f", ⟨3, 5⟩, none⟩
      [.formalDecl (.structType ⟨"P", ⟨3, 16⟩, none⟩) p] []
      [.returnStmt (.binary "+" (.dot (.ident p) ⟨"x", ⟨4, 14⟩, some (.unknown "?")⟩)
        (.call ⟨"f", ⟨4, 18⟩, none⟩ [.ident p])) ⟨4, 3⟩]]

theorem describedProgram_printed_with_types :
    let bound := (resolveProgram describedProgram .empty).value
    NamesClean describedProgram ∧
      Program.print true bound = Program.print false bound.describeUses ∧
      (Program.print true bound).2.lines =
        ["struct P\x7b", "    int x;", "\x7d;", "", "int f(struct P p) \x7b",
          "    return ((p(P)).x(int) + f(P->int)(p(P)));", "\x7d", ""] := by
  intro bound
  have hclean : NamesClean describedProgram := ⟨rfl, rfl⟩
  obtain ⟨-, hprint⟩ := signatures_describe_types.2 describedProgram hclean
  exact ⟨hclean, hprint, rfl⟩

end Sema
