import Sema.Proofs.Tree.Shape
import Sema.Proofs.Typing.Rules

/-!
# Parts of well-typed trees

An expression has a type only if the expressions that it is made of have one, so whatever is
computed anywhere in the body of a well-typed function has a type. What a field is selected from is
no such part: the rules ask for the type of the field alone.
-/

namespace Sema

/-- The node has a type if it is one that computes. -/
def Node.TypedIfCompound (n : Node) : Prop := n.isCompound = true → ∃ t, HasType n t

theorem Node.typedIfCompound_of_not {n : Node} (h : n.isCompound = false) : n.TypedIfCompound := by
  intro hn
  rw [h] at hn
  cases hn

theorem HasType.child {n m : Node} {t : Ty} (h : HasType n t) (hn : n.isCompound = true)
    (hm : m ∈ n.children) : ∃ u, HasType m u := by
  cases h with
  | int | string | bool | ident | dot => cases hn
  | negation he | complement he =>
    obtain rfl := List.mem_singleton.mp hm
    exact ⟨_, he⟩
  | arithmetic _ hl hr | logical _ hl hr | relational _ hl hr | equality _ hl hr _
  | assign hl hr _ =>
    simp only [Node.children, List.mem_cons, List.not_mem_nil, or_false] at hm
    rcases hm with rfl | rfl
    · exact ⟨_, hl⟩
    · exact ⟨_, hr⟩
  | call _ hlen hargs =>
    rw [Node.children, ← List.map_fst_zip (Nat.le_of_eq hlen)] at hm
    obtain ⟨p, hp, rfl⟩ := List.mem_map.mp hm
    exact ⟨p.2, hargs p hp⟩

theorem HasType.parts {e : Node} {t : Ty} (h : HasType e t) (hexpr : e.isExpr = true) :
    e.Throughout Node.TypedIfCompound := by
  induction e using Node.induct generalizing t with
  | step e ih =>
    cases hcompound : e.isCompound with
    | true =>
      refine Node.throughout_iff.mpr ⟨fun _ => ⟨t, h⟩, fun m hm => ?_⟩
      obtain ⟨u, hu⟩ := h.child hcompound hm
      exact ih m hm hu (Node.isExpr_child hexpr hm)
    | false =>
      cases e with
      | lit value pos => exact List.forall_mem_singleton.mpr (Node.typedIfCompound_of_not rfl)
      | ident | dot =>
        intro n hn
        exact Node.typedIfCompound_of_not (Node.not_compound_of_path hexpr rfl n hn)
      | assign | call | unary | binary => cases hcompound
      | _ => cases hexpr

section Stmts

variable {result : Ty}

private theorem typed_of_children {n : Node} (hn : n.isCompound = false)
    (h : ∀ m ∈ n.children, m.Throughout Node.TypedIfCompound) :
    n.Throughout Node.TypedIfCompound :=
  Node.throughout_iff.mpr ⟨Node.typedIfCompound_of_not hn, h⟩

private theorem typed_block {ds ss : List Node} (hds : ds.all Node.isStorage = true)
    (hss : ∀ s ∈ ss, s.Throughout Node.TypedIfCompound) :
    ∀ m ∈ ds ++ ss, m.Throughout Node.TypedIfCompound := by
  rw [List.forall_mem_append]
  refine ⟨?_, hss⟩
  rw [← Node.forall_mem_allNodes]
  exact fun n hn => Node.typedIfCompound_of_not (Node.not_compound_of_storages hds n hn)

theorem StmtTyped.parts {s : Node} (h : StmtTyped result s) (hshaped : s.isShapedStmt = true) :
    s.Throughout Node.TypedIfCompound := by
  induction h with
  | assign he | call he | step he | read he _ | write he _ =>
    exact typed_of_children rfl (List.forall_mem_singleton.mpr (he.parts hshaped))
  | ifThen hcond _ ih | whileLoop hcond _ ih =>
    simp only [Node.isShapedStmt, Bool.and_eq_true] at hshaped
    have hstmts s hs := ih s hs (Node.areShapedStmts_iff.mp hshaped.2 s hs)
    exact typed_of_children rfl (List.forall_mem_cons.mpr
      ⟨hcond.parts hshaped.1.1, typed_block hshaped.1.2 hstmts⟩)
  | ifElse hcond _ _ ihthen ihelse =>
    simp only [Node.isShapedStmt, Bool.and_eq_true] at hshaped
    obtain ⟨⟨⟨⟨hexpr, hds⟩, hss⟩, hds'⟩, hss'⟩ := hshaped
    have hthen s hs := ihthen s hs (Node.areShapedStmts_iff.mp hss s hs)
    have helse s hs := ihelse s hs (Node.areShapedStmts_iff.mp hss' s hs)
    have hblocks := List.forall_mem_append.mpr ⟨typed_block hds hthen, typed_block hds' helse⟩
    rw [List.append_assoc] at hblocks
    exact typed_of_children rfl (List.forall_mem_cons.mpr ⟨hcond.parts hexpr, hblocks⟩)
  | bareReturn _ =>
    exact typed_of_children rfl (List.forall_mem_singleton.mpr
      (typed_of_children rfl (List.forall_mem_nil _)))
  | @valueReturn value pos hvalue _ =>
    have hne : value ≠ .missing := by
      rintro rfl
      cases hvalue
    rw [Node.isShapedStmt_return hne] at hshaped
    exact typed_of_children rfl (List.forall_mem_singleton.mpr (hvalue.parts hshaped))

theorem DeclTyped.parts {d : Node} (h : DeclTyped d) (hshaped : d.isShapedDecl = true) :
    ∀ n ∈ Node.allNodes d.body, n.TypedIfCompound := by
  cases h with
  | var | formal | struct => exact List.forall_mem_nil _
  | function _ hstmts _ =>
    simp only [Node.isShapedDecl, Bool.and_eq_true] at hshaped
    rw [Node.forall_mem_allNodes]
    exact typed_block hshaped.1.2 fun s hs =>
      (hstmts s hs).parts (Node.areShapedStmts_iff.mp hshaped.2 s hs)

theorem ProgramTyped.parts {program : Program} (h : ProgramTyped program)
    (hshaped : ∀ d ∈ program, d.isShapedDecl = true) :
    ∀ n ∈ Node.allNodes (program.flatMap Node.body), n.TypedIfCompound := by
  intro n hn
  obtain ⟨m, hm, hn⟩ := Node.mem_allNodes.mp hn
  obtain ⟨d, hd, hm⟩ := List.mem_flatMap.mp hm
  exact (h d hd).parts (hshaped d hd) n (Node.mem_allNodes.mpr ⟨m, hm, hn⟩)

end Stmts

end Sema
