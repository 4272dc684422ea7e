import Sema.Proofs.Tree.Erasure

/-!
# Places of a tree

The positions at which the identifiers, the literals and the returns of a tree stand. An expression
is blamed at one of them.
-/

namespace Sema

namespace Node

/-- The position that a literal or a return has of its own. -/
def mark? : Node → Option Pos
  | .lit _ pos | .returnStmt _ pos => some pos
  | _ => none

def places (ns : List Node) : List Pos :=
  (identsAll ns).map Ident.pos ++ (allNodes ns).filterMap mark?

theorem place_of_ident {ns : List Node} {id : Ident} (h : id ∈ identsAll ns) :
    id.pos ∈ places ns :=
  List.mem_append_left _ (List.mem_map_of_mem h)

theorem place_of_mark {ns : List Node} {n : Node} {pos : Pos} (hn : n ∈ allNodes ns)
    (h : n.mark? = some pos) : pos ∈ places ns :=
  List.mem_append_right _ (List.mem_filterMap.mpr ⟨n, hn, h⟩)

theorem place_of_self {n : Node} {pos : Pos} (h : n.mark? = some pos) : pos ∈ places [n] :=
  place_of_mark List.mem_cons_self h

private theorem places_subset {ns ms : List Node} (hidents : identsAll ns ⊆ identsAll ms)
    (hnodes : allNodes ns ⊆ allNodes ms) : places ns ⊆ places ms := by
  intro pos hpos
  rcases List.mem_append.mp hpos with hpos | hpos
  · obtain ⟨id, hid, rfl⟩ := List.mem_map.mp hpos
    exact place_of_ident (hidents hid)
  · obtain ⟨n, hn, hmark⟩ := List.mem_filterMap.mp hpos
    exact place_of_mark (hnodes hn) hmark

theorem places_of_mem {n : Node} {ns : List Node} (h : n ∈ ns) : places [n] ⊆ places ns := by
  apply places_subset
  · intro id hid
    rw [identsAll_singleton] at hid
    exact mem_identsAll.mpr ⟨n, h, hid⟩
  · intro m hm
    obtain ⟨k, hk, hmk⟩ := mem_allNodes.mp hm
    rw [List.mem_singleton.mp hk] at hmk
    exact mem_allNodes.mpr ⟨n, h, hmk⟩

theorem places_of_children (n : Node) : places n.children ⊆ places [n] := by
  apply places_subset
  · intro id hid
    rw [identsAll_singleton]
    exact idents_of_child hid
  · intro m hm
    rw [← descendants_eq] at hm
    exact mem_allNodes.mpr ⟨n, List.mem_singleton_self n, .inr hm⟩

theorem places_of_child {n m : Node} (h : m ∈ n.children) : places [m] ⊆ places [n] :=
  fun _ hpos => places_of_children n (places_of_mem h hpos)

theorem pos_mem_places {e : Node} (h : e.isExpr = true) : e.pos ∈ places [e] := by
  induction e using Node.induct with
  | step e ih =>
    cases e with
    | lit value pos => exact place_of_self rfl
    | ident id => exact place_of_ident (by simp [idents])
    | call callee args => exact place_of_ident (by simp [idents])
    | dot base field =>
      have hbase : base ∈ (Node.dot base field).children := by simp [children]
      exact places_of_child hbase (ih base hbase (Bool.and_eq_true_iff.mp h).2)
    | assign target value =>
      have htarget : target ∈ (Node.assign target value).children := by simp [children]
      exact places_of_child htarget (ih target htarget (Bool.and_eq_true_iff.mp h).1)
    | binary op left right =>
      have hleft : left ∈ (Node.binary op left right).children := by simp [children]
      exact places_of_child hleft (ih left hleft (Bool.and_eq_true_iff.mp h).1)
    | unary op operand =>
      have hoperand : operand ∈ (Node.unary op operand).children := by simp [children]
      exact places_of_child hoperand (ih operand hoperand h)
    | _ => cases h

theorem places_of_eraseAll {ns ms : List Node} (h : eraseAll ns = eraseAll ms) :
    places ns = places ms := by
  have herase (ns : List Node) : places (eraseAll ns) = places ns := by
    have hmark : mark? ∘ erase = mark? := by
      funext n
      cases n <;> rfl
    have hpos : Ident.pos ∘ Ident.erase = Ident.pos := rfl
    rw [places, identsAll_relabelAll, allNodes_relabelAll, List.map_map, List.filterMap_map, hmark,
      hpos, places]
  rw [← herase ns, h, herase ms]

end Node

end Sema
