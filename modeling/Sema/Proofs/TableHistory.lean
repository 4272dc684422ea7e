import Sema.Proofs.Sessions

/-!
# The history of a symbol table

Scopes are entered, left and filled by calls that may fail. Whatever the calls, each open scope of
the table holds what was declared in it while it was innermost, and every look-up can be answered
from these declarations.
-/

namespace Sema

/-- The symbol of a struct's name. -/
def Symbol.IsStruct (s : Symbol) : Prop := ∃ d : StructDef, d.symbol = s

theorem Symbol.structDef?_eq_some_iff {s : Symbol} {d : StructDef} :
    s.structDef? = some d ↔ d.symbol = s := by
  constructor
  · intro h
    cases s with
    | structDecl name fields =>
      cases h
      rfl
    | _ => cases h
  · rintro rfl
    rfl

/-- A call that changes the scopes of a table, unless it fails. -/
inductive TableCall where
  | enter
  | exit
  | declare (name : String) (symbol : Option Symbol)

namespace TableCall

def command : TableCall → Command
  | .enter => .enter
  | .exit => .exit
  | .declare name symbol => .declare name symbol

/-- The calls leave every scope that they enter, and no other. -/
inductive Balanced : List TableCall → Prop where
  | nil : Balanced []
  | declare (name : String) (symbol : Option Symbol) {calls : List TableCall} :
    Balanced calls → Balanced (.declare name symbol :: calls)
  | block {body calls : List TableCall} :
    Balanced body → Balanced calls → Balanced (.enter :: (body ++ .exit :: calls))

/-- The calls in a scope of their own. -/
def enclosed (calls : List TableCall) : List TableCall := .enter :: (calls ++ [.exit])

end TableCall

/-- A symbol declared under a name while the scope of the given number was innermost. -/
structure Declaration where
  scope : Nat
  name : String
  symbol : Symbol

/-- What calls have done to a table. Scopes are numbered as they are entered, and no number is used
again. Declarations are not taken back when their scope is left. -/
structure History where
  entered : Nat := 0
  /-- the scopes that have not been left, innermost first -/
  openScopes : List Nat := []
  declarations : List Declaration := []

namespace History

/-- One more call, which has succeeded. -/
def note (h : History) : TableCall → History
  | .enter => { h with entered := h.entered + 1, openScopes := h.entered :: h.openScopes }
  | .exit => { h with openScopes := h.openScopes.tail }
  | .declare name symbol =>
    match h.openScopes, symbol with
    | n :: _, some s => { h with declarations := h.declarations ++ [⟨n, name, s⟩] }
    | _, _ => h

/-- More calls with their answers. A call that has failed is passed over. -/
def noteAll (h : History) : List TableCall → List (Except Fault Reply) → History
  | call :: calls, .ok _ :: answers => (h.note call).noteAll calls answers
  | _ :: calls, .error _ :: answers => h.noteAll calls answers
  | _, _ => h

/-- What was declared in the scope, in order. -/
def scope (h : History) (n : Nat) : Scope :=
  (h.declarations.filter (·.scope == n)).map fun d => (d.name, some d.symbol)

/-- Why a call fails. -/
inductive Refuses (h : History) : TableCall → TableFault → Prop where
  | exit : h.openScopes = [] → h.Refuses .exit (.noOpenScope .exitScope)
  | unnamed (symbol : Option Symbol) : h.Refuses (.declare "" symbol) .incomplete
  | nothing (name : String) : h.Refuses (.declare name none) .incomplete
  | nowhere {name : String} (s : Symbol) : name ≠ "" → h.openScopes = [] →
    h.Refuses (.declare name (some s)) (.noOpenScope .declare)
  | taken {name : String} (s : Symbol) {n : Nat} {outer : List Nat} {s' : Symbol} : name ≠ "" →
    h.openScopes = n :: outer → ⟨n, name, s'⟩ ∈ h.declarations →
    h.Refuses (.declare name (some s)) (.duplicate name)

/-- The symbol was declared under the name in the innermost open scope where the name stands for a
symbol that counts. -/
def Innermost (h : History) (counts : Symbol → Prop) (name : String) (s : Symbol) : Prop :=
  ∃ inner n outer, h.openScopes = inner ++ n :: outer ∧ ⟨n, name, s⟩ ∈ h.declarations ∧ counts s ∧
    ∀ m ∈ inner, ∀ s', ⟨m, name, s'⟩ ∈ h.declarations → ¬ counts s'

end History

/-- The open scopes of the table hold what the history says was declared in them. -/
structure History.Records (h : History) (t : SymbolTable) : Prop where
  scopes_eq : t.scopes = h.openScopes.map h.scope
  open_nodup : h.openScopes.Nodup
  open_lt : ∀ n ∈ h.openScopes, n < h.entered
  declared_lt : ∀ d ∈ h.declarations, d.scope < h.entered
  names_nodup : ∀ n, ((h.scope n).map Prod.fst).Nodup

namespace History

variable {h : History} {t : SymbolTable} {s : Session} {n : Nat} {name : String}

theorem Records.scopes_nil (hr : h.Records t) (hopen : h.openScopes = []) : t.scopes = [] := by
  rw [hr.scopes_eq, hopen, List.map_nil]

theorem Records.scopes_cons (hr : h.Records t) {outer : List Nat}
    (hopen : h.openScopes = n :: outer) : t.scopes = h.scope n :: outer.map h.scope := by
  rw [hr.scopes_eq, hopen, List.map_cons]

theorem mem_scope {entry : Option Symbol} :
    (name, entry) ∈ h.scope n ↔ ∃ s, entry = some s ∧ ⟨n, name, s⟩ ∈ h.declarations := by
  simp only [scope, List.mem_map, List.mem_filter, beq_iff_eq, Prod.mk.injEq]
  constructor
  · rintro ⟨⟨m, name', s⟩, ⟨hd, rfl⟩, rfl, rfl⟩
    exact ⟨s, rfl, hd⟩
  · rintro ⟨s, rfl, hd⟩
    exact ⟨⟨n, name, s⟩, ⟨hd, rfl⟩, rfl, rfl⟩

theorem lookup_scope_eq_none :
    (h.scope n).lookup name = none ↔ ∀ s, ⟨n, name, s⟩ ∉ h.declarations := by
  rw [List.lookup_eq_none_iff]
  constructor
  · intro hnone s hd
    simpa using hnone (name, some s) (mem_scope.mpr ⟨s, rfl, hd⟩)
  · rintro hnone ⟨name', entry⟩ hentry
    obtain ⟨s, rfl, hd⟩ := mem_scope.mp hentry
    simp only [bne_iff_ne, ne_eq]
    rintro rfl
    exact hnone s hd

theorem Records.lookup_scope (hr : h.Records t) {s : Symbol} :
    (h.scope n).lookup name = some (some s) ↔ ⟨n, name, s⟩ ∈ h.declarations := by
  constructor
  · intro hlookup
    obtain ⟨before, after, hscope, -⟩ := List.lookup_eq_some_iff.mp hlookup
    have hmem : (name, some s) ∈ h.scope n := by simp [hscope]
    obtain ⟨_, ⟨⟩, hd⟩ := mem_scope.mp hmem
    exact hd
  · intro hd
    obtain ⟨before, after, hscope⟩ := List.append_of_mem (mem_scope.mpr ⟨s, rfl, hd⟩)
    refine List.lookup_eq_some_iff.mpr ⟨before, after, hscope, fun entry hentry => ?_⟩
    have hnames := hr.names_nodup n
    rw [hscope, List.map_append, List.nodup_append] at hnames
    exact bne_iff_ne.mpr
      (hnames.2.2 entry.1 (List.mem_map_of_mem hentry) name (by simp)).symm

theorem Records.enter (hr : h.Records t) : (h.note .enter).Records t.enterScope where
  scopes_eq := by
    -- no declaration has the number of the new scope
    have hnew : h.scope h.entered = [] := by
      rw [scope, List.map_eq_nil_iff, List.filter_eq_nil_iff]
      intro d hd
      simpa using Nat.ne_of_lt (hr.declared_lt d hd)
    change [] :: t.scopes = h.scope h.entered :: h.openScopes.map h.scope
    rw [hnew, hr.scopes_eq]
  open_nodup := List.nodup_cons.mpr
    ⟨fun hmem => Nat.lt_irrefl _ (hr.open_lt _ hmem), hr.open_nodup⟩
  open_lt := List.forall_mem_cons.mpr
    ⟨Nat.lt_succ_self _, fun n hn => Nat.lt_succ_of_lt (hr.open_lt n hn)⟩
  declared_lt d hd := Nat.lt_succ_of_lt (hr.declared_lt d hd)
  names_nodup := hr.names_nodup

theorem Records.exit (hr : h.Records t) {outer : List Nat} (hopen : h.openScopes = n :: outer) :
    (h.note .exit).Records ⟨outer.map h.scope⟩ := by
  have hnodup := hr.open_nodup
  have hlt := hr.open_lt
  rw [hopen] at hnodup hlt
  have hopen' : (h.note .exit).openScopes = outer := by
    rw [note, hopen, List.tail_cons]
  constructor
  · rw [hopen']
    rfl
  · rw [hopen']
    exact (List.nodup_cons.mp hnodup).2
  · rw [hopen']
    exact (List.forall_mem_cons.mp hlt).2
  · exact hr.declared_lt
  · exact hr.names_nodup

theorem note_declare {outer : List Nat} (hopen : h.openScopes = n :: outer) (s : Symbol) :
    h.note (.declare name (some s)) =
      { h with declarations := h.declarations ++ [⟨n, name, s⟩] } := by
  simp only [note, hopen]

theorem scope_declare {outer : List Nat} (hopen : h.openScopes = n :: outer) (s : Symbol)
    (m : Nat) :
    (h.note (.declare name (some s))).scope m =
      h.scope m ++ if m = n then [(name, some s)] else [] := by
  by_cases hm : m = n
  · subst hm
    simp [note_declare hopen, scope]
  · simp [note_declare hopen, scope, hm, Ne.symm hm]

theorem Records.declare (hr : h.Records t) {outer : List Nat} (hopen : h.openScopes = n :: outer)
    (hfresh : ∀ s, ⟨n, name, s⟩ ∉ h.declarations) (s : Symbol) :
    (h.note (.declare name (some s))).Records
      ⟨(h.scope n ++ [(name, some s)]) :: outer.map h.scope⟩ where
  scopes_eq := by
    have hnodup := hr.open_nodup
    rw [hopen, List.nodup_cons] at hnodup
    -- an outer scope has another number, so nothing is added to it
    have houter : outer.map (h.note (.declare name (some s))).scope = outer.map h.scope := by
      refine List.map_congr_left fun m hm => ?_
      have hne : m ≠ n := fun heq => hnodup.1 (heq ▸ hm)
      rw [scope_declare hopen, if_neg hne, List.append_nil]
    have hopen' : (h.note (.declare name (some s))).openScopes = n :: outer := by
      rw [note_declare hopen]
      exact hopen
    rw [hopen', List.map_cons, scope_declare hopen, if_pos rfl, houter]
  open_nodup := by
    rw [note_declare hopen]
    exact hr.open_nodup
  open_lt := by
    rw [note_declare hopen]
    exact hr.open_lt
  declared_lt := by
    rw [note_declare hopen]
    refine List.forall_mem_append.mpr ⟨hr.declared_lt, List.forall_mem_singleton.mpr ?_⟩
    exact hr.open_lt n (by simp [hopen])
  names_nodup m := by
    rw [scope_declare hopen]
    split
    · subst m
      rw [List.map_append, List.nodup_append]
      refine ⟨hr.names_nodup n, by simp, ?_⟩
      rintro a ha b hb rfl
      obtain ⟨entry, hentry, rfl⟩ := List.mem_map.mp ha
      obtain ⟨s', -, hd⟩ := mem_scope.mp hentry
      obtain rfl : entry.1 = name := by simpa using hb
      exact hfresh s' hd
    · rw [List.append_nil]
      exact hr.names_nodup m

theorem Refuses.unique {call : TableCall} {fault fault' : TableFault} (hr : h.Refuses call fault)
    (hr' : h.Refuses call fault') : fault = fault' := by
  cases hr with
  | exit _ | nothing _ =>
    cases hr'
    all_goals rfl
  | unnamed _ =>
    cases hr' with
    | unnamed _ | nothing _ => rfl
    | nowhere _ hname _ | taken _ hname _ _ => exact absurd rfl hname
  | nowhere _ hname hopen =>
    cases hr' with
    | unnamed _ => exact absurd rfl hname
    | nowhere _ _ _ => rfl
    | taken _ _ hopen' _ =>
      rw [hopen] at hopen'
      cases hopen'
  | taken _ hname hopen _ =>
    cases hr' with
    | unnamed _ => exact absurd rfl hname
    | nowhere _ _ hopen' =>
      rw [hopen] at hopen'
      cases hopen'
    | taken _ _ _ _ => rfl

/-- The call fails for one of the reasons and does nothing, or there is no reason for it to fail and
the table becomes one that the history with the call records. -/
inductive Answers (h : History) (s : Session) (call : TableCall) : Prop where
  | refused {fault : TableFault} : h.Refuses call fault →
    s.step call.command = (.error (.table fault), s) → Answers h s call
  | done (reply : Reply) {table : SymbolTable} : (∀ fault, ¬ h.Refuses call fault) →
    s.step call.command = (.ok reply, { s with table := table }) →
    (h.note call).Records table → Answers h s call

theorem Records.step_exit (hr : h.Records s.table) {outer : List Nat}
    (hopen : h.openScopes = n :: outer) :
    s.step .exit = (.ok (.scope (h.scope n)), { s with table := ⟨outer.map h.scope⟩ }) := by
  simp only [Session.step, ScopeStack.exitScope, hr.scopes_cons hopen]

theorem Records.answers_exit (hr : h.Records s.table) : h.Answers s .exit := by
  cases hopen : h.openScopes with
  | nil =>
    refine .refused (.exit hopen) ?_
    simp only [TableCall.command, Session.step, ScopeStack.exitScope, hr.scopes_nil hopen]
  | cons n outer =>
    refine .done _ ?_ (hr.step_exit hopen) (hr.exit hopen)
    rintro _ ⟨hnone⟩
    rw [hopen] at hnone
    cases hnone

theorem not_refuses_declare {outer : List Nat} (hname : name ≠ "")
    (hopen : h.openScopes = n :: outer) (hfresh : ∀ s, ⟨n, name, s⟩ ∉ h.declarations)
    (symbol : Symbol) (fault : TableFault) : ¬ h.Refuses (.declare name (some symbol)) fault := by
  intro hrefused
  cases hrefused with
  | unnamed _ => exact hname rfl
  | nowhere _ _ hnone =>
    rw [hopen] at hnone
    cases hnone
  | taken _ _ hopen' hd =>
    rw [hopen] at hopen'
    cases hopen'
    exact hfresh _ hd

theorem Records.answers_declare (hr : h.Records s.table) (name : String)
    (symbol : Option Symbol) : h.Answers s (.declare name symbol) := by
  have hstep : s.step (TableCall.declare name symbol).command =
      s.onTable (s.table.declare name symbol) := rfl
  by_cases hname : name = ""
  · subst hname
    refine .refused (.unnamed symbol) ?_
    simp [hstep, Session.onTable, SymbolTable.declare]
  cases symbol with
  | none =>
    refine .refused (.nothing name) ?_
    simp [hstep, Session.onTable, SymbolTable.declare]
  | some symbol =>
    cases hopen : h.openScopes with
    | nil =>
      refine .refused (.nowhere symbol hname hopen) ?_
      simp [hstep, Session.onTable, SymbolTable.declare, hr.scopes_nil hopen, hname]
    | cons n outer =>
      have hscopes := hr.scopes_cons hopen
      by_cases htaken : ∃ s', ⟨n, name, s'⟩ ∈ h.declarations
      · obtain ⟨s', hs'⟩ := htaken
        refine .refused (.taken symbol hname hopen hs') ?_
        simp [hstep, Session.onTable, SymbolTable.declare, hscopes, hname, hr.lookup_scope.mpr hs']
      · have hfresh := not_exists.mp htaken
        refine .done .done (not_refuses_declare hname hopen hfresh symbol) ?_
          (hr.declare hopen hfresh symbol)
        simp [hstep, Session.onTable, SymbolTable.declare, hscopes, hname,
          lookup_scope_eq_none.mpr hfresh]

theorem Records.answers (hr : h.Records s.table) (call : TableCall) : h.Answers s call := by
  cases call with
  | enter => exact .done .done (fun _ hrefused => by cases hrefused) rfl hr.enter
  | exit => exact hr.answers_exit
  | declare name symbol => exact hr.answers_declare name symbol

theorem Records.run (hr : h.Records s.table) (calls : List TableCall) :
    (h.noteAll calls (s.run (calls.map TableCall.command)).1).Records
      (s.run (calls.map TableCall.command)).2.table := by
  induction calls generalizing h s with
  | nil => exact hr
  | cons call calls ih =>
    simp only [List.map_cons, Session.run]
    cases hr.answers call with
    | refused _ hstep =>
      rw [hstep]
      exact ih hr
    | done _ _ hstep hnext =>
      rw [hstep]
      exact ih hnext

theorem records_empty : ({} : History).Records .empty where
  scopes_eq := rfl
  open_nodup := List.nodup_nil
  open_lt := List.forall_mem_nil _
  declared_lt := List.forall_mem_nil _
  names_nodup _ := List.nodup_nil

/-- The look-up is answered by the symbol of which the property holds, or by none. -/
def Finds (answer : Except Fault Reply) (P : Symbol → Prop) : Prop :=
  ∃ found, answer = .ok (.symbol found) ∧ ∀ s, found = some s ↔ P s

theorem Records.finds_local (hr : h.Records s.table) {outer : List Nat}
    (hopen : h.openScopes = n :: outer) (name : String) :
    Finds (s.step (.lookupLocal name)).1 fun x => ⟨n, name, x⟩ ∈ h.declarations := by
  refine ⟨((h.scope n).lookup name).join, ?_, fun x => ?_⟩
  · simp only [Session.step, SymbolTable.lookupLocal, hr.scopes_cons hopen, Session.onLookup]
  · rw [Option.join_eq_some_iff, hr.lookup_scope]

theorem Records.finds_lexical (hr : h.Records s.table) (hopen : h.openScopes ≠ [])
    (name : String) :
    Finds (s.step (.lookupLexical name)).1 fun x => h.Innermost (fun _ => True) name x := by
  refine ⟨(s.table.scopes.findSome? (·.lookup name)).join, ?_, fun x => ?_⟩
  · have hne : s.table.scopes.isEmpty = false := by simpa [hr.scopes_eq] using hopen
    simp [Session.step, SymbolTable.lookupLexical, hne, Session.onLookup]
  · rw [Option.join_eq_some_iff, hr.scopes_eq, List.findSome?_map, List.findSome?_eq_some_iff]
    simp only [Function.comp_apply, hr.lookup_scope, lookup_scope_eq_none, Innermost, true_and,
      not_true_eq_false, imp_false]

theorem Records.lookups_nowhere (hr : h.Records s.table) (name : String)
    (hopen : h.openScopes = []) :
    (s.step (.lookupLocal name)).1 = .error (.table (.noOpenScope .lookupLocal)) ∧
      (s.step (.lookupLexical name)).1 = .error (.table (.noOpenScope .lookupLexical)) := by
  simp [Session.step, SymbolTable.lookupLocal, SymbolTable.lookupLexical, hr.scopes_nil hopen,
    Session.onLookup]

theorem Records.structIn?_scope (hr : h.Records t) {d : StructDef} :
    SymbolTable.structIn? name (h.scope n) = some d ↔ ⟨n, name, d.symbol⟩ ∈ h.declarations := by
  rw [SymbolTable.structIn?, Option.bind_eq_some_iff]
  constructor
  · rintro ⟨x, hx, hstruct⟩
    rw [Symbol.structDef?_eq_some_iff.mp hstruct]
    exact hr.lookup_scope.mp (Option.join_eq_some_iff.mp hx)
  · intro hd
    exact ⟨d.symbol, Option.join_eq_some_iff.mpr (hr.lookup_scope.mpr hd), rfl⟩

theorem Records.structIn?_scope_eq_none (hr : h.Records t) :
    SymbolTable.structIn? name (h.scope n) = none ↔
      ∀ x, ⟨n, name, x⟩ ∈ h.declarations → ¬ x.IsStruct := by
  rw [Option.eq_none_iff_forall_ne_some]
  constructor
  · rintro hnone _ hd ⟨d, rfl⟩
    exact hnone d (hr.structIn?_scope.mpr hd)
  · intro hnone d hd
    exact hnone _ (hr.structIn?_scope.mp hd) ⟨d, rfl⟩

theorem Records.finds_struct (hr : h.Records s.table) (name : String) :
    Finds (s.step (.resolveStruct name)).1 fun x => h.Innermost Symbol.IsStruct name x := by
  refine ⟨(s.table.resolveStruct name).map StructDef.symbol, rfl, fun x => ?_⟩
  rw [SymbolTable.resolveStruct, hr.scopes_eq, List.findSome?_map, Option.map_eq_some_iff]
  simp only [List.findSome?_eq_some_iff, Function.comp_apply, hr.structIn?_scope,
    hr.structIn?_scope_eq_none]
  constructor
  · rintro ⟨d, ⟨inner, n, outer, hopen, hd, hinner⟩, rfl⟩
    exact ⟨inner, n, outer, hopen, hd, ⟨d, rfl⟩, hinner⟩
  · rintro ⟨inner, n, outer, hopen, hd, ⟨d, rfl⟩, hinner⟩
    exact ⟨d, ⟨inner, n, outer, hopen, hd, hinner⟩, rfl⟩

end History

namespace Session

theorem run_append (s : Session) (commands commands' : List Command) :
    (s.run (commands ++ commands')).2 = ((s.run commands).2.run commands').2 := by
  induction commands generalizing s with
  | nil => rfl
  | cons command commands ih => exact ih (s.step command).2

theorem step_declare (s : Session) {scope : Scope} {rest : List Scope}
    (hs : s.table.scopes = scope :: rest) (name : String) (symbol : Option Symbol) :
    ∃ scope', (s.step (.declare name symbol)).2 = { s with table := ⟨scope' :: rest⟩ } := by
  have hsame : s = { s with table := ⟨scope :: rest⟩ } := by rw [← hs]
  cases hdeclare : s.table.declare name symbol with
  | error why =>
    refine ⟨scope, ?_⟩
    simp only [step, hdeclare, onTable]
    exact hsame
  | ok table =>
    cases symbol with
    | none => simp [SymbolTable.declare] at hdeclare
    | some symbol =>
      obtain ⟨-, _, _, hs', -, rfl⟩ := SymbolTable.declare_eq_ok.mp hdeclare
      rw [hs] at hs'
      cases hs'
      refine ⟨scope ++ [(name, some symbol)], ?_⟩
      simp only [step, hdeclare, onTable]

/-- Commands that leave the scope entered before them on top of the others are undone by leaving
it. -/
theorem run_enclosed (s : Session) {body : List Command} {scope : Scope}
    (hbody : ((s.step .enter).2.run body).2 = { s with table := ⟨scope :: s.table.scopes⟩ })
    (commands : List Command) :
    (s.run (.enter :: (body ++ .exit :: commands))).2 = (s.run commands).2 := by
  change ((s.step .enter).2.run (body ++ .exit :: commands)).2 = _
  rw [run_append, hbody]
  rfl

end Session

/-- Balanced calls change no scope but the one that is innermost before them. -/
theorem TableCall.Balanced.run {calls : List TableCall} (hb : Balanced calls) {s : Session}
    {scope : Scope} {rest : List Scope} (hs : s.table.scopes = scope :: rest) :
    ∃ scope', (s.run (calls.map command)).2 = { s with table := ⟨scope' :: rest⟩ } := by
  induction hb generalizing s scope rest with
  | nil =>
    refine ⟨scope, ?_⟩
    rw [← hs]
    rfl
  | declare name symbol _ ih =>
    obtain ⟨scope₁, hstep⟩ := s.step_declare hs name symbol
    obtain ⟨scope₂, hrest⟩ := ih (s := { s with table := ⟨scope₁ :: rest⟩ }) rfl
    refine ⟨scope₂, ?_⟩
    simp only [List.map_cons, command, Session.run, hstep, hrest]
  | block _ _ ihbody ih =>
    obtain ⟨scope₁, hbody⟩ := ihbody (s := (s.step .enter).2) rfl
    obtain ⟨scope₂, hrest⟩ := ih hs
    refine ⟨scope₂, ?_⟩
    rw [List.map_cons, List.map_append, List.map_cons, ← hrest]
    exact s.run_enclosed hbody _

/-- Balanced calls in a scope of their own leave the session as it was. -/
theorem TableCall.Balanced.run_enclosed {calls : List TableCall} (hb : Balanced calls)
    (s : Session) : (s.run ((enclosed calls).map command)).2 = s := by
  obtain ⟨scope, hbody⟩ := hb.run (s := (s.step .enter).2) rfl
  rw [enclosed, List.map_cons, List.map_append]
  exact s.run_enclosed hbody []

/-- After any calls on a table without an open scope, each open scope holds what was declared in it
while it was innermost, in order and under different names. A further call fails exactly for the
reasons given, and changes nothing if it fails; to leave a scope yields what it holds. The three
look-ups find the declaration in the innermost scope, in the innermost scope that has one, and in
the innermost scope that has one of a struct. So a balanced block of calls does not change what they
find. -/
theorem tables_hold_their_history (start : Session) (calls : List TableCall) :
    let run := { start with table := .empty }.run (calls.map TableCall.command)
    let h : History := ({} : History).noteAll calls run.1
    let s := run.2
    (s.table.scopes = h.openScopes.map h.scope ∧
      ∀ n ∈ h.openScopes, ((h.scope n).map Prod.fst).Nodup) ∧
    (∀ (call : TableCall) (why : Fault),
      ((s.step call.command).1 = .error why ↔
        ∃ fault, h.Refuses call fault ∧ why = .table fault) ∧
      ((s.step call.command).1 = .error why → (s.step call.command).2 = s)) ∧
    (∀ n outer, h.openScopes = n :: outer → (s.step .exit).1 = .ok (.scope (h.scope n))) ∧
    (∀ name,
      (h.openScopes = [] →
        (s.step (.lookupLocal name)).1 = .error (.table (.noOpenScope .lookupLocal)) ∧
        (s.step (.lookupLexical name)).1 = .error (.table (.noOpenScope .lookupLexical))) ∧
      (∀ n outer, h.openScopes = n :: outer →
        History.Finds (s.step (.lookupLocal name)).1 (⟨n, name, ·⟩ ∈ h.declarations) ∧
        History.Finds (s.step (.lookupLexical name)).1 (h.Innermost (fun _ => True) name)) ∧
      History.Finds (s.step (.resolveStruct name)).1 (h.Innermost Symbol.IsStruct name)) ∧
    ∀ body, TableCall.Balanced body → ∀ name,
      ∀ lookup ∈ [Command.lookupLocal name, .lookupLexical name, .resolveStruct name],
        ((s.run ((TableCall.enclosed body).map TableCall.command)).2.step lookup).1 =
          (s.step lookup).1 := by
  intro run h s
  have hr : h.Records s.table := History.records_empty.run calls
  refine ⟨⟨hr.scopes_eq, fun n _ => hr.names_nodup n⟩, ?_, ?_, ?_, ?_⟩
  · intro call why
    cases hr.answers call with
    | refused hrefused hstep =>
      rw [hstep]
      refine ⟨⟨?_, ?_⟩, fun _ => rfl⟩
      · rintro ⟨⟩
        exact ⟨_, hrefused, rfl⟩
      · rintro ⟨fault, hrefused', rfl⟩
        rw [hrefused.unique hrefused']
    | done reply hnot hstep _ =>
      rw [hstep]
      have hok : (.ok reply : Except Fault Reply) ≠ .error why := by simp
      refine ⟨iff_of_false hok ?_, fun herror => absurd herror hok⟩
      rintro ⟨fault, hrefused, -⟩
      exact hnot fault hrefused
  · intro n outer hopen
    rw [hr.step_exit hopen]
  · intro name
    refine ⟨hr.lookups_nowhere name, ?_, hr.finds_struct name⟩
    intro n outer hopen
    exact ⟨hr.finds_local hopen name, hr.finds_lexical (by simp [hopen]) name⟩
  · intro body hbody name lookup _
    rw [hbody.run_enclosed s]

-- a variable that has the name of a struct, and a second one that comes too late
example :
    let struct : Symbol := .structDecl "P" none
    let calls : List TableCall := [.enter, .declare "P" (some struct), .enter,
      .declare "P" (some (.var "int")), .declare "P" (some (.var "bool"))]
    let s := (({} : Session).run (calls.map TableCall.command)).2
    (s.step (.lookupLexical "P")).1 = .ok (.symbol (some (.var "int"))) ∧
      (s.step (.resolveStruct "P")).1 = .ok (.symbol (some struct)) :=
  ⟨rfl, rfl⟩

end Sema
