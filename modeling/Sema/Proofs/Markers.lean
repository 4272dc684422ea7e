import Sema.Editor
import Sema.Proofs.Places

/-!
# Markers of an analysed document

An editor shows every diagnostic of an analysis, each over one character, unless one of them stands
beyond the lines or characters that an editor can count. The first that does is what the report then
fails on.
-/

namespace Sema

/-- What an editor's protocol is taken to do: it takes the numbers from zero to the limit for lines
and characters, it looks at the line first, and it refuses a number in words of its own. -/
structure EditorProtocol.TakesUpTo (protocol : EditorProtocol) (limit : Int)
    (words : Coordinate → Int → String) : Prop where
  takes {line character : Int} : 0 ≤ line ∧ line ≤ limit → 0 ≤ character ∧ character ≤ limit →
    protocol.place line character = .ok ⟨line, character⟩
  line_first {line : Int} : ¬ (0 ≤ line ∧ line ≤ limit) → ∀ character,
    protocol.place line character = .error (.outOfRange .line line (words .line line))
  then_character {line character : Int} : 0 ≤ line ∧ line ≤ limit →
    ¬ (0 ≤ character ∧ character ≤ limit) → protocol.place line character =
      .error (.outOfRange .character character (words .character character))

theorem EditorProtocol.upTo_takesUpTo (limit : Int) :
    (upTo limit).TakesUpTo limit (upTo.words limit) where
  takes hline hcharacter := by simp only [upTo]; rw [if_neg (by omega), if_neg (by omega)]
  line_first hline character := by simp only [upTo]; rw [if_pos (by omega)]
  then_character hline hcharacter := by
    simp only [upTo]
    rw [if_neg (by omega), if_pos (by omega)]

namespace Diagnostic

/-- An editor can count up to the line of the diagnostic, and up to the end of the character it
stands at. Lines and characters before the first are taken for the first. -/
def Fits (d : Diagnostic) : Prop := d.pos.line ≤ 2147483648 ∧ d.pos.col ≤ 2147483647

instance (d : Diagnostic) : Decidable d.Fits := inferInstanceAs (Decidable (_ ∧ _))

/-- The marker of a diagnostic that fits. -/
def shown (protocol : EditorProtocol) (d : Diagnostic) : Marker protocol where
  start := ⟨max 0 (d.pos.line - 1), max 0 (d.pos.col - 1)⟩
  stop := ⟨max 0 (d.pos.line - 1), max 0 (d.pos.col - 1) + 1⟩
  message := d.message
  severity := protocol.error
  source := "harambe"
  code := d.kind.map DiagnosticKind.code

/-- What is out of range about a diagnostic that does not fit: its line, or else its character, or
else only where its character ends. -/
def excess (d : Diagnostic) : Coordinate × Int :=
  if 2147483648 < d.pos.line then (.line, d.pos.line - 1)
  else if 2147483647 < d.pos.col - 1 then (.character, d.pos.col - 1)
  else (.character, 2147483648)

/-- The refusal of a diagnostic that does not fit, in the words of the protocol. -/
def refusal (words : Coordinate → Int → String) (d : Diagnostic) : Fault :=
  .outOfRange d.excess.1 d.excess.2 (words d.excess.1 d.excess.2)

section Markers

variable {protocol : EditorProtocol} {words : Coordinate → Int → String} {d : Diagnostic}

theorem marker_eq (d : Diagnostic) : d.marker protocol = do
    let start ← protocol.place (d.shown protocol).start.line (d.shown protocol).start.character
    let stop ← protocol.place (d.shown protocol).start.line (d.shown protocol).stop.character
    return { d.shown protocol with start := start, stop := stop } := rfl

variable (hprotocol : protocol.TakesUpTo 2147483647 words)
include hprotocol

theorem marker_of_fits (h : d.Fits) : d.marker protocol = .ok (d.shown protocol) := by
  obtain ⟨hline, hcol⟩ := h
  rw [marker_eq, hprotocol.takes (by simp only [shown]; omega) (by simp only [shown]; omega),
    hprotocol.takes (by simp only [shown]; omega) (by simp only [shown]; omega)]
  rfl

theorem marker_of_not_fits (h : ¬ d.Fits) : d.marker protocol = .error (d.refusal words) := by
  rw [marker_eq]
  by_cases hline : 2147483648 < d.pos.line
  · have hline' : (d.shown protocol).start.line = d.pos.line - 1 := by
      simp only [shown]
      omega
    rw [refusal, excess, if_pos hline, hline', hprotocol.line_first (by omega)]
    rfl
  · have hline' : 0 ≤ (d.shown protocol).start.line ∧
        (d.shown protocol).start.line ≤ 2147483647 := by
      simp only [shown]
      omega
    rw [refusal, excess, if_neg hline]
    by_cases hcol : 2147483647 < d.pos.col - 1
    · have hstart : (d.shown protocol).start.character = d.pos.col - 1 := by
        simp only [shown]
        omega
      rw [if_pos hcol, hstart, hprotocol.then_character hline' (by omega)]
      rfl
    · -- the column is the one whose character starts within the limit and ends beyond it
      have hcol' : d.pos.col = 2147483648 := by
        simp only [Fits, not_and] at h
        omega
      have hstart : (d.shown protocol).start.character = 2147483647 := by
        simp only [shown, hcol']
        rfl
      have hstop : (d.shown protocol).stop.character = 2147483648 := by
        simp only [shown, hcol']
        rfl
      rw [if_neg hcol, hstart, hstop, hprotocol.takes hline' (by decide),
        hprotocol.then_character hline' (by decide)]
      rfl

/-- The diagnostics are looked at one after another, and the first that does not fit ends it. -/
theorem mapM_marker (ds : List Diagnostic) :
    ds.mapM (marker protocol) =
      (ds.find? (¬ ·.Fits)).elim (.ok (ds.map (shown protocol))) (.error <| refusal words ·) := by
  induction ds with
  | nil => rfl
  | cons d ds ih =>
    rw [List.mapM_cons, ih]
    by_cases hfits : d.Fits
    · rw [marker_of_fits hprotocol hfits, List.find?_cons_of_neg (by simpa using hfits)]
      cases ds.find? (¬ ·.Fits) <;> rfl
    · rw [marker_of_not_fits hprotocol hfits, List.find?_cons_of_pos (by simpa using hfits)]
      rfl

omit hprotocol

/-- From the first line and column on, a marker tells where its diagnostic stands. -/
theorem pos_eq_of_start {d' : Diagnostic} (hpos : 1 ≤ d.pos.line ∧ 1 ≤ d.pos.col)
    (hpos' : 1 ≤ d'.pos.line ∧ 1 ≤ d'.pos.col)
    (h : (d.shown protocol).start = (d'.shown protocol).start) : d.pos = d'.pos := by
  obtain ⟨⟨line, col⟩, _, _⟩ := d
  obtain ⟨⟨line', col'⟩, _, _⟩ := d'
  simp only [shown, Place.mk.injEq, Pos.mk.injEq] at h hpos hpos' ⊢
  omega

theorem first_not_fits {ds : List Diagnostic} :
    ds.find? (¬ ·.Fits) = some d ↔
      ∃ before after, ds = before ++ d :: after ∧ (∀ earlier ∈ before, earlier.Fits) ∧
        ¬ d.Fits := by
  rw [List.find?_eq_some_iff_append]
  simp only [decide_not, Bool.not_not, decide_eq_true_eq, Bool.not_eq_true',
    decide_eq_false_iff_not]
  constructor
  · rintro ⟨hd, before, after, hsplit, hbefore⟩
    exact ⟨before, after, hsplit, hbefore, hd⟩
  · rintro ⟨before, after, hsplit, hbefore, hd⟩
    exact ⟨hd, before, after, hsplit, hbefore⟩

end Markers

end Diagnostic

section Reports

variable {protocol : EditorProtocol} {words : Coordinate → Int → String} {program : Program}
  {v : Verdict}

section Outcomes

variable (hprotocol : protocol.TakesUpTo 2147483647 words)
  (h : (analyze {} program).outcome = .ok v)
include hprotocol h

theorem reportDocument_eq (uri : String) :
    reportDocument protocol uri program = (v.diagnostics.find? (¬ ·.Fits)).elim
      (.ok ⟨uri, v.diagnostics.map (Diagnostic.shown protocol), v⟩)
      (.error <| Diagnostic.refusal words ·) := by
  have hreport : reportDocument protocol uri program =
      (v.diagnostics.mapM (Diagnostic.marker protocol)).map fun markers => ⟨uri, markers, v⟩ := by
    rw [reportDocument, h]
    rfl
  rw [hreport, Diagnostic.mapM_marker hprotocol]
  cases v.diagnostics.find? (¬ ·.Fits) <;> rfl

theorem reportDocument_eq_ok {uri : String} {report : DocumentReport protocol} :
    reportDocument protocol uri program = .ok report ↔
      (∀ d ∈ v.diagnostics, d.Fits) ∧
        report = ⟨uri, v.diagnostics.map (Diagnostic.shown protocol), v⟩ := by
  have hall : v.diagnostics.find? (¬ ·.Fits) = none ↔ ∀ d ∈ v.diagnostics, d.Fits := by simp
  rw [reportDocument_eq hprotocol h, ← hall]
  cases v.diagnostics.find? (¬ ·.Fits) with
  | none => simp [eq_comm]
  | some d => simp

theorem reportDocument_eq_error {uri : String} {why : Fault} :
    reportDocument protocol uri program = .error why ↔
      ∃ before d after, v.diagnostics = before ++ d :: after ∧
        (∀ earlier ∈ before, earlier.Fits) ∧ ¬ d.Fits ∧ why = d.refusal words := by
  rw [reportDocument_eq hprotocol h]
  constructor
  · intro herror
    cases hfar : v.diagnostics.find? (¬ ·.Fits) with
    | none =>
      rw [hfar] at herror
      cases herror
    | some d =>
      rw [hfar] at herror
      cases herror
      obtain ⟨before, after, hsplit, hbefore, hd⟩ := Diagnostic.first_not_fits.mp hfar
      exact ⟨before, d, after, hsplit, hbefore, hd, rfl⟩
  · rintro ⟨before, d, after, hsplit, hbefore, hd, rfl⟩
    rw [Diagnostic.first_not_fits.mpr ⟨before, after, hsplit, hbefore, hd⟩]
    rfl

end Outcomes

theorem exists_kind_of_reported {journal : Journal}
    (h : (analyze journal program).outcome = .ok v) :
    ∀ d ∈ v.diagnostics, ∃ kind, d.kind = some kind := by
  intro d hd
  obtain ⟨hfault, ⟨-, rfl⟩ | ⟨-, rs, t, htypes, rfl⟩⟩ := analyze_returned journal h
  · obtain ⟨id, -, kind, -, rfl⟩ := resolveProgram_namesBlamed hfault d hd
    exact ⟨kind, rfl⟩
  · have hwithin := checkProgram_within none (resolveProgram_value_shaped hfault)
    rw [htypes] at hwithin
    obtain ⟨-, kind, hkind, -⟩ := hwithin d hd
    exact ⟨kind, hkind⟩

end Reports

/-- By a protocol that takes the numbers up to 2147483647, an analysed document can be reported
exactly if all its diagnostics stand within that. The report then has a marker for each diagnostic,
in order, over the character it stands at and with the code of its kind. Otherwise the report fails
on the first diagnostic that is beyond a limit: by its line, or else by its character, or else by
the end of that character. -/
theorem documents_reported_within_limits {protocol : EditorProtocol}
    {words : Coordinate → Int → String} (hprotocol : protocol.TakesUpTo 2147483647 words)
    {program : Program} {v : Verdict} (h : (analyze {} program).outcome = .ok v) (uri : String) :
    ((∃ report, reportDocument protocol uri program = .ok report) ↔
      ∀ d ∈ v.diagnostics, d.pos.line ≤ 2147483648 ∧ d.pos.col ≤ 2147483647) ∧
    (∀ report, reportDocument protocol uri program = .ok report →
      report.uri = uri ∧ report.verdict = v ∧
      report.markers = v.diagnostics.map (Diagnostic.shown protocol) ∧
      (∀ d ∈ v.diagnostics,
        ∃ kind, d.kind = some kind ∧ (d.shown protocol).code = some kind.code) ∧
      ∀ d ∈ v.diagnostics, ∀ d' ∈ v.diagnostics,
        1 ≤ d.pos.line ∧ 1 ≤ d.pos.col → 1 ≤ d'.pos.line ∧ 1 ≤ d'.pos.col →
        (d.shown protocol).start = (d'.shown protocol).start → d.pos = d'.pos) ∧
    ∀ why, reportDocument protocol uri program = .error why ↔
      ∃ before d after, v.diagnostics = before ++ d :: after ∧
        (∀ earlier ∈ before, earlier.Fits) ∧ ¬ d.Fits ∧ why = d.refusal words := by
  refine ⟨⟨?_, ?_⟩, ?_, fun why => reportDocument_eq_error hprotocol h⟩
  · rintro ⟨report, hreport⟩
    exact ((reportDocument_eq_ok hprotocol h).mp hreport).1
  · intro hfits
    exact ⟨_, (reportDocument_eq_ok hprotocol h).mpr ⟨hfits, rfl⟩⟩
  · intro report hreport
    obtain ⟨-, rfl⟩ := (reportDocument_eq_ok hprotocol h).mp hreport
    refine ⟨rfl, rfl, rfl, fun d hd => ?_, fun d _ d' _ => Diagnostic.pos_eq_of_start⟩
    obtain ⟨kind, hkind⟩ := exists_kind_of_reported h d hd
    exact ⟨kind, hkind, by rw [Diagnostic.shown, hkind, Option.map_some]⟩

/-- A program that declares a void variable at each of the positions. -/
def voidVariables (positions : List Pos) : Program :=
  positions.map fun pos => .varDecl (.primType .void) ⟨"x", pos, none⟩

/-- The last line that an editor can count is marked, before the first column too. A name whose
character starts within the limits and ends beyond them is not, and ends the report before a later
one that is farther off. -/
theorem voidVariables_reported :
    let near : Pos := ⟨2147483648, -7⟩
    let brink : Pos := ⟨1, 2147483648⟩
    let far : Pos := ⟨2147483649, 1⟩
    (∃ report, reportDocument (.upTo 2147483647) "a" (voidVariables [near]) = .ok report ∧
      report.markers.map Marker.start = [⟨2147483647, 0⟩]) ∧
    reportDocument (.upTo 2147483647) "a" (voidVariables [near, brink, far]) =
      .error (.outOfRange .character 2147483648
        "Position.character should be in range [0:2147483647], but was 2147483648.") := by
  intro near brink far
  let blamed (pos : Pos) : Diagnostic := .ofKind .badVoidType pos
  have hnear : (analyze {} (voidVariables [near])).outcome =
      .ok { diagnostics := [blamed near] } := rfl
  have hfar : (analyze {} (voidVariables [near, brink, far])).outcome =
      .ok { diagnostics := [blamed near, blamed brink, blamed far] } := rfl
  have hprotocol := EditorProtocol.upTo_takesUpTo 2147483647
  constructor
  · obtain ⟨hiff, hreports, -⟩ := documents_reported_within_limits hprotocol hnear "a"
    obtain ⟨report, hreport⟩ := hiff.mpr (by decide)
    refine ⟨report, hreport, ?_⟩
    rw [(hreports report hreport).2.2.1]
    rfl
  · obtain ⟨-, -, herror⟩ := documents_reported_within_limits hprotocol hfar "a"
    have hwords : EditorProtocol.upTo.words 2147483647 .character 2147483648 =
      "Position.character should be in range [0:2147483647], but was 2147483648." := rfl
    rw [← hwords]
    exact (herror _).mpr ⟨[blamed near], blamed brink, [blamed far], rfl, by decide, by decide, rfl⟩

end Sema
