import Reckoner.Proofs.FailurePlaces
import Reckoner.Report

/-! Pictures of failures. A picture shows the row on which a failure's site starts, and
below it one caret for every offset of the site on that row. Failures that are to be
found nowhere in the text have no picture, and then the text goes unnamed. -/

namespace Reckoner.Proofs.IssueIllustration
open Text BatchExecution FailurePlaces

section Rows

variable {text line : List Char} {rows before behind : List (List Char)}

def IsBreak (c : Char) : Prop := c = '\r' ∨ c = '\n'

/-- A text and its rows. A row ends at a carriage return, a line feed or the two together, and keeps
that break; the last one has none. -/
inductive Splits : List Char → List (List Char) → Prop
  | last {content : List Char} (plain : ∀ c ∈ content, ¬ IsBreak c) : Splits content [content]
  | row {content ending rest : List Char} {rows : List (List Char)} (plain : ∀ c ∈ content, ¬ IsBreak c)
      (ends : ending = ['\r', '\n'] ∨ ending = ['\n'] ∨ ending = ['\r'] ∧ rest.head? ≠ some '\n')
      (further : Splits rest rows) : Splits (content ++ ending ++ rest) ((content ++ ending) :: rows)

theorem Splits.cons {c : Char} (plain : ¬ IsBreak c) (splits : Splits text (line :: rows)) :
    Splits (c :: text) ((c :: line) :: rows) := by
  have extended {content : List Char} (rest : ∀ d ∈ content, ¬ IsBreak d) : ∀ d ∈ c :: content, ¬ IsBreak d := by
    intro d member
    rcases List.mem_cons.mp member with rfl | later
    · exact plain
    · exact rest d later
  cases splits with
  | last rest => exact .last (extended rest)
  | row rest ends further => exact .row (extended rest) ends further

theorem lines_splits (text : List Char) : Splits text (lines text) := by
  induction text using lines.induct with
  | case1 => exact .last (by simp)
  | case2 rest ih => exact @Splits.row [] _ _ _ (by simp) (.inl rfl) ih
  | case3 c rest unpaired broken ih =>
    rw [lines.eq_3 _ _ unpaired, if_pos broken]
    refine @Splits.row [] [c] _ _ (by simp) ?_ ih
    rcases broken with rfl | rfl
    · refine .inr (.inr ⟨rfl, fun head => ?_⟩)
      obtain ⟨more, rfl⟩ := List.head?_eq_some_iff.mp head
      exact unpaired more rfl rfl
    · exact .inr (.inl rfl)
  | case4 c rest unpaired plain line others same ih =>
    rw [lines.eq_3 _ _ unpaired, if_neg plain, same]
    exact .cons plain (same ▸ ih)
  | case5 c rest unpaired plain none ih =>
    rw [none] at ih
    cases ih

theorem Splits.flatten (splits : Splits text rows) : rows.flatten = text := by
  induction splits with
  | last => simp
  | row _ _ _ ih => simp [ih]

theorem lines_plain {content : List Char} (plain : ∀ c ∈ content, ¬ IsBreak c) (cut : lines text = line :: rows) :
    lines (content ++ text) = (content ++ line) :: rows := by
  induction content with
  | nil => exact cut
  | cons c content ih =>
    rw [List.forall_mem_cons] at plain
    obtain ⟨here, others⟩ := plain
    have apart : ¬ (c = '\r' ∨ c = '\n') := here
    have unpaired : ∀ rest, c = '\r' → content ++ text = '\n' :: rest → False := fun _ same _ => here (.inl same)
    rw [List.cons_append, lines.eq_3 _ _ unpaired, if_neg apart, ih others]
    rfl

theorem lines_ending {ending rest : List Char}
    (ends : ending = ['\r', '\n'] ∨ ending = ['\n'] ∨ ending = ['\r'] ∧ rest.head? ≠ some '\n') :
    lines (ending ++ rest) = ending :: lines rest := by
  rcases ends with rfl | rfl | ⟨rfl, alone⟩
  · rfl
  · exact (lines.eq_3 _ _ (by simp)).trans (if_pos (.inr rfl))
  · have unpaired : ∀ more, '\r' = '\r' → rest = '\n' :: more → False := by
      rintro more - rfl
      exact alone rfl
    exact (lines.eq_3 _ _ unpaired).trans (if_pos (.inl rfl))

/-- A text has no other rows than those it is split into. -/
theorem Splits.unique (splits : Splits text rows) : lines text = rows := by
  induction splits with
  | last plain => simpa using @lines_plain [] [] [] _ plain rfl
  | row plain ends further ih =>
    rw [List.append_assoc]
    refine lines_plain plain ?_
    rw [lines_ending ends, ih]

theorem IsBreak.blank {c : Char} (broken : IsBreak c) : isBlank c = true := by
  rcases broken with rfl | rfl <;> rfl

/-- A row has no breaks but those at its end. -/
theorem Splits.ending (splits : Splits text rows) (member : line ∈ rows) :
    ∃ content ending, line = content ++ ending ∧ (∀ c ∈ content, ¬ IsBreak c) ∧ ∀ c ∈ ending, IsBreak c := by
  induction splits with
  | last plain =>
    rw [List.mem_singleton.mp member]
    exact ⟨_, [], by simp, plain, by simp⟩
  | row plain ends further ih =>
    rcases List.mem_cons.mp member with rfl | later
    · refine ⟨_, _, rfl, plain, ?_⟩
      rcases ends with rfl | rfl | ⟨rfl, -⟩ <;> simp [IsBreak]
    · exact ih later

theorem trimEnd_append {ending : List Char} (content : List Char) (blank : ∀ c ∈ ending, isBlank c = true) :
    trimEnd (content ++ ending) = trimEnd content := by
  have reversed : ∀ c ∈ ending.reverse, isBlank c = true := by simpa using blank
  rw [trimEnd, trimEnd, List.reverse_append, List.dropWhile_append_of_pos reversed]

theorem trimEnd_split (line : List Char) : ∃ blanks, line = trimEnd line ++ blanks ∧ ∀ c ∈ blanks, isBlank c = true := by
  refine ⟨(line.reverse.takeWhile isBlank).reverse, ?_, ?_⟩
  · rw [trimEnd, ← List.reverse_append, List.takeWhile_append_dropWhile, List.reverse_reverse]
  · intro c member
    exact TokenLexicon.taken_wanted c (List.mem_reverse.mp member)

/-- Without the white space at its end a row has no break. -/
theorem Splits.trimmed (splits : Splits text rows) (member : line ∈ rows) : ∀ c ∈ trimEnd line, ¬ IsBreak c := by
  obtain ⟨content, ending, rfl, plain, broken⟩ := splits.ending member
  rw [trimEnd_append content fun c member => (broken c member).blank]
  intro c kept
  obtain ⟨blanks, same, -⟩ := trimEnd_split content
  exact plain c (by rw [same]; exact List.mem_append_left _ kept)

end Rows

section Spots

/-- The row of a text on which a site starts, and the column at which it does. -/
structure Spot (text : List Char) (site : Span) where
  before : List (List Char)
  line : List Char
  behind : List (List Char)
  column : Nat
  rows : Splits text (before ++ line :: behind)
  start : ((before.flatten.length + column : Nat) : Int) = site.start
  inside : column < line.length

theorem length_between (low high : Int) (start count : Nat) :
    ((List.range' start count).filter fun offset : Nat => decide (low ≤ offset ∧ offset < high)).length =
      (min high (start + count : Nat) - max low start).toNat := by
  induction count generalizing start with
  | zero =>
    rw [List.range'_zero, List.filter_nil, List.length_nil]
    omega
  | succ count ih =>
    rw [List.range'_succ, List.filter_cons]
    split
    next within =>
      have bounds := of_decide_eq_true within
      rw [List.length_cons, ih]
      omega
    next apart =>
      have outside : ¬ (low ≤ start ∧ start < high) := by simpa using apart
      rw [ih]
      omega

namespace Spot

variable {text : List Char} {site : Span} (spot : Spot text site)

/-- Rows count from one. -/
def row : Nat := spot.before.length + 1

/-- The offsets of the row, its break included, that belong to the site. -/
def offsets : List Nat :=
  (List.range' spot.before.flatten.length spot.line.length).filter fun offset : Nat =>
    decide (site.start ≤ offset ∧ offset < site.stop)

theorem length_offsets (filled : site.start < site.stop) :
    spot.offsets.length =
      Report.caretCount spot.line spot.column (max site.stop (site.start + 1) - site.start).toNat := by
  have start := spot.start
  have inside := spot.inside
  rw [offsets, length_between, Report.caretCount]
  omega

theorem offsets_pos (filled : site.start < site.stop) : 0 < spot.offsets.length := by
  rw [spot.length_offsets filled, Report.caretCount]
  omega

theorem character : spot.line[spot.column]? = text[site.start.toNat]? := by
  have start := spot.start
  have place : site.start.toNat = spot.before.flatten.length + spot.column := by omega
  have found : (spot.before ++ spot.line :: spot.behind).flatten[spot.before.flatten.length + spot.column]? =
      spot.line[spot.column]? := by
    rw [List.flatten_append, List.flatten_cons, List.getElem?_append_right (Nat.le_add_right ..),
      Nat.add_sub_cancel_left, List.getElem?_append_left spot.inside]
  rw [place, ← found, spot.rows.flatten]

end Spot

theorem rows_found {offset : Nat} {rows : List (List Char)} (inside : offset < rows.flatten.length) :
    ∃ before line behind column, rows = before ++ line :: behind ∧ before.flatten.length + column = offset ∧
      column < line.length := by
  induction rows generalizing offset with
  | nil => simp at inside
  | cons first rest ih =>
    rw [List.flatten_cons, List.length_append] at inside
    by_cases here : offset < first.length
    · exact ⟨[], first, rest, offset, rfl, by simp, here⟩
    · obtain ⟨before, line, behind, column, rfl, sum, fits⟩ := @ih (offset - first.length) (by omega)
      refine ⟨first :: before, line, behind, column, rfl, ?_, fits⟩
      rw [List.flatten_cons, List.length_append]
      omega

/-- A site that starts inside of a text starts on a row of it. -/
theorem spot_found {text : List Char} {site : Span} (first : 0 ≤ site.start) (last : site.start < text.length) :
    Nonempty (Spot text site) := by
  have splits := lines_splits text
  obtain ⟨before, line, behind, column, same, sum, inside⟩ :=
    @rows_found site.start.toNat (lines text) (by rw [splits.flatten]; omega)
  rw [same] at splits
  exact ⟨before, line, behind, column, splits, by omega, inside⟩

end Spots

section Tools

/-- What is granted about the tools that find lines and draw pictures: rows end where `Splits` says, offsets
and rows are found among them, and the carets of a picture are clipped to the line with its break. -/
structure Documented (tools : Report.Illustrator) : Prop where
  locate {text line : List Char} {before behind : List (List Char)} {column : Nat}
    (splits : Splits text (before ++ line :: behind)) (inside : column < line.length) :
    tools.locate text (before.flatten.length + column) = (before.length + 1, column)
  lineAt {text line : List Char} {before behind : List (List Char)} (splits : Splits text (before ++ line :: behind)) :
    tools.lineAt text (before.length + 1) = line
  draw {line : List Char} {column width : Nat} (inside : column < line.length) (margin : List Char) (caption : String) :
    tools.draw line column width margin caption =
      String.ofList (margin ++ trimEnd line ++ '\n' :: Report.blanked (margin ++ line.take column) ++
        List.replicate (max 1 (min width (line.length - column))) '^' ++ ' ' :: caption.toList)

theorem locateAmong_found {row column : Nat} {before behind : List (List Char)} {line : List Char}
    (inside : column < line.length) :
    locateAmong row (before ++ line :: behind) (before.flatten.length + column) = (row + before.length, column) := by
  induction before generalizing row with
  | nil =>
    rw [List.flatten_nil, List.length_nil, Nat.zero_add]
    cases behind with
    | nil => rfl
    | cons next others => exact if_pos inside
  | cons first before ih =>
    have beyond : ¬ (first :: before).flatten.length + column < first.length := by
      rw [List.flatten_cons, List.length_append]
      omega
    have rest : (first :: before).flatten.length + column - first.length = before.flatten.length + column := by
      rw [List.flatten_cons, List.length_append]
      omega
    have next : locateAmong row (first :: (before ++ line :: behind)) ((first :: before).flatten.length + column) =
        locateAmong (row + 1) (before ++ line :: behind) (before.flatten.length + column) := by
      rw [← rest]
      cases before <;> exact if_neg beyond
    rw [List.cons_append, next, ih, List.length_cons, Nat.add_right_comm, Nat.add_assoc]

/-- The usual tools are as they should be. -/
theorem usual_documented : Documented .usual where
  locate splits inside := by
    change locateAmong 1 (lines _) _ = _
    rw [splits.unique, locateAmong_found inside, Nat.add_comm 1]
  lineAt splits := by
    change (lines _).getD _ [] = _
    rw [splits.unique]
    simp
  draw _ _ _ := rfl

variable {tools : Report.Illustrator} {text : List Char} {site : Span}

theorem annotate_eq (documented : Documented tools) (spot : Spot text site) (caption : String) :
    Report.annotate tools text site caption = Report.picture spot.line spot.column
      (max site.stop (site.start + 1) - site.start).toNat (Report.margin spot.row) caption := by
  have start : site.start.toNat = spot.before.flatten.length + spot.column := by
    have start := spot.start
    omega
  rw [Report.annotate, start, documented.locate spot.rows spot.inside]
  dsimp only
  rw [documented.lineAt spot.rows, documented.draw spot.inside]
  rfl

end Tools

section Pictures

variable {text : List Char} {site : Span}

/-- What a picture looks like: the row behind its number, and below it the carets, the first of them under
the character at which the site starts. -/
def Depicts (spot : Spot text site) (caption : String) (picture : String) : Prop :=
  ∃ (pad : Nat) (shown trailing blanks : List Char),
    let margin := List.replicate pad ' ' ++ Nat.toDigits 10 spot.row ++ [' ', '|']
    picture = String.ofList (margin ++ shown ++ '\n' :: (blanks ++ List.replicate spot.offsets.length '^' ++
      ' ' :: caption.toList)) ∧
    spot.line = shown ++ trailing ∧ (∀ c ∈ shown, ¬ IsBreak c) ∧ (∀ c ∈ trailing, isBlank c = true) ∧
    (∀ c ∈ blanks, c = ' ' ∨ c = '\t') ∧ blanks.length = margin.length + spot.column ∧
    (margin ++ spot.line)[blanks.length]? = text[site.start.toNat]?

theorem margin_eq (row : Nat) :
    Report.margin row =
      List.replicate (6 - (Nat.toDigits 10 row).length.succ + 1) ' ' ++ Nat.toDigits 10 row ++ [' ', '|'] := by
  rw [Report.margin, List.replicate_succ']
  simp

theorem blanked_blank (chars : List Char) : ∀ c ∈ Report.blanked chars, c = ' ' ∨ c = '\t' := by
  intro c member
  obtain ⟨original, -, rfl⟩ := List.mem_map.mp member
  split
  · exact .inr rfl
  · exact .inl rfl

theorem annotate_depicts {tools : Report.Illustrator} (documented : Documented tools) (spot : Spot text site)
    (filled : site.start < site.stop) (caption : String) :
    Depicts spot caption (Report.annotate tools text site caption) := by
  obtain ⟨trailing, split, blank⟩ := trimEnd_split spot.line
  have width : (Report.blanked (Report.margin spot.row ++ spot.line.take spot.column)).length =
      (Report.margin spot.row).length + spot.column := by
    rw [Report.blanked, List.length_map, List.length_append, List.length_take_of_le (Nat.le_of_lt spot.inside)]
  rw [margin_eq] at width
  refine ⟨_, _, trailing, _, ?_, split, spot.rows.trimmed (by simp), blank, blanked_blank _, width, ?_⟩
  · rw [← margin_eq, spot.length_offsets filled, annotate_eq documented spot, Report.picture]
    simp
  · rw [width, List.getElem?_append_right (Nat.le_add_right ..), Nat.add_sub_cancel_left, spot.character]

end Pictures

section Issues

variable {tools : Report.Illustrator} {text label : String} {failure : Failure}

theorem illustration_none (located : Located text failure) (absent : Absent failure.cause) :
    (Issue.ofFailure tools label text failure).illustration = none := by
  cases located with
  | nowhere cause site => simp [Issue.ofFailure, site]
  | behind cause site =>
    have invisible : Report.isVisible text.toList ⟨text.length, text.length⟩ = false := by
      rw [Report.isVisible, String.length_toList]
      exact decide_eq_false fun both => Int.lt_irrefl _ both.2
    simp [Issue.ofFailure, site, invisible]
  | inside cause => exact absurd absent cause

theorem illustration_visible {site : Span} (sited : failure.site = some site) (first : 0 ≤ site.start)
    (last : site.start < text.toList.length) : (Issue.ofFailure tools label text failure).illustration =
      some (Report.annotate tools text.toList site failure.kind.title) := by
  have visible : Report.isVisible text.toList site = true := decide_eq_true ⟨first, last⟩
  simp [Issue.ofFailure, sited, visible]

theorem illustration_depicts (documented : Documented tools) (located : Located text failure)
    (present : ¬ Absent failure.cause) :
    ∃ site, failure.site = some site ∧ ∃ (spot : Spot text.toList site) (picture : String),
      (Issue.ofFailure tools label text failure).illustration = some picture ∧
      Depicts spot failure.kind.title picture ∧ 0 < spot.offsets.length := by
  cases located with
  | nowhere cause => exact absurd (.inl cause) present
  | behind cause => exact absurd (.inr ⟨_, cause⟩) present
  | @inside start stop cause site first filled last =>
    have bound : start < text.toList.length := by
      rw [String.length_toList]
      omega
    obtain ⟨spot⟩ := @spot_found text.toList ⟨start, stop⟩ first bound
    exact ⟨_, site, spot, _, illustration_visible site first bound,
      annotate_depicts documented spot filled failure.kind.title, spot.offsets_pos filled⟩

/-- The picture, if there is one, stands below the label. -/
theorem text_eq (issue : Issue) :
    issue.text = "\n".intercalate ([issue.headline, ""] ++
      (issue.illustration.elim [] fun picture => [issue.label, picture]) ++ issue.hint.toList) := by
  unfold Issue.text
  cases issue.illustration <;> rfl

end Issues

/-- Every failure of a batch is reported as one issue. Where characters of the text are to blame, the issue
shows them under the label of the text. Otherwise it shows nothing and leaves the label out. -/
theorem failures_illustrated {tools : Report.Illustrator} (documented : Documented tools) {session : Session}
    (reached : session.Reachable) (host : Host) (text : String) {failure : Failure}
    (failed : (session.evaluate host text).1.outcome = .error (.failure failure)) (report : Report) (label : String) :
    ∃ issue, (report.add tools label text failure).issues = report.issues ++ [issue] ∧
      (Absent failure.cause → issue.illustration = none ∧
        issue.text = "\n".intercalate ([failure.text, ""] ++ (failure.hint.filter (· ≠ "")).toList)) ∧
      (¬ Absent failure.cause → ∃ site, failure.site = some site ∧ ∃ (spot : Spot text.toList site) (picture : String),
        issue.illustration = some picture ∧ Depicts spot failure.kind.title picture ∧ 0 < spot.offsets.length ∧
        issue.text = "\n".intercalate ([failure.text, "", label, picture] ++ (failure.hint.filter (· ≠ "")).toList)) := by
  have located := failure_located reached failed
  refine ⟨.ofFailure tools label text failure, rfl, fun absent => ?_, fun present => ?_⟩
  · have none := @illustration_none tools _ label _ located absent
    refine ⟨none, ?_⟩
    rw [text_eq, none]
    rfl
  · obtain ⟨site, sited, spot, picture, some, depicts, carets⟩ := @illustration_depicts _ _ label _ documented located present
    refine ⟨site, sited, spot, picture, some, depicts, carets, ?_⟩
    rw [text_eq, some]
    rfl

/-- The call of the text below. -/
def crowdedSine : Expr :=
  .call (.symbol ⟨.name, "sin", none, 2, ⟨6, 9⟩⟩)
    [.literal ⟨.number, "1", Token.literalOf .number ['1'], 2, ⟨10, 11⟩⟩,
      .literal ⟨.number, "2", Token.literalOf .number ['2'], 3, ⟨15, 16⟩⟩]
    ⟨.mark .closing, ")", none, 3, ⟨16, 17⟩⟩

def crowdedText : String := "// 2\r\nsin(1,\n  2)"

def crowdedFailure : Failure := ⟨.arity 1 2, some ⟨6, 17⟩, none⟩

theorem evaluate_crowded :
    (Session.start.evaluate { renderer := none } crowdedText).1.outcome = .error (.failure crowdedFailure) := by
  have read : Grammar.ofText depthLimit crowdedText.toList = .ok [.expression crowdedSine] := rfl
  have run : interpret none depthLimit [.expression crowdedSine] Session.start.machine =
    (.error (.failed crowdedFailure), Session.start.machine) := rfl
  have ended : Session.start.evaluate { renderer := none } crowdedText = _ := evaluate_read read run
  rw [ended]
  rfl

-- The call goes on in the next row, where its last carets would stand.
theorem failures_illustrated_crowded :
    Documented .usual ∧ Session.start.Reachable ∧
    (Session.start.evaluate { renderer := none } crowdedText).1.outcome = .error (.failure crowdedFailure) ∧
    ¬ Absent crowdedFailure.cause ∧
    (Issue.ofFailure .usual "sums" crowdedText crowdedFailure).text =
      "Arity error: This takes 1 argument, but got 2 instead.\n\nsums\n     2 |sin(1,\n        ^^^^^^^ Arity error" ∧
    ∃ (spot : Spot crowdedText.toList ⟨6, 17⟩) (picture : String),
      Depicts spot "Arity error" picture ∧ 0 < spot.offsets.length := by
  have present : ¬ Absent crowdedFailure.cause := by simp [Absent, crowdedFailure]
  obtain ⟨issue, added, -, shown⟩ :=
    failures_illustrated usual_documented .start { renderer := none } crowdedText evaluate_crowded (.start false 3) "sums"
  obtain ⟨site, sited, spot, picture, some, depicts, carets, -⟩ := shown present
  cases sited
  exact ⟨usual_documented, .start, evaluate_crowded, present, by decide, spot, picture, depicts, carets⟩

end Reckoner.Proofs.IssueIllustration
