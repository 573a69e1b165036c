import Reckoner.Proofs.IssueIllustration
import Reckoner.Proofs.StrayCharacters

/-! The two numbers told with a stray character. The message counts the line feeds before
it, and the picture the rows above it, which may end at a carriage return as well. So the
numbers agree just where a line feed follows every carriage return before the character. -/

namespace Reckoner.Proofs.LineNumbers
open Text Token TokenLexemes StrayCharacters IssueIllustration

/-- How many carriage returns stand alone, that is, without a line feed right behind them. -/
def loneReturns : List Char → Nat
  | [] => 0
  | c :: rest => (if c = '\r' ∧ rest.head? ≠ some '\n' then 1 else 0) + loneReturns rest

section Breaks

variable {text row content ending rest : List Char} {rows before behind : List (List Char)} {column index : Nat} {c : Char}

/-- All breaks: the line feeds, also those behind a carriage return, and the lone returns. -/
def breaks (chars : List Char) : Nat := lineFeeds chars + loneReturns chars

theorem breaks_plain (plain : ∀ c ∈ content, ¬ IsBreak c) : breaks (content ++ rest) = breaks rest := by
  induction content with
  | nil => rfl
  | cons c content ih =>
    rw [List.forall_mem_cons] at plain
    obtain ⟨apart, others⟩ := plain
    rw [← ih others]
    simp only [IsBreak, not_or] at apart
    simp [breaks, loneReturns, lineFeeds, apart]

theorem breaks_ending
    (ends : ending = ['\r', '\n'] ∨ ending = ['\n'] ∨ ending = ['\r'] ∧ rest.head? ≠ some '\n') :
    breaks (ending ++ rest) = breaks rest + 1 := by
  rcases ends with rfl | rfl | ⟨rfl, alone⟩
  · simp [breaks, loneReturns, lineFeeds]
    omega
  · simp [breaks, loneReturns, lineFeeds]
    omega
  · simp [breaks, loneReturns, lineFeeds, alone]
    omega

/-- In front of a character that breaks no line, a row has no break. -/
theorem plain_before (splits : Splits text rows) (member : row ∈ rows) (found : row[column]? = some c)
    (within : ¬ IsBreak c) : ∀ d ∈ row.take column, ¬ IsBreak d := by
  obtain ⟨content, ending, rfl, plain, broken⟩ := splits.ending member
  have inside : column < content.length := by
    by_contra beyond
    rw [List.getElem?_append_right (Nat.le_of_not_lt beyond)] at found
    exact within (broken c (List.mem_of_getElem? found))
  rw [List.take_append_of_le_length (Nat.le_of_lt inside)]
  exact fun d early => plain d (List.mem_of_mem_take early)

/-- The rows above a place are as many as the breaks before it. -/
theorem breaks_above (splits : Splits text (before ++ row :: behind)) (fits : column ≤ row.length)
    (plain : ∀ d ∈ row.take column, ¬ IsBreak d) :
    breaks (text.take (before.flatten.length + column)) = before.length := by
  induction before generalizing text with
  | nil =>
    have front : text.take column = row.take column := by
      rw [← splits.flatten, List.nil_append, List.flatten_cons, List.take_append_of_le_length fits]
    rw [List.flatten_nil, List.length_nil, Nat.zero_add, front, ← List.append_nil (row.take column), breaks_plain plain]
    rfl
  | cons first before ih =>
    generalize same : first :: before ++ row :: behind = rows at splits
    cases splits with
    | last => simp at same
    | @row content ending rest rows clean ends further =>
      obtain ⟨rfl, rfl⟩ := List.cons.inj same
      have ended : ending = ['\r', '\n'] ∨ ending = ['\n'] ∨
          ending = ['\r'] ∧ (rest.take (before.flatten.length + column)).head? ≠ some '\n' := by
        refine ends.imp_right (Or.imp_right (And.imp_right fun alone => ?_))
        rw [List.head?_take]
        split
        · simp
        · exact alone
      rw [List.flatten_cons, List.length_append, Nat.add_assoc, List.take_length_add_append, List.append_assoc,
        breaks_plain clean, breaks_ending ended, ih further, List.length_cons]

/-- Rows count from one, and with every break a new one begins. -/
theorem row_eq {stop : Int} (spot : Spot text ⟨index, stop⟩) (found : text[index]? = some c) (within : ¬ IsBreak c) :
    spot.row = 1 + breaks (text.take index) := by
  have start : spot.before.flatten.length + spot.column = index := Int.ofNat_inj.mp spot.start
  have here : spot.line[spot.column]? = some c := by
    rw [spot.character]
    exact found
  have member : spot.line ∈ spot.before ++ spot.line :: spot.behind := List.mem_append_right _ List.mem_cons_self
  have above := breaks_above spot.rows (Nat.le_of_lt spot.inside) (plain_before spot.rows member here within)
  rw [start] at above
  rw [Spot.row, above, Nat.add_comm]

theorem loneReturns_eq_zero {chars : List Char} :
    loneReturns chars = 0 ↔ ∀ index : Nat, chars[index]? = some '\r' → chars[index + 1]? = some '\n' := by
  induction chars with
  | nil => simp [loneReturns]
  | cons c rest ih =>
    rw [← Nat.and_forall_add_one, loneReturns, Nat.add_eq_zero_iff, ih]
    refine and_congr ?_ Iff.rfl
    simp [List.head?_eq_getElem?]

/-- Whether a lone return stands before a character can be seen in the whole text. -/
theorem loneReturns_take (found : text[index]? = some c) (within : ¬ IsBreak c) :
    loneReturns (text.take index) = 0 ↔
      ∀ earlier < index, text[earlier]? = some '\r' → text[earlier + 1]? = some '\n' := by
  rw [loneReturns_eq_zero]
  refine forall_congr' fun earlier => ?_
  by_cases before : earlier < index
  · rw [List.getElem?_take_of_lt before, forall_prop_of_true before]
    refine imp_congr_right fun _ => ?_
    by_cases next : earlier + 1 < index
    · rw [List.getElem?_take_of_lt next]
    · -- The character itself comes next, and it is no line feed.
      obtain rfl : earlier + 1 = index := by omega
      rw [List.getElem?_take_eq_none (Nat.le_refl _), found]
      simp only [reduceCtorEq, Option.some.injEq, false_iff]
      exact fun feed => within (.inr feed)
  · rw [List.getElem?_take_eq_none (Nat.le_of_not_lt before)]
    exact iff_of_true nofun fun within => absurd within before

end Breaks

section Numbers

/-- The line that a complaint about an unexpected character names, and the row that the picture in its
issue shows. -/
structure Numbered (tools : Report.Illustrator) (report : Report) (label text : String) (failure : Failure)
    (line row : Nat) : Prop where
  message : ∃ c : Char, failure.message = "Unexpected character " ++ quoted (String.singleton c) ++ " on line " ++
    toString line ++ "."
  picture : ∃ issue shown, (report.add tools label text failure).issues = report.issues ++ [issue] ∧
    issue.headline = failure.text ∧ issue.illustration = some (String.ofList (Report.margin row ++ shown))

theorem illustration_margin {tools : Report.Illustrator} (documented : Documented tools) {label text : String}
    {failure : Failure} {site : Span} (sited : failure.site = some site) (spot : Spot text.toList site)
    (first : 0 ≤ site.start) (last : site.start < text.toList.length) :
    ∃ shown, (Issue.ofFailure tools label text failure).illustration =
      some (String.ofList (Report.margin spot.row ++ shown)) := by
  rw [illustration_visible sited first last, annotate_eq documented spot, Report.picture]
  simp only [List.append_assoc]
  exact ⟨_, rfl⟩

theorem stray_not_isBreak {text : List Char} {index : Nat} {c : Char} (stray : StrayAt text index c) : ¬ IsBreak c := by
  intro broken
  have expected : isExpected c = true := by rcases broken with rfl | rfl <;> rfl
  rw [stray.unexpected] at expected
  cases expected

/-- The row that is shown for an unexpected character exceeds the line that the message names by the carriage
returns that stand alone before it. -/
theorem rows_exceed_lines {tools : Report.Illustrator} (documented : Documented tools) (report : Report)
    (label text : String) {failure : Failure} (scanned : scan text.toList = .error failure) :
    ∃ (index line row : Nat), failure.site = some ⟨index, (index + 1 : Nat)⟩ ∧
      Numbered tools report label text failure line row ∧
      line = 1 + lineFeeds (text.toList.take index) ∧
      row = line + loneReturns (text.toList.take index) ∧
      (row = line ↔ ∀ earlier < index, text.toList[earlier]? = some '\r' → text.toList[earlier + 1]? = some '\n') := by
  have settles := scan_settles text.toList
  rw [scanned] at settles
  obtain ⟨index, c, tells⟩ := settles
  have found := tells.stray.found
  have within := stray_not_isBreak tells.stray
  obtain ⟨inside, -⟩ := List.getElem?_eq_some_iff.mp found
  have first : (0 : Int) ≤ index := Int.natCast_nonneg _
  have last : (index : Int) < text.toList.length := Int.ofNat_lt.mpr inside
  obtain ⟨spot⟩ := @spot_found text.toList ⟨index, (index + 1 : Nat)⟩ first last
  obtain ⟨shown, pictured⟩ := @illustration_margin _ documented label _ _ _ tells.site spot first last
  have row : spot.row = 1 + lineFeeds (text.toList.take index) + loneReturns (text.toList.take index) := by
    rw [row_eq spot found within, breaks, Nat.add_assoc]
  refine ⟨index, 1 + lineFeeds (text.toList.take index), spot.row, tells.site, ?_, rfl, row, ?_⟩
  · exact ⟨⟨c, tells.message⟩, .ofFailure tools label text failure, shown, rfl, rfl, pictured⟩
  · rw [row, Nat.add_eq_left]
    exact loneReturns_take found within

-- The first line ends with a carriage return and a line feed, the second one with a carriage return alone.
theorem rows_exceed_lines_below_return : Documented .usual ∧
    ∃ failure, scan "a = 1\r\nb = 2\rc = $".toList = .error failure ∧
    ∃ (index line row : Nat), failure.site = some ⟨index, (index + 1 : Nat)⟩ ∧
      Numbered .usual (.start false 3) "sample" "a = 1\r\nb = 2\rc = $" failure line row ∧
      line = 1 + lineFeeds ("a = 1\r\nb = 2\rc = $".toList.take index) ∧
      row = line + loneReturns ("a = 1\r\nb = 2\rc = $".toList.take index) ∧
      (row = line ↔ ∀ earlier < index, "a = 1\r\nb = 2\rc = $".toList[earlier]? = some '\r' →
        "a = 1\r\nb = 2\rc = $".toList[earlier + 1]? = some '\n') :=
  ⟨usual_documented, _, rfl, rows_exceed_lines usual_documented (.start false 3) "sample" _ rfl⟩

/-- Behind a carriage return that stands alone the message names the line above the row that is shown. -/
theorem rows_not_lines : ¬ ∀ tools, Documented tools →
    ∀ (report : Report) (label text : String) (failure : Failure) (line row : Nat),
      scan text.toList = .error failure → Numbered tools report label text failure line row → line = row := by
  intro agree
  have numbered : Numbered .usual (.start false 3) "sample" "a = 1\rb = $"
      ⟨.strayCharacter '$' 1, some ⟨10, 11⟩, none⟩ 1 2 :=
    ⟨⟨'$', rfl⟩, ⟨_, "b = $\n            ^ Lexical error".toList, rfl, rfl, by decide +kernel⟩⟩
  exact absurd (agree _ usual_documented _ _ _ _ _ _ rfl numbered) (by decide)

end Numbers

end Reckoner.Proofs.LineNumbers
