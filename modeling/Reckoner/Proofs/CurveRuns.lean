import Reckoner.Proofs.WindowTrace

/-! Cutting a curve where it has no height. The runs hold all points with finite ordinates,
each run lies in the curve as it is, and only points without a finite ordinate lie between
two runs, at least one of them. No other division of the points is like that. -/

namespace Reckoner.Proofs.CurveRuns
open Curve WindowTrace Float.Model

section Weaving

variable {α : Type}

/-- Runs, each with the points behind it. -/
def woven (runs gaps : List (List α)) : List α := (List.zipWith (· ++ ·) runs gaps).flatten

@[simp] theorem woven_nil : woven ([] : List (List α)) [] = [] := rfl

@[simp] theorem woven_cons (run gap : List α) (runs gaps : List (List α)) :
    woven (run :: runs) (gap :: gaps) = run ++ (gap ++ woven runs gaps) := by
  simp [woven]

end Weaving

section Blocks

variable {α : Type} [Coordinate α] {points front back run : List (Point α)} {blocks runs gaps : List (List (Point α))}

/-- The points that stand in front of the runs, and behind each of them. -/
structure Gaps (points : List (Point α)) (runs : List (List (Point α))) (front : List (Point α))
    (gaps : List (List (Point α))) : Prop where
  whole : points = front ++ woven runs gaps
  paired : gaps.length = runs.length
  first : ∀ point ∈ front, ¬ Finite point
  behind : ∀ gap ∈ gaps, ∀ point ∈ gap, ¬ Finite point
  between : ∀ gap ∈ gaps.dropLast, gap ≠ []

theorem blocks_infix (split : Blocks points blocks) : ∀ block ∈ blocks, block <:+: points := by
  induction split with
  | gap => simp
  | block missing filled finite maximal further ih =>
    intro block member
    rcases List.mem_cons.mp member with rfl | later
    · exact (List.prefix_append _ _).isInfix.trans (List.suffix_append _ _).isInfix
    · exact (ih block later).trans ((List.suffix_append _ _).trans (List.suffix_append _ _)).isInfix

/-- A block begins with the first of the points behind a gap, so the gap cannot be empty
where another block follows. -/
theorem Gaps.filled (divides : Gaps points (run :: runs) front gaps) (begun : run ≠ [])
    (finite : ∀ point ∈ run, Finite point) (maximal : ∀ point ∈ points.head?, ¬ Finite point) : front ≠ [] := by
  rintro rfl
  cases gaps with
  | nil => cases divides.paired
  | cons gap gaps =>
    obtain ⟨point, rest, rfl⟩ := List.exists_cons_of_ne_nil begun
    refine maximal point ?_ (finite point List.mem_cons_self)
    rw [divides.whole]
    simp

theorem blocks_gaps (split : Blocks points blocks) : ∃ front gaps, Gaps points blocks front gaps := by
  induction split with
  | @gap gap missing => exact ⟨gap, [], by simp, rfl, missing, by simp, by simp⟩
  | @block gap block rest blocks missing filled finite maximal further ih =>
    obtain ⟨front, gaps, divides⟩ := ih
    refine ⟨gap, front :: gaps, ?_, by simp [divides.paired], missing, ?_, ?_⟩
    · rw [woven_cons, ← divides.whole]
    · simpa using ⟨divides.first, divides.behind⟩
    · cases further with
      | gap =>
        obtain rfl : gaps = [] := List.length_eq_zero_iff.mp divides.paired
        simp
      | block _ begun high _ _ =>
        have apart : front ≠ [] := divides.filled begun high maximal
        have several : gaps ≠ [] := by
          rintro rfl
          cases divides.paired
        rw [List.dropLast_cons_of_ne_nil several]
        simpa [apart] using divides.between

theorem gaps_blocks (divides : Gaps points runs front gaps) (filled : ∀ run ∈ runs, run ≠ [])
    (finite : ∀ run ∈ runs, ∀ point ∈ run, Finite point) : Blocks points runs := by
  obtain ⟨rfl, paired, first, behind, between⟩ := divides
  induction runs generalizing front gaps with
  | nil =>
    obtain rfl : gaps = [] := List.length_eq_zero_iff.mp paired
    rw [woven_nil, List.append_nil]
    exact .gap first
  | cons run runs ih =>
    cases gaps with
    | nil => cases paired
    | cons gap gaps =>
      rw [List.forall_mem_cons] at filled finite behind
      have fewer : gaps.length = runs.length := Nat.succ.inj paired
      rw [woven_cons]
      by_cases last : gaps = []
      · subst last
        obtain rfl : runs = [] := List.length_eq_zero_iff.mp fewer.symm
        rw [woven_nil, List.append_nil]
        exact .block first filled.1 finite.1 (fun point head => behind.1 point (List.mem_of_head? head)) (.gap behind.1)
      · rw [List.dropLast_cons_of_ne_nil last, List.forall_mem_cons] at between
        obtain ⟨point, rest, rfl⟩ := List.exists_cons_of_ne_nil between.1
        have maximal : ∀ other ∈ (point :: rest ++ woven runs gaps).head?, ¬ Finite other := by
          simpa using behind.1 point List.mem_cons_self
        exact .block first filled.1 finite.1 maximal (ih filled.2 finite.2 fewer behind.1 behind.2 between.2)

theorem runsFrom_gap (missing : ∀ point ∈ front, ¬ Finite point) : runsFrom [] (front ++ back) = runsFrom [] back := by
  induction front with
  | nil => rfl
  | cons point front ih =>
    rw [List.forall_mem_cons] at missing
    rw [List.cons_append, runsFrom_missing missing.1, ← ih missing.2]
    rfl

theorem runsFrom_run (finite : ∀ point ∈ front, Finite point) :
    runsFrom run (front ++ back) = runsFrom (run ++ front) back := by
  induction front generalizing run with
  | nil => simp
  | cons point front ih =>
    rw [List.forall_mem_cons] at finite
    rw [List.cons_append, runsFrom_finite finite.1, ih finite.2, List.append_assoc]
    rfl

/-- A run that has begun ends before the first point without a finite ordinate. -/
theorem runsFrom_ended (begun : run ≠ []) (maximal : ∀ point ∈ back.head?, ¬ Finite point) :
    runsFrom run back = run :: runsFrom [] back := by
  have pending : ¬ run.isEmpty := by simpa using begun
  cases back with
  | nil => exact if_neg pending
  | cons point back =>
    have missing : ¬ Finite point := maximal point rfl
    rw [runsFrom_missing missing, runsFrom_missing missing, if_neg pending]
    rfl

/-- There is but one way to cut points into blocks. -/
theorem blocks_unique (split : Blocks points blocks) : blocks = finiteRuns points := by
  induction split with
  | @gap gap missing =>
    rw [finiteRuns, ← List.append_nil gap, runsFrom_gap missing]
    rfl
  | block missing filled finite maximal further ih =>
    rw [finiteRuns, runsFrom_gap missing, runsFrom_run finite, List.nil_append, runsFrom_ended filled maximal, ih]
    rfl

end Blocks

section Doubles

variable {points : List (Point Float)} {runs : List (List (Point Float))}

/-- What is not finite is NaN or infinite. -/
theorem missing_iff (point : Point Float) : ¬ Finite point ↔ point.y.isNaN ∨ point.y.isInf := by
  change ¬ point.y.toModel.unpack.isFinite ↔ point.y.toModel.unpack.isNaN ∨ point.y.toModel.unpack.isInf
  cases point.y.toModel.unpack with
  | notANumber => exact iff_of_true Bool.false_ne_true (.inl rfl)
  | infinity => exact iff_of_true Bool.false_ne_true (.inr rfl)
  | zero | finite => exact iff_of_false (not_not_intro rfl) nofun

/-- A loss-free division of points into runs of points with finite ordinates. In front of the
runs, and behind each of them, stand points whose ordinates are NaN or infinite. Only in front
of the first run and behind the last one there may be none. -/
structure Divided (points : List (Point Float)) (runs : List (List (Point Float))) : Prop where
  lossless : runs.flatten = points.filter (·.y.isFinite)
  filled : ∀ run ∈ runs, run ≠ []
  contiguous : ∀ run ∈ runs, run <:+: points
  maximal : ∃ front gaps, points = front ++ woven runs gaps ∧ gaps.length = runs.length ∧
    (∀ gap ∈ front :: gaps, ∀ point ∈ gap, point.y.isNaN ∨ point.y.isInf) ∧ ∀ gap ∈ gaps.dropLast, gap ≠ []

theorem Divided.unique (divided : Divided points runs) : runs = finiteRuns points := by
  obtain ⟨lossless, filled, -, front, gaps, whole, paired, missing, between⟩ := divided
  simp only [← missing_iff, List.forall_mem_cons] at missing
  have finite : ∀ run ∈ runs, ∀ point ∈ run, Finite point := by
    intro run member point inside
    have kept : point ∈ runs.flatten := List.mem_flatten_of_mem member inside
    rw [lossless] at kept
    exact (List.mem_filter.mp kept).2
  exact blocks_unique (gaps_blocks ⟨whole, paired, missing.1, missing.2, between⟩ filled finite)

end Doubles

/-- The runs of a curve divide its points without loss, and there is no other such division. -/
theorem finiteRuns_divided (points : List (Point Float)) :
    Divided points (finiteRuns points) ∧ ∀ runs, Divided points runs → runs = finiteRuns points := by
  have split := finiteRuns_blocks points
  obtain ⟨front, gaps, divides⟩ := blocks_gaps split
  refine ⟨⟨blocks_flatten split, blocks_filled split, blocks_infix split, front, gaps, divides.whole, divides.paired, ?_,
    divides.between⟩, fun runs => Divided.unique⟩
  simp only [← missing_iff, List.forall_mem_cons]
  exact ⟨divides.first, divides.behind⟩

end Reckoner.Proofs.CurveRuns
