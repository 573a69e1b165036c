import Reckoner.Proofs.ChartDrawing
import Reckoner.Proofs.SessionSafety

/-! Sessions that draw their plots as charts of characters. A batch ends with a value or a
failure of its program, unless the chart of one of its plots has a window without a height
that doubles can hold. Such windows exist: the ordinates may be so large that widening them
by one is lost. -/

namespace Reckoner.Proofs.ChartBoundary
open DoubleValues EvaluationSafety SessionSafety ChartPlaces ChartDrawing

variable {size : Chart.Size} {points : List (Point Float)}

theorem renderer_error {fault : Fault} :
    Chart.renderer size points = .error fault ↔ Chart.draw points size = .error fault := by
  rw [Chart.renderer]
  cases Chart.draw points size with
  | ok lines => exact ⟨nofun, nofun⟩
  | error other => exact ⟨fun same => by cases same; rfl, fun same => by cases same; rfl⟩

/-- What becomes of the chart of a plot: its window is found, and the height of that window
decides. -/
structure Placed (size : Chart.Size) (points : List (Point Float)) : Prop where
  sampled : Sampled points
  window : ∃ view, Viewport.ofPoints points = .ok view ∧ Charted view (Chart.draw points size)
  moderate : (∀ point ∈ points, point.y.isFinite → |value point.y| < 2 ^ 53) →
    ∃ lines, Chart.draw points size = .ok lines

theorem sampled_placed (modest : Modest size) (sampled : Sampled points) : Placed size points := by
  obtain ⟨view, framed, frames⟩ := ofPoints_frames sampled
  have charted := draw_charted sampled modest framed frames
  exact ⟨sampled, ⟨view, framed, charted⟩, fun small => draw_moderate frames small charted⟩

section Runs

variable {result : Except Stop Value} {events : List Event}

theorem traced_sampled {renderer : Option Renderer} (traced : Traced renderer result events)
    (member : .plotted points ∈ events) : Sampled points := by
  cases traced with
  | calm _ drawn => exact (drawn points member).1
  | broken drawn breaks =>
    rcases List.mem_append.mp member with early | last
    · exact (drawn points early).1
    · cases List.mem_singleton.mp last
      exact breaks.1

theorem shown_chart {drawn : Except Fault Unit} (shown : Shown (some (Chart.renderer size)) points drawn) :
    Chart.renderer size points = drawn := by
  obtain ⟨-, draw, same, result⟩ := shown
  cases same
  exact result

/-- A run breaks with the fault of a chart, and then that chart is the last thing it tried. -/
theorem traced_broken_iff (traced : Traced (some (Chart.renderer size)) result events) (fault : Fault) :
    result = .error (.broken fault) ↔ ∃ points, .plotted points ∈ events ∧ Chart.draw points size = .error fault := by
  cases traced with
  | calm unbroken drawn =>
    constructor
    · exact fun broken => absurd broken (unbroken fault)
    · intro ⟨points, member, missing⟩
      cases (shown_chart (drawn points member)).symm.trans (renderer_error.mpr missing)
  | @broken earlier last other drawn breaks =>
    have missing := shown_chart breaks
    constructor
    · intro same
      cases same
      exact ⟨last, by simp, renderer_error.mp missing⟩
    · intro ⟨points, member, missing'⟩
      have missing' := renderer_error.mpr missing'
      rcases List.mem_append.mp member with early | final
      · cases (shown_chart (drawn points early)).symm.trans missing'
      · cases List.mem_singleton.mp final
        cases missing.symm.trans missing'
        rfl

end Runs

/-- How a batch ends that draws its plots as charts. -/
structure Bounded (size : Chart.Size) (result : Result) : Prop where
  outcome : (∃ value, result.outcome = .ok value) ∨
    (∃ failure, result.outcome = .error (.failure failure) ∧
      failure.kind ∈ [.lexical, .parse, .type, .arity, .depth]) ∨
    ∃ fault, result.outcome = .error (.fault fault)
  broken : ∀ fault, result.outcome = .error (.fault fault) ↔
    ∃ points, .plotted points ∈ result.events ∧ Chart.draw points size = .error fault
  plots : ∀ points, .plotted points ∈ result.events → Placed size points

theorem course_bounded {host : Host} {session after : Session} {text : String} {result : Result} (modest : Modest size)
    (drawing : host.renderer = some (Chart.renderer size)) (course : Course host session text (result, after)) :
    Bounded size result := by
  constructor
  · cases ended : result.outcome with
    | ok value => exact .inl ⟨value, rfl⟩
    | error trouble =>
      cases trouble with
      | failure failure => exact .inr (.inl ⟨failure, rfl, course.kind ended⟩)
      | fault fault => exact .inr (.inr ⟨fault, rfl⟩)
  · intro fault
    cases course with
    | stray | refused | steep => exact ⟨nofun, fun ⟨points, member, _⟩ => absurd member List.not_mem_nil⟩
    | run scanned read traced kinds =>
      rw [drawing] at traced
      exact (told_fault fault).trans (traced_broken_iff traced fault)
  · intro points member
    cases course with
    | stray | refused | steep => exact absurd member List.not_mem_nil
    | run scanned read traced kinds => exact sampled_placed modest (traced_sampled traced member)

/-- A host that draws plots as charts of characters. -/
def terminal (size : Chart.Size) (depth : Nat) : Host := ⟨some (Chart.renderer size), depth⟩

/-- With charts as its plots, a batch of any session that texts can lead to ends with a
value or with a failure of its program, unless the chart of a plot cannot be drawn. That
happens only if the height of its window is lost or overflows, and never where all finite
ordinates are within the range of exact whole numbers. -/
theorem charts_bounded {session : Session} (reached : session.Reachable) (modest : Modest size) (depth : Nat)
    (text : String) : Bounded size (session.evaluate (terminal size depth) text).1 :=
  course_bounded modest rfl (evaluate_course reached (terminal size depth) text)

/-- A session with a function whose level is not changed by widening. -/
def level : Session := (Session.start.evaluate (terminal .usual depthLimit) "f(x) = 100000000000000000").2

theorem level_reached : level.Reachable := .evaluate .start _ _

theorem usual_modest : Modest .usual := by constructor <;> decide

instance (result : Result) (fault : Fault) : Decidable (result.outcome = .error (.fault fault)) :=
  match result with
  | ⟨.ok _, _⟩ => isFalse nofun
  | ⟨.error (.failure _), _⟩ => isFalse nofun
  | ⟨.error (.fault other), _⟩ => decidable_of_iff (other = fault) ⟨fun same => by rw [same], fun same => by cases same; rfl⟩

theorem level_outcome :
    (level.evaluate (terminal .usual depthLimit) "plot(f)").1.outcome = .error (.fault .divisionByZero) := by
  decide +kernel

theorem charts_bounded_level :
    level.Reachable ∧ Modest .usual ∧ Bounded .usual (level.evaluate (terminal .usual depthLimit) "plot(f)").1 ∧
      ∃ points, .plotted points ∈ (level.evaluate (terminal .usual depthLimit) "plot(f)").1.events ∧
        Chart.draw points .usual = .error .divisionByZero := by
  have bounded := charts_bounded level_reached usual_modest depthLimit "plot(f)"
  exact ⟨level_reached, usual_modest, bounded, (bounded.broken .divisionByZero).mp level_outcome⟩

/-- Not every batch of such a session ends with a value or a failure. -/
theorem charts_not_contained : ¬∀ session : Session, session.Reachable → ∀ size, Modest size → ∀ text,
    (∃ value, (session.evaluate (terminal size depthLimit) text).1.outcome = .ok value) ∨
      ∃ failure, (session.evaluate (terminal size depthLimit) text).1.outcome = .error (.failure failure) := by
  intro contained
  have outcome := level_outcome
  rcases contained level level_reached .usual usual_modest "plot(f)" with ⟨value, same⟩ | ⟨failure, same⟩
  · rw [same] at outcome
    cases outcome
  · rw [same] at outcome
    cases outcome

end Reckoner.Proofs.ChartBoundary
