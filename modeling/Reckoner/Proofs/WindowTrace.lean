import Reckoner.Proofs.Computations
import Reckoner.Screen

/-! What a drawing asks of the window system, call by call. A window that was opened is
closed again, and closing it is the last call, however the drawing ends. If it ends well,
the calls between tell the whole story: the axes, every block of points with finite
ordinates, and the wait for the signal that dismisses the window. -/

namespace Reckoner

namespace Curve

variable {α : Type} [Coordinate α]

def Finite (point : Point α) : Prop := Coordinate.isFinite point.y = true

/-- Points and their maximal blocks of points with finite ordinates. Between two blocks, and
in front of the first and behind the last, stand points whose ordinates are not finite. -/
inductive Blocks : List (Point α) → List (List (Point α)) → Prop
  | gap {gap : List (Point α)} (missing : ∀ point ∈ gap, ¬ Finite point) : Blocks gap []
  | block {gap block rest : List (Point α)} {blocks : List (List (Point α))}
      (missing : ∀ point ∈ gap, ¬ Finite point) (filled : block ≠ []) (finite : ∀ point ∈ block, Finite point)
      (maximal : ∀ point ∈ rest.head?, ¬ Finite point) (further : Blocks rest blocks) :
    Blocks (gap ++ (block ++ rest)) (block :: blocks)

end Curve

namespace Screen

/-- The calls that open a window. -/
def opening (settings : Settings) : List Call :=
  [.init, .setMode settings.width settings.height, .setCaption "Matika: plot", .fill background]

def Call.center? : Call → Option Pixel
  | .circle _ center _ => some center
  | _ => none

/-- Calls that draw something. -/
inductive Call.Draws : Call → Prop
  | line {color : Color} {start stop : Pixel} : Draws (.line color start stop)
  | lines {color : Color} {pixels : List Pixel} {thickness : Nat} : Draws (.lines color pixels thickness)
  | circle {color : Color} {center : Pixel} {radius : Nat} : Draws (.circle color center radius)

/-- Where a point is shown. -/
def Lands (settings : Settings) (view : Viewport Float) (point : Point Float) (place : Pixel) : Prop :=
  pixel settings view point.x point.y = .ok place

def dots (pixels : List Pixel) : List Call := pixels.map (Call.circle curveColor · 3)

/-- Blocks of points and the calls that draw them: a dot on every point, and in front of the
dots of a block of two or more a polyline through all of them. -/
inductive Outlines (settings : Settings) (view : Viewport Float) : List (List (Point Float)) → List Call → Prop
  | none : Outlines settings view [] []
  | lone {point : Point Float} {place : Pixel} {blocks : List (List (Point Float))} {calls : List Call}
      (lands : Lands settings view point place) (further : Outlines settings view blocks calls) :
    Outlines settings view ([point] :: blocks) (dots [place] ++ calls)
  | several {block : List (Point Float)} {pixels : List Pixel} {blocks : List (List (Point Float))} {calls : List Call}
      (several : 2 ≤ block.length) (lands : List.Forall₂ (Lands settings view) block pixels)
      (further : Outlines settings view blocks calls) :
    Outlines settings view (block :: blocks) (.lines curveColor pixels 2 :: (dots pixels ++ calls))

/-- The lines of the axes: at most one across the window, and then at most one down. -/
inductive Crosses (settings : Settings) (view : Viewport Float) : List Call → Prop
  | axes {across down : List Call}
      (horizontal : if view.containsY 0 then ∃ left right, across = [.line axisColor left right] ∧
          pixel settings view view.xMin 0 = .ok left ∧ pixel settings view view.xMax 0 = .ok right
        else across = [])
      (vertical : if view.containsX 0 then ∃ bottom top, down = [.line axisColor bottom top] ∧
          pixel settings view 0 view.yMin = .ok bottom ∧ pixel settings view 0 view.yMax = .ok top
        else down = []) :
    Crosses settings view (across ++ down)

def Dismissed (signals : List Signal) : Prop := ∃ signal ∈ signals, signal ∈ [.quit, .keyDown, .mouseUp]

/-- The calls of a wait and the signals it leaves over. Batches of signals are fetched up to
the first one that dismisses the window, with a tick between one and the next. If the script
has none, it is fetched to its end, and what is fetched next is the closing batch. -/
inductive Waits (fps : Int) (script : Script) : List Call → Script → Prop
  | dismissed {ignored left : Script} {final : List Signal} (split : script = ignored ++ final :: left)
      (waiting : ∀ signals ∈ ignored, ¬ Dismissed signals) (last : Dismissed final) :
    Waits fps script (ignored.flatMap (fun signals => [.get signals, .tick fps]) ++ [.get final]) left
  | closed (waiting : ∀ signals ∈ script, ¬ Dismissed signals) :
    Waits fps script (script.flatMap (fun signals => [.get signals, .tick fps]) ++ [.get closing]) []

/-- A window that was opened once and closed once, in the end. -/
structure Enclosed (settings : Settings) (calls : List Call) : Prop where
  opens : opening settings <+: calls
  once : calls.count .init = 1
  closed : calls.count .quit = 1
  last : calls.getLast? = some .quit

/-- Every position that the drawing asks for can be computed. -/
structure Placeable (settings : Settings) (view : Viewport Float) (points : List (Point Float)) : Prop where
  horizontal : view.containsY 0 → (∃ place, pixel settings view view.xMin 0 = .ok place) ∧
    ∃ place, pixel settings view view.xMax 0 = .ok place
  vertical : view.containsX 0 → (∃ place, pixel settings view 0 view.yMin = .ok place) ∧
    ∃ place, pixel settings view 0 view.yMax = .ok place
  points : ∀ point ∈ points, point.y.isFinite → ∃ place, Lands settings view point place

/-- A drawing that came to its end. -/
structure Completed (settings : Settings) (view : Viewport Float) (points : List (Point Float)) (script : Script)
    (trace : Trace) : Prop where
  centers : List.Forall₂ (Lands settings view) (points.filter (·.y.isFinite)) (trace.calls.filterMap Call.center?)
  flipped : trace.calls.count .flip = 1
  phases : ∃ blocks axes curve waited, Curve.Blocks points blocks ∧ Crosses settings view axes ∧
    Outlines settings view blocks curve ∧ Waits settings.fps script waited trace.script ∧
    trace.calls = opening settings ++ (axes ++ curve) ++ .flip :: waited ++ [.quit]

end Screen

namespace Proofs.WindowTrace
open Screen Curve Computations

section Blocks

variable {α : Type} [Coordinate α] {point : Point α} {points run : List (Point α)} {blocks : List (List (Point α))}

theorem runsFrom_finite (finite : Finite point) : runsFrom run (point :: points) = runsFrom (run ++ [point]) points :=
  if_pos finite

theorem runsFrom_missing (missing : ¬ Finite point) :
    runsFrom run (point :: points) = if run.isEmpty then runsFrom [] points else run :: runsFrom [] points :=
  if_neg missing

theorem skipped (missing : ¬ Finite point) (further : Blocks points blocks) : Blocks (point :: points) blocks := by
  cases further with
  | gap others => exact .gap (by simpa [missing] using others)
  | @block gap block rest blocks others filled finite maximal further =>
    have longer : ∀ other ∈ point :: gap, ¬ Finite other := by simpa [missing] using others
    exact .block longer filled finite maximal further

/-- A block that has begun takes in all points up to the first whose ordinate is not finite. -/
def Continues (run points : List (Point α)) (blocks : List (List (Point α))) : Prop :=
  ∃ more rest others, points = more ++ rest ∧ (∀ point ∈ more, Finite point) ∧
    (∀ point ∈ rest.head?, ¬ Finite point) ∧ Blocks rest others ∧ blocks = (run ++ more) :: others

theorem runsFrom_blocks (points : List (Point α)) :
    Blocks points (runsFrom [] points) ∧ ∀ run, run ≠ [] → Continues run points (runsFrom run points) := by
  induction points with
  | nil =>
    refine ⟨.gap (by simp), fun run begun => ⟨[], [], [], rfl, by simp, by simp, .gap (by simp), ?_⟩⟩
    simp [runsFrom, begun]
  | cons point points ih =>
    obtain ⟨fresh, begun⟩ := ih
    by_cases finite : Finite point
    · refine ⟨?_, fun run filled => ?_⟩
      · obtain ⟨more, rest, others, rfl, all, maximal, further, same⟩ := begun [point] (by simp)
        rw [runsFrom_finite finite, List.nil_append, same]
        have block : ∀ other ∈ [point] ++ more, Finite other := by simpa [finite] using all
        exact @Blocks.block _ _ [] _ _ _ (by simp) (by simp) block maximal further
      · obtain ⟨more, rest, others, rfl, all, maximal, further, same⟩ := begun (run ++ [point]) (by simp)
        refine ⟨point :: more, rest, others, rfl, by simpa [finite] using all, maximal, further, ?_⟩
        rw [runsFrom_finite finite, same, List.append_assoc]
        rfl
    · refine ⟨?_, fun run filled => ?_⟩
      · rw [runsFrom_missing finite]
        exact skipped finite fresh
      · refine ⟨[], point :: points, _, rfl, by simp, by simpa using finite, skipped finite fresh, ?_⟩
        rw [runsFrom_missing finite, if_neg (by simpa using filled), List.append_nil]

theorem finiteRuns_blocks (points : List (Point α)) : Blocks points (finiteRuns points) :=
  (runsFrom_blocks points).1

theorem filter_gap {gap : List (Point α)} (missing : ∀ point ∈ gap, ¬ Finite point) :
    gap.filter (Coordinate.isFinite ·.y) = [] :=
  List.filter_eq_nil_iff.mpr missing

/-- The blocks hold all the points with finite ordinates, in order. -/
theorem blocks_flatten (split : Blocks points blocks) : blocks.flatten = points.filter (Coordinate.isFinite ·.y) := by
  induction split with
  | gap missing => exact (filter_gap missing).symm
  | block missing filled finite maximal further ih =>
    rw [List.filter_append, List.filter_append, filter_gap missing, List.filter_eq_self.mpr finite, ← ih]
    rfl

theorem blocks_filled (split : Blocks points blocks) : ∀ block ∈ blocks, block ≠ [] := by
  induction split with
  | gap missing => simp
  | block missing filled finite maximal further ih => simpa [filled] using ih

end Blocks

section Strokes

variable {settings : Settings} {view : Viewport Float} {points : List (Point Float)}

/-- Only strokes that can be computed are drawn. -/
theorem record_draws {strokes : List (Except Fault (List Call))}
    (draws : ∀ calls, .ok calls ∈ strokes → ∀ call ∈ calls, call.Draws) : ∀ call ∈ (record strokes).1, call.Draws := by
  induction strokes with
  | nil => simp [record]
  | cons stroke rest ih =>
    cases stroke with
    | error fault => simp [record]
    | ok calls =>
      have others := ih fun more member => draws more (List.mem_cons_of_mem _ member)
      intro call member
      rcases List.mem_append.mp member with first | later
      · exact draws calls List.mem_cons_self call first
      · exact others call later

theorem record_clear (strokes : List (Except Fault (List Call))) :
    (record strokes).2 = none ↔ ∀ stroke ∈ strokes, ∃ calls, stroke = .ok calls := by
  induction strokes with
  | nil => simp [record]
  | cons stroke rest ih =>
    cases stroke with
    | error fault => simp [record]
    | ok calls => simpa [record] using ih

/-- Without a fault, all strokes are drawn one after the other. -/
theorem record_pieces (pieces : List (List Call)) : record (pieces.map .ok) = (pieces.flatten, none) := by
  induction pieces with
  | nil => rfl
  | cons piece rest ih => simp only [List.map_cons, record, ih, List.flatten_cons]

theorem pieces_of_computed {strokes : List (Except Fault (List Call))}
    (computed : ∀ stroke ∈ strokes, ∃ calls, stroke = .ok calls) : ∃ pieces : List (List Call), strokes = pieces.map .ok := by
  induction strokes with
  | nil => exact ⟨[], rfl⟩
  | cons stroke rest ih =>
    obtain ⟨calls, rfl⟩ := computed stroke List.mem_cons_self
    obtain ⟨pieces, rfl⟩ := ih fun other member => computed other (List.mem_cons_of_mem _ member)
    exact ⟨calls :: pieces, rfl⟩

theorem run_computed {block : List (Point Float)} {calls : List Call} :
    run settings view block = .ok calls ↔ ∃ pixels, List.Forall₂ (Lands settings view) block pixels ∧
      calls = if 1 < pixels.length then .lines curveColor pixels 2 :: dots pixels else dots pixels := by
  unfold run
  simp only [bind_computed, mapM_computed]
  refine exists_congr fun pixels => and_congr_right fun _ => ?_
  exact ⟨fun same => by cases same; rfl, fun same => by rw [same]; rfl⟩

theorem run_exists (block : List (Point Float)) :
    (∃ calls, run settings view block = .ok calls) ↔ ∀ point ∈ block, ∃ place, Lands settings view point place := by
  unfold Lands
  rw [← mapM_exists]
  unfold run
  simp only [bind_computed]
  constructor
  · rintro ⟨_, pixels, places, -⟩
    exact ⟨pixels, places⟩
  · rintro ⟨pixels, places⟩
    exact ⟨_, pixels, places, rfl⟩

/-- Every run gives the strokes of one block. -/
theorem runs_outline {blocks : List (List (Point Float))} (filled : ∀ block ∈ blocks, block ≠ [])
    {pieces : List (List Call)} (drawn : blocks.map (run settings view) = pieces.map .ok) :
    Outlines settings view blocks pieces.flatten := by
  induction blocks generalizing pieces with
  | nil =>
    cases pieces with
    | nil => exact .none
    | cons => cases drawn
  | cons block rest ih =>
    cases pieces with
    | nil => cases drawn
    | cons piece pieces =>
      obtain ⟨here, later⟩ := List.cons.inj drawn
      have others := ih (fun other member => filled other (List.mem_cons_of_mem _ member)) later
      obtain ⟨pixels, lands, rfl⟩ := run_computed.mp here
      rw [List.flatten_cons]
      by_cases several : 1 < pixels.length
      · rw [if_pos several, List.cons_append]
        exact .several (lands.length_eq ▸ several) lands others
      · rw [if_neg several]
        -- One point alone is left, since a block is never empty.
        cases lands with
        | nil => exact absurd rfl (filled [] List.mem_cons_self)
        | cons lands more =>
          cases more with
          | nil => exact .lone lands others
          | cons => simp at several

theorem centers_dots (pixels : List Pixel) (calls : List Call) :
    (dots pixels ++ calls).filterMap Call.center? = pixels ++ calls.filterMap Call.center? := by
  rw [List.filterMap_append, dots, List.filterMap_map]
  congr 1
  exact List.filterMap_some

theorem outlines_centers {blocks : List (List (Point Float))} {calls : List Call}
    (outlines : Outlines settings view blocks calls) :
    List.Forall₂ (Lands settings view) blocks.flatten (calls.filterMap Call.center?) := by
  induction outlines with
  | none => exact .nil
  | lone lands further ih =>
    rw [centers_dots]
    exact .cons lands ih
  | several several lands further ih =>
    rw [List.filterMap_cons_none rfl, centers_dots]
    exact List.rel_append lands ih

/-- An axis: both ends are computed before the line between them is drawn. -/
def axis (settings : Settings) (view : Viewport Float) (x y x' y' : Float) : Except Fault (List Call) := do
  let start ← pixel settings view x y
  let stop ← pixel settings view x' y'
  return [.line axisColor start stop]

theorem axes_eq : axes settings view = (if view.containsY 0 then [axis settings view view.xMin 0 view.xMax 0] else []) ++
    if view.containsX 0 then [axis settings view 0 view.yMin 0 view.yMax] else [] := rfl

theorem axis_computed {x y x' y' : Float} {calls : List Call} :
    axis settings view x y x' y' = .ok calls ↔ ∃ start stop, calls = [.line axisColor start stop] ∧
      pixel settings view x y = .ok start ∧ pixel settings view x' y' = .ok stop := by
  unfold axis
  simp only [bind_computed]
  constructor
  · rintro ⟨start, first, stop, second, same⟩
    cases same
    exact ⟨start, stop, rfl, first, second⟩
  · rintro ⟨start, stop, rfl, first, second⟩
    exact ⟨start, first, stop, second, rfl⟩

theorem axis_exists {x y x' y' : Float} : (∃ calls, axis settings view x y x' y' = .ok calls) ↔
    (∃ start, pixel settings view x y = .ok start) ∧ ∃ stop, pixel settings view x' y' = .ok stop := by
  simp only [axis_computed]
  constructor
  · rintro ⟨_, start, stop, -, first, second⟩
    exact ⟨⟨start, first⟩, stop, second⟩
  · rintro ⟨⟨start, first⟩, stop, second⟩
    exact ⟨_, start, stop, rfl, first, second⟩

/-- An axis that is in view gives one line, and one that is not gives nothing. -/
theorem axis_drawn {shown : Bool} {x y x' y' : Float} {pieces : List (List Call)}
    (drawn : (if shown then [axis settings view x y x' y'] else []) = pieces.map .ok) :
    if shown then ∃ start stop, pieces.flatten = [.line axisColor start stop] ∧
        pixel settings view x y = .ok start ∧ pixel settings view x' y' = .ok stop
      else pieces.flatten = [] := by
  cases shown with
  | false =>
    rw [List.map_eq_nil_iff.mp drawn.symm]
    rfl
  | true =>
    obtain ⟨calls, rfl, here⟩ := List.map_eq_singleton_iff.mp drawn.symm
    obtain ⟨start, stop, rfl, ends⟩ := axis_computed.mp here.symm
    exact ⟨start, stop, rfl, ends⟩

theorem axes_cross {pieces : List (List Call)} (drawn : axes settings view = pieces.map .ok) :
    Crosses settings view pieces.flatten := by
  rw [axes_eq] at drawn
  obtain ⟨across, down, rfl, horizontal, vertical⟩ := List.map_eq_append_iff.mp drawn.symm
  rw [List.flatten_append]
  exact .axes (axis_drawn horizontal.symm) (axis_drawn vertical.symm)

theorem crosses_lines {calls : List Call} (crosses : Crosses settings view calls) :
    ∀ call ∈ calls, ∃ start stop, call = .line axisColor start stop := by
  obtain ⟨horizontal, vertical⟩ := crosses
  refine List.forall_mem_append.mpr ⟨?_, ?_⟩
  · split at horizontal
    next =>
      obtain ⟨left, right, rfl, -⟩ := horizontal
      simp
    next => simp [horizontal]
  · split at vertical
    next =>
      obtain ⟨bottom, top, rfl, -⟩ := vertical
      simp
    next => simp [vertical]

/-- A drawing has no fault exactly if all its positions can be computed. -/
theorem strokes_placeable : (record (strokes settings view points)).2 = none ↔ Placeable settings view points := by
  have blocks := finiteRuns_blocks points
  have member (point : Point Float) : point ∈ (finiteRuns points).flatten ↔ point ∈ points ∧ point.y.isFinite := by
    rw [blocks_flatten blocks, List.mem_filter]
    rfl
  rw [record_clear, strokes, axes_eq]
  simp only [List.forall_mem_append, List.forall_mem_map, run_exists]
  constructor
  · rintro ⟨⟨horizontal, vertical⟩, runs⟩
    refine ⟨fun shown => ?_, fun shown => ?_, fun point given finite => ?_⟩
    · rw [if_pos shown] at horizontal
      exact axis_exists.mp (horizontal _ List.mem_cons_self)
    · rw [if_pos shown] at vertical
      exact axis_exists.mp (vertical _ List.mem_cons_self)
    · obtain ⟨block, listed, inside⟩ := List.mem_flatten.mp ((member point).mpr ⟨given, finite⟩)
      exact runs block listed point inside
  · rintro ⟨horizontal, vertical, places⟩
    refine ⟨⟨?_, ?_⟩, fun block listed point inside => ?_⟩
    · split
      next shown => simpa using axis_exists.mpr (horizontal shown)
      next => simp
    · split
      next shown => simpa using axis_exists.mpr (vertical shown)
      next => simp
    · obtain ⟨given, finite⟩ := (member point).mp (List.mem_flatten.mpr ⟨block, listed, inside⟩)
      exact places point given finite

/-- The strokes of a drawing without a fault are those of its axes and of its blocks. -/
theorem strokes_complete (clear : (record (strokes settings view points)).2 = none) :
    ∃ cross curve, (record (strokes settings view points)).1 = cross ++ curve ∧ Crosses settings view cross ∧
      Outlines settings view (finiteRuns points) curve := by
  obtain ⟨pieces, same⟩ := pieces_of_computed ((record_clear _).mp clear)
  rw [same, record_pieces]
  obtain ⟨front, back, rfl, first, second⟩ := List.map_eq_append_iff.mp same.symm
  rw [List.flatten_append]
  exact ⟨_, _, rfl, axes_cross first.symm, runs_outline (blocks_filled (finiteRuns_blocks points)) second.symm⟩

theorem strokes_draw : ∀ call ∈ (record (strokes settings view points)).1, call.Draws := by
  apply record_draws
  intro calls member
  rw [strokes, List.mem_append, axes_eq, List.mem_append] at member
  have line {x y x' y' : Float} (drawn : axis settings view x y x' y' = .ok calls) : ∀ call ∈ calls, call.Draws := by
    obtain ⟨start, stop, rfl, -⟩ := axis_computed.mp drawn
    simpa using Call.Draws.line
  rcases member with (across | down) | curve
  · split at across
    · exact line (List.mem_singleton.mp across).symm
    · cases across
  · split at down
    · exact line (List.mem_singleton.mp down).symm
    · cases down
  · obtain ⟨block, -, drawn⟩ := List.mem_map.mp curve
    obtain ⟨pixels, -, rfl⟩ := run_computed.mp drawn
    have circles : ∀ call ∈ dots pixels, call.Draws := by
      intro call member
      obtain ⟨center, -, rfl⟩ := List.mem_map.mp member
      exact .circle
    split
    · exact List.forall_mem_cons.mpr ⟨.lines, circles⟩
    · exact circles

end Strokes

section Waiting

variable {fps : Int} {script : Script}

theorem dismissed_iff (signals : List Signal) : signals.any Signal.dismisses = true ↔ Dismissed signals := by
  rw [List.any_eq_true]
  refine exists_congr fun signal => and_congr_right fun _ => ?_
  cases signal <;> simp [Signal.dismisses]

theorem wait_waits (fps : Int) (script : Script) : Waits fps script (wait fps script).1 (wait fps script).2 := by
  induction script with
  | nil => exact .closed (by simp)
  | cons signals rest ih =>
    rw [wait]
    split
    next dismissed =>
      exact @Waits.dismissed fps _ [] rest signals rfl (by simp) ((dismissed_iff signals).mp dismissed)
    next ignored =>
      generalize wait fps rest = ended at ih
      obtain ⟨calls, left⟩ := ended
      have extended {others : Script} (waiting : ∀ batch ∈ others, ¬ Dismissed batch) :
          ∀ batch ∈ signals :: others, ¬ Dismissed batch := by
        simpa [← dismissed_iff signals, ignored] using waiting
      cases ih with
      | @dismissed others left final split waiting last =>
        exact @Waits.dismissed fps _ (signals :: others) left final (by rw [split]; rfl) (extended waiting) last
      | closed waiting => exact .closed (extended waiting)

theorem waits_calls {calls : List Call} {left : Script} (waits : Waits fps script calls left) :
    ∀ call ∈ calls, call = .tick fps ∨ ∃ signals, call = .get signals := by
  have fetched {ignored : Script} {final : List Signal} {call : Call}
      (member : call ∈ ignored.flatMap (fun signals => [.get signals, .tick fps]) ++ [.get final]) :
      call = .tick fps ∨ ∃ signals, call = .get signals := by
    simp only [List.mem_append, List.mem_flatMap, List.mem_cons, List.not_mem_nil, or_false] at member
    rcases member with ⟨signals, -, rfl | rfl⟩ | rfl
    · exact .inr ⟨signals, rfl⟩
    · exact .inl rfl
    · exact .inr ⟨_, rfl⟩
  intro call member
  cases waits with
  | dismissed => exact fetched member
  | closed => exact fetched member

end Waiting

section Drawings

variable {settings : Settings} {view : Viewport Float} {points : List (Point Float)} {script : Script}

theorem opened_enclosed {inner : List Call} (opened : ∀ call ∈ inner, call ≠ .init) (closed : ∀ call ∈ inner, call ≠ .quit) :
    Enclosed settings (opening settings ++ inner ++ [.quit]) := by
  have unopened : inner.count .init = 0 := List.count_eq_zero.mpr fun member => opened _ member rfl
  have unclosed : inner.count .quit = 0 := List.count_eq_zero.mpr fun member => closed _ member rfl
  refine ⟨?_, ?_, ?_, List.getLast?_concat⟩
  · rw [List.append_assoc]
    exact List.prefix_append _ _
  · rw [List.count_append, List.count_append, unopened]
    rfl
  · rw [List.count_append, List.count_append, unclosed]
    rfl

theorem draws_apart {call : Call} (draws : call.Draws) : call ≠ .init ∧ call ≠ .quit ∧ call ≠ .flip := by
  cases draws with
  | line | lines | circle => exact ⟨nofun, nofun, nofun⟩

theorem waits_apart {fps : Int} {calls : List Call} {left : Script} (waits : Waits fps script calls left) {call : Call}
    (member : call ∈ calls) : call ≠ .init ∧ call ≠ .quit ∧ call ≠ .flip ∧ call.center? = none := by
  rcases waits_calls waits call member with rfl | ⟨signals, rfl⟩
  · exact ⟨nofun, nofun, nofun, rfl⟩
  · exact ⟨nofun, nofun, nofun, rfl⟩

theorem display_clear (framed : Viewport.ofPoints points = .ok view)
    (clear : (record (strokes settings view points)).2 = none) :
    display settings points script = ⟨opening settings ++ (record (strokes settings view points)).1 ++
      .flip :: (wait settings.fps script).1 ++ [.quit], (wait settings.fps script).2, none⟩ := by
  rcases recorded : record (strokes settings view points) with ⟨drawn, fault⟩
  rw [recorded] at clear
  cases clear
  simp only [display, framed, recorded]
  rfl

theorem display_broken {fault : Fault} (framed : Viewport.ofPoints points = .ok view)
    (broken : (record (strokes settings view points)).2 = some fault) :
    display settings points script =
      ⟨opening settings ++ (record (strokes settings view points)).1 ++ [.quit], script, some fault⟩ := by
  rcases recorded : record (strokes settings view points) with ⟨drawn, early⟩
  rw [recorded] at broken
  cases broken
  simp only [display, framed, recorded]
  rfl

/-- A drawing that breaks off is closed at once. -/
theorem broken_enclosed : Enclosed settings (opening settings ++ (record (strokes settings view points)).1 ++ [.quit]) :=
  opened_enclosed (fun call member => (draws_apart (strokes_draw call member)).1)
    fun call member => (draws_apart (strokes_draw call member)).2.1

theorem complete_enclosed : Enclosed settings (opening settings ++ (record (strokes settings view points)).1 ++
    .flip :: (wait settings.fps script).1 ++ [.quit]) := by
  have waits := wait_waits settings.fps script
  rw [List.append_assoc (opening settings)]
  apply opened_enclosed
  · intro call member
    rcases List.mem_append.mp member with drawn | later
    · exact (draws_apart (strokes_draw call drawn)).1
    · rcases List.mem_cons.mp later with rfl | waited
      · exact nofun
      · exact (waits_apart waits waited).1
  · intro call member
    rcases List.mem_append.mp member with drawn | later
    · exact (draws_apart (strokes_draw call drawn)).2.1
    · rcases List.mem_cons.mp later with rfl | waited
      · exact nofun
      · exact (waits_apart waits waited).2.1

theorem complete_completed (clear : (record (strokes settings view points)).2 = none) :
    Completed settings view points script ⟨opening settings ++ (record (strokes settings view points)).1 ++
      .flip :: (wait settings.fps script).1 ++ [.quit], (wait settings.fps script).2, none⟩ := by
  have waits := wait_waits settings.fps script
  have blocks := finiteRuns_blocks points
  obtain ⟨cross, curve, drawn, crosses, outlines⟩ := strokes_complete clear
  have unflipped : (record (strokes settings view points)).1.count .flip = 0 :=
    List.count_eq_zero.mpr fun member => (draws_apart (strokes_draw _ member)).2.2 rfl
  have waited : (wait settings.fps script).1.count .flip = 0 :=
    List.count_eq_zero.mpr fun member => (waits_apart waits member).2.2.1 rfl
  refine ⟨?_, ?_, finiteRuns points, cross, curve, _, blocks, crosses, outlines, waits, by rw [drawn]⟩
  · have axes : cross.filterMap Call.center? = [] := by
      rw [List.filterMap_eq_nil_iff]
      intro call member
      obtain ⟨start, stop, rfl⟩ := crosses_lines crosses call member
      rfl
    have signals : (wait settings.fps script).1.filterMap Call.center? = [] :=
      List.filterMap_eq_nil_iff.mpr fun call member => (waits_apart waits member).2.2.2
    have only : (opening settings ++ (record (strokes settings view points)).1 ++
        Call.flip :: (wait settings.fps script).1 ++ [Call.quit]).filterMap Call.center? =
          curve.filterMap Call.center? := by
      have opened : (opening settings).filterMap Call.center? = [] := rfl
      have flip : Call.flip.center? = none := rfl
      have quit : Call.quit.center? = none := rfl
      simp [drawn, axes, signals, opened, flip, quit]
    have same : (finiteRuns points).flatten = points.filter (·.y.isFinite) := blocks_flatten blocks
    rw [only, ← same]
    exact outlines_centers outlines
  · rw [List.count_append, List.count_append, List.count_append, unflipped, List.count_cons_self, waited]
    rfl

end Drawings

/-- A drawing without points asks nothing of the window system. Any other opens the window once
and closes it once, in the end. It has a fault exactly if a position that it needs cannot be
computed, and otherwise it draws everything, shows it and waits to be dismissed: by the script,
or, where no batch of the script does so, by the closing batch that is taken to come behind it. -/
theorem display_opens_and_closes (settings : Settings) (points : List (Point Float)) (script : Script) :
    (∃ fault, Viewport.ofPoints points = .error fault ∧ display settings points script = ⟨[], script, some fault⟩) ∨
    ∃ view, Viewport.ofPoints points = .ok view ∧ Enclosed settings (display settings points script).calls ∧
      ((display settings points script).fault = none ↔ Placeable settings view points) ∧
      ((display settings points script).fault = none →
        Completed settings view points script (display settings points script)) := by
  cases framed : Viewport.ofPoints points with
  | error fault =>
    refine .inl ⟨fault, rfl, ?_⟩
    simp only [display, framed]
  | ok view =>
    refine .inr ⟨view, rfl, ?_⟩
    cases recorded : (record (strokes settings view points)).2 with
    | none =>
      rw [display_clear framed recorded]
      exact ⟨complete_enclosed, iff_of_true rfl (strokes_placeable.mp recorded), fun _ => complete_completed recorded⟩
    | some fault =>
      have unplaceable : ¬ Placeable settings view points := by
        rw [← strokes_placeable, recorded]
        exact nofun
      rw [display_broken framed recorded]
      exact ⟨broken_enclosed, iff_of_false nofun unplaceable, nofun⟩

end Proofs.WindowTrace

end Reckoner
