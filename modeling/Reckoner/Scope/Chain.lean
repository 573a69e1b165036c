import Reckoner.Scope.Frame

/-! A chain of frames, each enclosed by the next. Definitions land in the innermost frame;
lookup walks outward and stops at the first frame that binds the name. -/

namespace Reckoner

/-- Looks a name up in frames that enclose each other, innermost first. -/
def Frame.search {α : Type} (frames : List (Frame α)) (name : String) : Option α :=
  frames.findSome? (·.get? name)

structure Chain (α : Type) where
  inner : Frame α
  outer : List (Frame α)

namespace Chain

variable {α : Type}

/-- A chain of one frame. -/
def single (frame : Frame α) : Chain α := ⟨frame, []⟩

/-- All frames, innermost first. -/
def frames (chain : Chain α) : List (Frame α) := chain.inner :: chain.outer

/-- The outermost frame. -/
def globals (chain : Chain α) : Frame α := chain.outer.getLastD chain.inner

/-- Whether the innermost frame is also the outermost. -/
def atGlobals (chain : Chain α) : Bool := chain.outer.isEmpty

def get? (chain : Chain α) (name : String) : Option α := Frame.search chain.frames name

def define (chain : Chain α) (name : String) (value : α) : Chain α :=
  { chain with inner := chain.inner.define name value }

/-- Puts a new innermost frame in front. -/
def enter (chain : Chain α) (frame : Frame α) : Chain α := ⟨frame, chain.frames⟩

/-- Drops the innermost frame; the last one stays. -/
def leave (chain : Chain α) : Chain α :=
  match chain.outer with
  | [] => chain
  | frame :: rest => ⟨frame, rest⟩

@[simp] theorem leave_enter (chain : Chain α) (frame : Frame α) : (chain.enter frame).leave = chain := rfl

end Chain

end Reckoner
