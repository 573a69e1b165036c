import Reckoner.Scope.Chain

/-! Scopes as a tree that only grows. Every scope but the root lies in an older one, and
scopes are numbered in the order of their making, so the way from a scope to the root
runs through ever smaller numbers. -/

namespace Reckoner.Scope

structure Node (α : Type) where
  parent : Option Nat
  frame : Frame α

structure Tree (α : Type) where
  nodes : Array (Node α)

namespace Tree

variable {α : Type}

/-- A root scope, number zero, that binds nothing. -/
def root : Tree α := ⟨#[⟨none, .empty⟩]⟩

/-- Makes a scope enclosed by the given one. Its number is the number of scopes before. -/
def child (tree : Tree α) (parent : Nat) : Tree α := ⟨tree.nodes.push ⟨some parent, .empty⟩⟩

def define (tree : Tree α) (scope : Nat) (name : String) (value : α) : Tree α :=
  ⟨tree.nodes.modify scope fun node => { node with frame := node.frame.define name value }⟩

/-- The scopes from the given one to its root. -/
def path (tree : Tree α) (scope : Nat) : List Nat :=
  match tree.nodes[scope]? with
  | none => []
  | some node =>
    match node.parent with
    | none => [scope]
    | some parent => if parent < scope then scope :: tree.path parent else [scope]

/-- The bindings of a scope itself. -/
def frame (tree : Tree α) (scope : Nat) : Frame α :=
  match tree.nodes[scope]? with
  | some node => node.frame
  | none => .empty

/-- The binding in the nearest scope that has one. -/
def get? (tree : Tree α) (scope : Nat) (name : String) : Option α :=
  Frame.search ((tree.path scope).map tree.frame) name

/-- How many scopes enclose this one. The program asks the enclosing scope in turn, one call
within another; the limit that the runtime sets to such recursion is left out here. -/
def depth (tree : Tree α) (scope : Nat) : Nat := (tree.path scope).length - 1

def describe (tree : Tree α) (scope : Nat) : String :=
  "<Scope depth=" ++ toString (tree.depth scope) ++ ": " ++
    ", ".intercalate (tree.frame scope).sortedNames ++ ">"

end Tree

end Reckoner.Scope
