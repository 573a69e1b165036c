import Mathlib.Data.List.Induction
import Mathlib.Logic.Relation
import Reckoner.Scope.Tree

/-! Lookup in a tree of scopes, told from its history alone. On the way from a scope to the
root the first scope in which a name was ever defined answers, with the latest definition
there. So a definition is seen in its scope and below, up to scopes with one of their own. -/

namespace Reckoner.Proofs.ScopeLookup

/-- What may be done to a tree of scopes. -/
inductive Change (α : Type)
  | child (parent : Nat)
  | define (scope : Nat) (name : String) (value : α)

namespace Change

variable {α : Type}

/-- The scope that is given a child or a definition. -/
def subject : Change α → Nat
  | child parent => parent
  | define scope _ _ => scope

def parent? : Change α → Option Nat
  | child parent => some parent
  | define .. => none

def apply (tree : Scope.Tree α) : Change α → Scope.Tree α
  | child parent => tree.child parent
  | define scope name value => tree.define scope name value

end Change

variable {α : Type} {history : List (Change α)} {tree : Scope.Tree α} {change : Change α} {scope parent inner outer : Nat}
  {way : List Nat} {name : String} {value : α}

section Histories

/-- The parents of all scopes but the root, in the order of their making. -/
def parents (history : List (Change α)) : List Nat := history.filterMap Change.parent?

/-- How many scopes there are, the root included. -/
def count (history : List (Change α)) : Nat := (parents history).length + 1

def enclosing? (history : List (Change α)) : Nat → Option Nat
  | 0 => none
  | made + 1 => (parents history)[made]?

def Encloses (history : List (Change α)) (outer inner : Nat) : Prop := enclosing? history inner = some outer

def Defined (history : List (Change α)) (scope : Nat) (name : String) : Prop :=
  ∃ value, .define scope name value ∈ history

/-- The most recent definition of a name in one scope. -/
def Latest (history : List (Change α)) (scope : Nat) (name : String) (value : α) : Prop :=
  ∃ earlier later, history = earlier ++ .define scope name value :: later ∧
    ∀ other, .define scope name other ∉ later

/-- The way from a scope to the root. -/
inductive Leads (history : List (Change α)) : Nat → List Nat → Prop
  | root : Leads history 0 [0]
  | outward {inner outer : Nat} {way : List Nat} (enclosed : Encloses history outer inner)
      (further : Leads history outer way) : Leads history inner (inner :: way)

/-- On a way, the scopes up to the first one that defines the name. -/
def Reaches (history : List (Change α)) (name : String) (way : List Nat) (scope : Nat) : Prop :=
  ∃ below above, way = below ++ scope :: above ∧ ∀ passed ∈ below, ¬ Defined history passed name

/-- A tree and the changes that made it out of a root. Only scopes that exist are changed. -/
inductive Grows : List (Change α) → Scope.Tree α → Prop
  | root : Grows [] .root
  | change {history : List (Change α)} {tree : Scope.Tree α} {change : Change α} (grows : Grows history tree)
      (existing : change.subject < count history) : Grows (history ++ [change]) (change.apply tree)

theorem parents_child : parents (history ++ [.child parent]) = parents history ++ [parent] := by
  simp [parents, Change.parent?]

theorem parents_define : parents (history ++ [.define scope name value]) = parents history := by
  simp [parents, Change.parent?]

theorem enclosing?_child :
    enclosing? (history ++ [.child parent]) scope = if scope = count history then some parent else enclosing? history scope := by
  cases scope with
  | zero => simp [enclosing?, count]
  | succ made =>
    simp only [enclosing?, parents_child, count, Nat.add_right_cancel_iff]
    split
    next last => rw [last, List.getElem?_concat_length]
    next other =>
      rcases Nat.lt_or_gt_of_ne other with before | behind
      · rw [List.getElem?_append_left before]
      · rw [List.getElem?_eq_none (by rwa [List.length_append]), List.getElem?_eq_none (Nat.le_of_lt behind)]

theorem enclosing?_define : enclosing? (history ++ [.define outer name value]) scope = enclosing? history scope := by
  cases scope with
  | zero => rfl
  | succ made => rw [enclosing?, parents_define, enclosing?]

theorem latest_snoc : Latest (history ++ [change]) scope name value ↔
    change = .define scope name value ∨ Latest history scope name value ∧ ∀ other, change ≠ .define scope name other := by
  constructor
  · rintro ⟨earlier, later, same, none⟩
    rcases later.eq_nil_or_concat with rfl | ⟨later, last, rfl⟩
    · obtain ⟨-, same⟩ := List.append_inj' same rfl
      exact .inl (List.singleton_inj.mp same)
    · rw [List.concat_eq_append, ← List.cons_append, ← List.append_assoc] at same
      obtain ⟨before, lasts⟩ := List.append_inj' same rfl
      obtain rfl := List.singleton_inj.mp lasts
      simp only [List.concat_eq_append, List.mem_append, List.mem_singleton, not_or] at none
      exact .inr ⟨⟨earlier, later, before, fun other => (none other).1⟩, fun other => Ne.symm (none other).2⟩
  · rintro (rfl | ⟨⟨earlier, later, rfl, none⟩, unlike⟩)
    · exact ⟨history, [], rfl, by simp⟩
    · refine ⟨earlier, later ++ [change], by simp, fun other member => ?_⟩
      rcases List.mem_append.mp member with before | last
      · exact none other before
      · exact unlike other (List.mem_singleton.mp last).symm

theorem defined_iff_latest : Defined history scope name ↔ ∃ value, Latest history scope name value := by
  constructor
  · rintro ⟨value, member⟩
    induction history using List.reverseRecOn with
    | nil => cases member
    | append_singleton history change ih =>
      by_cases again : ∃ other, change = .define scope name other
      · obtain ⟨other, same⟩ := again
        exact ⟨other, latest_snoc.mpr (.inl same)⟩
      · rcases List.mem_append.mp member with before | last
        · obtain ⟨other, latest⟩ := ih before
          exact ⟨other, latest_snoc.mpr (.inr ⟨latest, fun value same => again ⟨value, same⟩⟩)⟩
        · exact absurd ⟨value, (List.mem_singleton.mp last).symm⟩ again
  · rintro ⟨value, earlier, later, rfl, -⟩
    exact ⟨value, by simp⟩

theorem reaches_cons {first : Nat} : Reaches history name (first :: way) scope ↔
    first = scope ∨ ¬ Defined history first name ∧ Reaches history name way scope := by
  constructor
  · rintro ⟨below, above, same, passed⟩
    cases below with
    | nil => exact .inl (List.cons.inj same).1
    | cons lowest below =>
      obtain ⟨rfl, further⟩ := List.cons.inj same
      rw [List.forall_mem_cons] at passed
      exact .inr ⟨passed.1, below, above, further, passed.2⟩
  · rintro (rfl | ⟨missing, below, above, rfl, passed⟩)
    · exact ⟨[], way, rfl, by simp⟩
    · exact ⟨first :: below, above, rfl, List.forall_mem_cons.mpr ⟨missing, passed⟩⟩

theorem enclosed_iff (enclosed : Encloses history outer inner) {holds : Nat → Prop} :
    (∃ middle, holds middle ∧ Encloses history middle inner) ↔ holds outer := by
  refine ⟨?_, fun known => ⟨outer, known, enclosed⟩⟩
  rintro ⟨middle, known, encloses⟩
  obtain rfl := Option.some.inj (enclosed.symm.trans encloses)
  exact known

theorem not_enclosed_root {holds : Nat → Prop} : ¬ ∃ middle, holds middle ∧ Encloses history middle 0 := by
  rintro ⟨middle, -, encloses⟩
  cases encloses

/-- The scopes on the way to the root are the scope itself and those that enclose it, however far out. -/
theorem Leads.mem_iff (leads : Leads history scope way) {other : Nat} :
    other ∈ way ↔ Relation.ReflTransGen (Encloses history) other scope := by
  induction leads with
  | root => rw [Relation.ReflTransGen.cases_tail_iff, or_iff_left not_enclosed_root, List.mem_singleton, eq_comm]
  | outward enclosed further ih =>
    rw [Relation.ReflTransGen.cases_tail_iff, enclosed_iff enclosed, List.mem_cons, ih, eq_comm]

theorem Leads.proper (leads : Leads history scope (scope :: way)) {other : Nat} :
    other ∈ way ↔ Relation.TransGen (Encloses history) other scope := by
  rw [Relation.TransGen.tail'_iff]
  cases leads with
  | root => exact iff_of_false List.not_mem_nil not_enclosed_root
  | outward enclosed further => rw [enclosed_iff enclosed, further.mem_iff]

theorem Leads.unique {other : List Nat} (leads : Leads history scope way) (leadsToo : Leads history scope other) :
    way = other := by
  induction leads generalizing other with
  | root =>
    cases leadsToo with
    | root => rfl
    | outward enclosed => cases enclosed
  | outward enclosed further ih =>
    cases leadsToo with
    | root => cases enclosed
    | outward enclosedToo furtherToo =>
      obtain rfl := Option.some.inj (enclosed.symm.trans enclosedToo)
      rw [ih furtherToo]

theorem Leads.undefine (leads : Leads (history ++ [.define outer name value]) scope way) : Leads history scope way := by
  induction leads with
  | root => exact .root
  | outward enclosed further ih =>
    rw [Encloses, enclosing?_define] at enclosed
    exact .outward enclosed ih

end Histories

section Trees

theorem frame_child (tree : Scope.Tree α) (parent scope : Nat) : (tree.child parent).frame scope = tree.frame scope := by
  rw [Scope.Tree.frame, Scope.Tree.frame, Scope.Tree.child, Array.getElem?_push]
  by_cases last : scope = tree.nodes.size
  · rw [if_pos last, last, Array.getElem?_eq_none (Nat.le_refl _)]
  · rw [if_neg last]

theorem frame_define (tree : Scope.Tree α) (existing : scope < tree.nodes.size) (name : String) (value : α) (other : Nat) :
    (tree.define scope name value).frame other =
      if other = scope then (tree.frame other).define name value else tree.frame other := by
  simp only [Scope.Tree.frame, Scope.Tree.define, Array.getElem?_modify]
  by_cases same : other = scope
  · subst same
    rw [if_pos rfl, if_pos rfl, Array.getElem?_eq_getElem existing]
    rfl
  · rw [if_neg (Ne.symm same), if_neg same]

/-- The parent of a scope in a tree. -/
def parentIn (tree : Scope.Tree α) (scope : Nat) : Option Nat := (tree.nodes[scope]?).bind Scope.Node.parent

theorem parentIn_child (tree : Scope.Tree α) (parent scope : Nat) :
    parentIn (tree.child parent) scope = if scope = tree.nodes.size then some parent else parentIn tree scope := by
  rw [parentIn, parentIn, Scope.Tree.child, Array.getElem?_push]
  by_cases last : scope = tree.nodes.size
  · rw [if_pos last, if_pos last]
    rfl
  · rw [if_neg last, if_neg last]

theorem parentIn_define (tree : Scope.Tree α) (scope : Nat) (name : String) (value : α) (other : Nat) :
    parentIn (tree.define scope name value) other = parentIn tree other := by
  rw [parentIn, parentIn, Scope.Tree.define, Array.getElem?_modify]
  by_cases same : scope = other
  · rw [if_pos same, Option.bind_map]
    rfl
  · rw [if_neg same]

/-- What the nodes of a tree have to do with its history. -/
structure Mirrors (history : List (Change α)) (tree : Scope.Tree α) : Prop where
  size : tree.nodes.size = count history
  parent : ∀ scope, parentIn tree scope = enclosing? history scope
  older : ∀ outer inner, Encloses history outer inner → outer < inner
  bound : ∀ scope name value, (tree.frame scope).get? name = some value ↔ Latest history scope name value

theorem mirrors_root : Mirrors [] (.root : Scope.Tree α) := by
  refine ⟨rfl, fun scope => ?_, fun outer inner encloses => ?_, fun scope name value => iff_of_false ?_ ?_⟩
  · match scope with
    | 0 | scope + 1 => rfl
  · match inner with
    | 0 | inner + 1 => cases encloses
  · match scope with
    | 0 | scope + 1 => nofun
  · rintro ⟨earlier, later, same, -⟩
    simp at same

theorem Mirrors.child (mirrors : Mirrors history tree) (existing : parent < count history) :
    Mirrors (history ++ [.child parent]) (tree.child parent) := by
  refine ⟨?_, fun scope => ?_, fun outer inner encloses => ?_, fun scope name value => ?_⟩
  · rw [Scope.Tree.child, Array.size_push, mirrors.size, count, count, parents_child, List.length_append]
    rfl
  · rw [parentIn_child, enclosing?_child, mirrors.size, mirrors.parent]
  · rw [Encloses, enclosing?_child] at encloses
    split at encloses
    next last =>
      rw [last, ← Option.some.inj encloses]
      exact existing
    next => exact mirrors.older outer inner encloses
  · rw [frame_child, mirrors.bound, latest_snoc]
    simp

theorem Mirrors.define (mirrors : Mirrors history tree) (existing : scope < count history) (name : String) (value : α) :
    Mirrors (history ++ [.define scope name value]) (tree.define scope name value) := by
  refine ⟨?_, fun other => ?_, fun outer inner encloses => ?_, fun other wanted found => ?_⟩
  · rw [Scope.Tree.define, Array.size_modify, mirrors.size, count, count, parents_define]
  · rw [parentIn_define, enclosing?_define, mirrors.parent]
  · rw [Encloses, enclosing?_define] at encloses
    exact mirrors.older outer inner encloses
  · rw [frame_define tree (mirrors.size ▸ existing), latest_snoc, ← mirrors.bound, Change.define.injEq]
    by_cases here : other = scope
    · subst here
      rw [if_pos rfl, Frame.get?_define]
      by_cases same : wanted = name
      · subst same
        simp
      · simp [same, Ne.symm same]
    · simp [here, Ne.symm here]

theorem mirrors_of_grows (grows : Grows history tree) : Mirrors history tree := by
  induction grows with
  | root => exact mirrors_root
  | @change history tree change grows existing ih =>
    cases change with
    | child parent => exact ih.child existing
    | define scope name value => exact ih.define existing name value

/-- The path that lookup follows is the way to the root: it is never cut short. -/
theorem Mirrors.leads (mirrors : Mirrors history tree) (existing : scope < count history) :
    Leads history scope (tree.path scope) := by
  induction scope using Nat.strongRecOn with
  | ind scope ih =>
    have inside : scope < tree.nodes.size := mirrors.size ▸ existing
    have known : parentIn tree scope = tree.nodes[scope].parent := by
      rw [parentIn, Array.getElem?_eq_getElem inside, Option.bind_some]
    rw [Scope.Tree.path, Array.getElem?_eq_getElem inside]
    dsimp only
    rw [mirrors.parent] at known
    cases scope with
    | zero =>
      rw [← known]
      exact .root
    | succ made =>
      have listed : made < (parents history).length := Nat.lt_of_succ_lt_succ existing
      have encloses : Encloses history (parents history)[made] (made + 1) := List.getElem?_eq_getElem listed
      have older := mirrors.older _ _ encloses
      rw [← known, encloses]
      dsimp only
      -- Parents are older, so the path goes on.
      rw [if_pos older]
      exact .outward encloses (ih _ older (Nat.lt_trans older existing))

end Trees

section Lookups

theorem Mirrors.path_define (mirrors : Mirrors history tree) (existing : scope < count history) (known : inner < count history)
    (name : String) (value : α) : (tree.define scope name value).path inner = tree.path inner := by
  have defined := mirrors.define existing name value
  have counted : count (history ++ [.define scope name value]) = count history := by
    rw [count, count, parents_define]
  exact (defined.leads (counted.symm ▸ known)).undefine.unique (mirrors.leads known)

theorem Mirrors.defined_iff (mirrors : Mirrors history tree) :
    Defined history scope name ↔ ∃ value, (tree.frame scope).get? name = some value := by
  rw [defined_iff_latest]
  exact exists_congr fun value => (mirrors.bound scope name value).symm

theorem Mirrors.undefined_iff (mirrors : Mirrors history tree) :
    ¬ Defined history scope name ↔ (tree.frame scope).get? name = none := by
  rw [mirrors.defined_iff, ← Option.isSome_iff_exists, Option.not_isSome_iff_eq_none]

theorem search_cons (frame : Frame α) (frames : List (Frame α)) (name : String) :
    Frame.search (frame :: frames) name = (frame.get? name).or (Frame.search frames name) := by
  rw [Frame.search, List.findSome?_cons]
  cases frame.get? name <;> rfl

theorem not_reaches_nil : ¬ Reaches history name [] scope := by
  rintro ⟨below, above, same, -⟩
  simp at same

theorem Mirrors.search_iff (mirrors : Mirrors history tree) (way : List Nat) (name : String) (value : α) :
    Frame.search (way.map tree.frame) name = some value ↔
      ∃ nearest, Reaches history name way nearest ∧ Latest history nearest name value := by
  induction way with
  | nil =>
    refine iff_of_false nofun ?_
    rintro ⟨nearest, reaches, -⟩
    exact not_reaches_nil reaches
  | cons first way ih =>
    rw [List.map_cons, search_cons]
    cases own : (tree.frame first).get? name with
    | some bound =>
      have latest := (mirrors.bound first name bound).mp own
      rw [Option.some_or]
      constructor
      · rintro ⟨⟩
        exact ⟨first, reaches_cons.mpr (.inl rfl), latest⟩
      · rintro ⟨nearest, reaches, found⟩
        rcases reaches_cons.mp reaches with rfl | ⟨missing, -⟩
        · rw [← own, mirrors.bound]
          exact found
        · exact absurd (defined_iff_latest.mpr ⟨bound, latest⟩) missing
    | none =>
      have missing := mirrors.undefined_iff.mpr own
      rw [Option.none_or, ih]
      constructor
      · rintro ⟨nearest, reaches, found⟩
        exact ⟨nearest, reaches_cons.mpr (.inr ⟨missing, reaches⟩), found⟩
      · rintro ⟨nearest, reaches, found⟩
        rcases reaches_cons.mp reaches with rfl | ⟨-, further⟩
        · exact absurd (defined_iff_latest.mpr ⟨value, found⟩) missing
        · exact ⟨nearest, further, found⟩

theorem Mirrors.search_none (mirrors : Mirrors history tree) (way : List Nat) (name : String) :
    Frame.search (way.map tree.frame) name = none ↔ ∀ scope ∈ way, ¬ Defined history scope name := by
  rw [Frame.search, List.findSome?_map, List.findSome?_eq_none_iff]
  exact forall₂_congr fun scope _ => mirrors.undefined_iff.symm

/-- A new definition answers every lookup that comes to its scope. -/
theorem Mirrors.search_reached (mirrors : Mirrors history tree) (existing : scope < count history)
    (reaches : Reaches history name way scope) (value : α) :
    Frame.search (way.map (tree.define scope name value).frame) name = some value := by
  have inside : scope < tree.nodes.size := mirrors.size ▸ existing
  induction way with
  | nil => exact absurd reaches not_reaches_nil
  | cons first way ih =>
    rw [List.map_cons, search_cons, frame_define tree inside]
    by_cases here : first = scope
    · rw [if_pos here, Frame.get?_define, if_pos rfl, Option.some_or]
    · obtain ⟨missing, further⟩ := (reaches_cons.mp reaches).resolve_left here
      rw [if_neg here, mirrors.undefined_iff.mp missing, Option.none_or, ih further]

theorem Mirrors.search_unreached (mirrors : Mirrors history tree) (existing : scope < count history) {wanted : String}
    (apart : wanted = name → ¬ Reaches history name way scope) (value : α) :
    Frame.search (way.map (tree.define scope name value).frame) wanted = Frame.search (way.map tree.frame) wanted := by
  have inside : scope < tree.nodes.size := mirrors.size ▸ existing
  induction way with
  | nil => rfl
  | cons first way ih =>
    rw [List.map_cons, List.map_cons, search_cons, search_cons, frame_define tree inside]
    by_cases here : first = scope
    · have other : wanted ≠ name := fun same => apart same (reaches_cons.mpr (.inl here))
      rw [if_pos here, Frame.get?_define, if_neg other, ih fun same => absurd same other]
    · rw [if_neg here]
      cases own : (tree.frame first).get? wanted with
      | some bound => rw [Option.some_or, Option.some_or]
      | none =>
        refine congrArg _ (ih fun same further => apart same (reaches_cons.mpr (.inr ⟨?_, further⟩)))
        rw [← same, mirrors.undefined_iff, own]

/-- Every scope on a way is older than those before it, so none is passed twice. -/
theorem Mirrors.descends (mirrors : Mirrors history tree) (leads : Leads history scope way) :
    way.Pairwise (· > ·) ∧ ∀ passed ∈ way, passed ≤ scope := by
  induction leads with
  | root => simp
  | @outward inner outer way enclosed further ih =>
    have older := mirrors.older outer inner enclosed
    have smaller : ∀ passed ∈ way, passed < inner := fun passed member => Nat.lt_of_le_of_lt (ih.2 passed member) older
    refine ⟨List.pairwise_cons.mpr ⟨smaller, ih.1⟩, List.forall_mem_cons.mpr ⟨Nat.le_refl _, fun passed member => ?_⟩⟩
    exact Nat.le_of_lt (smaller passed member)

/-- What a tree of scopes answers about one of them, and what a definition anywhere changes about that. No answer
is `none`, which is apart from every value. -/
structure Answers (history : List (Change α)) (tree : Scope.Tree α) (scope : Nat) (ancestors : List Nat) : Prop where
  leads : Leads history scope (scope :: ancestors)
  proper : ∀ other, other ∈ ancestors ↔ Relation.TransGen (Encloses history) other scope
  apart : (scope :: ancestors).Nodup
  depth : tree.depth scope = ancestors.length
  found : ∀ name value, tree.get? scope name = some value ↔
    ∃ nearest, Reaches history name (scope :: ancestors) nearest ∧ Latest history nearest name value
  missing : ∀ name, tree.get? scope name = none ↔ ∀ passed ∈ scope :: ancestors, ¬ Defined history passed name
  names : ∀ name, name ∈ (tree.frame scope).names ↔ Defined history scope name
  changed : ∀ place < count history, ∀ name value, Reaches history name (scope :: ancestors) place →
    (tree.define place name value).get? scope name = some value
  unchanged : ∀ place < count history, ∀ name value other,
    (other = name → ¬ Reaches history name (scope :: ancestors) place) →
      (tree.define place name value).get? scope other = tree.get? scope other

/-- Every scope of a tree has a way to the root, and answers from the nearest definition on that way. -/
theorem scopes_answer (grows : Grows history tree) (existing : scope < count history) :
    ∃ ancestors, Answers history tree scope ancestors := by
  have mirrors := mirrors_of_grows grows
  have leads := mirrors.leads existing
  obtain ⟨ancestors, path⟩ : ∃ ancestors, tree.path scope = scope :: ancestors := by
    generalize tree.path scope = way at leads
    cases leads with
    | root => exact ⟨[], rfl⟩
    | outward => exact ⟨_, rfl⟩
  rw [path] at leads
  refine ⟨ancestors, leads, fun other => leads.proper, ?_, ?_, fun name value => ?_, fun name => ?_, fun name => ?_,
    fun place known name value reaches => ?_, fun place known name value other apart => ?_⟩
  · exact (mirrors.descends leads).1.imp Nat.ne_of_gt
  · rw [Scope.Tree.depth, path, List.length_cons, Nat.add_sub_cancel]
  · rw [Scope.Tree.get?, path, mirrors.search_iff]
  · rw [Scope.Tree.get?, path, mirrors.search_none]
  · rw [Frame.mem_names, mirrors.defined_iff]
  · rw [Scope.Tree.get?, mirrors.path_define known existing, path, mirrors.search_reached known reaches]
  · rw [Scope.Tree.get?, Scope.Tree.get?, mirrors.path_define known existing, path, mirrors.search_unreached known apart]

/-- A name of the root that a scope below it shadows, and a sibling of that scope. -/
def shadowing : List (Change Nat) :=
  [] ++ [.define 0 "a" 1] ++ [.child 0] ++ [.define 1 "a" 5] ++ [.child 1] ++ [.child 0] ++ [.define 0 "a" 3]

theorem scopes_answer_below_shadow : ∃ tree, Grows shadowing tree ∧ 2 < count shadowing ∧
    tree.get? 2 "a" = some 5 ∧ tree.get? 3 "a" = some 3 ∧ ∃ ancestors, Answers shadowing tree 2 ancestors := by
  have grows : Grows shadowing _ :=
    .change (.change (.change (.change (.change (.change .root (by decide)) (by decide)) (by decide)) (by decide))
      (by decide)) (by decide)
  exact ⟨_, grows, by decide, by decide +kernel, by decide +kernel, scopes_answer grows (by decide)⟩

end Lookups

end Reckoner.Proofs.ScopeLookup
