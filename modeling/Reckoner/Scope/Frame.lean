/-! A frame binds names to values, each name once, in the order in which the names were
first bound. -/

namespace Reckoner

structure Frame (α : Type) where
  bindings : List (String × α)

namespace Frame

variable {α : Type}

def empty : Frame α := ⟨[]⟩

def get? (frame : Frame α) (name : String) : Option α := frame.bindings.lookup name

/-- Names bound in this frame. -/
def names (frame : Frame α) : List String := frame.bindings.map Prod.fst

/-- Replaces a binding where it stands, or adds it at the end. -/
def put (name : String) (value : α) : List (String × α) → List (String × α)
  | [] => [(name, value)]
  | binding :: rest =>
    if binding.1 = name then (name, value) :: rest else binding :: put name value rest

def define (frame : Frame α) (name : String) (value : α) : Frame α :=
  ⟨put name value frame.bindings⟩

/-- Binds one name after another; of a repeated name the last binding stays. -/
def defineAll (frame : Frame α) (bindings : List (String × α)) : Frame α :=
  bindings.foldl (fun frame binding => frame.define binding.1 binding.2) frame

/-- The names in ascending order of their characters. -/
def sortedNames (frame : Frame α) : List String :=
  frame.names.mergeSort fun a b => decide (a ≤ b)

@[simp] theorem get?_empty (name : String) : (empty : Frame α).get? name = none := rfl

theorem lookup_binding (name other : String) (value : α) (rest : List (String × α)) :
    List.lookup other ((name, value) :: rest) = if other = name then some value else rest.lookup other := by
  by_cases same : other = name
  · simp [same]
  · simp [List.lookup_cons, beq_false_of_ne same, same]

theorem lookup_put (name other : String) (value : α) (bindings : List (String × α)) :
    (put name value bindings).lookup other = if other = name then some value else bindings.lookup other := by
  induction bindings with
  | nil => simp [put, lookup_binding]
  | cons binding rest ih =>
    obtain ⟨key, bound⟩ := binding
    by_cases here : key = name
    · by_cases same : other = name <;> simp [put, here, lookup_binding, same]
    · by_cases same : other = name
      · subst same
        simpa [put, here, lookup_binding, Ne.symm here] using ih
      · simp [put, here, lookup_binding, ih, same]

theorem get?_define (frame : Frame α) (name other : String) (value : α) :
    (frame.define name value).get? other = if other = name then some value else frame.get? other :=
  lookup_put name other value frame.bindings

theorem mem_names (frame : Frame α) (name : String) : name ∈ frame.names ↔ ∃ value, frame.get? name = some value := by
  obtain ⟨bindings⟩ := frame
  change name ∈ bindings.map Prod.fst ↔ ∃ value, bindings.lookup name = some value
  induction bindings with
  | nil => exact ⟨nofun, fun ⟨_, found⟩ => nomatch found⟩
  | cons binding rest ih =>
    obtain ⟨key, bound⟩ := binding
    rw [List.map_cons, List.mem_cons, lookup_binding]
    by_cases here : name = key
    · simp [here]
    · simpa [here] using ih

end Frame

end Reckoner
