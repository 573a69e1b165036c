import Mathlib.Data.List.Forall2
import Reckoner.Fault

/-! Computations that may break down, taken apart: one after the other, and one for each item
of a list. -/

namespace Reckoner.Proofs.Computations

variable {α β : Type}

theorem bind_computed {part : Except Fault α} {next : α → Except Fault β} {result : β} :
    (part >>= next) = .ok result ↔ ∃ value, part = .ok value ∧ next value = .ok result := by
  cases part with
  | error fault => exact ⟨nofun, fun ⟨_, impossible, _⟩ => nomatch impossible⟩
  | ok value => exact ⟨fun rest => ⟨value, rfl, rest⟩, fun ⟨_, same, rest⟩ => by cases same; exact rest⟩

theorem mapped_bind {γ : Type} {part : Except Fault α} {change : α → β} {next : β → Except Fault γ} :
    part.map change >>= next = part >>= fun value => next (change value) := by
  cases part <;> rfl

theorem mapM_computed {part : α → Except Fault β} {items : List α} {results : List β} :
    items.mapM part = .ok results ↔ List.Forall₂ (fun item result => part item = .ok result) items results := by
  induction items generalizing results with
  | nil => exact ⟨fun same => by cases same; exact .nil, fun same => by cases same; rfl⟩
  | cons item rest ih =>
    rw [List.mapM_cons, bind_computed]
    simp only [bind_computed, ih]
    constructor
    · rintro ⟨result, here, others, later, same⟩
      cases same
      exact .cons here later
    · rintro (_ | ⟨here, later⟩)
      exact ⟨_, here, _, later, rfl⟩

theorem mapM_exists {part : α → Except Fault β} {items : List α} :
    (∃ results, items.mapM part = .ok results) ↔ ∀ item ∈ items, ∃ result, part item = .ok result := by
  induction items with
  | nil => simp [pure, Except.pure]
  | cons item rest ih =>
    rw [List.forall_mem_cons, ← ih, List.mapM_cons]
    simp only [bind_computed]
    constructor
    · rintro ⟨_, result, here, others, later, -⟩
      exact ⟨⟨result, here⟩, others, later⟩
    · rintro ⟨⟨result, here⟩, others, later⟩
      exact ⟨_, result, here, others, later, rfl⟩

theorem mapM_answers {part : α → Except Fault β} {answer : α → β} {items : List α}
    (each : ∀ item, part item = .ok (answer item)) : items.mapM part = .ok (items.map answer) := by
  rw [mapM_computed, List.forall₂_map_right_iff, List.forall₂_same]
  exact fun item _ => each item

theorem mapM_refused {part : α → Except Fault β} {fault : Fault} {items : List α} (filled : items ≠ [])
    (each : ∀ item, part item = .error fault) : items.mapM part = .error fault := by
  cases items with
  | nil => exact absurd rfl filled
  | cons first rest =>
    rw [List.mapM_cons, each first]
    rfl

end Reckoner.Proofs.Computations
