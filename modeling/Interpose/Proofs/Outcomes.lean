import Mathlib.Data.List.Forall2

/-!
# Outcomes

An action succeeds with a value or fails with a problem. A list of actions fails with the problem of
the first that fails: `mapM_eq_error`.
-/

namespace Interpose

theorem bind_eq_ok {ε α β : Type} {action : Except ε α} {next : α → Except ε β} {result : β}
    (succeeds : (action >>= next) = .ok result) :
    ∃ value, action = .ok value ∧ next value = .ok result := by
  cases action with
  | error problem => cases succeeds
  | ok value => exact ⟨value, rfl, succeeds⟩

/-- What follows an action has to agree only where the action succeeds. -/
theorem bind_congr_of_ok {ε α β : Type} {action : Except ε α} {next other : α → Except ε β}
    (same : ∀ value, action = .ok value → next value = other value) :
    action >>= next = action >>= other := by
  cases action with
  | error problem => rfl
  | ok value => exact same value rfl

theorem map_eq_error {ε α β : Type} {action : Except ε α} {work : α → β} {problem : ε} :
    action.map work = .error problem ↔ action = .error problem := by
  cases action <;> simp [Except.map]

theorem mapM_ok {ε α β : Type} {work : α → Except ε β} {xs : List α}
    (each : ∀ x ∈ xs, ∃ y, work x = .ok y) : ∃ ys, xs.mapM work = .ok ys := by
  induction xs with
  | nil => exact ⟨[], rfl⟩
  | cons x xs ih =>
    obtain ⟨y, first⟩ := each x List.mem_cons_self
    obtain ⟨ys, rest⟩ := ih fun other member => each other (List.mem_cons_of_mem x member)
    refine ⟨y :: ys, ?_⟩
    rw [List.mapM_cons, first, rest]
    rfl

theorem mapM_eq_ok {ε α β : Type} {work : α → Except ε β} {xs : List α} {ys : List β}
    (made : xs.mapM work = .ok ys) : List.Forall₂ (fun x y => work x = .ok y) xs ys := by
  induction xs generalizing ys with
  | nil =>
    cases made
    exact .nil
  | cons x xs ih =>
    rw [List.mapM_cons] at made
    obtain ⟨y, first, made⟩ := bind_eq_ok made
    obtain ⟨others, rest, made⟩ := bind_eq_ok made
    cases made
    exact .cons first (ih rest)

theorem mapM_congr_left {ε α β : Type} {work other : α → Except ε β} {xs : List α}
    (same : ∀ x ∈ xs, work x = other x) : xs.mapM work = xs.mapM other := by
  induction xs with
  | nil => rfl
  | cons x xs ih =>
    obtain ⟨here, others⟩ := List.forall_mem_cons.mp same
    rw [List.mapM_cons, List.mapM_cons, here, ih others]

theorem mapM_eq_error {ε α β : Type} {work : α → Except ε β} {xs : List α} {problem : ε} :
    xs.mapM work = .error problem ↔ ∃ before x after, xs = before ++ x :: after ∧
      (∀ earlier ∈ before, ∃ y, work earlier = .ok y) ∧ work x = .error problem := by
  constructor
  · intro failed
    induction xs with
    | nil => cases failed
    | cons x xs ih =>
      rw [List.mapM_cons] at failed
      cases first : work x with
      | error other =>
        rw [first] at failed
        cases failed
        exact ⟨[], x, xs, rfl, by simp, first⟩
      | ok y =>
        rw [first] at failed
        cases rest : xs.mapM work with
        | error other =>
          rw [rest] at failed
          cases failed
          obtain ⟨before, z, after, rfl, succeeds, fails⟩ := ih rest
          exact ⟨x :: before, z, after, rfl, List.forall_mem_cons.mpr ⟨⟨y, first⟩, succeeds⟩, fails⟩
        | ok ys =>
          rw [rest] at failed
          cases failed
  · rintro ⟨before, x, after, rfl, succeeds, fails⟩
    obtain ⟨ys, made⟩ := mapM_ok succeeds
    rw [List.mapM_append, made, List.mapM_cons, fails]
    rfl

end Interpose
