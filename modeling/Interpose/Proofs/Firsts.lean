import Interpose.Surface
import Mathlib.Data.List.Forall2
import Mathlib.Data.List.Induction
import Mathlib.Data.List.Nodup

/-!
# First elements

Of the elements of one key the first is kept. No key is lost, and none is kept twice: `keepsFirst`.
-/

namespace Interpose

theorem eraseDups_concat {α : Type} [BEq α] [LawfulBEq α] (xs : List α) (x : α) :
    (xs ++ [x]).eraseDups = if x ∈ xs.eraseDups then xs.eraseDups else xs.eraseDups ++ [x] := by
  rw [List.eraseDups_append, List.removeAll]
  by_cases known : x ∈ xs
  · rw [if_pos (List.mem_eraseDups.mpr known), List.filter_cons_of_neg (by simpa using known)]
    simp
  · rw [if_neg (mt List.mem_eraseDups.mp known), List.filter_cons_of_pos (by simpa using known)]
    rfl

theorem eraseDups_nodup {α : Type} [BEq α] [LawfulBEq α] (xs : List α) : xs.eraseDups.Nodup := by
  induction xs using List.reverseRecOn with
  | nil => exact List.nodup_nil
  | append_singleton xs x ih =>
    rw [eraseDups_concat]
    split
    · exact ih
    · rename_i fresh
      rw [← List.concat_eq_append]
      exact ih.concat fresh

section

variable {α β γ : Type} [DecidableEq β] {key : α → β} {own : γ → β} {seen : List β}
variable {xs : List α} {ys : List γ} {related : γ → α → Prop}

theorem firstByKey_sublist (key : α → β) (seen : List β) (xs : List α) :
    (firstByKey key seen xs).Sublist xs := by
  fun_induction firstByKey key seen xs with
  | case1 => exact .slnil
  | case2 seen x rest known ih => exact ih.cons x
  | case3 seen x rest fresh ih => exact ih.cons_cons x

theorem mem_keys_firstByKey {here : β} :
    here ∈ (firstByKey key seen xs).map key ↔ here ∈ xs.map key ∧ here ∉ seen := by
  fun_induction firstByKey key seen xs with
  | case1 => simp
  | case2 seen x rest known ih =>
    rw [ih, List.map_cons, List.mem_cons]
    grind
  | case3 seen x rest fresh ih =>
    rw [List.map_cons, List.mem_cons, ih, List.map_cons, List.mem_cons, List.mem_cons]
    grind

theorem keys_firstByKey_nodup (key : α → β) (seen : List β) (xs : List α) :
    ((firstByKey key seen xs).map key).Nodup := by
  fun_induction firstByKey key seen xs with
  | case1 => exact List.nodup_nil
  | case2 seen x rest known ih => exact ih
  | case3 seen x rest fresh ih =>
    refine List.nodup_cons.mpr ⟨fun again => ?_, ih⟩
    exact (mem_keys_firstByKey.mp again).2 List.mem_cons_self

/-- Elements that stand for others, key by key, are first where those are. -/
theorem firstByKey_forall₂ (same : ∀ y x, related y x → own y = key x)
    (pairwise : List.Forall₂ related ys xs) :
    List.Forall₂ related (firstByKey own seen ys) (firstByKey key seen xs) := by
  induction pairwise generalizing seen with
  | nil => exact .nil
  | @cons y x ys xs here _ ih =>
    rw [firstByKey, firstByKey, same y x here]
    split
    · exact ih
    · exact .cons here ih

variable [BEq β] [LawfulBEq β]

/-- The library's removal of repetitions, with the keys that were seen before taken out. -/
theorem firstByKey_eq (key : α → β) (seen : List β) (xs : List α) :
    firstByKey key seen xs =
      (xs.filter fun x => key x ∉ seen).eraseDupsBy fun one two => key one == key two := by
  fun_induction firstByKey key seen xs with
  | case1 => rfl
  | case2 seen x rest known ih =>
    rw [ih, List.filter_cons_of_neg (by simpa using known)]
  | case3 seen x rest fresh ih =>
    rw [ih, List.filter_cons_of_pos (by simpa using fresh), List.eraseDupsBy_cons,
      List.filter_filter]
    congr 3
    funext y
    simp [Bool.decide_and, not_or]

theorem firstByKey_nil (key : α → β) (xs : List α) :
    firstByKey key [] xs = xs.eraseDupsBy fun one two => key one == key two := by
  rw [firstByKey_eq, List.filter_eq_self.mpr (by simp)]

theorem find?_of_mem_firstByKey {x : α} (kept : x ∈ firstByKey key seen xs) :
    xs.find? (fun other => key other == key x) = some x := by
  have fresh {here : List β} {others : List α} (member : x ∈ firstByKey key here others) :
      key x ∉ here :=
    (mem_keys_firstByKey.mp (List.mem_map_of_mem member)).2
  -- What is passed over on the way to a kept element has another key: its own was not seen yet.
  fun_induction firstByKey key seen xs with
  | case1 => cases kept
  | case2 seen head rest known ih =>
    have apart : (key head == key x) = false :=
      beq_eq_false_iff_ne.mpr fun same => fresh kept (same ▸ known)
    rw [List.find?_cons, apart]
    exact ih kept
  | case3 seen head rest _ ih =>
    rcases List.mem_cons.mp kept with rfl | kept
    · exact List.find?_cons_of_pos (beq_self_eq_true _)
    · have apart : (key head == key x) = false :=
        beq_eq_false_iff_ne.mpr fun same => fresh kept (same ▸ List.mem_cons_self)
      rw [List.find?_cons, apart]
      exact ih kept

theorem map_eraseDupsBy (key : α → β) (xs : List α) :
    (xs.eraseDupsBy fun one two => key one == key two).map key = (xs.map key).eraseDups := by
  have keyed : List.Forall₂ (fun x here => key x = here) (firstByKey key [] xs)
      (firstByKey id [] (xs.map key)) :=
    firstByKey_forall₂ (fun _ _ same => same)
      (List.forall₂_map_right_iff.mpr (List.forall₂_same.mpr fun _ _ => rfl))
  rw [firstByKey_nil, firstByKey_nil, ← List.forall₂_map_left_iff, List.forall₂_eq_eq_eq] at keyed
  exact keyed

/-- The kept elements stand for the first ones of each key, in order. No key is lost, and none is
kept twice. -/
structure KeepsFirst (related : γ → α → Prop) (own : γ → β) (key : α → β) (all : List γ)
    (kept : List α) : Prop where
  firsts : List.Forall₂ related (all.eraseDupsBy fun one two => own one == own two) kept
  distinct : (kept.map key).Nodup
  complete : ∀ y ∈ all, own y ∈ kept.map key

theorem keepsFirst (same : ∀ y x, related y x → own y = key x)
    (pairwise : List.Forall₂ related ys xs) :
    KeepsFirst related own key ys (firstByKey key [] xs) := by
  have firsts : List.Forall₂ related (firstByKey own [] ys) (firstByKey key [] xs) :=
    firstByKey_forall₂ same pairwise
  refine ⟨firstByKey_nil own ys ▸ firsts, keys_firstByKey_nodup key [] xs, fun y member => ?_⟩
  have keys : ys.map own = xs.map key :=
    List.forall₂_eq_eq_eq ▸ List.forall₂_map_left_iff.mpr
      (List.forall₂_map_right_iff.mpr (pairwise.imp same))
  refine mem_keys_firstByKey.mpr ⟨?_, List.not_mem_nil⟩
  rw [← keys]
  exact List.mem_map_of_mem member

omit [DecidableEq β] [LawfulBEq β] in
theorem KeepsFirst.apart {all : List γ} {kept : List α}
    (keeps : KeepsFirst related own key all kept) {y z : γ} (first : y ∈ all) (second : z ∈ all)
    (differ : own y ≠ own z) :
    ∃ one ∈ kept, ∃ two ∈ kept, one ≠ two ∧ key one = own y ∧ key two = own z := by
  obtain ⟨one, one_kept, one_key⟩ := List.mem_map.mp (keeps.complete y first)
  obtain ⟨two, two_kept, two_key⟩ := List.mem_map.mp (keeps.complete z second)
  refine ⟨one, one_kept, two, two_kept, ?_, one_key, two_key⟩
  rintro rfl
  exact differ (one_key.symm.trans two_key)

end

end Interpose
