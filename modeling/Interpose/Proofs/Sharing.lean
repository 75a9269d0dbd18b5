import Interpose.Proofs.Interleaving

/-!
# Shared work

A fan-out cuts its items into contiguous pieces, no more of them than it may have workers, and puts
the results of the workers together in order. In whatever order the workers take their turns, that
gives what comes out without them: `FanOut.run_shared`.
-/

namespace Interpose

/-! ### Pieces -/

section

variable {α : Type} {size : Nat}

/-- A list in contiguous pieces of that size, of which only the last may be shorter, but not
empty. -/
structure Cut (size : Nat) (items : List α) (pieces : List (List α)) : Prop where
  positive : 0 < size
  whole : pieces.flatten = items
  filled : ∀ piece ∈ pieces, piece ≠ []
  placed : ∀ {index piece}, pieces[index]? = some piece →
    piece = (items.drop (index * size)).take size

theorem getElem?_chunksOf (positive : 0 < size) (items : List α) (index : Nat) :
    (chunksOf size items)[index]? =
      if index * size < items.length then some ((items.drop (index * size)).take size)
      else none := by
  fun_induction chunksOf size items generalizing index with
  | case1 items done =>
    have empty : items = [] := by simpa using done.resolve_left (Nat.ne_of_gt positive)
    simp [empty]
  | case2 items more ih =>
    rw [not_or, List.isEmpty_iff] at more
    have some := List.length_pos_of_ne_nil more.2
    cases index with
    | zero => simp [some]
    | succ index =>
      have inside : index * size < items.length - size ↔ (index + 1) * size < items.length := by
        rw [Nat.succ_mul]
        omega
      rw [List.getElem?_cons_succ, ih, List.length_drop, List.drop_drop, Nat.succ_mul,
        Nat.add_comm size, ← Nat.succ_mul]
      exact if_congr inside rfl rfl

theorem cut_chunksOf (positive : 0 < size) (items : List α) :
    Cut size items (chunksOf size items) where
  positive := positive
  whole := chunksOf_flatten positive items
  filled := by
    intro piece member
    obtain ⟨index, found⟩ := List.mem_iff_getElem?.mp member
    rw [getElem?_chunksOf positive] at found
    split at found
    · rename_i inside
      rw [← Option.some.inj found, List.ne_nil_iff_length_pos, List.length_take, List.length_drop]
      omega
    · cases found
  placed := by
    intro index piece found
    rw [getElem?_chunksOf positive] at found
    split at found
    · exact (Option.some.inj found).symm
    · cases found

theorem length_chunksOf_le (positive : 0 < size) {items : List α} {count : Nat}
    (enough : items.length ≤ count * size) : (chunksOf size items).length ≤ count := by
  rw [← List.getElem?_eq_none_iff, getElem?_chunksOf positive, if_neg (Nat.not_lt.mpr enough)]

end

/-! ### Turns -/

namespace Crew

variable {β : Type} {turns : Nat} {crew last : Crew β}

/-- What happens to a crew that nobody stops, in so many turns. -/
inductive Turns (crew : Crew β) : Nat → Crew β → Prop
  | start : Turns crew 0 crew
  | next {turns : Nat} {before after : Crew β} {point : Checkpoint}
      (reached : Turns crew turns before) (turn : Turn false before point after) :
      Turns crew (turns + 1) after

/-- Each turn does one piece of work that was waiting. -/
theorem Turns.length_points (reached : Turns crew turns last) :
    last.points.length + turns = crew.points.length := by
  induction reached with
  | start => rfl
  | next _ turn ih =>
    have fewer := turn.points.length_eq
    rw [List.length_cons] at fewer
    omega

theorem Turns.outcome (reached : Turns crew turns last) (processors : Nat) :
    last.outcome (.steady processors false) = crew.outcome (.steady processors false) := by
  induction reached with
  | start => rfl
  | next _ turn ih => rw [turn.outcome rfl, ih]

theorem exists_turns (enough : turns ≤ crew.points.length) : ∃ last, Turns crew turns last := by
  induction turns with
  | zero => exact ⟨crew, .start⟩
  | succ turns ih =>
    obtain ⟨last, reached⟩ := ih (Nat.le_of_succ_le enough)
    have left := reached.length_points
    have busy : last.points ≠ [] := by
      intro idle
      rw [idle, List.length_nil] at left
      omega
    obtain ⟨_, next, turn⟩ := exists_turn false busy
    exact ⟨next, .next reached turn⟩

end Crew

namespace FanOut

variable {α β : Type}

theorem workers_mul_share (processors : Nat) (items : Nat) :
    items ≤ workers processors items * share processors items := by
  have atLeastOne : 1 ≤ workers processors items := Nat.le_max_left ..
  have divided := Nat.div_add_mod (items + workers processors items - 1) (workers processors items)
  have rest := Nat.mod_lt (items + workers processors items - 1) atLeastOne
  rw [← share] at divided
  omega

theorem length_shares_le (processors : Nat) {items : List α} (several : 1 < items.length) :
    (shares processors items).length ≤ workers processors items.length :=
  length_chunksOf_le (share_pos (Nat.lt_of_succ_lt several) processors)
    (workers_mul_share processors items.length)

variable {processors : Nat} {point : Nat → Checkpoint} {work : α → β} {items : List α}
variable {crew : Crew β}

theorem length_points_start :
    (Crew.start true processors point work items).points.length = items.length := by
  rw [Crew.points_start, List.length_map, List.length_range]

/-- What the workers have in order, when all work is done, are the results of the items in order. -/
theorem results_of_turns
    (reached : Crew.Turns (.start true processors point work items) items.length crew) :
    crew.results = .ok (items.map work) := by
  have left := reached.length_points
  rw [length_points_start] at left
  have idle : crew.points = [] := List.eq_nil_of_length_eq_zero (by omega)
  -- The outcome is what a turn keeps. An idle crew has it already, and at the start it is that of
  -- the walk over the items.
  have joined : crew.outcome (.steady processors false) = crew.results := Crew.outcome_idle idle
  rw [← joined, reached.outcome processors]
  exact (Crew.outcome_start (.steady processors false) true point work items).trans
    (Environment.walk_uncancelled (fun _ => rfl) point work items)

/-- Sharing out the work changes nothing of its results, of which there is one for each item, in the
order of the items. More than one item is cut into pieces that are contiguous and not empty, and
there are no more pieces than there may be workers. The workers have done all work after as many
turns as there are items, whoever takes them, and what they have then, in order, is the result. -/
theorem run_shared (processors : Nat) (work : α → β) (items : List α) :
    run true processors work items = run false processors work items ∧
    (∀ index : Nat, (run true processors work items)[index]? = items[index]?.map work) ∧
    (1 < items.length →
      Cut (share processors items.length) items (shares processors items) ∧
      (shares processors items).length ≤ max 1 (min processors items.length)) ∧
    ∀ point : Nat → Checkpoint,
      (∀ turns, (∃ crew, Crew.Turns (.start true processors point work items) turns crew) ↔
        turns ≤ items.length) ∧
      ∀ crew, Crew.Turns (.start true processors point work items) items.length crew →
        crew.results = .ok (run false processors work items) := by
  refine ⟨?_, fun index => ?_, fun several => ⟨?_, ?_⟩, fun point => ⟨fun turns => ⟨?_, ?_⟩, ?_⟩⟩
  · rw [run_eq_map, run_eq_map]
  · rw [run_eq_map, List.getElem?_map]
  · exact cut_chunksOf (share_pos (Nat.lt_of_succ_lt several) processors) items
  · exact length_shares_le processors several
  · rintro ⟨crew, reached⟩
    have left := reached.length_points
    rw [length_points_start] at left
    omega
  · intro enough
    exact Crew.exists_turns (enough.trans_eq length_points_start.symm)
  · intro crew reached
    rw [run_eq_map]
    exact results_of_turns reached

/-- Five items for four processors: three workers, of whom the last one has less to do. -/
theorem run_shared_five : ∃ crew : Crew Nat,
    shares 4 [3, 1, 4, 1, 5] = [[3, 1], [4, 1], [5]] ∧
      Cut 2 [3, 1, 4, 1, 5] (shares 4 [3, 1, 4, 1, 5]) ∧
      Crew.Turns (.start true 4 .plan (· * 2) [3, 1, 4, 1, 5]) 5 crew ∧
      crew.results = .ok [6, 2, 8, 2, 10] := by
  obtain ⟨_, _, cut, crews⟩ := run_shared 4 (· * 2) [3, 1, 4, 1, 5]
  obtain ⟨reaches, results⟩ := crews .plan
  obtain ⟨crew, reached⟩ := (reaches 5).mpr (by decide)
  refine ⟨crew, ?_, (cut (by decide)).1, reached, results crew reached⟩
  simp [shares, share, workers, chunksOf]

end FanOut

end Interpose
