import Interpose.Proofs.DottedNames
import Interpose.Proofs.Segments

/-!
# Runs

A segment is the runs of letters and numbers of a name with single underscores between them. So it
is a normal form of the name, and names have the same segment exactly where they have the same runs:
`segment_joins`.
-/

namespace Interpose.Text

/-- The longest pieces of a text that hold letters and numbers only, in order. -/
def runs (cs : List Char) : List (List Char) :=
  (cs.splitOnP fun c => !alphanumeric c).filter fun piece => !piece.isEmpty

theorem runs_append_gap (front back : List Char) {c : Char} (gap : alphanumeric c = false) :
    runs (front ++ c :: back) = runs front ++ runs back := by
  rw [runs, List.splitOnP_append_cons front back (by rw [gap]; rfl), List.filter_append]
  rfl

theorem runs_cons_gap {c : Char} (gap : alphanumeric c = false) (back : List Char) :
    runs (c :: back) = runs back := runs_append_gap [] back gap

theorem runs_concat_gap (front : List Char) {c : Char} (gap : alphanumeric c = false) :
    runs (front ++ [c]) = runs front :=
  (runs_append_gap front [] gap).trans (List.append_nil _)

theorem runs_letters {cs : List Char} (letters : ∀ c ∈ cs, alphanumeric c) (filled : cs ≠ []) :
    runs cs = [cs] := by
  have unsplit : cs.splitOnP (fun c => !alphanumeric c) = [cs] :=
    List.splitOnP_eq_singleton fun c member => by rw [letters c member]; rfl
  simp [runs, unsplit, filled]

theorem alphanumeric_underscore : alphanumeric '_' = false :=
  Bool.eq_false_iff.mpr fun letter => ne_underscore letter rfl

/-! ### The runs of a segment -/

theorem collapse_cons (c : Char) (cs : List Char) : collapse (c :: cs) =
    if c = '_' ∧ (collapse cs).head? = some '_' then collapse cs else c :: collapse cs := by
  rw [collapse]
  split
  · rename_i tail collapsed
    rw [collapsed, List.head?_cons]
    simp
  · rename_i other
    rw [if_neg]
    rintro ⟨_, first⟩
    obtain ⟨tail, collapsed⟩ := List.head?_eq_some_iff.mp first
    exact other tail collapsed

/-- A character of a name, or the underscore that stands for it. -/
def marked (c : Char) : Char := if alphanumeric c then c else '_'

theorem segment_eq (name : String) : (segment name).toList =
    trimUnderscores (collapse (name.toList.map marked)) := String.toList_ofList

theorem runs_collapse (front cs : List Char) :
    runs (front ++ collapse (cs.map marked)) = runs (front ++ cs) := by
  induction cs generalizing front with
  | nil => rfl
  | cons c cs ih =>
    rw [List.map_cons, collapse_cons, marked]
    cases letter : alphanumeric c with
    | true =>
      -- A letter belongs to a run that goes on behind it.
      have kept := ih (front ++ [c])
      rw [List.append_assoc, List.append_assoc] at kept
      rw [if_pos rfl, if_neg fun both => ne_underscore letter both.1]
      exact kept
    | false =>
      have behind : runs (collapse (cs.map marked)) = runs cs := ih []
      rw [if_neg Bool.false_ne_true, runs_append_gap front cs letter, ← behind]
      split
      · rename_i doubled
        obtain ⟨tail, collapsed⟩ := List.head?_eq_some_iff.mp doubled.2
        rw [collapsed, runs_append_gap front tail alphanumeric_underscore,
          runs_cons_gap alphanumeric_underscore]
      · exact runs_append_gap front _ alphanumeric_underscore

theorem runs_dropWhile (cs : List Char) : runs (cs.dropWhile (· == '_')) = runs cs := by
  induction cs with
  | nil => rfl
  | cons c cs ih =>
    rw [List.dropWhile_cons]
    split
    · rename_i underscore
      rw [ih, beq_iff_eq.mp underscore, runs_cons_gap alphanumeric_underscore]
    · rfl

theorem runs_rdropWhile (cs : List Char) : runs (cs.rdropWhile (· == '_')) = runs cs := by
  induction cs using List.reverseRecOn with
  | nil => rfl
  | append_singleton cs c ih =>
    rw [List.rdropWhile_concat]
    split
    · rename_i underscore
      rw [ih, beq_iff_eq.mp underscore, runs_concat_gap cs alphanumeric_underscore]
    · rfl

theorem runs_segment (name : String) : runs (segment name).toList = runs name.toList := by
  rw [segment_eq]
  exact (runs_rdropWhile _).trans ((runs_dropWhile _).trans (runs_collapse [] _))

/-! ### Joined runs -/

/-- Letters and numbers, with underscores that stand neither at an end nor beside one another. -/
structure Joined (cs : List Char) : Prop where
  letters : ∀ c ∈ cs, alphanumeric c ∨ c = '_'
  single : ¬ ['_', '_'] <:+: cs
  front : cs.head? ≠ some '_'
  back : cs.getLast? ≠ some '_'

theorem single_collapse (cs : List Char) : ¬ ['_', '_'] <:+: collapse cs := by
  induction cs with
  | nil => decide
  | cons c cs ih =>
    rw [collapse_cons]
    split
    · exact ih
    · rename_i apart
      intro doubled
      rcases List.infix_cons_iff.mp doubled with leading | inner
      · obtain ⟨same, next, spelled⟩ := List.cons_prefix_cons.mp leading
        exact apart ⟨same.symm, by rw [← spelled]; rfl⟩
      · exact ih inner

theorem trimUnderscores_within (cs : List Char) : trimUnderscores cs <:+: cs :=
  (List.rdropWhile_prefix _ _).isInfix.trans (List.dropWhile_suffix _).isInfix

theorem getLast?_trimUnderscores (cs : List Char) : (trimUnderscores cs).getLast? ≠ some '_' := by
  intro last
  have filled : trimUnderscores cs ≠ [] := by
    intro empty
    rw [empty] at last
    cases last
  have other : ¬ ((trimUnderscores cs).getLast filled == '_') :=
    List.rdropWhile_last_not (· == '_') (cs.dropWhile (· == '_')) filled
  rw [List.getLast?_eq_some_getLast filled] at last
  exact other (beq_iff_eq.mpr (Option.some.inj last))

theorem joined_segment (name : String) : Joined (segment name).toList where
  letters c member := by simpa [follows] using follows_of_mem_segment member
  single doubled := by
    rw [segment_eq] at doubled
    exact single_collapse _ (doubled.trans (trimUnderscores_within _))
  front first := by
    rw [head?_segment] at first
    exact absurd (List.find?_some first) (by simp [alphanumeric_underscore])
  back := segment_eq name ▸ getLast?_trimUnderscores _

theorem Joined.behind {front back : List Char} (joined : Joined (front ++ '_' :: back)) :
    Joined back where
  letters c member := joined.letters c (List.mem_append_right _ (List.mem_cons_of_mem _ member))
  single doubled := joined.single
    (doubled.trans ((List.suffix_cons _ _).trans (List.suffix_append _ _)).isInfix)
  front first := by
    obtain ⟨tail, rfl⟩ := List.head?_eq_some_iff.mp first
    exact joined.single ⟨front, tail, by simp⟩
  back last := joined.back (by simp [List.getLast?_append, List.getLast?_cons, last])

theorem intercalate_runs_append {front cs : List Char} (letters : ∀ c ∈ front, alphanumeric c)
    (joined : Joined (front ++ cs)) : ['_'].intercalate (runs (front ++ cs)) = front ++ cs := by
  induction cs generalizing front with
  | nil =>
    rw [List.append_nil]
    cases front with
    | nil => rfl
    | cons c front => rw [runs_letters letters (List.cons_ne_nil _ _), List.intercalate_singleton]
  | cons c cs ih =>
    rcases joined.letters c (by simp) with letter | rfl
    · rw [List.append_cons] at joined ⊢
      refine ih (List.forall_mem_append.mpr ⟨letters, ?_⟩) joined
      exact List.forall_mem_singleton.mpr letter
    · -- A run ends here. It is not empty, and neither is what stands behind the underscore.
      have begun : front ≠ [] := by
        rintro rfl
        exact joined.front rfl
      have rest : ['_'].intercalate (runs cs) = cs := ih (List.forall_mem_nil _) joined.behind
      have more : runs cs ≠ [] := by
        intro none
        rw [none] at rest
        obtain rfl : cs = [] := rest.symm
        exact joined.back (by simp)
      rw [runs_append_gap front cs alphanumeric_underscore, runs_letters letters begun,
        List.singleton_append, List.intercalate_cons_of_ne_nil more, rest, List.append_assoc]
      rfl

theorem Joined.intercalate_runs {cs : List Char} (joined : Joined cs) :
    ['_'].intercalate (runs cs) = cs := intercalate_runs_append (List.forall_mem_nil _) joined

theorem segment_eq_intercalate (name : String) :
    (segment name).toList = ['_'].intercalate (runs name.toList) := by
  rw [← runs_segment, (joined_segment name).intercalate_runs]

theorem segment_eq_self_iff (name : String) : segment name = name ↔ Joined name.toList := by
  constructor
  · intro same
    exact same ▸ joined_segment name
  · intro joined
    exact String.toList_injective ((segment_eq_intercalate name).trans joined.intercalate_runs)

theorem segment_eq_iff (name other : String) :
    segment name = segment other ↔ runs name.toList = runs other.toList := by
  constructor
  · intro same
    rw [← runs_segment name, same, runs_segment]
  · intro same
    apply String.toList_injective
    rw [segment_eq_intercalate, same, ← segment_eq_intercalate]

/-- A segment is a normal form: the runs of the name with single underscores between them. What has
this form stays as it is, and names are told apart by their runs alone. -/
theorem segment_joins (name : String) :
    Joined (segment name).toList ∧ alphanumeric '_' = false ∧
      runs (segment name).toList = runs name.toList ∧
      (segment name).toList = ['_'].intercalate (runs name.toList) ∧
      segment (segment name) = segment name ∧
      (segment name = name ↔ Joined name.toList) ∧
      ∀ other, segment name = segment other ↔ runs name.toList = runs other.toList :=
  ⟨joined_segment name, alphanumeric_underscore, runs_segment name, segment_eq_intercalate name,
    (segment_eq_self_iff _).mpr (joined_segment name), segment_eq_self_iff name,
    segment_eq_iff name⟩

example : runs "_IMap<K,  V2>".toList = ["IMap".toList, "K".toList, "V2".toList] := by
  decide +kernel

end Interpose.Text
