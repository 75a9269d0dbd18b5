import Interpose.Proofs.Locals
import Interpose.Source.Spelling

/-!
# Written words

A word of generated source stands for an identifier, with or without a sign in front. Parameters are
written as words for their names, and the locals of a method stand for themselves.
-/

namespace Interpose.Execution

/-- The identifier that a written word stands for. A reserved word is one only behind a sign. -/
def identified (word : String) : Option String :=
  if Spelling.reserved.contains word then none
  else
    match word.toList with
    | '@' :: rest => some (String.ofList rest)
    | _ => some word

theorem reserved_plain : ∀ word ∈ Spelling.reserved,
    word.toList.head? ≠ some '@' ∧ '_' ∉ word.toList := by decide +kernel

theorem identified_of_plain {word : String} (free : word ∉ Spelling.reserved)
    (unsigned : word.toList.head? ≠ some '@') : identified word = some word := by
  rw [identified, if_neg (by simpa using free)]
  split
  · rename_i rest spelled
    simp [spelled] at unsigned
  · rfl

theorem identified_identifier {name : String} (unsigned : name.toList.head? ≠ some '@') :
    identified (Spelling.identifier name) = some name := by
  rw [Spelling.identifier]
  split
  · have spelled : ("@" ++ name).toList = '@' :: name.toList := by simp
    have free : "@" ++ name ∉ Spelling.reserved := fun member =>
      (reserved_plain _ member).1 (by simp [spelled])
    simp [identified, free, spelled]
  · rename_i free
    exact identified_of_plain (by simpa using free) unsigned

theorem unsigned_of_identified {word : String} (spelled : identified word = some word) :
    word.toList.head? ≠ some '@' := by
  intro signed
  rw [identified] at spelled
  split at spelled
  · cases spelled
  · split at spelled
    · rename_i rest letters
      have shorter : rest = word.toList := by
        rw [← Option.some.inj spelled, String.toList_ofList]
      have := congrArg List.length (shorter.trans letters)
      simp at this
    · rename_i other
      obtain ⟨rest, letters⟩ := List.head?_eq_some_iff.mp signed
      exact other rest letters

theorem identified_numbered {base : String} (spelled : identified base = some base) (n : Nat) :
    identified (numbered base n) = some (numbered base n) := by
  cases n with
  | zero => exact spelled
  | succ n =>
    have letters : (numbered base (n + 1)).toList = base.toList ++ '_' :: (n + 1).repr.toList := by
      simp [numbered]
    refine identified_of_plain (fun member => (reserved_plain _ member).2 (by simp [letters])) ?_
    have unsigned := unsigned_of_identified spelled
    rw [letters]
    cases h : base.toList <;> simp_all

theorem identified_temporaryBase (index : Nat) (parameter : String) :
    identified (Locals.temporaryBase index parameter) =
      some (Locals.temporaryBase index parameter) := by
  have letters : ∃ rest, (Locals.temporaryBase index parameter).toList =
      't' :: 'e' :: 'm' :: 'p' :: '_' :: rest := by
    simp [Locals.temporaryBase]
  obtain ⟨rest, letters⟩ := letters
  exact identified_of_plain (fun member => (reserved_plain _ member).2 (by simp [letters]))
    (by simp [letters])

theorem identified_locals (parameters : List Parameter) :
    ∀ name ∈ (Locals.ofParameters parameters).names, identified name = some name := by
  have own : ∀ base ∈ Locals.ownBases, identified base = some base := by decide +kernel
  intro name member
  obtain ⟨base, n, rfl, known | ⟨position, parameter, _, rfl⟩⟩ := Locals.exists_base member
  · exact identified_numbered (own base known) n
  · exact identified_numbered (identified_temporaryBase position parameter.name) n

theorem ne_this_of_identified {word : String} (spelled : identified word = some word) :
    word ≠ "this" := by
  rintro rfl
  exact absurd spelled (by decide +kernel)

end Interpose.Execution
