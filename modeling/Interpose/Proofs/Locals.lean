import Interpose.Proxy.Locals
import Mathlib.Data.List.Nodup
import Mathlib.Data.List.Perm.Subperm
import Std.Data.String.ToNat

/-!
# Fresh locals

`freeName_spec` says which name is chosen, `ofParameters_nodup` that no two locals of a method and
no local and parameter share one.
-/

namespace Interpose

theorem numbered_injective (base : String) : Function.Injective (numbered base) := by
  have longer (n : Nat) : base ≠ base ++ "_" ++ (n + 1).repr := by
    intro same
    have lengths := congrArg String.length same
    rw [String.length_append, String.length_append] at lengths
    have : "_".length = 1 := rfl
    omega
  intro m n same
  cases m with
  | zero =>
    cases n with
    | zero => rfl
    | succ n => exact absurd same (longer n)
  | succ m =>
    cases n with
    | zero => exact absurd same.symm (longer m)
    | succ n => exact Nat.repr_injective ((String.append_right_inj _).mp same)

theorem firstFree_spec (taken : List String) (base : String) (n attempts : Nat) :
    ∃ m, n ≤ m ∧ m ≤ n + attempts ∧ firstFree taken base n attempts = numbered base m ∧
      (∀ k, n ≤ k → k < m → numbered base k ∈ taken) ∧
      (m < n + attempts → numbered base m ∉ taken) := by
  induction attempts generalizing n with
  | zero => exact ⟨n, Nat.le_refl n, Nat.le_refl n, rfl, by omega, by omega⟩
  | succ attempts ih =>
    rw [firstFree]
    split
    · rename_i occupied
      obtain ⟨m, above, below, found, before, free⟩ := ih (n + 1)
      refine ⟨m, by omega, by omega, found, ?_, fun bound => free (by omega)⟩
      intro k start stop
      rcases Nat.eq_or_lt_of_le start with rfl | start
      · exact occupied
      · exact before k start stop
    · rename_i vacant
      exact ⟨n, Nat.le_refl n, by omega, rfl, by omega, fun _ => vacant⟩

/-- More names than are taken cannot all be taken. -/
theorem numbered_not_all_taken (taken : List String) (base : String) :
    ∃ k ≤ taken.length, numbered base k ∉ taken := by
  by_contra none
  push Not at none
  have distinct : ((List.range (taken.length + 1)).map (numbered base)).Nodup :=
    List.nodup_range.map (numbered_injective base)
  have inside : (List.range (taken.length + 1)).map (numbered base) ⊆ taken := by
    intro name member
    obtain ⟨k, bound, rfl⟩ := List.mem_map.mp member
    exact none k (by have := List.mem_range.mp bound; omega)
  have := (distinct.subperm inside).length_le
  rw [List.length_map, List.length_range] at this
  omega

theorem freeName_spec (taken : List String) (base : String) :
    ∃ m ≤ taken.length, freeName taken base = numbered base m ∧ numbered base m ∉ taken ∧
      ∀ k < m, numbered base k ∈ taken := by
  obtain ⟨m, _, bound, found, before, free⟩ := firstFree_spec taken base 0 taken.length
  rw [Nat.zero_add] at bound free
  refine ⟨m, bound, found, ?_, fun k below => before k (Nat.zero_le k) below⟩
  obtain ⟨k, within, vacant⟩ := numbered_not_all_taken taken base
  rcases Nat.lt_or_ge m taken.length with inner | last
  · exact free inner
  · -- All names before the last attempt are taken, so the vacant one is the last.
    have reached : m = k := by
      by_contra other
      exact vacant (before k (Nat.zero_le k) (by omega))
    exact reached ▸ vacant

theorem freeName_not_mem (taken : List String) (base : String) : freeName taken base ∉ taken := by
  obtain ⟨m, _, found, free, _⟩ := freeName_spec taken base
  exact found ▸ free

/-- Names for one word after the other, each chosen against all before it. -/
def freeNames (taken : List String) : List String → List String
  | [] => []
  | base :: bases => freeName taken base :: freeNames (freeName taken base :: taken) bases

theorem freeNames_fresh (taken bases : List String) :
    ∀ name ∈ freeNames taken bases, name ∉ taken := by
  induction bases generalizing taken with
  | nil => simp [freeNames]
  | cons base bases ih =>
    intro name member
    rcases List.mem_cons.mp member with rfl | member
    · exact freeName_not_mem taken base
    · exact fun bound => ih _ name member (List.mem_cons_of_mem _ bound)

theorem freeNames_nodup (taken bases : List String) : (freeNames taken bases).Nodup := by
  induction bases generalizing taken with
  | nil => exact List.nodup_nil
  | cons base bases ih =>
    -- The names behind it were chosen with it among the taken names.
    refine List.nodup_cons.mpr ⟨fun repeated => ?_, ih _⟩
    exact freeNames_fresh _ _ _ repeated List.mem_cons_self

theorem exists_numbered {taken bases : List String} {name : String}
    (member : name ∈ freeNames taken bases) : ∃ base ∈ bases, ∃ n, name = numbered base n := by
  induction bases generalizing taken with
  | nil => cases member
  | cons base bases ih =>
    rcases List.mem_cons.mp member with rfl | member
    · obtain ⟨n, _, found, _⟩ := freeName_spec taken base
      exact ⟨base, List.mem_cons_self, n, found⟩
    · obtain ⟨other, listed, n, found⟩ := ih member
      exact ⟨other, List.mem_cons_of_mem base listed, n, found⟩

namespace Locals

def given (temporaries : List (Option String)) : List String := temporaries.filterMap id

@[simp] theorem given_nil : given [] = [] := rfl

@[simp] theorem given_some (name : String) (temporaries : List (Option String)) :
    given (some name :: temporaries) = name :: given temporaries := rfl

@[simp] theorem given_none (temporaries : List (Option String)) :
    given (none :: temporaries) = given temporaries := rfl

/-- All names that the locals bring into a method. -/
def names (locals : Locals) : List String :=
  locals.context :: locals.result :: locals.closureParameter :: locals.innerResult ::
    locals.underlyingField :: given locals.temporaries

/-- The words from which the locals that every method has take their names. -/
def ownBases : List String := [
  "methodContext", "interceptorInvocationResult", "context", "localResult",
  "underlyingImplementation"]

/-- The words from which variables for parameters take their names. -/
def temporaryBases (index : Nat) : List Parameter → List String
  | [] => []
  | parameter :: rest =>
    if parameter.mode.needsTemporary then
      temporaryBase index parameter.name :: temporaryBases (index + 1) rest
    else temporaryBases (index + 1) rest

theorem exists_of_mem_temporaryBases {index : Nat} {parameters : List Parameter} {base : String}
    (member : base ∈ temporaryBases index parameters) :
    ∃ position, ∃ parameter ∈ parameters, base = temporaryBase position parameter.name := by
  induction parameters generalizing index with
  | nil => cases member
  | cons parameter rest ih =>
    have behind (inside : base ∈ temporaryBases (index + 1) rest) : ∃ position,
        ∃ other ∈ parameter :: rest, base = temporaryBase position other.name := by
      obtain ⟨position, other, listed, same⟩ := ih inside
      exact ⟨position, other, List.mem_cons_of_mem _ listed, same⟩
    rw [temporaryBases] at member
    split at member
    · rcases List.mem_cons.mp member with rfl | member
      · exact ⟨index, parameter, List.mem_cons_self, rfl⟩
      · exact behind member
    · exact behind member

theorem given_temporariesFrom (taken : List String) (index : Nat) (parameters : List Parameter) :
    given (temporariesFrom taken index parameters) =
      freeNames taken (temporaryBases index parameters) := by
  induction parameters generalizing taken index with
  | nil => rfl
  | cons parameter rest ih =>
    rw [temporariesFrom, temporaryBases]
    split
    · rw [given_some, ih, freeNames]
    · rw [given_none, ih]

/-- The locals of a method are chosen one after the other, the first against its parameters. -/
theorem names_eq (parameters : List Parameter) : (ofParameters parameters).names =
    freeNames (parameters.map (·.name)) (ownBases ++ temporaryBases 0 parameters) := by
  rw [names, ofParameters]
  dsimp only
  rw [given_temporariesFrom]
  rfl

/-- Every local is a numbered word, one of its own or one that a parameter gives it. -/
theorem exists_base {parameters : List Parameter} {name : String}
    (member : name ∈ (ofParameters parameters).names) : ∃ base n, name = numbered base n ∧
      (base ∈ ownBases ∨
        ∃ position, ∃ parameter ∈ parameters, base = temporaryBase position parameter.name) := by
  rw [names_eq] at member
  obtain ⟨base, listed, n, found⟩ := exists_numbered member
  exact ⟨base, n, found, (List.mem_append.mp listed).imp_right exists_of_mem_temporaryBases⟩

theorem temporariesFrom_length (taken : List String) (index : Nat) (parameters : List Parameter) :
    (temporariesFrom taken index parameters).length = parameters.length := by
  induction parameters generalizing taken index with
  | nil => rfl
  | cons parameter rest ih =>
    rw [temporariesFrom]
    split <;> simp [ih]

theorem temporariesFrom_isSome (taken : List String) (index : Nat) (parameters : List Parameter) :
    ∀ row ∈ parameters.zip (temporariesFrom taken index parameters),
      row.2.isSome = row.1.mode.needsTemporary := by
  induction parameters generalizing taken index with
  | nil => simp
  | cons parameter rest ih =>
    rw [temporariesFrom]
    split
    · rename_i needed
      intro row member
      rcases List.mem_cons.mp member with rfl | member
      · simp [needed]
      · exact ih _ _ row member
    · rename_i needless
      intro row member
      rcases List.mem_cons.mp member with rfl | member
      · simpa using needless
      · exact ih _ _ row member

theorem temporariesFrom_nodup (taken : List String) (index : Nat) (parameters : List Parameter) :
    (given (temporariesFrom taken index parameters)).Nodup := by
  rw [given_temporariesFrom]
  exact freeNames_nodup _ _

theorem names_nodup (parameters : List Parameter) : (ofParameters parameters).names.Nodup := by
  rw [names_eq]
  exact freeNames_nodup _ _

theorem names_fresh {parameters : List Parameter} {name : String}
    (member : name ∈ (ofParameters parameters).names) : name ∉ parameters.map (·.name) := by
  rw [names_eq] at member
  exact freeNames_fresh _ _ name member

theorem ofParameters_nodup {parameters : List Parameter}
    (distinct : (parameters.map (·.name)).Nodup) :
    ((ofParameters parameters).names ++ parameters.map (·.name)).Nodup :=
  (names_nodup parameters).append distinct fun _ => names_fresh

end Locals

end Interpose
