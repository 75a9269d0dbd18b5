import Interpose.Proofs.Locals
import Mathlib.Data.Finset.Card

/-!
# Free names

A search for a free name looks at a word and then at the word with one number after the other behind
it. It ends with the first of them that is free, and needs no more than one look beyond the number
of taken names. The locals of a method are found in this way, each against the method's parameters
and the locals in front of it: `Locals.ofParameters_found`.
-/

namespace Interpose

/-- A search that goes on at the numbered name `n` ends with a name after so many looks. -/
inductive Search (taken : List String) (base : String) : Nat → Nat → String → Prop
  | free {n : Nat} (vacant : numbered base n ∉ taken) : Search taken base n 1 (numbered base n)
  | next {n looks : Nat} {name : String} (occupied : numbered base n ∈ taken)
      (rest : Search taken base (n + 1) looks name) : Search taken base n (looks + 1) name

/-- A search from the word itself gives the name: the word, if it is free, and otherwise the word
with the least number behind it that makes it free. -/
structure Found (taken : List String) (base name : String) : Prop where
  ends : ∃ looks ≤ taken.toFinset.card + 1,
    ∀ other result, Search taken base 0 other result ↔ other = looks ∧ result = name
  plain : base ∉ taken → name = base
  marked : base ∈ taken → ∃ n, 1 ≤ n ∧ name = base ++ "_" ++ n.repr ∧ name ∉ taken ∧
    ∀ k, 1 ≤ k → k < n → base ++ "_" ++ k.repr ∈ taken

section

variable {taken : List String} {base : String}

theorem Search.unique {n looks other : Nat} {name result : String}
    (search : Search taken base n looks name) (again : Search taken base n other result) :
    other = looks ∧ result = name := by
  induction search generalizing other result with
  | free vacant =>
    cases again with
    | free => exact ⟨rfl, rfl⟩
    | next occupied => exact absurd occupied vacant
  | next occupied _ ih =>
    cases again with
    | free vacant => exact absurd occupied vacant
    | next _ rest =>
      obtain ⟨looks, name⟩ := ih rest
      exact ⟨congrArg (· + 1) looks, name⟩

theorem search_of_occupied {n more : Nat} (vacant : numbered base (n + more) ∉ taken)
    (occupied : ∀ k < more, numbered base (n + k) ∈ taken) :
    Search taken base n (more + 1) (numbered base (n + more)) := by
  -- The search counts up from `n` to a free name that stays where it is.
  induction more generalizing n with
  | zero => exact .free vacant
  | succ more ih =>
    have later (k : Nat) : n + (k + 1) = n + 1 + k := by omega
    rw [later] at vacant ⊢
    refine .next (occupied 0 (Nat.succ_pos more)) (ih vacant fun k below => ?_)
    exact later k ▸ occupied (k + 1) (Nat.succ_lt_succ below)

/-- The names numbered up to a free one are different taken names. -/
theorem le_card_of_occupied {m : Nat} (occupied : ∀ k < m, numbered base k ∈ taken) :
    m ≤ taken.toFinset.card := by
  have bounded := Finset.card_le_card_of_injOn (s := Finset.range m) (t := taken.toFinset)
    (numbered base) (fun k below => by simpa using occupied k (Finset.mem_range.mp below))
    (numbered_injective base).injOn
  rwa [Finset.card_range] at bounded

theorem found_freeName (taken : List String) (base : String) :
    Found taken base (freeName taken base) := by
  obtain ⟨m, _, found, vacant, occupied⟩ := freeName_spec taken base
  have search : Search taken base 0 (m + 1) (numbered base m) := by
    have search := @search_of_occupied taken base 0 m
    simp only [Nat.zero_add] at search
    exact search vacant occupied
  rw [found]
  refine ⟨⟨m + 1, Nat.succ_le_succ (le_card_of_occupied occupied), fun other result => ?_⟩, ?_, ?_⟩
  · refine ⟨search.unique, ?_⟩
    rintro ⟨rfl, rfl⟩
    exact search
  · intro unused
    cases m with
    | zero => rfl
    | succ m => exact absurd (occupied 0 (Nat.succ_pos m)) unused
  · intro used
    cases m with
    | zero => exact absurd used vacant
    | succ m =>
      refine ⟨m + 1, Nat.succ_pos m, rfl, vacant, fun k positive below => ?_⟩
      obtain ⟨k, rfl⟩ := Nat.exists_eq_add_of_le' positive
      exact occupied (k + 1) below

/-- Each name is chosen with the names in front of it among the taken ones, and no others. -/
theorem getElem?_freeNames (taken bases : List String) (index : Nat) :
    (freeNames taken bases)[index]? = bases[index]?.map fun base =>
      freeName (((freeNames taken bases).take index).reverse ++ taken) base := by
  induction bases generalizing taken index with
  | nil => rfl
  | cons base bases ih =>
    cases index with
    | zero => rfl
    | succ index =>
      rw [freeNames, List.getElem?_cons_succ, ih, List.getElem?_cons_succ, List.take_succ_cons,
        List.reverse_cons, List.append_assoc]
      rfl

end

namespace Locals

theorem isSome_temporary (parameters : List Parameter) (index : Nat) :
    ((ofParameters parameters).temporary index).isSome ↔
      ∃ parameter, parameters[index]? = some parameter ∧ parameter.mode ≠ .byValue := by
  have lengths : (ofParameters parameters).temporaries.length = parameters.length :=
    temporariesFrom_length _ 0 parameters
  rw [temporary]
  cases listed : parameters[index]? with
  | none =>
    have beyond : (ofParameters parameters).temporaries.length ≤ index :=
      lengths ▸ List.getElem?_eq_none_iff.mp listed
    simp [List.getElem?_eq_none beyond]
  | some parameter =>
    obtain ⟨inside, _⟩ := List.getElem?_eq_some_iff.mp listed
    obtain ⟨temporary, given⟩ : ∃ temporary,
        (ofParameters parameters).temporaries[index]? = some temporary :=
      ⟨_, List.getElem?_eq_getElem (lengths ▸ inside)⟩
    have row : (parameter, temporary) ∈ parameters.zip (ofParameters parameters).temporaries :=
      List.mem_of_getElem? (List.getElem?_zip_eq_some.mpr ⟨listed, given⟩)
    have needed := temporariesFrom_isSome _ 0 parameters _ row
    simp [given, needed, PassMode.needsTemporary]

/-- Every search for a free name ends with the first one that is free. Each local of a method is
found in this way against the parameters' names and the locals in front of it alone. So the locals
differ from one another and from the parameters, and there is a place for a variable of each
parameter, which is filled where the parameter is not passed by value. -/
theorem ofParameters_found :
    (∀ taken base, Found taken base (freeName taken base)) ∧
    ∀ parameters : List Parameter,
      let locals := ofParameters parameters
      let spelled := parameters.map (·.name)
      (∀ index : Nat, locals.names[index]? =
        (ownBases ++ temporaryBases 0 parameters)[index]?.map fun base =>
          freeName ((locals.names.take index).reverse ++ spelled) base) ∧
      locals.names.Nodup ∧ locals.names.Disjoint spelled ∧
      locals.temporaries.length = parameters.length ∧
      ∀ index, (locals.temporary index).isSome ↔
        ∃ parameter, parameters[index]? = some parameter ∧ parameter.mode ≠ .byValue := by
  refine ⟨found_freeName, fun parameters => ⟨fun index => ?_, names_nodup parameters,
    fun _ => names_fresh, temporariesFrom_length _ 0 parameters, isSome_temporary parameters⟩⟩
  rw [names_eq]
  exact getElem?_freeNames _ _ index

/-- Parameters that stand in the way of three of the method's own names and of a variable. -/
example : (ofParameters (["methodContext", "context", "localResult", "temp_4_x", "x"].map
    (⟨·, .named "global::System.Int32" "Int32", .byRef⟩))).names = [
      "methodContext_1", "interceptorInvocationResult", "context_1", "localResult_1",
      "underlyingImplementation", "temp_0_methodContext", "temp_1_context", "temp_2_localResult",
      "temp_3_temp_4_x", "temp_4_x_1"] := by
  decide +kernel

end Locals

end Interpose
