import Interpose.Proofs.Execution

/-!
# Shadowing

The locals of a method are chosen against the names of its parameters as these are spelled, so a
parameter with a sign in front of its name is not seen. The locals shadow no parameter exactly where
none is spelled like one of them behind a sign: `unshadowed_iff`.
-/

namespace Interpose.Locals

open Execution (unsigned unsigned_eq_iff)

/-- No two locals and no local and parameter stand for one identifier, with or without a sign. -/
structure Unshadowed (parameters : List Parameter) : Prop where
  distinct : ((ofParameters parameters).names.map unsigned).Nodup
  apart : ∀ name ∈ (ofParameters parameters).names, ∀ parameter ∈ parameters,
    unsigned name ≠ unsigned parameter.name

variable {parameters : List Parameter}

theorem unsigned_local {name : String} (member : name ∈ (ofParameters parameters).names) :
    unsigned name = name :=
  unsigned_eq_iff.mpr (Execution.unsigned_of_identified
    (Execution.identified_locals parameters name member))

theorem distinct_unsigned (parameters : List Parameter) :
    ((ofParameters parameters).names.map unsigned).Nodup := by
  rw [List.map_congr_left fun _ => unsigned_local, List.map_id']
  exact names_nodup parameters

theorem unsigned_behind (name : String) : unsigned ("@" ++ name) = name := by
  simp [unsigned]

/-- A word stands for the name that it spells, or for what follows its sign. -/
theorem eq_or_behind {word name : String} (stands : unsigned word = name) :
    word = name ∨ word = "@" ++ name := by
  rw [← stands, unsigned]
  split
  · rename_i rest letters
    refine .inr (String.toList_injective ?_)
    simp [letters]
  · exact .inl rfl

/-- The locals of a method shadow none of its parameters exactly where no parameter is spelled like
a local behind a sign. -/
theorem unshadowed_iff (parameters : List Parameter) : Unshadowed parameters ↔
    ∀ name ∈ (ofParameters parameters).names, "@" ++ name ∉ parameters.map (·.name) := by
  constructor
  · intro unshadowed name member spelled
    obtain ⟨parameter, listed, same⟩ := List.mem_map.mp spelled
    refine unshadowed.apart name member parameter listed ?_
    rw [same, unsigned_behind, unsigned_local member]
  · intro unsigned_apart
    refine ⟨distinct_unsigned parameters, fun name member parameter listed same => ?_⟩
    rw [unsigned_local member] at same
    have spelled : parameter.name ∈ parameters.map (·.name) := List.mem_map_of_mem listed
    rcases eq_or_behind same.symm with plain | signed
    · exact names_fresh member (plain ▸ spelled)
    · exact unsigned_apart name member (signed ▸ spelled)

/-- A parameter that stands for the word of the context, with a sign in front. -/
def signedParameters : List Parameter :=
  [⟨"@methodContext", .named "global::System.Int32" "Int32", .byValue⟩]

theorem shadowed_signedParameters :
    (ofParameters signedParameters).context = "methodContext" ∧ ¬ Unshadowed signedParameters := by
  have chosen : (ofParameters signedParameters).context = "methodContext" := by decide +kernel
  refine ⟨chosen, fun unshadowed => ?_⟩
  exact (unshadowed_iff signedParameters).mp unshadowed "methodContext"
    (chosen ▸ List.mem_cons_self) (List.mem_singleton_self _)

end Interpose.Locals
