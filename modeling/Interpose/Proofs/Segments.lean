import Interpose.Naming
import Interpose.Proofs.Digest
import Mathlib.Data.List.Nodup
import Mathlib.Data.List.Perm.Subperm

/-!
# Segments

The part of a name that stands for a type tells the type, unless one type's own short name reads
like the short name of another with the digits behind it: `segmentOf_eq_iff`.
-/

namespace Interpose

/-! ### Look-up -/

section

variable {α β : Type} [BEq α] [LawfulBEq α] {entries others : List (α × β)}
variable (distinct : (entries.map (·.1)).Nodup)

include distinct

theorem lookup_of_mem {key : α} {value : β} (member : (key, value) ∈ entries) :
    entries.lookup key = some value := by
  induction entries with
  | nil => simp at member
  | cons entry rest ih =>
    rw [List.map_cons, List.nodup_cons] at distinct
    rcases List.mem_cons.mp member with rfl | member
    · simp
    · have apart : key ≠ entry.1 := fun same =>
        distinct.1 (same ▸ List.mem_map_of_mem member)
      rw [List.lookup_cons, beq_false_of_ne apart]
      exact ih distinct.2 member

theorem lookup_eq_some_iff_mem {key : α} {value : β} :
    entries.lookup key = some value ↔ (key, value) ∈ entries := by
  constructor
  · intro found
    obtain ⟨before, after, same, _⟩ := List.lookup_eq_some_iff.mp found
    rw [same]
    exact List.mem_append_right before List.mem_cons_self
  · exact lookup_of_mem distinct

theorem lookup_perm (reordered : entries.Perm others) (key : α) :
    entries.lookup key = others.lookup key := by
  have apart : (others.map (·.1)).Nodup := (reordered.map (·.1)).nodup_iff.mp distinct
  apply Option.ext
  intro value
  rw [lookup_eq_some_iff_mem distinct, lookup_eq_some_iff_mem apart, reordered.mem_iff]

end

namespace Text

theorem mem_collapse {c : Char} {cs : List Char} (member : c ∈ collapse cs) : c ∈ cs := by
  induction cs with
  | nil => exact member
  | cons head rest ih =>
    unfold collapse at member
    split at member
    · rename_i tail collapsed
      split at member
      · exact List.mem_cons_of_mem _ (ih (collapsed ▸ member))
      · rcases List.mem_cons.mp member with same | member
        · exact same ▸ List.mem_cons_self
        · exact List.mem_cons_of_mem _ (ih (collapsed ▸ member))
    · rcases List.mem_cons.mp member with same | member
      · exact same ▸ List.mem_cons_self
      · exact List.mem_cons_of_mem _ (ih member)

theorem mem_trimUnderscores {c : Char} {cs : List Char} (member : c ∈ trimUnderscores cs) :
    c ∈ cs := by
  have inner := List.mem_reverse.mp ((List.dropWhile_sublist _).subset (List.mem_reverse.mp member))
  exact (List.dropWhile_sublist _).subset inner

theorem follows_of_mem_segment {c : Char} {name : String} (member : c ∈ (segment name).toList) :
    follows c := by
  rw [segment, String.toList_ofList] at member
  obtain ⟨letter, _, rfl⟩ := List.mem_map.mp (mem_collapse (mem_trimUnderscores member))
  split
  · rename_i kept
    simp [follows, kept]
  · rfl

end Text

namespace Naming

/-! ### Rosters -/

/-- Lists a type, unless its name is listed. -/
def enlist (entries : List Entry) (type : TypeRef) : List Entry :=
  if entries.any (·.1 == type.fullName) then entries
  else entries ++ [(type.fullName, Text.segment type.shortName)]

theorem roster_eq_foldl (types : List TypeRef) : roster types = types.foldl enlist [] := rfl

theorem any_iff {entries : List Entry} {name : String} :
    entries.any (·.1 == name) = true ↔ name ∈ entries.map (·.1) := by
  simp

theorem enlist_nodup {entries : List Entry} (distinct : (entries.map (·.1)).Nodup)
    (type : TypeRef) : ((enlist entries type).map (·.1)).Nodup := by
  unfold enlist
  split
  · exact distinct
  · rename_i unlisted
    rw [List.map_append, List.map_singleton, ← List.concat_eq_append]
    exact List.Nodup.concat (fun member => unlisted (any_iff.mpr member)) distinct

theorem roster_nodup (types : List TypeRef) : ((roster types).map (·.1)).Nodup := by
  rw [roster_eq_foldl]
  suffices general : ∀ entries : List Entry, (entries.map (·.1)).Nodup →
      ((types.foldl enlist entries).map (·.1)).Nodup from general [] List.nodup_nil
  induction types with
  | nil => exact fun _ distinct => distinct
  | cons type types ih => exact fun _ distinct => ih _ (enlist_nodup distinct type)

theorem subset_enlist (entries : List Entry) (type : TypeRef) : entries ⊆ enlist entries type := by
  unfold enlist
  split
  · exact List.Subset.refl _
  · exact List.subset_append_left _ _

theorem subset_foldl_enlist (types : List TypeRef) (entries : List Entry) :
    entries ⊆ types.foldl enlist entries := by
  induction types generalizing entries with
  | nil => exact List.Subset.refl _
  | cons type types ih => exact List.Subset.trans (subset_enlist entries type) (ih _)

theorem listed_enlist (entries : List Entry) (type : TypeRef) :
    type.fullName ∈ (enlist entries type).map (·.1) := by
  unfold enlist
  split
  · rename_i listed
    exact any_iff.mp listed
  · simp

theorem listed_roster {types : List TypeRef} {type : TypeRef} (member : type ∈ types) :
    type.fullName ∈ (roster types).map (·.1) := by
  rw [roster_eq_foldl]
  suffices general : ∀ entries : List Entry,
      type.fullName ∈ (types.foldl enlist entries).map (·.1) from general []
  induction types with
  | nil => simp at member
  | cons head types ih =>
    intro entries
    rcases List.mem_cons.mp member with rfl | member
    · exact List.map_subset _ (subset_foldl_enlist types _) (listed_enlist entries type)
    · exact ih member _

theorem mem_roster {types : List TypeRef} {entry : Entry} (member : entry ∈ roster types) :
    ∃ type ∈ types, entry = (type.fullName, Text.segment type.shortName) := by
  rw [roster_eq_foldl] at member
  suffices general : ∀ entries : List Entry, entry ∈ types.foldl enlist entries →
      entry ∈ entries ∨ ∃ type ∈ types, entry = (type.fullName, Text.segment type.shortName) from
    (general [] member).resolve_left List.not_mem_nil
  clear member
  induction types with
  | nil => exact fun _ member => .inl member
  | cons type types ih =>
    intro entries member
    rcases ih _ member with inside | ⟨other, within, same⟩
    · unfold enlist at inside
      split at inside
      · exact .inl inside
      · rcases List.mem_append.mp inside with inside | new
        · exact .inl inside
        · exact .inr ⟨type, List.mem_cons_self, List.mem_singleton.mp new⟩
    · exact .inr ⟨other, List.mem_cons_of_mem _ within, same⟩

/-! ### Digits -/

theorem disambiguator_length (name : String) (length : Nat) :
    (disambiguator name length).toList.length = min length 64 := by
  rw [disambiguator, String.toList_ofList, List.length_take, Sha256.hex_length]

theorem follows_of_mem_disambiguator {c : Char} {name : String} {length : Nat}
    (member : c ∈ (disambiguator name length).toList) : Text.follows c := by
  have digits : Sha256.hexDigits.all Text.follows := by decide +kernel
  rw [disambiguator, String.toList_ofList] at member
  exact List.all_eq_true.mp digits c (Sha256.mem_hex (List.mem_of_mem_take member))

/-! ### Segments -/

/-- The short name of the first type, which no other type shares, reads like that of the second,
which others share, with the second one's digits behind it. -/
def Echoes (entries : List Entry) (length : Nat) (plain marked : String) : Prop :=
  ∃ short shared, (plain, short) ∈ entries ∧ (marked, shared) ∈ entries ∧
    entries.countP (·.2 == short) = 1 ∧ 1 < entries.countP (·.2 == shared) ∧
    short = shared ++ "_" ++ disambiguator marked length

theorem not_echoes {entries : List Entry} (distinct : (entries.map (·.2)).Nodup) (length : Nat)
    (plain marked : String) : ¬ Echoes entries length plain marked := by
  rintro ⟨_, shared, _, _, _, several, _⟩
  have once := List.nodup_iff_count_le_one.mp distinct shared
  rw [List.count_eq_countP, List.countP_map] at once
  exact absurd several (Nat.not_lt.mpr once)

/-- Two names are not told apart. -/
def Mistakable (entries : List Entry) (length : Nat) (a b : String) : Prop :=
  a = b ∨ Echoes entries length a b ∨ Echoes entries length b a

theorem shared_of_ne {entries : List Entry} {a b short : String} (apart : a ≠ b)
    (first : (a, short) ∈ entries) (second : (b, short) ∈ entries) :
    1 < entries.countP (·.2 == short) := by
  have pair : [(a, short), (b, short)].Nodup := by simp [apart]
  have within : [(a, short), (b, short)] ⊆ entries.filter (·.2 == short) := by
    simp [first, second]
  rw [List.countP_eq_length_filter]
  exact (List.subperm_of_subset pair within).length_le

theorem shared_iff {entries : List Entry} (distinct : (entries.map (·.1)).Nodup)
    {name short : String} (member : (name, short) ∈ entries) :
    1 < entries.countP (·.2 == short) ↔ ∃ other ≠ name, (other, short) ∈ entries := by
  constructor
  · intro several
    by_contra alone
    have within : entries.filter (·.2 == short) ⊆ [(name, short)] := by
      rintro ⟨other, text⟩ within
      obtain ⟨listed, same⟩ := List.mem_filter.mp within
      obtain rfl : text = short := by simpa using same
      by_contra apart
      exact alone ⟨other, by simpa using apart, listed⟩
    have nodup : (entries.filter (·.2 == short)).Nodup := (List.Nodup.of_map _ distinct).filter _
    have single := (List.subperm_of_subset nodup within).length_le
    rw [← List.countP_eq_length_filter] at single
    exact absurd several (Nat.not_lt.mpr single)
  · rintro ⟨other, apart, listed⟩
    exact shared_of_ne apart listed member

section

variable {entries : List Entry} (distinct : (entries.map (·.1)).Nodup)

include distinct

theorem segmentOf_marked {name short : String} (member : (name, short) ∈ entries)
    (shared : 1 < entries.countP (·.2 == short)) (length : Nat) :
    segmentOf entries length name = short ++ "_" ++ disambiguator name length := by
  rw [segmentOf, lookup_of_mem distinct member]
  exact if_pos shared

theorem segmentOf_plain {name short : String} (member : (name, short) ∈ entries)
    (alone : ¬ 1 < entries.countP (·.2 == short)) (length : Nat) :
    segmentOf entries length name = short := by
  rw [segmentOf, lookup_of_mem distinct member]
  exact if_neg alone

theorem segmentOf_eq_of_mistakable {length : Nat} {a b : String}
    (mistakable : Mistakable entries length a b) :
    segmentOf entries length a = segmentOf entries length b := by
  have reads {plain marked : String} (echoes : Echoes entries length plain marked) :
      segmentOf entries length plain = segmentOf entries length marked := by
    obtain ⟨short, shared, first, second, alone, others, same⟩ := echoes
    rw [segmentOf_plain distinct first (by omega), segmentOf_marked distinct second others, same]
  rcases mistakable with rfl | echoes | echoes
  · rfl
  · exact reads echoes
  · exact (reads echoes).symm

/-- The segment of a listed name tells it, but for echoes. -/
theorem segmentOf_eq_iff {length : Nat} {a b : String} (first : a ∈ entries.map (·.1))
    (second : b ∈ entries.map (·.1))
    (injective : disambiguator a length = disambiguator b length → a = b) :
    segmentOf entries length a = segmentOf entries length b ↔ Mistakable entries length a b := by
  refine ⟨fun same => ?_, segmentOf_eq_of_mistakable distinct⟩
  obtain ⟨⟨_, shortA⟩, memberA, rfl⟩ := List.mem_map.mp first
  obtain ⟨⟨_, shortB⟩, memberB, rfl⟩ := List.mem_map.mp second
  have counted {name short : String} (member : (name, short) ∈ entries) :
      0 < entries.countP (·.2 == short) :=
    List.countP_pos_iff.mpr ⟨_, member, by simp⟩
  by_cases sharedA : 1 < entries.countP (·.2 == shortA) <;>
    by_cases sharedB : 1 < entries.countP (·.2 == shortB)
  · rw [segmentOf_marked distinct memberA sharedA,
      segmentOf_marked distinct memberB sharedB] at same
    -- Both have as many digits, so the digits agree.
    have letters := congrArg String.toList same
    simp only [String.toList_append] at letters
    have digits := (List.append_inj' letters (by simp only [disambiguator_length])).2
    exact .inl (injective (String.toList_injective digits))
  · rw [segmentOf_marked distinct memberA sharedA, segmentOf_plain distinct memberB sharedB] at same
    have alone := counted memberB
    exact .inr (.inr ⟨shortB, shortA, memberB, memberA, by omega, sharedA, same.symm⟩)
  · rw [segmentOf_plain distinct memberA sharedA, segmentOf_marked distinct memberB sharedB] at same
    have alone := counted memberA
    exact .inr (.inl ⟨shortA, shortB, memberA, memberB, by omega, sharedB, same⟩)
  · rw [segmentOf_plain distinct memberA sharedA, segmentOf_plain distinct memberB sharedB] at same
    subst same
    by_contra apart
    -- Two names with one short name would make it a shared one.
    exact sharedA (shared_of_ne (fun equal => apart (.inl equal)) memberA memberB)

end

theorem follows_of_mem_segmentOf {types : List TypeRef} {length : Nat} {name : String} {c : Char}
    (member : c ∈ (segmentOf (roster types) length name).toList) : Text.follows c := by
  unfold segmentOf at member
  split at member
  · simp at member
  · rename_i short found
    obtain ⟨before, after, split_eq, _⟩ := List.lookup_eq_some_iff.mp found
    have listed : (name, short) ∈ roster types := by simp [split_eq]
    obtain ⟨type, _, same⟩ := mem_roster listed
    have plain (within : c ∈ short.toList) : Text.follows c := by
      rw [(Prod.mk.inj same).2] at within
      exact Text.follows_of_mem_segment within
    split at member
    · rw [String.toList_append, String.toList_append, List.append_assoc] at member
      rcases List.mem_append.mp member with within | member
      · exact plain within
      · rcases List.mem_append.mp member with sign | digit
        · obtain rfl : c = '_' := by simpa using sign
          rfl
        · exact follows_of_mem_disambiguator digit
    · exact plain member

theorem dot_not_mem_segmentOf (types : List TypeRef) (length : Nat) (name : String) :
    '.' ∉ (segmentOf (roster types) length name).toList := fun member =>
  absurd (follows_of_mem_segmentOf member) (by decide +kernel)

end Naming

end Interpose
