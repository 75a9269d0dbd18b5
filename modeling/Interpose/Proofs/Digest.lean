import Interpose.Digest.Sha256
import Mathlib.Data.List.Basic
import Mathlib.Data.List.GetD

/-!
# Digests

A digest is sixty-four digits. `hex_eq` computes it by structural recursion alone, which a proof can
do for a given text.
-/

namespace Interpose

/-- The pieces of a list, of which there are no more than `fuel`. -/
def pieces {α : Type} (size : Nat) : Nat → List α → List (List α)
  | 0, _ => []
  | fuel + 1, xs =>
    if size = 0 ∨ xs.isEmpty then [] else xs.take size :: pieces size fuel (xs.drop size)

theorem chunksOf_eq_pieces {α : Type} (size : Nat) {fuel : Nat} {xs : List α}
    (enough : xs.length ≤ fuel) : chunksOf size xs = pieces size fuel xs := by
  induction fuel generalizing xs with
  | zero =>
    obtain rfl := List.eq_nil_of_length_eq_zero (Nat.le_zero.mp enough)
    simp [chunksOf, pieces]
  | succ fuel ih =>
    rw [chunksOf, pieces]
    split
    · rfl
    · rename_i more
      rw [not_or, List.isEmpty_iff] at more
      have taken := List.length_pos_of_ne_nil more.2
      rw [ih (by rw [List.length_drop]; omega)]

theorem toList_loop (bytes : ByteArray) (index : Nat) (read : List UInt8) :
    ByteArray.toList.loop bytes index read = read.reverse ++ bytes.data.toList.drop index := by
  fun_induction ByteArray.toList.loop bytes index read with
  | case1 index read more ih =>
    have inside : index < bytes.data.toList.length := more
    have byte : bytes.get! index = bytes.data.toList[index] := getElem!_pos bytes.data index more
    rw [ih, List.drop_eq_getElem_cons inside, List.reverse_cons, List.append_assoc, byte]
    rfl
  | case2 index read past =>
    have outside : bytes.data.toList.length ≤ index := Nat.le_of_not_lt past
    rw [List.drop_eq_nil_of_le outside, List.append_nil]

theorem toList_eq (bytes : ByteArray) : bytes.toList = bytes.data.toList := by
  rw [ByteArray.toList, toList_loop]
  rfl

namespace Sha256

theorem hexOf_length (count n : Nat) : (hexOf count n).length = count := by
  induction count with
  | zero => rfl
  | succ count ih => rw [hexOf, List.length_cons, ih]

theorem mem_hexOf {c : Char} {count n : Nat} (member : c ∈ hexOf count n) : c ∈ hexDigits := by
  induction count with
  | zero => simp [hexOf] at member
  | succ count ih =>
    rcases List.mem_cons.mp member with rfl | member
    · have below : n / Nat.pow 16 count % 16 < hexDigits.length := Nat.mod_lt _ (by decide)
      rw [List.getD_eq_getElem _ _ below]
      exact List.getElem_mem below
    · exact ih member

theorem hex_length (text : String) : (hex text).length = 64 := by
  simp [hex, digest, hexOf_length]

theorem mem_hex {c : Char} {text : String} (member : c ∈ hex text) : c ∈ hexDigits := by
  obtain ⟨word, _, digit⟩ := List.mem_flatMap.mp member
  exact mem_hexOf digit

/-! ### Computing digests -/

/-- The chaining value after one block, with the words of the block cut by `pieces`. -/
def compressPieces (v : Words) (block : List UInt8) : Words :=
  let words := (extend 48 ((pieces 4 block.length block).map word).reverse).reverse
  let w := (roundConstants.zip words).foldl (fun v kw => round v kw.1 kw.2) v
  ⟨v.a + w.a, v.b + w.b, v.c + w.c, v.d + w.d, v.e + w.e, v.f + w.f, v.g + w.g, v.h + w.h⟩

theorem compress_eq : compress = compressPieces := by
  funext v block
  rw [compress, compressPieces, schedule, chunksOf_eq_pieces 4 (Nat.le_refl _)]

/-- The digest in hexadecimal by structural recursion. -/
def hexPieces (text : String) : List Char :=
  let bytes := pad text.toUTF8.data.toList
  let v := (pieces 64 bytes.length bytes).foldl compressPieces initial
  [v.a, v.b, v.c, v.d, v.e, v.f, v.g, v.h].flatMap fun w => hexOf 8 w.toNat

theorem hex_eq : hex = hexPieces := by
  funext text
  rw [hex, hexPieces, digest, toList_eq, compress_eq, chunksOf_eq_pieces 64 (Nat.le_refl _)]

end Sha256

end Interpose
