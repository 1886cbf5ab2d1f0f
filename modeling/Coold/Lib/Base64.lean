import Coold.Lib.BitStream
import Coold.Lib.Str

/-!
# Base64

The standard alphabet with padding.  The bits of the bytes are filled up with zeros to a multiple of six, every six bits
are a digit, and equals signs fill the last group of four digits.  The decoder is strict: it takes whole groups with at
most two equals signs at the end, and no bit may be set after the last byte.

An encoding is decoded to its bytes (`decode_encode`) and has only digits and equals signs (`mem_encode`), so it is one
word in any text.
-/

namespace Base64

open BitStream

def alphabet : List Char := "ABCDEFGHIJKLMNOPQRSTUVWXYZabcdefghijklmnopqrstuvwxyz0123456789+/".toList

/-- The digit with the given value, which is below 64. -/
def digit (n : Nat) : Char := alphabet.getD n 'A'

def digitValue (c : Char) : Option Nat := if c ∈ alphabet then some (alphabet.idxOf c) else none

def encode (bytes : List UInt8) : String :=
  let digits := (sextets bytes).map digit
  String.ofList (digits ++ List.replicate ((4 - digits.length % 4) % 4) '=')

def decode (s : String) : Option (List UInt8) :=
  let digits := Str.trimEndWhile (· = '=') s.toList
  if s.toList.length % 4 = 0 ∧ s.toList.length ≤ digits.length + 2 then
    (digits.mapM digitValue).bind fun values =>
      let l := values.flatMap (bits 6)
      if (rest 8 l).all (!·) then some ((words 8 l).map UInt8.ofNat) else none
  else none

set_option maxRecDepth 4000 in
private theorem digit_spec (n : Fin 64) : digitValue (digit n.val) = some n.val ∧ digit n.val ∈ alphabet := by
  revert n
  decide

private theorem digitValue_digit {n : Nat} (h : n < 64) : digitValue (digit n) = some n := (digit_spec ⟨n, h⟩).1

private theorem mem_alphabet_of_mem_digits {bytes : List UInt8} {c : Char} (h : c ∈ (sextets bytes).map digit) :
    c ∈ alphabet := by
  obtain ⟨n, hn, rfl⟩ := List.mem_map.1 h
  exact (digit_spec ⟨n, sextets_lt n hn⟩).2

/-- An encoding has only digits and equals signs. -/
theorem mem_encode {bytes : List UInt8} {c : Char} (h : c ∈ (encode bytes).toList) : c ∈ alphabet ∨ c = '=' := by
  rw [encode, String.toList_ofList, List.mem_append] at h
  rcases h with h | h
  · exact Or.inl (mem_alphabet_of_mem_digits h)
  · exact Or.inr (List.eq_of_mem_replicate h)

private theorem length_flatMap_bits (w : Nat) (ns : List Nat) : (ns.flatMap (bits w)).length = w * ns.length := by
  induction ns with
  | nil => rfl
  | cons n ns ih =>
    rw [List.flatMap_cons, List.length_append, length_bits, ih, List.length_cons, Nat.mul_succ, Nat.add_comm]

/-- At most two equals signs are needed, since the last byte is never filled up by more than four bits. -/
theorem padding_le (bytes : List UInt8) : (4 - (sextets bytes).length % 4) % 4 ≤ 2 := by
  have hlen := congrArg List.length (flatMap_sextets bytes)
  have hbytes : (byteBits bytes).length = 8 * bytes.length := by
    rw [byteBits, length_flatMap_bits, List.length_map]
  rw [length_flatMap_bits, List.length_append, fill, List.length_replicate, hbytes] at hlen
  omega

private theorem mapM_digits {ns : List Nat} (h : ∀ n ∈ ns, n < 64) : (ns.map digit).mapM digitValue = some ns := by
  induction ns with
  | nil => rfl
  | cons n ns ih =>
    obtain ⟨hn, hns⟩ := List.forall_mem_cons.1 h
    rw [List.map_cons, List.mapM_cons, digitValue_digit hn, ih hns]
    rfl

/-- An encoding is decoded to its bytes. -/
theorem decode_encode (bytes : List UInt8) : decode (encode bytes) = some bytes := by
  have hequals : ∀ c ∈ ((sextets bytes).map digit).reverse, ¬ (decide (c = '=') = true) := by
    intro c hc
    have hmem := mem_alphabet_of_mem_digits (List.mem_reverse.1 hc)
    have hnot : '=' ∉ alphabet := by decide
    rw [decide_eq_true_eq]
    rintro rfl
    exact hnot hmem
  have hdigits : Str.trimEndWhile (· = '=') (encode bytes).toList = (sextets bytes).map digit := by
    have hall : ∀ c ∈ (List.replicate ((4 - ((sextets bytes).map digit).length % 4) % 4) '=').reverse,
        decide (c = '=') = true := by
      intro c hc
      exact decide_eq_true (List.eq_of_mem_replicate (List.mem_reverse.1 hc))
    have hself : ((sextets bytes).map digit).reverse.dropWhile (fun c => decide (c = '=')) =
        ((sextets bytes).map digit).reverse := by
      cases hrev : ((sextets bytes).map digit).reverse with
      | nil => rfl
      | cons c l => exact List.dropWhile_cons_of_neg (hequals c (by rw [hrev]; exact List.mem_cons_self))
    rw [encode, String.toList_ofList, Str.trimEndWhile, List.reverse_append, List.dropWhile_append_of_pos hall, hself,
      List.reverse_reverse]
  have hlen : (encode bytes).toList.length =
      (sextets bytes).length + (4 - (sextets bytes).length % 4) % 4 := by
    rw [encode, String.toList_ofList, List.length_append, List.length_replicate, List.length_map]
  have hpad := padding_le bytes
  have hgroups : (encode bytes).toList.length % 4 = 0 ∧
      (encode bytes).toList.length ≤ ((sextets bytes).map digit).length + 2 := by
    rw [hlen, List.length_map]
    omega
  obtain ⟨hwords, hrest⟩ := words_byteBits bytes
  have hzeros : (fill (byteBits bytes)).all (!·) = true := by
    rw [List.all_eq_true]
    intro b hb
    rw [List.eq_of_mem_replicate hb]
    rfl
  rw [decode, hdigits, if_pos hgroups, mapM_digits sextets_lt, Option.bind_some]
  dsimp only
  rw [flatMap_sextets, hrest, if_pos hzeros, hwords, map_ofNat_toNat]

end Base64
