import Mathlib.Data.List.Basic
import Mathlib.Data.Nat.Bitwise

/-!
# Streams of bits

A list of bits spells a number, most significant bit first (`value`), and `bits w n` spells the low `w` bits of `n`.
`words w` cuts a stream of bits into words of `w` bits and `rest w` is what is left over; together they spell the
stream again (`flatMap_words`), and words that were written one after the other are read back (`words_flatMap`).
`sextets` writes bytes in words of six bits, as every kind of base64 does.

`Holds x l` says that the low bits of a machine word are the stream `l`.  The word may hold more: it is shifted to the
left for every word that is read, and what falls out at the other end was written before.  So `Holds` is kept when a
word is shifted in (`Holds.push`) and gives the word that is written next (`Holds.pop`).
-/

namespace BitStream

/-- The number that a list of bits spells. -/
def value : List Bool → Nat
  | [] => 0
  | b :: l => b.toNat * 2 ^ l.length + value l

/-- The low `w` bits of a number. -/
def bits : Nat → Nat → List Bool
  | 0, _ => []
  | w + 1, n => n.testBit w :: bits w n

@[simp] theorem length_bits (w n : Nat) : (bits w n).length = w := by
  induction w with
  | zero => rfl
  | succ w ih => rw [bits, List.length_cons, ih]

theorem value_lt (l : List Bool) : value l < 2 ^ l.length := by
  induction l with
  | nil => exact Nat.one_pos
  | cons b l ih =>
    rw [value, List.length_cons, Nat.pow_succ]
    cases b with
    | false => simp only [Bool.toNat_false]; omega
    | true => simp only [Bool.toNat_true]; omega

private theorem value_append (l l' : List Bool) : value (l ++ l') = value l * 2 ^ l'.length + value l' := by
  induction l with
  | nil => simp [value]
  | cons b l ih =>
    rw [List.cons_append, value, ih, value, List.length_append, Nat.pow_add,
      Nat.add_mul, Nat.mul_assoc, Nat.add_assoc]

private theorem value_bits (w n : Nat) : value (bits w n) = n % 2 ^ w := by
  induction w with
  | zero => rw [bits, value, Nat.pow_zero, Nat.mod_one]
  | succ w ih => rw [bits, value, length_bits, ih, Nat.toNat_testBit, Nat.mod_pow_succ, Nat.mul_comm, Nat.add_comm]

private theorem value_bits_of_lt {w n : Nat} (h : n < 2 ^ w) : value (bits w n) = n := by
  rw [value_bits, Nat.mod_eq_of_lt h]

/-- Lists of one length are told apart by what they spell. -/
theorem value_inj {l l' : List Bool} (hlen : l.length = l'.length) (h : value l = value l') : l = l' := by
  induction l generalizing l' with
  | nil => exact (List.length_eq_zero_iff.1 hlen.symm).symm
  | cons b l ih =>
    cases l' with
    | nil => cases hlen
    | cons c l' =>
      have hlen' : l.length = l'.length := Nat.succ.inj hlen
      have hl := value_lt l
      have hl' := value_lt l'
      rw [value, value, hlen'] at h
      rw [hlen'] at hl
      cases b <;> cases c <;> simp only [Bool.toNat_false, Bool.toNat_true] at h
      · rw [ih hlen' (by omega)]
      · omega
      · omega
      · rw [ih hlen' (by omega)]

private theorem bits_value (l : List Bool) : bits l.length (value l) = l :=
  value_inj (length_bits _ _) (value_bits_of_lt (value_lt l))

theorem bits_zero (w : Nat) : bits w 0 = List.replicate w false := by
  induction w with
  | zero => rfl
  | succ w ih => rw [bits, ih, Nat.zero_testBit, List.replicate_succ]

/-! ### Words -/

/-- Cut a stream into words of `w` bits. -/
def words (w : Nat) (l : List Bool) : List Nat :=
  if 0 < w ∧ w ≤ l.length then value (l.take w) :: words w (l.drop w) else []
termination_by l.length
decreasing_by
  rename_i h
  rw [List.length_drop]
  omega

/-- The bits after the last word. -/
def rest (w : Nat) (l : List Bool) : List Bool :=
  if 0 < w ∧ w ≤ l.length then rest w (l.drop w) else l
termination_by l.length
decreasing_by
  rename_i h
  rw [List.length_drop]
  omega

section Words

variable {w : Nat}

theorem words_append (hw : 0 < w) {u : List Bool} (hu : u.length = w) (l : List Bool) :
    words w (u ++ l) = value u :: words w l := by
  have hlen : 0 < w ∧ w ≤ (u ++ l).length := ⟨hw, by rw [List.length_append]; omega⟩
  rw [words, if_pos hlen, List.take_left' hu, List.drop_left' hu]

theorem rest_append (hw : 0 < w) {u : List Bool} (hu : u.length = w) (l : List Bool) :
    rest w (u ++ l) = rest w l := by
  have hlen : 0 < w ∧ w ≤ (u ++ l).length := ⟨hw, by rw [List.length_append]; omega⟩
  rw [rest, if_pos hlen, List.drop_left' hu]

theorem words_of_lt {l : List Bool} (h : l.length < w) : words w l = [] := by
  rw [words, if_neg (by omega)]

theorem rest_of_lt {l : List Bool} (h : l.length < w) : rest w l = l := by
  rw [rest, if_neg (by omega)]

/-- A stream is shorter than a word, or a word stands at its front. -/
theorem lt_or_word (w : Nat) (l : List Bool) : l.length < w ∨ ∃ u l', u.length = w ∧ l = u ++ l' := by
  rcases Nat.lt_or_ge l.length w with h | h
  · exact Or.inl h
  · exact Or.inr ⟨l.take w, l.drop w, List.length_take_of_le h, (List.take_append_drop w l).symm⟩

/-- The words and what is left over spell the stream. -/
theorem flatMap_words (hw : 0 < w) (l : List Bool) : (words w l).flatMap (bits w) ++ rest w l = l := by
  induction h : l.length using Nat.strong_induction_on generalizing l with
  | _ n ih =>
    rcases lt_or_word w l with hlt | ⟨u, l', hu, rfl⟩
    · rw [words_of_lt hlt, rest_of_lt hlt]
      rfl
    · rw [List.length_append, hu] at h
      rw [words_append hw hu, rest_append hw hu, List.flatMap_cons, List.append_assoc,
        ih l'.length (by omega) l' rfl, ← hu, bits_value]

theorem length_rest (hw : 0 < w) (l : List Bool) : (rest w l).length = l.length % w := by
  induction h : l.length using Nat.strong_induction_on generalizing l with
  | _ n ih =>
    rcases lt_or_word w l with hlt | ⟨u, l', hu, rfl⟩
    · rw [rest_of_lt hlt, ← h, Nat.mod_eq_of_lt hlt]
    · rw [List.length_append, hu] at h
      rw [rest_append hw hu, ih l'.length (by omega) l' rfl, ← h, Nat.add_mod_left]

/-- The words of a stream that goes on: what is left over of its first part is read with the second. -/
theorem words_append_rest (hw : 0 < w) (l l' : List Bool) :
    words w (l ++ l') = words w l ++ words w (rest w l ++ l') := by
  induction h : l.length using Nat.strong_induction_on generalizing l with
  | _ n ih =>
    rcases lt_or_word w l with hlt | ⟨u, k, hu, rfl⟩
    · rw [words_of_lt hlt, rest_of_lt hlt, List.nil_append]
    · rw [List.length_append, hu] at h
      rw [List.append_assoc, words_append hw hu, words_append hw hu, rest_append hw hu,
        ih k.length (by omega) k rfl, List.cons_append]

private theorem words_lt (hw : 0 < w) {l : List Bool} : ∀ n ∈ words w l, n < 2 ^ w := by
  induction h : l.length using Nat.strong_induction_on generalizing l with
  | _ k ih =>
    rcases lt_or_word w l with hlt | ⟨u, l', hu, rfl⟩
    · rw [words_of_lt hlt]
      exact fun n hn => absurd hn List.not_mem_nil
    · rw [List.length_append, hu] at h
      rw [words_append hw hu, List.forall_mem_cons]
      exact ⟨hu ▸ value_lt u, ih l'.length (by omega) rfl⟩

/-- Words that were written one after the other are read back; bits after them that are no word are dropped. -/
theorem words_flatMap (hw : 0 < w) {ns : List Nat} (hns : ∀ n ∈ ns, n < 2 ^ w) {r : List Bool} (hr : r.length < w) :
    words w (ns.flatMap (bits w) ++ r) = ns := by
  induction ns with
  | nil => exact words_of_lt hr
  | cons n ns ih =>
    obtain ⟨hn, hns⟩ := List.forall_mem_cons.1 hns
    rw [List.flatMap_cons, List.append_assoc, words_append hw (length_bits w n), ih hns, value_bits_of_lt hn]

end Words

/-! ### Bytes in words of six bits -/

/-- The bits of a list of bytes. -/
def byteBits (bytes : List UInt8) : List Bool := (bytes.map UInt8.toNat).flatMap (bits 8)

/-- The zeros that fill the last six bits. -/
def fill (l : List Bool) : List Bool := List.replicate ((6 - l.length % 6) % 6) false

/-- The words of six bits in which bytes are written, the last one filled up with zeros. -/
def sextets (bytes : List UInt8) : List Nat := words 6 (byteBits bytes ++ fill (byteBits bytes))

private theorem length_fill_lt (l : List Bool) : (fill l).length < 8 := by
  rw [fill, List.length_replicate]
  omega

theorem sextets_lt {bytes : List UInt8} : ∀ n ∈ sextets bytes, n < 2 ^ 6 := words_lt (by decide)

/-- They carry the bits of the bytes and the zeros that fill them up. -/
theorem flatMap_sextets (bytes : List UInt8) :
    (sextets bytes).flatMap (bits 6) = byteBits bytes ++ fill (byteBits bytes) := by
  have hrest : rest 6 (byteBits bytes ++ fill (byteBits bytes)) = [] := by
    rw [← List.length_eq_zero_iff, length_rest (by decide), List.length_append, fill, List.length_replicate]
    omega
  have h := flatMap_words (show 0 < 6 by decide) (byteBits bytes ++ fill (byteBits bytes))
  rwa [hrest, List.append_nil] at h

/-- The bytes are read back, and the zeros are left over. -/
theorem words_byteBits (bytes : List UInt8) :
    words 8 (byteBits bytes ++ fill (byteBits bytes)) = bytes.map UInt8.toNat ∧
      rest 8 (byteBits bytes ++ fill (byteBits bytes)) = fill (byteBits bytes) := by
  have hlt : ∀ n ∈ bytes.map UInt8.toNat, n < 2 ^ 8 := by
    intro n hn
    obtain ⟨b, -, rfl⟩ := List.mem_map.1 hn
    exact b.toNat_lt
  have hwords : words 8 (byteBits bytes ++ fill (byteBits bytes)) = bytes.map UInt8.toNat :=
    words_flatMap (by decide) hlt (length_fill_lt _)
  have h := flatMap_words (show 0 < 8 by decide) (byteBits bytes ++ fill (byteBits bytes))
  rw [hwords] at h
  exact ⟨hwords, List.append_cancel_left h⟩

theorem map_ofNat_toNat (bytes : List UInt8) : (bytes.map UInt8.toNat).map UInt8.ofNat = bytes := by
  rw [List.map_map]
  exact List.map_id'' (fun b => UInt8.ofNat_toNat) bytes

/-! ### A machine word as a buffer -/

/-- The low bits of a machine word. -/
def Holds (x : Nat) (l : List Bool) : Prop := x % 2 ^ l.length = value l

namespace Holds

variable {x : Nat} {l : List Bool}

theorem nil (x : Nat) : Holds x [] := Nat.mod_one x

private theorem mul_add_mod (y a : Nat) {b d : Nat} (hd : d < b) : (y * b + d) % (a * b) = y % a * b + d := by
  rcases Nat.eq_zero_or_pos a with rfl | ha
  · rw [Nat.zero_mul, Nat.mod_zero, Nat.mod_zero]
  · have hlt : y % a * b + d < a * b := by
      have h := Nat.mul_le_mul_right b (Nat.mod_lt y ha)
      rw [Nat.succ_mul] at h
      omega
    have hsplit : y * b + d = a * b * (y / a) + (y % a * b + d) := by
      calc y * b + d = (a * (y / a) + y % a) * b + d := by rw [Nat.div_add_mod]
        _ = a * b * (y / a) + (y % a * b + d) := by rw [Nat.add_mul, Nat.mul_right_comm, Nat.add_assoc]
    rw [hsplit, Nat.mul_add_mod, Nat.mod_eq_of_lt hlt]

/-- Shift a word in.  The machine word has `size` bits, and what it held above `l` may fall out. -/
theorem push (h : Holds x l) {w d size : Nat} (hd : d < 2 ^ w) (hfit : l.length + w ≤ size) :
    Holds ((x <<< w) % 2 ^ size ||| d) (l ++ bits w d) := by
  obtain ⟨k, rfl⟩ : ∃ k, size = l.length + k + w := ⟨size - w - l.length, by omega⟩
  have hsplit : (x <<< w) % 2 ^ (l.length + k + w) = (x % 2 ^ (l.length + k)) <<< w := by
    rw [Nat.shiftLeft_eq, Nat.shiftLeft_eq, Nat.pow_add, Nat.mul_mod_mul_right]
  have hlow : x % 2 ^ (l.length + k) % 2 ^ l.length = value l := by
    rw [Nat.pow_add, Nat.mod_mul_right_mod]
    exact h
  rw [Holds, hsplit, ← Nat.shiftLeft_add_eq_or_of_lt hd, Nat.shiftLeft_eq, List.length_append, length_bits,
    value_append, length_bits, value_bits_of_lt hd, Nat.pow_add 2 l.length w, mul_add_mod _ _ hd, hlow]

private theorem mod_append {u : List Bool} (h : Holds x (u ++ l)) :
    x % (2 ^ l.length * 2 ^ u.length) = 2 ^ l.length * value u + value l := by
  rw [Holds, List.length_append, Nat.add_comm, Nat.pow_add] at h
  rw [h, value_append, Nat.mul_comm]

/-- The word that stands at the front. -/
theorem pop {u : List Bool} (h : Holds x (u ++ l)) : (x >>> l.length) % 2 ^ u.length = value u := by
  rw [Nat.shiftRight_eq_div_pow, ← Nat.mod_mul_right_div_self, h.mod_append,
    Nat.mul_add_div (Nat.two_pow_pos _), Nat.div_eq_of_lt (value_lt l), Nat.add_zero]

/-- What stays when the front is dropped. -/
theorem drop {u : List Bool} (h : Holds x (u ++ l)) : Holds x l := by
  rw [Holds, ← Nat.mod_mul_right_mod x _ (2 ^ u.length), h.mod_append, Nat.mul_add_mod, Nat.mod_eq_of_lt (value_lt l)]

end Holds

end BitStream
