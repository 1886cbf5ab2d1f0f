import Coold.Agent.HostJwt
import Coold.Lib.BitStream

/-!
# base64url

`base64urlDecode` shifts every digit into a buffer of 32 bits that is never cleared, so on more than five digits the
first ones fall out.  They are not needed any more: the low `bits` bits of the buffer are the ones that are not yet
written, and each round reads and writes these only (`decodeLoop_eq`).  `b64url`, the encoder of the tests, works the
same way with bytes and digits exchanged (`b64urlLoop_eq`).

`encode` says what base64url without padding is: the bits of the bytes, filled up with zeros to a multiple of six, in
words of six bits, each written as its digit.
-/

namespace Coold.Agent.HostJwt

open BitStream

def alphabet : List UInt8 :=
  Str.asBytes "ABCDEFGHIJKLMNOPQRSTUVWXYZabcdefghijklmnopqrstuvwxyz0123456789-_"

/-- The digit with the given value, which is below 64. -/
def digit (n : Nat) : UInt8 := alphabet.getD n 0

/-! ### The encoder of the tests -/

/-- The inner loop: write the digits for which there are enough bits, and return how many bits are left. -/
def b64urlDigits (buffer bits : UInt32) : List UInt8 × UInt32 :=
  if h : 6 ≤ bits then
    let rest := b64urlDigits buffer (bits - 6)
    (digit ((buffer >>> (bits - 6)) &&& 0x3f).toNat :: rest.1, rest.2)
  else ([], bits)
termination_by bits.toNat
decreasing_by
  have hle : 6 ≤ bits.toNat := h
  rw [UInt32.toNat_sub_of_le _ _ h]
  exact Nat.sub_lt (Nat.lt_of_lt_of_le (by decide) hle) (by decide)

def b64urlLoop : List UInt8 → (buffer bits : UInt32) → List UInt8
  | [], buffer, bits => if 0 < bits then [digit ((buffer <<< (6 - bits)) &&& 0x3f).toNat] else []
  | byte :: rest, buffer, bits =>
    let buffer := (buffer <<< 8) ||| byte.toUInt32
    (b64urlDigits buffer (bits + 8)).1 ++ b64urlLoop rest buffer (b64urlDigits buffer (bits + 8)).2

def b64url (bytes : List UInt8) : String :=
  String.ofList ((b64urlLoop bytes 0 0).map fun b => Char.ofNat b.toNat)

/-! ### The encoding -/

/-- base64url without padding. -/
def encode (bytes : List UInt8) : List UInt8 := (sextets bytes).map digit

/-! ### Digits -/

/-- The codes of the digits. -/
def codes : List Nat := List.range' 65 26 ++ List.range' 97 26 ++ List.range' 48 10 ++ [45, 95]

private theorem alphabet_eq : alphabet = codes.map UInt8.ofNat := by decide

private theorem mem_codes {n : Nat} :
    n ∈ codes ↔ (65 ≤ n ∧ n ≤ 90) ∨ (97 ≤ n ∧ n ≤ 122) ∨ (48 ≤ n ∧ n ≤ 57) ∨ n = 45 ∨ n = 95 := by
  simp only [codes, List.mem_append, List.mem_range'_1, List.mem_cons, List.not_mem_nil, or_false]
  omega

private theorem mem_alphabet {byte : UInt8} : byte ∈ alphabet ↔ byte.toNat ∈ codes := by
  rw [alphabet_eq, List.mem_map]
  constructor
  · rintro ⟨n, hn, rfl⟩
    have hlt : n < 256 := by
      rw [mem_codes] at hn
      omega
    rwa [UInt8.toNat_ofNat_of_lt' hlt]
  · intro h
    exact ⟨byte.toNat, h, UInt8.ofNat_toNat⟩

private theorem sextet_code (n : Fin 64) : sextet (UInt8.ofNat (codes.getD n 0)) = some (UInt32.ofNat n) := by
  revert n
  decide

private theorem sextet_digit {n : Nat} (h : n < 64) : sextet (digit n) = some (UInt32.ofNat n) := by
  have hdigit : digit n = UInt8.ofNat (codes.getD n 0) := by
    rw [digit, alphabet_eq]
    exact List.getD_map codes 0 UInt8.ofNat
  rw [hdigit]
  exact sextet_code ⟨n, h⟩

/-- The ends of the ranges, as numbers. -/
private theorem toNat_ends : 'A'.toUInt8.toNat = 65 ∧ 'Z'.toUInt8.toNat = 90 ∧ 'a'.toUInt8.toNat = 97 ∧
    'z'.toUInt8.toNat = 122 ∧ '0'.toUInt8.toNat = 48 ∧ '9'.toUInt8.toNat = 57 ∧ '-'.toUInt8.toNat = 45 ∧
    '_'.toUInt8.toNat = 95 := by decide

/-- The bytes that have a value are the ones of the alphabet. -/
private theorem sextet_eq_none_iff {byte : UInt8} : sextet byte = none ↔ byte ∉ alphabet := by
  rw [mem_alphabet, mem_codes, sextet]
  simp only [UInt8.le_iff_toNat_le, ← UInt8.toNat_inj, toNat_ends]
  split_ifs with hupper hlower hdigit hminus hunder
  · exact iff_of_false not_false (by omega)
  · exact iff_of_false not_false (by omega)
  · exact iff_of_false not_false (by omega)
  · exact iff_of_false not_false (by omega)
  · exact iff_of_false not_false (by omega)
  · exact iff_of_true rfl (by omega)

private theorem sextet_lt {byte : UInt8} {d : UInt32} (h : sextet byte = some d) : d.toNat < 2 ^ 6 := by
  have hends := toNat_ends
  have h26 : (26 : UInt8).toNat = 26 := rfl
  have h52 : (52 : UInt8).toNat = 52 := rfl
  rw [sextet] at h
  split_ifs at h with hupper hlower hdigit hminus hunder
  · obtain rfl := Option.some.inj h
    have hle : byte.toNat ≤ 'Z'.toUInt8.toNat := hupper.2
    rw [UInt8.toNat_toUInt32, UInt8.toNat_sub_of_le _ _ hupper.1]
    omega
  · obtain rfl := Option.some.inj h
    have hle : byte.toNat ≤ 'z'.toUInt8.toNat := hlower.2
    rw [UInt8.toNat_toUInt32, UInt8.toNat_add, UInt8.toNat_sub_of_le _ _ hlower.1]
    omega
  · obtain rfl := Option.some.inj h
    have hle : byte.toNat ≤ '9'.toUInt8.toNat := hdigit.2
    rw [UInt8.toNat_toUInt32, UInt8.toNat_add, UInt8.toNat_sub_of_le _ _ hdigit.1]
    omega
  · obtain rfl := Option.some.inj h
    decide
  · obtain rfl := Option.some.inj h
    decide

/-! ### The decoder -/

private theorem decodeLoop_cons (byte : UInt8) (rest : List UInt8) (buffer n : UInt32) :
    decodeLoop (byte :: rest) buffer n = (sextet byte).bind fun d =>
      if 8 ≤ n + 6 then
        (decodeLoop rest ((buffer <<< 6) ||| d) (n + 6 - 8)).map
          (((((buffer <<< 6) ||| d) >>> (n + 6 - 8)).toUInt8) :: ·)
      else decodeLoop rest ((buffer <<< 6) ||| d) (n + 6) := by
  rw [decodeLoop]
  refine congrArg (Option.bind (sextet byte)) (funext fun d => ?_)
  simp only [Option.map_eq_bind]
  rfl

private theorem decodeLoop_eq_none_iff {input : List UInt8} {buffer n : UInt32} :
    decodeLoop input buffer n = none ↔ ∃ byte ∈ input, byte ∉ alphabet := by
  induction input generalizing buffer n with
  | nil => simp [decodeLoop]
  | cons byte rest ih =>
    rw [decodeLoop_cons, List.exists_mem_cons_iff]
    cases hd : sextet byte with
    | none => exact iff_of_true rfl (Or.inl (sextet_eq_none_iff.1 hd))
    | some d =>
      have hin : ¬ byte ∉ alphabet := by
        rw [← sextet_eq_none_iff, hd]
        exact Option.some_ne_none d
      rw [or_iff_right hin, Option.bind_some]
      split
      · rw [Option.map_eq_none_iff, ih]
      · rw [ih]

/-- The bits of a list of digits. -/
def digitBits (input : List UInt8) : List Bool := input.flatMap fun byte => bits 6 ((sextet byte).getD 0).toNat

private theorem toUInt8_shiftRight {x n : UInt32} {u l : List Bool} (h : Holds x.toNat (u ++ l)) (hu : u.length = 8)
    (hn : n.toNat = l.length) (hlt : l.length < 32) : (x >>> n).toUInt8 = UInt8.ofNat (value u) := by
  have hpop := h.pop
  rw [hu] at hpop
  apply UInt8.toNat_inj.1
  rw [UInt32.toNat_toUInt8, UInt32.toNat_shiftRight, hn, Nat.mod_eq_of_lt hlt, hpop]
  have hlt8 : value u < 2 ^ 8 := hu ▸ value_lt u
  exact (UInt8.toNat_ofNat_of_lt' hlt8).symm

/-- The decoder writes the bytes of the bits that wait in the buffer and of the digits that follow. -/
theorem decodeLoop_eq {input : List UInt8} (hin : ∀ byte ∈ input, byte ∈ alphabet) {buffer n : UInt32}
    {l : List Bool} (hn : n.toNat = l.length) (hlt : l.length < 8) (hl : Holds buffer.toNat l) :
    decodeLoop input buffer n = some ((words 8 (l ++ digitBits input)).map UInt8.ofNat) := by
  induction input generalizing buffer n l with
  | nil =>
    rw [decodeLoop, digitBits, List.flatMap_nil, List.append_nil, words_of_lt hlt]
    rfl
  | cons byte rest ih =>
    obtain ⟨hbyte, hrest⟩ := List.forall_mem_cons.1 hin
    obtain ⟨d, hd⟩ := Option.ne_none_iff_exists'.1 (fun h => sextet_eq_none_iff.1 h hbyte)
    have hpush : Holds ((buffer <<< 6) ||| d).toNat (l ++ bits 6 d.toNat) := by
      have h : Holds ((buffer.toNat <<< 6) % 2 ^ 32 ||| d.toNat) (l ++ bits 6 d.toNat) :=
        hl.push (sextet_lt hd) (by omega)
      simpa using h
    have hstream : l ++ digitBits (byte :: rest) = (l ++ bits 6 d.toNat) ++ digitBits rest := by
      rw [digitBits, List.flatMap_cons, hd, Option.getD_some, List.append_assoc]
      rfl
    have hn6 : (n + 6).toNat = (l ++ bits 6 d.toNat).length := by
      rw [UInt32.toNat_add, hn, List.length_append, length_bits]
      simp only [UInt32.reduceToNat]
      omega
    rw [decodeLoop_cons, hd, Option.bind_some, hstream]
    rcases lt_or_word 8 (l ++ bits 6 d.toNat) with hshort | ⟨u, l', hu, hul⟩
    · have hless : ¬ 8 ≤ n + 6 := by
        rw [UInt32.le_iff_toNat_le, hn6]
        exact Nat.not_le.2 hshort
      rw [if_neg hless]
      exact ih hrest hn6 hshort hpush
    · have hlen : (n + 6).toNat = 8 + l'.length := by rw [hn6, hul, List.length_append, hu]
      have hmore : 8 ≤ n + 6 := by
        rw [UInt32.le_iff_toNat_le, hlen]
        exact Nat.le_add_right _ _
      have hleft : (n + 6 - 8).toNat = l'.length := by
        rw [UInt32.toNat_sub_of_le _ _ hmore, hlen]
        exact Nat.add_sub_cancel_left 8 _
      have hlt' : l'.length < 8 := by
        have h := congrArg List.length hul
        rw [List.length_append, List.length_append, length_bits, hu] at h
        omega
      rw [hul] at hpush
      have hout : ((((buffer <<< 6) ||| d) >>> (n + 6 - 8)).toUInt8) = UInt8.ofNat (value u) :=
        toUInt8_shiftRight hpush hu hleft (by omega)
      rw [if_pos hmore, ih hrest hleft hlt' hpush.drop, hout, hul, List.append_assoc,
        words_append (by decide) hu, Option.map_some, List.map_cons]

/-! ### The encoder -/

private theorem digit_shiftRight {x n : UInt32} {u l : List Bool} (h : Holds x.toNat (u ++ l)) (hu : u.length = 6)
    (hn : n.toNat = l.length) (hlt : l.length < 32) : ((x >>> n) &&& 0x3f).toNat = value u := by
  have hpop := h.pop
  rw [hu] at hpop
  rw [UInt32.toNat_and, UInt32.toNat_shiftRight, hn, Nat.mod_eq_of_lt hlt, ← hpop]
  exact Nat.and_two_pow_sub_one_eq_mod _ 6

/-- The digits that the inner loop writes, and what it leaves. -/
private theorem b64urlDigits_eq {buffer n : UInt32} {l : List Bool} (hn : n.toNat = l.length) (hlt : l.length < 32)
    (hl : Holds buffer.toNat l) :
    (b64urlDigits buffer n).1 = (words 6 l).map digit ∧ (b64urlDigits buffer n).2.toNat = (rest 6 l).length ∧
      Holds buffer.toNat (rest 6 l) := by
  induction h : l.length using Nat.strong_induction_on generalizing l n with
  | _ k ih =>
    rw [b64urlDigits]
    rcases lt_or_word 6 l with hshort | ⟨u, l', hu, rfl⟩
    · have hless : ¬ 6 ≤ n := by
        rw [UInt32.le_iff_toNat_le, hn]
        exact Nat.not_le.2 hshort
      rw [dif_neg hless, words_of_lt hshort, rest_of_lt hshort]
      exact ⟨rfl, hn, hl⟩
    · rw [List.length_append, hu] at h hn hlt
      have hmore : 6 ≤ n := by
        rw [UInt32.le_iff_toNat_le, hn]
        exact Nat.le_add_right _ _
      have hleft : (n - 6).toNat = l'.length := by
        rw [UInt32.toNat_sub_of_le _ _ hmore, hn]
        exact Nat.add_sub_cancel_left 6 _
      obtain ⟨hdigits, hcount, hrest⟩ := ih l'.length (by omega) hleft (by omega) hl.drop rfl
      rw [dif_pos hmore, words_append (by decide) hu, rest_append (by decide) hu]
      refine ⟨?_, hcount, hrest⟩
      rw [List.map_cons, ← hdigits, digit_shiftRight hl hu hleft (by omega)]

private theorem fill_rest (l l' : List Bool) : fill (l ++ l') = fill (rest 6 l ++ l') := by
  rw [fill, fill, List.length_append, List.length_append, length_rest (by decide), Nat.mod_add_mod]

/-- The last digit, filled up with zeros. -/
private theorem digit_last {buffer n : UInt32} {l : List Bool} (hn : n.toNat = l.length) (hpos : 0 < l.length)
    (hlt : l.length < 6) (hl : Holds buffer.toNat l) :
    words 6 (l ++ fill l) = [((buffer <<< (6 - n)) &&& 0x3f).toNat] := by
  have hle : n ≤ 6 := by
    rw [UInt32.le_iff_toNat_le, hn]
    exact hlt.le
  have hshift : (6 - n).toNat = 6 - l.length := by
    rw [UInt32.toNat_sub_of_le _ _ hle, hn]
    rfl
  have hfill : fill l = bits (6 - l.length) 0 := by
    rw [fill, bits_zero, Nat.mod_eq_of_lt hlt, Nat.mod_eq_of_lt (by omega)]
  have hlen : (l ++ bits (6 - l.length) 0).length = 6 := by
    rw [List.length_append, length_bits]
    omega
  have hpush : Holds ((buffer.toNat <<< (6 - l.length)) % 2 ^ 32 ||| 0) (l ++ bits (6 - l.length) 0) :=
    hl.push (Nat.two_pow_pos _) (by omega)
  have hword : words 6 (l ++ bits (6 - l.length) 0) = [value (l ++ bits (6 - l.length) 0)] := by
    have h := words_append (by decide) hlen []
    rwa [List.append_nil, words_of_lt (show ([] : List Bool).length < 6 by decide)] at h
  rw [hfill, hword, ← hpush, hlen, Nat.or_zero, UInt32.toNat_and, UInt32.toNat_shiftLeft, hshift,
    Nat.mod_eq_of_lt (show 6 - l.length < 32 by omega)]
  exact congrArg (· :: []) (Nat.and_two_pow_sub_one_eq_mod _ 6).symm

/-- What the encoder of the tests writes after the bits that wait in its buffer. -/
theorem b64urlLoop_eq {bytes : List UInt8} {buffer n : UInt32} {l : List Bool} (hn : n.toNat = l.length)
    (hlt : l.length < 6) (hl : Holds buffer.toNat l) :
    b64urlLoop bytes buffer n = (words 6 (l ++ byteBits bytes ++ fill (l ++ byteBits bytes))).map digit := by
  induction bytes generalizing buffer n l with
  | nil =>
    rw [b64urlLoop, show byteBits [] = [] from rfl, List.append_nil]
    rcases Nat.eq_zero_or_pos l.length with hzero | hpos
    · obtain rfl := List.length_eq_zero_iff.1 hzero
      have hnone : ¬ 0 < n := by
        rw [UInt32.lt_iff_toNat_lt, hn]
        exact Nat.lt_irrefl 0
      rw [if_neg hnone, show fill [] = [] from rfl, List.append_nil, words_of_lt (by decide)]
      rfl
    · have hsome : 0 < n := by
        rw [UInt32.lt_iff_toNat_lt, hn]
        exact hpos
      rw [if_pos hsome, digit_last hn hpos hlt hl]
      rfl
  | cons byte bytes ih =>
    have hpush : Holds ((buffer <<< 8) ||| byte.toUInt32).toNat (l ++ bits 8 byte.toNat) := by
      have h : Holds ((buffer.toNat <<< 8) % 2 ^ 32 ||| byte.toNat) (l ++ bits 8 byte.toNat) :=
        hl.push byte.toNat_lt (by omega)
      simpa using h
    have hlen : (l ++ bits 8 byte.toNat).length = l.length + 8 := by rw [List.length_append, length_bits]
    have hn8 : (n + 8).toNat = (l ++ bits 8 byte.toNat).length := by
      rw [UInt32.toNat_add, hn, hlen]
      simp only [UInt32.reduceToNat]
      omega
    have hstream : l ++ byteBits (byte :: bytes) = (l ++ bits 8 byte.toNat) ++ byteBits bytes := by
      rw [List.append_assoc]
      rfl
    obtain ⟨hdigits, hcount, hrest⟩ := b64urlDigits_eq hn8 (by omega) hpush
    have hshort : (rest 6 (l ++ bits 8 byte.toNat)).length < 6 := by
      rw [length_rest (by decide)]
      exact Nat.mod_lt _ (by decide)
    have hwords := words_append_rest (show 0 < 6 by decide) (l ++ bits 8 byte.toNat)
      (byteBits bytes ++ fill (rest 6 (l ++ bits 8 byte.toNat) ++ byteBits bytes))
    rw [← fill_rest, ← List.append_assoc, ← List.append_assoc] at hwords
    rw [b64urlLoop, hdigits, ih hcount hshort hrest, hstream, hwords, List.map_append, ← fill_rest]

/-! ### The round trip -/

private theorem digit_mem {n : Nat} (h : n < 64) : digit n ∈ alphabet := by
  by_contra hout
  rw [← sextet_eq_none_iff, sextet_digit h] at hout
  cases hout

/-- The encoder of the tests writes base64url. -/
private theorem b64url_eq (bytes : List UInt8) :
    b64url bytes = String.ofList ((encode bytes).map fun b => Char.ofNat b.toNat) := by
  rw [b64url, b64urlLoop_eq rfl (by decide) (Holds.nil (0 : UInt32).toNat)]
  rfl

private theorem alphabet_lt {b : UInt8} (h : b ∈ alphabet) : b < 128 := by
  rw [mem_alphabet, mem_codes] at h
  have hlt : b.toNat < 128 := by omega
  exact hlt

private theorem mem_alphabet_of_mem_encode {bytes : List UInt8} : ∀ b ∈ encode bytes, b ∈ alphabet := by
  intro b hb
  obtain ⟨n, hn, rfl⟩ := List.mem_map.1 hb
  exact digit_mem (sextets_lt n hn)

private theorem asBytes_b64url (bytes : List UInt8) : Str.asBytes (b64url bytes) = encode bytes := by
  rw [b64url_eq]
  exact Str.asBytes_ofList fun b hb => alphabet_lt (mem_alphabet_of_mem_encode b hb)

/-- The digits of an encoding carry the bits of the bytes and the zeros that fill them up. -/
private theorem digitBits_encode (bytes : List UInt8) :
    digitBits (encode bytes) = byteBits bytes ++ fill (byteBits bytes) := by
  have hbits : ∀ ns : List Nat, (∀ n ∈ ns, n < 2 ^ 6) → digitBits (ns.map digit) = ns.flatMap (bits 6) := by
    intro ns hns
    rw [digitBits, List.flatMap_map]
    refine List.flatMap_congr fun n hn => ?_
    have hlt : n < 64 := hns n hn
    rw [sextet_digit hlt, Option.getD_some, UInt32.toNat_ofNat_of_lt' (Nat.lt_trans hlt (by decide))]
  rw [encode, hbits _ sextets_lt, flatMap_sextets]

/-- `base64urlDecode` undoes base64url without padding, also on inputs whose first digits have left its buffer, and
it fails exactly on the inputs with a byte outside the alphabet. -/
theorem base64urlDecode_b64url :
    (∀ bytes, b64url bytes = String.ofList ((encode bytes).map fun b => Char.ofNat b.toNat) ∧
      base64urlDecode (b64url bytes) = some bytes) ∧
    ∀ input, base64urlDecode input = none ↔ ∃ byte ∈ Str.asBytes input, byte ∉ alphabet := by
  refine ⟨fun bytes => ⟨b64url_eq bytes, ?_⟩, fun input => decodeLoop_eq_none_iff⟩
  have hbytes : (words 8 (byteBits bytes ++ fill (byteBits bytes))).map UInt8.ofNat = bytes := by
    rw [(words_byteBits bytes).1, map_ofNat_toNat]
  have hempty : Holds (0 : UInt32).toNat [] := Holds.nil (0 : UInt32).toNat
  rw [base64urlDecode, asBytes_b64url, decodeLoop_eq mem_alphabet_of_mem_encode rfl (by decide) hempty,
    List.nil_append, digitBits_encode, hbytes]

end Coold.Agent.HostJwt
