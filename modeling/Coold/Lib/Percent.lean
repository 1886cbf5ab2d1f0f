import Coold.Lib.Str

/-!
# Percent-encoding

`encode keep` writes the bytes that `keep` allows as they are and every other byte as `%` and two hexadecimal digits.
If only ASCII is kept and `%` is not, `decode` reads the bytes back (`decode_encode`), and a character of the result is
a kept one, `%` or a digit (`notMem_encode`).  So nothing that is encoded can be taken for a delimiter, and a text that
was joined from such pieces is split into them again (`splitOnP_join`, `filter_join`).
-/

namespace Percent

def hexDigit (n : Nat) : Char := "0123456789ABCDEF".toList.getD n '0'

/-- The value of a hexadecimal digit. -/
def hexValue (c : Char) : Option Nat :=
  if '0' ≤ c ∧ c ≤ '9' then some (c.toNat - '0'.toNat)
  else if 'A' ≤ c ∧ c ≤ 'F' then some (c.toNat - 'A'.toNat + 10)
  else if 'a' ≤ c ∧ c ≤ 'f' then some (c.toNat - 'a'.toNat + 10)
  else none

def encodeByte (keep : UInt8 → Bool) (b : UInt8) : List Char :=
  if keep b then [Char.ofNat b.toNat] else ['%', hexDigit (b.toNat / 16), hexDigit (b.toNat % 16)]

def encode (keep : UInt8 → Bool) (bytes : List UInt8) : List Char := bytes.flatMap (encodeByte keep)

/-- The bytes of a text, `%` with two hexadecimal digits being one byte. -/
def decode : List Char → List UInt8
  | [] => []
  | '%' :: a :: b :: l =>
    match hexValue a, hexValue b with
    | some x, some y => UInt8.ofNat (16 * x + y) :: decode l
    | _, _ => String.utf8EncodeChar '%' ++ decode (a :: b :: l)
  | c :: l => String.utf8EncodeChar c ++ decode l

section Keep

variable {keep : UInt8 → Bool}

private theorem hexValue_hexDigit (n : Fin 16) : hexValue (hexDigit n) = some n.val := by
  revert n
  decide

private theorem decode_cons_of_ne {c : Char} (h : c ≠ '%') (l : List Char) :
    decode (c :: l) = String.utf8EncodeChar c ++ decode l := by
  rw [decode.eq_def]
  split
  · cases ‹c :: l = []›
  · injection ‹c :: l = _› with hc
    exact absurd hc h
  · injection ‹c :: l = _› with hc hl
    rw [hc, hl]

private theorem decode_percent {x y : Fin 16} (l : List Char) :
    decode ('%' :: hexDigit x :: hexDigit y :: l) = UInt8.ofNat (16 * x + y) :: decode l := by
  rw [decode, hexValue_hexDigit, hexValue_hexDigit]

private theorem decode_encodeByte (hkeep : ∀ b, keep b = true → b < 128 ∧ b ≠ 37) (b : UInt8) (l : List Char) :
    decode (encodeByte keep b ++ l) = b :: decode l := by
  rw [encodeByte]
  split
  · rename_i hk
    obtain ⟨hlt, hne⟩ := hkeep b hk
    have hval : (Char.ofNat b.toNat).toNat = b.toNat := Str.toNat_ofNat_of_lt hlt
    have hc : Char.ofNat b.toNat ≠ '%' := by
      intro h
      rw [h] at hval
      exact hne (UInt8.toNat.inj hval.symm)
    have hascii : (Char.ofNat b.toNat).toNat < 128 := by
      rw [hval]
      exact hlt
    rw [List.singleton_append, decode_cons_of_ne hc, Str.utf8EncodeChar_of_lt hascii, hval, UInt8.ofNat_toNat]
    rfl
  · have hb : b.toNat < 256 := b.toNat_lt
    have hdiv : b.toNat / 16 < 16 := by omega
    have hmod : b.toNat % 16 < 16 := by omega
    have hsum : 16 * (b.toNat / 16) + b.toNat % 16 = b.toNat := by omega
    show decode ('%' :: hexDigit (b.toNat / 16) :: hexDigit (b.toNat % 16) :: l) = _
    rw [decode_percent (x := ⟨b.toNat / 16, hdiv⟩) (y := ⟨b.toNat % 16, hmod⟩) l, hsum, UInt8.ofNat_toNat]

theorem decode_encode (hkeep : ∀ b, keep b = true → b < 128 ∧ b ≠ 37) (bytes : List UInt8) :
    decode (encode keep bytes) = bytes := by
  induction bytes with
  | nil => rfl
  | cons b bytes ih => rw [encode, List.flatMap_cons, decode_encodeByte hkeep, ← encode, ih]

theorem mem_encode {bytes : List UInt8} {c : Char} (h : c ∈ encode keep bytes) :
    (∃ b, keep b = true ∧ c = Char.ofNat b.toNat) ∨ c = '%' ∨ ∃ n : Fin 16, c = hexDigit n := by
  obtain ⟨b, -, hc⟩ := List.mem_flatMap.1 h
  rw [encodeByte] at hc
  split at hc
  · rename_i hk
    exact Or.inl ⟨b, hk, List.mem_singleton.1 hc⟩
  · have hb : b.toNat < 256 := b.toNat_lt
    simp only [List.mem_cons, List.not_mem_nil, or_false] at hc
    rcases hc with rfl | rfl | rfl
    · exact Or.inr (Or.inl rfl)
    · exact Or.inr (Or.inr ⟨⟨b.toNat / 16, by omega⟩, rfl⟩)
    · exact Or.inr (Or.inr ⟨⟨b.toNat % 16, by omega⟩, rfl⟩)

/-- A character that is not kept, and not used for escapes, does not occur. -/
theorem notMem_encode (hkeep : ∀ b, keep b = true → b < 128) {c : Char} (hc : keep (UInt8.ofNat c.toNat) = false)
    (hpercent : c ≠ '%') (hdigit : ∀ n : Fin 16, c ≠ hexDigit n) (bytes : List UInt8) : c ∉ encode keep bytes := by
  intro hmem
  rcases mem_encode hmem with ⟨b, hb, hchar⟩ | hchar | ⟨n, hchar⟩
  · have hval : c.toNat = b.toNat := by
      rw [hchar]
      exact Str.toNat_ofNat_of_lt (hkeep b hb)
    rw [hval, UInt8.ofNat_toNat, hb] at hc
    exact Bool.noConfusion hc
  · exact hpercent hchar
  · exact hdigit n hchar

end Keep

/-! ### Delimiters -/

section Split

variable {α : Type*} {p : α → Bool}

/-- A first piece and further pieces, each after its delimiter. -/
def join (piece : List α) : List (α × List α) → List α
  | [] => piece
  | (d, next) :: rest => piece ++ d :: join next rest

/-- A text that was joined from pieces without delimiters is split into them. -/
theorem splitOnP_join {piece : List α} {rest : List (α × List α)} (hpiece : ∀ c ∈ piece, p c = false)
    (hrest : ∀ x ∈ rest, p x.1 = true ∧ ∀ c ∈ x.2, p c = false) :
    (join piece rest).splitOnP p = piece :: rest.map Prod.snd := by
  induction rest generalizing piece with
  | nil => exact List.splitOnP_eq_singleton hpiece
  | cons x rest ih =>
    obtain ⟨⟨hd, hnext⟩, hrest⟩ := List.forall_mem_cons.1 hrest
    rw [join, List.splitOnP_append_cons_of_forall_mem hpiece x.1 hd, ih hnext hrest, List.map_cons]

theorem filter_join {piece : List α} {rest : List (α × List α)} (hpiece : ∀ c ∈ piece, p c = false)
    (hrest : ∀ x ∈ rest, p x.1 = true ∧ ∀ c ∈ x.2, p c = false) :
    (join piece rest).filter p = rest.map Prod.fst := by
  have hnone : ∀ l : List α, (∀ c ∈ l, p c = false) → l.filter p = [] := by
    intro l hl
    rw [List.filter_eq_nil_iff]
    intro c hc
    rw [hl c hc]
    exact Bool.false_ne_true
  induction rest generalizing piece with
  | nil => exact hnone piece hpiece
  | cons x rest ih =>
    obtain ⟨⟨hd, hnext⟩, hrest⟩ := List.forall_mem_cons.1 hrest
    rw [join, List.filter_append, hnone piece hpiece, List.filter_cons_of_pos hd, ih hnext hrest, List.map_cons,
      List.nil_append]

end Split

end Percent
