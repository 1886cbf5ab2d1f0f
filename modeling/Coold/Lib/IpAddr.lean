import Mathlib.Algebra.Group.Nat.Defs

/-!
# IP addresses and their textual form

The parser of the Rust standard library for `IpAddr`: four decimal octets without leading zeros, or up to eight
groups of hexadecimal digits with at most one `::` and an optional embedded IPv4 address at the end.  A parser
takes the remaining characters and, when it fails, consumes nothing.
-/

inductive IpAddr where
  | v4 (bits : BitVec 32)
  | v6 (bits : BitVec 128)
  deriving DecidableEq

namespace IpAddr

abbrev Parser (α : Type) := StateT (List Char) Option α

def readGivenChar (target : Char) : Parser Unit
  | [] => none
  | c :: s => if c = target then some ((), s) else none

/-- Run a parser, after a separator unless it is the first of its row. -/
def readSeparator {α : Type} (sep : Char) (index : Nat) (inner : Parser α) : Parser α := do
  if 0 < index then readGivenChar sep
  inner

def toDigit (radix : Nat) (c : Char) : Option Nat :=
  let digit :=
    if '0' ≤ c ∧ c ≤ '9' then some (c.toNat - '0'.toNat)
    else if 'a' ≤ c ∧ c ≤ 'z' then some (c.toNat - 'a'.toNat + 10)
    else if 'A' ≤ c ∧ c ≤ 'Z' then some (c.toNat - 'A'.toNat + 10)
    else none
  digit.filter fun d => d < radix

/-- Read the longest run of digits; it must be a number below `bound` of at most `maxDigits` digits. -/
def readNumber (radix maxDigits bound : Nat) (allowZeroPrefix : Bool) : Parser Nat := fun s =>
  let digits := s.takeWhile fun c => (toDigit radix c).isSome
  let result := digits.foldl (fun acc c => acc * radix + (toDigit radix c).getD 0) 0
  if digits.length > maxDigits then none
  else if digits.length = 0 then none
  else if !allowZeroPrefix && s.head? = some '0' && digits.length > 1 then none
  else if result < bound then some (result, s.drop digits.length)
  else none

def readIpv4Addr : Parser (List Nat) := do
  let a ← readSeparator '.' 0 (readNumber 10 3 256 false)
  let b ← readSeparator '.' 1 (readNumber 10 3 256 false)
  let c ← readSeparator '.' 2 (readNumber 10 3 256 false)
  let d ← readSeparator '.' 3 (readNumber 10 3 256 false)
  return [a, b, c, d]

/-- Read at most `limit` groups, of which `left` are still to come; the flag says whether the row ended in an
embedded IPv4 address, which needs the room of two groups. -/
def readGroups (limit : Nat) : (left : Nat) → List Char → (List Nat × Bool) × List Char
  | 0, s => (([], false), s)
  | left + 1, s =>
    let i := limit - (left + 1)
    match if i + 1 < limit then readSeparator ':' i readIpv4Addr s else none with
    | some ([a, b, c, d], s) => (([a * 256 + b, c * 256 + d], true), s)
    | _ =>
      match readSeparator ':' i (readNumber 16 4 65536 true) s with
      | some (g, s) =>
        let rest := readGroups limit left s
        ((g :: rest.1.1, rest.1.2), rest.2)
      | none => (([], false), s)

def readIpv6Addr : Parser (List Nat) := fun s =>
  let head := readGroups 8 8 s
  let headSize := head.1.1.length
  if headSize = 8 then some (head.1.1, head.2)
  -- an IPv4 part is not allowed before `::`
  else if head.1.2 then none
  else do
    let ((), s) ← readGivenChar ':' head.2
    let ((), s) ← readGivenChar ':' s
    -- the `::` stands for at least one group of zeros
    let limit := 8 - (headSize + 1)
    let tail := readGroups limit limit s
    some (head.1.1 ++ List.replicate (8 - headSize - tail.1.1.length) 0 ++ tail.1.1, tail.2)

/-- The number with the given digits in base `2 ^ width`. -/
def ofDigits (width : Nat) (digits : List Nat) : Nat :=
  digits.foldl (fun acc d => acc * 2 ^ width + d) 0

def readIpAddr : Parser IpAddr := fun s =>
  match readIpv4Addr s with
  | some (octets, s) => some (.v4 (BitVec.ofNat 32 (ofDigits 8 octets)), s)
  | none => (readIpv6Addr s).map fun r => (.v6 (BitVec.ofNat 128 (ofDigits 16 r.1)), r.2)

/-- What a parser consumes has the property. -/
def Consumes {α : Type} (P : Char → Prop) (p : Parser α) : Prop :=
  ∀ l a rest, p l = some (a, rest) → ∃ used, l = used ++ rest ∧ ∀ c ∈ used, P c

section Consumes

variable {α β : Type} {P : Char → Prop}

private theorem consumes_pure (a : α) : Consumes P (pure a : Parser α) := by
  intro l b rest h
  cases h
  exact ⟨[], rfl, by simp⟩

theorem Consumes.bind {p : Parser α} {q : α → Parser β} (hp : Consumes P p) (hq : ∀ a, Consumes P (q a)) :
    Consumes P (p >>= q) := by
  intro l b rest h
  obtain ⟨⟨a, mid⟩, hpl, hqm⟩ := Option.bind_eq_some_iff.1 h
  obtain ⟨used, rfl, hused⟩ := hp l a mid hpl
  obtain ⟨used', rfl, hused'⟩ := hq a mid b rest hqm
  refine ⟨used ++ used', by rw [List.append_assoc], fun c hc => ?_⟩
  rcases List.mem_append.1 hc with hc | hc
  · exact hused c hc
  · exact hused' c hc

private theorem consumes_readGivenChar {target : Char} (h : P target) : Consumes P (readGivenChar target) := by
  intro l a rest hl
  cases l with
  | nil => cases hl
  | cons c l =>
    obtain ⟨rfl, ⟨⟩⟩ := Option.ite_none_right_eq_some.1 hl
    exact ⟨[c], rfl, by simpa using h⟩

private theorem consumes_readSeparator {sep : Char} {index : Nat} {inner : Parser α} (hsep : P sep)
    (h : Consumes P inner) :
    Consumes P (readSeparator sep index inner) := by
  unfold readSeparator
  split
  · exact (consumes_readGivenChar hsep).bind fun _ => h
  · exact (consumes_pure ()).bind fun _ => h

private theorem consumes_readNumber {radix maxDigits bound : Nat} {allowZeroPrefix : Bool}
    (h : ∀ c, (toDigit radix c).isSome = true → P c) :
    Consumes P (readNumber radix maxDigits bound allowZeroPrefix) := by
  intro l a rest hl
  unfold readNumber at hl
  dsimp only at hl
  split at hl
  · cases hl
  · split at hl
    · cases hl
    · split at hl
      · cases hl
      · obtain ⟨-, ⟨⟩⟩ := Option.ite_none_right_eq_some.1 hl
        exact ⟨l.takeWhile fun c => (toDigit radix c).isSome,
          (List.prefix_iff_eq_append.1 (List.takeWhile_prefix _)).symm,
          fun c hc => h c (List.all_eq_true.1 List.all_takeWhile c hc)⟩

end Consumes

/-- The text of an IPv4 address consists of digits and dots. -/
theorem consumes_readIpv4Addr : Consumes (fun c => c.isDigit = true ∨ c = '.') readIpv4Addr := by
  have hdigit : ∀ c, (toDigit 10 c).isSome = true → c.isDigit = true ∨ c = '.' := by
    intro c hc
    unfold toDigit at hc
    by_cases h : '0' ≤ c ∧ c ≤ '9'
    · exact Or.inl (by simpa [Char.isDigit, Char.le_def] using h)
    · -- the value of a letter is not below ten
      rw [if_neg h] at hc
      split at hc
      · simp only [Option.filter, Option.isSome_ite, decide_eq_true_eq] at hc
        omega
      · split at hc
        · simp only [Option.filter, Option.isSome_ite, decide_eq_true_eq] at hc
          omega
        · cases hc
  have hoctet (index : Nat) : Consumes (fun c => c.isDigit = true ∨ c = '.')
      (readSeparator '.' index (readNumber 10 3 256 false)) :=
    consumes_readSeparator (Or.inr rfl) (consumes_readNumber hdigit)
  exact (hoctet 0).bind fun _ => (hoctet 1).bind fun _ => (hoctet 2).bind fun _ => (hoctet 3).bind fun _ =>
    consumes_pure _

/-- Parse a whole string. -/
def parse (s : String) : Option IpAddr :=
  match readIpAddr s.toList with
  | some (ip, []) => some ip
  | _ => none

/-- Parse a whole string as an IPv4 address. -/
def parseV4 (s : String) : Option (BitVec 32) :=
  match readIpv4Addr s.toList with
  | some (octets, []) => some (BitVec.ofNat 32 (ofDigits 8 octets))
  | _ => none

theorem parseV4_chars {s : String} {ip : BitVec 32} (h : parseV4 s = some ip) {c : Char} (hc : c ∈ s.toList) :
    c.isDigit = true ∨ c = '.' := by
  unfold parseV4 at h
  split at h
  · rename_i octets hread
    obtain ⟨used, hused, hchars⟩ := consumes_readIpv4Addr _ _ _ hread
    rw [hused, List.append_nil] at hc
    exact hchars c hc
  · cases h

example : parse "100.64.0.5" = some (.v4 0x64400005#32) := by decide

example : parse "::ffff:1.2.3.4" = some (.v6 0xffff01020304#128) := by decide

example : parse "100.64.0.05" = none := by decide

end IpAddr
