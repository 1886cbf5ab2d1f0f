import Mathlib.Data.List.DropRight
import Mathlib.Data.List.Infix

/-!
# String operations of the Rust standard library

`trim` removes the characters with the Unicode property White_Space from both ends.  `split` undoes `join` and
`lines` a join with line feeds, on parts without the separator (`split_join`, `lines_join`), and `parseU32` reads back
what was printed (`parseU32_toString`).
-/

namespace Str

/-- `char::is_whitespace`. -/
def isWhitespace (c : Char) : Bool :=
  let n := c.toNat
  (0x9 ≤ n && n ≤ 0xd) || n == 0x20 || n == 0x85 || n == 0xa0 || n == 0x1680 || (0x2000 ≤ n && n ≤ 0x200a) ||
    n == 0x2028 || n == 0x2029 || n == 0x202f || n == 0x205f || n == 0x3000

/-- The printable characters of ASCII are not white space. -/
theorem isWhitespace_of_printable {c : Char} (h : 33 ≤ c.toNat ∧ c.toNat ≤ 126) : isWhitespace c = false := by
  simp only [isWhitespace, Bool.or_eq_false_iff, Bool.and_eq_false_iff, decide_eq_false_iff_not, beq_eq_false_iff_ne]
  omega

theorem printable_of_isAlphanum {c : Char} (h : c.isAlphanum = true) : 33 ≤ c.toNat ∧ c.toNat ≤ 126 := by
  have halphanum : c.isAlphanum = (c.isUpper || c.isLower || c.isDigit) := rfl
  have hupper : c.isUpper = decide ('A'.val ≤ c.val ∧ c.val ≤ 'Z'.val) := rfl
  have hlower : c.isLower = (decide ('a'.val ≤ c.val) && decide (c.val ≤ 'z'.val)) := rfl
  have hdigit : c.isDigit = (decide ('0'.val ≤ c.val) && decide (c.val ≤ '9'.val)) := rfl
  simp only [halphanum, hupper, hlower, hdigit, Bool.or_eq_true, Bool.and_eq_true, decide_eq_true_eq] at h
  rcases h with (h | h) | h
  · exact ⟨Nat.le_trans (by decide) h.1, Nat.le_trans h.2 (by decide)⟩
  · exact ⟨Nat.le_trans (by decide) h.1, Nat.le_trans h.2 (by decide)⟩
  · exact ⟨Nat.le_trans (by decide) h.1, Nat.le_trans h.2 (by decide)⟩

def trimEndWhile (p : Char → Bool) (l : List Char) : List Char := (l.reverse.dropWhile p).reverse

def trim (s : String) : String := String.ofList (trimEndWhile isWhitespace (s.toList.dropWhile isWhitespace))

/-- `trim_end_matches` of a character. -/
def trimEndMatches (c : Char) (s : String) : String := String.ofList (trimEndWhile (· = c) s.toList)

/-- `strip_prefix`: what is left after a leading pattern. -/
def strip (pattern s : String) : Option String := (List.isPrefixOf? pattern.toList s.toList).map String.ofList

/-- `trim_end_matches` of a pattern, on reversed lists. -/
def dropPattern (pattern : List Char) : Nat → List Char → List Char
  | 0, l => l
  | n + 1, l =>
    match List.isPrefixOf? pattern l with
    | some rest => dropPattern pattern n rest
    | none => l

/-- `trim_end_matches` of a string. -/
def trimEndPattern (pattern s : String) : String :=
  String.ofList (dropPattern pattern.toList.reverse s.toList.length s.toList.reverse).reverse

/-- `join` with a separator of one character. -/
def join (sep : Char) (parts : List String) : String := String.ofList ([sep].intercalate (parts.map String.toList))

/-- `split` at a character. -/
def split (c : Char) (s : String) : List String := (s.toList.splitOn c).map String.ofList

/-- What stands between characters of a kind, as far as it is not empty. -/
def words (p : Char → Bool) (s : String) : List String := ((s.toList.splitOnP p).map String.ofList).filter (· ≠ "")

/-- `splitn` at a character: at most `n` pieces, of which the last one is not split any more. -/
def splitn (n : Nat) (c : Char) (s : String) : List String := (go n s.toList).map String.ofList
where
  go : Nat → List Char → List (List Char)
    | 0, _ => []
    | 1, l => [l]
    | n + 2, l =>
      match l.dropWhile (· ≠ c) with
      | [] => [l]
      | _ :: rest => l.takeWhile (· ≠ c) :: go (n + 1) rest

/-- `split_once`: what stands before and after the first occurrence of a character. -/
def splitOnce (c : Char) (s : String) : Option (String × String) :=
  match splitn 2 c s with
  | [before, after] => some (before, after)
  | _ => none

/-- `rsplit_once`: what stands before and after the last occurrence of a character. -/
def rsplitOnce (c : Char) (s : String) : Option (String × String) :=
  match s.toList.reverse.dropWhile (· ≠ c) with
  | [] => none
  | _ :: before => some (String.ofList before.reverse, String.ofList (s.toList.reverse.takeWhile (· ≠ c)).reverse)

/-- `replacen` of one occurrence: the first place where the pattern stands. -/
def replaceFirst (pattern text s : String) : String := String.ofList (go s.toList)
where
  go : List Char → List Char
    | [] => []
    | c :: l =>
      match List.isPrefixOf? pattern.toList (c :: l) with
      | some rest => text.toList ++ rest
      | none => c :: go l

/-- `lines`: a line ends at a line feed, which may follow a carriage return; after the last line feed there is a
line only if there is text. -/
def lines (s : String) : List String :=
  let parts := s.toList.splitOn '\n'
  let ended := parts.dropLast.map fun l => if l.getLast? = some '\r' then l.dropLast else l
  let rest := parts.getLast?.getD []
  (ended ++ if rest = [] then [] else [rest]).map String.ofList

/-- `parse` of a `u32`: decimal digits with an optional sign, of a value that fits. -/
def parseU32 (s : String) : Option UInt32 :=
  let digits := if s.toList.head? = some '+' then s.toList.tail else s.toList
  if digits ≠ [] ∧ digits.all Char.isDigit ∧ Nat.ofDigitChars 10 digits 0 < UInt32.size then
    some (UInt32.ofNat (Nat.ofDigitChars 10 digits 0))
  else none

/-- `parse` of a `u16`. -/
def parseU16 (s : String) : Option UInt16 :=
  (parseU32 s).bind fun n => if n.toNat < UInt16.size then some (UInt16.ofNat n.toNat) else none

/-- The UTF-8 bytes of a string. -/
def asBytes (s : String) : List UInt8 := s.toList.flatMap String.utf8EncodeChar

private theorem isPrefixOf?_append (p l : List Char) : List.isPrefixOf? p (p ++ l) = some l := by
  induction p with
  | nil => simp [List.isPrefixOf?]
  | cons c p ih => simp [List.isPrefixOf?, ih]

theorem strip_append (pattern s : String) : strip pattern (pattern ++ s) = some s := by
  rw [strip, String.toList_append, isPrefixOf?_append, Option.map_some, String.ofList_toList]

section ReplaceFirst

variable {pattern : String} {c : Char} {p : List Char} (hp : pattern.toList = c :: p) (text : String)
include hp

/-- The pattern does not stand where its first character does not stand. -/
private theorem replaceFirst_go_append {l : List Char} (h : c ∉ l) (l' : List Char) :
    replaceFirst.go pattern text (l ++ l') = l ++ replaceFirst.go pattern text l' := by
  induction l with
  | nil => rfl
  | cons a l ih =>
    obtain ⟨hca, hl⟩ := List.ne_and_not_mem_of_not_mem_cons h
    have hnone : List.isPrefixOf? (c :: p) (a :: (l ++ l')) = none := by simp [List.isPrefixOf?, hca]
    rw [List.cons_append, replaceFirst.go, hp, hnone]
    dsimp only
    rw [ih hl]
    rfl

theorem replaceFirst_append {before : String} (h : c ∉ before.toList) (after : String) :
    replaceFirst pattern text (before ++ pattern ++ after) = before ++ text ++ after := by
  have hgo : replaceFirst.go pattern text (pattern.toList ++ after.toList) = text.toList ++ after.toList := by
    have hfound := isPrefixOf?_append (c :: p) after.toList
    rw [hp, List.cons_append, replaceFirst.go, hp]
    rw [List.cons_append] at hfound
    rw [hfound]
  rw [replaceFirst, String.toList_append, String.toList_append, List.append_assoc,
    replaceFirst_go_append hp text h, hgo]
  simp [String.ofList_append, String.append_assoc]

theorem replaceFirst_of_notMem {s : String} (h : c ∉ s.toList) : replaceFirst pattern text s = s := by
  have hgo := replaceFirst_go_append hp text h []
  rw [List.append_nil, replaceFirst.go, List.append_nil] at hgo
  rw [replaceFirst, hgo, String.ofList_toList]

end ReplaceFirst

/-- A string of white space only is trimmed to nothing. -/
theorem trim_eq_empty {s : String} (h : ∀ c ∈ s.toList, isWhitespace c = true) : trim s = "" := by
  have hdrop : s.toList.dropWhile isWhitespace = [] := List.dropWhile_eq_nil_iff.2 h
  rw [trim, hdrop]
  rfl

/-- A number is written in digits. -/
theorem isDigit_of_mem_toString {n : Nat} {c : Char} (hc : c ∈ (toString n).toList) : c.isDigit = true := by
  have hlist : (toString n).toList = Nat.toDigits 10 n := by simp
  rw [hlist] at hc
  exact Nat.isDigit_of_mem_toDigits (by decide) (by decide) hc

theorem notMem_toString {c : Char} (hc : c.isDigit = false) (n : Nat) : c ∉ (toString n).toList := by
  intro hmem
  rw [isDigit_of_mem_toString hmem] at hc
  cases hc

/-- The number that a decimal text was written from. -/
theorem parseU32_toString (n : UInt32) : parseU32 (toString n.toNat) = some n := by
  have hlist : (toString n.toNat).toList = Nat.toDigits 10 n.toNat := by simp
  have hdigit : ∀ c ∈ Nat.toDigits 10 n.toNat, c.isDigit = true :=
    fun c hc => isDigit_of_mem_toString (hlist ▸ hc)
  have hsign : (Nat.toDigits 10 n.toNat).head? ≠ some '+' := by
    intro h
    exact absurd (hdigit '+' (List.mem_of_mem_head? h)) (by decide)
  have hval : Nat.ofDigitChars 10 (Nat.toDigits 10 n.toNat) 0 = n.toNat := Nat.ofDigitChars_ten_toDigits
  simp only [parseU32, hlist, if_neg hsign, hval]
  rw [if_pos ⟨Nat.toDigits_ne_nil, List.all_eq_true.2 hdigit, n.toNat_lt_size⟩, UInt32.ofNat_toNat]

theorem parseU16_toString (n : UInt16) : parseU16 (toString n.toNat) = some n := by
  have hlt : n.toNat < 65536 := n.toNat_lt
  have hsize : n.toNat < UInt32.size := Nat.lt_trans hlt (by decide)
  have h32 := parseU32_toString (UInt32.ofNat n.toNat)
  rw [UInt32.toNat_ofNat_of_lt' hsize] at h32
  rw [parseU16, h32, Option.bind_some, UInt32.toNat_ofNat_of_lt' hsize, if_pos hlt, UInt16.ofNat_toNat]

private theorem splitOn_pieces (sep : Char) (l : List Char) :
    ∀ p ∈ l.splitOn sep, sep ∉ p ∧ ∀ c ∈ p, c ∈ l := by
  induction l with
  | nil => simp
  | cons a l ih =>
    rw [List.splitOn_cons_eq_if_modifyHead]
    split
    · intro p hp
      rcases List.mem_cons.1 hp with rfl | hp
      · simp
      · exact ⟨(ih p hp).1, fun c hc => List.mem_cons_of_mem a ((ih p hp).2 c hc)⟩
    · rename_i ha
      -- the character goes to the front of the first piece
      cases hl : l.splitOn sep with
      | nil => simp at hl
      | cons q qs =>
        rw [hl] at ih
        intro p hp
        rcases List.mem_cons.1 hp with rfl | hp
        · obtain ⟨hq, hql⟩ := ih q List.mem_cons_self
          refine ⟨?_, ?_⟩
          · rw [List.mem_cons, not_or]
            exact ⟨fun h => ha (by simp [h]), hq⟩
          · intro c hc
            rcases List.mem_cons.1 hc with rfl | hc
            · exact List.mem_cons_self
            · exact List.mem_cons_of_mem a (hql c hc)
        · obtain ⟨hq, hql⟩ := ih p (List.mem_cons_of_mem q hp)
          exact ⟨hq, fun c hc => List.mem_cons_of_mem a (hql c hc)⟩

/-- What was joined is split again, if no part has the separator in it. -/
theorem split_join (sep : Char) {parts : List String} (hne : parts ≠ []) (h : ∀ p ∈ parts, sep ∉ p.toList) :
    split sep (join sep parts) = parts := by
  have hsep : ∀ l ∈ parts.map String.toList, sep ∉ l := by
    intro l hl
    obtain ⟨p, hp, rfl⟩ := List.mem_map.1 hl
    exact h p hp
  rw [split, join, String.toList_ofList, List.splitOn_intercalate sep hsep (by simpa using hne)]
  simp

/-- The characters of a joined text are those of the separator and of the parts. -/
theorem forall_mem_intercalate {P : Char → Prop} {sep : String} (hsep : ∀ c ∈ sep.toList, P c) {parts : List String}
    (h : ∀ p ∈ parts, ∀ c ∈ p.toList, P c) : ∀ c ∈ (sep.intercalate parts).toList, P c := by
  induction parts with
  | nil => simp
  | cons p parts ih =>
    obtain ⟨hp, hparts⟩ := List.forall_mem_cons.1 h
    cases parts with
    | nil =>
      rw [String.intercalate_singleton]
      exact hp
    | cons q parts =>
      rw [String.intercalate_cons_cons]
      intro c hc
      rw [String.toList_append, String.toList_append, List.mem_append, List.mem_append] at hc
      rcases hc with (hc | hc) | hc
      · exact hp c hc
      · exact hsep c hc
      · exact ih hparts c hc

/-- The piece before the first separator. -/
theorem split_cons {c : Char} {s : String} (h : c ∉ s.toList) (t : String) :
    split c (s ++ String.singleton c ++ t) = s :: split c t := by
  have hlist : (s ++ String.singleton c ++ t).toList = s.toList ++ c :: t.toList := by simp [String.toList_append]
  rw [split, hlist, List.splitOn_append_cons_self_of_not_mem h, List.map_cons, String.ofList_toList]
  rfl

theorem split_of_notMem {c : Char} {s : String} (h : c ∉ s.toList) : split c s = [s] := by
  rw [split, List.splitOn_eq_singleton h, List.map_singleton, String.ofList_toList]

/-- After the last line feed there is an empty piece. -/
private theorem splitOn_join_newline {rows : List String} (hne : rows ≠ []) (h : ∀ r ∈ rows, '\n' ∉ r.toList) :
    (join '\n' rows ++ "\n").toList.splitOn '\n' = rows.map String.toList ++ [[]] := by
  have hsep : ∀ l ∈ rows.map String.toList, '\n' ∉ l := by
    intro l hl
    obtain ⟨r, hr, rfl⟩ := List.mem_map.1 hl
    exact h r hr
  have htext : (join '\n' rows ++ "\n").toList = ['\n'].intercalate (rows.map String.toList) ++ ['\n'] := by
    simp [join, String.toList_append]
  rw [htext, List.splitOn_append_cons_self, List.splitOn_intercalate '\n' hsep (by simpa using hne),
    List.splitOn_nil]

/-- The lines of a text that ends every line with a line feed. -/
theorem lines_join {rows : List String} (hne : rows ≠ [])
    (h : ∀ r ∈ rows, '\n' ∉ r.toList ∧ r.toList.getLast? ≠ some '\r') :
    lines (join '\n' rows ++ "\n") = rows := by
  have hparts := splitOn_join_newline hne fun r hr => (h r hr).1
  have hkeep : (rows.map String.toList).map (fun l => if l.getLast? = some '\r' then l.dropLast else l) =
      rows.map String.toList := by
    rw [List.map_map]
    refine List.map_congr_left fun r hr => ?_
    rw [Function.comp_apply, if_neg (h r hr).2]
  simp only [lines, hparts, List.dropLast_concat, hkeep]
  simp

/-- The characters of a join are those of the parts and the separator. -/
theorem mem_join {sep c : Char} {parts : List String} :
    c ∈ (join sep parts).toList → c = sep ∨ ∃ p ∈ parts, c ∈ p.toList := by
  rw [join, String.toList_ofList]
  induction parts with
  | nil => simp
  | cons p parts ih =>
    cases parts with
    | nil =>
      intro hc
      exact Or.inr ⟨p, by simp, by simpa using hc⟩
    | cons q parts =>
      intro hc
      simp only [List.map_cons, List.intercalate_cons_cons, List.append_assoc, List.mem_append, List.mem_cons,
        List.not_mem_nil, or_false] at hc ih
      rcases hc with hc | hc | hc
      · exact Or.inr ⟨p, by simp, hc⟩
      · exact Or.inl hc
      · obtain hsep | ⟨p', hp', hc'⟩ := ih hc
        · exact Or.inl hsep
        · exact Or.inr ⟨p', List.mem_cons_of_mem p (List.mem_cons.2 hp'), hc'⟩

theorem join_cons_cons (sep : Char) (p q : String) (parts : List String) :
    join sep (p :: q :: parts) = p ++ String.singleton sep ++ join sep (q :: parts) := by
  rw [← String.toList_inj]
  simp [join, String.toList_append]

theorem join_eq_intercalate (sep : Char) (parts : List String) :
    join sep parts = (String.singleton sep).intercalate parts := by
  rw [← String.toList_inj, String.toList_intercalate, join, String.toList_ofList, String.toList_singleton]

@[simp]
theorem join_singleton (sep : Char) (p : String) : join sep [p] = p := by
  rw [← String.toList_inj]
  simp [join]

/-- A text that ends every row with a line feed has the rows, and nothing after the last line feed. -/
theorem split_join_newline {rows : List String} (hne : rows ≠ []) (h : ∀ r ∈ rows, '\n' ∉ r.toList) :
    split '\n' (join '\n' rows ++ "\n") = rows ++ [""] := by
  rw [split, splitOn_join_newline hne h]
  simp

/-- The pieces of a split string have neither the separator nor a character that the string does not have. -/
theorem mem_of_mem_split {sep : Char} {s p : String} (h : p ∈ split sep s) :
    sep ∉ p.toList ∧ ∀ c ∈ p.toList, c ∈ s.toList := by
  obtain ⟨l, hl, rfl⟩ := List.mem_map.1 h
  rw [String.toList_ofList]
  exact splitOn_pieces sep s.toList l hl

/-- A line has no line feed in it. -/
theorem newline_notMem_of_mem_lines {s l : String} (h : l ∈ lines s) : '\n' ∉ l.toList := by
  have hpieces := splitOn_pieces '\n' s.toList
  simp only [lines, List.map_append, List.mem_append] at h
  rcases h with h | h
  · obtain ⟨l', hl', rfl⟩ := List.mem_map.1 h
    obtain ⟨p, hp, rfl⟩ := List.mem_map.1 hl'
    have hp' : '\n' ∉ p := (hpieces p ((List.dropLast_sublist _).subset hp)).1
    rw [String.toList_ofList]
    split
    · exact fun hc => hp' ((List.dropLast_sublist p).subset hc)
    · exact hp'
  · split at h
    · simp at h
    · obtain ⟨p, hp, rfl⟩ := List.mem_map.1 h
      rw [List.mem_singleton] at hp
      cases hlast : (s.toList.splitOn '\n').getLast? with
      | none => simp at hlast
      | some q =>
        rw [hlast, Option.getD_some] at hp
        rw [String.toList_ofList, hp]
        exact (hpieces q (List.mem_of_getLast? hlast)).1

private theorem mem_dropPattern (pattern : List Char) (c : Char) (n : Nat) (l : List Char) :
    (c ∈ dropPattern pattern n l → c ∈ l) ∧ (c ∈ l → c ∈ pattern ∨ c ∈ dropPattern pattern n l) := by
  induction n generalizing l with
  | zero => exact ⟨id, Or.inr⟩
  | succ n ih =>
    unfold dropPattern
    cases hp : List.isPrefixOf? pattern l with
    | none => exact ⟨id, Or.inr⟩
    | some rest =>
      obtain rfl := List.isPrefixOf?_eq_some_iff_append_eq.1 hp
      refine ⟨fun hc => List.mem_append_right _ ((ih rest).1 hc), fun hc => ?_⟩
      rcases List.mem_append.1 hc with hc | hc
      · exact Or.inl hc
      · exact (ih rest).2 hc

/-- What is cut off at the end has the characters of the pattern only. -/
theorem mem_trimEndPattern {pattern s : String} {c : Char} :
    (c ∈ (trimEndPattern pattern s).toList → c ∈ s.toList) ∧
      (c ∈ s.toList → c ∈ pattern.toList ∨ c ∈ (trimEndPattern pattern s).toList) := by
  have h := mem_dropPattern pattern.toList.reverse c s.toList.length s.toList.reverse
  simpa [trimEndPattern] using h

/-- Trimming a trimmed string changes nothing. -/
theorem trim_trim (s : String) : trim (trim s) = trim s := by
  let body := s.toList.dropWhile isWhitespace
  have hhead : (body.rdropWhile isWhitespace).dropWhile isWhitespace = body.rdropWhile isWhitespace := by
    rw [List.dropWhile_eq_self_iff]
    intro hl
    have hpre : body.rdropWhile isWhitespace <+: body := List.rdropWhile_prefix isWhitespace body
    have hlen : 0 < body.length := lt_of_lt_of_le hl hpre.length_le
    have hself := List.dropWhile_eq_self_iff.1 (List.dropWhile_idempotent isWhitespace s.toList) hlen
    rwa [hpre.getElem hl]
  have htail : (body.rdropWhile isWhitespace).rdropWhile isWhitespace = body.rdropWhile isWhitespace :=
    List.rdropWhile_idempotent isWhitespace body
  have htrim : trim s = String.ofList (body.rdropWhile isWhitespace) := rfl
  have hagain : trim (trim s) =
      String.ofList (((trim s).toList.dropWhile isWhitespace).rdropWhile isWhitespace) := rfl
  rw [hagain, htrim, String.toList_ofList, hhead, htail]

/-- Text that neither starts nor ends with white space. -/
def Trimmed (s : String) : Prop :=
  (∀ c ∈ s.toList.head?, isWhitespace c = false) ∧ ∀ c ∈ s.toList.getLast?, isWhitespace c = false

theorem trim_eq_self_iff {s : String} : trim s = s ↔ Trimmed s := by
  have hiff : trim s = s ↔ (s.toList.dropWhile isWhitespace).rdropWhile isWhitespace = s.toList := by
    rw [← String.toList_inj, trim, String.toList_ofList]
    rfl
  have hhead : s.toList.dropWhile isWhitespace = s.toList ↔ ∀ c ∈ s.toList.head?, isWhitespace c = false := by
    rw [List.dropWhile_eq_self_iff]
    cases s.toList with
    | nil => simp
    | cons c l => simp
  rw [hiff, Trimmed, ← hhead]
  have hlast : s.toList.rdropWhile isWhitespace = s.toList ↔ ∀ c ∈ s.toList.getLast?, isWhitespace c = false := by
    rw [List.rdropWhile_eq_self_iff]
    constructor
    · intro h c hc
      obtain ⟨hne, rfl⟩ := List.mem_getLast?_eq_getLast hc
      simpa using h hne
    · intro h hne
      simpa using h _ (List.getLast_mem_getLast? hne)
  rw [← hlast]
  constructor
  · intro h
    -- what is left is no longer than what is left of the first trimming
    have hle : s.toList.length ≤ (s.toList.dropWhile isWhitespace).length := by
      conv => lhs; rw [← h]
      exact (List.rdropWhile_prefix isWhitespace _).length_le
    have hdrop : s.toList.dropWhile isWhitespace = s.toList :=
      (List.dropWhile_suffix isWhitespace).eq_of_length_le hle
    exact ⟨hdrop, by rwa [hdrop] at h⟩
  · rintro ⟨hdrop, hrdrop⟩
    rw [hdrop, hrdrop]

/-- Text without white space is trimmed. -/
theorem trimmed_of_visible {s : String} (h : ∀ c ∈ s.toList, isWhitespace c = false) : Trimmed s :=
  ⟨fun c hc => h c (List.mem_of_mem_head? hc), fun c hc => h c (List.mem_of_mem_getLast? hc)⟩

theorem trimmed_lit {s : String} (h : (s.toList.all fun c => !isWhitespace c) = true) : Trimmed s :=
  trimmed_of_visible fun c hc => by simpa using List.all_eq_true.1 h c hc

theorem trimmed_trim (s : String) : Trimmed (trim s) := trim_eq_self_iff.1 (trim_trim s)

/-- A string is its trimmed text with white space around it. -/
theorem exists_trim (s : String) :
    ∃ l r : List Char, s.toList = l ++ (trim s).toList ++ r ∧ (∀ c ∈ l, isWhitespace c = true) ∧
      ∀ c ∈ r, isWhitespace c = true := by
  have htrim : (trim s).toList = (s.toList.dropWhile isWhitespace).rdropWhile isWhitespace := String.toList_ofList
  refine ⟨s.toList.takeWhile isWhitespace, (s.toList.dropWhile isWhitespace).rtakeWhile isWhitespace, ?_, ?_, ?_⟩
  · rw [htrim, List.append_assoc, List.rdropWhile_append_rtakeWhile, List.takeWhile_append_dropWhile]
  · exact fun c hc => List.mem_takeWhile_imp hc
  · exact fun c hc => List.mem_rtakeWhile_imp hc

/-- White space around trimmed text is what is trimmed. -/
theorem trim_of_around {s t : String} {l r : List Char} (hs : s.toList = l ++ t.toList ++ r)
    (hl : ∀ c ∈ l, isWhitespace c = true) (hr : ∀ c ∈ r, isWhitespace c = true) (ht : Trimmed t) : trim s = t := by
  rw [← String.toList_inj, trim, String.toList_ofList, hs, List.append_assoc, List.dropWhile_append_of_pos hl]
  have hrev : ∀ c ∈ r.reverse, isWhitespace c = true := fun c hc => hr c (List.mem_reverse.1 hc)
  rcases List.eq_nil_or_concat t.toList with hnil | ⟨body, last, hlast⟩
  · rw [hnil, List.nil_append, List.dropWhile_eq_nil_iff.2 hr]
    rfl
  · have hstart : (t.toList ++ r).dropWhile isWhitespace = t.toList ++ r := by
      obtain ⟨first, rest, hfirst⟩ := List.exists_cons_of_ne_nil (l := t.toList) (by simp [hlast])
      have hws := ht.1 first (by simp [hfirst])
      rw [hfirst, List.cons_append, List.dropWhile_cons_of_neg (by simp [hws])]
    have hws := ht.2 last (by simp [hlast])
    rw [hstart, trimEndWhile, List.reverse_append, List.dropWhile_append_of_pos hrev, hlast, List.concat_eq_append,
      List.reverse_append, List.reverse_singleton, List.singleton_append, List.dropWhile_cons_of_neg (by simp [hws])]
    simp

/-- The lines of a text that ends with a line feed are its rows, up to white space around them. -/
theorem map_trim_lines {s : String} {rows : List String} (h : split '\n' s = rows ++ [""]) :
    (lines s).map trim = rows.map trim := by
  have hparts : s.toList.splitOn '\n' = rows.map String.toList ++ [[]] := by
    have hlists := congrArg (List.map String.toList) h
    rw [split, List.map_map, List.map_append] at hlists
    simpa [Function.comp_def] using hlists
  have hstrip : ∀ l : List Char, trim (String.ofList (if l.getLast? = some '\r' then l.dropLast else l)) =
      trim (String.ofList l) := by
    intro l
    split
    next hlast =>
      obtain ⟨a, b, hl, ha, hb⟩ := exists_trim (String.ofList l.dropLast)
      rw [String.toList_ofList] at hl
      refine (trim_of_around (l := a) (r := b ++ ['\r']) ?_ ha ?_ (trimmed_trim _)).symm
      · rw [String.toList_ofList, ← List.append_assoc, ← hl]
        exact (List.dropLast_append_getLast? _ hlast).symm
      · intro c hc
        rcases List.mem_append.1 hc with hc | hc
        · exact hb c hc
        · rw [List.mem_singleton.1 hc]
          decide
    next => rfl
  simp only [lines, hparts, List.dropLast_concat, List.getLast?_concat, Option.getD_some, if_true, List.append_nil,
    List.map_map]
  refine List.map_congr_left fun r _ => ?_
  simp only [Function.comp_apply, hstrip, String.ofList_toList]

/-- Nonempty text between two trimmed ends is trimmed, whatever is between them. -/
theorem Trimmed.around {s t : String} (hs : Trimmed s) (ht : Trimmed t) (hne : s ≠ "") (hne' : t ≠ "") (m : String) :
    Trimmed (s ++ m ++ t) := by
  obtain ⟨c, l, hsl⟩ := List.exists_cons_of_ne_nil (mt String.toList_eq_nil_iff.1 hne)
  obtain ⟨l', c', htl⟩ := (List.eq_nil_or_concat t.toList).resolve_left (mt String.toList_eq_nil_iff.1 hne')
  refine ⟨fun a ha => hs.1 a ?_, fun a ha => ht.2 a ?_⟩
  · simpa [String.toList_append, hsl] using ha
  · simpa [String.toList_append, htl] using ha

/-- A row of nonempty trimmed parts is trimmed, whatever is between them. -/
theorem trimmed_intercalate (sep : String) {parts : List String} (hne : parts ≠ [])
    (h : ∀ p ∈ parts, Trimmed p ∧ p ≠ "") : Trimmed (sep.intercalate parts) ∧ sep.intercalate parts ≠ "" := by
  induction parts with
  | nil => exact absurd rfl hne
  | cons p parts ih =>
    obtain ⟨⟨hp, hpne⟩, hrest⟩ := List.forall_mem_cons.1 h
    cases parts with
    | nil =>
      rw [String.intercalate_singleton]
      exact ⟨hp, hpne⟩
    | cons q parts =>
      obtain ⟨htrim, hjoin⟩ := ih (by simp) hrest
      rw [String.intercalate_cons_cons]
      exact ⟨hp.around htrim hpne hjoin sep, by simp [hpne]⟩

theorem trimmed_join (sep : Char) {parts : List String} (hne : parts ≠ []) (h : ∀ p ∈ parts, Trimmed p ∧ p ≠ "") :
    Trimmed (join sep parts) ∧ join sep parts ≠ "" := by
  rw [join_eq_intercalate]
  exact trimmed_intercalate _ hne h

private theorem join_append_cons (sep : Char) (a p : String) (parts : List String) :
    join sep ((a ++ p) :: parts) = a ++ join sep (p :: parts) := by
  cases parts with
  | nil => rw [join_singleton, join_singleton]
  | cons q parts => rw [join_cons_cons, join_cons_cons, String.append_assoc, String.append_assoc, String.append_assoc]

/-- A blank after a separator is the first character of the part that follows. -/
private theorem intercalate_comma (p : String) (parts : List String) :
    ", ".intercalate (p :: parts) = join ',' (p :: parts.map fun q => " " ++ q) := by
  have hsep : ", " = String.singleton ',' ++ " " := by decide
  induction parts generalizing p with
  | nil => rw [String.intercalate_singleton, List.map_nil, join_singleton]
  | cons q parts ih =>
    rw [String.intercalate_cons_cons, ih, List.map_cons, join_cons_cons, join_append_cons, hsep,
      String.append_assoc, String.append_assoc, String.append_assoc]

/-- What is joined with a comma and a blank is split at the commas and trimmed. -/
theorem map_trim_split_comma {parts : List String} (hne : parts ≠ []) (h : ∀ p ∈ parts, Trimmed p ∧ ',' ∉ p.toList) :
    (split ',' (", ".intercalate parts)).map trim = parts := by
  obtain ⟨p, parts, rfl⟩ := List.exists_cons_of_ne_nil hne
  obtain ⟨⟨hp, hcomma⟩, hrest⟩ := List.forall_mem_cons.1 h
  have hsplit : split ',' (", ".intercalate (p :: parts)) = p :: parts.map fun q => " " ++ q := by
    rw [intercalate_comma]
    refine split_join ',' (by simp) (List.forall_mem_cons.2 ⟨hcomma, fun text htext => ?_⟩)
    obtain ⟨q, hq, rfl⟩ := List.mem_map.1 htext
    simp [String.toList_append, (hrest q hq).2]
  have htrim : ∀ q ∈ parts, trim (" " ++ q) = q := fun q hq =>
    trim_of_around (l := [' ']) (r := []) (by simp [String.toList_append]) (List.forall_mem_singleton.2 rfl) (by simp)
      (hrest q hq).1
  rw [hsplit, List.map_cons, List.map_map, trim_eq_self_iff.2 hp]
  congr 1
  exact (List.map_congr_left fun q hq => htrim q hq).trans (List.map_id _)

theorem trim_chars {s : String} {c : Char} (h : c ∈ (trim s).toList) : c ∈ s.toList := by
  rw [trim, String.toList_ofList] at h
  exact (List.dropWhile_suffix isWhitespace).subset ((List.rdropWhile_prefix isWhitespace _).subset h)

theorem splitn_cons {c : Char} {p : String} (hp : c ∉ p.toList) (n : Nat) (s : String) :
    splitn (n + 2) c (p ++ String.singleton c ++ s) = p :: splitn (n + 1) c s := by
  have hall : ∀ a ∈ p.toList, decide (a ≠ c) = true := by
    intro a ha
    simpa using fun h : a = c => hp (h ▸ ha)
  have htext : (p ++ String.singleton c ++ s).toList = p.toList ++ c :: s.toList := by
    simp [String.toList_append]
  rw [splitn, htext, splitn.go, List.dropWhile_append_of_pos hall, List.takeWhile_append_of_pos hall]
  simp [splitn]

theorem splitOnce_append {c : Char} {p : String} (hp : c ∉ p.toList) (s : String) :
    splitOnce c (p ++ String.singleton c ++ s) = some (p, s) := by
  have hrest : splitn 1 c s = [s] := by simp [splitn, splitn.go]
  rw [splitOnce, splitn_cons hp 0 s, hrest]

theorem splitOnce_cases (c : Char) (s : String) :
    (c ∉ s.toList ∧ splitOnce c s = none) ∨
      ∃ before after, c ∉ before.toList ∧ s = before ++ String.singleton c ++ after ∧
        splitOnce c s = some (before, after) := by
  by_cases hc : c ∈ s.toList
  · obtain ⟨l, r, hs, hl⟩ := List.eq_append_cons_of_mem hc
    have htext : s = String.ofList l ++ String.singleton c ++ String.ofList r := by
      rw [← String.toList_inj, hs]
      simp [String.toList_append]
    have hbefore : c ∉ (String.ofList l).toList := by rwa [String.toList_ofList]
    refine .inr ⟨_, _, hbefore, htext, ?_⟩
    conv_lhs => rw [htext]
    exact splitOnce_append hbefore _
  · refine .inl ⟨hc, ?_⟩
    have hdrop : s.toList.dropWhile (· ≠ c) = [] := by
      rw [List.dropWhile_eq_nil_iff]
      exact fun a ha => by simpa using fun h : a = c => hc (h ▸ ha)
    rw [splitOnce, splitn, splitn.go, hdrop]
    rfl

theorem rsplitOnce_eq_none {c : Char} {s : String} (h : c ∉ s.toList) : rsplitOnce c s = none := by
  have hdrop : s.toList.reverse.dropWhile (· ≠ c) = [] := by
    rw [List.dropWhile_eq_nil_iff]
    exact fun a ha => by simpa using fun heq : a = c => h (heq ▸ List.mem_reverse.1 ha)
  rw [rsplitOnce, hdrop]

theorem rsplitOnce_cases (c : Char) (s : String) :
    (c ∉ s.toList ∧ rsplitOnce c s = none) ∨
      ∃ before after, s = before ++ String.singleton c ++ after ∧ rsplitOnce c s = some (before, after) := by
  unfold rsplitOnce
  have hsplit := List.takeWhile_append_dropWhile (p := (· ≠ c)) (l := s.toList.reverse)
  cases hdrop : s.toList.reverse.dropWhile (· ≠ c) with
  | nil =>
    refine .inl ⟨fun hc => ?_, rfl⟩
    have hall := List.dropWhile_eq_nil_iff.1 hdrop c (List.mem_reverse.2 hc)
    simp at hall
  | cons x before =>
    have hx : x = c := by
      have hhead := List.head?_dropWhile_not (· ≠ c) s.toList.reverse
      rw [hdrop] at hhead
      simpa using hhead
    refine .inr ⟨_, _, ?_, rfl⟩
    rw [hdrop] at hsplit
    have hlist := congrArg List.reverse hsplit
    rw [List.reverse_append, List.reverse_reverse, List.reverse_cons] at hlist
    rw [← String.toList_inj]
    exact hlist.symm.trans (by simp [String.toList_append, hx])

/-- The first piece does not have the separator, and the rest is split further. -/
theorem splitn_eq_cons_cons {n : Nat} {c : Char} {s a b : String} {ps : List String}
    (h : splitn (n + 2) c s = a :: b :: ps) :
    c ∉ a.toList ∧ (∀ x ∈ a.toList, x ∈ s.toList) ∧
      ∃ rest, splitn (n + 1) c rest = b :: ps ∧ ∀ x ∈ rest.toList, x ∈ s.toList := by
  rw [splitn, splitn.go] at h
  split at h
  · simp at h
  · rename_i x rest hdrop
    simp only [List.map_cons, List.cons.injEq] at h
    obtain ⟨rfl, hrest⟩ := h
    refine ⟨?_, ?_, String.ofList rest, ?_, ?_⟩
    · rw [String.toList_ofList]
      intro hc
      simpa using List.all_eq_true.1 List.all_takeWhile c hc
    · rw [String.toList_ofList]
      exact fun a ha => (List.takeWhile_prefix _).subset ha
    · rw [splitn, String.toList_ofList, hrest]
    · rw [String.toList_ofList]
      intro a ha
      refine (List.dropWhile_suffix (· ≠ c)).subset ?_
      rw [hdrop]
      exact List.mem_cons_of_mem x ha

/-! ### Bytes -/

/-- The first characters of a text, if they have just this many bytes: `&s[..n]` of a text that is longer. -/
def takeBytes (n : Nat) (s : String) : Option String := (go n s.toList).map String.ofList
where
  go : Nat → List Char → Option (List Char)
    | 0, _ => some []
    | _ + 1, [] => none
    | n + 1, c :: l => if c.utf8Size ≤ n + 1 then (go (n + 1 - c.utf8Size) l).map (c :: ·) else none


/-- A character of ASCII is its own byte. -/
theorem utf8EncodeChar_of_lt {c : Char} (h : c.toNat < 128) : String.utf8EncodeChar c = [UInt8.ofNat c.toNat] := by
  have hval : c.val.toNat = c.toNat := rfl
  have hsize : c.utf8Size = 1 := by
    rw [Char.utf8Size_eq_one_iff, UInt32.le_iff_toNat_le, hval]
    exact Nat.le_of_lt_succ h
  rw [String.utf8EncodeChar_eq_singleton hsize, ← hval]
  rfl

theorem toNat_ofNat_of_lt {b : UInt8} (h : b < 128) : (Char.ofNat b.toNat).toNat = b.toNat := by
  have hb : b.toNat < 128 := h
  rw [Char.ofNat, dif_pos (Or.inl (by omega))]
  rfl

/-- The bytes of a text of ASCII that was made from them. -/
theorem asBytes_ofList {bytes : List UInt8} (h : ∀ b ∈ bytes, b < 128) :
    asBytes (String.ofList (bytes.map fun b => Char.ofNat b.toNat)) = bytes := by
  rw [asBytes, String.toList_ofList]
  induction bytes with
  | nil => rfl
  | cons b bytes ih =>
    obtain ⟨hb, hrest⟩ := List.forall_mem_cons.1 h
    have hlt : (Char.ofNat b.toNat).toNat < 128 := by
      rw [toNat_ofNat_of_lt hb]
      exact hb
    rw [List.map_cons, List.flatMap_cons, utf8EncodeChar_of_lt hlt, ih hrest, toNat_ofNat_of_lt hb, UInt8.ofNat_toNat]
    rfl

/-- A text is known by its bytes. -/
theorem asBytes_inj {s t : String} (h : asBytes s = asBytes t) : s = t := by
  have hbytes : ∀ u : String, u.toByteArray = (asBytes u).toByteArray := by
    intro u
    rw [← String.utf8Encode_toList]
    rfl
  rw [← String.toByteArray_inj, hbytes, hbytes, h]

theorem lt_of_mem_asBytes {s : String} (h : ∀ c ∈ s.toList, c.toNat < 128) : ∀ b ∈ asBytes s, b < 128 := by
  intro b hb
  obtain ⟨c, hc, hb⟩ := List.mem_flatMap.1 hb
  rw [utf8EncodeChar_of_lt (h c hc), List.mem_singleton] at hb
  have hlt := h c hc
  rw [hb, UInt8.lt_iff_toNat_lt, UInt8.toNat_ofNat_of_lt' (Nat.lt_trans hlt (by decide))]
  exact hlt

/-! ### Words -/

private theorem words_of_forall {p : Char → Bool} {w : String} (hne : w ≠ "") (h : ∀ c ∈ w.toList, p c = false) :
    words p w = [w] := by
  rw [words, List.splitOnP_eq_singleton h, List.map_singleton, String.ofList_toList]
  exact List.filter_eq_self.2 (List.forall_mem_singleton.2 (decide_eq_true hne))

/-- Words with a separator between them are found again. -/
theorem words_join {p : Char → Bool} {sep : Char} (hsep : p sep = true) {ws : List String} (hne : ws ≠ [])
    (h : ∀ w ∈ ws, w ≠ "" ∧ ∀ c ∈ w.toList, p c = false) : words p (join sep ws) = ws := by
  induction ws with
  | nil => exact absurd rfl hne
  | cons w ws ih =>
    obtain ⟨hw, hws⟩ := List.forall_mem_cons.1 h
    cases ws with
    | nil =>
      rw [join_singleton]
      exact words_of_forall hw.1 hw.2
    | cons v ws =>
      have hchars : (join sep (w :: v :: ws)).toList = w.toList ++ sep :: (join sep (v :: ws)).toList := by
        rw [join_cons_cons]
        simp
      have hkept : decide (w ≠ "") = true := decide_eq_true hw.1
      rw [words, hchars, List.splitOnP_append_cons_of_forall_mem hw.2 sep hsep, List.map_cons, String.ofList_toList,
        List.filter_cons, if_pos hkept]
      exact congrArg _ (ih (List.cons_ne_nil v ws) hws)

/-! ### Splitting at a string -/

/-- `split` at a string that is not empty. -/
def splitPattern (pattern s : String) : List String := (go pattern.toList 0 s.toList).map String.ofList
where
  /-- The number is how much of the pattern is still to be passed over. -/
  go (pattern : List Char) : Nat → List Char → List (List Char)
    | _, [] => [[]]
    | skip + 1, _ :: l => go pattern skip l
    | 0, c :: l =>
      if pattern.isPrefixOf (c :: l) then [] :: go pattern (pattern.length - 1) l
      else (go pattern 0 l).modifyHead (c :: ·)

private theorem splitPattern_go_skip (pattern a b : List Char) :
    splitPattern.go pattern a.length (a ++ b) = splitPattern.go pattern 0 b := by
  induction a with
  | nil => rfl
  | cons c a ih => exact ih

/-- The first piece ends where the pattern is first found. -/
theorem splitPattern_go_append {c : Char} {pattern a : List Char} (ha : c ∉ a) (b : List Char) :
    splitPattern.go (c :: pattern) 0 (a ++ c :: pattern ++ b) = a :: splitPattern.go (c :: pattern) 0 b := by
  induction a with
  | nil =>
    have hprefix : (c :: pattern).isPrefixOf (c :: (pattern ++ b)) = true :=
      List.isPrefixOf_iff_prefix.2 (List.prefix_append (c :: pattern) b)
    show splitPattern.go (c :: pattern) 0 (c :: (pattern ++ b)) = _
    rw [splitPattern.go, if_pos hprefix, List.length_cons, Nat.add_sub_cancel, splitPattern_go_skip]
  | cons d a ih =>
    have hne : c ≠ d := fun h => ha (h ▸ List.mem_cons_self)
    have hprefix : ¬ (c :: pattern).isPrefixOf (d :: (a ++ c :: pattern ++ b)) = true := by
      simp [List.isPrefixOf, hne]
    show splitPattern.go (c :: pattern) 0 (d :: (a ++ c :: pattern ++ b)) = _
    rw [splitPattern.go, if_neg hprefix, ih fun hmem => ha (List.mem_cons_of_mem d hmem)]
    rfl

/-- The first piece is what stands before the pattern, or everything. -/
theorem exists_splitPattern_go (pattern l : List Char) : ∃ piece rest pieces,
    splitPattern.go pattern 0 l = piece :: pieces ∧ l = piece ++ rest ∧ (rest = [] ∨ pattern <+: rest) := by
  induction l with
  | nil => exact ⟨[], [], [], rfl, rfl, Or.inl rfl⟩
  | cons c l ih =>
    rw [splitPattern.go]
    split
    · rename_i hprefix
      exact ⟨[], c :: l, _, rfl, rfl, Or.inr (List.isPrefixOf_iff_prefix.1 hprefix)⟩
    · obtain ⟨piece, rest, pieces, hgo, hl, hrest⟩ := ih
      rw [hgo]
      exact ⟨c :: piece, rest, pieces, rfl, by rw [hl, List.cons_append], hrest⟩

end Str
