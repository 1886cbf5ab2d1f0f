import Coold.Lib.Shell

/-!
# Lines of a text

A text that ends every line with a line feed is read line by line: `lines` leaves out the carriage return at the end of
a line (`stripCr`), and nothing else is lost (`lines_of_split`).  What is written in front of a text goes to its first
line (`split_append`), and its lines, each ended again, are the text (`unlines_split`).
-/

namespace Str

/-- A line without the carriage return at its end. -/
def stripCr (s : String) : String :=
  String.ofList (if s.toList.getLast? = some '\r' then s.toList.dropLast else s.toList)

theorem stripCr_eq_self {s : String} (h : s.toList.getLast? ≠ some '\r') : stripCr s = s := by
  rw [stripCr, if_neg h, String.ofList_toList]

theorem stripCr_append {a : String} (h : a.toList.getLast? ≠ some '\r') (b : String) :
    stripCr (a ++ b) = a ++ stripCr b := by
  by_cases hb : b.toList = []
  · have hempty : b = "" := String.toList_eq_nil_iff.1 hb
    rw [hempty, String.append_empty, stripCr_eq_self h, stripCr_eq_self (by simp), String.append_empty]
  · have hlast : (a ++ b).toList.getLast? = b.toList.getLast? := by
      rw [String.toList_append, List.getLast?_append_of_ne_nil _ hb]
    rw [← String.toList_inj, String.toList_append, stripCr, stripCr, String.toList_ofList, String.toList_ofList, hlast]
    split
    next => rw [String.toList_append, List.dropLast_append_of_ne_nil hb]
    next => exact String.toList_append

theorem mem_stripCr {s : String} {c : Char} (h : c ∈ (stripCr s).toList) : c ∈ s.toList := by
  rw [stripCr, String.toList_ofList] at h
  split at h
  next => exact List.mem_of_mem_dropLast h
  next => exact h

theorem trim_stripCr (s : String) : trim (stripCr s) = trim s := by
  by_cases hlast : s.toList.getLast? = some '\r'
  · obtain ⟨a, b, hl, ha, hb⟩ := exists_trim (String.ofList s.toList.dropLast)
    rw [String.toList_ofList] at hl
    rw [stripCr, if_pos hlast]
    refine (trim_of_around (l := a) (r := b ++ ['\r']) ?_ ha ?_ (trimmed_trim _)).symm
    · rw [← List.append_assoc, ← hl]
      exact (List.dropLast_append_getLast? _ hlast).symm
    · intro c hc
      rcases List.mem_append.1 hc with hc | hc
      · exact hb c hc
      · rw [List.mem_singleton.1 hc]
        decide
  · rw [stripCr_eq_self hlast]

/-- The lines of a text are what stands between the line feeds. -/
theorem lines_of_split {s : String} {rows : List String} (h : split '\n' s = rows ++ [""]) :
    lines s = rows.map stripCr := by
  have hparts : s.toList.splitOn '\n' = rows.map String.toList ++ [[]] := by
    have hlists := congrArg (List.map String.toList) h
    rw [split, List.map_map, List.map_append] at hlists
    simpa [Function.comp_def] using hlists
  simp only [lines, hparts, List.dropLast_concat, List.getLast?_concat, Option.getD_some, if_true, List.append_nil,
    List.map_map]
  exact List.map_congr_left fun r _ => rfl

private theorem join_split (c : Char) (s : String) : join c (split c s) = s := by
  have hlists : ((s.toList.splitOn c).map String.ofList).map String.toList = s.toList.splitOn c := by
    rw [List.map_map]
    exact List.map_id'' (fun l => String.toList_ofList) _
  rw [join, split, hlists, List.intercalate_splitOn, String.ofList_toList]

/-- What stands before the first separator goes to the first piece. -/
theorem split_append {c : Char} {a s first : String} {rest : List String} (ha : c ∉ a.toList)
    (h : split c s = first :: rest) : split c (a ++ s) = (a ++ first) :: rest := by
  have hpieces : ∀ p ∈ (a ++ first) :: rest, c ∉ p.toList := by
    intro p hp
    rcases List.mem_cons.1 hp with rfl | hp
    · rw [String.toList_append, List.mem_append, not_or]
      exact ⟨ha, (mem_of_mem_split (h ▸ List.mem_cons_self)).1⟩
    · exact (mem_of_mem_split (h ▸ List.mem_cons_of_mem first hp)).1
  have hjoin : a ++ s = join c ((a ++ first) :: rest) := by
    have hs : s = join c (first :: rest) := by rw [← h, join_split]
    cases rest with
    | nil => rw [hs, join_singleton, join_singleton]
    | cons p rest =>
      rw [hs, join_cons_cons, join_cons_cons, String.append_assoc, String.append_assoc, String.append_assoc]
  rw [hjoin, split_join c (by simp) hpieces]

/-- `from_utf8`. -/
def fromUtf8 (bytes : List UInt8) : Option String := bytes.toByteArray.utf8Decode?.map fun cs => String.ofList cs.toList

theorem fromUtf8_asBytes (s : String) : fromUtf8 (asBytes s) = some s := by
  have h : (s.toList.flatMap String.utf8EncodeChar).toByteArray = s.toList.utf8Encode := rfl
  rw [fromUtf8, asBytes, h, List.utf8Decode?_utf8Encode]
  simp

/-- Split a text at its first line feed. -/
theorem split_newline_cons {a b : String} (ha : '\n' ∉ a.toList) : split '\n' (a ++ "\n" ++ b) = a :: split '\n' b :=
  split_cons ha b

end Str

namespace Shell

/-- The lines between line feeds, each ended by a line feed, are the text and one more line feed. -/
theorem unlines_split (s : String) : unlines (Str.split '\n' s) = s ++ "\n" := by
  have hjoin : ∀ l : List String, l ≠ [] → Str.join '\n' (l ++ [""]) = Str.join '\n' l ++ "\n" := by
    intro l hl
    induction l with
    | nil => exact absurd rfl hl
    | cons p l ih =>
      cases l with
      | nil =>
        rw [List.singleton_append, Str.join_cons_cons, Str.join_singleton, Str.join_singleton, String.append_empty]
        rfl
      | cons q l =>
        rw [List.cons_append, List.cons_append, Str.join_cons_cons, ← List.cons_append, ih (by simp),
          Str.join_cons_cons, ← String.append_assoc]
  rw [unlines_eq_join, hjoin _ (by simp [Str.split]), Str.join_split]

end Shell
