import Coold.Agent.CorrosionClient
import Coold.Lib.Sql

/-!
# The dump of all tables

`tablesJson` asks for the names of the tables, and for each of them for its columns and its first rows.  The name of a
table is written into the statements, so the server sees it only as far as the statement is read the right way.

`statements_name` says which tokens the two statements are, whatever the name is.  `tables_dumped` says that the dump of
a server that understands these tokens has every table of it, with its columns and its first rows.
-/

namespace Coold.Agent.Corrosion

open Exchange Firewall

/-- A table, with the rows of `table_info`, of which the second column is the name of a column. -/
structure DbTable where
  name : String
  info : List (List Json.Value)
  rows : List (List Json.Value)

structure CorrosionTable where
  name : String
  columns : List String
  rows : List (List Json.Value)

structure CorrosionTablesDump where
  limit : Nat
  tables : List CorrosionTable

def quoteIdentifier (value : String) : String :=
  "\"" ++ String.ofList (value.toList.flatMap fun c => if c = '"' then ['"', '"'] else [c]) ++ "\""

def namesSql : String :=
  "SELECT name FROM sqlite_schema WHERE type = 'table' AND name NOT LIKE 'sqlite_%' ORDER BY name"

def infoSql (name : String) : String := "PRAGMA table_info(" ++ quoteIdentifier name ++ ")"

def rowsSql (name : String) (limit : Nat) : String :=
  "SELECT * FROM " ++ quoteIdentifier name ++ " LIMIT " ++ toString limit

/-- `clamp(1, 1000)`. -/
def clampLimit (limit : UInt32) : Nat := min (max limit.toNat 1) 1000

def firstString (row : List Json.Value) : Option String := row[0]?.bind Json.Value.asString

def columnName (row : List Json.Value) : Option String := row[1]?.bind Json.Value.asString

section Dump

variable (env : Env)

def dumpTables (limit : Nat) : List String → Call (List CorrosionTable)
  | [] => return []
  | name :: names => do
    let columns ← queryValues env (infoSql name) []
    let rows ← queryValues env (rowsSql name limit) []
    let tables ← dumpTables limit names
    return ⟨name, columns.filterMap columnName, rows⟩ :: tables

/-- The dump before it is printed. -/
def tablesJson (limit : UInt32) : Call CorrosionTablesDump := do
  let names ← queryValues env namesSql []
  let tables ← dumpTables env (clampLimit limit) (names.filterMap firstString)
  return ⟨clampLimit limit, tables⟩

end Dump

/-! ### The statements -/

def infoTokens (name : String) : List Sql.Token :=
  [.word "PRAGMA".toList, .word "table_info".toList, .symbol '(', .quoted name.toList, .symbol ')']

def rowsTokens (name : String) (limit : Nat) : List Sql.Token :=
  [.word "SELECT".toList, .symbol '*', .word "FROM".toList, .quoted name.toList, .word "LIMIT".toList,
    .word (toString limit).toList]

private theorem toList_quoteIdentifier (value : String) : (quoteIdentifier value).toList = Sql.quote value.toList := by
  have hinner (l : List Char) : ("\"" ++ String.ofList l ++ "\"").toList = '"' :: l ++ ['"'] := by
    rw [String.toList_append, String.toList_append, @String.toList_ofList l]
    rfl
  exact hinner _

/-- The question for the columns names the table, whatever its name is. -/
private theorem tokens_infoSql (name : String) : Sql.tokens (infoSql name).toList = some (infoTokens name) := by
  have htext : (infoSql name).toList = "PRAGMA table_info(".toList ++ (Sql.quote name.toList ++ [')']) := by
    have happend (a b c : String) : (a ++ b ++ c).toList = a.toList ++ (b.toList ++ c.toList) := by
      rw [String.toList_append, String.toList_append, List.append_assoc]
    rw [← toList_quoteIdentifier]
    exact happend _ _ _
  have hhead : Sql.run .outside "PRAGMA table_info(".toList =
      (.outside, [.word "PRAGMA".toList, .word "table_info".toList, .symbol '(']) := rfl
  have hend : Sql.tokensFrom .outside [')'] = some [.symbol ')'] := rfl
  have hne : ')' ≠ '"' := by decide
  rw [Sql.tokens, htext, Sql.tokensFrom_append, hhead, Sql.tokensFrom_quote_cons _ hne, hend, Option.map_some,
    Option.map_some, infoTokens]
  rfl

private theorem tokens_toString (n : Nat) :
    Sql.tokensFrom .outside (toString n).toList = some [.word (toString n).toList] := by
  have hdigit (c : Char) (hc : c ∈ (toString n).toList) : c.isAlphanum = true := by
    rw [Char.isAlphanum, Str.isDigit_of_mem_toString hc, Bool.or_true]
  cases htext : (toString n).toList with
  | nil =>
    have hempty : toString n = "" := String.toList_eq_nil_iff.1 htext
    exact absurd hempty Nat.repr_ne_empty
  | cons c w =>
    rw [htext] at hdigit
    refine Sql.tokensFrom_word (hdigit c List.mem_cons_self) fun d hd => ?_
    rw [Sql.isWordChar, hdigit d (List.mem_cons_of_mem c hd), Bool.true_or]

/-- So does the question for the rows. -/
private theorem tokens_rowsSql (name : String) (limit : Nat) :
    Sql.tokens (rowsSql name limit).toList = some (rowsTokens name limit) := by
  have htext : (rowsSql name limit).toList = "SELECT * FROM ".toList ++
      (Sql.quote name.toList ++ ' ' :: ("LIMIT ".toList ++ (toString limit).toList)) := by
    have happend (a b c d : String) :
        (a ++ b ++ c ++ d).toList = a.toList ++ (b.toList ++ (c.toList ++ d.toList)) := by
      rw [String.toList_append, String.toList_append, String.toList_append, List.append_assoc, List.append_assoc]
    rw [← toList_quoteIdentifier]
    exact happend _ _ _ _
  have hhead : Sql.run .outside "SELECT * FROM ".toList =
      (.outside, [.word "SELECT".toList, .symbol '*', .word "FROM".toList]) := rfl
  have hlimit : Sql.run .outside " LIMIT ".toList = (.outside, [.word "LIMIT".toList]) := rfl
  have hrest : Sql.tokensFrom .outside (' ' :: ("LIMIT ".toList ++ (toString limit).toList)) =
      some [.word "LIMIT".toList, .word (toString limit).toList] := by
    have hsplit : ' ' :: ("LIMIT ".toList ++ (toString limit).toList) = " LIMIT ".toList ++ (toString limit).toList :=
      rfl
    rw [hsplit, Sql.tokensFrom_append, hlimit, tokens_toString]
    rfl
  have hne : ' ' ≠ '"' := by decide
  rw [Sql.tokens, htext, Sql.tokensFrom_append, hhead, Sql.tokensFrom_quote_cons _ hne, hrest, Option.map_some,
    Option.map_some, rowsTokens]
  rfl

/-! ### The dump -/

/-- A server that lists these tables when it is asked for the names.  It goes by the tokens of a statement. -/
structure ServesTables (env : Env) (db : List DbTable) : Prop where
  names : ∀ sent, Answers env (env.answer sent (.query ⟨namesSql, []⟩)) (db.map fun t => [.string t.name])
  info : ∀ sent sql, ∀ t ∈ db, Sql.tokens sql.toList = some (infoTokens t.name) →
    Answers env (env.answer sent (.query ⟨sql, []⟩)) t.info
  rows : ∀ sent sql, ∀ t ∈ db, ∀ limit, 0 < limit → Sql.tokens sql.toList = some (rowsTokens t.name limit) →
    Answers env (env.answer sent (.query ⟨sql, []⟩)) (t.rows.take limit)

/-- What the dump has of a table. -/
def dumped (limit : Nat) (t : DbTable) : CorrosionTable :=
  ⟨t.name, t.info.filterMap columnName, t.rows.take limit⟩

def tableQueries (limit : Nat) (t : DbTable) : List Request :=
  [.query ⟨infoSql t.name, []⟩, .query ⟨rowsSql t.name limit, []⟩]

section Tables

variable {env : Env} {sent : List Request} {db : List DbTable}

private theorem returns_queryValues {sql : String} {params : List Json.Value} {rows : List (List Json.Value)}
    (h : Answers env (env.answer sent (.query ⟨sql, params⟩)) rows) :
    Returns (queryValues env sql params) sent rows (sent ++ [.query ⟨sql, params⟩]) := by
  obtain ⟨res, bytes, hres, hsuccess, hbytes, hanswer⟩ := h.answered
  refine returns_bind_iff.2 ⟨bytes, _, returns_post_iff.2 ⟨res, hres, hbytes, hsuccess, rfl⟩, ?_⟩
  exact returns_pure_iff.2 ⟨(parseValueRows_of_isAnswer hanswer).symm, rfl⟩

/-- The tables are dumped one after the other. -/
private theorem returns_dumpTables (hserves : ServesTables env db) {limit : Nat} (hlimit : 0 < limit)
    {ts : List DbTable}
    (hts : ∀ t ∈ ts, t ∈ db) (sent : List Request) :
    Returns (dumpTables env limit (ts.map DbTable.name)) sent (ts.map (dumped limit))
      (sent ++ ts.flatMap (tableQueries limit)) := by
  induction ts generalizing sent with
  | nil => exact returns_pure_iff.2 ⟨rfl, List.append_nil sent⟩
  | cons t ts ih =>
    have ht : t ∈ db := hts t List.mem_cons_self
    have hinfo := hserves.info sent _ t ht (tokens_infoSql t.name)
    have hrows := hserves.rows (sent ++ [.query ⟨infoSql t.name, []⟩]) _ t ht limit hlimit (tokens_rowsSql t.name limit)
    have hrest := ih (fun u hu => hts u (List.mem_cons_of_mem t hu))
      (sent ++ [.query ⟨infoSql t.name, []⟩] ++ [.query ⟨rowsSql t.name limit, []⟩])
    refine returns_bind_iff.2 ⟨t.info, _, returns_queryValues hinfo, ?_⟩
    refine returns_bind_iff.2 ⟨t.rows.take limit, _, returns_queryValues hrows, ?_⟩
    refine returns_bind_iff.2 ⟨ts.map (dumped limit), _, hrest, returns_pure_iff.2 ⟨rfl, ?_⟩⟩
    rw [List.flatMap_cons, List.append_assoc, List.append_assoc]
    rfl

private theorem clampLimit_pos (limit : UInt32) : 0 < clampLimit limit := by
  rw [clampLimit]
  omega

end Tables

/-- The dump of a server has all tables that it lists, with their columns and as many of their first rows as are asked
for, between one and a thousand; and there are two questions for each table after the one for the names. -/
theorem tables_dumped (env : Env) (db : List DbTable) (hserves : ServesTables env db) (limit : UInt32)
    (sent : List Request) :
    Returns (tablesJson env limit) sent ⟨clampLimit limit, db.map (dumped (clampLimit limit))⟩
      (sent ++ .query ⟨namesSql, []⟩ :: db.flatMap (tableQueries (clampLimit limit))) := by
  have hnames : (db.map fun t => [Json.Value.string t.name]).filterMap firstString = db.map DbTable.name := by
    rw [List.filterMap_map]
    exact congrFun (List.filterMap_eq_map (f := DbTable.name)) db
  have htables := returns_dumpTables hserves (clampLimit_pos limit) (fun t ht => ht)
    (sent ++ [.query ⟨namesSql, []⟩])
  refine returns_bind_iff.2 ⟨_, _, returns_queryValues (hserves.names sent), ?_⟩
  rw [hnames]
  refine returns_bind_iff.2 ⟨_, _, htables, returns_pure_iff.2 ⟨rfl, ?_⟩⟩
  rw [List.append_assoc]
  rfl

section Sample

/-- A table whose name could end the identifier early. -/
def sampleDbTable : DbTable where
  name := "a\"; DROP TABLE b; --"
  info := [[.number (.int 0), .string "id", .string "TEXT", .number (.int 0), .null, .number (.int 1)]]
  rows := [[.string "x"]]

def sampleLine (values : String) : List UInt8 := Str.asBytes ("\x7b\"row\":[1,[" ++ values ++ "]]\x7d")

def sampleNameLine : List UInt8 := sampleLine "\"a\\\"; DROP TABLE b; --\""

def sampleInfoLine : List UInt8 := sampleLine "0,\"id\",\"TEXT\",0,null,1"

def sampleRowLine : List UInt8 := sampleLine "\"x\""

def sampleValues (line : List UInt8) : Option (List Json.Value) :=
  if line = sampleNameLine then some [.string sampleDbTable.name]
  else if line = sampleInfoLine then sampleDbTable.info.head?
  else if line = sampleRowLine then sampleDbTable.rows.head?
  else none

def sampleTablesEnv : Env where
  answer _ r := match r with
    | .query q =>
      if Sql.tokens q.sql.toList = some (infoTokens sampleDbTable.name) then
        .ok ⟨true, "200 OK", .ok (sampleInfoLine ++ [newline])⟩
      else if q.sql = namesSql then .ok ⟨true, "200 OK", .ok (sampleNameLine ++ [newline])⟩
      else .ok ⟨true, "200 OK", .ok (sampleRowLine ++ [newline])⟩
    | .transaction _ => .error "refused"
  fromSlice line := (sampleValues line).map fun values => ⟨some [.number (.int 1), .array values]⟩

private theorem answers_sampleLine {line : List UInt8} {values : List Json.Value} (hline : newline ∉ line)
    (hne : line ≠ [])
    (hvalues : sampleValues line = some values) :
    Answers sampleTablesEnv (.ok ⟨true, "200 OK", .ok (line ++ [newline])⟩) [values] := by
  refine ⟨_, _, rfl, rfl, rfl, [line], by rw [List.flatMap_singleton], fun l hl => ?_, ?_⟩
  · rw [List.mem_singleton.1 hl]
    exact ⟨hline, hne⟩
  · have hframe : (sampleTablesEnv.fromSlice line).bind valuesOfFrame = some values := by
      show ((sampleValues line).map _).bind valuesOfFrame = _
      rw [hvalues]
      rfl
    rw [List.filterMap_cons, hframe]
    rfl

/-- The question for the names starts otherwise than the other two. -/
private theorem take_tokens_namesSql {ts : List Sql.Token} (h : Sql.tokens namesSql.toList = some ts) :
    ts.take 2 = [.word "SELECT".toList, .word "name".toList] := by
  have htext : namesSql.toList = "SELECT name ".toList ++
      "FROM sqlite_schema WHERE type = 'table' AND name NOT LIKE 'sqlite_%' ORDER BY name".toList := by
    have happend : namesSql = "SELECT name " ++
      "FROM sqlite_schema WHERE type = 'table' AND name NOT LIKE 'sqlite_%' ORDER BY name" := by decide
    rw [happend, String.toList_append]
  have hhead : Sql.run .outside "SELECT name ".toList =
      (.outside, [.word "SELECT".toList, .word "name".toList]) := rfl
  rw [Sql.tokens, htext, Sql.tokensFrom_append, hhead] at h
  obtain ⟨rest, -, rfl⟩ := Option.map_eq_some_iff.1 h
  rfl

private theorem rowsTokens_ne_infoTokens (name other : String) (limit : Nat) :
    rowsTokens name limit ≠ infoTokens other := by
  intro h
  have hword := Sql.Token.word.inj (List.cons.inj h).1
  exact absurd hword (by decide)

private theorem namesSql_ne {sql : String} {ts : List Sql.Token} (h : Sql.tokens sql.toList = some ts)
    (hts : ts.take 2 ≠ [.word "SELECT".toList, .word "name".toList]) : sql ≠ namesSql := by
  rintro rfl
  exact hts (take_tokens_namesSql h)

private theorem servesTables_sample : ServesTables sampleTablesEnv [sampleDbTable] := by
  have hname : sampleNameLine.contains newline = false ∧ sampleNameLine ≠ [] := by decide
  have hinfo : sampleInfoLine.contains newline = false ∧ sampleInfoLine ≠ [] := by decide
  have hrow : sampleRowLine.contains newline = false ∧ sampleRowLine ≠ [] := by decide
  have hnotMem {line : List UInt8} (h : line.contains newline = false) : newline ∉ line := by
    intro hmem
    rw [List.contains_iff_mem.2 hmem] at h
    cases h
  constructor
  · intro sent
    have hne : Sql.tokens namesSql.toList ≠ some (infoTokens sampleDbTable.name) := fun h => by
      have htake := take_tokens_namesSql h
      exact absurd (Sql.Token.word.inj (List.cons.inj htake).1) (by decide)
    have hanswer : sampleTablesEnv.answer sent (.query ⟨namesSql, []⟩) =
        .ok ⟨true, "200 OK", .ok (sampleNameLine ++ [newline])⟩ := by
      simp only [sampleTablesEnv, if_neg hne, if_true]
    rw [hanswer]
    exact answers_sampleLine (hnotMem hname.1) hname.2 (if_pos rfl)
  · intro sent sql t ht htokens
    obtain rfl := List.mem_singleton.1 ht
    have hanswer : sampleTablesEnv.answer sent (.query ⟨sql, []⟩) =
        .ok ⟨true, "200 OK", .ok (sampleInfoLine ++ [newline])⟩ := if_pos htokens
    rw [hanswer]
    have hne : sampleInfoLine ≠ sampleNameLine := by decide
    exact answers_sampleLine (hnotMem hinfo.1) hinfo.2 ((if_neg hne).trans (if_pos rfl))
  · intro sent sql t ht limit hlimit htokens
    obtain rfl := List.mem_singleton.1 ht
    have hinfo : Sql.tokens sql.toList ≠ some (infoTokens sampleDbTable.name) := by
      rw [htokens]
      exact fun h => rowsTokens_ne_infoTokens _ _ _ (Option.some.inj h)
    have hnames : sql ≠ namesSql := namesSql_ne htokens fun h => by
      cases (List.cons.inj (List.cons.inj h).2).1
    have hanswer : sampleTablesEnv.answer sent (.query ⟨sql, []⟩) =
        .ok ⟨true, "200 OK", .ok (sampleRowLine ++ [newline])⟩ := (if_neg hinfo).trans (if_neg hnames)
    have htake : sampleDbTable.rows.take limit = [[.string "x"]] := List.take_of_length_le hlimit
    rw [hanswer, htake]
    have hne : sampleRowLine ≠ sampleNameLine ∧ sampleRowLine ≠ sampleInfoLine := by decide
    exact answers_sampleLine (hnotMem hrow.1) hrow.2
      ((if_neg hne.1).trans ((if_neg hne.2).trans (if_pos rfl)))

/-- The name does no harm. -/
theorem tables_dumped_sample : Returns (tablesJson sampleTablesEnv 0) []
    ⟨1, [⟨"a\"; DROP TABLE b; --", ["id"], [[.string "x"]]⟩]⟩
    [.query ⟨namesSql, []⟩, .query ⟨infoSql sampleDbTable.name, []⟩, .query ⟨rowsSql sampleDbTable.name 1, []⟩] :=
  tables_dumped sampleTablesEnv [sampleDbTable] servesTables_sample 0 []

end Sample

end Coold.Agent.Corrosion
