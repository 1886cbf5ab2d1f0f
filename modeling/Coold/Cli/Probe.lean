import Mathlib.Algebra.Group.Int.Defs
import Coold.Lib.Lines
import Coold.Cli.ConfigText
import Coold.Cli.Machine

/-!
# The text of a probe

A probe is one script: for every key of `ProbeKey` it prints the key, an equals sign and what a command says, and then a
row for every namespace.  `ProbedHost` is a machine with what the commands find on it besides: the text of the WireGuard
configuration, the dump of its interface and the table of the bridge.

`parseProbe` reads the text line by line.  A file whose first line is followed by others could pass for answers, so the
files that are printed have to be `Quiet`.  Then what is read is the report of the machine (`parseProbe_probeText`),
with the handshakes of the dump, which the report leaves out.
-/

namespace Coold.Cli

open Shell

/-! ### The answers of a host -/

/-- What the script of a probe asks for, in the names of its answers. -/
inductive ProbeKey where
  | wgInstalled | keysExist | publicKey | configB64 | wgDumpB64 | podmanInstalled | podmanSocketActive | ipForward
  | fwActive | defaultDeny | fwHash | nftAvailable | bridgeTable | corrosionInstalled | corrosionActive
  | corrosionConfigHash | corrosionSchemaExists | corrosionSchemaHash | cooldInstalled | cooldActive
  | corrosionVersion | cooldVersion | cooldUnitHash
  deriving DecidableEq

namespace ProbeKey

def name : ProbeKey → String
  | wgInstalled => "WG_INSTALLED"
  | keysExist => "KEYS_EXIST"
  | publicKey => "PUBLIC_KEY"
  | configB64 => "CONFIG_B64"
  | wgDumpB64 => "WG_DUMP_B64"
  | podmanInstalled => "PODMAN_INSTALLED"
  | podmanSocketActive => "PODMAN_SOCKET_ACTIVE"
  | ipForward => "IP_FORWARD"
  | fwActive => "FW_ACTIVE"
  | defaultDeny => "DEFAULT_DENY"
  | fwHash => "FW_HASH"
  | nftAvailable => "NFT_AVAILABLE"
  | bridgeTable => "BRIDGE_TABLE"
  | corrosionInstalled => "CORROSION_INSTALLED"
  | corrosionActive => "CORROSION_ACTIVE"
  | corrosionConfigHash => "CORROSION_CONFIG_HASH"
  | corrosionSchemaExists => "CORROSION_SCHEMA_EXISTS"
  | corrosionSchemaHash => "CORROSION_SCHEMA_HASH"
  | cooldInstalled => "COOLIFY_COOLD_INSTALLED"
  | cooldActive => "COOLIFY_COOLD_ACTIVE"
  | corrosionVersion => "CORROSION_VERSION"
  | cooldVersion => "COOLIFY_COOLD_VERSION"
  | cooldUnitHash => "COOLIFY_COOLD_UNIT_HASH"

/-- The keys in the order of the script. -/
def all : List ProbeKey :=
  [wgInstalled, keysExist, publicKey, configB64, wgDumpB64, podmanInstalled, podmanSocketActive, ipForward, fwActive,
    defaultDeny, fwHash, nftAvailable, bridgeTable, corrosionInstalled, corrosionActive, corrosionConfigHash,
    corrosionSchemaExists, corrosionSchemaHash, cooldInstalled, cooldActive, corrosionVersion, cooldVersion,
    cooldUnitHash]

def ofName (s : String) : Option ProbeKey := all.find? fun k => k.name == s

private theorem ofName_name (k : ProbeKey) : ofName k.name = some k := by
  cases k <;> decide

/-- A key is one word, and no row starts with it. -/
private theorem name_spec (k : ProbeKey) :
    '=' ∉ k.name.toList ∧ '\n' ∉ k.name.toList ∧ 2 ≤ k.name.toList.length ∧ k.name.toList.take 2 ≠ ['N', 'S'] := by
  cases k <;> decide

end ProbeKey

/-- A machine with what the commands of the probe find on it besides: the text of the configuration of WireGuard, if
there is one, what `wg show` dumps, and whether the table of the bridge exists. -/
structure ProbedHost where
  machine : Machine
  confText : Option String
  dump : String
  bridgeTable : Bool

def flag (b : Bool) : String := if b then "1" else "0"

section Text

-- the hash and the base64 of the tools of the host
variable (sha256Hex encode : List UInt8 → String) (x : ProbedHost)

/-- The hash of a file and a line feed, or nothing. -/
def hashLine (path : String) : String :=
  match x.machine.host.files path with
  | some f => sha256Hex (Str.asBytes f.content) ++ "\n"
  | none => ""

/-- What the command of a key prints, up to the line feed that ends it. -/
def ProbedHost.answer : ProbeKey → String
  | .wgInstalled => flag x.machine.wgInstalled
  | .keysExist => flag x.machine.hasKeypair
  | .publicKey => x.machine.text publicKeyPath
  | .configB64 => encode (Str.asBytes (x.confText.getD ""))
  | .wgDumpB64 => encode (Str.asBytes x.dump)
  | .podmanInstalled => flag x.machine.podmanInstalled
  | .podmanSocketActive => flag x.machine.podmanSocketActive
  | .ipForward => flag x.machine.ipForwardEnabled
  | .fwActive => flag (x.machine.isActive Firewall.firewallServiceName)
  | .defaultDeny => flag x.machine.defaultDenyActive
  | .fwHash => hashLine sha256Hex x Firewall.firewallUnitPath
  | .nftAvailable => flag x.machine.nftAvailable
  | .bridgeTable => flag x.bridgeTable
  | .corrosionInstalled => flag (x.machine.hasFile (binPath "corrosion"))
  | .corrosionActive => flag (x.machine.isActive "corrosion")
  | .corrosionConfigHash => hashLine sha256Hex x Corrosion.configPath
  | .corrosionSchemaExists => flag (x.machine.hasText Corrosion.schemaPath)
  | .corrosionSchemaHash => hashLine sha256Hex x Corrosion.schemaPath
  | .cooldInstalled => flag (x.machine.hasFile (binPath "coold"))
  | .cooldActive => flag (x.machine.isActive "coold")
  | .corrosionVersion => x.machine.text (versionPath "corrosion")
  | .cooldVersion => x.machine.text (versionPath "coold")
  | .cooldUnitHash => hashLine sha256Hex x CooldService.unitPath

/-- The cells of the row of a namespace: its name, and what Podman says of its network. -/
def ProbedHost.cells (ns : String) : List String :=
  match x.machine.networks.lookup (podmanNetworkFor ns) with
  | none => [ns, "missing", "", "", ""]
  | some net =>
    [ns, podmanNetworkFor ns, (net.subnet.map fun sn => toString sn).getD "",
      if net.dnsEnabled then "true" else "false", net.label]

def ProbedHost.row (ns : String) : String := "NS=" ++ Str.join '|' (x.cells ns)

/-- What the script prints. -/
def probeText (namespaces : List String) : String :=
  String.join (ProbeKey.all.map fun k => k.name ++ "=" ++ x.answer sha256Hex encode k ++ "\n") ++
    unlines (namespaces.map x.row)

end Text

/-! ### The reader -/

/-- `parse` of an `i64`. -/
def parseI64 (s : String) : Option Int :=
  let negative := s.toList.head? = some '-'
  let digits := if s.toList.head? = some '+' ∨ negative then s.toList.tail else s.toList
  let n : Int := if negative then -(Nat.ofDigitChars 10 digits 0 : Nat) else (Nat.ofDigitChars 10 digits 0 : Nat)
  if digits ≠ [] ∧ digits.all Char.isDigit ∧ -2 ^ 63 ≤ n ∧ n < 2 ^ 63 then some n else none

/-- The handshakes of the dump are matched with the peers by their places. -/
def setHandshakes : List Peer → List String → List Peer
  | p :: peers, line :: dump =>
    let fields := Str.split '\t' line
    (if 5 < fields.length then { p with latestHandshake := (parseI64 (fields.getD 5 "")).getD 0 } else p) ::
      setHandshakes peers dump
  | peers, _ => peers

def parseDump (s : ServerState) (dump : String) : ServerState :=
  { s with active := if Str.trim dump = "" then s.active else true
           peers := setHandshakes s.peers (Str.lines dump).tail }

/-- What has been read: the state, and the two texts that are read later. -/
structure Reading where
  state : ServerState
  config : String
  wgDump : String

section Fields

-- the decoder is the one of the library for base64
variable (decode : String → Option (List UInt8))

def decodeB64 (s : String) : String := ((decode (Str.trim s)).bind Str.fromUtf8).getD ""

def setField (r : Reading) (k : ProbeKey) (v : String) : Reading :=
  match k with
  | .wgInstalled => { r with state := { r.state with installed := Str.trim v = "1" } }
  | .keysExist => { r with state := { r.state with keysExist := Str.trim v = "1" } }
  | .publicKey => { r with state := { r.state with publicKey := Str.trim v } }
  | .configB64 => { r with config := decodeB64 decode v }
  | .wgDumpB64 => { r with wgDump := decodeB64 decode v }
  | .podmanInstalled => { r with state := { r.state with podmanInstalled := Str.trim v = "1" } }
  | .podmanSocketActive => { r with state := { r.state with podmanSocketActive := Str.trim v = "1" } }
  | .ipForward => { r with state := { r.state with ipForwardEnabled := Str.trim v = "1" } }
  | .fwActive => { r with state := { r.state with firewallActive := Str.trim v = "1" } }
  | .defaultDeny => { r with state := { r.state with defaultDenyActive := Str.trim v = "1" } }
  | .fwHash => { r with state := { r.state with firewallUnitSha256 := Str.trim v } }
  | .nftAvailable => { r with state := { r.state with nftAvailable := Str.trim v = "1" } }
  | .bridgeTable => r
  | .corrosionInstalled => { r with state := { r.state with corrosionInstalled := Str.trim v = "1" } }
  | .corrosionActive => { r with state := { r.state with corrosionActive := Str.trim v = "1" } }
  | .corrosionConfigHash => { r with state := { r.state with corrosionConfigHash := Str.trim v } }
  | .corrosionSchemaExists => { r with state := { r.state with corrosionSchemaExists := Str.trim v = "1" } }
  | .corrosionSchemaHash => { r with state := { r.state with corrosionSchemaSha256 := Str.trim v } }
  | .cooldInstalled => { r with state := { r.state with cooldInstalled := Str.trim v = "1" } }
  | .cooldActive => { r with state := { r.state with cooldActive := Str.trim v = "1" } }
  | .corrosionVersion => { r with state := { r.state with corrosionVersion := Str.trim v } }
  | .cooldVersion => { r with state := { r.state with cooldVersion := Str.trim v } }
  | .cooldUnitHash => { r with state := { r.state with cooldUnitSha256 := Str.trim v } }

def readLine (r : Reading) (line : String) : Reading :=
  match Str.splitOnce '=' line with
  | none => r
  | some (k, v) =>
    match ProbeKey.ofName k with
    | none => r
    | some k => setField decode r k v

end Fields

section Reader

-- the reader of a network is the one of the library for networks
variable (parseNet : String → Option Ipv4Net) (decode : String → Option (List UInt8))

def readRow (s : ServerState) (line : String) : ServerState :=
  match Str.strip "NS=" line with
  | none => s
  | some rest =>
    match Str.split '|' rest with
    | ns :: network :: subnet :: dns :: label :: _ =>
      let state : NamespaceServerState :=
        { networkExists := network ≠ "missing"
          containerSubnet := parseNet subnet
          dnsEnabled := Str.trim dns = "true"
          label := Str.trim label }
      { s with namespaces := s.namespaces.insert ns state }
    | _ => s

/-- A namespace for which there was no row is like one without a network. -/
def orDefault (s : ServerState) (ns : String) : ServerState :=
  if (s.namespaces.lookup ns).isSome then s else { s with namespaces := s.namespaces.insert ns {} }

def parseProbe (namespaces : List String) (text : String) : ServerState :=
  let r := (Str.lines text).foldl (readLine decode) ⟨{}, "", ""⟩
  let s := parseDump (parseConfig r.state r.config) r.wgDump
  namespaces.foldl orDefault ((Str.lines text).foldl (readRow parseNet) s)

end Reader

/-! ### The lines of the text -/

/-- A text of which only the first line can be an answer. -/
def Quiet (s : String) : Prop := ∀ l ∈ (Str.split '\n' s).tail, '=' ∉ l.toList

private theorem split_newline_of_oneLine {s : String} (h : OneLine s) : Str.split '\n' s = [s] := by
  have hpieces : ∀ p ∈ [s], '\n' ∉ p.toList := List.forall_mem_singleton.2 h
  have hjoin := Str.split_join '\n' (by simp) hpieces
  rwa [Str.join_singleton] at hjoin

theorem quiet_of_oneLine {s : String} (h : OneLine s) : Quiet s := by
  rw [Quiet, split_newline_of_oneLine h]
  exact fun l hl => absurd hl List.not_mem_nil

section Lines

variable (sha256Hex encode : List UInt8 → String) (x : ProbedHost)

/-- The lines of the answer to a key. -/
def ProbedHost.keyLines (k : ProbeKey) : List String := Str.split '\n' (k.name ++ "=" ++ x.answer sha256Hex encode k)

/-- What follows the equals sign in the line of a key. -/
def ProbedHost.value (k : ProbeKey) : String := (Str.split '\n' (x.answer sha256Hex encode k)).headD ""

private theorem keyLines_eq (k : ProbeKey) : x.keyLines sha256Hex encode k =
    (k.name ++ "=" ++ x.value sha256Hex encode k) :: (Str.split '\n' (x.answer sha256Hex encode k)).tail := by
  obtain ⟨first, rest, h⟩ := List.exists_cons_of_ne_nil
    (show Str.split '\n' (x.answer sha256Hex encode k) ≠ [] by simp [Str.split])
  have hname : '\n' ∉ (k.name ++ "=").toList := by
    have hk := k.name_spec.2.1
    rw [String.toList_append, List.mem_append, not_or]
    exact ⟨hk, by decide⟩
  rw [ProbedHost.keyLines, ProbedHost.value, Str.split_append hname h, h]
  rfl

private theorem probeText_eq (namespaces : List String) :
    probeText sha256Hex encode x namespaces =
      unlines (ProbeKey.all.flatMap (x.keyLines sha256Hex encode) ++ namespaces.map x.row) := by
  have hkeys : ∀ ks : List ProbeKey,
      String.join (ks.map fun k => k.name ++ "=" ++ x.answer sha256Hex encode k ++ "\n") =
      unlines (ks.flatMap (x.keyLines sha256Hex encode)) := by
    intro ks
    induction ks with
    | nil => rfl
    | cons k ks ih =>
      rw [List.map_cons, String.join_cons, ih, List.flatMap_cons, unlines_append, ProbedHost.keyLines, unlines_split]
  rw [probeText, hkeys, unlines_append]

/-- The lines that are read. -/
private theorem lines_probeText {namespaces : List String} (h : ∀ ns ∈ namespaces, OneLine (x.row ns)) :
    Str.lines (probeText sha256Hex encode x namespaces) =
      (ProbeKey.all.flatMap fun k => (x.keyLines sha256Hex encode k).map Str.stripCr) ++
        namespaces.map fun ns => Str.stripCr (x.row ns) := by
  have hone : ∀ l ∈ ProbeKey.all.flatMap (x.keyLines sha256Hex encode) ++ namespaces.map x.row, '\n' ∉ l.toList := by
    intro l hl
    rcases List.mem_append.1 hl with hl | hl
    · obtain ⟨k, -, hl⟩ := List.mem_flatMap.1 hl
      exact (Str.mem_of_mem_split hl).1
    · obtain ⟨ns, hns, rfl⟩ := List.mem_map.1 hl
      exact h ns hns
  rw [probeText_eq, Str.lines_of_split (split_unlines hone), List.map_append, List.map_flatMap, List.map_map]
  rfl

end Lines

/-! ### The reader on the lines -/

section Line

variable {decode : String → Option (List UInt8)}

/-- The carriage return at the end of a value does not count. -/
private theorem setField_stripCr (r : Reading) (k : ProbeKey) (v : String) :
    setField decode r k (Str.stripCr v) = setField decode r k v := by
  cases k <;> simp only [setField, decodeB64, Str.trim_stripCr]

private theorem readLine_of_notMem (r : Reading) {line : String} (h : '=' ∉ line.toList) :
    readLine decode r line = r := by
  rcases Str.splitOnce_cases '=' line with ⟨-, hsplit⟩ | ⟨before, after, -, hline, -⟩
  · rw [readLine, hsplit]
  · refine absurd ?_ h
    rw [hline]
    simp [String.toList_append]

private theorem stripCr_key (k : ProbeKey) (v : String) :
    Str.stripCr (k.name ++ "=" ++ v) = k.name ++ "=" ++ Str.stripCr v := by
  refine Str.stripCr_append ?_ v
  rw [String.toList_append, List.getLast?_append_of_ne_nil _ (by decide)]
  decide

private theorem readLine_key (r : Reading) (k : ProbeKey) (v : String) :
    readLine decode r (Str.stripCr (k.name ++ "=" ++ v)) = setField decode r k v := by
  have hsplit : Str.splitOnce '=' (k.name ++ "=" ++ Str.stripCr v) = some (k.name, Str.stripCr v) :=
    Str.splitOnce_append k.name_spec.1 _
  rw [stripCr_key, readLine, hsplit]
  simp only [ProbeKey.ofName_name, setField_stripCr]

end Line

private theorem strip_eq_some {pattern s rest : String} (h : Str.strip pattern s = some rest) :
    s = pattern ++ rest := by
  obtain ⟨l, hl, rfl⟩ := Option.map_eq_some_iff.1 h
  rw [List.isPrefixOf?_eq_some_iff_append_eq] at hl
  rw [← String.toList_inj, ← hl, String.toList_append, String.toList_ofList]

/-- Only a row has the mark of a row. -/
private theorem readRow_of_strip (parseNet : String → Option Ipv4Net) (s : ServerState) {line : String}
    (h : ∀ rest, line ≠ "NS=" ++ rest) : readRow parseNet s line = s := by
  rw [readRow]
  cases hstrip : Str.strip "NS=" line with
  | none => rfl
  | some rest => exact absurd (strip_eq_some hstrip) (h rest)

section Keys

variable {sha256Hex encode : List UInt8 → String} {decode : String → Option (List UInt8)} {x : ProbedHost}

/-- The lines of a key set its field, if no other line of them can be an answer. -/
private theorem foldl_keyLines (r : Reading) {k : ProbeKey} (h : Quiet (x.answer sha256Hex encode k)) :
    ((x.keyLines sha256Hex encode k).map Str.stripCr).foldl (readLine decode) r =
      setField decode r k (x.value sha256Hex encode k) := by
  have hrest : ∀ ls : List String, (∀ l ∈ ls, '=' ∉ l.toList) →
      ∀ r, (ls.map Str.stripCr).foldl (readLine decode) r = r := by
    intro ls hls r
    induction ls with
    | nil => rfl
    | cons l ls ih =>
      obtain ⟨hl, hls⟩ := List.forall_mem_cons.1 hls
      rw [List.map_cons, List.foldl_cons, readLine_of_notMem r fun hc => hl (Str.mem_stripCr hc), ih hls]
  rw [keyLines_eq, List.map_cons, List.foldl_cons, readLine_key, hrest _ h]

/-- No line of a key is a row. -/
private theorem foldl_keyLines_readRow (parseNet : String → Option Ipv4Net) (s : ServerState) {k : ProbeKey}
    (h : Quiet (x.answer sha256Hex encode k)) :
    ((x.keyLines sha256Hex encode k).map Str.stripCr).foldl (readRow parseNet) s = s := by
  have hnone : ∀ ls : List String, (∀ l ∈ ls, ∀ rest, l ≠ "NS=" ++ rest) → ls.foldl (readRow parseNet) s = s := by
    intro ls hls
    induction ls with
    | nil => rfl
    | cons l ls ih =>
      obtain ⟨hl, hls⟩ := List.forall_mem_cons.1 hls
      rw [List.foldl_cons, readRow_of_strip parseNet s hl, ih hls]
  refine hnone _ fun l hl rest heq => ?_
  rw [keyLines_eq, List.map_cons, List.mem_cons] at hl
  have hlist := congrArg String.toList heq
  rw [String.toList_append] at hlist
  rcases hl with rfl | hl
  · -- the second letter of the key is another one
    obtain ⟨-, -, hlen, hne⟩ := k.name_spec
    rw [stripCr_key, String.toList_append, String.toList_append, List.append_assoc] at hlist
    have htake := congrArg (List.take 2) hlist
    rw [List.take_append_of_le_length hlen] at htake
    exact hne htake
  · -- there is no equals sign
    obtain ⟨l', hl', rfl⟩ := List.mem_map.1 hl
    refine h l' hl' (Str.mem_stripCr ?_)
    rw [hlist]
    exact List.mem_append_left _ (by decide)

end Keys

/-! ### The rows of the namespaces -/

/-- What is relied on of the tools.  A network is read back from its text, no text is no network, and a hash is one
word.  What is written in base64 is read back, and is written with letters, digits and three signs. -/
structure ProbeTools (parseNet : String → Option Ipv4Net) (sha256Hex encode : List UInt8 → String)
    (decode : String → Option (List UInt8)) : Prop where
  parse_toString : ∀ net : Ipv4Net, parseNet (toString net) = some net
  parse_empty : parseNet "" = none
  hash : ∀ bytes, Field (sha256Hex bytes)
  decode_encode : ∀ bytes, decode (encode bytes) = some bytes
  encode_chars : ∀ bytes, ∀ c ∈ (encode bytes).toList, c.isAlphanum = true ∨ c ∈ ['+', '/', '=']

/-- A label that can be told from the other cells of its row. -/
def CellText (s : String) : Prop := Field s ∧ '|' ∉ s.toList

private theorem readRow_join (parseNet : String → Option Ipv4Net) (s : ServerState)
    {ns network subnet dns label : String}
    (hbar : ∀ cell ∈ [ns, network, subnet, dns, label], '|' ∉ cell.toList) (hlabel : Str.Trimmed label) :
    readRow parseNet s (Str.stripCr ("NS=" ++ Str.join '|' [ns, network, subnet, dns, label])) =
      { s with
        namespaces := s.namespaces.insert ns
          ⟨network ≠ "missing", parseNet subnet, Str.trim dns = "true", label⟩ } := by
  have htext : "NS=" ++ Str.join '|' [ns, network, subnet, dns, label] =
      ("NS=" ++ ns ++ "|" ++ network ++ "|" ++ subnet ++ "|" ++ dns ++ "|") ++ label := by
    have hbarText : String.singleton '|' = "|" := rfl
    simp only [Str.join_cons_cons, Str.join_singleton, hbarText, String.append_assoc]
  have hlast : ("NS=" ++ ns ++ "|" ++ network ++ "|" ++ subnet ++ "|" ++ dns ++ "|").toList.getLast? ≠ some '\r' := by
    rw [String.toList_append, List.getLast?_append_of_ne_nil _ (by decide)]
    decide
  have hcr : Str.stripCr label = label := by
    refine Str.stripCr_eq_self fun hr => ?_
    have := hlabel.2 '\r' hr
    revert this
    decide
  have hline : Str.stripCr ("NS=" ++ Str.join '|' [ns, network, subnet, dns, label]) =
      "NS=" ++ Str.join '|' [ns, network, subnet, dns, label] := by
    rw [htext, Str.stripCr_append hlast, hcr]
  have hstrip : Str.strip "NS=" ("NS=" ++ Str.join '|' [ns, network, subnet, dns, label]) =
      some (Str.join '|' [ns, network, subnet, dns, label]) := by
    refine Option.map_eq_some_iff.2 ⟨(Str.join '|' [ns, network, subnet, dns, label]).toList, ?_, String.ofList_toList⟩
    rw [List.isPrefixOf?_eq_some_iff_append_eq, String.toList_append]
  rw [hline, readRow, hstrip]
  simp only [Str.split_join '|' (List.cons_ne_nil _ _) hbar, Str.trim_eq_self_iff.2 hlabel]

section Rows

variable {parseNet : String → Option Ipv4Net} {sha256Hex encode : List UInt8 → String}
  {decode : String → Option (List UInt8)} {x : ProbedHost} {ns : String}

/-- The texts of a site that are printed as they are can be told from answers and rows. -/
structure ProbedHost.Clean (namespaces : List String) (x : ProbedHost) : Prop where
  publicKey : Quiet (x.machine.text publicKeyPath)
  corrosionVersion : Quiet (x.machine.text (versionPath "corrosion"))
  cooldVersion : Quiet (x.machine.text (versionPath "coold"))
  labels : ∀ ns ∈ namespaces, ∀ net, x.machine.networks.lookup (podmanNetworkFor ns) = some net → CellText net.label

theorem cellText_of_isDnsLabel (h : isDnsLabel ns = true) : CellText ns ∧ CellText (podmanNetworkFor ns) := by
  have hcell : ∀ s : String, (∀ c ∈ s.toList, (isLabelChar c || c == '-') = true) → CellText s := by
    intro s hs
    have hword : ∀ c ∈ s.toList, c.isAlphanum = true ∨ c = '-' := by
      intro c hc
      have h := hs c hc
      have halphanum : c.isAlphanum = (c.isUpper || c.isLower || c.isDigit) := rfl
      simp only [isLabelChar, Bool.or_eq_true, beq_iff_eq] at h
      rcases h with (h | h) | h
      · exact Or.inl (by rw [halphanum, h, Bool.or_true, Bool.true_or])
      · exact Or.inl (by rw [halphanum, h, Bool.or_true])
      · exact Or.inr h
    refine ⟨⟨fun hc => absurd (hs _ hc) (by decide), ?_⟩, fun hc => absurd (hs _ hc) (by decide)⟩
    refine Str.trimmed_of_visible fun c hc => Str.isWhitespace_of_printable ?_
    rcases hword c hc with h | rfl
    · exact Str.printable_of_isAlphanum h
    · decide
  have hchars := (chars_of_isDnsLabel h).2
  refine ⟨hcell ns hchars, hcell _ fun c hc => ?_⟩
  have hlit := List.all_eq_true.1
    (show ("coolify-".toList ++ "-mesh".toList).all (fun c => isLabelChar c || c == '-') = true by decide)
  have htext : podmanNetworkFor ns = "coolify-" ++ ns ++ "-mesh" := rfl
  rw [htext, String.toList_append, String.toList_append] at hc
  simp only [List.mem_append] at hc hlit
  rcases hc with (hc | hc) | hc
  · exact hlit c (Or.inl hc)
  · exact hchars c hc
  · exact hlit c (Or.inr hc)

private theorem cellText_toString (net : Ipv4Net) : CellText (toString net) := by
  have hchars : ∀ c ∈ (toString net).toList, isNetChar c = true := by
    intro c hc
    have htext : toString net = ipv4ToString net.addr ++ "/" ++ toString net.prefixLen := rfl
    rw [htext, String.toList_append, String.toList_append, List.mem_append, List.mem_append] at hc
    rcases hc with (hc | hc) | hc
    · exact netChars_ipv4ToString _ c hc
    · rw [List.mem_singleton.1 hc]
      decide
    · exact netChars_toString _ c hc
  exact ⟨field_of_netChars hchars, fun hc => absurd (hchars _ hc) (by decide)⟩

/-- The cells of a row, of which none has the separator or a line feed in it. -/
private theorem cellText_cells (hlabel : isDnsLabel ns = true)
    (hnet : ∀ net, x.machine.networks.lookup (podmanNetworkFor ns) = some net → CellText net.label) :
    ∀ cell ∈ x.cells ns, CellText cell := by
  have hlit : ∀ s : String, (s.toList.all fun c => c.isAlpha) = true → CellText s := by
    intro s hs
    rw [List.all_eq_true] at hs
    have hword : ∀ c ∈ s.toList, c.isAlphanum = true := by
      intro c hc
      have halphanum : c.isAlphanum = (c.isAlpha || c.isDigit) := rfl
      rw [halphanum, hs c hc, Bool.true_or]
    refine ⟨⟨fun hc => absurd (hs _ hc) (by decide), ?_⟩, fun hc => absurd (hs _ hc) (by decide)⟩
    exact Str.trimmed_of_visible fun c hc => Str.isWhitespace_of_printable (Str.printable_of_isAlphanum (hword c hc))
  obtain ⟨hns, hname⟩ := cellText_of_isDnsLabel hlabel
  unfold ProbedHost.cells
  cases hlookup : x.machine.networks.lookup (podmanNetworkFor ns) with
  | none =>
    simp only [List.forall_mem_cons, List.not_mem_nil, false_implies, implies_true, and_true]
    exact ⟨hns, hlit _ (by decide), hlit _ (by decide), hlit _ (by decide), hlit _ (by decide)⟩
  | some net =>
    have hsubnet : CellText ((net.subnet.map fun sn => toString sn).getD "") := by
      cases net.subnet with
      | none => exact hlit _ (by decide)
      | some sn => exact cellText_toString sn
    have hdns : CellText (if net.dnsEnabled then "true" else "false") := by
      split
      next => exact hlit _ (by decide)
      next => exact hlit _ (by decide)
    simp only [List.forall_mem_cons, List.not_mem_nil, false_implies, implies_true, and_true]
    exact ⟨hns, hname, hsubnet, hdns, hnet net hlookup⟩

private theorem oneLine_row (h : ∀ cell ∈ x.cells ns, CellText cell) : OneLine (x.row ns) := by
  intro hc
  rw [ProbedHost.row, String.toList_append, List.mem_append] at hc
  rcases hc with hc | hc
  · exact absurd hc (by decide)
  · rcases Str.mem_join hc with hsep | ⟨cell, hcell, hc⟩
    · exact absurd hsep (by decide)
    · exact (h cell hcell).1.1 hc

private theorem podmanNetworkFor_ne_missing (ns : String) : podmanNetworkFor ns ≠ "missing" := by
  intro h
  have hhead := congrArg (fun s => s.toList.head?) h
  have htext : podmanNetworkFor ns = "coolify-" ++ ns ++ "-mesh" := rfl
  rw [htext, String.append_assoc] at hhead
  simp only [String.toList_append] at hhead
  rw [List.head?_append_of_ne_nil _ (by decide)] at hhead
  exact absurd hhead (by decide)

/-- A row is read as what the machine says of its namespace. -/
private theorem readRow_row (htools : ProbeTools parseNet sha256Hex encode decode)
    (h : ∀ cell ∈ x.cells ns, CellText cell)
    (s : ServerState) :
    readRow parseNet s (Str.stripCr (x.row ns)) =
      { s with namespaces := s.namespaces.insert ns (probeNamespace x.machine ns) } := by
  have hbar : ∀ cell ∈ x.cells ns, '|' ∉ cell.toList := fun cell hc => (h cell hc).2
  have htrimmed : ∀ cell ∈ x.cells ns, Str.Trimmed cell := fun cell hc => (h cell hc).1.2
  unfold ProbedHost.row
  unfold ProbedHost.cells at hbar htrimmed ⊢
  unfold probeNamespace
  cases hlookup : x.machine.networks.lookup (podmanNetworkFor ns) with
  | none =>
    rw [hlookup] at hbar
    have hdns : Str.trim "" ≠ "true" := by decide
    dsimp only
    rw [readRow_join parseNet s hbar (Str.trimmed_lit (by decide)), htools.parse_empty]
    simp only [ne_eq, not_true_eq_false, hdns, decide_false]
  | some net =>
    rw [hlookup] at hbar htrimmed
    have hsubnet : parseNet ((net.subnet.map fun sn => toString sn).getD "") = net.subnet := by
      cases net.subnet with
      | none => exact htools.parse_empty
      | some sn => exact htools.parse_toString sn
    have hdns : decide (Str.trim (if net.dnsEnabled then "true" else "false") = "true") = net.dnsEnabled := by
      cases net.dnsEnabled <;> decide
    dsimp only
    rw [readRow_join parseNet s hbar (htrimmed _ (by simp)), hsubnet, hdns,
      decide_eq_true (podmanNetworkFor_ne_missing ns)]

end Rows

/-! ### What a probe reads -/

/-- The configuration that a text is read as. -/
def readConf (text : String) : WgConf :=
  let s := parseConfig {} text
  ⟨s.wireguardMgmtIp, s.listenPort, s.peers⟩

/-- The machine is the one that its texts are read as: its WireGuard configuration is the one of the text, and the
interface is up if there is a dump of it. -/
structure ProbedHost.Reads (x : ProbedHost) : Prop where
  conf : x.machine.conf = x.confText.map readConf
  active : x.machine.wgActive = decide (Str.trim x.dump ≠ "")

/-- The report has no handshakes. -/
def Peer.withoutHandshake (p : Peer) : Peer := { p with latestHandshake := 0 }

def ServerState.withoutHandshakes (s : ServerState) : ServerState :=
  { s with peers := s.peers.map Peer.withoutHandshake }

private theorem map_setHandshakes (peers : List Peer) (dump : List String) :
    (setHandshakes peers dump).map Peer.withoutHandshake = peers.map Peer.withoutHandshake := by
  induction peers generalizing dump with
  | nil => rfl
  | cons p peers ih =>
    cases dump with
    | nil => rfl
    | cons line dump =>
      rw [setHandshakes, List.map_cons, List.map_cons, ih]
      split <;> rfl

/-- What the configuration of WireGuard says in a state. -/
def ServerState.withConf (s t : ServerState) : ServerState :=
  { s with wireguardMgmtIp := t.wireguardMgmtIp, listenPort := t.listenPort, peers := t.peers }

/-- A line of the configuration looks at nothing else. -/
private theorem configLine_withConf (s t : ServerState) (cur : Option Peer) (line : String) :
    configLine (s.withConf t, cur) line =
      (s.withConf (configLine (t, cur) line).1, (configLine (t, cur) line).2) := by
  unfold configLine
  split_ifs
  · rfl
  · cases Str.splitOnce '=' line with
    | none => rfl
    | some kv =>
      simp only [configField]
      cases cur with
      | none =>
        simp only
        split_ifs
        · cases (Str.split '/' (Str.trim kv.2)).head?.bind IpAddr.parseV4 <;> rfl
        · rfl
        · rfl
      | some p =>
        simp only
        split_ifs <;> rfl

/-- A peer that is read has no handshake yet. -/
def NoHandshakes (st : ServerState × Option Peer) : Prop := ∀ p ∈ st.1.peers ++ st.2.toList, p.latestHandshake = 0

private theorem noHandshakes_configLine {st : ServerState × Option Peer} (h : NoHandshakes st) (line : String) :
    NoHandshakes (configLine st line) := by
  obtain ⟨s, cur⟩ := st
  unfold configLine
  split_ifs
  · intro p hp
    simp only [pushPeer, Option.toList_some, List.mem_append, List.mem_singleton] at hp
    rcases hp with hp | rfl
    · exact h p (List.mem_append.2 hp)
    · rfl
  · cases Str.splitOnce '=' line with
    | none => exact h
    | some kv =>
      simp only [configField]
      cases cur with
      | none =>
        simp only
        split_ifs
        · cases (Str.split '/' (Str.trim kv.2)).head?.bind IpAddr.parseV4 <;> exact h
        · exact h
        · exact h
      | some p =>
        have hp := h p (List.mem_append_right _ (by simp))
        have hpeers : ∀ q ∈ s.peers, q.latestHandshake = 0 := fun q hq => h q (List.mem_append_left _ hq)
        have hcur : ∀ q : Peer, q.latestHandshake = p.latestHandshake → NoHandshakes (s, some q) := by
          intro q hq q' hmem
          rcases List.mem_append.1 hmem with hmem | hmem
          · exact hpeers q' hmem
          · simp only [Option.toList_some, List.mem_singleton] at hmem
            rw [hmem, hq, hp]
        simp only
        split_ifs <;> exact hcur _ rfl

/-- The configuration is read the same way into any state that has none. -/
private theorem parseConfig_eq {s : ServerState} (hs : s.withConf {} = s) (cfg : String) :
    parseConfig s cfg = s.withConf (parseConfig {} cfg) ∧
      (parseConfig {} cfg).peers.map Peer.withoutHandshake = (parseConfig {} cfg).peers := by
  have hfold : ∀ (lines : List String) (t : ServerState) (cur : Option Peer),
      lines.foldl configLine (s.withConf t, cur) =
        (s.withConf (lines.foldl configLine (t, cur)).1, (lines.foldl configLine (t, cur)).2) := by
    intro lines
    induction lines with
    | nil => exact fun _ _ => rfl
    | cons line lines ih =>
      intro t cur
      rw [List.foldl_cons, configLine_withConf, ih, List.foldl_cons]
  have hnone : ∀ (lines : List String) (st : ServerState × Option Peer), NoHandshakes st →
      NoHandshakes (lines.foldl configLine st) := by
    intro lines
    induction lines with
    | nil => exact fun _ h => h
    | cons line lines ih => exact fun st h => ih _ (noHandshakes_configLine h line)
  constructor
  · have h := hfold ((Str.lines cfg).map Str.trim) {} none
    rw [hs] at h
    rw [parseConfig, h]
    rfl
  · have h := hnone ((Str.lines cfg).map Str.trim) ({}, none) (by simp [NoHandshakes])
    refine (List.map_congr_left fun p hp => ?_).trans (List.map_id _)
    have hp : p.latestHandshake = 0 := h p hp
    obtain ⟨_, _, _, _, _⟩ := p
    simp only at hp
    rw [hp]
    rfl

/-! ### The report -/

private theorem oneLine_flag (b : Bool) : OneLine (flag b) := by
  cases b
  · exact (oneLine_lit _ (by decide) : OneLine "0")
  · exact (oneLine_lit _ (by decide) : OneLine "1")

/-- A namespace that has a row needs no default. -/
private theorem foldl_orDefault {namespaces : List String} {s : ServerState}
    (h : ∀ ns ∈ namespaces, (s.namespaces.lookup ns).isSome) : namespaces.foldl orDefault s = s := by
  induction namespaces with
  | nil => rfl
  | cons ns namespaces ih =>
    obtain ⟨hns, hrest⟩ := List.forall_mem_cons.1 h
    rw [List.foldl_cons, orDefault, if_pos hns, ih hrest]

section Report

variable {parseNet : String → Option Ipv4Net} (sha256Hex encode : List UInt8 → String)
  {decode : String → Option (List UInt8)} (x : ProbedHost) (k : ProbeKey)

private theorem decide_value_flag {b : Bool} (h : x.answer sha256Hex encode k = flag b) :
    decide (Str.trim (x.value sha256Hex encode k) = "1") = b := by
  rw [ProbedHost.value, h, split_newline_of_oneLine (oneLine_flag b), List.headD_cons]
  cases b <;> decide

private theorem trim_value_text {path : String} (h : x.answer sha256Hex encode k = x.machine.text path) :
    Str.trim (x.value sha256Hex encode k) = readField (x.machine.text path) := by
  rw [ProbedHost.value, h]
  rfl

private theorem split_hashLine (htools : ProbeTools parseNet sha256Hex encode decode) (path : String) :
    Str.split '\n' (hashLine sha256Hex x path) = [x.machine.hash sha256Hex path, ""] ∨
      Str.split '\n' (hashLine sha256Hex x path) = [""] ∧ x.machine.hash sha256Hex path = "" := by
  unfold hashLine Machine.hash
  cases x.machine.host.files path with
  | none => exact Or.inr ⟨split_newline_of_oneLine (oneLine_lit _ (by decide) : OneLine ""), rfl⟩
  | some f =>
    have hsplit := Str.split_newline_cons (b := "") (htools.hash (Str.asBytes f.content)).1
    rw [String.append_empty, split_newline_of_oneLine (oneLine_lit _ (by decide) : OneLine "")] at hsplit
    exact Or.inl hsplit

private theorem trim_value_hash (htools : ProbeTools parseNet sha256Hex encode decode) {path : String}
    (h : x.answer sha256Hex encode k = hashLine sha256Hex x path) :
    Str.trim (x.value sha256Hex encode k) = x.machine.hash sha256Hex path := by
  have htrim : Str.trim (x.machine.hash sha256Hex path) = x.machine.hash sha256Hex path := by
    unfold Machine.hash
    cases x.machine.host.files path with
    | none =>
      show Str.trim "" = ""
      decide
    | some f => exact Str.trim_eq_self_iff.2 (htools.hash (Str.asBytes f.content)).2
  rw [ProbedHost.value, h]
  rcases split_hashLine sha256Hex encode x htools path with hsplit | ⟨hsplit, hempty⟩
  · rw [hsplit, List.headD_cons, htrim]
  · rw [hsplit, List.headD_cons, hempty]
    decide

/-- What is written in base64 is one word. -/
private theorem field_encode (htools : ProbeTools parseNet sha256Hex encode decode) (bytes : List UInt8) :
    Field (encode bytes) := by
  have hchars := htools.encode_chars bytes
  refine ⟨fun hc => absurd (hchars _ hc) (by decide), Str.trimmed_of_visible fun c hc => ?_⟩
  refine Str.isWhitespace_of_printable ?_
  rcases hchars c hc with h | h
  · exact Str.printable_of_isAlphanum h
  · simp only [List.mem_cons, List.not_mem_nil, or_false] at h
    rcases h with rfl | rfl | rfl <;> decide

private theorem decode_value (htools : ProbeTools parseNet sha256Hex encode decode) {s : String}
    (h : x.answer sha256Hex encode k = encode (Str.asBytes s)) : decodeB64 decode (x.value sha256Hex encode k) = s := by
  obtain ⟨hone, htrimmed⟩ := field_encode sha256Hex encode htools (Str.asBytes s)
  rw [ProbedHost.value, h, split_newline_of_oneLine hone, List.headD_cons, decodeB64, Str.trim_eq_self_iff.2 htrimmed,
    htools.decode_encode, Option.bind_some, Str.fromUtf8_asBytes, Option.getD_some]

variable {sha256Hex encode x}

/-- A host without a configuration reads like one with an empty one. -/
private theorem readConf_getD (text : Option String) :
    (text.map readConf).bind WgConf.mgmtIp = (parseConfig {} (text.getD "")).wireguardMgmtIp ∧
      ((text.map readConf).map WgConf.listenPort).getD 0 = (parseConfig {} (text.getD "")).listenPort ∧
      ((text.map readConf).map WgConf.peers).getD [] = (parseConfig {} (text.getD "")).peers := by
  cases text with
  | none =>
    simp only [Option.map_none, Option.bind_none, Option.getD_none]
    exact ⟨rfl, rfl, rfl⟩
  | some text =>
    simp only [Option.map_some, Option.bind_some, Option.getD_some, readConf, and_self]

/-- No answer looks like more than one. -/
private theorem quiet_answer (htools : ProbeTools parseNet sha256Hex encode decode) {namespaces : List String}
    (h : x.Clean namespaces) :
    Quiet (x.answer sha256Hex encode k) := by
  have hflag : ∀ b, Quiet (flag b) := fun b => quiet_of_oneLine (oneLine_flag b)
  have hhash : ∀ path, Quiet (hashLine sha256Hex x path) := by
    intro path l hl
    rcases split_hashLine sha256Hex encode x htools path with hsplit | ⟨hsplit, -⟩
    · rw [hsplit, List.tail_cons, List.mem_singleton] at hl
      rw [hl]
      decide
    · rw [hsplit] at hl
      cases hl
  have hencode : ∀ bytes, Quiet (encode bytes) := fun bytes =>
    quiet_of_oneLine (field_encode sha256Hex encode htools bytes).1
  cases k
  case publicKey => exact h.publicKey
  case corrosionVersion => exact h.corrosionVersion
  case cooldVersion => exact h.cooldVersion
  case configB64 | wgDumpB64 => exact hencode _
  case fwHash | corrosionConfigHash | corrosionSchemaHash | cooldUnitHash => exact hhash _
  all_goals exact hflag _

/-- The report without what is read from the configuration, the dump and the rows. -/
def ServerState.bare (s : ServerState) : ServerState :=
  { s with wireguardMgmtIp := none, listenPort := 0, active := false, peers := [], namespaces := ∅ }

private theorem withConf_bare (s : ServerState) : s.bare.withConf {} = s.bare := rfl

/-- The lines of the keys give the report but for the texts, which they give too. -/
private theorem foldl_keys (htools : ProbeTools parseNet sha256Hex encode decode) {namespaces : List String}
    (h : x.Clean namespaces) :
    (ProbeKey.all.flatMap fun k => (x.keyLines sha256Hex encode k).map Str.stripCr).foldl
      (readLine decode) ⟨{}, "", ""⟩ =
      ⟨(probe sha256Hex namespaces x.machine).bare, x.confText.getD "", x.dump⟩ := by
  have hset : ∀ (ks : List ProbeKey) (r : Reading),
      (ks.flatMap fun k => (x.keyLines sha256Hex encode k).map Str.stripCr).foldl (readLine decode) r =
        ks.foldl (fun r k => setField decode r k (x.value sha256Hex encode k)) r := by
    intro ks
    induction ks with
    | nil => exact fun _ => rfl
    | cons k ks ih =>
      intro r
      rw [List.flatMap_cons, List.foldl_append, foldl_keyLines r (quiet_answer k htools h), ih, List.foldl_cons]
  rw [hset]
  simp only [ProbeKey.all, List.foldl_cons, List.foldl_nil, setField,
    decide_value_flag sha256Hex encode x .wgInstalled rfl, decide_value_flag sha256Hex encode x .keysExist rfl,
    trim_value_text sha256Hex encode x .publicKey rfl, decode_value sha256Hex encode x .configB64 htools rfl,
    decode_value sha256Hex encode x .wgDumpB64 htools rfl, decide_value_flag sha256Hex encode x .podmanInstalled rfl,
    decide_value_flag sha256Hex encode x .podmanSocketActive rfl, decide_value_flag sha256Hex encode x .ipForward rfl,
    decide_value_flag sha256Hex encode x .fwActive rfl, decide_value_flag sha256Hex encode x .defaultDeny rfl,
    trim_value_hash sha256Hex encode x .fwHash htools rfl, decide_value_flag sha256Hex encode x .nftAvailable rfl,
    decide_value_flag sha256Hex encode x .corrosionInstalled rfl,
    decide_value_flag sha256Hex encode x .corrosionActive rfl,
    trim_value_hash sha256Hex encode x .corrosionConfigHash htools rfl,
    decide_value_flag sha256Hex encode x .corrosionSchemaExists rfl,
    trim_value_hash sha256Hex encode x .corrosionSchemaHash htools rfl,
    decide_value_flag sha256Hex encode x .cooldInstalled rfl, decide_value_flag sha256Hex encode x .cooldActive rfl,
    trim_value_text sha256Hex encode x .corrosionVersion rfl, trim_value_text sha256Hex encode x .cooldVersion rfl,
    trim_value_hash sha256Hex encode x .cooldUnitHash htools rfl]
  rfl

/-- A row is no answer. -/
private theorem readLine_row (r : Reading) (ns : String) : readLine decode r (Str.stripCr (x.row ns)) = r := by
  have hsplit : Str.splitOnce '=' ("NS=" ++ Str.stripCr (Str.join '|' (x.cells ns))) =
      some ("NS", Str.stripCr (Str.join '|' (x.cells ns))) :=
    Str.splitOnce_append (p := "NS") (by decide) _
  have hname : ProbeKey.ofName "NS" = none := by decide
  rw [ProbedHost.row, Str.stripCr_append (by decide), readLine, hsplit]
  simp only [hname]

private theorem foldl_rows_readLine (namespaces : List String) (r : Reading) :
    (namespaces.map fun ns => Str.stripCr (x.row ns)).foldl (readLine decode) r = r := by
  induction namespaces with
  | nil => rfl
  | cons ns namespaces ih => rw [List.map_cons, List.foldl_cons, readLine_row, ih]

private theorem foldl_keys_readRow (htools : ProbeTools parseNet sha256Hex encode decode) {namespaces : List String}
    (h : x.Clean namespaces)
    (ks : List ProbeKey) (s : ServerState) :
    (ks.flatMap fun k => (x.keyLines sha256Hex encode k).map Str.stripCr).foldl (readRow parseNet) s = s := by
  induction ks with
  | nil => rfl
  | cons k ks ih =>
    rw [List.flatMap_cons, List.foldl_append, foldl_keyLines_readRow parseNet s (quiet_answer k htools h), ih]

/-- The rows give what the machine says of its namespaces. -/
private theorem foldl_rows (htools : ProbeTools parseNet sha256Hex encode decode) {namespaces : List String}
    (h : ∀ ns ∈ namespaces, ∀ cell ∈ x.cells ns, CellText cell) (s : ServerState) :
    (namespaces.map fun ns => Str.stripCr (x.row ns)).foldl (readRow parseNet) s =
      { s with
        namespaces := (namespaces.map fun ns => (ns, probeNamespace x.machine ns)).foldl
          (fun m e => m.insert e.1 e.2) s.namespaces } := by
  induction namespaces generalizing s with
  | nil => rfl
  | cons ns namespaces ih =>
    obtain ⟨hns, hrest⟩ := List.forall_mem_cons.1 h
    rw [List.map_cons, List.foldl_cons, readRow_row htools hns, ih hrest, List.map_cons, List.foldl_cons]

/-- What the tool reads of the text of a probe is the report of the machine, whatever its files, networks and services
are, as long as no file that is printed has a second line that looks like an answer. -/
theorem parseProbe_probeText (htools : ProbeTools parseNet sha256Hex encode decode) {namespaces : List String}
    (hnamespaces : validateNamespaces namespaces = .ok ()) (hreads : x.Reads) (hclean : x.Clean namespaces) :
    (parseProbe parseNet decode namespaces (probeText sha256Hex encode x namespaces)).withoutHandshakes =
      probe sha256Hex namespaces x.machine := by
  have hcells : ∀ ns ∈ namespaces, ∀ cell ∈ x.cells ns, CellText cell := fun ns hns =>
    cellText_cells (isDnsLabel_of_validateNamespaces hnamespaces ns hns) (hclean.labels ns hns)
  have hlines := lines_probeText sha256Hex encode x fun ns hns => oneLine_row (hcells ns hns)
  have hread : (Str.lines (probeText sha256Hex encode x namespaces)).foldl (readLine decode) ⟨{}, "", ""⟩ =
      ⟨(probe sha256Hex namespaces x.machine).bare, x.confText.getD "", x.dump⟩ := by
    rw [hlines, List.foldl_append, foldl_keys htools hclean, foldl_rows_readLine]
  have hnamespaceRows : ∀ s, (Str.lines (probeText sha256Hex encode x namespaces)).foldl (readRow parseNet) s =
      { s with
        namespaces := (namespaces.map fun ns => (ns, probeNamespace x.machine ns)).foldl
          (fun m e => m.insert e.1 e.2) s.namespaces } := by
    intro s
    rw [hlines, List.foldl_append, foldl_keys_readRow htools hclean, foldl_rows htools hcells]
  have hcollect : ∀ ns ∈ namespaces,
      ((Dict.collect (namespaces.map fun ns => (ns, probeNamespace x.machine ns))).lookup ns).isSome = true := by
    intro ns hns
    rw [Dict.lookup_collect_map_self, if_pos hns]
    rfl
  -- the configuration
  have hbare := withConf_bare (probe sha256Hex namespaces x.machine)
  have hconf := (parseConfig_eq hbare (x.confText.getD "")).1
  have hpeers := (parseConfig_eq hbare (x.confText.getD "")).2
  have hmachine : (probe sha256Hex namespaces x.machine).wireguardMgmtIp =
        (parseConfig {} (x.confText.getD "")).wireguardMgmtIp ∧
      (probe sha256Hex namespaces x.machine).listenPort = (parseConfig {} (x.confText.getD "")).listenPort ∧
      (probe sha256Hex namespaces x.machine).peers = (parseConfig {} (x.confText.getD "")).peers := by
    unfold probe
    dsimp only
    rw [hreads.conf]
    exact readConf_getD x.confText
  have hactive : (if Str.trim x.dump = "" then false else true) = (probe sha256Hex namespaces x.machine).active := by
    have hdump : (probe sha256Hex namespaces x.machine).active = decide (Str.trim x.dump ≠ "") := hreads.active
    rw [hdump]
    by_cases hempty : Str.trim x.dump = ""
    · simp [hempty]
    · simp [hempty]
  have hnamespaces : (probe sha256Hex namespaces x.machine).namespaces =
      Dict.collect (namespaces.map fun ns => (ns, probeNamespace x.machine ns)) := rfl
  have hstate : parseDump (parseConfig (probe sha256Hex namespaces x.machine).bare (x.confText.getD "")) x.dump =
      { (probe sha256Hex namespaces x.machine).bare with
        wireguardMgmtIp := (probe sha256Hex namespaces x.machine).wireguardMgmtIp
        listenPort := (probe sha256Hex namespaces x.machine).listenPort
        active := (probe sha256Hex namespaces x.machine).active
        peers := setHandshakes (probe sha256Hex namespaces x.machine).peers (Str.lines x.dump).tail } := by
    rw [hconf, hmachine.1, hmachine.2.1, hmachine.2.2, ← hactive]
    rfl
  unfold parseProbe
  rw [hread]
  dsimp only
  rw [hstate, hnamespaceRows, foldl_orDefault hcollect]
  unfold ServerState.withoutHandshakes
  dsimp only
  rw [map_setHandshakes, hmachine.2.2, hpeers, ← hmachine.2.2]
  rfl

end Report

end Coold.Cli
