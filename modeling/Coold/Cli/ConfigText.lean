import Coold.Cli.Documents

/-!
# The text of a WireGuard configuration

The configuration of a host is written by a row of `echo` commands and read back line by line by the probe.  What is read
back are the address, the port and the peers that were written (`parseConfig_echoed`): a line of a section is split at
its first equals sign, a comment is no field, and a peer is complete when the next one or the end is reached.  The
arguments of the `echo` commands are what stands in double quotes in the text of the command (`operands`), unless one of
them has a character in it that the shell does not take as it is.
-/

namespace Coold.Cli

open Shell

/-- A private key, which is the only line of its file. -/
structure PrivateKey where
  text : String
  oneLine : OneLine text

/-! ### The text that is written -/

def renderWith (key : String) (mgmtIp : Ipv4Addr) (listenPort : UInt16) (peers : List PeerConfig) : String :=
  peers.foldl
    (fun s p => s ++ ("\n[Peer]\n# " ++ p.endpoint ++ "\nPublicKey = " ++ p.publicKey ++ "\nAllowedIPs = " ++
      allowedIpsLine p ++ "\nEndpoint = " ++ endpointAddr p.endpoint listenPort ++ "\nPersistentKeepalive = 25\n"))
    ("[Interface]\nAddress = " ++ ipv4ToString mgmtIp ++ "/32\nListenPort = " ++ toString listenPort.toNat ++
      "\nPrivateKey = " ++ key ++ "\n")

def renderConfig (mgmtIp : Ipv4Addr) (listenPort : UInt16) (peers : List PeerConfig) : String :=
  renderWith "__PRIVKEY__" mgmtIp listenPort peers

/-- The arguments of the `echo` commands for a peer. -/
def peerArgs (listenPort : UInt16) (p : PeerConfig) : List String :=
  ["", "[Peer]", "# " ++ p.endpoint, "PublicKey = " ++ p.publicKey, "AllowedIPs = " ++ allowedIpsLine p,
    "Endpoint = " ++ endpointAddr p.endpoint listenPort, "PersistentKeepalive = 25"]

/-- The arguments of the `echo` commands, with the text of the private key. -/
def echoArgs (key : String) (mgmtIp : Ipv4Addr) (listenPort : UInt16) (peers : List PeerConfig) : List String :=
  ["[Interface]", "Address = " ++ ipv4ToString mgmtIp ++ "/32", "ListenPort = " ++ toString listenPort.toNat,
    "PrivateKey = " ++ key] ++ peers.flatMap (peerArgs listenPort)

/-- The command has a variable for the private key, which the shell reads from its file. -/
def writeConfigCommand (iface : String) (mgmtIp : Ipv4Addr) (listenPort : UInt16) (peers : List PeerConfig) : String :=
  "PRIVKEY=$(cat /etc/wireguard/privatekey) && mkdir -p /etc/wireguard && \x7b " ++
    String.join ((echoArgs "$PRIVKEY" mgmtIp listenPort peers).map fun arg => "echo \"" ++ arg ++ "\"; ") ++
    "\x7d > /etc/wireguard/" ++ iface ++ ".conf.tmp && chmod 600 /etc/wireguard/" ++ iface ++
    ".conf.tmp && mv /etc/wireguard/" ++ iface ++ ".conf.tmp /etc/wireguard/" ++ iface ++ ".conf"

/-- A character that the shell takes as it is between double quotes: no quote, dollar sign, backslash or backtick. -/
def verbatimChar (c : Char) : Bool := c != '"' && c != '$' && c.toNat != 0x5c && c.toNat != 0x60

def Verbatim (s : String) : Prop := ∀ c ∈ s.toList, verbatimChar c = true

/-- What stands between double quotes in a command. -/
def operands (command : String) : List String := go (Str.split '"' command)
where
  go : List String → List String
    | _ :: arg :: rest => arg :: go rest
    | _ => []

/-- What the `echo` commands write with this private key: every argument, and a line feed. -/
def echoed (key : PrivateKey) (mgmtIp : Ipv4Addr) (listenPort : UInt16) (peers : List PeerConfig) : String :=
  unlines (echoArgs key.text mgmtIp listenPort peers)

/-! ### The text that is read -/

/-- A field of the interface or of the current peer. -/
def configField (s : ServerState) (cur : Option Peer) (k v : String) : ServerState × Option Peer :=
  match cur with
  | none =>
    if k = "Address" then
      match (Str.split '/' v).head?.bind IpAddr.parseV4 with
      | some ip => ({ s with wireguardMgmtIp := some ip }, none)
      | none => (s, none)
    else if k = "ListenPort" then ({ s with listenPort := (Str.parseU16 v).getD 0 }, none)
    else (s, none)
  | some p =>
    if k = "PublicKey" then (s, some { p with publicKey := v })
    else if k = "Endpoint" then (s, some { p with endpoint := v })
    else if k = "AllowedIPs" then (s, some { p with allowedIps := (Str.split ',' v).map Str.trim })
    else if k = "PersistentKeepalive" then (s, some { p with persistentKeepalive := (Str.parseU16 v).getD 0 })
    else (s, some p)

/-- The peer that has been read is one of the peers of the host. -/
def pushPeer (s : ServerState) (cur : Option Peer) : ServerState := { s with peers := s.peers ++ cur.toList }

def configLine (st : ServerState × Option Peer) (line : String) : ServerState × Option Peer :=
  if line = "[Peer]" then (pushPeer st.1 st.2, some {})
  else
    match Str.splitOnce '=' line with
    | none => st
    | some (k, v) => configField st.1 st.2 (Str.trim k) (Str.trim v)

def parseConfig (s : ServerState) (cfg : String) : ServerState :=
  let (s, cur) := ((Str.lines cfg).map Str.trim).foldl configLine (s, none)
  pushPeer s cur

/-! ### A line that is read -/

section Fields

variable (s : ServerState) (p : Peer) (v : String)

private theorem configField_address {ip : Ipv4Addr} (h : (Str.split '/' v).head?.bind IpAddr.parseV4 = some ip) :
    configField s none "Address" v = ({ s with wireguardMgmtIp := some ip }, none) := by
  simp [configField, h]

@[simp] theorem configField_listenPort :
    configField s none "ListenPort" v = ({ s with listenPort := (Str.parseU16 v).getD 0 }, none) := rfl

@[simp] theorem configField_privateKey : configField s none "PrivateKey" v = (s, none) := rfl

@[simp] theorem configField_publicKey :
    configField s (some p) "PublicKey" v = (s, some { p with publicKey := v }) := rfl

@[simp] theorem configField_endpoint : configField s (some p) "Endpoint" v = (s, some { p with endpoint := v }) := rfl

@[simp] theorem configField_allowedIps :
    configField s (some p) "AllowedIPs" v = (s, some { p with allowedIps := (Str.split ',' v).map Str.trim }) := rfl

@[simp] theorem configField_keepalive :
    configField s (some p) "PersistentKeepalive" v =
      (s, some { p with persistentKeepalive := (Str.parseU16 v).getD 0 }) := rfl

end Fields

/-- A field is split at the first equals sign, up to white space around its value. -/
private theorem configLine_field (st : ServerState × Option Peer) {k : String} (v : String) (hk : Str.Trimmed k)
    (hne : k ≠ "")
    (hequals : '=' ∉ k.toList) :
    configLine st (Str.trim (k ++ " = " ++ v)) = configField st.1 st.2 k (Str.trim v) := by
  obtain ⟨l, r, hv, hl, hr⟩ := Str.exists_trim v
  have hspace : Str.isWhitespace ' ' = true := by decide
  -- what is left of the line starts with the name and has the value in it
  have hline : ∃ v', Str.trim (k ++ " = " ++ v) = k ++ " " ++ String.singleton '=' ++ v' ∧ Str.trim v' = Str.trim v := by
    by_cases hempty : Str.trim v = ""
    · refine ⟨"", ?_, by rw [hempty]; exact Str.trim_eq_empty (by simp)⟩
      refine Str.trim_of_around (l := []) (r := ' ' :: v.toList) (by simp [String.toList_append]) (by simp) ?_ ?_
      · rw [hempty] at hv
        refine List.forall_mem_cons.2 ⟨hspace, fun c hc => ?_⟩
        rw [hv] at hc
        simp only [String.toList_empty, List.append_nil, List.mem_append] at hc
        exact hc.elim (hl c) (hr c)
      · rw [String.append_empty]
        exact hk.around (Str.trimmed_lit (by decide)) hne (by decide) " "
    · have htrim : Str.Trimmed (k ++ (" =" ++ String.ofList (' ' :: l)) ++ Str.trim v) :=
        hk.around (Str.trimmed_trim v) hne hempty _
      refine ⟨String.ofList (' ' :: l) ++ Str.trim v, ?_, ?_⟩
      · refine Str.trim_of_around (l := []) (r := r) ?_ (by simp) hr ?_
        · simp [String.toList_append, hv]
        · convert htrim using 1
          simp [String.append_assoc]
      · exact Str.trim_of_around (l := ' ' :: l) (r := []) (by simp [String.toList_append])
          (List.forall_mem_cons.2 ⟨hspace, hl⟩) (by simp) (Str.trimmed_trim v)
  obtain ⟨v', hline, hv'⟩ := hline
  have hsplit : Str.splitOnce '=' (k ++ " " ++ String.singleton '=' ++ v') = some (k ++ " ", v') :=
    Str.splitOnce_append (by simp [String.toList_append, hequals]) v'
  have hkey : Str.trim (k ++ " ") = k :=
    Str.trim_of_around (l := []) (r := [' ']) (by simp [String.toList_append]) (by simp) (by simp [hspace]) hk
  have hpeer : k ++ " " ++ String.singleton '=' ++ v' ≠ "[Peer]" := by
    intro heq
    have hnone : Str.splitOnce '=' "[Peer]" = none := by decide
    rw [heq, hnone] at hsplit
    cases hsplit
  rw [hline, configLine, if_neg hpeer, hsplit]
  simp only [hkey, hv']

/-- A comment is no field, whatever it says. -/
private theorem configLine_comment (s : ServerState) (p : Peer) (text : String) :
    configLine (s, some p) (Str.trim ("# " ++ text)) = (s, some p) := by
  obtain ⟨l, r, htrim, hl, hr⟩ := Str.exists_trim ("# " ++ text)
  have htext : ("# " ++ text).toList = '#' :: ' ' :: text.toList := by simp [String.toList_append]
  have hsign : Str.isWhitespace '#' = false := by decide
  -- the number sign is the first character of the line
  have hhead : (Str.trim ("# " ++ text)).toList.head? = some '#' := by
    rw [htext] at htrim
    cases l with
    | cons c l =>
      rw [List.cons_append, List.cons_append, List.cons.injEq] at htrim
      rw [htrim.1, hl c List.mem_cons_self] at hsign
      cases hsign
    | nil =>
      cases hline : (Str.trim ("# " ++ text)).toList with
      | cons c rest =>
        rw [hline, List.nil_append, List.cons_append, List.cons.injEq] at htrim
        rw [← htrim.1]
        rfl
      | nil =>
        rw [hline, List.nil_append, List.nil_append] at htrim
        rw [hr '#' (by rw [← htrim]; exact List.mem_cons_self)] at hsign
        cases hsign
  have hpeer : Str.trim ("# " ++ text) ≠ "[Peer]" := by
    intro heq
    rw [heq] at hhead
    cases hhead
  rw [configLine, if_neg hpeer]
  rcases Str.splitOnce_cases '=' (Str.trim ("# " ++ text)) with ⟨-, hsplit⟩ | ⟨k, v, -, hline, hsplit⟩
  · rw [hsplit]
  · rw [hsplit]
    -- the name of the field has the number sign in it
    have hmem : '#' ∈ (Str.trim k).toList := by
      rw [hline] at hhead
      obtain ⟨a, b, hk, ha, hb⟩ := Str.exists_trim k
      have hsignk : '#' ∈ k.toList := by
        cases hlist : k.toList with
        | nil => simp [String.toList_append, hlist] at hhead
        | cons c rest =>
          simp only [String.toList_append, hlist, List.cons_append, List.head?_cons, Option.some.injEq] at hhead
          rw [hhead]
          exact List.mem_cons_self
      rw [hk, List.mem_append, List.mem_append] at hsignk
      rcases hsignk with (hmem | hmem) | hmem
      · rw [ha _ hmem] at hsign
        cases hsign
      · exact hmem
      · rw [hb _ hmem] at hsign
        cases hsign
    have hname : ∀ name : String, '#' ∉ name.toList → Str.trim k ≠ name := fun name h heq => h (heq ▸ hmem)
    simp only [configField, if_neg (hname "PublicKey" (by decide)), if_neg (hname "Endpoint" (by decide)),
      if_neg (hname "AllowedIPs" (by decide)), if_neg (hname "PersistentKeepalive" (by decide))]

/-! ### The fields that are written -/

/-- One line without white space around it. -/
def Field (s : String) : Prop := OneLine s ∧ Str.Trimmed s

/-- A digit, a dot or a slash. -/
def isNetChar (c : Char) : Bool := c.isDigit || c == '.' || c == '/'

private theorem visible_of_isNetChar {c : Char} (h : isNetChar c = true) : Str.isWhitespace c = false := by
  refine Str.isWhitespace_of_printable ?_
  simp only [isNetChar, Char.isDigit, Bool.or_eq_true, Bool.and_eq_true, decide_eq_true_eq, beq_iff_eq] at h
  rcases h with (⟨h1, h2⟩ | rfl) | rfl
  · exact ⟨Nat.le_trans (by decide) h1, Nat.le_trans h2 (by decide)⟩
  · decide
  · decide

theorem netChars_toString (n : Nat) : ∀ c ∈ (toString n).toList, isNetChar c = true := by
  intro c hc
  simp [isNetChar, Str.isDigit_of_mem_toString hc]

theorem netChars_ipv4ToString (ip : Ipv4Addr) : ∀ c ∈ (ipv4ToString ip).toList, isNetChar c = true := by
  intro c hc
  rcases IpAddr.parseV4_chars (parseV4_ipv4ToString ip) hc with h | rfl
  · simp [isNetChar, h]
  · decide

private theorem netChars_allowedIps (p : PeerConfig) : ∀ a ∈ allowedIps p, ∀ c ∈ a.toList, isNetChar c = true := by
  have hnet : ∀ (ip : Ipv4Addr) (len : String), (∀ c ∈ len.toList, isNetChar c = true) →
      ∀ c ∈ (ipv4ToString ip ++ "/" ++ len).toList, isNetChar c = true := by
    intro ip len hlen c hc
    rw [String.toList_append, String.toList_append, List.mem_append, List.mem_append] at hc
    rcases hc with (hc | hc) | hc
    · exact netChars_ipv4ToString ip c hc
    · rw [List.mem_singleton.1 hc]
      decide
    · exact hlen c hc
  intro a ha
  rcases List.mem_cons.1 ha with rfl | ha
  · have hlen : "/32" = "/" ++ "32" := by decide
    rw [hlen, ← String.append_assoc]
    exact hnet p.mgmtIp "32" (List.all_eq_true.1 (by decide))
  · obtain ⟨net, -, rfl⟩ := List.mem_map.1 ha
    exact hnet net.addr _ (netChars_toString net.prefixLen)

/-- The networks of a peer are read back as they are written. -/
private theorem map_trim_allowedIpsLine (p : PeerConfig) :
    (Str.split ',' (allowedIpsLine p)).map Str.trim = allowedIps p := by
  refine Str.map_trim_split_comma (by simp [allowedIps]) fun a ha => ⟨?_, fun hc => ?_⟩
  · exact Str.trimmed_of_visible fun c hc => visible_of_isNetChar (netChars_allowedIps p a ha c hc)
  · exact absurd (netChars_allowedIps p a ha _ hc) (by decide)

theorem field_of_netChars {s : String} (h : ∀ c ∈ s.toList, isNetChar c = true) : Field s :=
  ⟨fun hc => absurd (h _ hc) (by decide), Str.trimmed_of_visible fun c hc => visible_of_isNetChar (h c hc)⟩

private theorem toString_ne_empty (n : Nat) : toString n ≠ "" := by
  have hlist : (toString n).toList = Nat.toDigits 10 n := by simp
  rw [Ne, ← String.toList_eq_nil_iff, hlist]
  exact Nat.toDigits_ne_nil

private theorem Field.append_port {s : String} (h : Field s) (n : Nat) : Field (s ++ ":" ++ toString n) := by
  obtain ⟨hline, htrim⟩ := h
  obtain ⟨hline', htrim'⟩ := field_of_netChars (netChars_toString n)
  refine ⟨(hline.append (oneLine_lit _ (by decide))).append hline', ?_⟩
  by_cases hs : s = ""
  · subst hs
    have hcolon : Str.Trimmed ":" := Str.trimmed_lit (by decide)
    exact hcolon.around htrim' (by decide) (toString_ne_empty n) ""
  · exact htrim.around htrim' hs (toString_ne_empty n) _

private theorem field_endpointAddr {endpoint : String} (h : Field endpoint) (listenPort : UInt16) :
    Field (endpointAddr endpoint listenPort) := by
  unfold endpointAddr
  split
  · exact h
  · exact h.append_port _

private theorem field_allowedIpsLine (p : PeerConfig) : Field (allowedIpsLine p) := by
  have hfield : ∀ a ∈ allowedIps p, Field a := fun a ha => field_of_netChars (netChars_allowedIps p a ha)
  have hne : ∀ a ∈ allowedIps p, a ≠ "" := by
    intro a ha
    rcases List.mem_cons.1 ha with rfl | ha
    · simp
    · obtain ⟨net, -, rfl⟩ := List.mem_map.1 ha
      change ipv4ToString net.addr ++ "/" ++ toString net.prefixLen ≠ ""
      simp
  exact ⟨oneLine_intercalate (oneLine_lit _ (by decide)) fun a ha => (hfield a ha).1,
    (Str.trimmed_intercalate ", " (by simp [allowedIps]) fun a ha => ⟨(hfield a ha).2, hne a ha⟩).1⟩

/-! ### The sections that are read -/

section Sections

variable {listenPort : UInt16} {p : PeerConfig}

/-- The lines of a peer are read as the peer, after the one before has been pushed. -/
private theorem foldl_peerArgs (hendpoint : Field p.endpoint) (hkey : Field p.publicKey)
    (st : ServerState × Option Peer) :
    ((peerArgs listenPort p).map Str.trim).foldl configLine st = (pushPeer st.1 st.2, some (p.toPeer listenPort)) := by
  have hblank : configLine st (Str.trim "") = st := rfl
  have hopen : configLine st (Str.trim "[Peer]") = (pushPeer st.1 st.2, some {}) := rfl
  have hfield : ∀ (cur : Peer) (name k v : String), name = k ++ " = " → Str.Trimmed k → k ≠ "" → '=' ∉ k.toList →
      Str.Trimmed v → configLine (pushPeer st.1 st.2, some cur) (Str.trim (name ++ v)) =
        configField (pushPeer st.1 st.2) (some cur) k v := by
    rintro cur _ k v rfl hk hne hequals hv
    rw [configLine_field _ v hk hne hequals, Str.trim_eq_self_iff.2 hv]
  have halive : "PersistentKeepalive = 25" = "PersistentKeepalive = " ++ toString (25 : UInt16).toNat := by decide
  unfold peerArgs
  rw [halive]
  simp only [List.map_cons, List.map_nil, List.foldl_cons, List.foldl_nil]
  rw [hblank, hopen, configLine_comment,
    hfield _ _ "PublicKey" _ (by decide) (Str.trimmed_lit (by decide)) (by decide) (by decide) hkey.2,
    configField_publicKey,
    hfield _ _ "AllowedIPs" _ (by decide) (Str.trimmed_lit (by decide)) (by decide) (by decide)
      (field_allowedIpsLine p).2,
    configField_allowedIps,
    hfield _ _ "Endpoint" _ (by decide) (Str.trimmed_lit (by decide)) (by decide) (by decide)
      (field_endpointAddr hendpoint listenPort).2,
    configField_endpoint,
    hfield _ _ "PersistentKeepalive" _ (by decide) (Str.trimmed_lit (by decide)) (by decide) (by decide)
      (field_of_netChars (netChars_toString _)).2,
    configField_keepalive, Str.parseU16_toString, map_trim_allowedIpsLine]
  rfl

/-- The lines of the peers are read as the peers. -/
private theorem foldl_peers (listenPort : UInt16) {peers : List PeerConfig}
    (h : ∀ p ∈ peers, Field p.endpoint ∧ Field p.publicKey)
    (st : ServerState × Option Peer) :
    let st' := ((peers.flatMap (peerArgs listenPort)).map Str.trim).foldl configLine st
    pushPeer st'.1 st'.2 =
      { st.1 with peers := st.1.peers ++ st.2.toList ++ peers.map fun p => p.toPeer listenPort } := by
  induction peers generalizing st with
  | nil => simp [pushPeer]
  | cons p peers ih =>
    obtain ⟨⟨hendpoint, hkey⟩, hrest⟩ := List.forall_mem_cons.1 h
    have hpeers := ih hrest (pushPeer st.1 st.2, some (p.toPeer listenPort))
    rw [List.flatMap_cons, List.map_append, List.foldl_append, foldl_peerArgs hendpoint hkey]
    dsimp only at hpeers ⊢
    rw [hpeers]
    simp [pushPeer]

/-- The lines of the interface are read as its address and its port. -/
private theorem foldl_interface (key : String) (mgmtIp : Ipv4Addr) (listenPort : UInt16) :
    (["[Interface]", "Address = " ++ ipv4ToString mgmtIp ++ "/32", "ListenPort = " ++ toString listenPort.toNat,
        "PrivateKey = " ++ key].map Str.trim).foldl configLine ({}, none) =
      ({ wireguardMgmtIp := some mgmtIp, listenPort := listenPort }, none) := by
  have hopen : configLine ({}, none) (Str.trim "[Interface]") = ({}, none) := rfl
  have hfield : ∀ (s : ServerState) (name k v : String), name = k ++ " = " → Str.Trimmed k → k ≠ "" → '=' ∉ k.toList →
      configLine (s, none) (Str.trim (name ++ v)) = configField s none k (Str.trim v) := by
    rintro s _ k v rfl hk hne hequals
    exact configLine_field (s, none) v hk hne hequals
  have haddress : ∀ s, configField s none "Address" (Str.trim (ipv4ToString mgmtIp ++ "/32")) =
      ({ s with wireguardMgmtIp := some mgmtIp }, none) := by
    intro s
    have hvisible : ∀ c ∈ (ipv4ToString mgmtIp ++ "/32").toList, isNetChar c = true := by
      intro c hc
      rw [String.toList_append, List.mem_append] at hc
      rcases hc with hc | hc
      · exact netChars_ipv4ToString mgmtIp c hc
      · exact List.all_eq_true.1 (by decide : "/32".toList.all isNetChar = true) c hc
    have hjoin : ipv4ToString mgmtIp ++ "/32" = Str.join '/' [ipv4ToString mgmtIp, "32"] := by
      rw [Str.join_cons_cons, Str.join_singleton, String.append_assoc]
      rfl
    have hslash : ∀ p ∈ [ipv4ToString mgmtIp, "32"], '/' ∉ p.toList := by
      intro p hp hc
      rcases List.mem_cons.1 hp with rfl | hp
      · exact absurd (IpAddr.parseV4_chars (parseV4_ipv4ToString mgmtIp) hc) (by decide)
      · rw [List.mem_singleton.1 hp] at hc
        exact absurd hc (by decide)
    have hparse : (Str.split '/' (ipv4ToString mgmtIp ++ "/32")).head?.bind IpAddr.parseV4 = some mgmtIp := by
      rw [hjoin, Str.split_join '/' (by simp) hslash, List.head?_cons, Option.bind_some, parseV4_ipv4ToString]
    rw [Str.trim_eq_self_iff.2 (field_of_netChars hvisible).2, configField_address _ _ hparse]
  simp only [List.map_cons, List.map_nil, List.foldl_cons, List.foldl_nil]
  rw [hopen, String.append_assoc,
    hfield _ _ "Address" _ (by decide) (Str.trimmed_lit (by decide)) (by decide) (by decide), haddress,
    hfield _ _ "ListenPort" _ (by decide) (Str.trimmed_lit (by decide)) (by decide) (by decide),
    configField_listenPort, Str.trim_eq_self_iff.2 (field_of_netChars (netChars_toString _)).2, Str.parseU16_toString,
    hfield _ _ "PrivateKey" _ (by decide) (Str.trimmed_lit (by decide)) (by decide) (by decide),
    configField_privateKey]
  rfl

/-- What is rendered before the private key. -/
private def beforeKey (mgmtIp : Ipv4Addr) (listenPort : UInt16) : String :=
  "[Interface]\nAddress = " ++ ipv4ToString mgmtIp ++ "/32\nListenPort = " ++ toString listenPort.toNat ++
    "\nPrivateKey = "

private theorem renderWith_eq (key : String) (mgmtIp : Ipv4Addr) (listenPort : UInt16) (peers : List PeerConfig) :
    renderWith key mgmtIp listenPort peers =
      beforeKey mgmtIp listenPort ++ key ++ ("\n" ++ unlines (peers.flatMap (peerArgs listenPort))) := by
  have hpeers : ∀ init : String, peers.foldl
      (fun s p => s ++ ("\n[Peer]\n# " ++ p.endpoint ++ "\nPublicKey = " ++ p.publicKey ++ "\nAllowedIPs = " ++
        allowedIpsLine p ++ "\nEndpoint = " ++ endpointAddr p.endpoint listenPort ++
        "\nPersistentKeepalive = 25\n")) init = init ++ unlines (peers.flatMap (peerArgs listenPort)) := by
    induction peers with
    | nil => simp [unlines]
    | cons p peers ih =>
      intro init
      rw [List.foldl_cons, ih, List.flatMap_cons, unlines_append, String.append_assoc]
      congr 2
      rw [← String.toList_inj]
      simp [toList_unlines, peerArgs, String.toList_append]
  unfold renderWith beforeKey
  rw [hpeers, String.append_assoc]

/-- The two generators write the same text. -/
private theorem renderWith_eq_unlines (key : String) (mgmtIp : Ipv4Addr) (listenPort : UInt16)
    (peers : List PeerConfig) :
    renderWith key mgmtIp listenPort peers = unlines (echoArgs key mgmtIp listenPort peers) := by
  rw [renderWith_eq, echoArgs, unlines_append, ← String.append_assoc]
  refine congrArg (· ++ unlines (peers.flatMap (peerArgs listenPort))) ?_
  unfold beforeKey
  rw [← String.toList_inj]
  simp [toList_unlines, String.toList_append]

private theorem oneLine_echoArgs {key : String} (hkey : OneLine key) (mgmtIp : Ipv4Addr) {peers : List PeerConfig}
    (h : ∀ p ∈ peers, Field p.endpoint ∧ Field p.publicKey) :
    ∀ arg ∈ echoArgs key mgmtIp listenPort peers, OneLine arg := by
  intro arg harg
  rw [echoArgs, List.mem_append, List.mem_flatMap] at harg
  rcases harg with harg | ⟨p, hp, harg⟩
  · simp only [List.mem_cons, List.not_mem_nil, or_false] at harg
    rcases harg with rfl | rfl | rfl | rfl
    · exact oneLine_lit _ (by decide)
    · exact ((oneLine_lit _ (by decide)).append (oneLine_ip mgmtIp)).append (oneLine_lit _ (by decide))
    · exact (oneLine_lit _ (by decide)).append (oneLine_nat _)
    · exact (oneLine_lit _ (by decide)).append hkey
  · obtain ⟨hendpoint, hpublic⟩ := h p hp
    simp only [peerArgs, List.mem_cons, List.not_mem_nil, or_false] at harg
    rcases harg with rfl | rfl | rfl | rfl | rfl | rfl | rfl
    · exact oneLine_lit [] rfl
    · exact oneLine_lit _ (by decide)
    · exact (oneLine_lit _ (by decide)).append hendpoint.1
    · exact (oneLine_lit _ (by decide)).append hpublic.1
    · exact (oneLine_lit _ (by decide)).append (field_allowedIpsLine p).1
    · exact (oneLine_lit _ (by decide)).append (field_endpointAddr hendpoint listenPort).1
    · exact oneLine_lit _ (by decide)

/-! ### The command and the rendered text -/

private theorem verbatim_lit (l : List Char) (h : l.all verbatimChar = true) : Verbatim (String.ofList l) := by
  intro c hc
  rw [String.toList_ofList] at hc
  exact List.all_eq_true.1 h c hc

theorem Verbatim.append {s t : String} (hs : Verbatim s) (ht : Verbatim t) : Verbatim (s ++ t) := by
  intro c hc
  rw [String.toList_append, List.mem_append] at hc
  exact hc.elim (hs c) (ht c)

private theorem Verbatim.quote_notMem {s : String} (h : Verbatim s) : '"' ∉ s.toList :=
  fun hc => absurd (h _ hc) (by decide)

private theorem Verbatim.dollar_notMem {s : String} (h : Verbatim s) : '$' ∉ s.toList :=
  fun hc => absurd (h _ hc) (by decide)

private theorem verbatim_of_netChars {s : String} (h : ∀ c ∈ s.toList, isNetChar c = true) : Verbatim s := by
  intro c hc
  have hne : ∀ x : Char, isNetChar x = false → c ≠ x := fun x hx heq => by rw [← heq, h c hc] at hx; cases hx
  have hnum : ∀ x : Char, isNetChar x = false → c.toNat ≠ x.toNat := fun x hx heq => hne x hx (Char.toNat_inj.1 heq)
  have hquote := hne '"' (by decide)
  have hdollar := hne '$' (by decide)
  have hslash := hnum (Char.ofNat 0x5c) (by decide)
  have htick := hnum (Char.ofNat 0x60) (by decide)
  simp only [verbatimChar, Bool.and_eq_true, bne_iff_ne]
  exact ⟨⟨⟨hquote, hdollar⟩, hslash⟩, htick⟩

/-- The operands of a row of `echo` commands, by induction on the commands; `front` is what stands before them. -/
private theorem operands_echoes {args : List String} (hargs : ∀ arg ∈ args, '"' ∉ arg.toList) {rest : String}
    (hrest : '"' ∉ rest.toList) (front : String) (hfront : '"' ∉ front.toList) :
    operands (front ++ String.join (args.map fun arg => "echo \"" ++ arg ++ "\"; ") ++ rest) = args := by
  induction args generalizing front with
  | nil =>
    have hplain : '"' ∉ (front ++ rest).toList := by simp [String.toList_append, hfront, hrest]
    rw [List.map_nil, String.join_nil, String.append_empty, operands, Str.split_of_notMem hplain]
    rfl
  | cons arg args ih =>
    obtain ⟨harg, hargs⟩ := List.forall_mem_cons.1 hargs
    have htext : front ++ String.join ((arg :: args).map fun arg => "echo \"" ++ arg ++ "\"; ") ++ rest =
        front ++ "echo " ++ String.singleton '"' ++ (arg ++ String.singleton '"' ++
          ("; " ++ String.join (args.map fun arg => "echo \"" ++ arg ++ "\"; ") ++ rest)) := by
      rw [← String.toList_inj]
      simp [String.toList_append]
    have hecho : '"' ∉ (front ++ "echo ").toList := by simp [String.toList_append, hfront]
    have hih := ih hargs "; " (by decide)
    rw [operands] at hih
    rw [operands, htext, Str.split_cons hecho, Str.split_cons harg, operands.go, hih]

/-- The first placeholder in the rendered text is the one of the private key. -/
private theorem replaceFirst_renderConfig (key : String) (mgmtIp : Ipv4Addr) (listenPort : UInt16)
    (peers : List PeerConfig) :
    Str.replaceFirst "__PRIVKEY__" key (renderConfig mgmtIp listenPort peers) =
      renderWith key mgmtIp listenPort peers := by
  have hfree : '_' ∉ (beforeKey mgmtIp listenPort).toList := by
    have hip : '_' ∉ (ipv4ToString mgmtIp).toList := fun hc => absurd (netChars_ipv4ToString mgmtIp _ hc) (by decide)
    have hport : '_' ∉ (toString listenPort.toNat).toList := Str.notMem_toString (by decide) _
    unfold beforeKey
    simp only [String.toList_append, List.mem_append, not_or]
    exact ⟨⟨⟨⟨by decide, hip⟩, by decide⟩, hport⟩, by decide⟩
  rw [renderConfig, renderWith_eq, renderWith_eq,
    Str.replaceFirst_append (c := '_') (p := "_PRIVKEY__".toList) (by decide) _ hfree]

private theorem verbatim_allowedIpsLine (p : PeerConfig) : Verbatim (allowedIpsLine p) :=
  Str.forall_mem_intercalate (List.all_eq_true.1 (by decide)) fun a ha =>
    verbatim_of_netChars (netChars_allowedIps p a ha)

private theorem verbatim_endpointAddr {endpoint : String} (h : Verbatim endpoint) (listenPort : UInt16) :
    Verbatim (endpointAddr endpoint listenPort) := by
  unfold endpointAddr
  split
  · exact h
  · exact (h.append (verbatim_lit [':'] (by decide))).append (verbatim_of_netChars (netChars_toString _))

/-- The arguments for the peers. -/
private theorem verbatim_peerArgs (h : Verbatim p.endpoint ∧ Verbatim p.publicKey) :
    ∀ arg ∈ peerArgs listenPort p, Verbatim arg := by
  obtain ⟨hendpoint, hpublic⟩ := h
  intro arg harg
  simp only [peerArgs, List.mem_cons, List.not_mem_nil, or_false] at harg
  rcases harg with rfl | rfl | rfl | rfl | rfl | rfl | rfl
  · exact verbatim_lit [] rfl
  · exact verbatim_lit _ (by decide)
  · exact (verbatim_lit _ (by decide)).append hendpoint
  · exact (verbatim_lit _ (by decide)).append hpublic
  · exact (verbatim_lit _ (by decide)).append (verbatim_allowedIpsLine p)
  · exact (verbatim_lit _ (by decide)).append (verbatim_endpointAddr hendpoint listenPort)
  · exact verbatim_lit _ (by decide)

private theorem verbatim_interface (mgmtIp : Ipv4Addr) (listenPort : UInt16) :
    Verbatim ("Address = " ++ ipv4ToString mgmtIp ++ "/32") ∧ Verbatim ("ListenPort = " ++ toString listenPort.toNat) :=
  ⟨((verbatim_lit _ (by decide)).append (verbatim_of_netChars (netChars_ipv4ToString mgmtIp))).append
    (verbatim_lit _ (by decide)), (verbatim_lit _ (by decide)).append (verbatim_of_netChars (netChars_toString _))⟩

section Command

variable (mgmtIp : Ipv4Addr) {peers : List PeerConfig} (h : ∀ p ∈ peers, Verbatim p.endpoint ∧ Verbatim p.publicKey)
include h

private theorem verbatim_flatMap_peerArgs : ∀ arg ∈ peers.flatMap (peerArgs listenPort), Verbatim arg := by
  intro arg harg
  obtain ⟨p, hp, harg⟩ := List.mem_flatMap.1 harg
  exact verbatim_peerArgs (h p hp) arg harg

variable (listenPort) in
private theorem quote_notMem_echoArgs :
    ∀ arg ∈ echoArgs "$PRIVKEY" mgmtIp listenPort peers, '"' ∉ arg.toList := by
  obtain ⟨haddress, hport⟩ := verbatim_interface mgmtIp listenPort
  intro arg harg
  rw [echoArgs, List.mem_append] at harg
  rcases harg with harg | harg
  · simp only [List.mem_cons, List.not_mem_nil, or_false] at harg
    rcases harg with rfl | rfl | rfl | rfl
    · decide
    · exact haddress.quote_notMem
    · exact hport.quote_notMem
    · decide
  · exact (verbatim_flatMap_peerArgs h arg harg).quote_notMem

/-- The key is filled in for the variable, and nothing else is. -/
private theorem map_replaceFirst_echoArgs (key : String) :
    (echoArgs "$PRIVKEY" mgmtIp listenPort peers).map (Str.replaceFirst "$PRIVKEY" key) =
      echoArgs key mgmtIp listenPort peers := by
  obtain ⟨haddress, hport⟩ := verbatim_interface mgmtIp listenPort
  have hsame : ∀ {arg : String}, Verbatim arg → Str.replaceFirst "$PRIVKEY" key arg = arg := fun harg =>
    Str.replaceFirst_of_notMem (c := '$') (p := "PRIVKEY".toList) (by decide) key harg.dollar_notMem
  have hkey : Str.replaceFirst "$PRIVKEY" key ("PrivateKey = " ++ "$PRIVKEY") = "PrivateKey = " ++ key := by
    have hvariable : "$PRIVKEY".toList = '$' :: "PRIVKEY".toList := by decide
    have hbefore : '$' ∉ "PrivateKey = ".toList := by decide
    have hfilled := Str.replaceFirst_append hvariable key hbefore ""
    rwa [String.append_empty, String.append_empty] at hfilled
  rw [echoArgs, echoArgs, List.map_append,
    List.map_congr_left fun arg harg => hsame (verbatim_flatMap_peerArgs h arg harg), List.map_id']
  simp only [List.map_cons, List.map_nil, hsame haddress, hsame hport, hkey]
  rw [hsame (verbatim_lit _ (by decide))]

/-- The shell reads the arguments of `echo` in the command, with a variable for the key. -/
private theorem operands_writeConfigCommand {iface : String} (hiface : Verbatim iface) :
    operands (writeConfigCommand iface mgmtIp listenPort peers) = echoArgs "$PRIVKEY" mgmtIp listenPort peers := by
  have hi : '"' ∉ iface.toList := hiface.quote_notMem
  have hrest : '"' ∉ ("\x7d > /etc/wireguard/" ++ iface ++ ".conf.tmp && chmod 600 /etc/wireguard/" ++ iface ++
      ".conf.tmp && mv /etc/wireguard/" ++ iface ++ ".conf.tmp /etc/wireguard/" ++ iface ++ ".conf").toList := by
    simp only [String.toList_append, List.mem_append, not_or]
    exact ⟨⟨⟨⟨⟨⟨⟨⟨by decide, hi⟩, by decide⟩, hi⟩, by decide⟩, hi⟩, by decide⟩, hi⟩, by decide⟩
  have hread := operands_echoes (quote_notMem_echoArgs listenPort mgmtIp h) hrest
    "PRIVKEY=$(cat /etc/wireguard/privatekey) && mkdir -p /etc/wireguard && \x7b " (by decide)
  unfold writeConfigCommand
  simp only [String.append_assoc] at hread ⊢
  exact hread

end Command

end Sections

/-- What the command writes is the rendered configuration with the private key in it, and the probe reads back the
address, the port and the peers in their order, each with its key, its networks and its endpoint.  Where the shell takes
every character as it is, what is written can be read off the text of the command. -/
theorem parseConfig_echoed (key : PrivateKey) (mgmtIp : Ipv4Addr) (listenPort : UInt16) {peers : List PeerConfig}
    (h : ∀ p ∈ peers, Field p.endpoint ∧ Field p.publicKey) :
    echoed key mgmtIp listenPort peers =
        Str.replaceFirst "__PRIVKEY__" key.text (renderConfig mgmtIp listenPort peers) ∧
      (∀ iface, Verbatim iface → (∀ p ∈ peers, Verbatim p.endpoint ∧ Verbatim p.publicKey) →
        echoed key mgmtIp listenPort peers = unlines ((operands (writeConfigCommand iface mgmtIp listenPort peers)).map
          (Str.replaceFirst "$PRIVKEY" key.text))) ∧
      parseConfig {} (echoed key mgmtIp listenPort peers) =
        { wireguardMgmtIp := some mgmtIp, listenPort := listenPort,
          peers := peers.map fun p => p.toPeer listenPort } := by
  refine ⟨?_, fun iface hiface hverbatim => ?_, ?_⟩
  · rw [replaceFirst_renderConfig, renderWith_eq_unlines, echoed]
  · rw [operands_writeConfigCommand mgmtIp hverbatim hiface, map_replaceFirst_echoArgs mgmtIp hverbatim, echoed]
  have hlines : (Str.lines (echoed key mgmtIp listenPort peers)).map Str.trim =
      (echoArgs key.text mgmtIp listenPort peers).map Str.trim :=
    Str.map_trim_lines (split_unlines (oneLine_echoArgs key.oneLine mgmtIp h))
  have hpeers := foldl_peers listenPort h
    ({ wireguardMgmtIp := some mgmtIp, listenPort := listenPort }, none)
  rw [parseConfig, hlines, echoArgs, List.map_append, List.foldl_append, foldl_interface]
  exact hpeers

/-- Two peers, keys with equals signs and a comment that looks like a field. -/
theorem parseConfig_echoed_two :
    parseConfig {} (echoed ⟨"cGs=", oneLine_lit _ (by decide)⟩ 0x64400001 51820
      [⟨"b", "Yg==", 0x64400002, [.ofLen 0x0AD20100 24]⟩, ⟨"Endpoint = c", "Yw==", 0x64400003, []⟩]) =
    { wireguardMgmtIp := some 0x64400001, listenPort := 51820,
      peers := [⟨"Yg==", "b:51820", ["100.64.0.2/32", "10.210.1.0/24"], 0, 25⟩,
        ⟨"Yw==", "Endpoint = c:51820", ["100.64.0.3/32"], 0, 25⟩] } := by
  have htwo : ∀ p ∈ ([⟨"b", "Yg==", 0x64400002, [.ofLen 0x0AD20100 24]⟩, ⟨"Endpoint = c", "Yw==", 0x64400003, []⟩] :
      List PeerConfig), Field p.endpoint ∧ Field p.publicKey := by
    have hb : Field "b" := ⟨oneLine_lit _ (by decide), Str.trimmed_lit (by decide)⟩
    have hkeyb : Field "Yg==" := ⟨oneLine_lit _ (by decide), Str.trimmed_lit (by decide)⟩
    have hc : Field "Endpoint = c" := ⟨oneLine_lit _ (by decide), Str.trim_eq_self_iff.1 (by decide)⟩
    have hkeyc : Field "Yw==" := ⟨oneLine_lit _ (by decide), Str.trimmed_lit (by decide)⟩
    simp [hb, hkeyb, hc, hkeyc]
  exact (parseConfig_echoed ⟨"cGs=", oneLine_lit _ (by decide)⟩ 0x64400001 51820 htwo).2.2

end Coold.Cli
