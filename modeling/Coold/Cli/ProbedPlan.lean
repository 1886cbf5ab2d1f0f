import Coold.Lib.Base64
import Coold.Cli.Probe

/-!
# Plans from the texts of probes

The planner looks at no handshake (`buildPlan_withoutHandshakes`).  So the plan from the texts that the hosts print is
the one from the reports of their machines, whichever hosts answer (`plan_from_texts`).
-/

namespace Coold.Cli

/-- The state without the handshakes of its hosts. -/
def MeshState.withoutHandshakes (st : MeshState) : MeshState where
  servers := st.servers.mapVal fun _ s => s.withoutHandshakes

private theorem mapVal_insert {V W : Type} (f : V → W) (m : Dict String V) (k : String) (v : V) :
    (AList.insert k v m).entries.map (fun e => (⟨e.1, f e.2⟩ : Sigma fun _ : String => W)) =
      List.kinsert k (f v) (m.entries.map fun e => ⟨e.1, f e.2⟩) := by
  have herase : (List.kerase k m.entries).map (fun e => (⟨e.1, f e.2⟩ : Sigma fun _ : String => W)) =
      List.kerase k (m.entries.map fun e => ⟨e.1, f e.2⟩) := by
    unfold List.kerase
    rw [List.eraseP_map]
    rfl
  show (List.kinsert k v m.entries).map _ = _
  unfold List.kinsert
  rw [List.map_cons, herase]

private theorem withoutHandshakes_reconstruct (hosts : List String) (answer : String → Option ServerState) :
    (reconstruct hosts answer).withoutHandshakes =
      reconstruct hosts fun h => (answer h).map ServerState.withoutHandshakes := by
  have hfold : ∀ (l : List (String × ServerState)) (m m' : Dict String ServerState),
      m.entries.map (fun e => (⟨e.1, e.2.withoutHandshakes⟩ : Sigma fun _ : String => ServerState)) = m'.entries →
      (l.foldl (fun m e => m.insert e.1 e.2) m).entries.map
          (fun e => (⟨e.1, e.2.withoutHandshakes⟩ : Sigma fun _ : String => ServerState)) =
        ((l.map fun e => (e.1, e.2.withoutHandshakes)).foldl (fun m e => m.insert e.1 e.2) m').entries := by
    intro l
    induction l with
    | nil => exact fun _ _ h => h
    | cons e l ih =>
      intro m m' h
      rw [List.foldl_cons, List.map_cons, List.foldl_cons]
      refine ih _ _ ?_
      rw [mapVal_insert, h]
      rfl
  have hlist : (hosts.filterMap fun h => (answer h).map fun s => (h, s)).map
      (fun e => (e.1, e.2.withoutHandshakes)) =
        hosts.filterMap fun h => ((answer h).map ServerState.withoutHandshakes).map fun s => (h, s) := by
    rw [List.map_filterMap]
    refine List.filterMap_congr fun h _ => ?_
    rw [Option.map_map, Option.map_map]
    rfl
  unfold reconstruct MeshState.withoutHandshakes
  refine congrArg MeshState.mk (AList.ext ?_)
  rw [← hlist]
  exact hfold _ ∅ ∅ rfl

section Blind

variable (sha256Hex : List UInt8 → String) (d : DesiredMesh) (st : MeshState) (mgmt : Dict String Ipv4Addr)
  (subnets : Subnets) (host : String)

private theorem lookup_withoutHandshakes :
    st.withoutHandshakes.servers.lookup host = (st.servers.lookup host).map ServerState.withoutHandshakes :=
  Dict.lookup_mapVal _ _ _

private theorem server_withoutHandshakes : st.withoutHandshakes.server host = (st.server host).withoutHandshakes := by
  rw [MeshState.server, lookup_withoutHandshakes, MeshState.server]
  cases st.servers.lookup host <;> rfl

/-- What is drawn from the states of the hosts without the handshakes. -/
private theorem filterMapVal_withoutHandshakes {W : Type} {f : ServerState → Option W}
    (hf : ∀ s, f s.withoutHandshakes = f s) :
    st.withoutHandshakes.servers.filterMapVal f = st.servers.filterMapVal f := by
  unfold Dict.filterMapVal MeshState.withoutHandshakes Dict.mapVal
  dsimp only
  rw [List.filterMap_map]
  refine congrArg Dict.collect (List.filterMap_congr fun e _ => ?_)
  rw [Function.comp_apply, hf]

private theorem currentKeys_withoutHandshakes : currentKeys st.withoutHandshakes host = currentKeys st host := by
  rw [currentKeys, server_withoutHandshakes, currentKeys, ServerState.withoutHandshakes, List.map_map]
  rfl

private theorem desiredKeys_withoutHandshakes : desiredKeys d st.withoutHandshakes host = desiredKeys d st host := by
  have hkeys : ∀ p, (st.withoutHandshakes.servers.lookup p).map ServerState.publicKey =
      (st.servers.lookup p).map ServerState.publicKey := by
    intro p
    rw [lookup_withoutHandshakes, Option.map_map]
    rfl
  simp only [desiredKeys, hkeys]

private theorem needsConfig_withoutHandshakes :
    needsConfig d st.withoutHandshakes mgmt host = needsConfig d st mgmt host := by
  have hpending : peerKeyPending d st.withoutHandshakes host = peerKeyPending d st host := by
    have hempty : ∀ p, (st.withoutHandshakes.servers.lookup p).map (fun s => s.publicKey.isEmpty) =
        (st.servers.lookup p).map fun s => s.publicKey.isEmpty := by
      intro p
      rw [lookup_withoutHandshakes, Option.map_map]
      rfl
    simp only [peerKeyPending, hempty]
  unfold needsConfig
  rw [server_withoutHandshakes, desiredKeys_withoutHandshakes, currentKeys_withoutHandshakes, hpending]
  rfl

private theorem hostActions_withoutHandshakes :
    hostActions sha256Hex d st.withoutHandshakes mgmt subnets host = hostActions sha256Hex d st mgmt subnets host := by
  have hserver := server_withoutHandshakes st host
  have hwg : wgActions d st.withoutHandshakes mgmt host = wgActions d st mgmt host := by
    unfold wgActions
    rw [hserver, currentKeys_withoutHandshakes, desiredKeys_withoutHandshakes, needsConfig_withoutHandshakes]
    rfl
  have hnetworks : networkActions st.withoutHandshakes subnets host = networkActions st subnets host := by
    funext ns
    unfold networkActions networkMissing networkDrift
    rw [hserver]
    rfl
  have hpodman : podmanActions sha256Hex d st.withoutHandshakes subnets host =
      podmanActions sha256Hex d st subnets host := by
    unfold podmanActions firewallDrift
    rw [hserver, hnetworks]
    rfl
  have hcoold : cooldActions sha256Hex d st.withoutHandshakes mgmt subnets host =
      cooldActions sha256Hex d st mgmt subnets host := by
    unfold cooldActions cfgDrift schemaDrift corrosionDrift cooldDrift cooldUnitDrift
    rw [hserver]
    rfl
  rw [hostActions, hwg, hpodman, hcoold, hostActions]

/-- The planner looks at no handshake. -/
theorem buildPlan_withoutHandshakes : buildPlan sha256Hex d st.withoutHandshakes = buildPlan sha256Hex d st := by
  have hrefusal : refusal d st.withoutHandshakes = refusal d st := by
    have hnft : ∀ h, ((st.withoutHandshakes.servers.lookup h).map fun s => d.defaultDenyContainers && !s.nftAvailable) =
        (st.servers.lookup h).map fun s => d.defaultDenyContainers && !s.nftAvailable := by
      intro h
      rw [lookup_withoutHandshakes, Option.map_map]
      rfl
    simp only [refusal, hnft]
  have hmgmt : st.withoutHandshakes.assignedMgmtIps = st.assignedMgmtIps :=
    filterMapVal_withoutHandshakes st fun _ => rfl
  have hsubnets : st.withoutHandshakes.assignedContainerSubnets = st.assignedContainerSubnets := by
    funext ns
    exact filterMapVal_withoutHandshakes st fun _ => rfl
  have hactions : ∀ mgmt subnets, hostActions sha256Hex d st.withoutHandshakes mgmt subnets =
      hostActions sha256Hex d st mgmt subnets := fun mgmt subnets =>
    funext fun host => hostActions_withoutHandshakes sha256Hex d st mgmt subnets host
  have hkeys : keysCut d st.withoutHandshakes = keysCut d st := by
    funext host
    rw [keysCut, currentKeys_withoutHandshakes, desiredKeys_withoutHandshakes, keysCut]
  unfold buildPlan
  rw [hrefusal, hmgmt, hsubnets, hkeys]
  simp only [hactions]

end Blind

/-- The answers of the hosts: what each of them prints, if it answers, and what is read of it. -/
def heard (parseNet : String → Option Ipv4Net) (sha256Hex encode : List UInt8 → String)
    (decode : String → Option (List UInt8)) (d : DesiredMesh) (x : String → ProbedHost) (answers : String → Bool) :
    MeshState :=
  reconstruct d.hosts fun h =>
    if answers h then some (parseProbe parseNet decode d.namespaces (probeText sha256Hex encode (x h) d.namespaces))
    else none

/-- The reports of the machines of the hosts that answer. -/
def reports (sha256Hex : List UInt8 → String) (d : DesiredMesh) (x : String → ProbedHost) (answers : String → Bool) :
    MeshState :=
  reconstruct d.hosts fun h => if answers h then some (probe sha256Hex d.namespaces (x h).machine) else none

/-- What the tool reads of the texts that the hosts print is the report of every machine, whatever its files, networks
and services are, and the plan from the texts is the plan from the reports, whichever hosts answer.  No file that is
printed may have a second line that looks like an answer. -/
theorem plan_from_texts (parseNet : String → Option Ipv4Net) (sha256Hex encode : List UInt8 → String)
    (decode : String → Option (List UInt8)) (htools : ProbeTools parseNet sha256Hex encode decode)
    (d : DesiredMesh) (hd : validateNamespaces d.namespaces = .ok ())
    (x : String → ProbedHost) (answers : String → Bool)
    (hx : ∀ h ∈ d.hosts, answers h = true → (x h).Reads ∧ (x h).Clean d.namespaces) :
    (heard parseNet sha256Hex encode decode d x answers).withoutHandshakes = reports sha256Hex d x answers ∧
      buildPlan sha256Hex d (heard parseNet sha256Hex encode decode d x answers) =
        buildPlan sha256Hex d (reports sha256Hex d x answers) := by
  have hread : (heard parseNet sha256Hex encode decode d x answers).withoutHandshakes =
      reports sha256Hex d x answers := by
    rw [heard, withoutHandshakes_reconstruct, reports]
    unfold reconstruct
    refine congrArg (fun l => MeshState.mk (Dict.collect l)) (List.filterMap_congr fun h hh => ?_)
    dsimp only
    by_cases hanswers : answers h = true
    · obtain ⟨hreads, hclean⟩ := hx h hh hanswers
      rw [if_pos hanswers, if_pos hanswers, Option.map_some, parseProbe_probeText htools hd hreads hclean]
    · rw [if_neg hanswers, if_neg hanswers]
      rfl
  refine ⟨hread, ?_⟩
  rw [← buildPlan_withoutHandshakes, hread]

/-! ### A host with a key, a peer and a network -/

/-- A reader of networks: an address, a slash and a length. -/
def sampleParseNet (s : String) : Option Ipv4Net :=
  match Str.splitOnce '/' s with
  | none => none
  | some (addr, len) => (IpAddr.parseV4 addr).bind fun ip => (Str.parseU16 len).map fun n => .ofLen ip n.toNat

private theorem sampleTools : ProbeTools sampleParseNet (fun _ => "0") Base64.encode Base64.decode where
  parse_toString net := by
    have hle := net.le
    have hlen : (UInt16.ofNat net.prefixLen).toNat = net.prefixLen :=
      UInt16.toNat_ofNat_of_lt' (Nat.lt_of_le_of_lt hle (by decide))
    have hparse : Str.parseU16 (toString net.prefixLen) = some (UInt16.ofNat net.prefixLen) := by
      have h := Str.parseU16_toString (UInt16.ofNat net.prefixLen)
      rwa [hlen] at h
    have hslash : '/' ∉ (ipv4ToString net.addr).toList := fun hc =>
      absurd (IpAddr.parseV4_chars (parseV4_ipv4ToString net.addr) hc) (by decide)
    have hsplit : Str.splitOnce '/' (toString net) = some (ipv4ToString net.addr, toString net.prefixLen) :=
      Str.splitOnce_append hslash _
    rw [sampleParseNet, hsplit]
    simp only [parseV4_ipv4ToString, hparse, Option.bind_some, Option.map_some, hlen]
    exact congrArg some (by simp [Ipv4Net.ofLen, Nat.min_eq_left hle])
  parse_empty := rfl
  hash _ := ⟨oneLine_lit _ (by decide), Str.trimmed_lit (by decide)⟩
  decode_encode := Base64.decode_encode
  encode_chars bytes c hc := by
    rcases Base64.mem_encode hc with h | rfl
    · have hall : Base64.alphabet.all (fun c => decide (c.isAlphanum = true ∨ c ∈ ['+', '/', '='])) = true := by decide
      exact of_decide_eq_true (List.all_eq_true.1 hall c h)
    · decide

def sampleConf : String :=
  "[Interface]\nAddress = 100.64.0.1/32\nListenPort = 51820\n\n[Peer]\nPublicKey = Yg==\nEndpoint = b:51820\n"

/-- A host whose interface is up, with a handshake in its dump. -/
def sampleProbed : ProbedHost where
  machine :=
    { (Machine.blank.write privateKeyPath "YQ==\n").write publicKeyPath "cGs=\n" with
      conf := some (readConf sampleConf)
      wgActive := true
      networks := (∅ : Dict String Network).insert (podmanNetworkFor "default")
        ⟨some (.ofLen 0x0AD20000 24), false, "default"⟩ }
  confText := some sampleConf
  dump := "YQ==\tcGs=\t51820\toff\nYg==\t(none)\tb:51820\t\t(none)\t1700000000\t0\t0\t25\n"
  bridgeTable := false

private theorem reads_sample : sampleProbed.Reads where
  conf := rfl
  active := by decide

private theorem clean_sample : sampleProbed.Clean ["default"] where
  publicKey := by
    have htext : sampleProbed.machine.text publicKeyPath = "cGs=\n" := rfl
    rw [htext]
    intro l hl
    have hsplit : Str.split '\n' "cGs=\n" = ["cGs=", ""] := by decide
    rw [hsplit, List.tail_cons, List.mem_singleton] at hl
    rw [hl]
    decide
  corrosionVersion := quiet_of_oneLine (oneLine_lit _ (by decide) : OneLine "")
  cooldVersion := quiet_of_oneLine (oneLine_lit _ (by decide) : OneLine "")
  labels := by
    intro ns hns net hnet
    rw [List.mem_singleton.1 hns] at hnet
    have hlookup : sampleProbed.machine.networks.lookup (podmanNetworkFor "default") =
        some ⟨some (.ofLen 0x0AD20000 24), false, "default"⟩ := AList.lookup_insert _
    rw [hlookup, Option.some.injEq] at hnet
    rw [← hnet]
    exact (cellText_of_isDnsLabel (by decide)).1

/-- Two hosts, of which one answers. -/
theorem plan_from_texts_sample :
    (heard sampleParseNet (fun _ => "0") Base64.encode Base64.decode (meshOf ["a", "b"]) (fun _ => sampleProbed)
        fun h => h == "a").withoutHandshakes =
        reports (fun _ => "0") (meshOf ["a", "b"]) (fun _ => sampleProbed) (fun h => h == "a") ∧
      buildPlan (fun _ => "0") (meshOf ["a", "b"])
          (heard sampleParseNet (fun _ => "0") Base64.encode Base64.decode (meshOf ["a", "b"])
            (fun _ => sampleProbed) fun h => h == "a") =
        buildPlan (fun _ => "0") (meshOf ["a", "b"])
          (reports (fun _ => "0") (meshOf ["a", "b"]) (fun _ => sampleProbed) fun h => h == "a") :=
  plan_from_texts sampleParseNet (fun _ => "0") Base64.encode Base64.decode sampleTools (meshOf ["a", "b"])
    (by decide) (fun _ => sampleProbed)
    (fun h => h == "a") fun _ _ _ => ⟨reads_sample, clean_sample⟩

end Coold.Cli
