import Coold.Cli.AllowedIps

/-!
# The endpoints of the peers

A host is given an endpoint for each of its peers.  Where the peer has no endpoint override, this is the part of its name
before the first colon, and where it has no port, the port is the one that the configured host listens on itself.  SSH
takes the name of the peer apart in another way.  So the endpoint leads to the peer exactly if both hosts listen on the
same port, where it matters, and the name of the peer has no colon other than that before its SSH port
(`endpoint_right_iff`).
-/

namespace Coold.Cli

/-- The host and the port that SSH connects to. -/
def splitHostPort (host : String) (defaultPort : UInt16) : String × UInt16 :=
  match Str.rsplitOnce ':' host with
  | none => (host, defaultPort)
  | some (name, rawPort) =>
    if name.isEmpty || name.toList.contains ':' then (host, defaultPort)
    else
      match Str.parseU16 rawPort with
      | some port => (name, port)
      | none => (host, defaultPort)

/-- The address that SSH connects to, without the port. -/
def sshName (host : String) : String := (splitHostPort host 22).1

/-- The endpoint that leads to a host: its override, with the port it listens on where that has no port, or else the
address that SSH connects to with the port it listens on. -/
def ownEndpoint (d : DesiredMesh) (p : String) : String :=
  match d.endpointOverrides.lookup p with
  | some endpoint => endpointAddr endpoint (d.listenPortFor p)
  | none => sshName p ++ ":" ++ toString (d.listenPortFor p).toNat

/-- The port that is taken from the host, and the part of the name that is taken, are those of the peer. -/
def EndpointsAgree (d : DesiredMesh) (host p : String) : Prop :=
  match d.endpointOverrides.lookup p with
  | some endpoint => hasPort endpoint = true ∨ d.listenPortFor host = d.listenPortFor p
  | none => d.listenPortFor host = d.listenPortFor p ∧ ':' ∉ (sshName p).toList

/-- The examples of host strings: a port, no port, and an IPv6 literal. -/
example : (splitHostPort "1.2.3.4:51572" 22, splitHostPort "node-a" 22, splitHostPort "fd00::1" 22) =
    (("1.2.3.4", 51572), ("node-a", 22), ("fd00::1", 22)) := by
  decide

/-! ### How a host string is split -/

/-- SSH connects to the whole host string, or to the part before its only colon. -/
private theorem sshName_cases (p : String) :
    sshName p = p ∨ ∃ port, p = sshName p ++ ":" ++ port ∧ ':' ∉ (sshName p).toList := by
  unfold sshName splitHostPort
  rcases Str.rsplitOnce_cases ':' p with ⟨-, hnone⟩ | ⟨name, rawPort, hp, hsome⟩
  · exact .inl (by rw [hnone])
  · rw [hsome]
    dsimp only
    split
    · exact .inl rfl
    next hname =>
      split
      · rw [Bool.or_eq_true, not_or, List.contains_iff_mem] at hname
        exact .inr ⟨rawPort, hp, hname.2⟩
      · exact .inl rfl

/-- A name that SSH connects to has no colon if and only if it is the part before the first colon. -/
private theorem takeWhile_sshName (p : String) (h : ':' ∉ (sshName p).toList) :
    p.toList.takeWhile (fun c => c ≠ ':') = (sshName p).toList := by
  have hall : ∀ c ∈ (sshName p).toList, decide (c ≠ ':') = true := by
    intro c hc
    simpa using fun heq : c = ':' => h (heq ▸ hc)
  rcases sshName_cases p with hp | ⟨port, hp, -⟩
  · rw [hp] at hall ⊢
    exact List.takeWhile_eq_self_iff.2 hall
  · rw [show p.toList = (sshName p).toList ++ ':' :: port.toList by
      conv_lhs => rw [hp]
      simp [String.toList_append]]
    rw [List.takeWhile_append_of_pos hall, List.takeWhile_cons_of_neg (by simp), List.append_nil]

private theorem toString_port_inj {m n : UInt16} : toString m.toNat = toString n.toNat ↔ m = n := by
  refine ⟨fun h => ?_, fun h => by rw [h]⟩
  have hlist : ∀ k : UInt16, Nat.ofDigitChars 10 (toString k.toNat).toList 0 = k.toNat := by
    intro k
    have hdigits : (toString k.toNat).toList = Nat.toDigits 10 k.toNat := by simp
    rw [hdigits]
    exact Nat.ofDigitChars_ten_toDigits
  rw [← UInt16.toNat_inj, ← hlist m, h, hlist n]

/-- An endpoint of a name and a port determines both, if neither has a colon. -/
private theorem append_port_inj {a b x y : String} (ha : ':' ∉ a.toList) (hx : ':' ∉ x.toList) :
    a ++ ":" ++ x = b ++ ":" ++ y ↔ a = b ∧ x = y := by
  have htext : ∀ s t : String, (s ++ ":" ++ t).toList = s.toList ++ ':' :: t.toList := by
    intro s t
    simp [String.toList_append]
  rw [← String.toList_inj, htext, htext, List.append_cons_inj_of_notMem ha hx, String.toList_inj, String.toList_inj]
  simp

private theorem endpointAddr_eq_iff {endpoint : String} {m n : UInt16} :
    endpointAddr endpoint m = endpointAddr endpoint n ↔ hasPort endpoint = true ∨ m = n := by
  unfold endpointAddr
  by_cases h : hasPort endpoint = true
  · simp [h]
  · rw [if_neg h, if_neg h, String.append_right_inj, toString_port_inj]
    simp [h]

/-- The endpoint in the configuration of a host is the one that leads to the peer, exactly if the two agree. -/
private theorem endpointAddr_endpointFor_iff (d : DesiredMesh) (host p : String) :
    endpointAddr (d.endpointFor p) (d.listenPortFor host) = ownEndpoint d p ↔ EndpointsAgree d host p := by
  unfold DesiredMesh.endpointFor ownEndpoint EndpointsAgree
  cases hover : d.endpointOverrides.lookup p with
  | some endpoint => exact endpointAddr_eq_iff
  | none =>
    -- the part before the first colon has no port, so the port is appended
    have hpart : ':' ∉ (String.ofList (p.toList.takeWhile fun c => c ≠ ':')).toList := by
      rw [String.toList_ofList]
      intro hc
      simpa using List.mem_takeWhile_imp hc
    have hport : ∀ n, endpointAddr (String.ofList (p.toList.takeWhile fun c => c ≠ ':')) n =
        String.ofList (p.toList.takeWhile fun c => c ≠ ':') ++ ":" ++ toString n.toNat := by
      intro n
      rw [endpointAddr, hasPort, Str.rsplitOnce_eq_none hpart, if_neg (by simp)]
    rw [Option.getD_none, hport, append_port_inj hpart (Str.notMem_toString (by decide) _), toString_port_inj, and_comm]
    refine and_congr_right fun _ => ⟨fun heq => heq ▸ hpart, fun hcolon => ?_⟩
    rw [takeWhile_sshName p hcolon, String.ofList_toList]

/-- In the configuration that is written on a host, the endpoint of a peer is the one that leads to it, exactly if the
two agree. -/
theorem endpoint_right_iff {d : DesiredMesh} {planned : Plan} {host : String} {mgmt : Dict String Ipv4Addr}
    {subnets : Subnets} {fresh : MeshState} {s : Step} (hs : s ∈ phase2 d planned host mgmt subnets fresh)
    {iface : String} {ip : Ipv4Addr} {port : UInt16} {peers : List PeerConfig}
    (hcmd : s.cmd = .writeConfig iface ip port peers) :
    peers = (d.others host).filterMap (peerOf d mgmt subnets fresh) ∧
      ∀ p ∈ d.others host, ∀ q, peerOf d mgmt subnets fresh p = some q →
        (endpointAddr q.endpoint port = ownEndpoint d p ↔ EndpointsAgree d host p) := by
  obtain ⟨-, -, rfl, rfl⟩ := writeConfig_mem_phase2 hs hcmd
  refine ⟨rfl, fun p _ q hq => ?_⟩
  obtain ⟨s, -, rfl⟩ := Option.map_eq_some_iff.1 hq
  exact endpointAddr_endpointFor_iff d host p

/-- A host with a port in its name and one with an endpoint override, on the same port. -/
def plainMesh : DesiredMesh :=
  { meshOf ["a:2201", "b"] with endpointOverrides := Dict.collect [("b", "host.lima.internal:51822")] }

theorem endpoint_right_iff_plain :
    ∃ s ∈ phase2 plainMesh ⟨[⟨"b", "", .writeConfig, ""⟩], ∅, ∅, [], []⟩ "b"
        (Dict.collect [("a:2201", 0x64400001), ("b", 0x64400002)])
        (Dict.collect [(("default", "a:2201"), Ipv4Net.ofLen 0x0AD20000 24)])
        ⟨Dict.collect [("a:2201", { publicKey := "A" })]⟩,
      ∃ q, s.cmd = .writeConfig "wg0" 0x64400002 51820 [q] ∧
        endpointAddr q.endpoint 51820 = ownEndpoint plainMesh "a:2201" := by
  have hs : (⟨.writeConfig, "", .writeConfig "wg0" 0x64400002 51820
      [⟨"a", "A", 0x64400001, [⟨0x0AD20000, 24, by decide⟩]⟩]⟩ : Step) ∈
      phase2 plainMesh ⟨[⟨"b", "", .writeConfig, ""⟩], ∅, ∅, [], []⟩ "b"
        (Dict.collect [("a:2201", 0x64400001), ("b", 0x64400002)])
        (Dict.collect [(("default", "a:2201"), Ipv4Net.ofLen 0x0AD20000 24)])
        ⟨Dict.collect [("a:2201", { publicKey := "A" })]⟩ := by decide
  have hagree : EndpointsAgree plainMesh "b" "a:2201" :=
    show plainMesh.listenPortFor "b" = plainMesh.listenPortFor "a:2201" ∧ ':' ∉ (sshName "a:2201").toList by
      decide
  exact ⟨_, hs, _, rfl, ((endpoint_right_iff hs rfl).2 "a:2201" (by decide) _ (by decide)).2 hagree⟩

/-- A node that listens on a port of its own is looked for at the port of the host that looks, and a node that is given as
an IPv6 address at the part before its first colon. -/
theorem endpoint_wrong :
    (("a", (⟨.writeConfig, "", .writeConfig "wg0" 0x64400001 51820
        [⟨"b", "B", 0x64400002, [⟨0x0AD20100, 24, by decide⟩]⟩]⟩ : Step)) ∈
      (applyMesh (fun _ => "0") { meshOf ["a", "b"] with listenPortOverrides := Dict.collect [("b", 51821)] } ⟨∅⟩
        answering).log ∧
      endpointAddr "b" 51820 = "b:51820" ∧
      ownEndpoint { meshOf ["a", "b"] with listenPortOverrides := Dict.collect [("b", 51821)] } "b" = "b:51821") ∧
    (meshOf ["a", "fd00::1"]).endpointFor "fd00::1" = "fd00" ∧
      ownEndpoint (meshOf ["a", "fd00::1"]) "fd00::1" = "fd00::1:51820" := by
  refine ⟨⟨by decide, by decide, by decide⟩, by decide, by decide⟩

end Coold.Cli
