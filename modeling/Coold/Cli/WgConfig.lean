import Coold.Cli.State
import Coold.Lib.IpAddr
import Coold.Lib.Str

/-!
# The configuration of WireGuard

A configuration has the management address, the listen port and a section for each peer, with the addresses that are
routed to the peer and its endpoint.  `PeerConfig.toPeer` is a section as the probe reads it back.  The address of a
peer can be told from its section, since the text of an address determines it (`parseV4_ipv4ToString`).
-/

namespace Coold.Cli

/-- A peer as it is written into a WireGuard configuration. -/
structure PeerConfig where
  endpoint : String
  publicKey : String
  mgmtIp : Ipv4Addr
  containerSubnets : List Ipv4Net
  deriving DecidableEq

/-- The networks that are routed to a peer. -/
def allowedIps (p : PeerConfig) : List String :=
  (ipv4ToString p.mgmtIp ++ "/32") :: p.containerSubnets.map fun sn => toString sn

def allowedIpsLine (p : PeerConfig) : String := ", ".intercalate (allowedIps p)

/-- An endpoint has a port of its own. -/
def hasPort (endpoint : String) : Bool := (Str.rsplitOnce ':' endpoint).any fun (_, port) => (Str.parseU16 port).isSome

/-- An endpoint without a port is given the listen port of the host that writes it. -/
def endpointAddr (endpoint : String) (listenPort : UInt16) : String :=
  if hasPort endpoint then endpoint else endpoint ++ ":" ++ toString listenPort.toNat

/-- A peer section as the probe reads it back. -/
def PeerConfig.toPeer (p : PeerConfig) (listenPort : UInt16) : Peer where
  publicKey := p.publicKey
  endpoint := endpointAddr p.endpoint listenPort
  allowedIps := allowedIps p
  persistentKeepalive := 25

/-! ### The text of an address -/

/-- What the reader of a number checks holds of the digits of an octet. -/
private theorem octet_digits : ∀ n : Fin 256, (Nat.toDigits 10 n.val).length ≤ 3 ∧ Nat.toDigits 10 n.val ≠ [] ∧
    ((Nat.toDigits 10 n.val).head? = some '0' → (Nat.toDigits 10 n.val).length ≤ 1) ∧
    (Nat.toDigits 10 n.val).all (fun c => (IpAddr.toDigit 10 c).isSome) = true ∧
    (Nat.toDigits 10 n.val).foldl (fun acc c => acc * 10 + (IpAddr.toDigit 10 c).getD 0) 0 = n.val := by
  decide +kernel

private theorem readNumber_octet {n : Nat} (hn : n < 256) (rest : List Char) (hrest : ∀ c ∈ rest.head?, c = '.') :
    IpAddr.readNumber 10 3 256 false ((toString n).toList ++ rest) = some (n, rest) := by
  obtain ⟨hlen, hne, hzero, hall, hval⟩ := octet_digits ⟨n, hn⟩
  have hlist : (toString n).toList = Nat.toDigits 10 n := by simp
  rw [hlist]
  have hstop : rest.takeWhile (fun c => (IpAddr.toDigit 10 c).isSome) = [] := by
    cases rest with
    | nil => rfl
    | cons c rest =>
      obtain rfl := hrest c rfl
      exact List.takeWhile_cons_of_neg (by decide)
  have htake : (Nat.toDigits 10 n ++ rest).takeWhile (fun c => (IpAddr.toDigit 10 c).isSome) = Nat.toDigits 10 n := by
    rw [List.takeWhile_append_of_pos (List.all_eq_true.1 hall), hstop, List.append_nil]
  have hhead : (Nat.toDigits 10 n ++ rest).head? = (Nat.toDigits 10 n).head? :=
    List.head?_append_of_ne_nil _ hne
  unfold IpAddr.readNumber
  simp only [htake, hhead]
  simp only at hval hlen hzero
  rw [hval]
  have hnz : ((Nat.toDigits 10 n).head? = some '0' && decide ((Nat.toDigits 10 n).length > 1)) = false := by
    by_cases h0 : (Nat.toDigits 10 n).head? = some '0'
    · have := hzero h0
      simp [h0]; omega
    · simp [h0]
  simp [hn, Nat.not_lt.2 hlen, hne, hnz]

private theorem readSeparator_first {n : Nat} (hn : n < 256) (rest : List Char) (hrest : ∀ c ∈ rest.head?, c = '.') :
    IpAddr.readSeparator '.' 0 (IpAddr.readNumber 10 3 256 false) ((toString n).toList ++ rest) = some (n, rest) := by
  rw [IpAddr.readSeparator, if_neg (Nat.lt_irrefl 0)]
  change IpAddr.readNumber 10 3 256 false ((toString n).toList ++ rest) = some (n, rest)
  exact readNumber_octet hn rest hrest

private theorem readSeparator_octet {n i : Nat} (hn : n < 256) (rest : List Char) (hrest : ∀ c ∈ rest.head?, c = '.') :
    IpAddr.readSeparator '.' (i + 1) (IpAddr.readNumber 10 3 256 false) ('.' :: ((toString n).toList ++ rest)) =
      some (n, rest) := by
  rw [IpAddr.readSeparator, if_pos (Nat.succ_pos i)]
  change IpAddr.readNumber 10 3 256 false ((toString n).toList ++ rest) = some (n, rest)
  exact readNumber_octet hn rest hrest

/-- The address that a text was written from. -/
theorem parseV4_ipv4ToString (ip : Ipv4Addr) : IpAddr.parseV4 (ipv4ToString ip) = some ip := by
  have hoctet : ∀ i, ip.toNat / 256 ^ i % 256 < 256 := fun i => Nat.mod_lt _ (by decide)
  have htext : (ipv4ToString ip).toList =
      (toString (ip.toNat / 256 ^ 3 % 256)).toList ++ '.' :: ((toString (ip.toNat / 256 ^ 2 % 256)).toList ++
        '.' :: ((toString (ip.toNat / 256 ^ 1 % 256)).toList ++
          '.' :: ((toString (ip.toNat / 256 ^ 0 % 256)).toList ++ []))) := by
    simp [ipv4ToString, String.toList_append]
  have hread : IpAddr.readIpv4Addr (ipv4ToString ip).toList = some ([ip.toNat / 256 ^ 3 % 256,
      ip.toNat / 256 ^ 2 % 256, ip.toNat / 256 ^ 1 % 256, ip.toNat / 256 ^ 0 % 256], []) := by
    have hpure : ∀ l rest, (pure l : StateT (List Char) Option (List Nat)) rest = some (l, rest) := fun _ _ => rfl
    rw [htext]
    simp only [IpAddr.readIpv4Addr, bind, StateT.bind, hpure, Option.bind]
    simp only [readSeparator_first (hoctet 3) ('.' :: _) (by simp), readSeparator_octet (hoctet 2) ('.' :: _) (by simp),
      readSeparator_octet (hoctet 1) ('.' :: _) (by simp), readSeparator_octet (hoctet 0) [] (by simp)]
  rw [IpAddr.parseV4, hread]
  simp only [Option.some.injEq, IpAddr.ofDigits, List.foldl_cons, List.foldl_nil]
  rw [← BitVec.toNat_inj, BitVec.toNat_ofNat]
  have := ip.isLt
  omega

theorem ipv4ToString_inj {ip ip' : Ipv4Addr} (h : ipv4ToString ip = ipv4ToString ip') : ip = ip' := by
  have hparse := parseV4_ipv4ToString ip
  rw [h, parseV4_ipv4ToString ip', Option.some.injEq] at hparse
  exact hparse.symm

end Coold.Cli
