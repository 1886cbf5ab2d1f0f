import Coold.Lib.Str

/-!
# What coold dials

Before it opens a stream coold reads its token, finds out the URL of flux and decides between plaintext and a pinned
certificate.  `connectAndServe` is an attempt up to the stream: the connection it makes, if any, and how the attempt
ends.

A connection is plaintext only without a pin file and to a URL that is not `https`, however that is spelled; with a pin
file it trusts that pin alone (`fluxTlsConfig_ok`).  The name verified is the host of the URL up to its first colon
(`fluxTlsDomain_urlOf`): the whole host, unless that is an IPv6 address in brackets.
-/

namespace Coold.Agent

/-! ### The token -/

/-- The file of the token when it is read: its permission bits and its text, as far as they can be read. -/
structure HostJwtFile where
  mode : Except String Nat
  content : Except String String

def octal (n : Nat) : String := "0o" ++ String.ofList (Nat.toDigits 8 n)

def loadHostJwt (path : String) (file : HostJwtFile) : Except String String :=
  match file.mode with
  | .error e => .error ("stat host JWT " ++ path ++ ": " ++ e)
  | .ok mode =>
    let mode := mode &&& 0o777
    if mode &&& 0o077 ≠ 0 then
      .error ("host JWT " ++ path ++ " has insecure perms " ++ octal mode ++ "; want 0600 (no group/other access)")
    else
      match file.content with
      | .error e => .error ("read host JWT from " ++ path ++ ": " ++ e)
      | .ok raw =>
        let trimmed := Str.trim raw
        if trimmed = "" then .error ("host JWT file " ++ path ++ " is empty") else .ok trimmed

/-! ### The URL -/

def primitiveCapabilities : List String :=
  ["images.pull", "images.list", "images.delete", "containers.create", "containers.start", "containers.stop",
    "containers.restart", "containers.delete", "containers.inspect", "containers.list", "containers.logs",
    "containers.exec", "containers.healthcheck.run", "ingress.apply", "ingress.stop", "firewall.allow",
    "firewall.revoke", "firewall.list", "firewall.reconcile", "coold.logs", "corrosion.tables", "host.jwt.set"]

/-- The part of the configuration that the stream uses, and the version of coold. -/
structure GrpcConfig where
  hostMgmtIp : String
  version : String
  grpcDisabled : Bool
  fluxUrl : Option String
  assignmentUrl : Option String
  hostJwtPath : String
  fluxTlsPinPath : String

structure AssignmentRequest where
  hostId : String
  cooldVersion : String
  capabilities : List String

def assignmentRequest (config : GrpcConfig) : AssignmentRequest :=
  ⟨config.hostMgmtIp, config.version, primitiveCapabilities⟩

/-- An answer of the assignment endpoint; `fluxUrl` is the field of its body, as far as that can be decoded. -/
structure AssignmentAnswer where
  status : String
  success : Bool
  text : String
  fluxUrl : Except String String

/-- `post` is the assignment endpoint, given its URL, the token and the request. -/
def resolveFluxUrl (post : String → String → AssignmentRequest → Except String AssignmentAnswer)
    (assignmentUrl fluxUrl : Option String) (jwt : String) (req : AssignmentRequest) : Except String String :=
  match assignmentUrl with
  | some url =>
    match post url jwt req with
    | .error e => .error ("POST flux assignment " ++ url ++ ": " ++ e)
    | .ok resp =>
      if !resp.success then
        .error ("flux assignment " ++ url ++ " returned " ++ resp.status ++ ": " ++ resp.text)
      else
        match resp.fluxUrl with
        | .error e => .error ("decode flux assignment response from " ++ url ++ ": " ++ e)
        | .ok assigned =>
          if Str.trim assigned = "" then .error ("flux assignment " ++ url ++ " returned empty flux_url")
          else .ok assigned
  | none =>
    match fluxUrl with
    | some url => .ok url
    | none => .error "COOLIFY_COOLD_ASSIGNMENT_URL or COOLIFY_COOLD_FLUX_URL must be set"

/-! ### Plaintext or a pinned certificate -/

/-- `trim_start`, lower case and `starts_with("https://")`. -/
def startsWithHttps (url : String) : Bool :=
  "https://".toList.isPrefixOf ((url.toList.dropWhile Str.isWhitespace).map Char.toLower)

def requireFluxTls (url : String) (pinPresent : Bool) : Except String Bool :=
  if pinPresent then .ok true
  else if startsWithHttps url then
    .error ("flux URL " ++ url ++ " is https but no TLS pin file is present; " ++
      "refusing to connect without a pinned certificate")
  else .ok false

/-- Where the authority of a URL ends. -/
def endsAuthority (c : Char) : Bool := c = '/' || c = '?' || c = '#'

/-- The host of an authority: userinfo and port are left out. -/
def hostOfAuthority (authority : List Char) : List Char := (authority.rtakeWhile (· ≠ '@')).takeWhile (· ≠ ':')

def fluxTlsDomain (url : String) : Option String :=
  let withoutScheme := ((Str.splitPattern "://" url)[1]?).getD url
  let authority := withoutScheme.toList.takeWhile fun c => !endsAuthority c
  let host := Str.trim (String.ofList (hostOfAuthority authority))
  if host = "" then none else some host

/-- The pin file when it is read. -/
inductive PinFile where
  | notFound
  | failed (e : String)
  | bytes (pem : List UInt8)

def PinFile.pem : PinFile → Option (List UInt8)
  | .bytes pem => some pem
  | _ => none

structure ClientTlsConfig where
  caCertificate : List UInt8
  domainName : Option String
  deriving DecidableEq

def fluxTlsConfig (url pinPath : String) (pin : PinFile) : Except String (Option ClientTlsConfig) :=
  match pin with
  | .failed e => .error ("read flux TLS pin " ++ pinPath ++ ": " ++ e)
  | .notFound => (requireFluxTls url false).map fun _ => none
  | .bytes pem => (requireFluxTls url true).map fun _ => some ⟨pem, fluxTlsDomain url⟩

/-! ### The attempt -/

/-- The codes of a gRPC status. -/
inductive Code where
  | ok | cancelled | unknown | invalidArgument | deadlineExceeded | notFound | alreadyExists | permissionDenied
  | resourceExhausted | failedPrecondition | aborted | outOfRange | unimplemented | internal | unavailable | dataLoss
  | unauthenticated
  deriving DecidableEq

/-- The causes of an error; a cause that is a gRPC status has its code. -/
abbrev Chain := List (Option Code)

/-- A channel to flux, with the token that its requests carry; without `tls` it is plaintext. -/
structure Connection where
  url : String
  jwt : String
  tls : Option ClientTlsConfig

/-- What an attempt meets: whether the URL and the TLS configuration are valid, the pin file, and how it ends once the
channel is dialed. -/
structure Peer where
  fromShared : String → Except Chain Unit
  pin : PinFile
  tlsConfig : ClientTlsConfig → Except Chain Unit
  serve : Connection → Except Chain Unit

/-- The channel that is dialed, or why none is. -/
def openChannel (config : GrpcConfig) (url jwt : String) (peer : Peer) : Except Chain Connection := do
  peer.fromShared url
  match fluxTlsConfig url config.fluxTlsPinPath peer.pin with
  | .error _ => throw [none]
  | .ok none => return ⟨url, jwt, none⟩
  | .ok (some tls) =>
    peer.tlsConfig tls
    return ⟨url, jwt, some tls⟩

/-- The connection made, and the end of the attempt. -/
def connectAndServe (config : GrpcConfig) (url jwt : String) (peer : Peer) : Option Connection × Except Chain Unit :=
  match openChannel config url jwt peer with
  | .error chain => (none, .error chain)
  | .ok connection => (some connection, peer.serve connection)

/-- A pin is what decides: with one the connection trusts it alone, without one it is plaintext and the URL is not
`https`. -/
theorem fluxTlsConfig_ok {url pinPath : String} {pin : PinFile} {tls : Option ClientTlsConfig}
    (h : fluxTlsConfig url pinPath pin = .ok tls) :
    (pin = .notFound ∧ startsWithHttps url = false ∧ tls = none) ∨
      ∃ pem, pin = .bytes pem ∧ tls = some ⟨pem, fluxTlsDomain url⟩ := by
  cases pin with
  | failed e => cases h
  | notFound =>
    refine Or.inl ⟨rfl, ?_⟩
    cases hhttps : startsWithHttps url with
    | true => simp [fluxTlsConfig, requireFluxTls, hhttps, Except.map] at h
    | false =>
      simp only [fluxTlsConfig, requireFluxTls, hhttps, Except.map] at h
      exact ⟨rfl, (Except.ok.inj h).symm⟩
  | bytes pem => exact Or.inr ⟨pem, rfl, (Except.ok.inj h).symm⟩

theorem openChannel_ok {config : GrpcConfig} {url jwt : String} {peer : Peer} {connection : Connection}
    (h : openChannel config url jwt peer = .ok connection) :
    connection.url = url ∧ connection.jwt = jwt ∧
      fluxTlsConfig url config.fluxTlsPinPath peer.pin = .ok connection.tls := by
  unfold openChannel at h
  cases hshared : peer.fromShared url with
  | error chain =>
    rw [hshared] at h
    cases h
  | ok u =>
    rw [hshared] at h
    cases htls : fluxTlsConfig url config.fluxTlsPinPath peer.pin with
    | error e =>
      rw [htls] at h
      cases h
    | ok tls =>
      rw [htls] at h
      cases tls with
      | none =>
        obtain rfl := Except.ok.inj h
        exact ⟨rfl, rfl, rfl⟩
      | some tls =>
        cases hconfig : peer.tlsConfig tls with
        | error chain =>
          simp only [bind, Except.bind, hconfig] at h
          cases h
        | ok u =>
          simp only [bind, Except.bind, hconfig] at h
          obtain rfl := Except.ok.inj h
          exact ⟨rfl, rfl, rfl⟩

/-! ### The host of a URL -/

/-- What is left of a host at its first colon. -/
def nameOfHost (host : String) : String := String.ofList (host.toList.takeWhile (· ≠ ':'))

/-- A host is cut exactly if it has a colon, as an IPv6 address has. -/
theorem nameOfHost_eq_self_iff {host : String} : nameOfHost host = host ↔ ':' ∉ host.toList := by
  rw [nameOfHost, ← String.toList_inj, String.toList_ofList, List.takeWhile_eq_self_iff]
  constructor
  · intro h hmem
    exact absurd rfl (of_decide_eq_true (h ':' hmem))
  · intro h c hc
    exact decide_eq_true fun hcolon => h (hcolon ▸ hc)

example : nameOfHost "[fd00::1]" = "[fd00" := by decide

private theorem takeWhile_colon_append {host after : List Char} (hport : after = [] ∨ ∃ l, after = ':' :: l) :
    (host ++ after).takeWhile (· ≠ ':') = host.takeWhile (· ≠ ':') := by
  induction host with
  | nil =>
    rcases hport with rfl | ⟨l, rfl⟩
    · rfl
    · simp
  | cons c host ih => rw [List.cons_append, List.takeWhile_cons, List.takeWhile_cons, ih]

private theorem hostOfAuthority_append {before host after : List Char}
    (hbefore : before = [] ∨ ∃ l, before = l ++ ['@'])
    (hhost : '@' ∉ host) (hafter : '@' ∉ after) (hport : after = [] ∨ ∃ l, after = ':' :: l) :
    hostOfAuthority (before ++ host ++ after) = host.takeWhile (· ≠ ':') := by
  have hrest : ∀ c ∈ host ++ after, decide (c ≠ '@') = true := by
    intro c hc
    rcases List.mem_append.1 hc with hc | hc
    · exact decide_eq_true fun h => hhost (h ▸ hc)
    · exact decide_eq_true fun h => hafter (h ▸ hc)
  have hlast : (before ++ host ++ after).rtakeWhile (· ≠ '@') = host ++ after := by
    rw [List.rtakeWhile, List.append_assoc, List.reverse_append, List.takeWhile_append_of_pos, List.reverse_append,
      List.reverse_reverse]
    · rcases hbefore with rfl | ⟨l, rfl⟩
      · simp
      · simp
    · intro c hc
      exact hrest c (List.mem_reverse.1 hc)
  rw [hostOfAuthority, hlast]
  exact takeWhile_colon_append hport

/-- The authority is read up to its end, save for a colon that the next `://` takes away. -/
private theorem takeWhile_piece {authority rest piece more : List Char} (h : authority ++ rest = piece ++ more)
    (hauthority : ∀ c ∈ authority, endsAuthority c = false) (hrest : ∀ c l, rest = c :: l → endsAuthority c = true)
    (hmore : more = [] ∨ "://".toList <+: more) :
    (piece.takeWhile fun c => !endsAuthority c) = authority ∨
      (piece.takeWhile fun c => !endsAuthority c) ++ [':'] = authority := by
  have hall : ∀ {l : List Char}, (∀ c ∈ l, endsAuthority c = false) → ∀ c ∈ l, (!endsAuthority c) = true := by
    intro l hl c hc
    rw [hl c hc, Bool.not_false]
  rcases List.append_eq_append_iff.1 h with ⟨r, rfl, rfl⟩ | ⟨r, rfl, rfl⟩
  · refine Or.inl ?_
    rw [List.takeWhile_append_of_pos (hall hauthority)]
    cases r with
    | nil => simp
    | cons c r => simp [hrest c _ rfl]
  · have hpiece : (piece.takeWhile fun c => !endsAuthority c) = piece := by
      rw [List.takeWhile_eq_self_iff]
      exact hall fun c hc => hauthority c (List.mem_append_left r hc)
    rw [hpiece]
    match r, hmore with
    | [], _ => exact Or.inl (List.append_nil _).symm
    | [c], hmore =>
      rcases hmore with hmore | ⟨t, hmore⟩
      · cases hmore
      · have hc : ':' = c := (List.cons.inj hmore).1
        exact Or.inr (by rw [hc])
    | c :: d :: r, hmore =>
      rcases hmore with hmore | ⟨t, hmore⟩
      · cases hmore
      · have hd : '/' = d := (List.cons.inj (List.cons.inj hmore).2).1
        have hends := hauthority d (by simp)
        rw [← hd] at hends
        cases hends

/-- The parts of an authority: a host, and userinfo and a port if there are any. -/
structure Authority where
  userinfo : Option String
  host : String
  port : Option String

def Authority.before (a : Authority) : List Char := a.userinfo.elim [] fun userinfo => userinfo.toList ++ ['@']

def Authority.after (a : Authority) : List Char := a.port.elim [] fun port => ':' :: port.toList

def Authority.chars (a : Authority) : List Char := a.before ++ a.host.toList ++ a.after

/-- No part contains what would end it; a host may have colons, as an IPv6 address in brackets has. -/
structure Authority.WellFormed (a : Authority) : Prop where
  chars : ∀ c ∈ a.chars, endsAuthority c = false
  host : '@' ∉ a.host.toList
  port : '@' ∉ a.after

/-- `scheme://authority` and what follows. -/
def urlOf (scheme : String) (a : Authority) (rest : String) : String :=
  scheme ++ "://" ++ String.ofList a.chars ++ rest

private theorem Authority.before_cases (a : Authority) : a.before = [] ∨ ∃ l, a.before = l ++ ['@'] := by
  rw [Authority.before]
  cases a.userinfo with
  | none => exact Or.inl rfl
  | some userinfo => exact Or.inr ⟨userinfo.toList, rfl⟩

private theorem Authority.after_cases (a : Authority) : a.after = [] ∨ ∃ l, a.after = ':' :: l := by
  rw [Authority.after]
  cases a.port with
  | none => exact Or.inl rfl
  | some port => exact Or.inr ⟨port.toList, rfl⟩

private theorem Authority.hostOfAuthority_chars {a : Authority} (ha : a.WellFormed) :
    hostOfAuthority a.chars = a.host.toList.takeWhile (· ≠ ':') :=
  hostOfAuthority_append a.before_cases ha.host ha.port a.after_cases

/-- A colon at the end of an authority makes no difference. -/
private theorem Authority.hostOfAuthority_of_colon {a : Authority} (ha : a.WellFormed) (hne : a.host ≠ "")
    {l : List Char}
    (h : l ++ [':'] = a.chars) : hostOfAuthority l = a.host.toList.takeWhile (· ≠ ':') := by
  rcases a.after_cases with hafter | ⟨p, hafter⟩
  · -- without a port the colon is the last one of the host
    rw [Authority.chars, hafter, List.append_nil] at h
    obtain ⟨host, hhost⟩ : ∃ host, host ++ [':'] = a.host.toList := by
      have hwhole : a.host.toList <:+ l ++ [':'] := h ▸ List.suffix_append _ _
      have hpos : 0 < a.host.toList.length := List.length_pos_of_ne_nil fun hnil => hne (String.toList_inj.1 hnil)
      exact List.suffix_of_suffix_length_le (List.suffix_append l [':']) hwhole hpos
    have hl : l = a.before ++ host ++ [] := by
      rw [← hhost, ← List.append_assoc] at h
      rw [List.append_nil]
      exact List.append_cancel_right h
    rw [hl, ← hhost, takeWhile_colon_append (Or.inr ⟨[], rfl⟩)]
    refine hostOfAuthority_append a.before_cases (fun hmem => ha.host ?_) List.not_mem_nil (Or.inl rfl)
    rw [← hhost]
    exact List.mem_append_left _ hmem
  · obtain ⟨p', hp'⟩ : ∃ p', ':' :: p = p' ++ [':'] := by
      rw [Authority.chars, hafter] at h
      have hsuffix : [':'] <:+ ':' :: p := by
        have hwhole : ':' :: p <:+ a.before ++ a.host.toList ++ ':' :: p := List.suffix_append _ _
        exact List.suffix_of_suffix_length_le ⟨l, h⟩ hwhole (by simp)
      obtain ⟨p', hp'⟩ := hsuffix
      exact ⟨p', hp'.symm⟩
    have hl : l = a.before ++ a.host.toList ++ p' := by
      rw [Authority.chars, hafter, hp', ← List.append_assoc] at h
      exact List.append_cancel_right h
    rw [hl]
    refine hostOfAuthority_append a.before_cases ha.host ?_ ?_
    · intro hmem
      refine ha.port ?_
      rw [hafter, hp']
      exact List.mem_append_left _ hmem
    · cases p' with
      | nil => exact Or.inl rfl
      | cons c p' => exact Or.inr ⟨p', by rw [(List.cons.inj hp').1]⟩

/-- The name that is verified is the host of the URL up to its first colon, whatever userinfo, port, path, query and
fragment there are. -/
theorem fluxTlsDomain_urlOf {scheme rest : String} {a : Authority} (hscheme : ':' ∉ scheme.toList) (ha : a.WellFormed)
    (hne : nameOfHost a.host ≠ "") (htrim : Str.Trimmed (nameOfHost a.host))
    (hrest : ∀ c l, rest.toList = c :: l → endsAuthority c = true) :
    fluxTlsDomain (urlOf scheme a rest) = some (nameOfHost a.host) := by
  obtain ⟨piece, more, pieces, hgo, hsplit, hmore⟩ :=
    Str.exists_splitPattern_go "://".toList (a.chars ++ rest.toList)
  have hpieces : Str.splitPattern "://" (urlOf scheme a rest) =
      (scheme.toList :: piece :: pieces).map String.ofList := by
    have happend : Str.splitPattern.go (':' :: ['/', '/']) 0 (scheme.toList ++ ':' :: ['/', '/'] ++
        (a.chars ++ rest.toList)) = _ := Str.splitPattern_go_append hscheme (a.chars ++ rest.toList)
    have hchars : (urlOf scheme a rest).toList = scheme.toList ++ ':' :: ['/', '/'] ++ (a.chars ++ rest.toList) := by
      simp [urlOf, String.toList_append]
    rw [Str.splitPattern, hchars]
    exact congrArg _ (happend.trans (congrArg _ hgo))
  have hhost : hostOfAuthority (piece.takeWhile fun c => !endsAuthority c) = a.host.toList.takeWhile (· ≠ ':') := by
    rcases takeWhile_piece hsplit ha.chars hrest hmore with hpiece | hpiece
    · rw [hpiece]
      exact Authority.hostOfAuthority_chars ha
    · refine Authority.hostOfAuthority_of_colon ha (fun hempty => hne ?_) hpiece
      rw [hempty]
      rfl
  have htrim : Str.trim (nameOfHost a.host) = nameOfHost a.host := Str.trim_eq_self_iff.2 htrim
  have hone : ((scheme.toList :: piece :: pieces).map String.ofList)[1]? = some (String.ofList piece) := rfl
  simp only [fluxTlsDomain, hpieces, hone, Option.getD_some, String.toList_ofList, hhost]
  exact if_neg (htrim ▸ hne) |>.trans (congrArg some htrim)

end Coold.Agent
