import Coold.Lib.Dict
import Coold.Lib.IpAddr
import Coold.Lib.Json
import Coold.Lib.Str

/-!
# Authentication of a stream

`verifyJwt` decides whether a bearer token opens a stream, `teamIdSatisfied` and `decideHostBinding` what else has
to hold of it.  The `jsonwebtoken` crate is the parameter `J : JsonWebToken`: parsing of headers, loading of keys,
and `decode`, which checks a token against a key and a `Validation` at the crate's own reading of the clock and
returns the payload.  `AcceptedClaims` lists the gates of `verifyJwt`, and `verifyJwt_eq_ok_iff` says that the
tokens that pass them are the ones that are accepted.
-/

namespace Coold.Flux

/-- The `kid` of the default key. -/
def defaultKid : String := "flux-default"

structure Claims where
  sub : String
  caps : List String
  exp : Nat
  jti : Option String
  teamId : Option String
  deriving DecidableEq

/-- Accept an identifier claim as a string, a number or `null`. -/
def deserializeFlexibleId : Json.Value → Option (Option String)
  | .null => some none
  | .string s => some (some s)
  | .number n => some (some n.toString)
  | _ => none

/-- `caps`, `jti` and `team_id` may be missing; an unknown field is ignored. -/
def Claims.deserialize : Json.Value → Option Claims
  | .object fields => do
    let sub ← (← Json.Value.field fields "sub").bind Json.Value.asString
    let caps ← ((← Json.Value.field fields "caps").map Json.Value.asStrings).getD (some [])
    let exp ← (← Json.Value.field fields "exp").bind (Json.Value.asUnsigned 64)
    let jti ← ((← Json.Value.field fields "jti").map Json.Value.asNullableString).getD (some none)
    let teamId ← ((← Json.Value.field fields "team_id").map deserializeFlexibleId).getD (some none)
    return { sub, caps, exp, jti, teamId }
  | _ => none

structure VerifiedJwt where
  hostId : String
  caps : List String
  exp : Nat
  teamId : Option String
  deriving DecidableEq

inductive Algorithm where
  | hs256
  | hs384
  | hs512
  | es256
  | es384
  | rs256
  | rs384
  | rs512
  | ps256
  | ps384
  | ps512
  | edDSA
  deriving DecidableEq

structure Header where
  alg : Algorithm
  kid : Option String
  deriving DecidableEq

structure Validation where
  alg : Algorithm
  aud : List String
  leeway : Nat
  deriving DecidableEq

/-- What `verify_jwt` calls of the `jsonwebtoken` crate.  The last argument of `decode` is the time at which the
crate reads the clock. -/
structure JsonWebToken where
  Key : Type
  decodeHeader : String → Option Header
  fromEcPem : String → Option Key
  fromRsaPem : String → Option Key
  decode : String → Key → Validation → Nat → Option Json.Value

structure JwtKeys where
  defaultPem : String
  byKid : Dict String String

/-- The PEM of the key for the `kid` of a token. -/
def JwtKeys.resolve (keys : JwtKeys) : Option String → Option String
  | none => some keys.defaultPem
  | some k => if k = defaultKid then some keys.defaultPem else keys.byKid.lookup k

inductive KeyKind where
  | ec
  | rsa
  deriving DecidableEq

/-- The algorithms that may be used with a key. -/
def KeyKind.allows : KeyKind → Algorithm → Bool
  | .ec, .es256 | .ec, .es384 => true
  | .rsa, .rs256 | .rsa, .rs384 | .rsa, .rs512 | .rsa, .ps256 | .rsa, .ps384 | .rsa, .ps512 => true
  | _, _ => false

/-- Seconds until `exp`, `0` if it has passed. -/
def secondsUntilExpiry (exp now : Nat) : Nat := exp - now

/-- A maximum of `0` disables the clamp. -/
def lifetimeWithinClamp (exp now maxLifetimeSecs : Nat) : Bool :=
  if maxLifetimeSecs = 0 then true else decide (secondsUntilExpiry exp now ≤ maxLifetimeSecs)

inductive AuthError where
  | headerParse
  | unknownKid (kid : Option String)
  | loadPubkey
  | algNotAllowed (alg : Algorithm)
  | verificationFailed
  | lifetimeExceedsMax (remaining max : Nat)
  | jtiRevoked (jti : String)
  deriving DecidableEq

/-- The slack, in seconds, on the expiry of a token. -/
def leewaySecs : Nat := 60

section VerifyJwt

variable (J : JsonWebToken)

/-- A PEM is loaded as an EC key, else as an RSA key. -/
def loadKey (pem : String) : Option (J.Key × KeyKind) :=
  match J.fromEcPem pem with
  | some k => some (k, .ec)
  | none => (J.fromRsaPem pem).map fun k => (k, .rsa)

/-- What `decode` is told to check for a token of the given algorithm. -/
def validationFor (alg : Algorithm) : Validation := { alg := alg, aud := ["coold"], leeway := leewaySecs }

/-- `decode::<Claims>`. -/
def decodeClaims (token : String) (key : J.Key) (validation : Validation) (clock : Nat) : Option Claims :=
  (J.decode token key validation clock).bind Claims.deserialize

/-- The gates after the key and the algorithm: expiry and signature, the clamp, the denylist. -/
def verifyClaims (isRevoked : String → Bool) (now maxLifetimeSecs : Nat) (claims : Claims) :
    Except AuthError VerifiedJwt :=
  if !lifetimeWithinClamp claims.exp now maxLifetimeSecs then
    .error (.lifetimeExceedsMax (secondsUntilExpiry claims.exp now) maxLifetimeSecs)
  else
    match claims.jti.filter isRevoked with
    | some jti => .error (.jtiRevoked jti)
    | none => .ok { hostId := claims.sub, caps := claims.caps, exp := claims.exp, teamId := claims.teamId }

/-- Verify a per-host JWT; `now` is the time of the caller, `clock` the one that `decode` reads. -/
def verifyJwt (token : String) (keys : JwtKeys) (isRevoked : String → Bool) (now clock maxLifetimeSecs : Nat) :
    Except AuthError VerifiedJwt :=
  match J.decodeHeader token with
  | none => .error .headerParse
  | some header =>
    match keys.resolve header.kid with
    | none => .error (.unknownKid header.kid)
    | some pem =>
      match loadKey J pem with
      | none => .error .loadPubkey
      | some (key, kind) =>
        if !kind.allows header.alg then .error (.algNotAllowed header.alg)
        else
          match decodeClaims J token key (validationFor header.alg) clock with
          | none => .error .verificationFailed
          | some claims => verifyClaims isRevoked now maxLifetimeSecs claims

/-- The gates that a token passes to be accepted with the given claims. -/
structure AcceptedClaims (token : String) (keys : JwtKeys) (isRevoked : String → Bool)
    (now clock maxLifetimeSecs : Nat) (claims : Claims) : Prop where
  /-- The header names a configured key, the key is of a kind that allows the algorithm of the header, and `decode`
  accepts the token under that key and algorithm, for the audience `coold`. -/
  signed : ∃ header pem key kind, J.decodeHeader token = some header ∧ keys.resolve header.kid = some pem ∧
    loadKey J pem = some (key, kind) ∧ kind.allows header.alg = true ∧
    decodeClaims J token key (validationFor header.alg) clock = some claims
  withinClamp : maxLifetimeSecs ≠ 0 → claims.exp - now ≤ maxLifetimeSecs
  notRevoked : ∀ jti, claims.jti = some jti → isRevoked jti = false

end VerifyJwt

section VerifyJwt

variable {J : JsonWebToken} {token : String} {keys : JwtKeys} {isRevoked : String → Bool}
  {now clock maxLifetimeSecs : Nat}

private theorem lifetimeWithinClamp_iff {exp : Nat} :
    lifetimeWithinClamp exp now maxLifetimeSecs = true ↔ (maxLifetimeSecs ≠ 0 → exp - now ≤ maxLifetimeSecs) := by
  unfold lifetimeWithinClamp secondsUntilExpiry
  by_cases h : maxLifetimeSecs = 0 <;> simp [h]

private theorem filter_isRevoked_eq_none {jti : Option String} :
    jti.filter isRevoked = none ↔ ∀ j, jti = some j → isRevoked j = false := by
  cases jti <;> simp [Option.filter]

private theorem verifyClaims_eq_ok_iff {claims : Claims} {v : VerifiedJwt} :
    verifyClaims isRevoked now maxLifetimeSecs claims = .ok v ↔
      (maxLifetimeSecs ≠ 0 → claims.exp - now ≤ maxLifetimeSecs) ∧
      (∀ jti, claims.jti = some jti → isRevoked jti = false) ∧
      v = { hostId := claims.sub, caps := claims.caps, exp := claims.exp, teamId := claims.teamId } := by
  rw [← lifetimeWithinClamp_iff, ← filter_isRevoked_eq_none]
  unfold verifyClaims
  cases lifetimeWithinClamp claims.exp now maxLifetimeSecs with
  | false => simp
  | true =>
    cases claims.jti.filter isRevoked with
    | none => simp [eq_comm]
    | some jti => simp

/-- `verify_jwt` accepts a token exactly when some claims of it pass all the gates. -/
theorem verifyJwt_eq_ok_iff {v : VerifiedJwt} :
    verifyJwt J token keys isRevoked now clock maxLifetimeSecs = .ok v ↔
      ∃ claims, AcceptedClaims J token keys isRevoked now clock maxLifetimeSecs claims ∧
        v = { hostId := claims.sub, caps := claims.caps, exp := claims.exp, teamId := claims.teamId } := by
  constructor
  · intro h
    -- pass the gates in the order of the source; each one rejects on its own
    unfold verifyJwt at h
    cases hh : J.decodeHeader token with
    | none => simp [hh] at h
    | some header =>
      cases hp : keys.resolve header.kid with
      | none => simp [hh, hp] at h
      | some pem =>
        cases hk : loadKey J pem with
        | none => simp [hh, hp, hk] at h
        | some k =>
          obtain ⟨key, kind⟩ := k
          cases ha : kind.allows header.alg with
          | false => simp [hh, hp, hk, ha] at h
          | true =>
            cases hc : decodeClaims J token key (validationFor header.alg) clock with
            | none => simp [hh, hp, hk, ha, hc] at h
            | some claims =>
              simp only [hh, hp, hk, ha, hc, Bool.not_true, Bool.false_eq_true, if_false] at h
              obtain ⟨h₁, h₂, hv⟩ := verifyClaims_eq_ok_iff.1 h
              exact ⟨claims, ⟨⟨header, pem, key, kind, hh, hp, hk, ha, hc⟩, h₁, h₂⟩, hv⟩
  · rintro ⟨claims, ⟨⟨header, pem, key, kind, hh, hp, hk, ha, hc⟩, h₁, h₂⟩, hv⟩
    simp only [verifyJwt, hh, hp, hk, ha, hc, Bool.not_true, Bool.false_eq_true, if_false]
    exact verifyClaims_eq_ok_iff.2 ⟨h₁, h₂, hv⟩

end VerifyJwt

/-! ### Tenant and host binding -/

def teamIdSatisfied (teamId : Option String) (required : Bool) : Bool :=
  if !required then true else teamId.any fun team => Str.trim team ≠ ""

/-- Why a token could not be bound to its host. -/
inductive BindingMismatch where
  | transport (peer subIp : IpAddr)
  | hello (reason advertisedMgmtIp tokenSub : String)
  deriving DecidableEq

inductive HostBinding where
  | transport
  | helloFallback (reason : String)
  | unenforced (detail : BindingMismatch)
  deriving DecidableEq

def rejectOrUnenforced (require : Bool) (detail : BindingMismatch) : Except BindingMismatch HostBinding :=
  if require then .error detail else .ok (.unenforced detail)

/-- Compare the token `sub` with the self-asserted address of the Hello message. -/
def bindViaHello (tokenSub advertisedMgmtIp : String) (require : Bool) (reason : String) :
    Except BindingMismatch HostBinding :=
  if tokenSub ≠ "" ∧ advertisedMgmtIp = tokenSub then .ok (.helloFallback reason)
  else rejectOrUnenforced require (.hello reason advertisedMgmtIp tokenSub)

/-- Bind a presented token to the host presenting it. -/
def decideHostBinding (tokenSub advertisedMgmtIp : String) (peerIp : Option IpAddr) (require : Bool) :
    Except BindingMismatch HostBinding :=
  match peerIp with
  | some peer =>
    match IpAddr.parse tokenSub with
    | some subIp =>
      if peer = subIp then .ok .transport else rejectOrUnenforced require (.transport peer subIp)
    -- a `sub` that is no address cannot be compared with the peer
    | none =>
      bindViaHello tokenSub advertisedMgmtIp require
        "token sub is not an IP address; transport binding not applicable"
  | none => bindViaHello tokenSub advertisedMgmtIp require "transport peer address unavailable"

end Coold.Flux
