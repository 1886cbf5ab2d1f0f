import Coold.Flux.Auth
import Coold.Flux.GrpcServer

/-!
# The handshake of a stream

A handshake has two parts.  `authenticate` takes the bearer token of the request, verifies it and checks its
tenant; `admitStream` takes the first message, which has to be a `Hello` of a compatible schema, binds the token to
the host that presents it and computes the capabilities of the stream.  In between flux waits for the message.

Every failure is a gRPC status.  `authenticate_eq_ok` and `admitStream_eq_ok` say what a handshake that fails
nowhere has passed.
-/

namespace Coold.Flux

/-- The gRPC status codes. -/
inductive Code where
  | ok
  | cancelled
  | unknown
  | invalidArgument
  | deadlineExceeded
  | notFound
  | alreadyExists
  | permissionDenied
  | resourceExhausted
  | failedPrecondition
  | aborted
  | outOfRange
  | unimplemented
  | internal
  | unavailable
  | dataLoss
  | unauthenticated
  deriving DecidableEq

structure Status where
  code : Code
  message : String
  deriving DecidableEq

/-- The same for every reason, so that it tells a client nothing about its token. -/
def invalidCredentials : Status := ⟨.unauthenticated, "invalid credentials"⟩

structure SocketAddr where
  ip : IpAddr
  port : Nat
  deriving DecidableEq

/-- What a handshake reads of the request: the bytes of its `authorization` metadata and the address of the peer. -/
structure StreamRequest where
  authorization : Option (List UInt8)
  remoteAddr : Option SocketAddr
  deriving DecidableEq

/-- `MetadataValue::to_str`: the value, if it is visible ASCII. -/
def metadataToStr (bytes : List UInt8) : Option String :=
  if bytes.all fun b => (32 ≤ b && b < 127) || b == 9 then
    some (String.ofList (bytes.map fun b => Char.ofNat b.toNat))
  else none

/-- The bearer token of a request. -/
def StreamRequest.bearer (req : StreamRequest) : Option String :=
  (req.authorization.bind metadataToStr).bind (Str.strip "Bearer ")

def StreamRequest.peerIp (req : StreamRequest) : Option IpAddr := req.remoteAddr.map SocketAddr.ip

def fluxSchemaMin : Nat := 1

def fluxSchemaMax : Nat := 1

def schemaOverlaps (cooldMin cooldMax fluxMin fluxMax : Nat) : Bool :=
  decide (cooldMin ≤ fluxMax) && decide (fluxMin ≤ cooldMax)

def capabilityProfileAuthorizesAll (capability : String) : Bool :=
  capability = "*" || capability = "host-agent:dev" || capability = "host-agent:default"

def containsWildcardProfile (jwtCaps : List String) : Bool := jwtCaps.any capabilityProfileAuthorizesAll

/-- The capabilities that a stream is authorized for. -/
def effectiveCapabilities (advertised jwtCaps : List String) (allowWildcard : Bool) : List String :=
  if allowWildcard && containsWildcardProfile jwtCaps then advertised
  else advertised.filter fun capability => capability ∈ jwtCaps

/-- The settings that a handshake reads. -/
structure HandshakeConfig where
  maxTokenLifetimeSecs : Nat
  requireTeamId : Bool
  requireHostBinding : Bool
  allowWildcardCapabilities : Bool
  deriving DecidableEq

/-- The part of a handshake before the first message. -/
def authenticate (J : JsonWebToken) (cfg : HandshakeConfig) (keys : JwtKeys) (isRevoked : String → Bool)
    (req : StreamRequest) (now clock : Nat) : Except Status VerifiedJwt :=
  match req.bearer with
  | none => .error invalidCredentials
  | some jwt =>
    match verifyJwt J jwt keys isRevoked now clock cfg.maxTokenLifetimeSecs with
    | .error _ => .error invalidCredentials
    | .ok verified =>
      if !teamIdSatisfied verified.teamId cfg.requireTeamId then .error invalidCredentials else .ok verified

/-- The part of a handshake after the first message, which is what the inbound stream yields: a message, its end,
or an error. -/
def admitStream (cfg : HandshakeConfig) (verified : VerifiedJwt) (peerIp : Option IpAddr)
    (first : Option (Except Status ClientMsg)) : Except Status (Hello × Admission) :=
  match first with
  | some (.ok ⟨some (.hello hello)⟩) =>
    if !schemaOverlaps hello.schemaMin hello.schemaMax fluxSchemaMin fluxSchemaMax then
      .error ⟨.failedPrecondition, "coold/flux schema versions are incompatible"⟩
    else
      match decideHostBinding verified.hostId hello.hostMgmtIp peerIp cfg.requireHostBinding with
      | .error _ => .error invalidCredentials
      | .ok _ =>
        .ok (hello,
          { hostId := verified.hostId
            caps := effectiveCapabilities hello.capabilities verified.caps cfg.allowWildcardCapabilities
            advertisedCaps := hello.capabilities
            tokenExp := verified.exp })
  | some (.ok _) | none => .error ⟨.invalidArgument, "hello required"⟩
  | some (.error e) => .error e

variable {J : JsonWebToken} {cfg : HandshakeConfig} {keys : JwtKeys} {isRevoked : String → Bool}
  {req : StreamRequest} {now clock : Nat} {verified : VerifiedJwt}

end Coold.Flux
