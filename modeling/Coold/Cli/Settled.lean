import Coold.Cli.Documents
import Coold.Cli.Restart

/-!
# What a host has after its commands

Every action leaves something on its host (`Settled`): a package, a service, a file with the hash that the planner
expects.  A command leaves what belongs to its action (`settled_effect`) and keeps what belongs to the others
(`settled_effect_of_ne`).  A bootstrap plans an action where its test says so, and where it does not the host has it
already; so after the commands a host has what belongs to all actions (`settled_after`).  The networks of the namespaces
are the planned ones then (`hasNetwork_after`).
-/

namespace Coold.Cli

open Shell

/-- The binary of a release is there, with the version that is wanted or what is read back of it. -/
def HasVersion (m : Machine) (name version : String) : Prop :=
  m.hasFile (binPath name) = true ∧ (readField (m.text (versionPath name)) = version ∨
    readField (m.text (versionPath name)) = readField (version ++ "\n"))

/-- What an action leaves on a host, apart from the configuration of WireGuard and the networks. -/
def Settled (sha256Hex : List UInt8 → String) (d : DesiredMesh) (mgmt : Dict String Ipv4Addr) (subnets : Subnets)
    (host : String) (m : Machine) : ActionType → Prop
  | .installWg => m.wgInstalled = true
  | .genKeyPair => m.hasKeypair = true
  | .enableService => m.wgActive = true
  | .installPodman => m.podmanInstalled = true
  | .enablePodmanSocket => m.podmanSocketActive = true
  | .enableIpForward => m.ipForwardEnabled = true
  | .installFirewall =>
    m.isActive Firewall.firewallServiceName = true ∧ m.defaultDenyActive = d.defaultDenyContainers ∧
      m.hash sha256Hex Firewall.firewallUnitPath = sha256Hex (Document.firewallUnit.expected d mgmt subnets host)
  | .installCorrosion => HasVersion m "corrosion" d.corrosionVersion
  | .installCoold => HasVersion m "coold" d.cooldVersion
  | .writeCorrosionConfig =>
    m.hash sha256Hex Corrosion.configPath = sha256Hex (Document.corrosionConfig.expected d mgmt subnets host)
  | .writeCorrosionSchema =>
    m.hasText Corrosion.schemaPath = true ∧ m.hash sha256Hex Corrosion.schemaPath = schemaHash sha256Hex
  | .installCorrosionService => m.isActive "corrosion" = true
  | .installCooldService =>
    m.isActive "coold" = true ∧
      m.hash sha256Hex CooldService.unitPath = sha256Hex (Document.cooldUnit.expected d mgmt subnets host)
  | .allocateMgmtIp | .allocateContainerSubnet | .writeConfig | .reloadService | .addPeer | .removePeer
  | .createPodmanNetwork | .recreatePodmanNetwork => True

/-- The mesh asks for the action on the host. -/
def ActionType.concerns (d : DesiredMesh) (host : String) : ActionType → Bool
  | .installPodman | .enablePodmanSocket | .enableIpForward | .createPodmanNetwork | .recreatePodmanNetwork
  | .installFirewall => d.isNode host && d.installPodman
  | .installCorrosion | .installCoold | .writeCorrosionConfig | .writeCorrosionSchema | .installCorrosionService
  | .installCooldService => d.isNode host && d.installCoold
  | .installWg | .genKeyPair | .allocateMgmtIp | .allocateContainerSubnet | .writeConfig | .enableService
  | .reloadService | .addPeer | .removePeer => true

/-! ### What the commands keep -/

section Keeps

variable {keys : String × String} {m m' : Machine} {c : Cmd} {u : String}

/-- A service that runs is not stopped. -/
private theorem isSome_started_run {h : Shell.Host} (s : Script) (hu : (h.started u).isSome = true) :
    ((run asGiven h s).started u).isSome = true := by
  unfold run
  generalize s.flatten = l
  induction l generalizing h with
  | nil => exact hu
  | cons k l ih =>
    refine ih ?_
    cases k with
    | enableNow units =>
      simp only [Shell.exec, effect, startMissing]
      split
      · rfl
      · exact hu
    | restart unit =>
      by_cases hunit : u = unit
      · subst hunit
        simp [Shell.exec, effect]
      · simpa [Shell.exec, effect, hunit] using hu
    | _ => exact hu

private theorem isActive_effect (hu : m.isActive u = true) : (m.effect keys c).isActive u = true := by
  have hscript : ((run asGiven m.host c.script).started u).isSome = true := isSome_started_run _ hu
  cases c
  case createNetwork =>
    unfold Machine.effect
    dsimp only
    split <;> exact hu
  case installFirewall | writeCorrosionConfig | writeCorrosionSchema | installCorrosionService | installCooldService =>
    exact hscript
  all_goals exact hu

/-- The units of a command run after it. -/
private theorem isActive_effect_of_mem (hu : u ∈ c.actionType.units) : (m.effect keys c).isActive u = true := by
  have hunits : c.actionType.units ≠ [] := List.ne_nil_of_mem hu
  rw [Machine.isActive, host_effect_of_units hunits]
  have hlast : ∀ {k : Command} {front : List Command}, c.script.flatten = front ++ [k] →
      run asGiven m.host c.script = Shell.exec asGiven (run asGiven m.host [front]) k := by
    intro k front hscript
    simp [run, hscript]
  rcases script_of_units hunits with ⟨-, front, hscript, -⟩ | ⟨hfw, front, hscript, -⟩
  · rw [hlast hscript]
    simp only [Shell.exec, effect, startMissing]
    split
    · rfl
    next hrun =>
      rw [not_and] at hrun
      exact Option.isSome_iff_ne_none.2 (hrun hu)
  · have hunit : u = Firewall.firewallServiceName := by
      rw [hfw] at hu
      exact List.mem_singleton.1 hu
    rw [hlast hscript, hunit]
    simp [Shell.exec, effect]

variable (keys m c) in
/-- Nothing is uninstalled or switched off. -/
theorem flags_effect :
    (m.wgInstalled = true → (m.effect keys c).wgInstalled = true) ∧
      (m.wgActive = true → (m.effect keys c).wgActive = true) ∧
      (m.podmanInstalled = true → (m.effect keys c).podmanInstalled = true) ∧
      (m.podmanSocketActive = true → (m.effect keys c).podmanSocketActive = true) ∧
      (m.ipForwardEnabled = true → (m.effect keys c).ipForwardEnabled = true) ∧
      (m.nftAvailable = true → (m.effect keys c).nftAvailable = true) := by
  cases c
  case createNetwork =>
    unfold Machine.effect
    dsimp only
    split <;> exact ⟨id, id, id, id, id, id⟩
  all_goals simp +contextual [Machine.effect, Machine.installBinary, Machine.write, Machine.tick]

private theorem defaultDeny_effect (hc : c.actionType ≠ .installFirewall) :
    (m.effect keys c).defaultDenyActive = m.defaultDenyActive := by
  cases c
  case installFirewall => exact absurd rfl hc
  case createNetwork =>
    unfold Machine.effect
    dsimp only
    split <;> rfl
  all_goals rfl

/-- The files the planner looks at, with the action that writes each. -/
def owners : List (String × ActionType) :=
  [(privateKeyPath, .genKeyPair), (publicKeyPath, .genKeyPair), (Firewall.firewallUnitPath, .installFirewall),
    (binPath "corrosion", .installCorrosion), (versionPath "corrosion", .installCorrosion),
    (binPath "coold", .installCoold), (versionPath "coold", .installCoold),
    (Corrosion.configPath, .writeCorrosionConfig), (Corrosion.schemaPath, .writeCorrosionSchema),
    (CooldService.unitPath, .installCooldService)]

private theorem owner_of_mem_files {t : ActionType} {e : String × ActionType} (he : e ∈ owners) (hp : e.1 ∈ t.files) :
    t = e.2 := by
  have h : ∀ e ∈ owners, e.1 ∈ t.files → t = e.2 := by
    cases t <;> decide
  exact h e he hp

/-- A file stays where another action than its own is carried out. -/
private theorem files_effect_of_ne {p : String} {t : ActionType} (he : (p, t) ∈ owners) (hne : c.actionType ≠ t) :
    (m.effect keys c).host.files p = m.host.files p :=
  files_effect_of_notMem fun hp => hne (owner_of_mem_files he hp)

/-- What is read of a file depends on the file alone. -/
theorem read_congr {p : String} (h : m'.host.files p = m.host.files p) :
    m'.text p = m.text p ∧ m'.hasText p = m.hasText p ∧ m'.hasFile p = m.hasFile p ∧
      ∀ sha256Hex, m'.hash sha256Hex p = m.hash sha256Hex p := by
  simp only [Machine.text, Machine.hasText, Machine.hasFile, Machine.hash, h, implies_true, and_self]

private theorem hasVersion_effect {name version : String} {t : ActionType} (hbin : (binPath name, t) ∈ owners)
    (hversion : (versionPath name, t) ∈ owners) (hne : c.actionType ≠ t) (h : HasVersion m name version) :
    HasVersion (m.effect keys c) name version := by
  have hfiles : ∀ p, (p, t) ∈ owners → (m.effect keys c).host.files p = m.host.files p :=
    fun _ he => files_effect_of_ne he hne
  obtain ⟨-, -, hfile, -⟩ := read_congr (hfiles _ hbin)
  obtain ⟨htext, -⟩ := read_congr (hfiles _ hversion)
  rw [HasVersion, hfile, htext]
  exact h

end Keeps

/-! ### What the commands leave -/

section Leaves

variable {sha256Hex : List UInt8 → String} {d : DesiredMesh} {planned : Plan} {current fresh : MeshState}
  {mgmt : Dict String Ipv4Addr} {subnets : Subnets} {host : String} {keys : String × String} {m : Machine} {c : Cmd}
  {t : ActionType} {h : Shell.Host}

/-- A command keeps what belongs to the other actions. -/
theorem settled_effect_of_ne (hne : c.actionType ≠ t) (h : Settled sha256Hex d mgmt subnets host m t) :
    Settled sha256Hex d mgmt subnets host (m.effect keys c) t := by
  obtain ⟨hwg, hactive, hpodman, hsocket, hforward, -⟩ := flags_effect keys m c
  have hfiles : ∀ p, (p, t) ∈ owners → (m.effect keys c).host.files p = m.host.files p :=
    fun _ he => files_effect_of_ne he hne
  cases t with
  | installWg => exact hwg h
  | enableService => exact hactive h
  | installPodman => exact hpodman h
  | enablePodmanSocket => exact hsocket h
  | enableIpForward => exact hforward h
  | genKeyPair =>
    obtain ⟨-, hpub, -⟩ := read_congr (hfiles publicKeyPath (by decide))
    obtain ⟨-, hpriv, -⟩ := read_congr (hfiles privateKeyPath (by decide))
    simp only [Settled, Machine.hasKeypair, hpub, hpriv] at h ⊢
    exact h
  | installFirewall =>
    obtain ⟨-, -, -, hhash⟩ := read_congr (hfiles Firewall.firewallUnitPath (by decide))
    refine ⟨isActive_effect h.1, ?_, ?_⟩
    · rw [defaultDeny_effect hne]
      exact h.2.1
    · rw [hhash]
      exact h.2.2
  | installCorrosion => exact hasVersion_effect (by decide) (by decide) hne h
  | installCoold => exact hasVersion_effect (by decide) (by decide) hne h
  | writeCorrosionConfig =>
    obtain ⟨-, -, -, hhash⟩ := read_congr (hfiles Corrosion.configPath (by decide))
    rw [Settled, hhash]
    exact h
  | writeCorrosionSchema =>
    obtain ⟨-, htext, -, hhash⟩ := read_congr (hfiles Corrosion.schemaPath (by decide))
    rw [Settled, htext, hhash]
    exact h
  | installCorrosionService => exact isActive_effect h
  | installCooldService =>
    obtain ⟨-, -, -, hhash⟩ := read_congr (hfiles CooldService.unitPath (by decide))
    refine ⟨isActive_effect h.1, ?_⟩
    rw [hhash]
    exact h.2
  | _ => trivial

/-- A document is in its place after its command. -/
private theorem hash_document (hall : ∀ p ∈ d.nodes, (mgmt.lookup p).isSome) (doc : Document)
    (hm : m.host = run asGiven h (doc.cmd d mgmt subnets host).script) :
    m.hash sha256Hex doc.path = sha256Hex (doc.expected d mgmt subnets host) := by
  obtain ⟨f, hf, hbytes⟩ := Document.files_run hall h doc
  rw [Machine.hash, hm, hf, ← hbytes]
  rfl

private theorem hasVersion_installBinary (m : Machine) (name version : String) :
    HasVersion (m.installBinary name version) name version := by
  obtain ⟨hbin, hversion⟩ := files_installBinary m name version
  refine ⟨by rw [Machine.hasFile, hbin]; rfl, .inr ?_⟩
  rw [Machine.text, hversion]
  rfl

private theorem coolifySchemaSql_ne : Corrosion.coolifySchemaSql ≠ "" := by
  rw [Corrosion.coolifySchemaSql, Ne, ← String.toList_eq_nil_iff, toList_unlines]
  simp [Corrosion.coolifySchemaLines]

private theorem schema_effect :
    Settled sha256Hex d mgmt subnets host (m.effect keys .writeCorrosionSchema) .writeCorrosionSchema := by
  obtain ⟨f, hf, htext⟩ :
      ∃ f, (run asGiven m.host Cmd.writeCorrosionSchema.script).files Corrosion.schemaPath = some f ∧
        f.content = Corrosion.coolifySchemaSql := by
    unfold Cmd.script
    simp only [run_andThen]
    exact ⟨_, files_heredoc _ _ _ _ _, rfl⟩
  have hfile : (m.effect keys .writeCorrosionSchema).host.files Corrosion.schemaPath = some f := hf
  constructor
  · rw [Machine.hasText, Machine.text, hfile, Option.map_some, Option.getD_some, htext]
    simpa using coolifySchemaSql_ne
  · rw [Machine.hash, hfile, Option.map_some, Option.getD_some, htext]
    rfl

private theorem keypair_effect (hpriv : keys.1 ≠ "") (hpub : keys.2 ≠ "") :
    (m.effect keys .genkey).hasKeypair = true := by
  have hne : publicKeyPath ≠ privateKeyPath := by decide
  simp [Machine.hasKeypair, Machine.hasText, Machine.text, Machine.effect, Machine.tick, Machine.write, hne.symm, hpriv,
    hpub]

/-- A command leaves what belongs to its action. -/
theorem settled_effect (hall : ∀ p ∈ d.nodes, (mgmt.lookup p).isSome) (hpriv : keys.1 ≠ "") (hpub : keys.2 ≠ "")
    (hc : c ∈ hostCmds d planned current fresh mgmt subnets host) (m : Machine) :
    Settled sha256Hex d mgmt subnets host (m.effect keys c) c.actionType := by
  obtain ⟨s, hs, rfl⟩ := List.mem_map.1 hc
  simp only [List.mem_append, List.mem_ite_nil_right] at hs
  rcases hs with (hs | hs) | ⟨-, hs⟩
  · simp only [phase1, List.mem_append, mem_stepIf, List.mem_ite_nil_right] at hs
    rcases hs with (⟨-, rfl⟩ | ⟨-, rfl⟩) | ⟨-, (⟨-, rfl⟩ | ⟨-, rfl⟩) | ⟨-, rfl⟩⟩
    case inl.inr => exact keypair_effect hpriv hpub
    all_goals rfl
  · unfold phase2 at hs
    simp only [List.mem_append, mem_stepIf, List.mem_ite_nil_right, List.mem_flatMap] at hs
    rcases hs with (⟨-, rfl⟩ | ⟨-, rfl⟩) | ⟨-, ⟨ns, -, hs⟩ | ⟨-, rfl⟩⟩
    · trivial
    · dsimp only
      split
      · trivial
      · rfl
    · unfold networkSteps at hs
      dsimp only at hs
      split at hs
      · rw [List.mem_singleton] at hs
        subst hs
        trivial
      · obtain ⟨-, rfl⟩ := mem_stepIf.1 hs
        trivial
    · exact ⟨isActive_effect_of_mem (List.mem_singleton_self _), rfl, hash_document hall .firewallUnit rfl⟩
  · simp only [phase3, List.mem_append, mem_stepIf] at hs
    rcases hs with ((((⟨-, rfl⟩ | ⟨-, rfl⟩) | ⟨-, rfl⟩) | ⟨-, rfl⟩) | ⟨-, rfl⟩) | ⟨-, rfl⟩
    · exact hasVersion_installBinary _ _ _
    · exact hasVersion_installBinary _ _ _
    · exact hash_document hall .corrosionConfig rfl
    · exact schema_effect
    · exact isActive_effect_of_mem (List.mem_singleton_self _)
    · exact ⟨isActive_effect_of_mem (by simp [Cmd.actionType, ActionType.units]), hash_document hall .cooldUnit rfl⟩

end Leaves

/-! ### What the tests look at -/

section Tests

variable {sha256Hex : List UInt8 → String} {d : DesiredMesh} {w : World} {planned : Plan} {current fresh : MeshState}
  {mgmt mgmt' : Dict String Ipv4Addr} {subnets subnets' : Subnets} {host : String} {t : ActionType}

/-- A version is read back as it is written. -/
def Installable (version : String) : Prop := version ≠ "" ∧ readField (version ++ "\n") = version

private theorem readField_line {s : String} (h : '\n' ∉ s.toList) : readField (s ++ "\n") = Str.trim s := by
  have hjoin : s ++ "\n" = Str.join '\n' [s, ""] := by
    rw [Str.join_cons_cons, Str.join_singleton, String.append_empty]
    rfl
  rw [hjoin, readField, Str.split_join '\n' (by simp) (by simpa using h), List.headD_cons]

private theorem readField_readField (s : String) : readField (readField s ++ "\n") = readField s := by
  have hline : '\n' ∉ (readField s).toList := by
    intro h
    cases hsplit : Str.split '\n' s with
    | nil =>
      rw [readField, hsplit] at h
      simp [Str.trim, Str.trimEndWhile] at h
    | cons l ls =>
      rw [readField, hsplit] at h
      exact (Str.mem_of_mem_split (by rw [hsplit]; exact List.mem_cons_self)).1 (Str.trim_chars h)
  rw [readField_line hline]
  exact Str.trim_trim _

/-- The versions that the command line accepts are read back as they are written. -/
theorem installable_of_validateVersion {label version : String} (h : validateVersion label version = .ok ()) :
    Installable version := by
  have hword := isWord_of_validateVersion h
  obtain ⟨hne, hchars⟩ := chars_of_isWord hword
  refine ⟨hne, ?_⟩
  rw [readField_line (newline_notMem_of_isWord hword), Str.trim_eq_self_iff]
  refine Str.trimmed_of_visible fun c hc => Str.isWhitespace_of_printable ?_
  have halphanum : c.isAlphanum = (c.isUpper || c.isLower || c.isDigit) := rfl
  have hupper : c.isUpper = decide ('A'.val ≤ c.val ∧ c.val ≤ 'Z'.val) := rfl
  have hlower : c.isLower = (decide ('a'.val ≤ c.val) && decide (c.val ≤ 'z'.val)) := rfl
  have hdigit : c.isDigit = (decide ('0'.val ≤ c.val) && decide (c.val ≤ '9'.val)) := rfl
  have hchar := hchars c hc
  simp only [halphanum, hupper, hlower, hdigit, Bool.or_eq_true, Bool.and_eq_true, decide_eq_true_eq,
    beq_iff_eq] at hchar
  rcases hchar with ((((hchar | hchar) | hchar) | rfl) | rfl) | rfl
  · exact ⟨Nat.le_trans (by decide) hchar.1, Nat.le_trans hchar.2 (by decide)⟩
  · exact ⟨Nat.le_trans (by decide) hchar.1, Nat.le_trans hchar.2 (by decide)⟩
  · exact ⟨Nat.le_trans (by decide) hchar.1, Nat.le_trans hchar.2 (by decide)⟩
  · decide
  · decide
  · decide

/-- A binary whose version does not move is installed again if and only if its version is not read back as written. -/
theorem drift_of_hasVersion {m : Machine} {name version : String} (h : HasVersion m name version)
    (hmoves : version ≠ "nightly" ∧ version ≠ "latest") :
    binaryVersionDrift version (m.hasFile (binPath name)) (readField (m.text (versionPath name))) = false ↔
      Installable version := by
  obtain ⟨hfile, htext⟩ := h
  unfold binaryVersionDrift Installable
  rw [hfile]
  simp only [Bool.not_true, Bool.false_or, Bool.or_eq_false_iff, beq_eq_false_iff_ne, bne_eq_false_iff_eq,
    String.isEmpty_eq_false_iff, ne_eq]
  constructor
  · rintro ⟨⟨hne, -⟩, heq⟩
    refine ⟨heq ▸ hne, ?_⟩
    rcases htext with htext | htext
    · rw [← htext, readField_readField]
    · rw [← htext, heq]
  · rintro ⟨hne, hread⟩
    have heq : readField (m.text (versionPath name)) = version := htext.elim id fun htext => htext.trans hread
    rw [heq]
    exact ⟨⟨hne, hmoves⟩, rfl⟩

/-- Where the test of an action finds nothing, the host has what belongs to the action. -/
private theorem settled_of_test (hhost : host ∈ d.hosts) (hc : t.concerns d host = true)
    (h : hostTest sha256Hex d (probeMesh sha256Hex d w) mgmt subnets host t = false) :
    Settled sha256Hex d mgmt subnets host (w host) t := by
  have hserver := server_probeMesh sha256Hex w hhost
  have hversion : ∀ name version, binaryVersionDrift version ((w host).hasFile (binPath name))
      (readField ((w host).text (versionPath name))) = false → HasVersion (w host) name version := by
    intro name version hdrift
    simp only [binaryVersionDrift, Bool.or_eq_false_iff, Bool.not_eq_false', bne_eq_false_iff_eq] at hdrift
    exact ⟨hdrift.1.1.1, .inl hdrift.2⟩
  cases t with
  | installWg | genKeyPair | enableService => simpa [Settled, hostTest, hserver, probe] using h
  | installPodman | enablePodmanSocket | enableIpForward =>
    simp only [ActionType.concerns] at hc
    simpa [Settled, hostTest, hostTest.podman, hc, hserver, probe] using h
  | installFirewall =>
    simp only [ActionType.concerns] at hc
    simpa [Settled, Document.expected, hostTest, hostTest.podman, hc, firewallDrift, hserver, probe, and_assoc] using h
  | installCorrosion | installCoold =>
    simp only [ActionType.concerns] at hc
    simp only [hostTest, hostTest.agents, hc, Bool.true_and, corrosionDrift, cooldDrift, hserver] at h
    exact hversion _ _ h
  | writeCorrosionConfig =>
    simp only [ActionType.concerns] at hc
    simpa [Settled, Document.expected, hostTest, hostTest.agents, hc, cfgDrift, hserver, probe] using h
  | writeCorrosionSchema =>
    simp only [ActionType.concerns] at hc
    simpa [Settled, hostTest, hostTest.agents, hc, schemaDrift, hserver, probe] using h
  | installCorrosionService =>
    simp only [ActionType.concerns] at hc
    simp only [hostTest, hostTest.agents, hc, Bool.true_and, hserver, probe, Bool.or_eq_false_iff,
      Bool.not_eq_false'] at h
    exact h.1.1.1
  | installCooldService =>
    simp only [ActionType.concerns] at hc
    simp only [hostTest, hostTest.agents, hc, Bool.true_and, cooldUnitDrift, hserver, probe, Bool.or_eq_false_iff,
      Bool.not_eq_false', decide_eq_false_iff_not, not_not] at h
    exact ⟨h.1.1.1, h.2⟩
  | _ => trivial

/-- The tests that only look at what belongs to the actions. -/
def ActionType.plain : ActionType → Bool
  | .writeConfig | .reloadService | .addPeer | .removePeer | .createPodmanNetwork | .recreatePodmanNetwork => false
  | _ => true

private theorem test_of_not_concerns (hc : t.concerns d host = false) :
    hostTest sha256Hex d current mgmt subnets host t = false := by
  cases t <;> simp_all [ActionType.concerns, hostTest, hostTest.podman, hostTest.agents]

/-- A host with everything that belongs to the actions passes all tests that only look at this. -/
theorem test_of_settled (hhost : host ∈ d.hosts) (hplain : t.plain = true)
    (h : ∀ t : ActionType, t.concerns d host = true → Settled sha256Hex d mgmt subnets host (w host) t)
    (hversions : (d.isNode host && d.installCoold) = true →
      corrosionDrift d (probeMesh sha256Hex d w) host = false ∧ cooldDrift d (probeMesh sha256Hex d w) host = false) :
    hostTest sha256Hex d (probeMesh sha256Hex d w) mgmt subnets host t = false := by
  cases hc : t.concerns d host with
  | false => exact test_of_not_concerns hc
  | true =>
    have hserver := server_probeMesh sha256Hex w hhost
    have hagent : (d.isNode host && d.installCoold) = true →
        cfgDrift sha256Hex d (probeMesh sha256Hex d w) mgmt host = false ∧
          schemaDrift sha256Hex (probeMesh sha256Hex d w) host = false := by
      intro hc
      have hconfig := h .writeCorrosionConfig hc
      have hschema := h .writeCorrosionSchema hc
      simp only [Settled, Document.expected] at hconfig hschema
      simp [cfgDrift, schemaDrift, hserver, probe, hconfig, hschema]
    have hs := h t hc
    cases t with
    | allocateMgmtIp | allocateContainerSubnet => rfl
    | installWg | genKeyPair | enableService =>
      simp only [Settled] at hs
      simp [hostTest, hserver, probe, hs]
    | installPodman | enablePodmanSocket | enableIpForward =>
      simp only [Settled] at hs
      simp [hostTest, hserver, probe, hs]
    | installFirewall =>
      simp only [Settled, Document.expected] at hs
      simp [hostTest, firewallDrift, hserver, probe, hs]
    | installCorrosion => simp [hostTest, hversions hc]
    | installCoold => simp [hostTest, hversions hc]
    | writeCorrosionConfig => simp [hostTest, hagent hc]
    | writeCorrosionSchema =>
      simp only [Settled] at hs
      simp [hostTest, hagent hc, hserver, probe, hs]
    | installCorrosionService =>
      simp only [Settled] at hs
      simp [hostTest, hagent hc, hversions hc, hserver, probe, hs]
    | installCooldService =>
      simp only [Settled, Document.expected] at hs
      simp [hostTest, hagent hc, hversions hc, cooldUnitDrift, hserver, probe, hs]
    | _ => cases hplain

/-- What a bootstrap finds is carried out. -/
theorem exists_cmd_of_test (hplan : IsPlan sha256Hex d current planned) (hboot : d.intent = .bootstrap)
    (hhost : host ∈ d.hosts)
    (hactive : ((fresh.servers.lookup host).map ServerState.active).getD false = (current.server host).active)
    (ht : t = .writeConfig ∨ t.plain = true)
    (htest : hostTest sha256Hex d current planned.mgmtAssignments planned.subnetAssignments host t = true) :
    ∃ c ∈ hostCmds d planned current fresh mgmt subnets host, c.actionType = t := by
  have hrun := hplan.shouldRun_eq (t := t) hboot hhost
  rw [htest] at hrun
  have hmem : ∀ s : Step, s ∈ phase1 d planned host current ∨ s ∈ phase2 d planned host mgmt subnets fresh →
      s.cmd.actionType = t → ∃ c ∈ hostCmds d planned current fresh mgmt subnets host, c.actionType = t := by
    intro s hs hcmd
    exact ⟨s.cmd, List.mem_map_of_mem (List.mem_append_left _ (List.mem_append.2 hs)), hcmd⟩
  cases t with
  | installWg =>
    simp only [hostTest] at htest
    exact hmem ⟨.installWg, "", .aptWg⟩ (.inl (by simp [phase1, mem_stepIf, hrun, htest])) rfl
  | genKeyPair =>
    simp only [hostTest] at htest
    exact hmem ⟨.genKeyPair, "", .genkey⟩ (.inl (by simp [phase1, mem_stepIf, hrun, htest])) rfl
  | installPodman =>
    simp only [hostTest, hostTest.podman, Bool.and_eq_true] at htest
    exact hmem ⟨.installPodman, "", .aptPodman⟩ (.inl (by simp [phase1, mem_stepIf, hrun, htest])) rfl
  | enablePodmanSocket =>
    simp only [hostTest, hostTest.podman, Bool.and_eq_true] at htest
    exact hmem ⟨.enablePodmanSocket, "", .enablePodman⟩ (.inl (by simp [phase1, mem_stepIf, hrun, htest])) rfl
  | enableIpForward =>
    simp only [hostTest, hostTest.podman, Bool.and_eq_true] at htest
    exact hmem ⟨.enableIpForward, "", .enableIpForward⟩ (.inl (by simp [phase1, mem_stepIf, hrun, htest])) rfl
  | writeConfig =>
    refine hmem ⟨.writeConfig, "", .writeConfig d.interface (mgmtOf mgmt host) (d.listenPortFor host)
      (wgPeers d host mgmt subnets fresh)⟩ (.inr ?_) rfl
    simp [phase2, mem_stepIf, hrun]
  | enableService =>
    simp only [hostTest, Bool.not_eq_true'] at htest
    rw [htest] at hactive
    refine hmem ⟨.enableService, "", .enableWg d.interface⟩ (.inr ?_) rfl
    simp [phase2, mem_stepIf, hactive, hrun]
  | installFirewall =>
    simp only [hostTest, hostTest.podman, Bool.and_eq_true] at htest
    refine hmem ⟨.installFirewall, "", .installFirewall d.interface d.sortedNamespaces (hostSubnets d subnets host)
      d.defaultDenyContainers⟩ (.inr ?_) rfl
    simp [phase2, mem_stepIf, hrun, htest]
  | installCorrosion | installCoold | writeCorrosionConfig | writeCorrosionSchema | installCorrosionService
    | installCooldService => exact exists_hostCmds hplan rfl hrun
  | allocateMgmtIp | allocateContainerSubnet => cases htest
  | _ => simp [ActionType.plain] at ht

/-- After its commands a host has what belongs to all actions that concern it. -/
theorem settled_after (hplan : IsPlan sha256Hex d (probeMesh sha256Hex d w) planned) (hboot : d.intent = .bootstrap)
    (hhost : host ∈ d.hosts)
    (hactive : ((fresh.servers.lookup host).map ServerState.active).getD false =
      ((probeMesh sha256Hex d w).server host).active)
    {keys : String × String} (hpriv : keys.1 ≠ "") (hpub : keys.2 ≠ "") (hc : t.concerns d host = true) :
    Settled sha256Hex d planned.mgmtAssignments planned.subnetAssignments host
      ((w host).exec keys (hostCmds d planned (probeMesh sha256Hex d w) fresh planned.mgmtAssignments
        planned.subnetAssignments host)) t := by
  have hall : ∀ p ∈ d.nodes, (planned.mgmtAssignments.lookup p).isSome := by
    obtain ⟨_, hmgmt⟩ := hplan.mgmt
    exact fun p hp => (isSome_lookup_mgmt hmgmt p).2 (d.nodes_subset p hp)
  refine exec_holds (I := fun _ => True)
    (P := fun m => Settled sha256Hex d planned.mgmtAssignments planned.subnetAssignments host m t)
    (fun _ _ _ _ => trivial) (fun c hc' m _ hm => ?_) trivial ?_
  · by_cases hne : c.actionType = t
    · rw [← hne]
      exact settled_effect hall hpriv hpub hc' m
    · exact settled_effect_of_ne hne hm
  · by_cases ht : t.plain = true
    · cases htest : hostTest sha256Hex d (probeMesh sha256Hex d w) planned.mgmtAssignments planned.subnetAssignments
          host t with
      | false => exact .inl (settled_of_test hhost hc htest)
      | true =>
        obtain ⟨c, hc', rfl⟩ : ∃ c ∈ hostCmds d planned (probeMesh sha256Hex d w) fresh planned.mgmtAssignments
            planned.subnetAssignments host, c.actionType = t :=
          exists_cmd_of_test hplan hboot hhost hactive (.inr ht) htest
        exact .inr ⟨c, hc', fun m _ => settled_effect hall hpriv hpub hc' m⟩
    · refine .inl ?_
      cases t <;> trivial

end Tests

/-! ### The networks -/

/-- The network that a namespace should have on a host. -/
def wantedNetwork (subnets : Subnets) (ns host : String) : Network := ⟨some (subnetOf subnets ns host), false, ns⟩

def HasNetwork (subnets : Subnets) (ns host : String) (m : Machine) : Prop :=
  m.networks.lookup (podmanNetworkFor ns) = some (wantedNetwork subnets ns host)

private theorem podmanNetworkFor_inj {ns ns' : String} (h : podmanNetworkFor ns = podmanNetworkFor ns') : ns = ns' := by
  have hlist := congrArg String.toList h
  simp only [podmanNetworkFor, String.toList_append, List.append_cancel_left_eq, List.append_cancel_right_eq] at hlist
  exact String.toList_inj.1 hlist

section Networks

variable {sha256Hex : List UInt8 → String} {d : DesiredMesh} {w : World} {planned : Plan} {current fresh : MeshState}
  {mgmt : Dict String Ipv4Addr} {subnets : Subnets} {host ns : String} {keys : String × String} {c : Cmd}

/-- The networks of a host are made under their names with their subnets. -/
theorem network_of_mem_hostCmds (hc : c ∈ hostCmds d planned current fresh mgmt subnets host) :
    (d.installPodman = true ∧ ∃ ns,
      c = .createNetwork (podmanNetworkFor ns) ns (subnetOf subnets ns host) (machineIp (subnetOf subnets ns host)) ∨
      c = .recreateNetwork (podmanNetworkFor ns) ns (subnetOf subnets ns host) (machineIp (subnetOf subnets ns host))) ∨
      ∀ keys (m : Machine), (m.effect keys c).networks = m.networks := by
  obtain ⟨s, hs, rfl⟩ := List.mem_map.1 hc
  simp only [List.mem_append, List.mem_ite_nil_right] at hs
  rcases hs with (hs | hs) | ⟨-, hs⟩
  · refine .inr fun keys m => networks_effect keys m ?_
    rw [phase_of_mem_phase1 hs]
    decide
  · unfold phase2 at hs
    simp only [List.mem_append, mem_stepIf, List.mem_ite_nil_right, List.mem_flatMap] at hs
    rcases hs with (⟨-, rfl⟩ | ⟨-, rfl⟩) | ⟨hpodman, ⟨ns, -, hs⟩ | ⟨-, rfl⟩⟩
    · exact .inr fun _ _ => rfl
    · refine .inr fun _ _ => ?_
      dsimp only
      split <;> rfl
    · refine .inl ⟨(Bool.and_eq_true_iff.1 hpodman).2, ns, ?_⟩
      unfold networkSteps at hs
      dsimp only at hs
      split at hs
      · rw [List.mem_singleton] at hs
        subst hs
        exact .inr rfl
      · obtain ⟨-, rfl⟩ := mem_stepIf.1 hs
        exact .inl rfl
    · exact .inr fun _ _ => rfl
  · refine .inr fun keys m => networks_effect keys m ?_
    rw [phase_of_mem_phase3 hs]
    decide

/-- A command keeps a network or makes it as it should be. -/
private theorem lookup_networks_effect (hc : c ∈ hostCmds d planned current fresh mgmt subnets host) (m : Machine) :
    (m.effect keys c).networks.lookup (podmanNetworkFor ns) = m.networks.lookup (podmanNetworkFor ns) ∨
      HasNetwork subnets ns host (m.effect keys c) := by
  have hinsert : ∀ ns', ((m.networks.insert (podmanNetworkFor ns') (wantedNetwork subnets ns' host)).lookup
        (podmanNetworkFor ns) = m.networks.lookup (podmanNetworkFor ns)) ∨
      (m.networks.insert (podmanNetworkFor ns') (wantedNetwork subnets ns' host)).lookup (podmanNetworkFor ns) =
        some (wantedNetwork subnets ns host) := by
    intro ns'
    rw [Dict.lookup_insert_ite]
    split
    next h =>
      obtain rfl := podmanNetworkFor_inj h
      exact .inr rfl
    next => exact .inl rfl
  rcases network_of_mem_hostCmds hc with ⟨-, ns', rfl | rfl⟩ | h
  · unfold HasNetwork Machine.effect
    dsimp only
    split
    · exact .inl rfl
    · exact hinsert ns'
  · exact hinsert ns'
  · exact .inl (by rw [h])

/-- What a bootstrap finds about a network is carried out. -/
private theorem exists_networkCmd (hplan : IsPlan sha256Hex d (probeMesh sha256Hex d w) planned)
    (hboot : d.intent = .bootstrap)
    (hhost : host ∈ d.hosts) (hpodman : (d.isNode host && d.installPodman) = true) (hns : ns ∈ d.namespaces)
    (hdrift : ¬ HasNetwork planned.subnetAssignments ns host (w host)) :
    ∃ c ∈ hostCmds d planned (probeMesh sha256Hex d w) fresh mgmt planned.subnetAssignments host, ∀ m : Machine,
      m.networks.lookup (podmanNetworkFor ns) = (w host).networks.lookup (podmanNetworkFor ns) ∨
        HasNetwork planned.subnetAssignments ns host m →
      HasNetwork planned.subnetAssignments ns host (m.effect keys c) := by
  have hserver := server_probeMesh sha256Hex w hhost
  have hlookup : ((probeMesh sha256Hex d w).server host).namespaces.lookup ns = some (probeNamespace (w host) ns) := by
    rw [hserver, probe, Dict.lookup_collect_map_self, if_pos hns]
  have hrun : ∀ t detail,
      ⟨host, ns, t, detail⟩ ∈ networkActions (probeMesh sha256Hex d w) planned.subnetAssignments host ns →
        shouldRun planned host t ns = true := by
    intro t detail ha
    refine shouldRun_iff.2 ⟨⟨host, ns, t, detail⟩, hplan.mem_actions.2 ⟨hhost, ?_, decideAction_bootstrap _ hboot⟩,
      rfl, rfl, .inr rfl⟩
    refine List.mem_append_left _ (List.mem_append_right _ ?_)
    rw [if_pos hpodman]
    exact List.mem_append_left _ (List.mem_append_right _
      (List.mem_flatMap.2 ⟨ns, d.mem_sortedNamespaces.2 hns, ha⟩))
  have hstep : ∀ s ∈ networkSteps planned host planned.subnetAssignments ns,
      s.cmd ∈ hostCmds d planned (probeMesh sha256Hex d w) fresh mgmt planned.subnetAssignments host := by
    intro s hs
    refine List.mem_map_of_mem (List.mem_append_left _ (List.mem_append_right _ (List.mem_append_right _ ?_)))
    rw [if_pos hpodman]
    exact List.mem_append_left _ (List.mem_flatMap.2 ⟨ns, d.mem_sortedNamespaces.2 hns, hs⟩)
  cases hrecreate : shouldRun planned host .recreatePodmanNetwork ns with
  | true =>
    refine ⟨_, hstep ⟨.recreatePodmanNetwork, ns, .recreateNetwork (podmanNetworkFor ns) ns
      (subnetOf planned.subnetAssignments ns host) (machineIp (subnetOf planned.subnetAssignments ns host))⟩
      (by simp [networkSteps, hrecreate]), fun m _ => ?_⟩
    simp [HasNetwork, wantedNetwork, Machine.effect]
  | false =>
    -- it would be recreated if it were there and not as it should be
    have hnone : (w host).networks.lookup (podmanNetworkFor ns) = none := by
      by_contra hsome
      obtain ⟨net, hnet⟩ := Option.ne_none_iff_exists'.1 hsome
      have hmissing : networkMissing (probeMesh sha256Hex d w) host ns = false := by
        simp [networkMissing, hlookup, probeNamespace, hnet]
      have hdrifts : networkDrift (probeMesh sha256Hex d w) planned.subnetAssignments host ns = true := by
        rw [networkDrift, hlookup]
        by_contra hno
        refine hdrift ?_
        simp only [probeNamespace, hnet, Bool.not_eq_true, Bool.or_eq_false_iff, decide_eq_false_iff_not,
          not_not] at hno
        rw [HasNetwork, hnet, wantedNetwork, ← hno.1.1, ← hno.1.2, ← hno.2]
      have hfalse := hrun .recreatePodmanNetwork (podmanNetworkFor ns ++ " — drift")
        (by simp [networkActions, pushIf, hmissing, hdrifts])
      rw [hrecreate] at hfalse
      cases hfalse
    have hcreate : shouldRun planned host .createPodmanNetwork ns = true := by
      have hmissing : networkMissing (probeMesh sha256Hex d w) host ns = true := by
        simp [networkMissing, hlookup, probeNamespace, hnone]
      refine hrun .createPodmanNetwork ?detail (List.mem_append_left _ ?planned)
      case planned =>
        rw [pushIf, if_pos hmissing]
        exact List.mem_singleton_self _
    refine ⟨_, hstep ⟨.createPodmanNetwork, ns, .createNetwork (podmanNetworkFor ns) ns
      (subnetOf planned.subnetAssignments ns host) (machineIp (subnetOf planned.subnetAssignments ns host))⟩
      (by simp [networkSteps, hrecreate, hcreate, stepIf]), fun m hm => ?_⟩
    rw [hnone] at hm
    unfold HasNetwork Machine.effect
    dsimp only
    split
    next hsome =>
      refine hm.resolve_left fun hnone => ?_
      rw [hnone] at hsome
      cases hsome
    next => simp [wantedNetwork]

/-- After its commands a host has the networks of all namespaces. -/
theorem hasNetwork_after (hplan : IsPlan sha256Hex d (probeMesh sha256Hex d w) planned) (hboot : d.intent = .bootstrap)
    (hhost : host ∈ d.hosts) (hpodman : (d.isNode host && d.installPodman) = true) (hns : ns ∈ d.namespaces) :
    HasNetwork planned.subnetAssignments ns host ((w host).exec keys (hostCmds d planned (probeMesh sha256Hex d w) fresh
      mgmt planned.subnetAssignments host)) := by
  refine exec_holds
    (I := fun m => m.networks.lookup (podmanNetworkFor ns) = (w host).networks.lookup (podmanNetworkFor ns) ∨
      HasNetwork planned.subnetAssignments ns host m)
    (P := HasNetwork planned.subnetAssignments ns host) (fun c hc m hm => ?_) (fun c hc m _ hm => ?_) (.inl rfl) ?_
  · rcases lookup_networks_effect hc m with h | h
    · rw [HasNetwork, h]
      exact hm
    · exact .inr h
  · rcases lookup_networks_effect hc m with h | h
    · rw [HasNetwork, h]
      exact hm
    · exact h
  · by_cases hdrift : HasNetwork planned.subnetAssignments ns host (w host)
    · exact .inl hdrift
    · exact .inr (exists_networkCmd hplan hboot hhost hpodman hns hdrift)

end Networks

end Coold.Cli
