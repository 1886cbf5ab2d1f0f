import Coold.Agent.Config
import Coold.Lib.Dict
import Coold.Lib.UnixPath

/-!
# Mounts of new containers

`validateCreateContainer` checks the volumes of a request against the allowed sources, and `createSpec` makes mounts of
the same volumes.  The check passes over sources that look like names of volumes (`isHostPathSource`); the mounts are all
of type `bind`.

So every mount lies under an allowed source exactly when the sources that are passed over do (`mounts_allowed_iff`), as
long as every allowed source that says the path of a file is found.
-/

namespace Coold.Agent

/-! ### Paths -/

/-- The path of the names from the root on. -/
def absolute (names : List String) : List UnixPath.Component := .rootDir :: names.map fun name => .normal name.toList

/-- The files as far as paths are concerned: what `canonicalize` makes of a path, which is the names from the root on,
without links, or why it fails.  A directory above a file is found under its own names.  The file itself may not be, if
it is no directory and a slash follows its name. -/
structure FileTree where
  canonicalize : String → Except String (List String)
  canonicalize_of_prefix : ∀ path names dir q, canonicalize path = .ok names → dir <+: names → dir ≠ names →
    UnixPath.components q.toList = absolute dir → canonicalize q = .ok dir

/-! ### Requests -/

structure CreatePortMapping where
  hostIp : String
  hostPort : UInt32
  containerPort : UInt32
  protocol : String
  deriving DecidableEq

structure CreateContainerInput where
  name : String
  image : String
  command : List String
  env : List String
  networks : List String
  volumes : List String
  ports : List CreatePortMapping
  dns : List String
  dnsSearch : List String
  networkAliases : List String
  restartPolicy : String
  privileged : Bool
  networkMode : String
  capabilities : List String

structure MountSpec where
  type : String
  source : String
  destination : String
  deriving DecidableEq

structure ContainerCreateSpec where
  name : String
  image : String
  command : List String
  env : Dict String String
  /-- The aliases in a network; without any, the entry is an empty object. -/
  networks : Dict String (List String)
  mounts : List MountSpec
  portMappings : List CreatePortMapping
  dnsServers : List String
  dnsSearch : List String
  restartPolicy : Option String

/-! ### The check -/

/-- `mode` as `host`, or as one of the forms that join another network namespace. -/
def isDeniedNetworkMode (mode : String) : Bool :=
  let mode := String.ofList ((Str.trim mode).toList.map Char.toLower)
  mode = "host" || "container:".toList.isPrefixOf mode.toList || "ns:".toList.isPrefixOf mode.toList

/-- A source that is a path of the host, and not the name of a volume. -/
def isHostPathSource (source : String) : Bool :=
  source.toList.head? = some '/' || '/' ∈ source.toList || "..".toList <:+: source.toList

/-- An allowed source that cannot be resolved is taken as it is. -/
def allowedComponents (tree : FileTree) (allowed : String) : List UnixPath.Component :=
  match tree.canonicalize allowed with
  | .ok dir => absolute dir
  | .error _ => UnixPath.components allowed.toList

def validateMountSource (tree : FileTree) (source : String) (allowedMountSources : List String) : Except String Unit :=
  if !isHostPathSource source then .ok ()
  else if allowedMountSources = [] then
    .error ("containers.create denied host bind mount " ++ String.quote source ++ ": host bind mounts are disabled " ++
      "(set COOLIFY_COOLD_ALLOWED_MOUNT_SOURCES to permit specific prefixes)")
  else
    match tree.canonicalize source with
    | .error e =>
      .error ("containers.create denied host bind mount " ++ String.quote source ++ ": cannot canonicalize (" ++ e ++
        ")")
    | .ok canonical =>
      if allowedMountSources.any fun allowed => allowedComponents tree allowed <+: absolute canonical then .ok ()
      else
        .error ("containers.create denied host bind mount " ++ String.quote source ++ ": not under an allowed prefix")

def validateVolumes (tree : FileTree) (allowedMountSources : List String) : List String → Except String Unit
  | [] => .ok ()
  | volume :: volumes =>
    match Str.splitOnce ':' volume with
    | none => validateVolumes tree allowedMountSources volumes
    | some (source, _) =>
      match validateMountSource tree source allowedMountSources with
      | .error e => .error e
      | .ok () => validateVolumes tree allowedMountSources volumes

def validateCreateContainer (tree : FileTree) (input : CreateContainerInput) (allowedMountSources : List String) :
    Except String Unit :=
  if input.privileged then .error "containers.create denied privileged mode"
  else if isDeniedNetworkMode input.networkMode || "host" ∈ input.networks then
    .error "containers.create denied host networking"
  else if input.capabilities ≠ [] then .error "containers.create denied custom capabilities"
  else validateVolumes tree allowedMountSources input.volumes

/-! ### What is made of a request -/

def createSpec (input : CreateContainerInput) : ContainerCreateSpec where
  name := input.name
  image := input.image
  command := input.command
  env := Dict.collect (input.env.filterMap (Str.splitOnce '='))
  networks := Dict.collect (input.networks.map fun network => (network, input.networkAliases))
  mounts := (input.volumes.filterMap (Str.splitOnce ':')).map fun volume => ⟨"bind", volume.1, volume.2⟩
  portMappings := input.ports.map fun port =>
    { port with protocol := if port.protocol = "" then "tcp" else port.protocol }
  dnsServers := input.dns
  dnsSearch := input.dnsSearch
  restartPolicy := if input.restartPolicy = "" then none else some input.restartPolicy

/-- The source is a file below a directory that an allowed source leads to. -/
def UnderAllowed (tree : FileTree) (allowedMountSources : List String) (source : String) : Prop :=
  ∃ names, tree.canonicalize source = .ok names ∧
    ∃ allowed ∈ allowedMountSources, ∃ dir, tree.canonicalize allowed = .ok dir ∧ dir <+: names

/-- The bind mounts of a container lie under the allowed sources. -/
def MountsAllowed (tree : FileTree) (allowedMountSources : List String) (spec : ContainerCreateSpec) : Prop :=
  ∀ mount ∈ spec.mounts, mount.type = "bind" → UnderAllowed tree allowedMountSources mount.source

/-- The sources of the volumes, as the check and the mounts take them. -/
def CreateContainerInput.sources (input : CreateContainerInput) : List String :=
  (input.volumes.filterMap (Str.splitOnce ':')).map Prod.fst

/-- Without sources to allow, only a container without mounts has all of them allowed. -/
private theorem mountsAllowed_nil_iff {tree : FileTree} {input : CreateContainerInput} :
    MountsAllowed tree [] (createSpec input) ↔ (createSpec input).mounts = [] := by
  have hbind : ∀ mount ∈ (createSpec input).mounts, mount.type = "bind" := by
    intro mount hm
    obtain ⟨volume, -, rfl⟩ := List.mem_map.1 hm
    rfl
  rw [List.eq_nil_iff_forall_not_mem]
  refine forall₂_congr fun mount hm => ?_
  simp [hbind mount hm, UnderAllowed]

/-! ### What the check says of the mounts -/

private theorem validateVolumes_ok {tree : FileTree} {allowedMountSources volumes : List String}
    (h : validateVolumes tree allowedMountSources volumes = .ok ()) :
    ∀ volume ∈ volumes.filterMap (Str.splitOnce ':'),
      validateMountSource tree volume.1 allowedMountSources = .ok () := by
  induction volumes with
  | nil => simp
  | cons volume volumes ih =>
    rw [validateVolumes] at h
    cases hsplit : Str.splitOnce ':' volume with
    | none =>
      rw [hsplit] at h
      rw [List.filterMap_cons_none hsplit]
      exact ih h
    | some v =>
      rw [hsplit] at h
      dsimp only at h
      cases hv : validateMountSource tree v.1 allowedMountSources with
      | error e =>
        rw [hv] at h
        cases h
      | ok _ =>
        rw [hv] at h
        rw [List.filterMap_cons_some hsplit]
        exact List.forall_mem_cons.2 ⟨hv, ih h⟩

/-- What an absolute path starts with is nothing, or an absolute path of its first names. -/
private theorem eq_absolute_of_prefix {components : List UnixPath.Component} {names : List String}
    (h : components <+: absolute names) :
    components = [] ∨ ∃ dir, dir <+: names ∧ components = absolute dir := by
  cases components with
  | nil => exact Or.inl rfl
  | cons c rest =>
    obtain ⟨rfl, hrest⟩ := List.cons_prefix_cons.1 h
    obtain ⟨dir, hdir, rfl⟩ := List.prefix_map_iff.1 hrest
    exact Or.inr ⟨dir, hdir, rfl⟩

private theorem absolute_injective : Function.Injective absolute := by
  intro dir dir' h
  have hinj : Function.Injective fun name : String => UnixPath.Component.normal name.toList := fun a b hab =>
    String.toList_inj.1 (UnixPath.Component.normal.inj hab)
  exact List.map_injective_iff.2 hinj (List.cons.inj h).2

/-- An allowed source says the path that a source leads to, and is not found there. -/
def NotFound (tree : FileTree) (allowedMountSources : List String) (source : String) : Prop :=
  ∃ allowed ∈ allowedMountSources, ∃ names e, tree.canonicalize source = .ok names ∧
    tree.canonicalize allowed = .error e ∧ UnixPath.components allowed.toList = absolute names

/-- A path of the host that is let through lies under an allowed source, if no allowed source is the empty path and each
that says the path is found. -/
private theorem underAllowed_of_validateMountSource {tree : FileTree} {source : String}
    {allowedMountSources : List String}
    (hhost : isHostPathSource source = true) (hempty : "" ∉ allowedMountSources)
    (hfound : ¬ NotFound tree allowedMountSources source)
    (h : validateMountSource tree source allowedMountSources = .ok ()) :
    UnderAllowed tree allowedMountSources source := by
  rw [validateMountSource, hhost, Bool.not_true, if_neg Bool.false_ne_true] at h
  split at h
  · cases h
  · cases hcanonical : tree.canonicalize source with
    | error e =>
      rw [hcanonical] at h
      cases h
    | ok names =>
      rw [hcanonical] at h
      dsimp only at h
      split at h
      · rename_i hany
        obtain ⟨allowed, hmem, hprefix⟩ := List.any_eq_true.1 hany
        rw [decide_eq_true_eq] at hprefix
        refine ⟨names, hcanonical, allowed, hmem, ?_⟩
        rw [allowedComponents] at hprefix
        cases hallowed : tree.canonicalize allowed with
        | ok dir =>
          rw [hallowed] at hprefix
          obtain hnil | ⟨dir', hdir, heq⟩ := eq_absolute_of_prefix hprefix
          · cases hnil
          · exact ⟨dir, rfl, absolute_injective heq ▸ hdir⟩
        | error e =>
          -- a directory above the resolved source would have been resolved itself
          rw [hallowed] at hprefix
          obtain hnil | ⟨dir, hdir, heq⟩ := eq_absolute_of_prefix hprefix
          · exact absurd (String.toList_eq_nil_iff.1 (UnixPath.components_eq_nil hnil) ▸ hmem) hempty
          · by_cases hself : dir = names
            · exact absurd ⟨allowed, hmem, names, e, hcanonical, hallowed, hself ▸ heq⟩ hfound
            · rw [tree.canonicalize_of_prefix source names dir allowed hcanonical hdir hself heq] at hallowed
              cases hallowed
      · cases h

/-- Of a request that is let through the bind mounts lie under the allowed sources exactly when those sources do that
look like names of volumes, those that an allowed source says without being found, and, where the empty path is an
allowed source, all of them. -/
theorem mounts_allowed_iff {tree : FileTree} {input : CreateContainerInput} {allowedMountSources : List String}
    (h : validateCreateContainer tree input allowedMountSources = .ok ()) :
    MountsAllowed tree allowedMountSources (createSpec input) ↔
      ∀ source ∈ input.sources,
        isHostPathSource source = false ∨ NotFound tree allowedMountSources source ∨ "" ∈ allowedMountSources →
          UnderAllowed tree allowedMountSources source := by
  have hvolumes : validateVolumes tree allowedMountSources input.volumes = .ok () := by
    rw [validateCreateContainer] at h
    split at h
    · cases h
    · split at h
      · cases h
      · split at h
        · cases h
        · exact h
  constructor
  · intro hmounts source hsource _
    obtain ⟨volume, hvolume, rfl⟩ := List.mem_map.1 hsource
    exact hmounts ⟨"bind", volume.1, volume.2⟩ (List.mem_map_of_mem hvolume) rfl
  · intro hsources mount hmount _
    obtain ⟨volume, hvolume, rfl⟩ := List.mem_map.1 hmount
    by_cases hcond : isHostPathSource volume.1 = false ∨ NotFound tree allowedMountSources volume.1 ∨
        "" ∈ allowedMountSources
    · exact hsources volume.1 (List.mem_map_of_mem hvolume) hcond
    · rw [not_or, not_or, Bool.not_eq_false] at hcond
      exact underAllowed_of_validateMountSource hcond.1 hcond.2.2 hcond.2.1 (validateVolumes_ok hvolumes volume hvolume)

/-- The configuration gives no empty path. -/
private theorem empty_notMem_parseMountSources (raw : String) : "" ∉ parseMountSources raw := by
  simp [parseMountSources]

/-- With the sources of the configuration, all of them found, only the sources of volumes that look like names are in
question. -/
theorem mounts_allowed_of_config {tree : FileTree} {input : CreateContainerInput} {raw : String}
    (h : validateCreateContainer tree input (parseMountSources raw) = .ok ())
    (hfound : ∀ allowed ∈ parseMountSources raw, ∃ dir, tree.canonicalize allowed = .ok dir)
    (hnames : ∀ source ∈ input.sources, isHostPathSource source = true) :
    MountsAllowed tree (parseMountSources raw) (createSpec input) := by
  refine (mounts_allowed_iff h).2 fun source hsource hcond => ?_
  rcases hcond with hname | ⟨allowed, hallowed, names, e, -, herror, -⟩ | hempty
  · rw [hnames source hsource] at hname
    cases hname
  · obtain ⟨dir, hdir⟩ := hfound allowed hallowed
    rw [hdir] at herror
    cases herror
  · exact absurd hempty (empty_notMem_parseMountSources raw)

/-- Every absolute path without dots leads to a directory. -/
def sampleTree : FileTree where
  canonicalize path :=
    match UnixPath.components path.toList with
    | .rootDir :: rest =>
      if rest.all fun c => c != .parentDir then
        .ok (rest.filterMap fun c => match c with | .normal name => some (String.ofList name) | _ => none)
      else .error "No such file or directory"
    | _ => .error "No such file or directory"
  canonicalize_of_prefix path names dir q _ _ _ hq := by
    rw [hq, absolute]
    have hall : (dir.map fun name => UnixPath.Component.normal name.toList).all (fun c => c != .parentDir) = true := by
      simp
    simp only [hall, if_true, List.filterMap_map]
    congr 1
    exact (List.filterMap_congr fun name _ => congrArg some String.ofList_toList).trans List.filterMap_some

def sampleInput (volumes : List String) : CreateContainerInput where
  name := "web"
  image := "nginx"
  command := []
  env := []
  networks := ["coolify-default-mesh"]
  volumes := volumes
  ports := []
  dns := []
  dnsSearch := []
  networkAliases := []
  restartPolicy := ""
  privileged := false
  networkMode := ""
  capabilities := []

/-- A directory below an allowed one. -/
theorem mounts_allowed_below :
    MountsAllowed sampleTree ["/srv//shared/"] (createSpec (sampleInput ["/srv/shared/data:/data:ro", "plain"])) := by
  refine (mounts_allowed_iff (by decide)).2 fun source hsource _ => ?_
  have hdata : source = "/srv/shared/data" := by
    have : (sampleInput ["/srv/shared/data:/data:ro", "plain"]).sources = ["/srv/shared/data"] := by decide
    rw [this] at hsource
    exact List.mem_singleton.1 hsource
  rw [hdata]
  exact ⟨["srv", "shared", "data"], by decide, "/srv//shared/", List.mem_singleton_self _, ["srv", "shared"],
    by decide, by decide⟩

/-- Without allowed sources, a volume with a name is let through and becomes a bind mount. -/
theorem name_mounted :
    let input := sampleInput ["etc:/host-etc"]
    validateCreateContainer sampleTree input [] = .ok () ∧
      (createSpec input).mounts = [⟨"bind", "etc", "/host-etc"⟩] ∧ ¬ MountsAllowed sampleTree [] (createSpec input) := by
  have hmounts : (createSpec (sampleInput ["etc:/host-etc"])).mounts = [⟨"bind", "etc", "/host-etc"⟩] := by
    decide
  refine ⟨by decide, hmounts, ?_⟩
  rw [mountsAllowed_nil_iff, hmounts]
  simp

end Coold.Agent
