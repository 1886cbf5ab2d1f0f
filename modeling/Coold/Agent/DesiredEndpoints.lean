import Coold.Agent.Endpoints

/-!
# The endpoints that Podman shows

`desiredEndpoints` lists the containers, inspects each of them and records one endpoint for a container that is
attached to a managed network.  The networks of a container come in a hash map: for a container on several managed
networks the first one in the order of iteration wins, and this order is not the same in two runs.

`lookup_desiredEndpoints` says which endpoint is recorded under an id: the one of the first container of the list with
this id that has a managed attachment, at its first such attachment (`endpointOf`).
-/

namespace Coold.Agent

/-! ### Podman -/

structure NetworkEntry where
  ipAddress : String
  deriving DecidableEq

/-- `health` is the status of the health check, if there is one. -/
structure ContainerState where
  status : String
  health : Option String
  deriving DecidableEq

/-- What `inspect` gives of a container; the networks are in the order in which they are iterated. -/
structure ContainerInspect where
  name : String
  networkSettings : Option (Dict String NetworkEntry)
  state : Option ContainerState

/-- An entry of the list of containers. -/
structure Container where
  id : String
  names : List String
  image : String
  state : String
  deriving DecidableEq

/-- What Podman answers; an inspection that fails gives `none`. -/
structure Podman where
  containers : List Container
  inspect : String → Option ContainerInspect

/-- The same inspection, up to the order in which the networks are iterated. -/
def ContainerInspect.Same (a b : ContainerInspect) : Prop :=
  a.name = b.name ∧ a.state = b.state ∧
    Option.Rel (fun m n => m.entries.Perm n.entries) a.networkSettings b.networkSettings

/-- The same state of Podman, up to the order in which the networks are iterated. -/
def Podman.Same (p q : Podman) : Prop :=
  p.containers = q.containers ∧ ∀ id, Option.Rel ContainerInspect.Same (p.inspect id) (q.inspect id)

/-! ### Endpoints -/

/-- A managed namespace and its network. -/
structure Namespace where
  name : String
  network : String
  deriving DecidableEq

structure SyncConfig where
  hostMgmtIp : String
  namespaces : List Namespace

/-- The namespace of a managed network. -/
def SyncConfig.networkToNs (config : SyncConfig) : Dict String String :=
  Dict.collect (config.namespaces.map fun n => (n.network, n.name))

/-- `trim_start_matches('/')`. -/
def trimSlashes (s : String) : String := String.ofList (s.toList.dropWhile (· = '/'))

section Desired

variable (toLowercase : String → String) (config : SyncConfig)

/-- The endpoint of a container, without its network. -/
def baseEndpoint (c : Container) (inspect : ContainerInspect) : Endpoint where
  containerId := c.id
  containerName :=
    if inspect.name ≠ "" then trimSlashes inspect.name
    else (c.names.head?.map trimSlashes).getD c.id
  namespace_ := ""
  hostMgmtIp := config.hostMgmtIp
  containerIp := ""
  state := (inspect.state.map fun s => toLowercase s.status).getD ""
  health :=
    (((inspect.state.bind ContainerState.health).map toLowercase).filter fun s => s ≠ "").getD "unknown"

/-- One step of the loop over the networks of a container. -/
def recordNetwork (endpoint : Endpoint) (hhost : endpoint.hostMgmtIp = config.hostMgmtIp)
    (out : HostEndpoints config.hostMgmtIp) (network : String × NetworkEntry) : HostEndpoints config.hostMgmtIp :=
  match config.networkToNs.lookup network.1 with
  | none => out
  | some ns =>
    -- only the first namespace is recorded
    if (out.map.lookup endpoint.containerId).isSome then out
    else out.insert { endpoint with namespace_ := ns, containerIp := network.2.ipAddress } hhost

/-- One step of the loop over the containers. -/
def recordContainer (podman : Podman) (out : HostEndpoints config.hostMgmtIp) (c : Container) :
    HostEndpoints config.hostMgmtIp :=
  match podman.inspect c.id with
  | none => out
  | some inspect =>
    match inspect.networkSettings with
    | none => out
    | some networks =>
      (networks.entries.map fun e => (e.1, e.2)).foldl
        (recordNetwork config (baseEndpoint toLowercase config c inspect) rfl) out

def desiredEndpoints (podman : Podman) : HostEndpoints config.hostMgmtIp :=
  podman.containers.foldl (recordContainer toLowercase config podman) (.empty config.hostMgmtIp)

/-! ### Which endpoint is recorded -/

/-- The managed attachments of a container, in the order of iteration: namespace and address. -/
def managedAttachments (networks : Dict String NetworkEntry) : List (String × String) :=
  networks.entries.filterMap fun e => (config.networkToNs.lookup e.1).map fun ns => (ns, e.2.ipAddress)

/-- The endpoint of a container, at its first managed attachment. -/
def endpointOf (podman : Podman) (c : Container) : Option Endpoint :=
  (podman.inspect c.id).bind fun inspect => inspect.networkSettings.bind fun networks =>
    (managedAttachments config networks).head?.map fun a =>
      { baseEndpoint toLowercase config c inspect with namespace_ := a.1, containerIp := a.2 }

variable {toLowercase config}

/-- The loop over the networks records the first managed attachment, if nothing is recorded yet. -/
private theorem lookup_foldl_recordNetwork {endpoint : Endpoint} (hhost : endpoint.hostMgmtIp = config.hostMgmtIp)
    (out : HostEndpoints config.hostMgmtIp) (networks : List (Sigma fun _ : String => NetworkEntry)) (id : String) :
    ((networks.map fun e => (e.1, e.2)).foldl (recordNetwork config endpoint hhost) out).map.lookup id =
      if id = endpoint.containerId ∧ out.map.lookup id = none then
        (networks.filterMap fun e => (config.networkToNs.lookup e.1).map fun ns => (ns, e.2.ipAddress)).head?.map
          fun a => { endpoint with namespace_ := a.1, containerIp := a.2 }
      else out.map.lookup id := by
  induction networks generalizing out with
  | nil =>
    rw [List.map_nil, List.foldl_nil]
    split
    · rename_i h
      rw [h.2]
      rfl
    · rfl
  | cons e networks ih =>
    rw [List.map_cons, List.foldl_cons, ih, recordNetwork]
    cases hns : config.networkToNs.lookup e.1 with
    | none => simp only [hns, List.filterMap_cons, Option.map_none]
    | some ns =>
      simp only [hns, List.filterMap_cons, Option.map_some, List.head?_cons]
      -- the first managed network is recorded; from then on the id is taken
      by_cases hid : id = endpoint.containerId
      · subst hid
        cases hout : out.map.lookup endpoint.containerId with
        | some recorded => simp [hout]
        | none => simp [HostEndpoints.lookup_insert]
      · split
        · simp [hid]
        · simp [hid, HostEndpoints.lookup_insert]

/-- A container is recorded under its id, if nothing is recorded yet. -/
private theorem lookup_recordContainer (podman : Podman) (out : HostEndpoints config.hostMgmtIp) (c : Container)
    (id : String) :
    (recordContainer toLowercase config podman out c).map.lookup id =
      if id = c.id ∧ out.map.lookup id = none then endpointOf toLowercase config podman c else out.map.lookup id := by
  have hkeep : (if id = c.id ∧ out.map.lookup id = none then none else out.map.lookup id) = out.map.lookup id := by
    split
    · rename_i h
      rw [h.2]
    · rfl
  cases hi : podman.inspect c.id with
  | none => simp [recordContainer, endpointOf, hi, hkeep]
  | some inspect =>
    cases hn : inspect.networkSettings with
    | none => simp [recordContainer, endpointOf, hi, hn, hkeep]
    | some networks =>
      simp only [recordContainer, endpointOf, hi, hn, Option.bind_some]
      exact lookup_foldl_recordNetwork rfl out networks.entries id

/-- What is recorded under an id: the endpoint of the first container of the list that has this id and an endpoint. -/
theorem lookup_desiredEndpoints (podman : Podman) (id : String) :
    (desiredEndpoints toLowercase config podman).map.lookup id =
      podman.containers.findSome? fun c => if c.id = id then endpointOf toLowercase config podman c else none := by
  have hfold : ∀ (containers : List Container) (out : HostEndpoints config.hostMgmtIp),
      (containers.foldl (recordContainer toLowercase config podman) out).map.lookup id =
        (out.map.lookup id).or
          (containers.findSome? fun c => if c.id = id then endpointOf toLowercase config podman c else none) := by
    intro containers
    induction containers with
    | nil => simp
    | cons c containers ih =>
      intro out
      rw [List.foldl_cons, ih, lookup_recordContainer, List.findSome?_cons]
      by_cases hid : id = c.id
      · subst hid
        cases hout : out.map.lookup c.id with
        | some recorded => simp
        | none =>
          cases hep : endpointOf toLowercase config podman c <;> simp
      · have hid' : c.id ≠ id := fun h => hid h.symm
        simp [hid, hid']
  rw [desiredEndpoints, hfold]
  simp [HostEndpoints.empty]

/-! ### The order of the networks -/

variable (config) in
/-- The managed attachments of a listed container all give the same namespace and the same address; a container with at
most one managed network is one of these. -/
def OneAttachment (podman : Podman) : Prop :=
  ∀ c ∈ podman.containers, ∀ inspect networks, podman.inspect c.id = some inspect →
    inspect.networkSettings = some networks →
      ∀ a ∈ managedAttachments config networks, ∀ b ∈ managedAttachments config networks, a = b

private theorem head?_eq_of_perm {α : Type} {l l' : List α} (hp : l.Perm l') (h : ∀ a ∈ l, ∀ b ∈ l, a = b) :
    l.head? = l'.head? := by
  cases l with
  | nil => rw [hp.nil_eq]
  | cons a l =>
    cases l' with
    | nil => exact absurd hp.eq_nil (by simp)
    | cons b l' => rw [List.head?_cons, List.head?_cons, h a (by simp) b (hp.mem_iff.2 (by simp))]

private theorem managedAttachments_perm {m n : Dict String NetworkEntry} (h : m.entries.Perm n.entries) :
    (managedAttachments config m).Perm (managedAttachments config n) :=
  h.filterMap _

/-- With one attachment the endpoint of a container does not depend on the order. -/
private theorem endpointOf_eq {p q : Podman} (h : p.Same q) (hp : OneAttachment config p) {c : Container}
    (hc : c ∈ p.containers) : endpointOf toLowercase config p c = endpointOf toLowercase config q c := by
  have hi := h.2 c.id
  have hone := hp c hc
  simp only [endpointOf]
  revert hi hone
  generalize p.inspect c.id = a
  generalize q.inspect c.id = b
  intro hi hone
  cases hi with
  | none => rfl
  | some hsame =>
    rename_i first second
    obtain ⟨name, settings, state⟩ := first
    obtain ⟨name', settings', state'⟩ := second
    obtain ⟨rfl, rfl, hnet⟩ := hsame
    cases hnet with
    | none => rfl
    | some hperm =>
      have hhead := head?_eq_of_perm (managedAttachments_perm hperm) (hone _ _ rfl rfl)
      simp only [Option.bind_some, hhead, baseEndpoint]

private theorem findSome?_congr {α β : Type} {l : List α} {f g : α → Option β} (h : ∀ a ∈ l, f a = g a) :
    l.findSome? f = l.findSome? g := by
  induction l with
  | nil => rfl
  | cons a l ih =>
    rw [List.findSome?_cons, List.findSome?_cons, h a List.mem_cons_self,
      ih fun a' ha' => h a' (List.mem_cons_of_mem a ha')]

variable (toLowercase) in
/-- Two runs on one state of Podman agree, if there is one attachment for each container. -/
private theorem desiredEndpoints_eq {p q r : Podman} (hp : OneAttachment config p) (hq : p.Same q) (hr : p.Same r)
    (id : String) :
    (desiredEndpoints toLowercase config q).map.lookup id = (desiredEndpoints toLowercase config r).map.lookup id := by
  have hto : ∀ q, p.Same q → (desiredEndpoints toLowercase config q).map.lookup id =
      (desiredEndpoints toLowercase config p).map.lookup id := by
    intro q hq
    rw [lookup_desiredEndpoints, lookup_desiredEndpoints, ← hq.1]
    refine findSome?_congr fun c hc => ?_
    rw [endpointOf_eq hq hp hc]
  rw [hto q hq, hto r hr]

/-- Any managed attachment can come first. -/
private theorem exists_order {networks : Dict String NetworkEntry} {a : String × String}
    (h : a ∈ managedAttachments config networks) :
    ∃ reordered : Dict String NetworkEntry, networks.entries.Perm reordered.entries ∧
      (managedAttachments config reordered).head? = some a := by
  obtain ⟨e, he, ha⟩ := List.mem_filterMap.1 h
  have hp := List.perm_cons_erase he
  refine ⟨⟨e :: networks.entries.erase e, ?_⟩, hp, ?_⟩
  · exact (List.perm_nodupKeys hp).1 networks.nodupKeys
  · simp [managedAttachments, ha]

/-- Podman with the networks of one container in another order. -/
def Podman.reorder (podman : Podman) (id : String) (inspect : ContainerInspect) (networks : Dict String NetworkEntry) :
    Podman :=
  { podman with
    inspect := Function.update podman.inspect id (some { inspect with networkSettings := some networks }) }

private theorem inspect_reorder_self (podman : Podman) (id : String) (inspect : ContainerInspect)
    (networks : Dict String NetworkEntry) :
    (podman.reorder id inspect networks).inspect id = some { inspect with networkSettings := some networks } :=
  Function.update_self _ _ _

private theorem inspect_reorder_of_ne (podman : Podman) {id id' : String} (inspect : ContainerInspect)
    (networks : Dict String NetworkEntry) (h : id' ≠ id) :
    (podman.reorder id inspect networks).inspect id' = podman.inspect id' :=
  Function.update_of_ne h _ _

private theorem same_reorder {podman : Podman} {id : String} {inspect : ContainerInspect}
    {networks reordered : Dict String NetworkEntry} (hi : podman.inspect id = some inspect)
    (hn : inspect.networkSettings = some networks) (hp : networks.entries.Perm reordered.entries) :
    podman.Same (podman.reorder id inspect reordered) := by
  refine ⟨rfl, fun id' => ?_⟩
  by_cases hid : id' = id
  · subst hid
    rw [inspect_reorder_self, hi]
    exact .some ⟨rfl, rfl, hn ▸ .some hp⟩
  · rw [inspect_reorder_of_ne podman inspect reordered hid]
    cases podman.inspect id' with
    | none => exact .none
    | some inspect' =>
      refine .some ⟨rfl, rfl, ?_⟩
      cases inspect'.networkSettings with
      | none => exact .none
      | some m => exact .some (.refl _)

variable (toLowercase) in
/-- The endpoint that is recorded is the one of the attachment that comes first. -/
private theorem lookup_reorder {podman : Podman} {c : Container} (inspect : ContainerInspect)
    {reordered : Dict String NetworkEntry} {a : String × String} (hc : c ∈ podman.containers)
    (ha : (managedAttachments config reordered).head? = some a) :
    ∃ endpoint, (desiredEndpoints toLowercase config (podman.reorder c.id inspect reordered)).map.lookup c.id =
      some endpoint ∧ (endpoint.namespace_, endpoint.containerIp) = a := by
  have hof : ∀ c' : Container, c'.id = c.id → ∃ endpoint,
      endpointOf toLowercase config (podman.reorder c.id inspect reordered) c' = some endpoint ∧
        (endpoint.namespace_, endpoint.containerIp) = a := by
    intro c' hid
    refine ⟨{ baseEndpoint toLowercase config c' { inspect with networkSettings := some reordered } with
      namespace_ := a.1, containerIp := a.2 }, ?_, rfl⟩
    rw [endpointOf, hid, inspect_reorder_self, Option.bind_some, Option.bind_some, ha, Option.map_some]
  rw [lookup_desiredEndpoints]
  cases hfind : (podman.reorder c.id inspect reordered).containers.findSome? fun c' => if c'.id = c.id then
      endpointOf toLowercase config (podman.reorder c.id inspect reordered) c' else none with
  | none =>
    obtain ⟨endpoint, hep, -⟩ := hof c rfl
    have hnone := List.findSome?_eq_none_iff.1 hfind c hc
    rw [if_pos rfl, hep] at hnone
    cases hnone
  | some endpoint =>
    obtain ⟨c', -, hep⟩ := List.exists_of_findSome?_eq_some hfind
    obtain ⟨hid, hep⟩ := Option.ite_none_right_eq_some.1 hep
    obtain ⟨endpoint', hep', hend⟩ := hof c' hid
    rw [hep'] at hep
    cases hep
    exact ⟨_, rfl, hend⟩

/-- Two reconciliations in a row on one state of Podman, with the networks of each container iterated in any order in
each of them: they want the same endpoints, and the second one finds nothing to do whatever the table was, exactly when
the managed attachments of every listed container agree on namespace and address. -/
theorem reconcile_stable_iff (toLowercase : String → String) (config : SyncConfig) (podman : Podman) :
    (∀ q r, podman.Same q → podman.Same r →
      (∀ id, (desiredEndpoints toLowercase config q).map.lookup id =
        (desiredEndpoints toLowercase config r).map.lookup id) ∧
      ∀ (table : Table) (nowMs : Int),
        diff (desiredEndpoints toLowercase config r).map
          ((table.applyAll (buildStatements nowMs (diff (desiredEndpoints toLowercase config q).map
            (table.snapshotForHost config.hostMgmtIp)))).snapshotForHost config.hostMgmtIp) = []) ↔
      OneAttachment config podman := by
  constructor
  · -- iterate the networks once with each of the two attachments first
    intro h c hc inspect networks hi hn a ha b hb
    obtain ⟨first, hp₁, h₁⟩ := exists_order ha
    obtain ⟨second, hp₂, h₂⟩ := exists_order hb
    have hsame := (h _ _ (same_reorder hi hn hp₁) (same_reorder hi hn hp₂)).1 c.id
    obtain ⟨e₁, he₁, rfl⟩ := lookup_reorder toLowercase inspect hc h₁
    obtain ⟨e₂, he₂, rfl⟩ := lookup_reorder toLowercase inspect hc h₂
    rw [he₁, he₂, Option.some.injEq] at hsame
    rw [hsame]
  · -- both orders want the same, and the transaction has left just that
    intro hone q r hq hr
    have heq := desiredEndpoints_eq toLowercase hone hq hr
    refine ⟨heq, fun table nowMs => ?_⟩
    have hnil : reconcileStatements nowMs (desiredEndpoints toLowercase config r)
        ((table.applyAll (reconcileStatements nowMs (desiredEndpoints toLowercase config q)
          (table.snapshotForHost config.hostMgmtIp))).snapshotForHost config.hostMgmtIp) = [] := by
      rw [reconcileStatements_eq_nil_iff]
      intro id
      rw [snapshotForHost_applyAll (.refl _), heq id]
    exact List.map_eq_nil_iff.1 hnil

end Desired

/-! ### A container on two managed networks -/

def dualConfig : SyncConfig := ⟨"100.64.0.5", [⟨"prod", "prod-net"⟩, ⟨"dev", "dev-net"⟩]⟩

/-- Podman with one container on the given networks. -/
def onePodman (networks : Dict String NetworkEntry) : Podman where
  containers := [⟨"c1", ["web"], "docker.io/library/nginx:alpine", "running"⟩]
  inspect := Function.update (fun _ => none) "c1" (some ⟨"/web", some networks, some ⟨"running", none⟩⟩)

def prodFirst : Dict String NetworkEntry :=
  ⟨[⟨"prod-net", ⟨"10.0.0.1"⟩⟩, ⟨"dev-net", ⟨"10.1.0.1"⟩⟩], by simp [List.NodupKeys]⟩

def devFirst : Dict String NetworkEntry :=
  ⟨[⟨"dev-net", ⟨"10.1.0.1"⟩⟩, ⟨"prod-net", ⟨"10.0.0.1"⟩⟩], by simp [List.NodupKeys]⟩

/-- The same state of Podman gives one namespace in one order and the other in the other, and the second reconciliation
writes the row again. -/
theorem reconcile_flaps :
    (onePodman prodFirst).Same (onePodman prodFirst) ∧ (onePodman prodFirst).Same (onePodman devFirst) ∧
      ((desiredEndpoints id dualConfig (onePodman prodFirst)).map.lookup "c1").map Endpoint.namespace_ = some "prod" ∧
      ((desiredEndpoints id dualConfig (onePodman devFirst)).map.lookup "c1").map Endpoint.namespace_ = some "dev" ∧
      diff (desiredEndpoints id dualConfig (onePodman devFirst)).map
        ((sampleTable.applyAll (buildStatements 2 (diff (desiredEndpoints id dualConfig (onePodman prodFirst)).map
          (sampleTable.snapshotForHost "100.64.0.5")))).snapshotForHost "100.64.0.5") ≠ [] := by
  have hsame : ∀ networks, prodFirst.entries.Perm networks.entries →
      (onePodman prodFirst).Same (onePodman networks) :=
    fun networks hp => by
      have hi : (onePodman prodFirst).inspect "c1" = some ⟨"/web", some prodFirst, some ⟨"running", none⟩⟩ := by
        simp [onePodman]
      have hre : (onePodman prodFirst).reorder "c1" ⟨"/web", some prodFirst, some ⟨"running", none⟩⟩ networks =
          onePodman networks := by
        simp [Podman.reorder, onePodman]
      exact hre ▸ same_reorder hi rfl hp
  exact ⟨hsame _ (.refl _), hsame _ (.swap _ _ _), by decide, by decide, by decide⟩

end Coold.Agent
