import Coold.Lib.DictDiff

/-!
# What coold tracks, and the differences it reports

`ContainerStatus` and `Endpoint` are the rows coold derives from Podman, and the two diffs of `coold/src/model.rs`
compare such rows with what was last reported.  Both are the map difference `Dict.diff` at their own delta type.
-/

namespace Coold.Agent

structure ContainerStatus where
  containerId : String
  containerName : String
  image : String
  state : String
  deriving DecidableEq

inductive ContainerStatusDelta where
  | upsert (status : ContainerStatus)
  | delete (containerId : String)
  deriving DecidableEq

structure Endpoint where
  containerId : String
  containerName : String
  namespace_ : String
  hostMgmtIp : String
  containerIp : String
  state : String
  health : String
  deriving DecidableEq

inductive Delta where
  | upsert (endpoint : Endpoint)
  | delete (containerId : String)
  deriving DecidableEq

/-- The deltas that make Corrosion match Podman. -/
def diff (desired current : Dict String Endpoint) : List Delta :=
  Dict.diff .upsert .delete desired current

def diffContainerStatuses (desired current : Dict String ContainerStatus) : List ContainerStatusDelta :=
  Dict.diff .upsert .delete desired current

/-- The container a status delta is about. -/
def ContainerStatusDelta.containerId : ContainerStatusDelta → String
  | .upsert status => status.containerId
  | .delete id => id

/-- Container statuses keyed by their own container id, as `desired_container_statuses` builds them. -/
structure ContainerStatuses where
  map : Dict String ContainerStatus
  keyed : ∀ id status, map.lookup id = some status → status.containerId = id

namespace ContainerStatuses

def empty : ContainerStatuses := ⟨∅, by simp⟩

/-- Record a status under its container id. -/
def insert (out : ContainerStatuses) (status : ContainerStatus) : ContainerStatuses where
  map := out.map.insert status.containerId status
  keyed id status' h := by
    rw [Dict.lookup_insert_ite] at h
    split at h
    · rename_i hid
      rw [hid, ← Option.some.inj h]
    · exact out.keyed id status' h

private theorem mem_of_lookup_rows {rows : List ContainerStatus} {id : String} {status : ContainerStatus}
    (h : (rows.map fun r => ⟨r.containerId, r⟩ : List (Sigma fun _ : String => ContainerStatus)).toAList.lookup id =
      some status) : status ∈ rows ∧ status.containerId = id := by
  rw [AList.lookup_to_alist] at h
  have hm := List.of_mem_dlookup h
  rw [List.mem_map] at hm
  obtain ⟨r, hr, he⟩ := hm
  simp only [Sigma.mk.injEq, heq_eq_eq] at he
  exact ⟨he.2 ▸ hr, by rw [← he.2, he.1]⟩

/-- The statuses of a list of rows with distinct container ids. -/
def ofList (rows : List ContainerStatus) : ContainerStatuses where
  map := (rows.map fun r => ⟨r.containerId, r⟩ : List (Sigma fun _ : String => ContainerStatus)).toAList
  keyed _ _ h := (mem_of_lookup_rows h).2

theorem mem_of_lookup_ofList {rows : List ContainerStatus} {id : String} {status : ContainerStatus}
    (h : (ofList rows).map.lookup id = some status) : status ∈ rows :=
  (mem_of_lookup_rows h).1

end ContainerStatuses

theorem mem_diffContainerStatuses {desired current : ContainerStatuses} {d : ContainerStatusDelta} :
    d ∈ diffContainerStatuses desired.map current.map ↔
      (∃ status, d = .upsert status ∧ desired.map.lookup status.containerId = some status ∧
        current.map.lookup status.containerId ≠ some status) ∨
      (∃ id status, d = .delete id ∧ current.map.lookup id = some status ∧
        desired.map.lookup id = none) := by
  rw [diffContainerStatuses, Dict.mem_diff]
  constructor
  · rintro (⟨id, status, hd, hc, rfl⟩ | ⟨id, status, hc, hd, rfl⟩)
    · obtain rfl := desired.keyed id status hd
      exact Or.inl ⟨status, rfl, hd, hc⟩
    · exact Or.inr ⟨id, status, rfl, hc, hd⟩
  · rintro (⟨status, rfl, hd, hc⟩ | ⟨id, status, rfl, hc, hd⟩)
    · exact Or.inl ⟨status.containerId, status, hd, hc, rfl⟩
    · exact Or.inr ⟨id, status, hc, hd, rfl⟩

/-- A container occurs in at most one status delta. -/
theorem nodup_diffContainerStatuses (desired current : ContainerStatuses) :
    ((diffContainerStatuses desired.map current.map).map ContainerStatusDelta.containerId).Nodup :=
  Dict.nodup_map_key_diff ContainerStatusDelta.containerId (fun id status h => desired.keyed id status h)
    fun _ => rfl

end Coold.Agent
