import Coold.Flux.Auth
import Coold.Lib.Lts
import Mathlib.Data.List.Sort

/-!
# The denylist of revoked tokens

`RevocationStore` is the denylist in memory together with the file it is persisted to and the temporary file beside
it.  `serde_json` is the parameter `F : DenylistFormat`, the two conversions between a list of entries and the
content of a file.

A sweep and a load drop the entries whose expiry has passed, while a token is accepted for `leewaySecs` after its
expiry.  So a revoked token stays `Rejected` along a run exactly when no sweep and no load of the run falls between
the expiry of the token and the end of the leeway.
-/

namespace Coold.Flux

structure RevocationEntry where
  jti : String
  expiresAt : Option Nat
  deriving DecidableEq

/-- Each revoked `jti` with its expiry; `none` keeps the entry until it is unrevoked. -/
abbrev Denylist := Dict String (Option Nat)

/-- The content of the denylist file, and its conversions from and to a list of entries. -/
structure DenylistFormat where
  File : Type
  toVecPretty : List RevocationEntry → File
  fromSlice : File → Option (List RevocationEntry)

/-- What is written can be read back. -/
def DenylistFormat.RoundTrips (F : DenylistFormat) : Prop :=
  ∀ entries, F.fromSlice (F.toVecPretty entries) = some entries

/-- `is_none_or`: the entry has no expiry, or one after `now`. -/
def unexpired (now : Nat) (expiresAt : Option Nat) : Bool := expiresAt.all fun exp => now < exp

namespace Denylist

/-- The entries, sorted by `jti`. -/
def list (inner : Denylist) : List RevocationEntry :=
  (inner.entries.map fun e => (⟨e.1, e.2⟩ : RevocationEntry)).insertionSort fun a b => a.jti ≤ b.jti

def retainUnexpired (inner : Denylist) (now : Nat) : Denylist :=
  inner.retain fun _ expiresAt => unexpired now expiresAt

def isRevoked (inner : Denylist) (jti : String) : Bool := (inner.lookup jti).isSome

theorem mem_list {inner : Denylist} {e : RevocationEntry} :
    e ∈ inner.list ↔ inner.lookup e.jti = some e.expiresAt := by
  rw [list, List.mem_insertionSort, Dict.lookup_eq_some_iff_mem, List.mem_map]
  constructor
  · rintro ⟨x, hx, rfl⟩
    exact hx
  · intro h
    exact ⟨_, h, rfl⟩

theorem nodup_map_jti_list (inner : Denylist) : (inner.list.map fun e => e.jti).Nodup := by
  have hperm := (List.perm_insertionSort (fun a b : RevocationEntry => a.jti ≤ b.jti)
    (inner.entries.map fun e => (⟨e.1, e.2⟩ : RevocationEntry))).map fun e => e.jti
  rw [list, hperm.nodup_iff, List.map_map]
  exact inner.nodupKeys

theorem lookup_retainUnexpired {inner : Denylist} {now : Nat} {j : String} {x : Option Nat} :
    (inner.retainUnexpired now).lookup j = some x ↔ inner.lookup j = some x ∧ unexpired now x = true := by
  rw [retainUnexpired, Dict.lookup_retain, Option.filter_eq_some_iff]

end Denylist

/-- The denylist file and the temporary file it is written through. -/
structure Disk (F : DenylistFormat) where
  path : Option F.File
  tmp : Option F.File

structure RevocationStore (F : DenylistFormat) where
  inner : Denylist
  disk : Disk F

section Store

variable (F : DenylistFormat)

/-- The entries of a file; a missing or malformed file has none. -/
def fileEntries (file : Option F.File) : List RevocationEntry := (file.bind F.fromSlice).getD []

/-- The denylist that a file yields at `now`. -/
def loadDenylist (file : Option F.File) (now : Nat) : Denylist :=
  Dict.collect (((fileEntries F file).filter fun e => unexpired now e.expiresAt).map fun e => (e.jti, e.expiresAt))

variable {F}

theorem fileEntries_toVecPretty (hF : F.RoundTrips) (entries : List RevocationEntry) :
    fileEntries F (some (F.toVecPretty entries)) = entries := by
  rw [fileEntries, Option.bind_some, hF, Option.getD_some]

private theorem lookup_loadDenylist {file : Option F.File} {now : Nat} {j : String} {x : Option Nat}
    (h : (loadDenylist F file now).lookup j = some x) : ⟨j, x⟩ ∈ fileEntries F file ∧ unexpired now x = true := by
  obtain ⟨e, he, heq⟩ := List.mem_map.1 (Dict.mem_of_lookup_collect h)
  obtain ⟨rfl, rfl⟩ := (Prod.mk.injEq ..).mp heq
  exact List.mem_filter.1 he

private theorem isSome_loadDenylist {file : Option F.File} {now : Nat} {j : String} {x : Option Nat}
    (h : ⟨j, x⟩ ∈ fileEntries F file) (hx : unexpired now x = true) :
    ((loadDenylist F file now).lookup j).isSome :=
  Dict.isSome_lookup_collect (List.mem_map.2 ⟨⟨j, x⟩, List.mem_filter.2 ⟨h, hx⟩, rfl⟩)

/-- Where no `jti` is listed twice, a load keeps the unexpired entries. -/
theorem lookup_loadDenylist_iff {file : Option F.File} {now : Nat} {j : String} {x : Option Nat}
    (hnd : ((fileEntries F file).map fun e => e.jti).Nodup) :
    (loadDenylist F file now).lookup j = some x ↔ ⟨j, x⟩ ∈ fileEntries F file ∧ unexpired now x = true := by
  have hnd' : ((((fileEntries F file).filter fun e => unexpired now e.expiresAt).map fun e =>
      (e.jti, e.expiresAt)).map Prod.fst).Nodup := by
    rw [List.map_map]
    exact hnd.sublist (List.filter_sublist.map _)
  refine ⟨lookup_loadDenylist, fun h => (Dict.lookup_collect_eq_some_iff hnd').2 ?_⟩
  exact List.mem_map.2 ⟨⟨j, x⟩, List.mem_filter.2 h, rfl⟩

namespace Disk

def write (d : Disk F) (content : F.File) : Disk F := { d with tmp := some content }

/-- Rename the temporary file over the denylist file; `none` if there is none. -/
def rename (d : Disk F) : Option (Disk F) := d.tmp.map fun content => ⟨some content, none⟩

end Disk

namespace RevocationStore

/-- Start from a denylist file. -/
def load (disk : Disk F) (now : Nat) : RevocationStore F := ⟨loadDenylist F disk.path now, disk⟩

/-- The flag says whether the rename found the temporary file. -/
def persist (s : RevocationStore F) : Bool × RevocationStore F :=
  let disk := s.disk.write (F.toVecPretty s.inner.list)
  match disk.rename with
  | some disk => (true, { s with disk := disk })
  | none => (false, { s with disk := disk })

def revoke (s : RevocationStore F) (jti : String) (expiresAt : Option Nat) : Bool × RevocationStore F :=
  persist { s with inner := s.inner.insert jti expiresAt }

/-- The result is whether the `jti` was present, `none` if it could not be persisted. -/
def unrevoke (s : RevocationStore F) (jti : String) : Option Bool × RevocationStore F :=
  let (ok, s') := persist { s with inner := s.inner.erase jti }
  (if ok then some (s.inner.lookup jti).isSome else none, s')

/-- Drop the expired entries; the result is how many there were. -/
def prune (s : RevocationStore F) (now : Nat) : Option Nat × RevocationStore F :=
  let inner := s.inner.retainUnexpired now
  let pruned := s.inner.entries.length - inner.entries.length
  if 0 < pruned then
    let (ok, s') := persist { s with inner := inner }
    (if ok then some pruned else none, s')
  else (some pruned, { s with inner := inner })

theorem persist_eq (s : RevocationStore F) :
    s.persist = (true, { s with disk := ⟨some (F.toVecPretty s.inner.list), none⟩ }) :=
  rfl

private theorem inner_prune (s : RevocationStore F) (now : Nat) :
    (s.prune now).2.inner = s.inner.retainUnexpired now := by
  simp only [prune]
  split <;> rfl

private theorem disk_prune (s : RevocationStore F) (now : Nat) :
    (s.prune now).2.disk = s.disk ∨
      (s.prune now).2.disk = ⟨some (F.toVecPretty (s.inner.retainUnexpired now).list), none⟩ := by
  simp only [prune]
  split
  · exact Or.inr rfl
  · exact Or.inl rfl

end RevocationStore

end Store

/-! ### A denylist over time -/

/-- The store and the latest time that was read. -/
structure RevocationSys (F : DenylistFormat) where
  store : RevocationStore F
  clock : Nat

inductive RevocationOp where
  | revoke (jti : String) (expiresAt : Option Nat)
  | unrevoke (jti : String)
  | prune
  | restart
  deriving DecidableEq

namespace RevocationSys

open Lts

variable {F : DenylistFormat}

def apply (store : RevocationStore F) (now : Nat) : RevocationOp → RevocationStore F
  | .revoke jti expiresAt => (store.revoke jti expiresAt).2
  | .unrevoke jti => (store.unrevoke jti).2
  | .prune => (store.prune now).2
  | .restart => RevocationStore.load store.disk now

/-- An operation at a time; the clock does not go back. -/
def step (s : RevocationSys F) (a : RevocationOp × Nat) : Option (RevocationSys F) :=
  if s.clock ≤ a.2 then some ⟨apply s.store a.2 a.1, a.2⟩ else none

private theorem step_eq_some {s s' : RevocationSys F} {op : RevocationOp} {now : Nat} (h : s.step (op, now) = some s') :
    s.clock ≤ now ∧ s' = ⟨apply s.store now op, now⟩ := by
  unfold step at h
  split at h
  · rename_i hle
    exact ⟨hle, (Option.some.inj h).symm⟩
  · cases h

/-- The operation leaves the revocation of `j` with expiry `e` in place. -/
def KeepsRevoked (j : String) (e : Nat) : RevocationOp → Prop
  | .revoke jti expiresAt => jti = j → expiresAt = some e
  | .unrevoke jti => jti ≠ j
  | .prune => True
  | .restart => True

/-- The operation drops expired entries. -/
def Sweeps : RevocationOp → Prop
  | .prune => True
  | .restart => True
  | _ => False

/-- What memory and file say about `j`. -/
structure Listed (j : String) (e : Nat) (s : RevocationSys F) : Prop where
  memory : ∀ x, s.store.inner.lookup j = some x → x = some e
  file : ∀ x, ⟨j, x⟩ ∈ fileEntries F s.store.disk.path → x = some e
  saved : (s.store.inner.lookup j).isSome → ⟨j, some e⟩ ∈ fileEntries F s.store.disk.path

private theorem listed_of_persisted (hF : F.RoundTrips) {j : String} {e : Nat} {inner : Denylist} {now : Nat}
    (h : ∀ x, inner.lookup j = some x → x = some e) :
    Listed j e ⟨⟨inner, ⟨some (F.toVecPretty inner.list), none⟩⟩, now⟩ := by
  refine ⟨h, ?_, ?_⟩
  · intro x hx
    rw [fileEntries_toVecPretty hF, Denylist.mem_list] at hx
    exact h x hx
  · intro hs
    obtain ⟨x, hx⟩ := Option.isSome_iff_exists.1 hs
    rw [fileEntries_toVecPretty hF, Denylist.mem_list]
    exact h x hx ▸ hx

private theorem listed_step (hF : F.RoundTrips) {j : String} {e : Nat} {s s' : RevocationSys F}
    {a : RevocationOp × Nat} (ha : KeepsRevoked j e a.1) (h : Listed j e s) (hs : s.step a = some s') :
    Listed j e s' := by
  obtain ⟨op, now⟩ := a
  obtain ⟨-, rfl⟩ := step_eq_some hs
  cases op with
  | revoke jti expiresAt =>
    refine listed_of_persisted hF fun x hx => ?_
    rw [Dict.lookup_insert_ite] at hx
    split at hx
    · rename_i heq
      exact (Option.some.inj hx) ▸ ha heq.symm
    · exact h.memory x hx
  | unrevoke jti =>
    refine listed_of_persisted hF fun x hx => ?_
    rw [Dict.lookup_erase_ite, if_neg (Ne.symm ha)] at hx
    exact h.memory x hx
  | prune =>
    have hmem : ∀ x, (s.store.inner.retainUnexpired now).lookup j = some x → x = some e :=
      fun x hx => h.memory x (Denylist.lookup_retainUnexpired.1 hx).1
    -- a sweep that drops nothing does not write the file
    rcases RevocationStore.disk_prune s.store now with hd | hd
    · refine ⟨?_, ?_, ?_⟩ <;> simp only [apply, RevocationStore.inner_prune, hd]
      · exact hmem
      · exact h.file
      · intro hsome
        obtain ⟨x, hx⟩ := Option.isSome_iff_exists.1 hsome
        exact h.saved (Option.isSome_iff_exists.2 ⟨x, (Denylist.lookup_retainUnexpired.1 hx).1⟩)
    · have hp : Listed j e (⟨⟨_, ⟨some (F.toVecPretty (Denylist.list _)), none⟩⟩, now⟩ : RevocationSys F) :=
        listed_of_persisted hF hmem
      refine ⟨?_, ?_, ?_⟩ <;> simp only [apply, RevocationStore.inner_prune, hd]
      · exact hp.memory
      · exact hp.file
      · exact hp.saved
  | restart =>
    refine ⟨?_, h.file, ?_⟩
    · intro x hx
      exact h.file x (lookup_loadDenylist hx).1
    · intro hsome
      obtain ⟨x, hx⟩ := Option.isSome_iff_exists.1 hsome
      have hx' := (lookup_loadDenylist hx).1
      exact h.file x hx' ▸ hx'

/-- `j` is still on the denylist after a step that keeps its revocation, unless the step swept it. -/
private theorem isRevoked_step {j : String} {e : Nat} {s s' : RevocationSys F} {op : RevocationOp} {now : Nat}
    (ha : KeepsRevoked j e op) (h : Listed j e s) (hs : s.step (op, now) = some s')
    (hj : s.store.inner.isRevoked j = true) :
    s'.store.inner.isRevoked j = true ↔ ¬ (Sweeps op ∧ e ≤ now) := by
  obtain ⟨-, rfl⟩ := step_eq_some hs
  obtain ⟨x, hx⟩ := Option.isSome_iff_exists.1 hj
  obtain rfl := h.memory x hx
  have hexp : unexpired now (some e) = true ↔ ¬ e ≤ now := by simp [unexpired]
  cases op with
  | revoke jti expiresAt =>
    simp only [apply, RevocationStore.revoke, RevocationStore.persist_eq, Denylist.isRevoked, Sweeps, false_and,
      not_false_iff, iff_true, Dict.lookup_insert_ite]
    split
    · rfl
    · exact hj
  | unrevoke jti =>
    simp only [apply, RevocationStore.unrevoke, RevocationStore.persist_eq, Denylist.isRevoked, Sweeps, false_and,
      not_false_iff, iff_true, Dict.lookup_erase_ite, if_neg (Ne.symm ha)]
    exact hj
  | prune =>
    simp only [apply, RevocationStore.inner_prune, Denylist.isRevoked, Sweeps, true_and]
    rw [← hexp, Option.isSome_iff_exists]
    constructor
    · rintro ⟨x, hx'⟩
      obtain ⟨hl, hu⟩ := Denylist.lookup_retainUnexpired.1 hx'
      exact h.memory x hl ▸ hu
    · exact fun hu => ⟨some e, Denylist.lookup_retainUnexpired.2 ⟨hx, hu⟩⟩
  | restart =>
    -- a restart reads the file, from which `load` drops the expired entries
    simp only [apply, RevocationStore.load, Denylist.isRevoked, Sweeps, true_and]
    rw [← hexp, Option.isSome_iff_exists]
    constructor
    · rintro ⟨x, hx'⟩
      obtain ⟨hl, hu⟩ := lookup_loadDenylist hx'
      exact h.file x hl ▸ hu
    · exact fun hu => Option.isSome_iff_exists.1 (isSome_loadDenylist (h.saved hj) hu)

/-! ### Rejection of a revoked token -/

section Rejected

variable {J : JsonWebToken} {keys : JwtKeys} {maxLifetimeSecs : Nat} {j : String} {e : Nat} {token : String}

/-- What is assumed of the expiry check of `decode`: a token is accepted up to the leeway after its expiry, and
time enters in no other way. -/
structure ExpiryChecked (J : JsonWebToken) : Prop where
  sound : ∀ token key v clock claims, decodeClaims J token key v clock = some claims →
    clock - v.leeway ≤ claims.exp
  complete : ∀ token key v clock clock' claims, decodeClaims J token key v clock = some claims →
    clock' - v.leeway ≤ claims.exp → decodeClaims J token key v clock' = some claims

/-- Whatever claims the token decodes to have the given `jti` and expiry. -/
def Carries (J : JsonWebToken) (token : String) (j : String) (e : Nat) : Prop :=
  ∀ key v clock claims, decodeClaims J token key v clock = some claims → claims.jti = some j ∧ claims.exp = e

/-- Every token with the given `jti` and expiry is rejected, now and at every later time. -/
def Rejected (J : JsonWebToken) (keys : JwtKeys) (maxLifetimeSecs : Nat) (j : String) (e : Nat)
    (s : RevocationSys F) : Prop :=
  ∀ token, Carries J token j e → ∀ now clock, s.clock ≤ now → s.clock ≤ clock →
    ∃ err, verifyJwt J token keys s.store.inner.isRevoked now clock maxLifetimeSecs = .error err

private theorem rejected_of_isRevoked {isRevoked : String → Bool} {now clock : Nat} (hc : Carries J token j e)
    (hj : isRevoked j = true) : ∃ err, verifyJwt J token keys isRevoked now clock maxLifetimeSecs = .error err := by
  cases h : verifyJwt J token keys isRevoked now clock maxLifetimeSecs with
  | error err => exact ⟨err, rfl⟩
  | ok v =>
    obtain ⟨claims, ⟨⟨_, _, _, _, _, _, _, _, hd⟩, _, hnr⟩, -⟩ := verifyJwt_eq_ok_iff.1 h
    rw [hnr j (hc _ _ _ _ hd).1] at hj
    cases hj

private theorem rejected_of_late (hJ : ExpiryChecked J) {isRevoked : String → Bool} {now clock : Nat}
    (hc : Carries J token j e) (hlate : e + leewaySecs < clock) :
    ∃ err, verifyJwt J token keys isRevoked now clock maxLifetimeSecs = .error err := by
  cases h : verifyJwt J token keys isRevoked now clock maxLifetimeSecs with
  | error err => exact ⟨err, rfl⟩
  | ok v =>
    obtain ⟨claims, ⟨⟨_, _, _, _, _, _, _, _, hd⟩, _, _⟩, -⟩ := verifyJwt_eq_ok_iff.1 h
    have hexp := hJ.sound _ _ _ _ _ hd
    rw [(hc _ _ _ _ hd).2] at hexp
    simp only [validationFor] at hexp
    omega

/-- A genuine token that is not on the denylist is accepted at its expiry and during the leeway after it. -/
private theorem accepted_in_leeway (hJ : ExpiryChecked J) {isRevoked : String → Bool} {now₀ clock₀ now : Nat}
    {v : VerifiedJwt} (hc : Carries J token j e)
    (hv : verifyJwt J token keys (fun _ => false) now₀ clock₀ maxLifetimeSecs = .ok v)
    (hj : isRevoked j = false) (hlo : e ≤ now) (hhi : now ≤ e + leewaySecs) :
    verifyJwt J token keys isRevoked now now maxLifetimeSecs = .ok v := by
  obtain ⟨claims, ⟨⟨header, pem, key, kind, hh, hp, hk, ha, hd⟩, _, _⟩, rfl⟩ := verifyJwt_eq_ok_iff.1 hv
  obtain ⟨hjti, hexp⟩ := hc _ _ _ _ hd
  refine verifyJwt_eq_ok_iff.2 ⟨claims, ⟨⟨header, pem, key, kind, hh, hp, hk, ha, ?_⟩, ?_, ?_⟩, rfl⟩
  · refine hJ.complete _ _ _ _ _ _ hd ?_
    simp only [validationFor]
    omega
  · omega
  · intro jti h
    rw [hjti, Option.some.injEq] at h
    exact h ▸ hj

/-- A token is rejected for good exactly when it is on the denylist or its leeway is over. -/
private theorem rejected_iff (hJ : ExpiryChecked J) {now₀ clock₀ : Nat} {v : VerifiedJwt} {s : RevocationSys F}
    (hc : Carries J token j e)
    (hv : verifyJwt J token keys (fun _ => false) now₀ clock₀ maxLifetimeSecs = .ok v) :
    Rejected J keys maxLifetimeSecs j e s ↔ s.store.inner.isRevoked j = true ∨ e + leewaySecs < s.clock := by
  constructor
  · intro h
    by_contra hnot
    obtain ⟨hj, hclock⟩ := not_or.1 hnot
    obtain ⟨err, herr⟩ := h token hc (max s.clock e) (max s.clock e) (by omega) (by omega)
    rw [accepted_in_leeway hJ hc hv (by simpa using hj) (by omega) (by omega)] at herr
    cases herr
  · rintro (hj | hlate) token' hc' now clock - hclock
    · exact rejected_of_isRevoked hc' hj
    · exact rejected_of_late hJ hc' (by omega)

/-- After the revocation of a `jti` with the expiry of its tokens, and as long as it is neither unrevoked nor
revoked with another expiry, its tokens stay rejected in every state of a run exactly when no sweep and no restart
of the run falls between the expiry and the end of the leeway. -/
theorem revoked_stays_rejected_iff (J : JsonWebToken) (F : DenylistFormat) (keys : JwtKeys)
    (maxLifetimeSecs : Nat) (j : String) (e : Nat) (token : String) (now₀ clock₀ : Nat) (v : VerifiedJwt)
    (hJ : ExpiryChecked J) (hF : F.RoundTrips) (hc : Carries J token j e)
    (hv : verifyJwt J token keys (fun _ => false) now₀ clock₀ maxLifetimeSecs = .ok v)
    (s s₁ s' : RevocationSys F) (now : Nat) (tr : List (RevocationOp × Nat))
    (h₁ : s.step (.revoke j (some e), now) = some s₁) (hr : run step s₁ tr = some s')
    (htr : ∀ a ∈ tr, KeepsRevoked j e a.1) :
    Always step (Rejected J keys maxLifetimeSecs j e) s₁ tr ↔
      ∀ a ∈ tr, ¬ (Sweeps a.1 ∧ e ≤ a.2 ∧ a.2 ≤ e + leewaySecs) := by
  obtain ⟨-, rfl⟩ := step_eq_some h₁
  have hlisted : Listed j e (⟨apply s.store now (.revoke j (some e)), now⟩ : RevocationSys F) := by
    refine listed_of_persisted hF fun x hx => ?_
    rw [Dict.lookup_insert_ite, if_pos rfl] at hx
    exact (Option.some.inj hx).symm
  have hfirst : Rejected J keys maxLifetimeSecs j e
      (⟨apply s.store now (.revoke j (some e)), now⟩ : RevocationSys F) := by
    refine (rejected_iff hJ hc hv).2 (Or.inl ?_)
    simp [apply, RevocationStore.revoke, RevocationStore.persist_eq, Denylist.isRevoked]
  rw [← along_iff_forall_mem hr]
  refine always_iff_along (fun s a s' ha hI hs => listed_step hF ha hI hs) ?_ htr hlisted hfirst hr
  rintro s ⟨op, now⟩ s' ha hI hQ hs
  have hclock : s.clock ≤ now ∧ s'.clock = now := by
    obtain ⟨hle, rfl⟩ := step_eq_some hs
    exact ⟨hle, rfl⟩
  rw [rejected_iff hJ hc hv] at hQ ⊢
  rw [hclock.2]
  -- the token is still listed, or already past the leeway
  rcases hQ with hj | hlate
  · rw [isRevoked_step ha hI hs hj]
    by_cases hsw : Sweeps op
    · simp only [hsw, true_and]
      omega
    · simp [hsw]
  · constructor
    · intro _ hbad
      omega
    · intro _
      exact Or.inr (by omega)

/-! A token with `jti` `jti-1` and expiry 1000, under one EC key. -/

def sampleClaims : Claims :=
  { sub := "100.64.0.5", caps := ["containers.list"], exp := 1000, jti := some "jti-1", teamId := some "7" }

def samplePayload : Json.Value :=
  .object [("aud", .string "coold"), ("sub", .string "100.64.0.5"), ("caps", .array [.string "containers.list"]),
    ("exp", .number (.int 1000)), ("jti", .string "jti-1"), ("team_id", .number (.int 7))]

def sampleJwt : JsonWebToken where
  Key := Unit
  decodeHeader token := if token = "token-1" then some ⟨.es256, none⟩ else none
  fromEcPem pem := if pem = "ec-pem" then some () else none
  fromRsaPem _ := none
  decode token _ v clock :=
    if token = "token-1" ∧ v.alg = .es256 ∧ v.aud = ["coold"] ∧ clock - v.leeway ≤ 1000 then some samplePayload
    else none

def sampleKeys : JwtKeys := ⟨"ec-pem", ∅⟩

/-- A file that holds the list of entries itself. -/
def sampleFormat : DenylistFormat := ⟨List RevocationEntry, id, some⟩

theorem roundTrips_sampleFormat : sampleFormat.RoundTrips := fun _ => rfl

private theorem deserialize_samplePayload : Claims.deserialize samplePayload = some sampleClaims := by decide

private theorem decodeClaims_sampleJwt {token : String} {key : Unit} {v : Validation} {clock : Nat} {claims : Claims} :
    decodeClaims sampleJwt token key v clock = some claims ↔
      (token = "token-1" ∧ v.alg = .es256 ∧ v.aud = ["coold"] ∧ clock - v.leeway ≤ 1000) ∧ sampleClaims = claims := by
  simp only [decodeClaims, sampleJwt]
  split
  · rename_i h
    simp [h, deserialize_samplePayload]
  · rename_i h
    constructor
    · rintro ⟨⟩
    · rintro ⟨h', -⟩
      exact absurd h' h

private theorem expiryChecked_sampleJwt : ExpiryChecked sampleJwt where
  sound token key v clock claims h := by
    obtain ⟨⟨-, -, -, hclock⟩, rfl⟩ := decodeClaims_sampleJwt.1 h
    exact hclock
  complete token key v clock clock' claims h hclock' := by
    obtain ⟨⟨htok, halg, haud, -⟩, rfl⟩ := decodeClaims_sampleJwt.1 h
    exact decodeClaims_sampleJwt.2 ⟨⟨htok, halg, haud, hclock'⟩, rfl⟩

private theorem carries_sampleJwt (token : String) : Carries sampleJwt token "jti-1" 1000 := by
  intro key v clock claims h
  obtain ⟨-, rfl⟩ := decodeClaims_sampleJwt.1 h
  exact ⟨rfl, rfl⟩

/-- An empty store that was never persisted. -/
def sampleStore : RevocationSys sampleFormat := ⟨⟨∅, ⟨none, none⟩⟩, 0⟩

/-- The token is revoked with its expiry, the sweep at its expiry drops the entry, and it is accepted again. -/
theorem swept_token_accepted :
    ExpiryChecked sampleJwt ∧ sampleFormat.RoundTrips ∧ Carries sampleJwt "token-1" "jti-1" 1000 ∧
      ∃ s : RevocationSys sampleFormat,
        run step sampleStore [(.revoke "jti-1" (some 1000), 10), (.prune, 1000)] = some s ∧
          verifyJwt sampleJwt "token-1" sampleKeys s.store.inner.isRevoked 1000 1000 0 =
            .ok ⟨"100.64.0.5", ["containers.list"], 1000, some "7"⟩ :=
  ⟨expiryChecked_sampleJwt, roundTrips_sampleFormat, carries_sampleJwt "token-1", _, rfl, rfl⟩

/-- The same token stays rejected when the sweep comes after the leeway. -/
theorem late_sweep_keeps_rejected :
    ∃ s₁ s' : RevocationSys sampleFormat, sampleStore.step (.revoke "jti-1" (some 1000), 10) = some s₁ ∧
      run step s₁ [(.prune, 1061)] = some s' ∧
      Always step (Rejected sampleJwt sampleKeys 0 "jti-1" 1000) s₁ [(.prune, 1061)] := by
  refine ⟨_, _, rfl, rfl, ?_⟩
  refine (revoked_stays_rejected_iff sampleJwt sampleFormat sampleKeys 0 "jti-1" 1000 "token-1" 10 10
    ⟨"100.64.0.5", ["containers.list"], 1000, some "7"⟩ expiryChecked_sampleJwt roundTrips_sampleFormat
    (carries_sampleJwt "token-1") rfl sampleStore _ _ 10 [(.prune, 1061)] rfl rfl ?_).2 ?_
  · simp [KeepsRevoked]
  · simp [leewaySecs]

end Rejected

end RevocationSys

end Coold.Flux
