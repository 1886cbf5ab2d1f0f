import Coold.Flux.Revocation

/-!
# Concurrent changes of the denylist

`revoke`, `unrevoke` and `prune` change the map under its lock, release the lock, take a snapshot of the map, write
the snapshot to the one temporary file that all calls share, and rename that file over the denylist file.
`DenylistSys.step` is one of these steps of one call; every interleaving of any number of calls is a run of it.

The state also records the order of the steps: how often the map was changed, and after how many changes each call,
and the writer of the temporary file, took its snapshot.  A snapshot is current when the map was not changed since.
The file is behind the map only while some call has still to bring it up to date (`CatchingUp`), as long as no rename
puts a snapshot in place that is not current after the last call that could replace it has passed (`RenameMeets`).
-/

namespace Coold.Flux

open Lts

inductive DenylistCall where
  | revoke (jti : String) (expiresAt : Option Nat)
  | unrevoke (jti : String)
  | prune (now : Nat)
  deriving DecidableEq

/-- The change under the lock; the flag says whether the call goes on to persist. -/
def DenylistCall.mutate (inner : Denylist) : DenylistCall → Denylist × Bool
  | .revoke jti expiresAt => (inner.insert jti expiresAt, true)
  | .unrevoke jti => (inner.erase jti, true)
  | .prune now =>
    (inner.retainUnexpired now, 0 < inner.entries.length - (inner.retainUnexpired now).entries.length)

/-- The call as a whole. -/
def DenylistCall.apply {F : DenylistFormat} (store : RevocationStore F) : DenylistCall → RevocationStore F
  | .revoke jti expiresAt => (store.revoke jti expiresAt).2
  | .unrevoke jti => (store.unrevoke jti).2
  | .prune now => (store.prune now).2

/-- The step that a call does next, or what it returned. -/
inductive CallState where
  | idle
  | listing
  | writing (snapshot : List RevocationEntry)
  | renaming
  | returned (ok : Bool)
  deriving DecidableEq

/-- The store and the calls, and the order of their steps: the number of changes of the map, that number when each
call took its snapshot, and when the snapshot in the temporary file was taken. -/
structure DenylistSys (F : DenylistFormat) where
  store : RevocationStore F
  calls : Nat → CallState
  changes : Nat
  listedAt : Nat → Nat
  tmpListedAt : Option Nat

inductive DenylistOp where
  | mutate (i : Nat) (call : DenylistCall)
  | list (i : Nat)
  | write (i : Nat)
  | rename (i : Nat)
  deriving DecidableEq

namespace DenylistSys

variable {F : DenylistFormat}

/-- A store as `load` leaves it, before any call. -/
def start (disk : Disk F) (now : Nat) : DenylistSys F where
  store := RevocationStore.load disk now
  calls _ := .idle
  changes := 0
  listedAt _ := 0
  tmpListedAt := none

def setCall (s : DenylistSys F) (i : Nat) (c : CallState) : Nat → CallState := Function.update s.calls i c

def step (s : DenylistSys F) : DenylistOp → Option (DenylistSys F)
  | .mutate i call =>
    match s.calls i with
    | .idle =>
      some { s with
        store := { s.store with inner := (call.mutate s.store.inner).1 }
        calls := s.setCall i (if (call.mutate s.store.inner).2 then .listing else .returned true)
        changes := if (call.mutate s.store.inner).2 then s.changes + 1 else s.changes }
    | _ => none
  | .list i =>
    match s.calls i with
    | .listing =>
      some { s with
        calls := s.setCall i (.writing s.store.inner.list)
        listedAt := Function.update s.listedAt i s.changes }
    | _ => none
  | .write i =>
    match s.calls i with
    | .writing snapshot =>
      some { s with
        store := { s.store with disk := s.store.disk.write (F.toVecPretty snapshot) }
        calls := s.setCall i .renaming
        tmpListedAt := some (s.listedAt i) }
    | _ => none
  | .rename i =>
    match s.calls i with
    | .renaming =>
      match s.store.disk.rename with
      | some disk => some { s with store := { s.store with disk := disk }, calls := s.setCall i (.returned true) }
      | none => some { s with calls := s.setCall i (.returned false) }
    | _ => none

/-- No call is under way. -/
def Quiescent (s : DenylistSys F) : Prop := ∀ i, s.calls i = .idle ∨ ∃ ok, s.calls i = .returned ok

/-- Without other calls, the steps of a call add up to the call as a whole. -/
theorem run_alone (s : DenylistSys F) (i : Nat) (call : DenylistCall) (hi : s.calls i = .idle) :
    ∃ tr s', run step s tr = some s' ∧ s'.store = call.apply s.store ∧
      s'.calls = s.setCall i (.returned true) := by
  have hup : ∀ (f : Nat → CallState) a b, Function.update (Function.update f i a) i b = Function.update f i b :=
    fun f a b => Function.update_idem a b f
  by_cases hp : (call.mutate s.store.inner).2 = true
  · have hstore : call.apply s.store =
        (RevocationStore.persist { s.store with inner := (call.mutate s.store.inner).1 }).2 := by
      cases call with
      | revoke jti expiresAt => rfl
      | unrevoke jti => rfl
      | prune now =>
        simp only [DenylistCall.mutate, decide_eq_true_eq] at hp
        simp only [DenylistCall.apply, RevocationStore.prune, if_pos hp]
        rfl
    refine ⟨[.mutate i call, .list i, .write i, .rename i],
      { store := call.apply s.store
        calls := s.setCall i (.returned true)
        changes := s.changes + 1
        listedAt := Function.update s.listedAt i (s.changes + 1)
        tmpListedAt := some (s.changes + 1) }, ?_, rfl, rfl⟩
    simp [run, step, hi, hp, setCall, hstore, Disk.rename, Disk.write, RevocationStore.persist_eq, hup]
  · refine ⟨[.mutate i call], ?_⟩
    cases call with
    | revoke jti expiresAt => exact absurd rfl hp
    | unrevoke jti => exact absurd rfl hp
    | prune now =>
      have hp' := hp
      simp only [DenylistCall.mutate, decide_eq_true_eq] at hp'
      simp only [run, step, hi, if_neg hp, DenylistCall.apply, RevocationStore.prune, if_neg hp']
      exact ⟨_, rfl, rfl, rfl⟩

/-! ### Agreement of file and memory -/

/-- A load of the file at any time from `t₀` on yields the unexpired entries of the map. -/
def Agrees (t₀ : Nat) (file : Option F.File) (inner : Denylist) : Prop :=
  ∀ now, t₀ ≤ now → ∀ j, (loadDenylist F file now).lookup j = (inner.retainUnexpired now).lookup j

private theorem agrees_list (hF : F.RoundTrips) (t₀ : Nat) (inner : Denylist) :
    Agrees t₀ (some (F.toVecPretty inner.list)) inner := by
  intro now _ j
  have hnd : ((fileEntries F (some (F.toVecPretty inner.list))).map fun e => e.jti).Nodup := by
    rw [fileEntries_toVecPretty hF]
    exact inner.nodup_map_jti_list
  apply Option.ext
  intro x
  rw [lookup_loadDenylist_iff hnd, Denylist.lookup_retainUnexpired, fileEntries_toVecPretty hF, Denylist.mem_list]

private theorem unexpired_mono {t₀ now : Nat} (h : t₀ ≤ now) {x : Option Nat} (hx : unexpired now x = true) :
    unexpired t₀ x = true := by
  cases x with
  | none => rfl
  | some e =>
    simp only [unexpired, Option.all_some, decide_eq_true_eq] at hx ⊢
    omega

/-- What `load` keeps of a file agrees with the file. -/
private theorem agrees_load {file : Option F.File} (hnd : ((fileEntries F file).map fun e => e.jti).Nodup) (t₀ : Nat) :
    Agrees t₀ file (loadDenylist F file t₀) := by
  intro now hnow j
  apply Option.ext
  intro x
  rw [lookup_loadDenylist_iff hnd, Denylist.lookup_retainUnexpired, lookup_loadDenylist_iff hnd]
  constructor
  · rintro ⟨hm, hx⟩
    exact ⟨⟨hm, unexpired_mono hnow hx⟩, hx⟩
  · rintro ⟨⟨hm, -⟩, hx⟩
    exact ⟨hm, hx⟩

private theorem agrees_congr {t₀ : Nat} {file : Option F.File} {inner inner' : Denylist}
    (h : ∀ j, inner'.lookup j = inner.lookup j) (ha : Agrees t₀ file inner) : Agrees t₀ file inner' := by
  intro now hnow j
  rw [ha now hnow j]
  apply Option.ext
  intro x
  rw [Denylist.lookup_retainUnexpired, Denylist.lookup_retainUnexpired, h]

/-- A call that does not go on to persist has not changed the map. -/
private theorem lookup_mutate {inner : Denylist} {call : DenylistCall} (h : (call.mutate inner).2 = false)
    (j : String) : (call.mutate inner).1.lookup j = inner.lookup j := by
  cases call with
  | revoke jti expiresAt => cases h
  | unrevoke jti => cases h
  | prune now =>
    simp only [DenylistCall.mutate, decide_eq_false_iff_not] at h
    have hsub : (inner.retainUnexpired now).entries.Sublist inner.entries := List.filter_sublist
    have heq := hsub.eq_of_length_le (by omega)
    apply Option.ext
    intro x
    rw [DenylistCall.mutate, Dict.lookup_eq_some_iff_mem, Dict.lookup_eq_some_iff_mem, heq]

/-! ### Durability -/

/-- Some call has still to take its snapshot, or has one taken after the last change that it has still to write. -/
def CatchingUp (s : DenylistSys F) : Prop :=
  ∃ i, s.calls i = .listing ∨ (∃ snapshot, s.calls i = .writing snapshot) ∧ s.listedAt i = s.changes

/-- A rename that finds the temporary file puts a snapshot in place that was taken after the last change, or another
call will. -/
def RenameMeets (s : DenylistSys F) : DenylistOp → Prop
  | .rename i => s.calls i = .renaming → s.store.disk.tmp.isSome →
      s.tmpListedAt = some s.changes ∨ s.CatchingUp
  | _ => True

/-- What holds between the order of the steps and the contents: snapshots taken after the last change agree with the
map, and the file does, or some call will still replace it. -/
structure Inv (t₀ : Nat) (s : DenylistSys F) : Prop where
  listedAt_le : ∀ i, s.listedAt i ≤ s.changes
  tmpListedAt_le : ∀ n, s.tmpListedAt = some n → n ≤ s.changes
  writing : ∀ i snapshot, s.calls i = .writing snapshot → s.listedAt i = s.changes →
    Agrees t₀ (some (F.toVecPretty snapshot)) s.store.inner
  tmp : ∀ content, s.store.disk.tmp = some content → s.tmpListedAt = some s.changes →
    Agrees t₀ (some content) s.store.inner
  path : Agrees t₀ s.store.disk.path s.store.inner ∨ s.CatchingUp ∨
    (∃ i, s.calls i = .renaming) ∧ s.store.disk.tmp.isSome

private theorem setCall_of_ne {s : DenylistSys F} {i k : Nat} (c : CallState) (h : k ≠ i) :
    s.setCall i c k = s.calls k := by
  rw [setCall, Function.update_of_ne h]

private theorem setCall_self {s : DenylistSys F} {i : Nat} (c : CallState) : s.setCall i c i = c := by
  rw [setCall, Function.update_self]

/-- A step of a call that is not about to list or write leaves the calls that are, unless the map changes. -/
private theorem catchingUp_setCall {s : DenylistSys F} {i : Nat} {c : CallState} {store : RevocationStore F}
    (h : s.CatchingUp) (hi : s.calls i = .idle ∨ s.calls i = .renaming) :
    CatchingUp { s with store := store, calls := s.setCall i c } := by
  obtain ⟨k, hk⟩ := h
  have hne : k ≠ i := by
    rintro rfl
    rcases hi with hi | hi <;> rcases hk with hk | ⟨⟨_, hk⟩, -⟩ <;> rw [hi] at hk <;> cases hk
  refine ⟨k, ?_⟩
  simp only [setCall_of_ne c hne]
  exact hk

/-- A call that is in another state than the one that the call `i` was put in was there before. -/
private theorem calls_of_setCall {s : DenylistSys F} {i k : Nat} {c c' : CallState} (h : s.setCall i c k = c')
    (hc : c ≠ c') : s.calls k = c' := by
  by_cases hk : k = i
  · rw [hk, setCall_self] at h
    exact absurd h hc
  · rwa [setCall_of_ne c hk] at h

private theorem inv_mutate {t₀ : Nat} {s : DenylistSys F} {i : Nat} (call : DenylistCall) (h : Inv t₀ s)
    (hi : s.calls i = .idle) : Inv t₀ { s with
      store := { s.store with inner := (call.mutate s.store.inner).1 }
      calls := s.setCall i (if (call.mutate s.store.inner).2 then .listing else .returned true)
      changes := if (call.mutate s.store.inner).2 then s.changes + 1 else s.changes } := by
  cases hp : (call.mutate s.store.inner).2 with
  | true =>
    -- no snapshot that was taken before is one of the new map
    have hold : ∀ k, s.listedAt k < s.changes + 1 := fun k => Nat.lt_succ_of_le (h.listedAt_le k)
    have htmp : ∀ n, s.tmpListedAt = some n → n < s.changes + 1 := fun n hn =>
      Nat.lt_succ_of_le (h.tmpListedAt_le n hn)
    refine ⟨fun k => (hold k).le, fun n hn => (htmp n hn).le, fun k _ _ hk => absurd hk (hold k).ne,
      fun _ _ hn => absurd rfl (htmp _ hn).ne, Or.inr (Or.inl ⟨i, Or.inl ?_⟩)⟩
    simp only [setCall_self, if_true]
  | false =>
    have hlk := lookup_mutate hp
    refine ⟨h.listedAt_le, h.tmpListedAt_le, fun k snapshot hk hat => ?_, fun content hc hat => ?_, ?_⟩
    · exact agrees_congr hlk (h.writing k snapshot (calls_of_setCall hk (by simp)) hat)
    · exact agrees_congr hlk (h.tmp content hc hat)
    · rcases h.path with hpath | hcatch | ⟨⟨k, hk⟩, htmp⟩
      · exact Or.inl (agrees_congr hlk hpath)
      · exact Or.inr (Or.inl (catchingUp_setCall hcatch (Or.inl hi)))
      · refine Or.inr (Or.inr ⟨⟨k, ?_⟩, htmp⟩)
        have hne : k ≠ i := by
          rintro rfl
          rw [hi] at hk
          cases hk
        simp only [setCall_of_ne _ hne, hk]

private theorem inv_list (hF : F.RoundTrips) {t₀ : Nat} {s : DenylistSys F} {i : Nat} (h : Inv t₀ s) : Inv t₀ { s with
      calls := s.setCall i (.writing s.store.inner.list)
      listedAt := Function.update s.listedAt i s.changes } := by
  -- the snapshot of `i` is the map, and those of the others are what they were
  have hself : Function.update s.listedAt i s.changes i = s.changes := Function.update_self ..
  have hne : ∀ k, k ≠ i → Function.update s.listedAt i s.changes k = s.listedAt k := fun k hk =>
    Function.update_of_ne hk ..
  refine ⟨fun k => ?_, h.tmpListedAt_le, fun k snapshot hk hat => ?_, h.tmp,
    Or.inr (Or.inl ⟨i, Or.inr ⟨⟨_, setCall_self _⟩, hself⟩⟩)⟩
  · show Function.update s.listedAt i s.changes k ≤ s.changes
    by_cases hk : k = i
    · rw [hk, hself]
    · rw [hne k hk]
      exact h.listedAt_le k
  · by_cases hki : k = i
    · obtain rfl : s.store.inner.list = snapshot := by
        rw [hki] at hk
        simpa [setCall_self] using hk
      exact agrees_list hF t₀ _
    · have hk' : s.calls k = .writing snapshot := by simpa [setCall_of_ne _ hki] using hk
      exact h.writing k snapshot hk' ((hne k hki).symm.trans hat)

private theorem inv_write {t₀ : Nat} {s : DenylistSys F} {i : Nat} {snapshot : List RevocationEntry} (h : Inv t₀ s)
    (hi : s.calls i = .writing snapshot) : Inv t₀ { s with
      store := { s.store with disk := s.store.disk.write (F.toVecPretty snapshot) }
      calls := s.setCall i .renaming
      tmpListedAt := some (s.listedAt i) } := by
  refine ⟨h.listedAt_le, fun n hn => ?_, fun k snapshot' hk hat => ?_, fun content hc hat => ?_,
    Or.inr (Or.inr ⟨⟨i, setCall_self _⟩, rfl⟩)⟩
  · rw [← Option.some.inj hn]
    exact h.listedAt_le i
  · exact h.writing k snapshot' (calls_of_setCall hk (by simp)) hat
  · rw [← Option.some.inj hc]
    exact h.writing i snapshot hi (Option.some.inj hat)

private theorem inv_rename {t₀ : Nat} {s : DenylistSys F} {i : Nat} (h : Inv t₀ s) (hm : RenameMeets s (.rename i))
    (hi : s.calls i = .renaming) {disk : Disk F} (hd : s.store.disk.rename = some disk) :
    Inv t₀ { s with store := { s.store with disk := disk }, calls := s.setCall i (.returned true) } := by
  obtain ⟨content, htmp, rfl⟩ : ∃ content, s.store.disk.tmp = some content ∧
      (⟨some content, none⟩ : Disk F) = disk := by
    simpa [Disk.rename] using hd
  refine ⟨h.listedAt_le, h.tmpListedAt_le, fun k snapshot hk hat => ?_, fun _ hc => absurd hc (by simp), ?_⟩
  · exact h.writing k snapshot (calls_of_setCall hk (by simp)) hat
  · -- what becomes the file is a snapshot of the map, or another call will write it again
    rcases hm hi (by rw [htmp]; rfl) with hat | hcatch
    · exact Or.inl (h.tmp content htmp hat)
    · exact Or.inr (Or.inl (catchingUp_setCall hcatch (Or.inr hi)))

private theorem inv_rename_missing {t₀ : Nat} {s : DenylistSys F} {i : Nat} (h : Inv t₀ s)
    (hi : s.calls i = .renaming) (htmp : s.store.disk.tmp = none) :
    Inv t₀ { s with calls := s.setCall i (.returned false) } := by
  refine ⟨h.listedAt_le, h.tmpListedAt_le, fun k snapshot hk hat => ?_, h.tmp, ?_⟩
  · exact h.writing k snapshot (calls_of_setCall hk (by simp)) hat
  · rcases h.path with hpath | hcatch | ⟨-, hsome⟩
    · exact Or.inl hpath
    · exact Or.inr (Or.inl (catchingUp_setCall hcatch (Or.inr hi)))
    · rw [htmp] at hsome
      cases hsome

private theorem inv_step (hF : F.RoundTrips) {t₀ : Nat} {s s' : DenylistSys F} {a : DenylistOp} (h : Inv t₀ s)
    (ha : RenameMeets s a) (hs : s.step a = some s') : Inv t₀ s' := by
  cases a with
  | mutate i call =>
    simp only [step] at hs
    split at hs
    · rename_i hi
      exact Option.some.inj hs ▸ inv_mutate call h hi
    · cases hs
  | list i =>
    simp only [step] at hs
    split at hs
    · exact Option.some.inj hs ▸ inv_list hF h
    · cases hs
  | write i =>
    simp only [step] at hs
    split at hs
    · rename_i hi
      exact Option.some.inj hs ▸ inv_write h hi
    · cases hs
  | rename i =>
    simp only [step] at hs
    split at hs
    · rename_i hi
      split at hs
      · rename_i disk hd
        exact Option.some.inj hs ▸ inv_rename h ha hi hd
      · rename_i hd
        have htmp : s.store.disk.tmp = none := by simpa [Disk.rename] using hd
        exact Option.some.inj hs ▸ inv_rename_missing h hi htmp
    · cases hs

/-- `load` leaves a store whose map is what its file holds. -/
private theorem inv_start {disk : Disk F} {t₀ : Nat}
    (hnd : ((fileEntries F disk.path).map fun e => e.jti).Nodup) : Inv t₀ (start disk t₀) where
  listedAt_le _ := le_rfl
  tmpListedAt_le _ hn := by cases hn
  writing _ _ hk := by cases hk
  tmp _ _ hat := by cases hat
  path := Or.inl (agrees_load hnd t₀)

private theorem agrees_of_quiescent {t₀ : Nat} {s : DenylistSys F} (h : Inv t₀ s) (hq : s.Quiescent) :
    Agrees t₀ s.store.disk.path s.store.inner := by
  rcases h.path with hpath | ⟨k, hk⟩ | ⟨⟨k, hk⟩, -⟩
  · exact hpath
  · rcases hq k with hi | ⟨ok, hi⟩ <;> rcases hk with hk | ⟨⟨_, hk⟩, -⟩ <;> rw [hi] at hk <;> cases hk
  · rcases hq k with hi | ⟨ok, hi⟩ <;> rw [hi] at hk <;> cases hk

/-- In every run of concurrent calls all of whose renames put a snapshot in place that was taken after the last change
of the map, or leave that to another call, once no call is under way a load of the file at any later time yields the
unexpired entries of the denylist in memory. -/
theorem denylist_durable (F : DenylistFormat) (hF : F.RoundTrips) (disk : Disk F) (t₀ : Nat)
    (hnd : ((fileEntries F disk.path).map fun e => e.jti).Nodup) (tr : List DenylistOp) (s : DenylistSys F)
    (hr : run step (start disk t₀) tr = some s) (hmeets : Along step RenameMeets (start disk t₀) tr)
    (hq : s.Quiescent) (now : Nat) (hnow : t₀ ≤ now) (j : String) :
    (loadDenylist F s.store.disk.path now).lookup j = (s.store.inner.retainUnexpired now).lookup j := by
  have hinv : Inv t₀ s := invariant (fun _ _ _ h ha hs => inv_step hF h ha hs) (inv_start hnd) hmeets hr
  exact agrees_of_quiescent hinv hq now hnow j

open RevocationSys (sampleFormat roundTrips_sampleFormat)

/-- A store with no file yet. -/
def freshStart : DenylistSys sampleFormat := start ⟨none, none⟩ 0

/-- One revocation, with no other call beside it, is on disk once it has returned. -/
theorem single_revoke_durable :
    ∃ s : DenylistSys sampleFormat,
      run step freshStart [.mutate 0 (.revoke "a" none), .list 0, .write 0, .rename 0] = some s ∧
      s.calls 0 = .returned true ∧
      (loadDenylist sampleFormat s.store.disk.path 7).lookup "a" =
        (s.store.inner.retainUnexpired 7).lookup "a" := by
  refine ⟨_, rfl, rfl, denylist_durable sampleFormat roundTrips_sampleFormat ⟨none, none⟩ 0 List.nodup_nil
    [.mutate 0 (.revoke "a" none), .list 0, .write 0, .rename 0] _ rfl ?_ ?_ 7 (by decide) "a"⟩
  · refine ⟨trivial, fun s₁ h₁ => ⟨trivial, fun s₂ h₂ => ⟨trivial, fun s₃ h₃ => ⟨?_, fun _ _ => trivial⟩⟩⟩⟩
    obtain rfl := Option.some.inj h₁
    obtain rfl := Option.some.inj h₂
    obtain rfl := Option.some.inj h₃
    exact fun _ _ => Or.inl rfl
  · intro i
    by_cases hi : i = 0
    · subst hi
      exact Or.inr ⟨true, rfl⟩
    · refine Or.inl ?_
      simp [setCall, start, Function.update, hi]

/-- Two revocations: the first takes its snapshot before the second changes the map, and renames it over the file
of the second.  Both return `Ok`, and the second revocation is not on disk. -/
theorem revocation_lost_on_disk :
    ∃ s : DenylistSys sampleFormat,
      run step freshStart
        [.mutate 0 (.revoke "a" none), .list 0, .mutate 1 (.revoke "b" none), .list 1, .write 1, .rename 1, .write 0,
          .rename 0] = some s ∧
      s.Quiescent ∧ s.calls 0 = .returned true ∧ s.calls 1 = .returned true ∧
      (s.store.inner.retainUnexpired 7).lookup "b" = some none ∧
      (loadDenylist sampleFormat s.store.disk.path 7).lookup "b" = none := by
  refine ⟨_, rfl, ?_, rfl, rfl, rfl, rfl⟩
  intro i
  by_cases h0 : i = 0
  · subst h0
    exact Or.inr ⟨true, rfl⟩
  · by_cases h1 : i = 1
    · subst h1
      exact Or.inr ⟨true, rfl⟩
    · refine Or.inl ?_
      simp [setCall, freshStart, start, Function.update, h0, h1]

end DenylistSys

end Coold.Flux
