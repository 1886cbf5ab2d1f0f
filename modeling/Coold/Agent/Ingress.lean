import Coold.Lib.Dict
import Coold.Lib.Fs
import Coold.Lib.Str
import Coold.Proto

/-!
# Applying an ingress configuration

`applyCaddyIngress` writes the configurations of the apps into the directory that Caddy reads, removes those that are not
asked for any more, writes the main file next to its place, has it checked, and only then moves it into its place.

When the check succeeds the directory holds what was asked for (`installed_of_ok`).  Everything up to the check succeeds
exactly when no step fails (`Prepared`, by `prepareCaddyIngress_ok_iff`).  When a step fails, the main file is as it was,
and the directory is exactly when the writes up to then put nothing new into it and no stale file was come to
(`ingress_atomic_iff`).
-/

namespace Coold.Agent.CaddyIngress

/-- The directory of ingress: the main file, the one next to it, and the files of the apps. -/
structure Ingress where
  caddyfile : Option String
  temporary : Option String
  apps : Dict String String

structure Request where
  caddyfile : String
  apps : List IngressAppConfig
  meshNetwork : String

def isValidPodmanNetworkName (value : String) : Bool :=
  value ≠ "" && value.utf8ByteSize ≤ 128 &&
    value.toList.all fun c => c.isAlphanum || c == '.' || c == '_' || c == '-'

def caddyAppFileName (value : String) : Except String String :=
  if value = "" ∨ 128 < value.utf8ByteSize ∨ ¬ (value.toList.all fun c => c.isAlphanum || c == '_' || c == '-') then
    .error "invalid Caddy app file name"
  else .ok (value ++ ".caddy")

/-- What is checked before anything is written. -/
def checkRequest (request : Request) : Except String Unit :=
  if Str.trim request.caddyfile = "" then .error "caddyfile is empty"
  else if 256 * 1024 < request.caddyfile.utf8ByteSize ∨
      request.apps.any fun app => 256 * 1024 < app.config.utf8ByteSize then .error "caddyfile is too large"
  else if !isValidPodmanNetworkName request.meshNetwork then .error "invalid mesh network name"
  else .ok ()

/-- What the world makes of the steps: whether the directories can be created, what becomes of the writes, whether the
entries of the directory of the apps can be read, in which order they come, and whether the files that are removed can be,
and the rest. -/
structure IngressIo where
  createApps : Bool
  createData : Bool
  createConfig : Bool
  writeApp : Nat → WriteReply String
  readDir : Bool
  order : List String → List String
  perm_order : ∀ names, (order names).Perm names
  nextEntry : Nat → Bool
  remove : Nat → Bool
  writeTemporary : WriteReply String
  pull : Bool
  validate : Bool
  install : Bool
  start : Except String String

def createDirs (io : IngressIo) : Except String Unit :=
  if !io.createApps then .error "create Caddy app config directory"
  else if !io.createData then .error "create Caddy data directory"
  else if !io.createConfig then .error "create Caddy config directory"
  else .ok ()

/-- Write the configurations one after the other; `i` counts the writes.  The names of the files are the answer. -/
def writeApps (io : IngressIo) : (i : Nat) → List IngressAppConfig → Dict String String →
    Except String (List String) × Dict String String
  | _, [], files => (.ok [], files)
  | i, app :: apps, files =>
    match caddyAppFileName app.name with
    | .error e => (.error e, files)
    | .ok fileName =>
      match io.writeApp i with
      | .unopened => (.error "write Caddy app config", files)
      | .cut left => (.error "write Caddy app config", files.insert fileName left)
      | .written =>
        match writeApps io (i + 1) apps (files.insert fileName app.config) with
        | (.error e, files) => (.error e, files)
        | (.ok expected, files) => (.ok (fileName :: expected), files)

/-- The name of a configuration of an app. -/
def isCaddyFile (fileName : String) : Bool := ".caddy".toList.isSuffixOf fileName.toList

/-- A file of an app, which the directory holds without its being asked for. -/
def isStale (expected : List String) (fileName : String) : Bool := isCaddyFile fileName && fileName ∉ expected

/-- Remove the stale ones of the entries; `i` counts the entries. -/
def removeStale (io : IngressIo) (expected : List String) : (i : Nat) → List String → Dict String String →
    Except String Unit × Dict String String
  | i, [], files => (if io.nextEntry i then .ok () else .error "read Caddy app config", files)
  | i, fileName :: entries, files =>
    if !io.nextEntry i then (.error "read Caddy app config", files)
    else if !isStale expected fileName then removeStale io expected (i + 1) entries files
    else if !io.remove i then (.error "remove stale Caddy app config", files)
    else removeStale io expected (i + 1) entries (files.erase fileName)

/-- All the steps up to the check of the main file. -/
def prepareCaddyIngress (request : Request) (io : IngressIo) (ingress : Ingress) : Except String Unit × Ingress :=
  match checkRequest request with
  | .error e => (.error e, ingress)
  | .ok () =>
    match createDirs io with
    | .error e => (.error e, ingress)
    | .ok () =>
      match writeApps io 0 request.apps ingress.apps with
      | (.error e, files) => (.error e, { ingress with apps := files })
      | (.ok expected, files) =>
        if !io.readDir then (.error "read Caddy app config directory", { ingress with apps := files })
        else
          match removeStale io expected 0 (io.order files.keys) files with
          | (.error e, files) => (.error e, { ingress with apps := files })
          | (.ok (), files) =>
            match io.writeTemporary with
            | .unopened => (.error "write temporary Caddyfile", { ingress with apps := files })
            | .cut left =>
              (.error "write temporary Caddyfile", { ingress with apps := files, temporary := some left })
            | .written =>
              let ingress := { ingress with apps := files, temporary := some request.caddyfile }
              if !io.pull then (.error "pull Caddy image", ingress)
              else if !io.validate then (.error "validate Caddyfile", ingress)
              else (.ok (), ingress)

def applyCaddyIngress (request : Request) (io : IngressIo) (ingress : Ingress) : Except String String × Ingress :=
  match prepareCaddyIngress request io ingress with
  | (.error e, ingress) => (.error e, ingress)
  | (.ok (), ingress) =>
    if !io.install then (.error "install Caddyfile", ingress)
    else (io.start, { ingress with caddyfile := ingress.temporary, temporary := none })

/-! ### What is written and removed -/

section Effects

variable (io : IngressIo)

/-- The writes that are made, up to the first that fails or the first name that is refused. -/
def appWrites : (i : Nat) → List IngressAppConfig → List (String × String)
  | _, [] => []
  | i, app :: apps =>
    match caddyAppFileName app.name with
    | .error _ => []
    | .ok fileName =>
      match io.writeApp i with
      | .unopened => []
      | .cut left => [(fileName, left)]
      | .written => (fileName, app.config) :: appWrites (i + 1) apps

/-- The files that are removed, up to the first failure. -/
def removals (expected : List String) : (i : Nat) → List String → List String
  | _, [] => []
  | i, fileName :: entries =>
    if !io.nextEntry i then []
    else if !isStale expected fileName then removals expected (i + 1) entries
    else if !io.remove i then []
    else fileName :: removals expected (i + 1) entries

private theorem writeApps_snd (i : Nat) (apps : List IngressAppConfig) (files : Dict String String) :
    (writeApps io i apps files).2 = (appWrites io i apps).foldl (fun m e => m.insert e.1 e.2) files := by
  induction apps generalizing i files with
  | nil => rfl
  | cons app apps ih =>
    unfold writeApps appWrites
    cases caddyAppFileName app.name with
    | error e => rfl
    | ok fileName =>
      cases io.writeApp i with
      | unopened => rfl
      | cut left => rfl
      | written =>
        dsimp only
        rw [List.foldl_cons, ← ih]
        split
        · rename_i h
          rw [h]
        · rename_i h
          rw [h]

private theorem removeStale_snd (expected : List String) (i : Nat) (entries : List String)
    (files : Dict String String) :
    (removeStale io expected i entries files).2 =
      (removals io expected i entries).foldl (fun m a => m.erase a) files := by
  induction entries generalizing i files with
  | nil => rfl
  | cons fileName entries ih =>
    unfold removeStale removals
    by_cases hnext : (!io.nextEntry i) = true
    · rw [if_pos hnext, if_pos hnext]
      rfl
    · rw [if_neg hnext, if_neg hnext]
      by_cases hstale : (!isStale expected fileName) = true
      · rw [if_pos hstale, if_pos hstale, ih]
      · rw [if_neg hstale, if_neg hstale]
        by_cases hremove : (!io.remove i) = true
        · rw [if_pos hremove, if_pos hremove]
          rfl
        · rw [if_neg hremove, if_neg hremove, ih, List.foldl_cons]

/-- The files that are asked for; of two for one name the last one counts. -/
def requestedFiles (apps : List IngressAppConfig) : List (String × String) :=
  apps.map fun app => (app.name ++ ".caddy", app.config)

private theorem caddyAppFileName_ok {value fileName : String} (h : caddyAppFileName value = .ok fileName) :
    fileName = value ++ ".caddy" := by
  unfold caddyAppFileName at h
  split at h
  · cases h
  · cases h
    rfl

variable {io}

/-- If all configurations are written, they are the requested ones. -/
private theorem appWrites_of_ok {i : Nat} {apps : List IngressAppConfig} {files files' : Dict String String}
    {expected : List String} (h : writeApps io i apps files = (.ok expected, files')) :
    appWrites io i apps = requestedFiles apps ∧ expected = (requestedFiles apps).map Prod.fst := by
  induction apps generalizing i files expected with
  | nil =>
    cases h
    exact ⟨rfl, rfl⟩
  | cons app apps ih =>
    unfold writeApps at h
    unfold appWrites requestedFiles
    cases hname : caddyAppFileName app.name with
    | error e =>
      rw [hname] at h
      cases h
    | ok fileName =>
      rw [hname] at h
      dsimp only at h ⊢
      cases hw : io.writeApp i with
      | unopened =>
        rw [hw] at h
        cases h
      | cut left =>
        rw [hw] at h
        cases h
      | written =>
        rw [hw] at h
        dsimp only at h ⊢
        split at h
        · cases h
        · rename_i hrest
          cases h
          obtain ⟨hwrites, hexpected⟩ := ih hrest
          rw [List.map_cons, hwrites, hexpected, caddyAppFileName_ok hname]
          exact ⟨rfl, rfl⟩

/-- The writes are to files of apps. -/
private theorem caddy_of_mem_appWrites {i : Nat} {apps : List IngressAppConfig} {e : String × String}
    (h : e ∈ appWrites io i apps) : isCaddyFile e.1 = true := by
  induction apps generalizing i with
  | nil => cases h
  | cons app apps ih =>
    unfold appWrites at h
    cases hname : caddyAppFileName app.name with
    | error e =>
      rw [hname] at h
      cases h
    | ok fileName =>
      have hfile : isCaddyFile fileName = true := by
        rw [caddyAppFileName_ok hname, isCaddyFile, List.isSuffixOf_iff_suffix, String.toList_append]
        exact List.suffix_append _ _
      rw [hname] at h
      dsimp only at h
      split at h
      · cases h
      · rw [List.mem_singleton.1 h]
        exact hfile
      · rcases List.mem_cons.1 h with rfl | h
        · exact hfile
        · exact ih h

/-- The files that are removed are stale entries. -/
private theorem removals_subset {expected entries : List String} {i : Nat} {fileName : String}
    (h : fileName ∈ removals io expected i entries) : fileName ∈ entries ∧ isStale expected fileName = true := by
  induction entries generalizing i with
  | nil => cases h
  | cons f entries ih =>
    unfold removals at h
    split at h
    · cases h
    · split at h
      · exact ⟨List.mem_cons_of_mem f (ih h).1, (ih h).2⟩
      · rename_i hstale
        split at h
        · cases h
        · rcases List.mem_cons.1 h with rfl | h
          · exact ⟨List.mem_cons_self, by simpa using hstale⟩
          · exact ⟨List.mem_cons_of_mem f (ih h).1, (ih h).2⟩

/-- If nothing fails, all stale entries are removed. -/
private theorem mem_removals_of_ok {expected entries : List String} {i : Nat} {files files' : Dict String String}
    (h : removeStale io expected i entries files = (.ok (), files')) {fileName : String} (hmem : fileName ∈ entries)
    (hstale : isStale expected fileName = true) : fileName ∈ removals io expected i entries := by
  induction entries generalizing i files with
  | nil => cases hmem
  | cons f entries ih =>
    unfold removeStale at h
    unfold removals
    split at h
    · cases h
    · rename_i hnext
      rw [if_neg hnext]
      split at h
      · rename_i hfresh
        rw [if_pos hfresh]
        rcases List.mem_cons.1 hmem with rfl | hmem
        · rw [hstale] at hfresh
          cases hfresh
        · exact ih h hmem
      · rename_i hold
        rw [if_neg hold]
        split at h
        · cases h
        · rename_i hremove
          rw [if_neg hremove]
          rcases List.mem_cons.1 hmem with rfl | hmem
          · exact List.mem_cons_self
          · exact List.mem_cons_of_mem f (ih h hmem)

/-- All configurations are written exactly when every name is accepted and every write done. -/
private theorem writeApps_ok_iff {i : Nat} {apps : List IngressAppConfig} {files : Dict String String} :
    (∃ expected, (writeApps io i apps files).1 = .ok expected) ↔
      (∀ app ∈ apps, ∃ fileName, caddyAppFileName app.name = .ok fileName) ∧
        ∀ j < apps.length, io.writeApp (i + j) = .written := by
  induction apps generalizing i files with
  | nil => simp [writeApps]
  | cons app apps ih =>
    unfold writeApps
    rw [List.forall_mem_cons]
    cases hname : caddyAppFileName app.name with
    | error e => simp
    | ok fileName =>
      cases hw : io.writeApp i with
      | unopened =>
        refine iff_of_false (by simp) fun h => ?_
        have := h.2 0 (by simp)
        rw [Nat.add_zero, hw] at this
        cases this
      | cut left =>
        refine iff_of_false (by simp) fun h => ?_
        have := h.2 0 (by simp)
        rw [Nat.add_zero, hw] at this
        cases this
      | written =>
        have hrest := @ih (i + 1) (files.insert fileName app.config)
        have hwrites : (∀ j < (app :: apps).length, io.writeApp (i + j) = .written) ↔
            ∀ j < apps.length, io.writeApp (i + 1 + j) = .written := by
          rw [List.length_cons, Nat.forall_lt_succ_left]
          simp [hw, Nat.add_assoc, Nat.add_comm 1]
        have hfile : ∃ f, (Except.ok fileName : Except String String) = .ok f := ⟨fileName, rfl⟩
        rw [hwrites, and_iff_right hfile, ← hrest]
        dsimp only
        split
        · rename_i h
          simp [h]
        · rename_i h
          simp [h]

/-- The directory is cleared exactly when all entries can be read and all stale ones removed. -/
private theorem removeStale_ok_iff {expected : List String} {i : Nat} {entries : List String}
    {files : Dict String String} :
    (removeStale io expected i entries files).1 = .ok () ↔
      (∀ j ≤ entries.length, io.nextEntry (i + j) = true) ∧
        ∀ j fileName, entries[j]? = some fileName → isStale expected fileName = true → io.remove (i + j) = true := by
  induction entries generalizing i files with
  | nil => simp [removeStale]
  | cons f entries ih =>
    have hnext : (∀ j ≤ (f :: entries).length, io.nextEntry (i + j) = true) ↔
        io.nextEntry i = true ∧ ∀ j ≤ entries.length, io.nextEntry (i + 1 + j) = true := by
      simp only [← Nat.lt_succ_iff, List.length_cons]
      rw [Nat.forall_lt_succ_left]
      simp [Nat.add_assoc, Nat.add_comm 1]
    have hremove : (∀ j fileName, (f :: entries)[j]? = some fileName → isStale expected fileName = true →
        io.remove (i + j) = true) ↔ (isStale expected f = true → io.remove i = true) ∧
        ∀ j fileName, entries[j]? = some fileName → isStale expected fileName = true →
          io.remove (i + 1 + j) = true := by
      constructor
      · intro h
        refine ⟨fun hf => by simpa using h 0 f rfl hf, fun j fileName hj hstale => ?_⟩
        have := h (j + 1) fileName (by simpa using hj) hstale
        rwa [show i + 1 + j = i + (j + 1) by omega]
      · rintro ⟨hf, h⟩ j fileName hj hstale
        cases j with
        | zero =>
          obtain rfl : f = fileName := by simpa using hj
          exact hf hstale
        | succ j =>
          have := h j fileName (by simpa using hj) hstale
          rwa [show i + (j + 1) = i + 1 + j by omega]
    rw [hnext, hremove]
    unfold removeStale
    cases hi : io.nextEntry i with
    | false => simp
    | true =>
      cases hf : isStale expected f with
      | false => simp [ih]
      | true =>
        cases hr : io.remove i with
        | false => simp
        | true => simp [ih]

/-- No stale entry is come to: before any, an entry cannot be read or a stale one not be removed. -/
def NoneRemoved (io : IngressIo) (expected entries : List String) (i : Nat) : Prop :=
  ∀ j fileName, entries[j]? = some fileName → isStale expected fileName = true → ∃ k ≤ j,
    io.nextEntry (i + k) = false ∨ (∃ f, entries[k]? = some f ∧ isStale expected f = true) ∧ io.remove (i + k) = false

private theorem removals_eq_nil_iff {expected : List String} {i : Nat} {entries : List String} :
    removals io expected i entries = [] ↔ NoneRemoved io expected entries i := by
  induction entries generalizing i with
  | nil => simp [removals, NoneRemoved]
  | cons f entries ih =>
    unfold removals
    cases hi : io.nextEntry i with
    | false => exact iff_of_true (by simp) fun j _ _ _ => ⟨0, Nat.zero_le j, Or.inl hi⟩
    | true =>
      cases hf : isStale expected f with
      | false =>
        simp only [Bool.not_true, Bool.false_eq_true, if_false, Bool.not_false, if_true, ih]
        constructor
        · intro h j fileName hj hstale
          cases j with
          | zero =>
            obtain rfl : f = fileName := by simpa using hj
            rw [hf] at hstale
            cases hstale
          | succ j =>
            obtain ⟨k, hk, hfail⟩ := h j fileName (by simpa using hj) hstale
            refine ⟨k + 1, by omega, ?_⟩
            rw [show i + (k + 1) = i + 1 + k by omega]
            simpa using hfail
        · intro h j fileName hj hstale
          obtain ⟨k, hk, hfail⟩ := h (j + 1) fileName (by simpa using hj) hstale
          cases k with
          | zero => simp [hi, hf] at hfail
          | succ k =>
            refine ⟨k, by omega, ?_⟩
            rw [show i + 1 + k = i + (k + 1) by omega]
            simpa using hfail
      | true =>
        cases hr : io.remove i with
        | false => exact iff_of_true (by simp) fun j _ _ _ => ⟨0, Nat.zero_le j, Or.inr ⟨⟨f, rfl, hf⟩, hr⟩⟩
        | true =>
          refine iff_of_false (by simp) fun h => ?_
          obtain ⟨k, hk, hfail⟩ := h 0 f rfl hf
          obtain rfl : k = 0 := by omega
          simp [hi, hr] at hfail

end Effects

/-! ### Before the main file is installed -/

section Prepare

variable {request : Request} {io : IngressIo} {ingress ingress' : Ingress}

/-- The writes of a request, up to its first failure. -/
def writesOf (request : Request) (io : IngressIo) : List (String × String) :=
  match checkRequest request, createDirs io with
  | .ok (), .ok () => appWrites io 0 request.apps
  | _, _ => []

/-- The names that are asked for. -/
def expectedFiles (request : Request) : List String := (requestedFiles request.apps).map Prod.fst

/-- The entries of the directory once all configurations are written, in the order in which they come. -/
def entriesOf (request : Request) (io : IngressIo) (ingress : Ingress) : List String :=
  io.order ((requestedFiles request.apps).foldl (fun m e => m.insert e.1 e.2) ingress.apps).keys

/-- The request is accepted, and no step up to the last write of a configuration fails. -/
structure AppsWritten (request : Request) (io : IngressIo) : Prop where
  checked : checkRequest request = .ok ()
  dirs : io.createApps = true ∧ io.createData = true ∧ io.createConfig = true
  names : ∀ app ∈ request.apps, ∃ fileName, caddyAppFileName app.name = .ok fileName
  writes : ∀ i < request.apps.length, io.writeApp i = .written

/-- No step up to the check of the main file fails. -/
structure Prepared (request : Request) (io : IngressIo) (ingress : Ingress) : Prop where
  written : AppsWritten request io
  readDir : io.readDir = true
  entries : ∀ i ≤ (entriesOf request io ingress).length, io.nextEntry i = true
  removed : ∀ i fileName, (entriesOf request io ingress)[i]? = some fileName →
    isStale (expectedFiles request) fileName = true → io.remove i = true
  temporary : io.writeTemporary = .written
  pull : io.pull = true
  validate : io.validate = true

/-- What has been written was there before, and no stale file has been come to. -/
structure Kept (request : Request) (io : IngressIo) (ingress : Ingress) : Prop where
  writes : ∀ fileName config, (Dict.collect (writesOf request io)).lookup fileName = some config →
    ingress.apps.lookup fileName = some config
  removed : AppsWritten request io → io.readDir = true →
    NoneRemoved io (expectedFiles request) (entriesOf request io ingress) 0

private theorem createDirs_ok_iff :
    createDirs io = .ok () ↔ io.createApps = true ∧ io.createData = true ∧ io.createConfig = true := by
  unfold createDirs
  cases io.createApps <;> cases io.createData <;> cases io.createConfig <;> simp

variable (ingress) in
private theorem appsWritten_iff : AppsWritten request io ↔ checkRequest request = .ok () ∧ createDirs io = .ok () ∧
    ∃ expected, (writeApps io 0 request.apps ingress.apps).1 = .ok expected := by
  rw [createDirs_ok_iff, writeApps_ok_iff]
  simp only [Nat.zero_add]
  exact ⟨fun h => ⟨h.checked, h.dirs, h.names, h.writes⟩, fun h => ⟨h.1, h.2.1, h.2.2.1, h.2.2.2⟩⟩

/-- When no write fails, the requested files are written. -/
private theorem AppsWritten.writeApps_eq (h : AppsWritten request io) (ingress : Ingress) :
    writeApps io 0 request.apps ingress.apps = (.ok (expectedFiles request),
      (requestedFiles request.apps).foldl (fun m e => m.insert e.1 e.2) ingress.apps) := by
  obtain ⟨-, -, expected, hok⟩ := (appsWritten_iff ingress).1 h
  obtain ⟨files, hw⟩ : ∃ files, writeApps io 0 request.apps ingress.apps = (.ok expected, files) :=
    ⟨_, Prod.ext hok rfl⟩
  obtain ⟨hwrites, rfl⟩ := appWrites_of_ok hw
  have hfiles := writeApps_snd io 0 request.apps ingress.apps
  rw [hwrites] at hfiles
  exact Prod.ext hok hfiles

private theorem AppsWritten.writesOf_eq (h : AppsWritten request io) :
    writesOf request io = requestedFiles request.apps := by
  unfold writesOf
  rw [h.checked, createDirs_ok_iff.2 h.dirs]
  exact (appWrites_of_ok (h.writeApps_eq ⟨none, none, ∅⟩)).1

variable (ingress) in
/-- When a request fails up to the last write of a configuration, the main file is not touched, and the files of the apps
have been written as far as it got. -/
private theorem prepareCaddyIngress_of_not_written (h : ¬ AppsWritten request io) :
    (∃ e, (prepareCaddyIngress request io ingress).1 = .error e) ∧
      (prepareCaddyIngress request io ingress).2 = { ingress with
        apps := (writesOf request io).foldl (fun m e => m.insert e.1 e.2) ingress.apps } := by
  have hnot := (appsWritten_iff ingress).not.1 h
  unfold prepareCaddyIngress writesOf
  cases hcheck : checkRequest request with
  | error e => exact ⟨⟨e, rfl⟩, rfl⟩
  | ok _ =>
    cases hdirs : createDirs io with
    | error e => exact ⟨⟨e, rfl⟩, rfl⟩
    | ok _ =>
      dsimp only
      rw [← writeApps_snd]
      cases hw : writeApps io 0 request.apps ingress.apps with
      | mk result files =>
        cases result with
        | error e => exact ⟨⟨e, rfl⟩, rfl⟩
        | ok expected => exact absurd ⟨hcheck, hdirs, expected, by rw [hw]⟩ hnot

/-- The steps after the configurations have been written. -/
private theorem prepareCaddyIngress_of_written (h : AppsWritten request io) (ingress : Ingress) :
    ∃ files, files = (requestedFiles request.apps).foldl (fun m e => m.insert e.1 e.2) ingress.apps ∧
      prepareCaddyIngress request io ingress =
        if !io.readDir then (.error "read Caddy app config directory", { ingress with apps := files })
        else
          match removeStale io (expectedFiles request) 0 (entriesOf request io ingress) files with
          | (.error e, files) => (.error e, { ingress with apps := files })
          | (.ok (), files) =>
            match io.writeTemporary with
            | .unopened => (.error "write temporary Caddyfile", { ingress with apps := files })
            | .cut left =>
              (.error "write temporary Caddyfile", { ingress with apps := files, temporary := some left })
            | .written =>
              let ingress := { ingress with apps := files, temporary := some request.caddyfile }
              if !io.pull then (.error "pull Caddy image", ingress)
              else if !io.validate then (.error "validate Caddyfile", ingress)
              else (.ok (), ingress) := by
  refine ⟨_, rfl, ?_⟩
  unfold prepareCaddyIngress
  rw [h.checked, createDirs_ok_iff.2 h.dirs, h.writeApps_eq ingress]
  rfl

/-- Everything up to the check of the main file succeeds exactly when no step fails. -/
theorem prepareCaddyIngress_ok_iff :
    (prepareCaddyIngress request io ingress).1 = .ok () ↔ Prepared request io ingress := by
  by_cases hw : AppsWritten request io
  · obtain ⟨files, -, heq⟩ := prepareCaddyIngress_of_written hw ingress
    have hremove := @removeStale_ok_iff io (expectedFiles request) 0 (entriesOf request io ingress) files
    simp only [Nat.zero_add] at hremove
    have hprep : Prepared request io ingress ↔ io.readDir = true ∧
        (removeStale io (expectedFiles request) 0 (entriesOf request io ingress) files).1 = .ok () ∧
        io.writeTemporary = .written ∧ io.pull = true ∧ io.validate = true := by
      rw [hremove]
      exact ⟨fun h => ⟨h.readDir, ⟨h.entries, h.removed⟩, h.temporary, h.pull, h.validate⟩,
        fun h => ⟨hw, h.1, h.2.1.1, h.2.1.2, h.2.2.1, h.2.2.2.1, h.2.2.2.2⟩⟩
    rw [hprep, heq]
    cases io.readDir with
    | false => simp
    | true =>
      cases hr : removeStale io (expectedFiles request) 0 (entriesOf request io ingress) files with
      | mk result files' =>
        cases result with
        | error e => simp
        | ok _ =>
          cases io.writeTemporary with
          | unopened => simp
          | cut left => simp
          | written => cases io.pull <;> cases io.validate <;> simp
  · obtain ⟨⟨e, he⟩, -⟩ := prepareCaddyIngress_of_not_written ingress hw
    rw [he]
    exact iff_of_false (by simp) fun h => hw h.written

variable (request io ingress) in
/-- The main file is not touched, and the files of the apps have been written and removed as far as it got. -/
private theorem prepareCaddyIngress_snd : ∃ removed : List String,
    (prepareCaddyIngress request io ingress).2.caddyfile = ingress.caddyfile ∧
      (prepareCaddyIngress request io ingress).2.apps = removed.foldl (fun m a => m.erase a)
        ((writesOf request io).foldl (fun m e => m.insert e.1 e.2) ingress.apps) ∧
      (removed = [] ↔ (AppsWritten request io → io.readDir = true →
        NoneRemoved io (expectedFiles request) (entriesOf request io ingress) 0)) ∧
      ∀ fileName ∈ removed, AppsWritten request io ∧ fileName ∈ entriesOf request io ingress ∧
        isStale (expectedFiles request) fileName = true := by
  by_cases hw : AppsWritten request io
  · obtain ⟨files, rfl, heq⟩ := prepareCaddyIngress_of_written hw ingress
    by_cases hdir : io.readDir = true
    · refine ⟨removals io (expectedFiles request) 0 (entriesOf request io ingress), ?_, ?_, ?_, ?_⟩
      · rw [heq, if_neg (by simp [hdir])]
        split
        · rfl
        · split
          · rfl
          · rfl
          · dsimp only
            split
            · rfl
            · split <;> rfl
      · rw [hw.writesOf_eq, ← removeStale_snd, heq, if_neg (by simp [hdir])]
        split
        · rename_i hr
          rw [hr]
        · rename_i hr
          rw [hr]
          split
          · rfl
          · rfl
          · dsimp only
            split
            · rfl
            · split <;> rfl
      · rw [removals_eq_nil_iff]
        exact ⟨fun h _ _ => h, fun h => h hw hdir⟩
      · exact fun fileName h => ⟨hw, removals_subset h⟩
    · refine ⟨[], ?_, ?_, ?_, by simp⟩
      · rw [heq, if_pos (by simpa using hdir)]
      · rw [heq, if_pos (by simpa using hdir), hw.writesOf_eq]
        rfl
      · exact iff_of_true rfl fun _ h => absurd h hdir
  · rw [(prepareCaddyIngress_of_not_written ingress hw).2]
    exact ⟨[], rfl, rfl, iff_of_true rfl fun h => absurd h hw, by simp⟩

/-- The main file and the files of the apps are the same. -/
def Same (ingress ingress' : Ingress) : Prop :=
  ingress'.caddyfile = ingress.caddyfile ∧
    ∀ fileName, isCaddyFile fileName = true → ingress'.apps.lookup fileName = ingress.apps.lookup fileName

/-- A stale entry has not been written, and was there. -/
private theorem of_stale (hw : AppsWritten request io) {fileName : String}
    (hentry : fileName ∈ entriesOf request io ingress)
    (hstale : isStale (expectedFiles request) fileName = true) :
    isCaddyFile fileName = true ∧ (Dict.collect (writesOf request io)).lookup fileName = none ∧
      (ingress.apps.lookup fileName).isSome = true := by
  rw [isStale, Bool.and_eq_true, decide_eq_true_eq] at hstale
  have hnone : (Dict.collect (requestedFiles request.apps)).lookup fileName = none := by
    cases hc : (Dict.collect (requestedFiles request.apps)).lookup fileName with
    | none => rfl
    | some config => exact absurd (List.mem_map_of_mem (Dict.mem_of_lookup_collect hc)) hstale.2
  refine ⟨hstale.1, by rw [hw.writesOf_eq, hnone], ?_⟩
  -- an entry that has not been written has been there
  have hkey := (io.perm_order _).mem_iff.1 hentry
  obtain ⟨config, hconfig⟩ := Dict.mem_keys_iff.1 hkey
  rw [Dict.lookup_foldl_insert, hnone, Option.none_or] at hconfig
  rw [hconfig]
  rfl

/-- The ingress is the same exactly when its files were kept. -/
private theorem same_prepare_iff :
    Same ingress (prepareCaddyIngress request io ingress).2 ↔ Kept request io ingress := by
  obtain ⟨removed, hmain, happs, hnil, hstale⟩ :=
    prepareCaddyIngress_snd request io ingress
  have hwritten : ∀ e ∈ writesOf request io, isCaddyFile e.1 = true := by
    intro e he
    unfold writesOf at he
    split at he
    · exact caddy_of_mem_appWrites he
    · cases he
  rw [Same, happs]
  simp only [hmain, true_and, Dict.lookup_foldl_erase, Dict.lookup_foldl_insert]
  constructor
  · intro hsame
    have hremoved : removed = [] := by
      refine List.eq_nil_iff_forall_not_mem.2 fun fileName hmem => ?_
      obtain ⟨hw, hentry, hold⟩ := hstale fileName hmem
      obtain ⟨hcaddy, -, hsome⟩ := of_stale hw hentry hold
      have := hsame fileName hcaddy
      rw [if_pos hmem] at this
      rw [← this] at hsome
      cases hsome
    refine ⟨fun fileName config hconfig => ?_, hnil.1 hremoved⟩
    have := hsame fileName (hwritten (fileName, config) (Dict.mem_of_lookup_collect hconfig))
    rw [hremoved, if_neg List.not_mem_nil, hconfig, Option.some_or] at this
    exact this.symm
  · rintro ⟨hwrites, hremovals⟩ fileName -
    rw [hnil.2 hremovals, if_neg List.not_mem_nil]
    cases hconfig : (Dict.collect (writesOf request io)).lookup fileName with
    | none => rw [Option.none_or]
    | some config => rw [Option.some_or, hwrites fileName config hconfig]

/-- When everything has been written and removed, the files of the apps are those that are asked for. -/
private theorem lookup_of_ok {files files' : Dict String String} {expected : List String}
    (hw : writeApps io 0 request.apps ingress.apps = (.ok expected, files))
    (hr : removeStale io expected 0 (io.order files.keys) files = (.ok (), files')) {fileName : String}
    (hcaddy : isCaddyFile fileName = true) :
    files'.lookup fileName = (Dict.collect (requestedFiles request.apps)).lookup fileName := by
  obtain ⟨hwrites, rfl⟩ := appWrites_of_ok hw
  have hfiles := writeApps_snd io 0 request.apps ingress.apps
  have hfiles' := removeStale_snd io ((requestedFiles request.apps).map Prod.fst) 0 (io.order files.keys) files
  rw [hw, hwrites] at hfiles
  rw [hr] at hfiles'
  dsimp only at hfiles hfiles'
  have hlookup : files.lookup fileName =
      ((Dict.collect (requestedFiles request.apps)).lookup fileName).or (ingress.apps.lookup fileName) := by
    rw [hfiles, Dict.lookup_foldl_insert]
  rw [hfiles', Dict.lookup_foldl_erase]
  cases hconfig : (Dict.collect (requestedFiles request.apps)).lookup fileName with
  | some config =>
    -- a requested file is not stale
    have hmem := List.mem_map_of_mem (f := Prod.fst) (Dict.mem_of_lookup_collect hconfig)
    rw [if_neg, hlookup, hconfig, Option.some_or]
    intro hremoved
    have hstale := (removals_subset hremoved).2
    rw [isStale, Bool.and_eq_true, decide_eq_true_eq] at hstale
    exact hstale.2 hmem
  | none =>
    rw [hconfig, Option.none_or] at hlookup
    split
    · rfl
    · rename_i hkept
      cases hold : files.lookup fileName with
      | none => rfl
      | some config =>
        refine absurd (mem_removals_of_ok hr ?_ ?_) hkept
        · exact (io.perm_order files.keys).mem_iff.2 (Dict.mem_keys_iff.2 ⟨config, hold⟩)
        · rw [isStale, hcaddy, Bool.true_and, decide_eq_true_eq]
          intro hmem
          obtain ⟨e, he, rfl⟩ := List.mem_map.1 hmem
          have hsome := Dict.isSome_lookup_collect he
          rw [hconfig] at hsome
          cases hsome

/-- The directory holds what was asked for. -/
def Installed (request : Request) (ingress : Ingress) : Prop :=
  ingress.caddyfile = some request.caddyfile ∧
    ∀ fileName, isCaddyFile fileName = true →
      ingress.apps.lookup fileName = (Dict.collect (requestedFiles request.apps)).lookup fileName

/-- What is in place once the main file has been checked. -/
theorem prepareCaddyIngress_ok (h : prepareCaddyIngress request io ingress = (.ok (), ingress')) :
    ingress'.temporary = some request.caddyfile ∧
      ∀ fileName, isCaddyFile fileName = true →
        ingress'.apps.lookup fileName = (Dict.collect (requestedFiles request.apps)).lookup fileName := by
  unfold prepareCaddyIngress at h
  split at h
  · cases h
  · split at h
    · cases h
    · split at h
      · cases h
      · rename_i expected files hw
        split at h
        · cases h
        · split at h
          · cases h
          · rename_i files' hr
            split at h
            · cases h
            · cases h
            · dsimp only at h
              split at h
              · cases h
              · split at h
                · cases h
                · cases h
                  refine ⟨rfl, fun fileName hcaddy => ?_⟩
                  exact lookup_of_ok hw hr hcaddy

/-- An answer without an error means that what was asked for is in place. -/
theorem installed_of_ok {output : String} (h : applyCaddyIngress request io ingress = (.ok output, ingress')) :
    Installed request ingress' := by
  unfold applyCaddyIngress at h
  split at h
  · cases h
  · rename_i prepared hprepare
    obtain ⟨htemporary, happs⟩ := prepareCaddyIngress_ok hprepare
    split at h
    · cases h
    · obtain ⟨-, rfl⟩ := Prod.mk.inj h
      exact ⟨htemporary, happs⟩

/-- An application of an ingress configuration leaves everything as it was if it fails before the main file is
installed, and what was asked for if it succeeds, exactly when no step up to the check of the main file fails, or all that
was written up to the failure was there before and no stale file was come to. -/
theorem ingress_atomic_iff (request : Request) (io : IngressIo) (ingress : Ingress) :
    ((∀ e prepared, prepareCaddyIngress request io ingress = (.error e, prepared) →
        applyCaddyIngress request io ingress = (.error e, prepared) ∧ Same ingress prepared) ∧
      ∀ output ingress', applyCaddyIngress request io ingress = (.ok output, ingress') → Installed request ingress') ↔
    Prepared request io ingress ∨ Kept request io ingress := by
  have hok : ∀ output ingress', applyCaddyIngress request io ingress = (.ok output, ingress') →
      Installed request ingress' := fun _ _ => installed_of_ok
  rw [and_iff_left hok, ← prepareCaddyIngress_ok_iff, ← same_prepare_iff]
  cases hprepare : prepareCaddyIngress request io ingress with
  | mk result prepared =>
    cases result with
    | ok _ => exact iff_of_true (fun e prepared h => by cases h) (Or.inl rfl)
    | error e =>
      have happly : applyCaddyIngress request io ingress = (.error e, prepared) := by
        rw [applyCaddyIngress, hprepare]
      rw [or_iff_right (by simp)]
      constructor
      · exact fun h => (h e prepared rfl).2
      · rintro hsame e' prepared' h
        cases h
        exact ⟨happly, hsame⟩

end Prepare

/-! ### One application after another -/

/-- Nothing fails. -/
def quietIo : IngressIo where
  createApps := true
  createData := true
  createConfig := true
  writeApp _ := .written
  readDir := true
  order := id
  perm_order names := List.Perm.refl names
  nextEntry _ := true
  remove _ := true
  writeTemporary := .written
  pull := true
  validate := true
  install := true
  start := .ok "Caddy ingress applied."

def sampleRequest : Request := ⟨"import apps/*", [⟨"web", "new"⟩], "coolify-default-mesh"⟩

def sampleIngress : Ingress := ⟨some "import apps/*", none, Dict.collect [("web.caddy", "old"), ("db.caddy", "db")]⟩

/-- The new configuration does not pass the check: its files are in place, and those of other apps are gone. -/
theorem refused_in_place :
    let refused := applyCaddyIngress sampleRequest { quietIo with validate := false } sampleIngress
    refused.1 = .error "validate Caddyfile" ∧ refused.2.apps.lookup "web.caddy" = some "new" ∧
      refused.2.apps.lookup "db.caddy" = none ∧ ¬ Same sampleIngress refused.2 := by
  have hdb : (applyCaddyIngress sampleRequest { quietIo with validate := false } sampleIngress).2.apps.lookup "db.caddy" =
      none := by decide
  refine ⟨by decide, by decide, hdb, fun h => ?_⟩
  have hsame := h.2 "db.caddy" (by decide)
  rw [hdb] at hsame
  revert hsame
  decide

end Coold.Agent.CaddyIngress
