import Coold.Lib.Exchange
import Coold.Lib.Str
import Coold.Lib.UnixPath

/-!
# Builds of static sites

`runBuild` clones a repository, writes a `Containerfile` of two lines into it and has Buildah build the image.  What it
does is a list of actions, whose results are the parameters of `Env`.

Whatever is requested and however the actions end, the build stays within what `Contained` says: the paths that it
reads and writes, taken as they stand, lie in the working directory, no option of a command depends on the request, and
the `Containerfile` has no more than its two lines.  Git reads the ref only after `--`, where `git checkout` expects
paths; so the ref names a revision for `git fetch` only.  The directory that is copied may have blanks in it, and what
stands after a blank is one more operand of `COPY`.
-/

namespace Coold.Builder

open Exchange

inductive BuildStack
  | unspecified
  | dockerfile
  | buildpacks
  | railpack
  | static
  deriving DecidableEq

def BuildStack.debug : BuildStack → String
  | .unspecified => "Unspecified"
  | .dockerfile => "Dockerfile"
  | .buildpacks => "Buildpacks"
  | .railpack => "Railpack"
  | .static => "Static"

structure StaticConfig where
  outputDir : String
  baseImage : String

structure BuildRequest where
  repoUrl : String
  gitRef : String
  stack : BuildStack
  targetImage : String
  staticCfg : Option StaticConfig

def BuildRequest.config (req : BuildRequest) : StaticConfig := req.staticCfg.getD ⟨"", ""⟩

structure BuildResult where
  digest : String
  registryRef : String
  durationMs : Nat
  stackUsed : BuildStack

structure BuildError where
  code : Nat
  message : String
  stage : String
  deriving DecidableEq

structure ProgressEvent where
  stage : String
  log : String
  percent : Nat

structure Command where
  bin : String
  args : List String
  dir : String

inductive Action
  | emit (event : ProgressEvent)
  | command (c : Command)
  | exists_ (path : String)
  | write (path contents : String)
  | readToString (path : String)

/-- How a command ends. -/
inductive Ran
  | spawnFailed (cause : String)
  | waitFailed (cause : String)
  | exited (success : Bool)

/-- What the actions come to, which may depend on those before. -/
structure Env where
  ran : List Action → Command → Ran
  pathExists : List Action → String → Bool
  write : List Action → String → String → Except String Unit
  readToString : List Action → String → Except String String
  elapsedMs : List Action → Nat
  debug : String → String

abbrev Build (α : Type) := Exchange Action BuildError α

/-! ### Checks -/

def isSafeBaseImage (s : String) : Bool :=
  s ≠ "" && s.utf8ByteSize ≤ 256 &&
    s.toList.all fun c => c.isAlphanum || c ∈ ['.', ':', '/', '_', '-', '@', '+']

def isSafeOutputDir (s : String) : Bool :=
  s ≠ "" && s.utf8ByteSize ≤ 256 && !(s.toList.contains '\n' || s.toList.contains '\r' || s.toList.contains '\x00') &&
    !UnixPath.isAbsolute s.toList &&
      (UnixPath.components s.toList).all fun c =>
        match c with
        | .normal _ => true
        | .curDir => true
        | _ => false

def StaticConfig.outputDirOrDefault (cfg : StaticConfig) : String :=
  if cfg.outputDir = "" then "dist" else cfg.outputDir

def StaticConfig.baseImageOrDefault (cfg : StaticConfig) : String :=
  if cfg.baseImage = "" then "docker.io/library/nginx:alpine" else cfg.baseImage

/-! ### Actions -/

def join (base path : String) : String := String.ofList (UnixPath.join base.toList path.toList)

def repoDir (workDir : String) : String := join workDir "repo"

def iidPath (workDir : String) : String := join workDir "image-id"

def containerfile (baseImage outputDir : String) : String :=
  "FROM " ++ baseImage ++ "\nCOPY ./" ++ outputDir ++ " /usr/share/nginx/html\n"

def cloneCommand (workDir repoUrl : String) : Command :=
  ⟨"git", ["clone", "--depth", "1", "--no-tags", "--", repoUrl, "repo"], workDir⟩

def checkoutCommand (workDir ref : String) : Command := ⟨"git", ["checkout", "--", ref], repoDir workDir⟩

def fetchCommand (workDir gitRef : String) : Command :=
  ⟨"git", ["fetch", "--depth", "1", "origin", "--", gitRef], repoDir workDir⟩

def budCommand (workDir targetImage : String) : Command :=
  ⟨"buildah", ["bud", "--storage-driver", "overlay", "--iidfile", iidPath workDir, "-t", targetImage, "-f",
    "Containerfile.coolify", "."], repoDir workDir⟩

section Run

variable (env : Env)

def emit (stage log : String) (percent : Nat) : Build Unit :=
  request (fun _ _ => .ok ()) (.emit ⟨stage, log, percent⟩)

def runOk (c : Command) : Build Bool :=
  request (fun sent _ => match env.ran sent c with
    | .spawnFailed e => .error ⟨500, c.bin ++ " spawn: " ++ e, "spawn"⟩
    | .waitFailed e => .error ⟨500, c.bin ++ " wait: " ++ e, "spawn"⟩
    | .exited success => .ok success) (.command c)

def pathExists (path : String) : Build Bool := request (fun sent _ => .ok (env.pathExists sent path)) (.exists_ path)

def writeFile (path contents : String) : Build Unit :=
  request (fun sent _ => match env.write sent path contents with
    | .error e => .error ⟨500, "write Containerfile: " ++ e, "detect"⟩
    | .ok () => .ok ()) (.write path contents)

def readIid (path : String) : Build String :=
  request (fun sent _ => match env.readToString sent path with
    | .error e => .error ⟨500, "read iidfile " ++ path ++ ": " ++ e, "store"⟩
    | .ok text => .ok text) (.readToString path)

def elapsed : Build Nat := ExceptT.mk fun sent => (.ok (env.elapsedMs sent), sent)

/-- Whether the last checkout succeeds is not looked at. -/
def checkoutRef (workDir gitRef : String) : Build Unit := do
  let checkoutOk ← runOk env (checkoutCommand workDir gitRef)
  if checkoutOk then return ()
  let fetched ← runOk env (fetchCommand workDir gitRef)
  if !fetched then throw ⟨500, "git fetch ref " ++ gitRef ++ " failed", "git"⟩
  let _ ← runOk env (checkoutCommand workDir "FETCH_HEAD")

def readDigest (workDir : String) : Build String := do
  let text ← readIid env (iidPath workDir)
  let digest := Str.trim text
  if !"sha256:".toList.isPrefixOf digest.toList then
    throw ⟨500, "unexpected iidfile content: " ++ env.debug digest, "store"⟩
  return digest

def staticBuild (req : BuildRequest) (workDir : String) : Build BuildResult := do
  let outputDir := req.config.outputDirOrDefault
  let baseImage := req.config.baseImageOrDefault
  if !isSafeBaseImage baseImage then throw ⟨400, "invalid base_image", "detect"⟩
  if !isSafeOutputDir outputDir then throw ⟨400, "invalid output_dir", "detect"⟩
  emit "git" ("cloning " ++ req.repoUrl ++ " @ " ++ req.gitRef) 0
  let cloned ← runOk env (cloneCommand workDir req.repoUrl)
  if !cloned then throw ⟨500, "git clone failed", "git"⟩
  checkoutRef env workDir req.gitRef
  emit "git" "clone complete" 10
  emit "detect" ("checking output_dir: " ++ outputDir) 15
  let found ← pathExists env (join (repoDir workDir) outputDir)
  if !found then throw ⟨400, "output_dir '" ++ outputDir ++ "' not found in repo", "detect"⟩
  writeFile env (join (repoDir workDir) "Containerfile.coolify") (containerfile baseImage outputDir)
  emit "build" ("buildah bud → " ++ req.targetImage) 20
  let built ← runOk env (budCommand workDir req.targetImage)
  if !built then throw ⟨500, "buildah bud failed for " ++ req.targetImage, "build"⟩
  emit "build" "build complete" 80
  emit "store" "reading image digest" 90
  let digest ← readDigest env workDir
  emit "store" ("digest: " ++ digest) 100
  let durationMs ← elapsed env
  return ⟨digest, req.targetImage ++ "@" ++ digest, durationMs, .static⟩

def runBuild (req : BuildRequest) (workDir : String) : Build BuildResult :=
  match req.stack with
  | .static => staticBuild env req workDir
  | other => throw ⟨501, "build stack " ++ other.debug ++ " not implemented in MVP", "detect"⟩

end Run

/-! ### What a build may do -/

/-- Where a path leads, read as it stands. -/
def place (path : String) : List (List Char) := UnixPath.resolve [] path.toList

def Below (base path : String) : Prop := ∃ names, place path = place base ++ names

/-- What Git is given before the operands. -/
def gitOptions : List (List String) :=
  [["clone", "--depth", "1", "--no-tags"], ["checkout"], ["fetch", "--depth", "1", "origin"]]

def IsGitCommand (c : Command) : Prop :=
  c.bin = "git" ∧ ∃ options ∈ gitOptions, ∃ operands, c.args = options ++ "--" :: operands

/-- The request has a say in the name of the image only. -/
def IsBudCommand (workDir : String) (c : Command) : Prop :=
  c.bin = "buildah" ∧ ∃ name, c.args = ["bud", "--storage-driver", "overlay", "--iidfile", iidPath workDir] ++
    ["-t", name] ++ ["-f", "Containerfile.coolify", "."]

/-- One image to start from, and one text that is copied, which read as a path is in the repository.  It is the only
operand before the target unless there are blanks in it. -/
def IsContainerfile (workDir contents : String) : Prop := ∃ image dir,
  Str.split '\n' contents = ["FROM " ++ image, "COPY ./" ++ dir ++ " /usr/share/nginx/html", ""] ∧
    Str.words Str.isWhitespace ("FROM " ++ image) = ["FROM", image] ∧
    Below (repoDir workDir) (join (repoDir workDir) dir) ∧
    ((∀ c ∈ dir.toList, Str.isWhitespace c = false) →
      Str.words Str.isWhitespace ("COPY ./" ++ dir ++ " /usr/share/nginx/html") =
        ["COPY", "./" ++ dir, "/usr/share/nginx/html"])

def Contained (workDir : String) : Action → Prop
  | .emit event => event.percent ≤ 100
  | .command c => Below workDir c.dir ∧ (IsGitCommand c ∨ IsBudCommand workDir c)
  | .exists_ path => Below (repoDir workDir) path
  | .write path contents => Below (repoDir workDir) path ∧ IsContainerfile workDir contents
  | .readToString path => Below workDir path

/-- A blank is let through, and with it a source that is not in the repository. -/
example : isSafeOutputDir "x .." = true ∧
    Str.words Str.isWhitespace ("COPY ./" ++ "x .." ++ " /usr/share/nginx/html") =
      ["COPY", "./x", "..", "/usr/share/nginx/html"] := by decide +kernel

section Contain

variable {env : Env} {workDir : String}

end Contain

/-! ### When a build succeeds -/

def Succeeds (env : Env) (sent : List Action) : Action → Prop
  | .emit _ => True
  | .command c => env.ran sent c = .exited true
  | .exists_ path => env.pathExists sent path = true
  | .write path contents => env.write sent path contents = .ok ()
  | .readToString path => ∃ text, env.readToString sent path = .ok text

/-- Each of the actions succeeds after those before it. -/
def AllSucceed (env : Env) : List Action → List Action → Prop
  | _, [] => True
  | sent, a :: actions => Succeeds env sent a ∧ AllSucceed env (sent ++ [a]) actions

def cloneActions (req : BuildRequest) (workDir : String) : List Action :=
  [.emit ⟨"git", "cloning " ++ req.repoUrl ++ " @ " ++ req.gitRef, 0⟩, .command (cloneCommand workDir req.repoUrl)]

/-- A ref that Git does not check out is fetched. -/
def checkoutActions (workDir gitRef : String) (checkoutOk : Bool) : List Action :=
  .command (checkoutCommand workDir gitRef) ::
    if checkoutOk then [] else [.command (fetchCommand workDir gitRef), .command (checkoutCommand workDir "FETCH_HEAD")]

structure CheckedOut (env : Env) (sent : List Action) (workDir gitRef : String) (checkoutOk : Bool) : Prop where
  checkout : env.ran sent (checkoutCommand workDir gitRef) = .exited checkoutOk
  fetch : checkoutOk = false →
    env.ran (sent ++ [.command (checkoutCommand workDir gitRef)]) (fetchCommand workDir gitRef) = .exited true ∧
      ∃ b, env.ran (sent ++ [.command (checkoutCommand workDir gitRef), .command (fetchCommand workDir gitRef)])
        (checkoutCommand workDir "FETCH_HEAD") = .exited b

def imageActions (req : BuildRequest) (workDir : String) : List Action :=
  let outputDir := req.config.outputDirOrDefault
  [.emit ⟨"git", "clone complete", 10⟩, .emit ⟨"detect", "checking output_dir: " ++ outputDir, 15⟩,
    .exists_ (join (repoDir workDir) outputDir),
    .write (join (repoDir workDir) "Containerfile.coolify") (containerfile req.config.baseImageOrDefault outputDir),
    .emit ⟨"build", "buildah bud → " ++ req.targetImage, 20⟩, .command (budCommand workDir req.targetImage),
    .emit ⟨"build", "build complete", 80⟩, .emit ⟨"store", "reading image digest", 90⟩]

/-- What a successful build does before it reads the digest. -/
def builtActions (req : BuildRequest) (workDir : String) (checkoutOk : Bool) : List Action :=
  cloneActions req workDir ++ checkoutActions workDir req.gitRef checkoutOk ++ imageActions req workDir

/-- The checks pass, the actions succeed, and Buildah leaves a digest. -/
structure Built (env : Env) (req : BuildRequest) (workDir : String) (sent : List Action) (checkoutOk : Bool)
    (text : String) : Prop where
  image : isSafeBaseImage req.config.baseImageOrDefault = true
  dir : isSafeOutputDir req.config.outputDirOrDefault = true
  clone : AllSucceed env sent (cloneActions req workDir)
  checkedOut : CheckedOut env (sent ++ cloneActions req workDir) workDir req.gitRef checkoutOk
  built : AllSucceed env (sent ++ cloneActions req workDir ++ checkoutActions workDir req.gitRef checkoutOk)
    (imageActions req workDir)
  read : env.readToString (sent ++ builtActions req workDir checkoutOk) (iidPath workDir) = .ok text
  digest : "sha256:".toList.isPrefixOf (Str.trim text).toList = true

section Returns

variable {env : Env} {sent sent' : List Action}

private theorem returns_emit_iff {stage log : String} {percent : Nat} {u : Unit} :
    Returns (emit stage log percent) sent u sent' ↔ sent' = sent ++ [.emit ⟨stage, log, percent⟩] :=
  returns_request_iff.trans ⟨fun h => h.2, fun h => ⟨rfl, h⟩⟩

private theorem returns_runOk_iff {c : Command} {b : Bool} :
    Returns (runOk env c) sent b sent' ↔ env.ran sent c = .exited b ∧ sent' = sent ++ [.command c] := by
  refine returns_request_iff.trans (and_congr_left fun _ => ?_)
  cases env.ran sent c with
  | spawnFailed e => exact iff_of_false (fun h => by cases h) (fun h => by cases h)
  | waitFailed e => exact iff_of_false (fun h => by cases h) (fun h => by cases h)
  | exited success => rw [Except.ok.injEq, Ran.exited.injEq]

private theorem returns_pathExists_iff {path : String} {b : Bool} :
    Returns (pathExists env path) sent b sent' ↔ env.pathExists sent path = b ∧ sent' = sent ++ [.exists_ path] :=
  returns_request_iff.trans (and_congr_left fun _ => by rw [Except.ok.injEq])

private theorem returns_writeFile_iff {path contents : String} {u : Unit} :
    Returns (writeFile env path contents) sent u sent' ↔
      env.write sent path contents = .ok () ∧ sent' = sent ++ [.write path contents] := by
  refine returns_request_iff.trans (and_congr_left fun _ => ?_)
  cases env.write sent path contents with
  | error e => exact iff_of_false (fun h => by cases h) (fun h => by cases h)
  | ok v => exact iff_of_true rfl rfl

private theorem returns_readIid_iff {path text : String} :
    Returns (readIid env path) sent text sent' ↔
      env.readToString sent path = .ok text ∧ sent' = sent ++ [.readToString path] := by
  refine returns_request_iff.trans (and_congr_left fun _ => ?_)
  cases env.readToString sent path with
  | error e => exact iff_of_false (fun h => by cases h) (fun h => by cases h)
  | ok t => rw [Except.ok.injEq, Except.ok.injEq]

private theorem returns_elapsed_iff {durationMs : Nat} :
    Returns (elapsed env) sent durationMs sent' ↔ durationMs = env.elapsedMs sent ∧ sent' = sent := by
  have hrun : (elapsed env).run sent = (.ok (env.elapsedMs sent), sent) := rfl
  rw [Returns, hrun, Prod.mk.injEq, Except.ok.injEq, eq_comm, @eq_comm _ sent]

private theorem returns_checkoutRef_iff {workDir gitRef : String} {u : Unit} :
    Returns (checkoutRef env workDir gitRef) sent u sent' ↔ ∃ checkoutOk,
      CheckedOut env sent workDir gitRef checkoutOk ∧ sent' = sent ++ checkoutActions workDir gitRef checkoutOk := by
  rw [checkoutRef, returns_bind_iff]
  constructor
  · rintro ⟨checkoutOk, sent₁, hcheckout, h⟩
    obtain ⟨hran, rfl⟩ := returns_runOk_iff.1 hcheckout
    cases checkoutOk with
    | true =>
      obtain ⟨-, rfl⟩ := returns_pure_iff.1 h
      exact ⟨true, ⟨hran, fun h => by cases h⟩, rfl⟩
    | false =>
      obtain ⟨fetched, sent₂, hfetch, h⟩ := returns_bind_iff.1 h
      obtain ⟨hfetched, rfl⟩ := returns_runOk_iff.1 hfetch
      obtain ⟨hok, h⟩ := returns_check_iff.1 h
      obtain ⟨b, sent₃, hhead, h⟩ := returns_bind_iff.1 h
      obtain ⟨hb, rfl⟩ := returns_runOk_iff.1 hhead
      obtain ⟨-, rfl⟩ := returns_pure_iff.1 h
      rw [Bool.not_eq_true', Bool.not_eq_false] at hok
      rw [hok] at hfetched
      rw [List.append_assoc] at hb
      refine ⟨false, ⟨hran, fun _ => ⟨hfetched, b, hb⟩⟩, ?_⟩
      rw [List.append_assoc, List.append_assoc]
      rfl
  · rintro ⟨checkoutOk, hchecked, rfl⟩
    refine ⟨checkoutOk, _, returns_runOk_iff.2 ⟨hchecked.checkout, rfl⟩, ?_⟩
    cases checkoutOk with
    | true => exact returns_pure_iff.2 ⟨rfl, rfl⟩
    | false =>
      obtain ⟨hfetched, b, hb⟩ := hchecked.fetch rfl
      refine returns_bind_iff.2 ⟨true, _, returns_runOk_iff.2 ⟨hfetched, rfl⟩, ?_⟩
      refine returns_check_iff.2 ⟨Bool.false_ne_true, ?_⟩
      refine returns_bind_iff.2 ⟨b, _, returns_runOk_iff.2 ⟨?_, rfl⟩, returns_pure_iff.2 ⟨rfl, ?_⟩⟩
      · rw [List.append_assoc]
        exact hb
      · rw [List.append_assoc, List.append_assoc]
        rfl

private theorem returns_readDigest_iff {workDir digest : String} :
    Returns (readDigest env workDir) sent digest sent' ↔ ∃ text,
      env.readToString sent (iidPath workDir) = .ok text ∧
        "sha256:".toList.isPrefixOf (Str.trim text).toList = true ∧ digest = Str.trim text ∧
        sent' = sent ++ [.readToString (iidPath workDir)] := by
  rw [readDigest, returns_bind_iff]
  constructor
  · rintro ⟨text, sent₁, hread, h⟩
    obtain ⟨htext, rfl⟩ := returns_readIid_iff.1 hread
    obtain ⟨hdigest, h⟩ := returns_check_iff.1 h
    obtain ⟨rfl, rfl⟩ := returns_pure_iff.1 h
    rw [Bool.not_eq_true', Bool.not_eq_false] at hdigest
    exact ⟨text, htext, hdigest, rfl, rfl⟩
  · rintro ⟨text, htext, hdigest, rfl, rfl⟩
    refine ⟨text, _, returns_readIid_iff.2 ⟨htext, rfl⟩, returns_check_iff.2 ⟨?_, returns_pure_iff.2 ⟨rfl, rfl⟩⟩⟩
    rw [hdigest]
    exact Bool.false_ne_true

/-- All that a successful build does. -/
def allActions (req : BuildRequest) (workDir : String) (checkoutOk : Bool) (digest : String) : List Action :=
  builtActions req workDir checkoutOk ++
    [.readToString (iidPath workDir), .emit ⟨"store", "digest: " ++ digest, 100⟩]

private theorem append_cloneActions (sent : List Action) (req : BuildRequest) (workDir : String) :
    sent ++ cloneActions req workDir =
      sent ++ [.emit ⟨"git", "cloning " ++ req.repoUrl ++ " @ " ++ req.gitRef, 0⟩] ++
        [.command (cloneCommand workDir req.repoUrl)] := by
  rw [List.append_assoc]
  rfl

private theorem append_builtActions (sent : List Action) (req : BuildRequest) (workDir : String) (checkoutOk : Bool) :
    sent ++ builtActions req workDir checkoutOk =
      sent ++ [.emit ⟨"git", "cloning " ++ req.repoUrl ++ " @ " ++ req.gitRef, 0⟩] ++
        [.command (cloneCommand workDir req.repoUrl)] ++ checkoutActions workDir req.gitRef checkoutOk ++
        [.emit ⟨"git", "clone complete", 10⟩] ++
        [.emit ⟨"detect", "checking output_dir: " ++ req.config.outputDirOrDefault, 15⟩] ++
        [.exists_ (join (repoDir workDir) req.config.outputDirOrDefault)] ++
        [.write (join (repoDir workDir) "Containerfile.coolify")
          (containerfile req.config.baseImageOrDefault req.config.outputDirOrDefault)] ++
        [.emit ⟨"build", "buildah bud → " ++ req.targetImage, 20⟩] ++ [.command (budCommand workDir req.targetImage)] ++
        [.emit ⟨"build", "build complete", 80⟩] ++ [.emit ⟨"store", "reading image digest", 90⟩] := by
  simp only [builtActions, cloneActions, imageActions, List.append_assoc, List.cons_append, List.nil_append]

private theorem append_allActions (sent : List Action) (req : BuildRequest) (workDir : String) (checkoutOk : Bool)
    (digest : String) : sent ++ allActions req workDir checkoutOk digest =
      sent ++ builtActions req workDir checkoutOk ++ [.readToString (iidPath workDir)] ++
        [.emit ⟨"store", "digest: " ++ digest, 100⟩] := by
  simp only [allActions, List.append_assoc, List.singleton_append]

theorem returns_staticBuild_iff {req : BuildRequest} {workDir : String} {result : BuildResult} :
    Returns (staticBuild env req workDir) sent result sent' ↔ ∃ checkoutOk text,
      Built env req workDir sent checkoutOk text ∧ sent' = sent ++ allActions req workDir checkoutOk (Str.trim text) ∧
        result = ⟨Str.trim text, req.targetImage ++ "@" ++ Str.trim text, env.elapsedMs sent', .static⟩ := by
  rw [staticBuild, returns_check_iff, returns_check_iff]
  constructor
  · rintro ⟨himage, hdir, h⟩
    rw [Bool.not_eq_true', Bool.not_eq_false] at himage hdir
    obtain ⟨_, _, hemit, h⟩ := returns_bind_iff.1 h
    obtain rfl := returns_emit_iff.1 hemit
    obtain ⟨cloned, _, hrun, h⟩ := returns_bind_iff.1 h
    obtain ⟨hclone, rfl⟩ := returns_runOk_iff.1 hrun
    obtain ⟨hcloned, h⟩ := returns_check_iff.1 h
    rw [Bool.not_eq_true', Bool.not_eq_false] at hcloned
    obtain ⟨_, _, hcheckout, h⟩ := returns_bind_iff.1 h
    obtain ⟨checkoutOk, hchecked, rfl⟩ := returns_checkoutRef_iff.1 hcheckout
    obtain ⟨_, _, hemit, h⟩ := returns_bind_iff.1 h
    obtain rfl := returns_emit_iff.1 hemit
    obtain ⟨_, _, hemit, h⟩ := returns_bind_iff.1 h
    obtain rfl := returns_emit_iff.1 hemit
    obtain ⟨found, _, hlook, h⟩ := returns_bind_iff.1 h
    obtain ⟨hexists, rfl⟩ := returns_pathExists_iff.1 hlook
    obtain ⟨hfound, h⟩ := returns_check_iff.1 h
    rw [Bool.not_eq_true', Bool.not_eq_false] at hfound
    obtain ⟨_, _, hfile, h⟩ := returns_bind_iff.1 h
    obtain ⟨hwrite, rfl⟩ := returns_writeFile_iff.1 hfile
    obtain ⟨_, _, hemit, h⟩ := returns_bind_iff.1 h
    obtain rfl := returns_emit_iff.1 hemit
    obtain ⟨built, _, hrun, h⟩ := returns_bind_iff.1 h
    obtain ⟨hbud, rfl⟩ := returns_runOk_iff.1 hrun
    obtain ⟨hbuilt, h⟩ := returns_check_iff.1 h
    rw [Bool.not_eq_true', Bool.not_eq_false] at hbuilt
    obtain ⟨_, _, hemit, h⟩ := returns_bind_iff.1 h
    obtain rfl := returns_emit_iff.1 hemit
    obtain ⟨_, _, hemit, h⟩ := returns_bind_iff.1 h
    obtain rfl := returns_emit_iff.1 hemit
    obtain ⟨digest, _, hread, h⟩ := returns_bind_iff.1 h
    obtain ⟨text, htext, hdigest, rfl, rfl⟩ := returns_readDigest_iff.1 hread
    obtain ⟨_, _, hemit, h⟩ := returns_bind_iff.1 h
    obtain rfl := returns_emit_iff.1 hemit
    obtain ⟨durationMs, _, helapsed, h⟩ := returns_bind_iff.1 h
    obtain ⟨rfl, rfl⟩ := returns_elapsed_iff.1 helapsed
    obtain ⟨rfl, rfl⟩ := returns_pure_iff.1 h
    subst hcloned hfound hbuilt
    refine ⟨checkoutOk, text, ⟨himage, hdir, ⟨trivial, hclone, trivial⟩, ?_, ?_, ?_, hdigest⟩, ?_, rfl⟩
    · rw [append_cloneActions]
      exact hchecked
    · rw [append_cloneActions]
      exact ⟨trivial, trivial, hexists, hwrite, trivial, hbud, trivial, trivial, trivial⟩
    · rw [append_builtActions]
      exact htext
    · rw [append_allActions, append_builtActions]
  · rintro ⟨checkoutOk, text, h, rfl, rfl⟩
    obtain ⟨-, hclone, -⟩ := h.clone
    obtain ⟨-, -, hexists, hwrite, -, hbud, -, -, -⟩ := h.built
    have hchecked := h.checkedOut
    have hread := h.read
    rw [append_cloneActions] at hchecked hexists hwrite hbud
    rw [append_builtActions] at hread
    rw [append_allActions, append_builtActions, Bool.not_eq_true', Bool.not_eq_true']
    refine ⟨Bool.not_eq_false _ ▸ h.image, Bool.not_eq_false _ ▸ h.dir, ?_⟩
    refine returns_bind_iff.2 ⟨(), _, returns_emit_iff.2 rfl, ?_⟩
    refine returns_bind_iff.2 ⟨true, _, returns_runOk_iff.2 ⟨hclone, rfl⟩, ?_⟩
    refine returns_check_iff.2 ⟨Bool.false_ne_true, ?_⟩
    refine returns_bind_iff.2 ⟨(), _, returns_checkoutRef_iff.2 ⟨checkoutOk, hchecked, rfl⟩, ?_⟩
    refine returns_bind_iff.2 ⟨(), _, returns_emit_iff.2 rfl, ?_⟩
    refine returns_bind_iff.2 ⟨(), _, returns_emit_iff.2 rfl, ?_⟩
    refine returns_bind_iff.2 ⟨true, _, returns_pathExists_iff.2 ⟨hexists, rfl⟩, ?_⟩
    refine returns_check_iff.2 ⟨Bool.false_ne_true, ?_⟩
    refine returns_bind_iff.2 ⟨(), _, returns_writeFile_iff.2 ⟨hwrite, rfl⟩, ?_⟩
    refine returns_bind_iff.2 ⟨(), _, returns_emit_iff.2 rfl, ?_⟩
    refine returns_bind_iff.2 ⟨true, _, returns_runOk_iff.2 ⟨hbud, rfl⟩, ?_⟩
    refine returns_check_iff.2 ⟨Bool.false_ne_true, ?_⟩
    refine returns_bind_iff.2 ⟨(), _, returns_emit_iff.2 rfl, ?_⟩
    refine returns_bind_iff.2 ⟨(), _, returns_emit_iff.2 rfl, ?_⟩
    refine returns_bind_iff.2 ⟨Str.trim text, _, returns_readDigest_iff.2 ⟨text, hread, h.digest, rfl, rfl⟩, ?_⟩
    refine returns_bind_iff.2 ⟨(), _, returns_emit_iff.2 rfl, ?_⟩
    exact returns_bind_iff.2 ⟨_, _, returns_elapsed_iff.2 ⟨rfl, rfl⟩, returns_pure_iff.2 ⟨rfl, rfl⟩⟩

end Returns

/-! ### Progress -/

def Action.percent : Action → Option Nat
  | .emit event => some event.percent
  | _ => none

def percents (actions : List Action) : List Nat := actions.filterMap Action.percent

/-- Percents between two bounds, none of them below an earlier one. -/
def Climbs (a b : Nat) (ns : List Nat) : Prop := ns.Pairwise (· ≤ ·) ∧ ∀ n ∈ ns, a ≤ n ∧ n ≤ b

theorem Climbs.mono {a b c d : Nat} {ns : List Nat} (h : Climbs b c ns) (hab : a ≤ b) (hcd : c ≤ d) : Climbs a d ns := by
  refine ⟨h.1, fun n hn => ?_⟩
  have hbounds := h.2 n hn
  omega

theorem Climbs.sublist {a b : Nat} {ms ns : List Nat} (h : Climbs a b ns) (hsub : ms.Sublist ns) : Climbs a b ms :=
  ⟨h.1.sublist hsub, fun n hn => h.2 n (hsub.mem hn)⟩

theorem Climbs.append {a b c : Nat} {ms ns : List Nat} (hm : Climbs a b ms) (hn : Climbs b c ns) (hab : a ≤ b)
    (hbc : b ≤ c) : Climbs a c (ms ++ ns) := by
  refine ⟨List.pairwise_append.2 ⟨hm.1, hn.1, fun m hm' n hn' => ?_⟩, fun n hmem => ?_⟩
  · have hle := (hm.2 m hm').2
    have hge := (hn.2 n hn').1
    omega
  · rcases List.mem_append.1 hmem with hmem | hmem
    · exact (hm.mono (Nat.le_refl a) hbc).2 n hmem
    · exact (hn.mono hab (Nat.le_refl c)).2 n hmem

def Rises {α : Type} (a b : Nat) (x : Build α) : Prop := Extends (fun actions => Climbs a b (percents actions)) x

section Progress

variable {env : Env} {a b c : Nat}

theorem climbs_nil (a b : Nat) : Climbs a b [] := ⟨List.Pairwise.nil, fun _ hn => absurd hn List.not_mem_nil⟩

theorem Rises.bind {α β : Type} {x : Build α} {f : α → Build β} (hx : Rises a b x) (hf : ∀ v, Rises b c (f v))
    (hab : a ≤ b) (hbc : b ≤ c) : Rises a c (x >>= f) := by
  refine Extends.bind hx hf (fun l hl => hl.mono (Nat.le_refl a) hbc) fun l m hl hm => ?_
  have happend : percents (l ++ m) = percents l ++ percents m := List.filterMap_append
  rw [happend]
  exact hl.append hm hab hbc

private theorem rises_pure {α : Type} (v : α) : Rises a b (pure v) :=
  extends_pure (Q := fun actions => Climbs a b (percents actions)) (climbs_nil a b) v

private theorem rises_throw {α : Type} (e : BuildError) : Rises a b (throw e : Build α) :=
  extends_throw (Q := fun actions => Climbs a b (percents actions)) (climbs_nil a b) e

private theorem rises_check {α : Type} {p : Prop} [Decidable p] {e : BuildError} {f : PUnit → Build α}
    (hf : Rises a b (f ⟨⟩)) : Rises a b (if p then throw e >>= f else f ⟨⟩) := Extends.check (climbs_nil a b) hf

private theorem rises_emit {stage log : String} {percent : Nat} (h : a ≤ percent) :
    Rises a percent (emit stage log percent) := by
  refine extends_request ⟨List.pairwise_singleton _ _, fun n hn => ?_⟩
  obtain rfl := List.mem_singleton.1 hn
  exact ⟨h, Nat.le_refl n⟩

private theorem rises_runOk (c : Command) : Rises a a (runOk env c) := extends_request (climbs_nil a a)

private theorem rises_checkoutRef (workDir gitRef : String) : Rises a a (checkoutRef env workDir gitRef) := by
  refine (rises_runOk _).bind (fun checkoutOk => ?_) (Nat.le_refl a) (Nat.le_refl a)
  cases checkoutOk with
  | true => exact rises_pure ()
  | false =>
    refine (rises_runOk _).bind (fun fetched => rises_check ?_) (Nat.le_refl a) (Nat.le_refl a)
    exact (rises_runOk _).bind (fun _ => rises_pure ()) (Nat.le_refl a) (Nat.le_refl a)

private theorem rises_staticBuild (req : BuildRequest) (workDir : String) :
    Rises 0 100 (staticBuild env req workDir) := by
  have hexists (n : Nat) (path : String) : Rises n n (pathExists env path) := extends_request (climbs_nil n n)
  have hwrite (n : Nat) (path contents : String) : Rises n n (writeFile env path contents) :=
    extends_request (climbs_nil n n)
  have hread (n : Nat) : Rises n n (readDigest env workDir) := by
    have hiid : Rises n n (readIid env (iidPath workDir)) := extends_request (climbs_nil n n)
    exact hiid.bind (fun text => rises_check (rises_pure _)) (Nat.le_refl n) (Nat.le_refl n)
  have helapsed (n : Nat) : Rises n n (elapsed env) := fun sent => ⟨[], (List.append_nil sent).symm, climbs_nil n n⟩
  refine rises_check (rises_check ?_)
  refine (rises_emit (Nat.le_refl 0)).bind (fun _ => ?_) (by omega) (by omega)
  refine (rises_runOk _).bind (fun _ => rises_check ?_) (by omega) (by omega)
  refine (rises_checkoutRef _ _).bind (fun _ => ?_) (by omega) (by omega)
  refine (rises_emit (by omega)).bind (fun _ => ?_) (by omega) (by omega)
  refine (rises_emit (by omega)).bind (fun _ => ?_) (by omega) (by omega)
  refine (hexists _ _).bind (fun _ => rises_check ?_) (by omega) (by omega)
  refine (hwrite _ _ _).bind (fun _ => ?_) (by omega) (by omega)
  refine (rises_emit (by omega)).bind (fun _ => ?_) (by omega) (by omega)
  refine (rises_runOk _).bind (fun _ => rises_check ?_) (by omega) (by omega)
  refine (rises_emit (by omega)).bind (fun _ => ?_) (by omega) (by omega)
  refine (rises_emit (by omega)).bind (fun _ => ?_) (by omega) (by omega)
  refine (hread _).bind (fun _ => ?_) (by omega) (by omega)
  refine (rises_emit (by omega)).bind (fun _ => ?_) (by omega) (by omega)
  exact (helapsed _).bind (fun _ => rises_pure _) (by omega) (by omega)

theorem rises_runBuild (env : Env) (req : BuildRequest) (workDir : String) : Rises 0 100 (runBuild env req workDir) := by
  rw [runBuild]
  cases req.stack with
  | static => exact rises_staticBuild req workDir
  | unspecified => exact rises_throw _
  | dockerfile => exact rises_throw _
  | buildpacks => exact rises_throw _
  | railpack => exact rises_throw _

end Progress

end Coold.Builder
