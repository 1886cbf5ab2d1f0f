import Coold.Agent.DesiredEndpoints
import Coold.Agent.Mounts
import Coold.Lib.Exchange
import Coold.Lib.Percent

/-!
# The paths of the requests to Podman

The client puts an id, a name or a reference into the path of a request, escaped by `urlEscape`.  A `CallSite` is a
place of the client that does so, and `CallSite.template` has the segments and parameters that its path is meant to
have, one of them being the value; `CallSite.path` writes them down.

Every request of a run of operations has the path of a call site (`mem_perform`, by the rules of `Exchange`).  Whatever
the value is, this path is split at `/`, `?`, `&`, `=` and `#` into the pieces of the template with the escaped value in
its place (`CallSite.fits`), and the value is read back from its piece (`decode_urlEscape`).

The percent-encoder of the library is the parameter `utf8PercentEncode`.
-/

namespace Coold.Agent.PodmanClient

open Exchange

/-! ### Escaping -/

/-- The ASCII bytes that are written as an escape. -/
abbrev AsciiSet := UInt8 → Bool

def AsciiSet.remove (set : AsciiSet) (c : Char) : AsciiSet := fun b => set b && b != c.toUInt8

/-- Bytes beyond ASCII are always escaped. -/
def AsciiSet.shouldPercentEncode (set : AsciiSet) (b : UInt8) : Bool := 128 ≤ b || set b

def nonAlphanumeric : AsciiSet := fun b => !(Char.ofNat b.toNat).isAlphanum

def podmanEncode : AsciiSet := (((nonAlphanumeric.remove '-').remove '.').remove '_').remove '~'

/-- What the encoder of the library is documented to do. -/
def WritesPercent (utf8PercentEncode : String → AsciiSet → String) : Prop :=
  ∀ value set, utf8PercentEncode value set =
    String.ofList (Percent.encode (fun b => !AsciiSet.shouldPercentEncode set b) (Str.asBytes value))

/-- `char::is_control`. -/
def isControl (c : Char) : Bool := c.toNat < 32 || (127 ≤ c.toNat && c.toNat < 160)

def isSafePodmanRef (value : String) : Bool :=
  value ≠ "" && value.toList.all fun c => !isControl c && !Str.isWhitespace c

/-! ### Requests and answers -/

inductive Method where
  | get
  | post
  | delete
  deriving DecidableEq

inductive Body where
  | empty
  | create (spec : ContainerCreateSpec)
  /-- The command of an `exec`, with its output attached. -/
  | exec (command : List String)

structure Request where
  method : Method
  path : String
  body : Body

/-- An answer: its status as it is printed, if it is one of success, and the body as far as it can be read. -/
structure Response where
  status : String
  success : Bool
  body : Except String (List UInt8)

structure ImagePullReport where
  id : String
  images : List String
  digest : String

structure ContainerCreateResponse where
  id : String

structure ExecCreateResponse where
  id : String

structure ExecInspect where
  exitCode : Int32
  running : Bool

/-- What the client works with: its allowed sources, the files, Podman, and the functions of libraries. -/
structure Env where
  allowedMountSources : List String
  tree : FileTree
  answer : List Request → Request → Except String Response
  utf8PercentEncode : String → AsciiSet → String
  fromUtf8Lossy : List UInt8 → String
  imagePullReport : String → Option ImagePullReport
  containerInspect : List UInt8 → Except String ContainerInspect
  containerCreateResponse : List UInt8 → Except String ContainerCreateResponse
  execCreateResponse : List UInt8 → Except String ExecCreateResponse
  execInspect : List UInt8 → Except String ExecInspect

abbrev Call (α : Type) := Exchange Request String α

section Client

variable (env : Env)

def urlEscape (value : String) : String := env.utf8PercentEncode value podmanEncode

/-- A failure with what was being done. -/
def withContext {α : Type} (context : String) : Except String α → Except String α
  | .ok a => .ok a
  | .error e => .error (context ++ ": " ++ e)

def send (method : Method) (path : String) (body : Body) : Call Response :=
  request (fun sent r => withContext ("podman " ++ path) (env.answer sent r)) ⟨method, path, body⟩

def bodyBytes (res : Response) (path : String) : Except String (List UInt8) :=
  withContext ("podman " ++ path ++ " read body") res.body

def readJson {α : Type} (fromSlice : List UInt8 → Except String α) (res : Response) (path : String) :
    Except String α := do
  let bytes ← bodyBytes res path
  if !res.success then
    throw ("podman " ++ path ++ " returned HTTP " ++ res.status ++ ": " ++ env.fromUtf8Lossy bytes)
  withContext ("podman " ++ path ++ " decode") (fromSlice bytes)

def readText (res : Response) (path : String) : Except String String := do
  let bytes ← bodyBytes res path
  let text := Str.trim (env.fromUtf8Lossy bytes)
  if !res.success then throw ("podman " ++ path ++ " returned HTTP " ++ res.status ++ ": " ++ text)
  return text

def getJson {α : Type} (fromSlice : List UInt8 → Except String α) (path : String) : Call α := do
  let res ← send env .get path .empty
  ofExcept (readJson env fromSlice res path)

def postEmpty (path : String) : Call String := do
  let res ← send env .post path .empty
  ofExcept (readText env res path)

def postJson {α : Type} (fromSlice : List UInt8 → Except String α) (path : String) (body : Body) : Call α := do
  let res ← send env .post path body
  ofExcept (readJson env fromSlice res path)

def deleteEmpty (path : String) : Call String := do
  let res ← send env .delete path .empty
  ofExcept (readText env res path)

/-! ### The client -/

def logsTail (tail : UInt32) : String := if tail = 0 then "all" else toString tail.toNat

/-- The first digest of the reports, or what stands for it. -/
def pulledDigest (text : String) : String :=
  (((Str.lines text).filterMap env.imagePullReport).findSome? fun report =>
    if report.digest ≠ "" then some report.digest
    else if report.id ≠ "" then some report.id
    else report.images.head?).getD ""

def pullImage (reference : String) : Call (String × String) := do
  if !isSafePodmanRef reference then throw "images.pull denied invalid image reference"
  let text ← postEmpty env ("/v5.0.0/libpod/images/pull?reference=" ++ urlEscape env reference)
  return (pulledDigest env text, text)

def deleteImage (reference : String) (force : Bool) : Call String := do
  if !isSafePodmanRef reference then throw "images.delete denied invalid image reference"
  deleteEmpty env ("/v5.0.0/libpod/images/" ++ urlEscape env reference ++ "?force=" ++ toString force)

def inspectContainer (id : String) : Call ContainerInspect :=
  getJson env env.containerInspect ("/v5.0.0/libpod/containers/" ++ urlEscape env id ++ "/json")

def inspectContainerJson (id : String) : Call String := do
  let res ← send env .get ("/v5.0.0/libpod/containers/" ++ urlEscape env id ++ "/json") .empty
  ofExcept (readText env res "inspect container")

def createContainer (input : CreateContainerInput) : Call String := do
  if !isSafePodmanRef input.image || !isSafePodmanRef input.name then
    throw "containers.create denied invalid image or name"
  ofExcept (validateCreateContainer env.tree input env.allowedMountSources)
  let spec := createSpec input
  let response ← postJson env env.containerCreateResponse
    ("/v5.0.0/libpod/containers/create?name=" ++ urlEscape env spec.name) (.create spec)
  if response.id = "" then throw "podman returned empty container id"
  return response.id

def startContainer (id : String) : Call String :=
  postEmpty env ("/v5.0.0/libpod/containers/" ++ urlEscape env id ++ "/start")

def stopContainer (id : String) (timeoutSeconds : UInt32) : Call String :=
  postEmpty env ("/v5.0.0/libpod/containers/" ++ urlEscape env id ++ "/stop?t=" ++ toString timeoutSeconds.toNat)

def restartContainer (id : String) (timeoutSeconds : UInt32) : Call String :=
  postEmpty env ("/v5.0.0/libpod/containers/" ++ urlEscape env id ++ "/restart?t=" ++ toString timeoutSeconds.toNat)

def deleteContainer (id : String) (force : Bool) : Call String :=
  deleteEmpty env ("/v5.0.0/libpod/containers/" ++ urlEscape env id ++ "?force=" ++ toString force)

def containerLogs (id : String) (tail : UInt32) (stdout stderr : Bool) : Call String := do
  let path := "/v5.0.0/libpod/containers/" ++ urlEscape env id ++ "/logs?stdout=" ++ toString stdout ++
    "&stderr=" ++ toString stderr ++ "&tail=" ++ logsTail tail
  let res ← send env .get path .empty
  ofExcept (readText env res "container logs")

def finishedExecExitCode (inspect : ExecInspect) : Option Int32 :=
  if !inspect.running then some inspect.exitCode else none

def maxAttempts : Nat := 1200

/-- The attempts that are left; what is waited between them is not modelled. -/
def pollExec (path execId : String) : Nat → Call Int32
  | 0 => throw ("exec " ++ execId ++ " did not finish within timeout")
  | attempts + 1 => do
    let inspect ← getJson env env.execInspect path
    match finishedExecExitCode inspect with
    | some code => return code
    | none => pollExec path execId attempts

def waitExecExitCode (execId : String) : Call Int32 :=
  pollExec env ("/v5.0.0/libpod/exec/" ++ urlEscape env execId ++ "/json") execId maxAttempts

def execContainer (id : String) (command : List String) : Call (Int32 × String) := do
  if command = [] then throw "exec command cannot be empty"
  let create ← postJson env env.execCreateResponse ("/v5.0.0/libpod/containers/" ++ urlEscape env id ++ "/exec")
    (.exec command)
  if create.id = "" then throw "podman returned empty exec id"
  let output ← postEmpty env ("/v5.0.0/libpod/exec/" ++ urlEscape env create.id ++ "/start")
  let exitCode ← waitExecExitCode env create.id
  return (exitCode, output)

def runHealthcheck (id : String) : Call String :=
  postEmpty env ("/v5.0.0/libpod/containers/" ++ urlEscape env id ++ "/healthcheck")

/-! ### Runs -/

/-- An operation of the client. -/
inductive Operation where
  | pullImage (reference : String)
  | deleteImage (reference : String) (force : Bool)
  | inspectContainer (id : String)
  | inspectContainerJson (id : String)
  | createContainer (input : CreateContainerInput)
  | startContainer (id : String)
  | stopContainer (id : String) (timeoutSeconds : UInt32)
  | restartContainer (id : String) (timeoutSeconds : UInt32)
  | deleteContainer (id : String) (force : Bool)
  | containerLogs (id : String) (tail : UInt32) (stdout stderr : Bool)
  | execContainer (id : String) (command : List String)
  | runHealthcheck (id : String)

/-- The requests sent after an operation, from those before it. -/
def perform (sent : List Request) : Operation → List Request
  | .pullImage reference => (pullImage env reference).after sent
  | .deleteImage reference force => (deleteImage env reference force).after sent
  | .inspectContainer id => (inspectContainer env id).after sent
  | .inspectContainerJson id => (inspectContainerJson env id).after sent
  | .createContainer input => (createContainer env input).after sent
  | .startContainer id => (startContainer env id).after sent
  | .stopContainer id timeoutSeconds => (stopContainer env id timeoutSeconds).after sent
  | .restartContainer id timeoutSeconds => (restartContainer env id timeoutSeconds).after sent
  | .deleteContainer id force => (deleteContainer env id force).after sent
  | .containerLogs id tail stdout stderr => (containerLogs env id tail stdout stderr).after sent
  | .execContainer id command => (execContainer env id command).after sent
  | .runHealthcheck id => (runHealthcheck env id).after sent

/-- The requests of a run of operations; one that fails does not stop the next. -/
def requests (operations : List Operation) : List Request := operations.foldl (perform env) []

end Client

/-- A place of the client that puts a value into a path, with what else is written there. -/
inductive CallSite where
  | pullImage
  | deleteImage (force : Bool)
  | inspectContainer
  | createContainer
  | startContainer
  | stopContainer (timeoutSeconds : UInt32)
  | restartContainer (timeoutSeconds : UInt32)
  | deleteContainer (force : Bool)
  | containerLogs (tail : UInt32) (stdout stderr : Bool)
  | execContainer
  | execStart
  | waitExecExitCode
  | runHealthcheck

/-- The values that an operation puts into paths, and where: those that it is given, and what Podman named an `exec`. -/
inductive Operation.Puts : Operation → CallSite → String → Prop where
  | pullImage (reference : String) : Puts (.pullImage reference) .pullImage reference
  | deleteImage (reference : String) (force : Bool) : Puts (.deleteImage reference force) (.deleteImage force) reference
  | inspectContainer (id : String) : Puts (.inspectContainer id) .inspectContainer id
  | inspectContainerJson (id : String) : Puts (.inspectContainerJson id) .inspectContainer id
  | createContainer (input : CreateContainerInput) : Puts (.createContainer input) .createContainer input.name
  | startContainer (id : String) : Puts (.startContainer id) .startContainer id
  | stopContainer (id : String) (t : UInt32) : Puts (.stopContainer id t) (.stopContainer t) id
  | restartContainer (id : String) (t : UInt32) : Puts (.restartContainer id t) (.restartContainer t) id
  | deleteContainer (id : String) (force : Bool) : Puts (.deleteContainer id force) (.deleteContainer force) id
  | containerLogs (id : String) (tail : UInt32) (stdout stderr : Bool) :
    Puts (.containerLogs id tail stdout stderr) (.containerLogs tail stdout stderr) id
  | execContainer (id : String) (command : List String) : Puts (.execContainer id command) .execContainer id
  | execStart (id : String) (command : List String) (execId : String) :
    Puts (.execContainer id command) .execStart execId
  | waitExecExitCode (id : String) (command : List String) (execId : String) :
    Puts (.execContainer id command) .waitExecExitCode execId
  | runHealthcheck (id : String) : Puts (.runHealthcheck id) .runHealthcheck id

/-! ### Templates -/

/-- The characters at which a path is split. -/
def delimiters : List Char := ['/', '?', '&', '=', '#']

def isDelimiter (c : Char) : Bool := c ∈ delimiters

private theorem isDelimiter_eq_false {c : Char} (h : c ∉ delimiters) : isDelimiter c = false := decide_eq_false h

/-- A segment, or the name or value of a parameter. -/
inductive Piece where
  | text (s : String)
  | value
  deriving DecidableEq

def Piece.fill (escaped : String) : Piece → List Char
  | .text s => s.toList
  | .value => escaped.toList

/-- Each piece with the delimiter before it. -/
abbrev Template := List (Char × Piece)

def libpod (kind : String) (rest : Template) : Template :=
  ('/', .text "v5.0.0") :: ('/', .text "libpod") :: ('/', .text kind) :: rest

def CallSite.template : CallSite → Template
  | .pullImage => libpod "images" [('/', .text "pull"), ('?', .text "reference"), ('=', .value)]
  | .deleteImage force => libpod "images" [('/', .value), ('?', .text "force"), ('=', .text (toString force))]
  | .inspectContainer => libpod "containers" [('/', .value), ('/', .text "json")]
  | .createContainer => libpod "containers" [('/', .text "create"), ('?', .text "name"), ('=', .value)]
  | .startContainer => libpod "containers" [('/', .value), ('/', .text "start")]
  | .stopContainer t =>
    libpod "containers" [('/', .value), ('/', .text "stop"), ('?', .text "t"), ('=', .text (toString t.toNat))]
  | .restartContainer t =>
    libpod "containers" [('/', .value), ('/', .text "restart"), ('?', .text "t"), ('=', .text (toString t.toNat))]
  | .deleteContainer force => libpod "containers" [('/', .value), ('?', .text "force"), ('=', .text (toString force))]
  | .containerLogs tail stdout stderr =>
    libpod "containers" [('/', .value), ('/', .text "logs"), ('?', .text "stdout"), ('=', .text (toString stdout)),
      ('&', .text "stderr"), ('=', .text (toString stderr)), ('&', .text "tail"), ('=', .text (logsTail tail))]
  | .execContainer => libpod "containers" [('/', .value), ('/', .text "exec")]
  | .execStart => libpod "exec" [('/', .value), ('/', .text "start")]
  | .waitExecExitCode => libpod "exec" [('/', .value), ('/', .text "json")]
  | .runHealthcheck => libpod "containers" [('/', .value), ('/', .text "healthcheck")]

/-- The path is split into the pieces of the template, with nothing before the first delimiter. -/
structure Template.Fits (template : Template) (escaped path : String) : Prop where
  pieces : path.toList.splitOnP isDelimiter = [] :: template.map fun x => x.2.fill escaped
  delimiters : path.toList.filter isDelimiter = template.map Prod.fst

private theorem CallSite.value_mem (site : CallSite) : ∃ d, (d, Piece.value) ∈ site.template := by
  cases site <;> simp [CallSite.template, libpod]

/-- One piece is the value. -/
private theorem CallSite.count_value (site : CallSite) : (site.template.map Prod.snd).count .value = 1 := by
  cases site <;> rfl

/-- The path that a template is for. -/
def Template.path (template : Template) (escaped : String) : String :=
  String.ofList (Percent.join [] (template.map fun x => (x.1, x.2.fill escaped)))

def CallSite.path (env : Env) (site : CallSite) (value : String) : String := site.template.path (urlEscape env value)

section Paths

variable {env : Env}

/-! ### What is sent -/

/-- The path of a request is that of a call site of the operation, with a value that the operation puts there. -/
def Operation.Asks (env : Env) (operation : Operation) (r : Request) : Prop :=
  ∃ site value, operation.Puts site value ∧ r.path = site.path env value

private theorem sends_send {P : Request → Prop} {method : Method} {path : String} {body : Body}
    (h : ∀ r, r.path = path → P r) : Sends P (send env method path body) :=
  sends_request (h _ rfl)

private theorem sends_getJson {P : Request → Prop} {α : Type} {fromSlice : List UInt8 → Except String α} {path : String}
    (h : ∀ r, r.path = path → P r) : Sends P (getJson env fromSlice path) :=
  (sends_send h).bind fun _ => sends_ofExcept _

private theorem sends_postEmpty {P : Request → Prop} {path : String} (h : ∀ r, r.path = path → P r) :
    Sends P (postEmpty env path) :=
  (sends_send h).bind fun _ => sends_ofExcept _

private theorem sends_postJson {P : Request → Prop} {α : Type} {fromSlice : List UInt8 → Except String α}
    {path : String}
    {body : Body} (h : ∀ r, r.path = path → P r) : Sends P (postJson env fromSlice path body) :=
  (sends_send h).bind fun _ => sends_ofExcept _

private theorem sends_deleteEmpty {P : Request → Prop} {path : String} (h : ∀ r, r.path = path → P r) :
    Sends P (deleteEmpty env path) :=
  (sends_send h).bind fun _ => sends_ofExcept _

private theorem sends_pollExec {P : Request → Prop} {path execId : String} (h : ∀ r, r.path = path → P r)
    (attempts : Nat) :
    Sends P (pollExec env path execId attempts) := by
  induction attempts with
  | zero => exact sends_throw _
  | succ attempts ih =>
    rw [pollExec]
    refine (sends_getJson h).bind fun inspect => ?_
    cases finishedExecExitCode inspect with
    | some code => exact sends_pure code
    | none => exact ih

theorem Operation.Puts.asks {operation : Operation} {site : CallSite} {value path : String}
    (hputs : operation.Puts site value) (hpath : path.toList = (site.path env value).toList) (r : Request)
    (hr : r.path = path) : operation.Asks env r :=
  ⟨site, value, hputs, hr.trans (String.toList_inj.1 hpath)⟩

private theorem toList_path (site : CallSite) (value : String) : (site.path env value).toList =
    Percent.join [] (site.template.map fun x => (x.1, x.2.fill (urlEscape env value))) := by
  rw [CallSite.path, Template.path, String.toList_ofList]

private theorem sends_pullImage (reference : String) :
    Sends ((Operation.pullImage reference).Asks env) (pullImage env reference) := by
  refine Sends.check ((sends_postEmpty ((Operation.Puts.pullImage reference).asks ?_)).bind fun _ => sends_pure _)
  simp [toList_path, CallSite.template, libpod, Percent.join, Piece.fill]

private theorem sends_deleteImage (reference : String) (force : Bool) :
    Sends ((Operation.deleteImage reference force).Asks env) (deleteImage env reference force) := by
  refine Sends.check (sends_deleteEmpty ((Operation.Puts.deleteImage reference force).asks ?_))
  simp [toList_path, CallSite.template, libpod, Percent.join, Piece.fill]

private theorem sends_inspectContainer (id : String) :
    Sends ((Operation.inspectContainer id).Asks env) (inspectContainer env id) := by
  refine sends_getJson ((Operation.Puts.inspectContainer id).asks ?_)
  simp [toList_path, CallSite.template, libpod, Percent.join, Piece.fill]

private theorem sends_inspectContainerJson (id : String) :
    Sends ((Operation.inspectContainerJson id).Asks env) (inspectContainerJson env id) := by
  refine (sends_send ((Operation.Puts.inspectContainerJson id).asks ?_)).bind fun _ => sends_ofExcept _
  simp [toList_path, CallSite.template, libpod, Percent.join, Piece.fill]

private theorem sends_createContainer (input : CreateContainerInput) :
    Sends ((Operation.createContainer input).Asks env) (createContainer env input) := by
  refine Sends.check ((sends_ofExcept _).bind fun _ => ?_)
  refine (sends_postJson ((Operation.Puts.createContainer input).asks ?_)).bind fun _ => Sends.check (sends_pure _)
  simp [toList_path, CallSite.template, libpod, Percent.join, Piece.fill, createSpec]

private theorem sends_startContainer (id : String) :
    Sends ((Operation.startContainer id).Asks env) (startContainer env id) := by
  refine sends_postEmpty ((Operation.Puts.startContainer id).asks ?_)
  simp [toList_path, CallSite.template, libpod, Percent.join, Piece.fill]

private theorem sends_stopContainer (id : String) (t : UInt32) :
    Sends ((Operation.stopContainer id t).Asks env) (stopContainer env id t) := by
  refine sends_postEmpty ((Operation.Puts.stopContainer id t).asks ?_)
  simp [toList_path, CallSite.template, libpod, Percent.join, Piece.fill]

private theorem sends_restartContainer (id : String) (t : UInt32) :
    Sends ((Operation.restartContainer id t).Asks env) (restartContainer env id t) := by
  refine sends_postEmpty ((Operation.Puts.restartContainer id t).asks ?_)
  simp [toList_path, CallSite.template, libpod, Percent.join, Piece.fill]

private theorem sends_deleteContainer (id : String) (force : Bool) :
    Sends ((Operation.deleteContainer id force).Asks env) (deleteContainer env id force) := by
  refine sends_deleteEmpty ((Operation.Puts.deleteContainer id force).asks ?_)
  simp [toList_path, CallSite.template, libpod, Percent.join, Piece.fill]

private theorem sends_containerLogs (id : String) (tail : UInt32) (stdout stderr : Bool) :
    Sends ((Operation.containerLogs id tail stdout stderr).Asks env) (containerLogs env id tail stdout stderr) := by
  refine (sends_send ((Operation.Puts.containerLogs id tail stdout stderr).asks ?_)).bind fun _ => sends_ofExcept _
  simp [toList_path, CallSite.template, libpod, Percent.join, Piece.fill]

/-- The id of an `exec` is Podman's own; it is escaped like the rest. -/
private theorem sends_execContainer (id : String) (command : List String) :
    Sends ((Operation.execContainer id command).Asks env) (execContainer env id command) := by
  have hcreate : ("/v5.0.0/libpod/containers/" ++ urlEscape env id ++ "/exec").toList =
      (CallSite.execContainer.path env id).toList := by
    simp [toList_path, CallSite.template, libpod, Percent.join, Piece.fill]
  have hstart : ∀ execId, ("/v5.0.0/libpod/exec/" ++ urlEscape env execId ++ "/start").toList =
      (CallSite.execStart.path env execId).toList := by
    intro execId
    simp [toList_path, CallSite.template, libpod, Percent.join, Piece.fill]
  have hwait : ∀ execId, ("/v5.0.0/libpod/exec/" ++ urlEscape env execId ++ "/json").toList =
      (CallSite.waitExecExitCode.path env execId).toList := by
    intro execId
    simp [toList_path, CallSite.template, libpod, Percent.join, Piece.fill]
  refine Sends.check ((sends_postJson ((Operation.Puts.execContainer id command).asks hcreate)).bind fun create => ?_)
  refine Sends.check ?_
  refine (sends_postEmpty ((Operation.Puts.execStart id command create.id).asks (hstart create.id))).bind fun _ => ?_
  have hpoll : Sends ((Operation.execContainer id command).Asks env) (waitExecExitCode env create.id) :=
    sends_pollExec ((Operation.Puts.waitExecExitCode id command create.id).asks (hwait create.id)) maxAttempts
  exact hpoll.bind fun _ => sends_pure _

private theorem sends_runHealthcheck (id : String) :
    Sends ((Operation.runHealthcheck id).Asks env) (runHealthcheck env id) := by
  refine sends_postEmpty ((Operation.Puts.runHealthcheck id).asks ?_)
  simp [toList_path, CallSite.template, libpod, Percent.join, Piece.fill]

/-- An operation adds requests of its own only. -/
theorem mem_perform {sent : List Request} {operation : Operation} {r : Request} (hr : r ∈ perform env sent operation) :
    r ∈ sent ∨ operation.Asks env r := by
  cases operation with
  | pullImage reference => exact sends_pullImage reference sent r hr
  | deleteImage reference force => exact sends_deleteImage reference force sent r hr
  | inspectContainer id => exact sends_inspectContainer id sent r hr
  | inspectContainerJson id => exact sends_inspectContainerJson id sent r hr
  | createContainer input => exact sends_createContainer input sent r hr
  | startContainer id => exact sends_startContainer id sent r hr
  | stopContainer id t => exact sends_stopContainer id t sent r hr
  | restartContainer id t => exact sends_restartContainer id t sent r hr
  | deleteContainer id force => exact sends_deleteContainer id force sent r hr
  | containerLogs id tail stdout stderr => exact sends_containerLogs id tail stdout stderr sent r hr
  | execContainer id command => exact sends_execContainer id command sent r hr
  | runHealthcheck id => exact sends_runHealthcheck id sent r hr

private theorem mem_foldl_perform {operations : List Operation} {sent : List Request} {r : Request}
    (hr : r ∈ operations.foldl (perform env) sent) : r ∈ sent ∨ ∃ operation ∈ operations, operation.Asks env r := by
  induction operations generalizing sent with
  | nil => exact Or.inl hr
  | cons operation operations ih =>
    rcases ih hr with hsent | ⟨later, hlater, hasks⟩
    · rcases mem_perform hsent with hsent | hasks
      · exact Or.inl hsent
      · exact Or.inr ⟨operation, List.mem_cons_self, hasks⟩
    · exact Or.inr ⟨later, List.mem_cons_of_mem operation hlater, hasks⟩

/-! ### Escaped values -/

/-- The bytes that are written as they are. -/
def kept (b : UInt8) : Bool := !podmanEncode.shouldPercentEncode b

private theorem lt_of_kept {b : UInt8} (h : kept b = true) : b < 128 := by
  have hb : ¬ 128 ≤ b := by
    intro hle
    simp [kept, AsciiSet.shouldPercentEncode, hle] at h
  exact UInt8.not_le.1 hb

private theorem kept_ne {b : UInt8} (h : kept b = true) : b ≠ 37 := by
  rintro rfl
  exact absurd h (by decide)

private theorem toList_urlEscape (henc : WritesPercent env.utf8PercentEncode) (value : String) :
    (urlEscape env value).toList = Percent.encode kept (Str.asBytes value) := by
  rw [urlEscape, henc, String.toList_ofList]
  rfl

theorem decode_urlEscape (henc : WritesPercent env.utf8PercentEncode) (value : String) :
    Percent.decode (urlEscape env value).toList = Str.asBytes value := by
  rw [toList_urlEscape henc]
  exact Percent.decode_encode (fun b hb => ⟨lt_of_kept hb, kept_ne hb⟩) (Str.asBytes value)

private theorem urlEscape_injective (henc : WritesPercent env.utf8PercentEncode) :
    Function.Injective (urlEscape env) := by
  intro value value' h
  apply Str.asBytes_inj
  rw [← decode_urlEscape henc, h, decode_urlEscape henc]

private theorem isDelimiter_urlEscape (henc : WritesPercent env.utf8PercentEncode) (value : String) :
    ∀ c ∈ (urlEscape env value).toList, isDelimiter c = false := by
  intro c hc
  rw [toList_urlEscape henc] at hc
  apply isDelimiter_eq_false
  intro hmem
  have hall : delimiters.all (fun d => !kept (UInt8.ofNat d.toNat) && d != '%' &&
      decide (∀ n : Fin 16, d ≠ Percent.hexDigit n)) = true := by decide
  have hc' := List.all_eq_true.1 hall c hmem
  simp only [Bool.and_eq_true, Bool.not_eq_true', bne_iff_ne, decide_eq_true_eq] at hc'
  obtain ⟨⟨hkept, hpercent⟩, hdigit⟩ := hc'
  exact Percent.notMem_encode (fun b hb => lt_of_kept hb) hkept hpercent hdigit (Str.asBytes value) hc

/-! ### Pieces -/

/-- A text that is fixed in a template has no delimiter. -/
def Piece.plain : Piece → Bool
  | .text s => s.toList.all fun c => !isDelimiter c
  | .value => true

theorem plain_toString (n : Nat) : (Piece.text (toString n)).plain = true := by
  rw [Piece.plain, List.all_eq_true]
  intro c hc
  rw [Bool.not_eq_true']
  apply isDelimiter_eq_false
  intro hmem
  have hdigit : c.isDigit = true := Str.isDigit_of_mem_toString hc
  have hall : delimiters.all (fun d => !d.isDigit) = true := by decide
  have hc' := List.all_eq_true.1 hall c hmem
  rw [hdigit] at hc'
  exact Bool.noConfusion hc'

private theorem plain_bool (b : Bool) : (Piece.text (toString b)).plain = true := by
  cases b <;> decide

private theorem plain_logsTail (tail : UInt32) : (Piece.text (logsTail tail)).plain = true := by
  rw [logsTail]
  split
  · decide
  · exact plain_toString tail.toNat

theorem CallSite.plain (site : CallSite) : site.template.all (fun x => isDelimiter x.1 && x.2.plain) = true := by
  cases site with
  | deleteImage force | deleteContainer force =>
    rw [CallSite.template, libpod]
    simp only [List.all_cons, List.all_nil, plain_bool]
    decide
  | stopContainer t | restartContainer t =>
    rw [CallSite.template, libpod]
    simp only [List.all_cons, List.all_nil, plain_toString]
    decide
  | containerLogs tail stdout stderr =>
    rw [CallSite.template, libpod]
    simp only [List.all_cons, List.all_nil, plain_bool, plain_logsTail]
    decide
  | _ => decide

/-- Nothing in the value, and nothing else in the template, is taken for a delimiter. -/
theorem CallSite.fits (henc : WritesPercent env.utf8PercentEncode) (site : CallSite) (value : String) :
    site.template.Fits (urlEscape env value) (site.path env value) := by
  have hnil : ∀ c ∈ ([] : List Char), isDelimiter c = false := fun c hc => absurd hc List.not_mem_nil
  have hrest : ∀ x ∈ site.template.map fun x => (x.1, x.2.fill (urlEscape env value)),
      isDelimiter x.1 = true ∧ ∀ c ∈ x.2, isDelimiter c = false := by
    intro x hx
    obtain ⟨⟨d, piece⟩, hmem, rfl⟩ := List.mem_map.1 hx
    have hplain := List.all_eq_true.1 site.plain (d, piece) hmem
    obtain ⟨hd, hpiece⟩ := Bool.and_eq_true_iff.1 hplain
    refine ⟨hd, ?_⟩
    cases piece with
    | text s =>
      intro c hc
      simpa using List.all_eq_true.1 hpiece c hc
    | value => exact isDelimiter_urlEscape henc value
  constructor
  · rw [toList_path, Percent.splitOnP_join hnil hrest, List.map_map]
    rfl
  · rw [toList_path, Percent.filter_join hnil hrest, List.map_map]
    rfl

/-- Equal paths are split into equal pieces, and one of them is the value. -/
private theorem CallSite.path_injective (henc : WritesPercent env.utf8PercentEncode) (site : CallSite) :
    Function.Injective (site.path env) := by
  intro value value' hpath
  have hpieces := (site.fits henc value).pieces
  rw [hpath, (site.fits henc value').pieces] at hpieces
  obtain ⟨d, hmem⟩ := site.value_mem
  have hvalue := List.map_inj_left.1 (List.cons.inj hpieces).2 (d, .value) hmem
  exact urlEscape_injective henc (String.toList_inj.1 hvalue.symm)

/-- Every request of a run has the path of a call site, with a value that the operation puts there.  Whatever the value
is, this path has the delimiters and the pieces of its template, the value being one of them and read back from there;
and it is the path of no other value. -/
theorem request_paths (henc : WritesPercent env.utf8PercentEncode) :
    (∀ operations, ∀ r ∈ requests env operations, ∃ operation ∈ operations, ∃ site value,
      operation.Puts site value ∧ r.path = site.path env value) ∧
    (∀ site : CallSite, (site.template.map Prod.snd).count .value = 1 ∧
      (∀ value, site.template.Fits (urlEscape env value) (site.path env value)) ∧ Function.Injective (site.path env)) ∧
    ∀ value, Percent.decode (urlEscape env value).toList = Str.asBytes value := by
  refine ⟨?_, fun site => ⟨site.count_value, site.fits henc, site.path_injective henc⟩, decode_urlEscape henc⟩
  intro operations r hr
  rcases mem_foldl_perform hr with hr | hr
  · exact absurd hr List.not_mem_nil
  · exact hr

end Paths

/-- A client of a Podman that answers nothing. -/
def sampleEnv : Env where
  allowedMountSources := []
  tree := sampleTree
  answer _ _ := .error "connection refused"
  utf8PercentEncode value set :=
    String.ofList (Percent.encode (fun b => !AsciiSet.shouldPercentEncode set b) (Str.asBytes value))
  fromUtf8Lossy _ := ""
  imagePullReport _ := none
  containerInspect _ := .error ""
  containerCreateResponse _ := .error ""
  execCreateResponse _ := .error ""
  execInspect _ := .error ""

/-- An id with every delimiter and a letter beyond ASCII. -/
theorem request_paths_delimiters :
    ((CallSite.containerLogs 5 true false).path sampleEnv "../é?a=b&c#%").toList.splitOnP isDelimiter =
      ["", "v5.0.0", "libpod", "containers", "..%2F%C3%A9%3Fa%3Db%26c%23%25", "logs", "stdout", "true", "stderr",
        "false", "tail", "5"].map String.toList := by
  have henc : WritesPercent sampleEnv.utf8PercentEncode := fun _ _ => rfl
  have hescape : urlEscape sampleEnv "../é?a=b&c#%" = "..%2F%C3%A9%3Fa%3Db%26c%23%25" := by decide
  have hfits := ((request_paths henc).2.1 (.containerLogs 5 true false)).2.1 "../é?a=b&c#%"
  rw [hfits.pieces, hescape]
  decide

example : (requests sampleEnv [.stopContainer "web/../db" 10, .execContainer "web" []]).map Request.path =
    ["/v5.0.0/libpod/containers/web%2F..%2Fdb/stop?t=10"] := by decide

end Coold.Agent.PodmanClient
