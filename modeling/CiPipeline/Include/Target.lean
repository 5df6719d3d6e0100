import CiPipeline.Checkouts
import CiPipeline.Download
import CiPipeline.Include.Cache
import CiPipeline.Repository
import CiPipeline.Shell.Word

/-!
# Targets of includes

The directives of one document ask for targets: files of the checkout, files of
other projects grouped by project and ref, and remote files.  A target is
brought to its place in three stages: what has to be done is planned, what is in
the way is cleared, and the place is filled.
-/

namespace CiPipeline

/-- Where included files come from. -/
structure IncludeSources where
  cache : IncludeCache
  repository : Repository
  checkouts : Checkouts
  deriving Inhabited

/-- What has to be in place before the documents of some directives
can be read. -/
inductive Target where
  | localFile (declared : String)
  | project (project ref : String) (files : List String)
  | remote (address : String)
  deriving DecidableEq, Repr, Inhabited

/-- What has to be done for a target. -/
inductive Task where
  | nothing
  | download (address : Url) (declared : String)
  /-- The folder of a project has to stand for a checkout. -/
  | link (project ref checkout : String)
  /-- Files of a project have to be extracted, into an empty folder or beside
  the files there. -/
  | extract (afresh : Bool) (project ref : String) (files : List String)
  deriving Inhabited

/-- The projects and refs whose folders are filled already. -/
abbrev Filled := List (String × String)

namespace Target

/-! ## Targets of directives -/

/-- Adds a file unless it is there. -/
def addFile (files : List String) (file : String) : List String :=
  if files.contains file then files else files ++ [file]

/-- Adds files of a project to those asked for so far. -/
def addProject (name ref : String) (files : List String) :
    List Target → List Target
  | [] => [.project name ref (files.foldl addFile [])]
  | .project other otherRef known :: rest =>
      if other == name && otherRef == ref then
        .project other otherRef (files.foldl addFile known) :: rest
      else .project other otherRef known :: addProject name ref files rest
  | target :: rest => target :: addProject name ref files rest

/-- Adds what a directive asks of other projects. -/
def gatherProject (defaultRef : String) (targets : List Target) :
    Include → List Target
  | .projectFiles name ref files =>
      addProject name (ref.getD defaultRef) files targets
  | _ => targets

/-- Adds the remote file that a directive asks for.  A template counts
anew each time. -/
def gatherRemote (targets : List Target) : Include → List Target
  | .template name => targets ++ [.remote (IncludeUrl.ofTemplate name)]
  | .remote address =>
      if targets.contains (.remote address) then targets
      else targets ++ [.remote address]
  | _ => targets

/-- The file of the checkout that a directive asks for. -/
def ofLocal? : Include → Option Target
  | .localFile path => some (.localFile path)
  | _ => none

/-- The targets of directives: local files, projects, and remote files. -/
def ofIncludes (defaultRef : String) (directives : List Include) :
    List Target :=
  directives.filterMap ofLocal? ++
    directives.foldl (gatherProject defaultRef) [] ++
    directives.foldl gatherRemote []

/-- The project and the ref of a target. -/
def filled? : Target → Option (String × String)
  | .project name ref _ => some (name, ref)
  | _ => none

/-- Places a failure at a target. -/
def blame (trail : Trail) : Target → Failure → Failure
  | .localFile _, failure => failure
  | .project name _ _, failure =>
      (trail.descendValued "include" "project" (.text name)).wrap failure
  | .remote address, failure =>
      (trail.descendValued "include" "remote" (.text address)).wrap failure

end Target

namespace IncludeSources

/-! ## Places -/

def localPath (sources : IncludeSources) (path : String) : String :=
  Path.join sources.cache.checkout (Include.dropSlashes path)

/-- The place of a remote file. -/
def remotePath (sources : IncludeSources) (address : String) : String :=
  sources.cache.remotePath address

def refFolder (sources : IncludeSources) (project ref : String) : String :=
  sources.cache.refFolder sources.repository.remote.host project ref

def projectFile (sources : IncludeSources)
    (project ref file : String) : String :=
  sources.cache.projectFile sources.repository.remote.host project ref file

/-- The ref that a directive names, or that of the repository's main branch. -/
def refOf (sources : IncludeSources) (ref : Option String) : String :=
  ref.getD sources.repository.remote.defaultBranch

/-! ## Plans -/

/-- Plans the download of a remote file. -/
def planRemote (sources : IncludeSources) (address : String) : Action Task := do
  if ← sources.cache.isFresh [sources.remotePath address] then pure .nothing
  else
    match Url.read address with
    | .error error => throw (.remoteInclude address error.message)
    | .ok url =>
        match Download.check url with
        | .error failure => throw (.remoteInclude address failure.message)
        | .ok () => pure (.download url address)

def missingFiles (sources : IncludeSources) (project ref : String) :
    List String → Action (List String)
  | [] => pure []
  | file :: rest => do
      let present ← Action.look (·.has (sources.projectFile project ref file))
      let missing ← missingFiles sources project ref rest
      pure (if present then missing else file :: missing)

/-- Plans how the files of a project come to their places.  A folder that is
filled already is completed, unless it stands for a checkout. -/
def planProject (sources : IncludeSources) (filled : Filled)
    (project ref : String) (files : List String) : Action Task := do
  if filled.contains (project, ref) then
    let missing ← missingFiles sources project ref files
    if missing.isEmpty ||
      (← get).files.hasLink (sources.refFolder project ref) then pure .nothing
    else pure (.extract false project ref missing)
  else if ← sources.cache.isFresh
    (files.map (sources.projectFile project ref)) then pure .nothing
  else
    match sources.checkouts.folder? project with
    | some checkout => pure (.link project ref checkout)
    | none => pure (.extract true project ref files)

/-- Plans what has to be done for a target. -/
def plan (sources : IncludeSources) (trail : Trail) (filled : Filled) :
    Target → Action Task
  | .localFile declared => do
      if ← Action.look (·.has (sources.localPath declared)) then pure .nothing
      else throw (trail.fail (.missingLocalInclude declared))
  | .remote address => planRemote sources address
  | .project project ref files => planProject sources filled project ref files

/-! ## Clearing and filling -/

/-- Removes what is in the way. -/
def clear (sources : IncludeSources) : Task → Action Unit
  | .link project ref _ => Action.change do
      let folder := sources.refFolder project ref
      IncludeCache.unlinkStale folder
      IncludeCache.createParent folder
      IncludeCache.clear folder
  | .extract true project ref _ => Action.change do
      let folder := sources.refFolder project ref
      IncludeCache.unlinkStale folder
      IncludeCache.clear folder
  | _ => pure ()

/-- The command line that extracts files of a project. -/
def archiveScript (sources : IncludeSources) (project ref : String)
    (files : List String) : String :=
  let remote := sources.repository.remote
  let address := s!"ssh://git@{remote.host}:{remote.port}/{project}.git"
  let names := files.map fun file => Shell.quote (Include.dropSlashes file)
  "git archive --remote=" ++ Shell.quote address ++ " " ++ Shell.quote ref ++
    " " ++ " ".intercalate names ++ " | tar -f - -xC " ++
    Shell.quote (sources.refFolder project ref)

def extract (sources : IncludeSources) (project ref : String)
    (files : List String) : Action Unit := do
  let output ← Action.execute
    { folder := sources.cache.checkout, program := "sh",
      arguments := ["-c", archiveScript sources project ref files] }
  if output.code != 0 then
    throw (.projectInclude project ref (", ".intercalate files))

/-- Keeps the address as it was declared in the failure of a download. -/
def declareFailure (declared : String) : Failure → Failure
  | .remoteInclude address reason => .remoteInclude address reason
  | failure => .remoteInclude declared failure.message

/-- Fills the place of a target. -/
def fill (sources : IncludeSources) : Task → Action Unit
  | .nothing => pure ()
  | .download address declared => do
      let content ← tryCatch (Download.attempt address Download.mostRetries)
          fun failure =>
        throw (declareFailure declared failure)
      Action.change (IncludeCache.store (sources.remotePath declared) content)
  | .link project ref checkout =>
      Action.change (Files.link checkout (sources.refFolder project ref))
  | .extract afresh project ref files => do
      if afresh then
        Action.change (Files.createFolders (sources.refFolder project ref))
      extract sources project ref files

/-- Runs a stage for each target and what the stages before it gave
for the target. -/
def stage {Given Result : Type} (trail : Trail)
    (run : Target → Given → Action Result) :
    List (Target × Given) → Action (List (Target × Result))
  | [] => pure []
  | (target, given) :: rest => do
      let result ← tryCatch (run target given) fun failure =>
        throw (target.blame trail failure)
      let results ← stage trail run rest
      pure ((target, result) :: results)

/-- Brings all targets to their places.  Everything is planned before
anything changes. -/
def prepare (sources : IncludeSources) (trail : Trail) (filled : Filled)
    (targets : List Target) : Action Filled := do
  let plans ← stage trail (fun target () => plan sources trail filled target)
    (targets.map fun target => (target, ()))
  let _ ← stage trail (fun _ task => clear sources task) plans
  let _ ← stage trail (fun _ task => fill sources task) plans
  pure (filled ++ targets.filterMap Target.filled?)

end IncludeSources

end CiPipeline
