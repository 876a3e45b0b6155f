import SlashingGuard.Disk.Call

/-! # A tree of files

    A file system in memory: files and directories under their routes from the
    root, seen from a working directory, and the locks that are held.  A path
    is walked step by step, and every step but the last has to lead into a
    directory, also one that a later step leaves again.  A lock that is held
    is never given up while somebody waits for it.

    There are no links and no permissions, and whatever is there can be made
    durable: a call fails only for where its path leads.  A disk on which calls
    fail for other reasons, or on which two paths lead to one file, is another
    server of the same calls. -/

namespace SlashingGuard.Disk

/-- What stands at the end of a route. -/
inductive Node where
  | file (contents : Bytes)
  | directory
  /-- A device that takes whatever is written, keeps nothing of it, and has nothing to read. -/
  | stream
  deriving DecidableEq, Repr

/-- What a node gives to a reader. -/
def Node.contents : Node → Except IoError Bytes
  | .file contents => .ok contents
  | .directory => .error .isDirectory
  | .stream => .ok []

/-- The names on the way from the root to a node. -/
abbrev Route : Type := List String

/-- The nodes below the root, the working directory, the locks held, the number of the process
    that makes the calls, and the seconds that its clock shows. -/
structure Tree where
  nodes : List (Route × Node)
  here : Route
  locked : List Route
  process : Nat
  clock : Nat
  deriving DecidableEq, Repr

namespace Tree

/-! ## Nodes -/

/-- What stands at the end of a route; the root is always there. -/
def node? (t : Tree) (route : Route) : Option Node :=
  if route = [] then some .directory else t.nodes.lookup route

/-- The tree with a node put at the end of a route. -/
def put (t : Tree) (route : Route) (node : Node) : Tree :=
  { t with nodes := (route, node) :: t.nodes.filter fun entry => entry.1 ≠ route }

/-- The tree with nothing at the end of a route. -/
def remove (t : Tree) (route : Route) : Tree :=
  { t with nodes := t.nodes.filter fun entry => entry.1 ≠ route }

/-- A tree with nothing but an empty working directory. -/
def empty (here : Route) (process clock : Nat) : Tree where
  nodes := (List.range here.length).map fun n => (here.take (n + 1), .directory)
  here
  locked := []
  process
  clock

/-! ## Walking -/

/-- How many bytes a name may have. -/
def nameLimit : Nat := 255

/-- How many bytes a path may have. -/
def pathLimit : Nat := 4095

/-- Where a path ends: in a directory that its last step does not name, or at a name in a
    directory, with or without a slash behind it. -/
inductive Target where
  | directory (route : Route)
  | named (above : Route) (name : String) (slashed : Bool)
  deriving DecidableEq, Repr

/-- The node under a name in a directory, if there is one. -/
def entry? (t : Tree) (above : Route) (name : String) : Except IoError (Option Node) :=
  if nameLimit < name.utf8ByteSize then .error .nameTooLong
  else .ok (t.node? (above ++ [name]))

/-- The directory that a step leads to. -/
def follow (t : Tree) (route : Route) (step : String) : Except IoError Route :=
  if step = "." then .ok route
  else if step = ".." then .ok route.dropLast
  else (t.entry? route step).bind fun node =>
    match node with
    | some .directory => .ok (route ++ [step])
    | some _ => .error .notDirectory
    | none => .error .notFound

/-- Walks a path up to its last step. -/
def aim (t : Tree) (path : String) : Except IoError Target := do
  if path.toList.contains '\x00' then throw .nulInName
  if path = "" then throw .notFound
  if pathLimit < path.utf8ByteSize then throw .nameTooLong
  let start := if Path.isAbsolute path then [] else t.here
  match (Path.steps path).getLast? with
  | none => return .directory start
  | some last =>
    let above ← (Path.steps path).dropLast.foldlM t.follow start
    if last = "." ∨ last = ".." then return .directory (← t.follow above last)
    return .named above last (Path.isSlashed path)

/-- The route of a path at which something stands, and what stands there. -/
def find (t : Tree) (path : String) : Except IoError (Route × Node) := do
  match ← t.aim path with
  | .directory route => return (route, .directory)
  | .named above name slashed =>
    match ← t.entry? above name with
    | none => throw .notFound
    | some .directory => return (above ++ [name], .directory)
    | some node => if slashed then throw .notDirectory else return (above ++ [name], node)

/-- The route of a path at which a file stands or can be put, and the file. -/
def place (t : Tree) (path : String) : Except IoError (Route × Option Node) := do
  match ← t.aim path with
  | .directory _ => throw .isDirectory
  | .named above name slashed =>
    -- With a slash behind it a name is one of a directory, and that is said before it is looked up.
    if slashed then throw .isDirectory
    match ← t.entry? above name with
    | some .directory => throw .isDirectory
    | node => return (above ++ [name], node)

/-- The tree with one more directory, if nothing stands at its path. -/
def withDirectory (t : Tree) (path : String) : Except IoError Tree := do
  match ← t.aim path with
  | .directory _ => throw .exists
  | .named above name _ =>
    match ← t.entry? above name with
    | some _ => throw .exists
    | none => return t.put (above ++ [name]) .directory

def isDirectory (t : Tree) (path : String) : Bool :=
  match t.find path with
  | .ok (_, .directory) => true
  | _ => false

/-! ## Calls -/

/-- The reply to an attempt that changes the tree, and the tree it leaves. -/
def settle (t : Tree) : Except IoError Tree → Except IoError Unit × Tree
  | .ok changed => (.ok (), changed)
  | .error e => (.error e, t)

/-- Creates a directory, unless it is there. -/
def ensureDirectory (t : Tree) (path : String) : Except IoError Unit × Tree :=
  match t.withDirectory path with
  | .ok changed => (.ok (), changed)
  | .error e => (if t.isDirectory path then .ok () else .error e, t)

/-- Creates the first of some paths as a directory, after the next one if there is none to create
    it in.  What was created stays when a later step fails. -/
def ensureDirectories (t : Tree) : List String → Except IoError Unit × Tree
  | [] => (.error .notFound, t)
  | path :: above =>
    if path = "" then (.ok (), t)
    else match t.ensureDirectory path with
      | (.error .notFound, _) =>
        match t.ensureDirectories above with
        | (.ok (), t) => t.ensureDirectory path
        | failed => failed
      | result => result

/-- Whether something stands at a path and lies outside a directory. -/
def strays (t : Tree) (directory path : String) : Bool :=
  match t.find path, t.find directory with
  | .error _, _ => false
  | .ok _, .error _ => true
  | .ok (route, _), .ok (above, _) => !above.isPrefixOf route

/-- The tree with contents in a file that is there, or in a new one; a stream keeps nothing. -/
def fill (t : Tree) (contents : Bytes) : Route × Option Node → Tree
  | (_, some .stream) => t
  | (route, _) => t.put route (.file contents)

/-- The reply to a call, and the tree it leaves. -/
def serve : (call : Call) → Tree → Call.Reply call × Tree
  | .makeDirectories path, t => t.ensureDirectories (Path.upwards path)
  | .read path, t => ((t.find path).bind fun found => Node.contents found.2, t)
  | .probe path, t => ((t.find path).map fun _ => (), t)
  | .strays directory path, t => (t.strays directory path, t)
  | .create path, t => t.settle ((t.place path).map (t.fill []))
  | .ensure path, t =>
    t.settle ((t.place path).map fun found => if found.2.isNone then t.fill [] found else t)
  -- Only a file that is there can be written; creating one is a call of its own.
  | .write path bytes, t =>
    t.settle ((t.find path).bind fun found =>
      (Node.contents found.2).map fun _ => t.fill bytes (found.1, some found.2))
  | .sync path, t =>
    ((t.find path).bind fun found =>
      if found.2 = .stream then .error .badArgument else .ok (), t)
  -- The old name goes only if the new one can be put.
  | .rename source target, t =>
    t.settle ((t.find source).bind fun old =>
      (t.place target).bind fun new =>
        (Node.contents old.2).map fun bytes => (t.remove old.1).put new.1 (.file bytes))
  | .lock path _, t =>
    match t.find path with
    | .error _ => (false, t)
    | .ok (route, _) =>
      if t.locked.contains route then (false, t)
      else (true, { t with locked := route :: t.locked })
  | .unlock path, t =>
    match t.find path with
    | .error _ => ((), t)
    | .ok (route, _) => ((), { t with locked := t.locked.erase route })
  | .processId, t => (t.process, t)
  | .clock, t => (t.clock, t)

end Tree

end SlashingGuard.Disk
