import SlashingGuard.Signer.CommandLine

/-! # The program

    Runs the command line on the file system and the environment of this
    process. -/

namespace SlashingGuard.Outer

/-! ## The file system -/

/-- The locks that this process holds, with the files they are on. -/
abbrev Locks : Type := List (String × IO.FS.Handle)

/-- Work on the file system. -/
abbrev OnDisk (α : Type) : Type := StateT Locks IO α

/-- What kind of refusal an error of the system is. -/
def ioError : IO.Error → IoError
  | .noFileOrDirectory _ _ _ => .notFound
  | .noSuchThing _ _ _ => .notFound
  | .alreadyExists _ _ _ => .exists
  | .inappropriateType _ 21 _ => .isDirectory
  | .inappropriateType _ 20 _ => .notDirectory
  | .invalidArgument _ 36 _ => .nameTooLong
  | .invalidArgument _ 22 _ => .badArgument
  | e => .other (toString e)

/-- An action on the file system, with its error as a reply. -/
def attempt {α : Type} (action : IO α) : OnDisk (Except IoError α) := do
  match ← action.toBaseIO with
  | .ok value => return .ok value
  | .error e => return .error (ioError e)

/-- Opens a file for a moment. -/
def touch (path : String) (mode : IO.FS.Mode) : OnDisk (Except IoError Unit) :=
  attempt do let _ ← IO.FS.Handle.mk path mode

/-- The number of this process, as the system shows it. -/
def processId : IO Nat := do
  let status ← (IO.FS.readFile "/proc/self/stat").toBaseIO
  match status with
  | .ok text => return (((text.splitOn " ").head?.bind String.toNat?).getD 0)
  | .error _ => return 0

/-- Tries to take a lock until the time is up, in milliseconds, pausing longer each time. -/
partial def tryLock (handle : IO.FS.Handle) (left pause : Nat) : IO Bool := do
  if ← handle.tryLock then return true
  if left = 0 then return false
  let pause := min pause left
  IO.sleep pause.toUInt32
  tryLock handle (left - pause) (min (2 * pause) 500)

/-- Answers a call from the file system. -/
def serve : (call : Disk.Call) → OnDisk (Disk.calls.Reply call)
  | .makeDirectories path =>
    if path = "" then return .ok () else attempt (IO.FS.createDirAll path)
  | .read path => do
    let contents ← attempt (IO.FS.readBinFile path)
    return contents.map fun bytes => bytes.toList
  | .probe path => touch path .read
  | .strays directory path => do
    match ← attempt (IO.FS.realPath path), ← attempt (IO.FS.realPath directory) with
    | .error _, _ => return false
    | .ok _, .error _ => return true
    | .ok file, .ok above => return !file.toString.startsWith (above.toString ++ "/")
  | .create path => touch path .write
  | .ensure path => touch path .append
  | .write path contents => attempt (IO.FS.writeBinFile path ⟨contents.toArray⟩)
  | .sync path => touch path .read
  | .rename source target => attempt (IO.FS.rename source target)
  | .lock path wait => do
    match ← attempt (IO.FS.Handle.mk path .append) with
    | .error _ => return false
    | .ok handle =>
      if ← tryLock handle wait.toMillis 50 then
        modify fun locks => (path, handle) :: locks
        return true
      else return false
  | .unlock path => do
    match (← get).lookup path with
    | none => return ()
    | some handle =>
      handle.unlock
      modify fun locks => locks.filter fun entry => entry.1 ≠ path
  | .processId => processId
  | .clock => do return (← IO.monoMsNow) / 1000

/-- Runs a program on the file system. -/
def perform {α : Type} (p : DiskProgram α) : OnDisk α := Program.perform serve p

/-! ## Waiting -/

/-- Prunes once an interval, for as long as the process lives. -/
partial def keepPruning (s : Signer) (schedule : Schedule) (now : Bool) : OnDisk Unit := do
  if now then
    let ((_, c), store) ← perform (Signer.perform Guard.prune ⟨s.guard, .zero⟩ s.store)
    IO.sleep schedule.interval.toMillis.toUInt32
    keepPruning { s with guard := c.guard, store } schedule true
  else
    IO.sleep schedule.interval.toMillis.toUInt32
    keepPruning s schedule true

/-- Waits for as long as the process lives. -/
partial def idle : OnDisk Unit := do
  IO.sleep 1000
  idle

/-- Opens the signer and keeps it open; only a failure to open it returns. -/
def stayOpen (r : CommandLine.Request) (environment : SignerConfig.Environment) :
    OnDisk Failure := do
  let opened ← perform (ExceptT.run do
    let config ← CommandLine.settle r environment
    Signer.launch config)
  match opened with
  | .error f => return f
  | .ok signer =>
    match signer.schedule? with
    | some schedule => keepPruning signer schedule schedule.atBoot
    | none => idle
    return .plain "stopped"

/-! ## The process -/

/-- The variables of the environment that are settings. -/
def environment : IO SignerConfig.Environment := do
  let values ← SignerConfig.settings.mapM fun setting => do
    return (setting.name, ← IO.getEnv setting.name)
  return fun name => (values.lookup name).join

/-- What the process shows for its arguments. -/
def outcome (arguments : List String) : OnDisk CommandLine.Outcome := do
  let settings ← environment
  match CommandLine.readArguments arguments with
  | .ok request =>
    if request.command = .run then
      let f ← stayOpen request settings
      return ⟨f.code, "", f.report⟩
    else perform (CommandLine.run arguments settings)
  | .error _ => perform (CommandLine.run arguments settings)

end SlashingGuard.Outer

def main (arguments : List String) : IO UInt32 := do
  let (shown, _) ← (SlashingGuard.Outer.outcome arguments).run []
  IO.print shown.printed
  IO.eprint shown.complaint
  return shown.code.toUInt32
