import SlashingGuard.Disk.Call
import SlashingGuard.Store.Durable
import SlashingGuard.Text.Blank

/-! # The lock of a data directory

    One process at a time works on a data directory: the one that holds the
    lock on the file `LOCK` in it.  The file names the process.  It stays when
    the lock is given back, since only the lock counts and not the file. -/

namespace SlashingGuard

/-- Why a data directory could not be locked. -/
inductive LockError where
  /-- The clock cannot count as far as the wait would last. -/
  | endlessWait
  | uncreatable (reason : IoError)
  | inUse (holder : Option Nat) (path : String)
  | unwritable (reason : IoError)
  deriving DecidableEq, Repr

def LockError.message : LockError → String
  | .endlessWait => "overflow when adding duration to instant"
  | .uncreatable reason => "Failed to create lock file: " ++ reason.message
  | .inUse holder path =>
    "Data directory already in use" ++
      (match holder with
      | none => ""
      | some process => " by process " ++ Decimal.write process) ++ " (" ++ path ++ ")"
  | .unwritable reason => "Failed to write PID to lock file: " ++ reason.message

namespace DataDirectory

/-- The process that a lock file names. -/
def holder? (contents : Except IoError String) : Option Nat :=
  match contents.toOption.bind fun text => (Decimal.read (Text.trim text)).toOption with
  | some process => if process.toNat < UInt32.size then some process.toNat else none
  | none => none

/-- Writes this process into a lock file. -/
def sign (path : String) : DiskProgram (Except LockError Unit) := do
  let process ← Disk.processId
  let written ← ExceptT.run do
    Disk.write path (Bytes.ofText (Decimal.write process ++ "\n"))
    Disk.sync path
  return written.mapError LockError.unwritable

/-- Sees to it that a data directory is there and has a lock file, which must not lie elsewhere. -/
def prepare (directory : String) : Disk.Attempt Unit := do
  Disk.makeDirectories directory
  if ← ExceptT.lift (Disk.strays directory (lockFile directory)) then
    throw (.other "Lock path escapes data directory")
  Disk.ensure (lockFile directory)

/-- The last second that a clock can show. -/
def lastMoment : Nat := UInt64.size / 2 - 1

/-- Locks a data directory, which is created if it is missing.  Nothing is done for a wait whose
    end the clock cannot show. -/
def acquire (directory : String) (wait : Duration) : DiskProgram (Except LockError Unit) := do
  let now ← Disk.clock
  if lastMoment < now + wait.wholeSeconds then return .error .endlessWait
  let path := lockFile directory
  match ← (prepare directory).run with
  | .error reason => return .error (.uncreatable reason)
  | .ok () =>
    if ← Disk.lock path wait then
      match ← sign path with
      | .ok () => return .ok ()
      -- The lock is held by now, so an error has to give it back.
      | .error e =>
        Disk.unlock path
        return .error e
    else
      let contents ← (Disk.readText path).run
      return .error (.inUse (holder? contents) path)

/-- Gives the lock of a data directory back. -/
def release (directory : String) : DiskProgram Unit := Disk.unlock (lockFile directory)

end DataDirectory

end SlashingGuard
