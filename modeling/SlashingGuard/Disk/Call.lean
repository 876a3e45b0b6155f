import SlashingGuard.Disk.Path
import SlashingGuard.Program
import SlashingGuard.Text.Duration

/-! # Calls on a disk

    What a process asks of the file system: directories and files by path,
    and an advisory lock on a file.  Programs of these calls run against a
    tree of files in memory as well as against the real thing. -/

namespace SlashingGuard

/-- Why the file system refused a call. -/
inductive IoError where
  | notFound
  | exists
  | isDirectory
  | notDirectory
  | nameTooLong
  | badArgument
  | nulInName
  | notText
  | other (message : String)
  deriving DecidableEq, Repr

def IoError.message : IoError → String
  | .notFound => "No such file or directory (os error 2)"
  | .exists => "File exists (os error 17)"
  | .notDirectory => "Not a directory (os error 20)"
  | .isDirectory => "Is a directory (os error 21)"
  | .badArgument => "Invalid argument (os error 22)"
  | .nameTooLong => "File name too long (os error 36)"
  | .nulInName => "file name contained an unexpected NUL byte"
  | .notText => "stream did not contain valid UTF-8"
  | .other message => message

namespace Disk

/-- A call on the file system. -/
inductive Call where
  /-- Creates a directory and those above it, where they are missing. -/
  | makeDirectories (path : String)
  /-- The contents of a file. -/
  | read (path : String)
  /-- Whether a file or directory can be opened for reading. -/
  | probe (path : String)
  /-- Whether something stands at a path and lies outside a directory. -/
  | strays (directory path : String)
  /-- Creates a file, or empties it. -/
  | create (path : String)
  /-- Creates a file unless it is there. -/
  | ensure (path : String)
  /-- Gives a file its contents. -/
  | write (path : String) (contents : Bytes)
  /-- Makes the contents of a file or directory durable. -/
  | sync (path : String)
  /-- Moves a file over another. -/
  | rename (source target : String)
  /-- Locks a file against other processes, waiting for them no longer than given. -/
  | lock (path : String) (wait : Duration)
  /-- Gives a lock back. -/
  | unlock (path : String)
  /-- The number of this process. -/
  | processId
  /-- The seconds that a clock shows which never goes back. -/
  | clock
  deriving DecidableEq, Repr

/-- What a call answers; those on files may fail. -/
@[reducible] def Call.Reply : Call → Type
  | .makeDirectories _ => Except IoError Unit
  | .read _ => Except IoError Bytes
  | .probe _ => Except IoError Unit
  | .strays _ _ => Bool
  | .create _ => Except IoError Unit
  | .ensure _ => Except IoError Unit
  | .write _ _ => Except IoError Unit
  | .sync _ => Except IoError Unit
  | .rename _ _ => Except IoError Unit
  | .lock _ _ => Bool
  | .unlock _ => Unit
  | .processId => Nat
  | .clock => Nat

@[reducible] def calls : Interface where
  Call := Call
  Reply := Call.Reply

end Disk

/-- A program of calls on the file system. -/
abbrev DiskProgram (α : Type) : Type := Program Disk.calls α

namespace Disk

/-- The program that makes one call. -/
def ask (call : Call) : DiskProgram call.Reply := .call call .done

def strays (directory path : String) : DiskProgram Bool := ask (.strays directory path)

def lock (path : String) (wait : Duration) : DiskProgram Bool := ask (.lock path wait)

def unlock (path : String) : DiskProgram Unit := ask (.unlock path)

def processId : DiskProgram Nat := ask .processId

def clock : DiskProgram Nat := ask .clock

/-- A program of calls that stops at the first one that fails. -/
abbrev Attempt (α : Type) : Type := ExceptT IoError (Program calls) α

def makeDirectories (path : String) : Attempt Unit := ExceptT.mk (ask (.makeDirectories path))

def read (path : String) : Attempt Bytes := ExceptT.mk (ask (.read path))

def probe (path : String) : Attempt Unit := ExceptT.mk (ask (.probe path))

def create (path : String) : Attempt Unit := ExceptT.mk (ask (.create path))

def ensure (path : String) : Attempt Unit := ExceptT.mk (ask (.ensure path))

def write (path : String) (contents : Bytes) : Attempt Unit :=
  ExceptT.mk (ask (.write path contents))

def sync (path : String) : Attempt Unit := ExceptT.mk (ask (.sync path))

def rename (source target : String) : Attempt Unit := ExceptT.mk (ask (.rename source target))

/-- The text of a file. -/
def readText (path : String) : Attempt String := do
  match Bytes.toText? (← read path) with
  | some text => return text
  | none => throw .notText

end Disk

end SlashingGuard
