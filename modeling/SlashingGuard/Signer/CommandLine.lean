import SlashingGuard.Interchange.Export
import SlashingGuard.Signer.Arguments
import SlashingGuard.Signer.Basic

/-! # The command line

    What the program does for its arguments: it settles the configuration,
    opens the signer, does what it is asked, and closes the signer again.  The
    outcome is an exit code and what is printed. -/

namespace SlashingGuard.CommandLine

/-- What a run of the program shows. -/
structure Outcome where
  code : Nat
  printed : String
  complaint : String
  deriving DecidableEq, Repr

/-- A step of a run. -/
abbrev Step (α : Type) : Type := Signer.Opening α

/-- A step on the disk, and what it is for. -/
def attempt {α : Type} (activity : String) (step : Disk.Attempt α) : Step α :=
  Signer.Opening.of (fun e => (Failure.plain e.message).during activity) step.run

/-! ## Configuration -/

/-- The configuration under the options of the command line. -/
def withOptions (r : Request) (c : SignerConfig) : SignerConfig :=
  { c with storage := { c.storage with
      dataDirectory := r.dataDirectory.getD c.storage.dataDirectory
      backend := r.backend.getD c.storage.backend } }

/-- The configuration from the file, the environment and the options. -/
def settle (r : Request) (environment : SignerConfig.Environment) : Step SignerConfig := do
  let loaded ← Signer.Opening.of ConfigError.failure (SignerConfig.load r.config)
  match loaded.withEnvironment environment with
  | (_, some e) => throw e.failure
  | (c, none) => return withOptions r c

/-! ## Commands -/

/-- The document that the ledger of a signer gives, as far as it could be written, and the error
    that cut it off. -/
def document (s : Signer) : DiskProgram (Option GuardError × String) := do
  let (((result, sink), _), _) ←
    Store.run ((Interchange.exportAll.run.run .unlimited).run ⟨s.guard, .zero⟩) s.store
  match result with
  | .ok () => return (none, sink.accepted)
  | .error e => return (some e, sink.accepted)

/-- Writes the document into a file.  What was written stays there when the export fails. -/
def exportInto (s : Signer) (path : String) : Step Unit := do
  attempt ("creating " ++ path) (Disk.create path)
  let (trouble, text) ← ExceptT.lift (document s)
  let written ← ExceptT.lift (Disk.write path (Bytes.ofText text)).run
  match trouble with
  | some e => throw e.failure
  | none =>
    attempt ("finishing " ++ path) do
      liftM written
      Disk.sync path

/-- Writes the document to the printed text, with a line end behind it. -/
def exportPrinted (s : Signer) : Step String := do
  match ← ExceptT.lift (document s) with
  | (some e, _) => throw e.failure
  | (none, text) => return text ++ "\n"

/-- Runs work of the signer's guard. -/
def ask {α : Type} (s : Signer) (work : GuardWork α) : Step α := do
  let ((result, _), _) ← ExceptT.lift (Signer.perform work ⟨s.guard, .zero⟩ s.store)
  match result with
  | .ok value => return value
  | .error e => throw e.failure

/-- Offers a file for import. -/
def importFrom (s : Signer) (path : String) : Step Unit := do
  attempt ("opening " ++ path) (Disk.probe path)
  let ((result, _), _) ←
    ExceptT.lift (Signer.perform Guard.importDocument ⟨s.guard, .zero⟩ s.store)
  match result with
  | .ok () => return ()
  | .error e => throw (e.failure.during ("importing " ++ path))

/-- Does what a command asks of an open signer, and gives what is printed.  A run prints nothing
    and ends at once: waiting is not its work. -/
def execute (s : Signer) : Command → Step String
  | .run => return ""
  | .exportHistory none => exportPrinted s
  | .exportHistory (some path) => do exportInto s path; return ""
  | .importHistory path => do importFrom s path; return ""
  | .prune => do let _ ← ask s Guard.prune; return ""

/-- Opens the signer, executes the command and closes the signer. -/
def serve (r : Request) (environment : SignerConfig.Environment) : Step String := do
  let config ← settle r environment
  let signer ← Signer.launch config
  let result ← ExceptT.lift (execute signer r.command).run
  ExceptT.lift signer.close
  liftM result

/-- Runs the program for its arguments. -/
def run (arguments : List String) (environment : SignerConfig.Environment) :
    DiskProgram Outcome :=
  match readArguments arguments with
  | .error .help => return ⟨0, Refusal.help.message ++ "\n", ""⟩
  | .error refusal => return ⟨2, "", refusal.message ++ "\n"⟩
  | .ok request => do
    match ← (serve request environment).run with
    | .ok printed => return ⟨0, printed, ""⟩
    | .error f => return ⟨f.code, "", f.report⟩

end SlashingGuard.CommandLine
