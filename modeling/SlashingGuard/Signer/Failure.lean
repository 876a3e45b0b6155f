import SlashingGuard.Text.Decimal

/-! # Failures in words

    A failure as it is told to a person: what went wrong, and the causes of
    that, each caused by the next.  With it goes the exit code that tells it to
    another program. -/

namespace SlashingGuard

structure Failure where
  message : String
  causes : List String
  code : Nat := 1
  deriving DecidableEq, Repr

namespace Failure

/-- A failure that has no cause beside itself. -/
def plain (message : String) : Failure := { message, causes := [] }

/-- A failure with one cause. -/
def because (message cause : String) : Failure := { message, causes := [cause] }

/-- A failure of the program itself, and not of what it was asked to do. -/
def abort (message : String) : Failure := { message, causes := [], code := 101 }

/-- A failure met while something was being done. -/
def during (activity : String) (f : Failure) : Failure :=
  { f with message := activity, causes := f.message :: f.causes }

/-- The message and all causes in one line. -/
def line (f : Failure) : String := String.intercalate ": " (f.message :: f.causes)

/-! ## The report -/

/-- Spaces in front of a text, so many that it ends at `width`. -/
def padLeft (width : Nat) (text : String) : String :=
  String.ofList (List.replicate (width - text.length) ' ') ++ text

/-- A text behind a mark; its further lines are indented. -/
def behind (mark indent text : String) : String :=
  mark ++ String.intercalate ("\n" ++ indent) (text.splitOn "\n")

/-- Causes on lines of their own, counted from `n`. -/
def numbered (n : Nat) : List String → String
  | [] => ""
  | cause :: rest =>
    "\n" ++ behind (padLeft 5 (Decimal.write n) ++ ": ") "       " cause ++ numbered (n + 1) rest

/-- The causes: one alone is indented, several are numbered. -/
def causeLines : List String → String
  | [] => ""
  | [cause] => "\n\nCaused by:\n" ++ behind "    " "    " cause
  | causes => "\n\nCaused by:" ++ numbered 0 causes

/-- What is printed about a failure. -/
def report (f : Failure) : String :=
  "Error: " ++ f.message ++ causeLines f.causes ++ "\n"

end Failure

end SlashingGuard
