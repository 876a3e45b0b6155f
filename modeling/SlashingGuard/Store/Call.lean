import SlashingGuard.Program
import SlashingGuard.Text.Decimal
import SlashingGuard.Store.Table

/-! # Calls on a store

    What the ledger asks of the store below it: one value, whether a key is
    there, the entries under a scope, and a batch of changes that is applied
    as a whole or not at all.  Any call may fail.  A table that answers every
    call from memory is the simplest store. -/

namespace SlashingGuard

/-- Why a store failed. -/
inductive StoreFault where
  /-- Reading or writing failed; a later attempt may succeed. -/
  | io (message : String)
  /-- What is stored cannot be read back. -/
  | corruption (message : String)
  deriving DecidableEq, Repr

def StoreFault.message : StoreFault → String
  | .io message => "KV store I/O error: " ++ message
  | .corruption message => "KV store corruption: " ++ message

/-- One change of a batch. -/
inductive Change where
  | put (key value : Bytes)
  | delete (key : Bytes)
  deriving DecidableEq, Repr

namespace Change

def key : Change → Bytes
  | .put key _ => key
  | .delete key => key

/-- The bytes of a key or value as decimal numbers. -/
def byteList (bytes : Bytes) : String :=
  "[" ++ String.intercalate ", " (bytes.map fun b => Decimal.write b.toNat) ++ "]"

/-- The change in words. -/
def describe : Change → String
  | .put key value => "Put \x7b key: " ++ byteList key ++ ", value: " ++ byteList value ++ " \x7d"
  | .delete key => "Delete \x7b key: " ++ byteList key ++ " \x7d"

/-- The table with one change made. -/
def apply (t : Table Bytes) : Change → Table Bytes
  | .put key value => t.insert key value
  | .delete key => t.erase key

end Change

/-- The table with the changes of a batch made in order. -/
def Table.applyBatch (t : Table Bytes) (batch : List Change) : Table Bytes :=
  batch.foldl Change.apply t

namespace Store

/-- A call on a store. -/
inductive Call where
  | get (key : Bytes)
  | contains (key : Bytes)
  | scan (scope : Bytes)
  | write (batch : List Change)
  deriving DecidableEq, Repr

/-- The kinds of call, without their arguments. -/
inductive CallKind where
  | get
  | contains
  | scan
  | write
  deriving DecidableEq, Repr

def Call.kind : Call → CallKind
  | .get _ => .get
  | .contains _ => .contains
  | .scan _ => .scan
  | .write _ => .write

/-- What a call answers when it does not fail. -/
@[reducible] def Call.Answer : Call → Type
  | .get _ => Option Bytes
  | .contains _ => Bool
  | .scan _ => List (Entry Bytes)
  | .write _ => Unit

/-- The calls on a store, each of which may fail. -/
@[reducible] def calls : Interface where
  Call := Call
  Reply := fun call => Except StoreFault call.Answer

end Store

/-- A program of calls on a store. -/
abbrev StoreProgram (α : Type) : Type := Program Store.calls α

namespace Table

/-- What a table answers to a call. -/
def answer (t : Table Bytes) : (call : Store.Call) → call.Answer
  | .get key => t.get? key
  | .contains key => t.contains key
  | .scan scope => t.scan scope
  | .write _ => ()

/-- The table that a call leaves. -/
def after (t : Table Bytes) : Store.Call → Table Bytes
  | .write batch => t.applyBatch batch
  | _ => t

/-- The store that never fails and keeps everything in memory. -/
def serve (call : Store.Call) (t : Table Bytes) : Store.calls.Reply call × Table Bytes :=
  (.ok (t.answer call), t.after call)

end Table

end SlashingGuard
