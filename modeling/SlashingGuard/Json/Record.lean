import SlashingGuard.Json.Reader

/-! # Reading records

    A record is read from an object, in any order of its members, or from an
    array of its members in their order.  It starts from a draft, which holds
    what members that may be left out have when they are; a member that is
    there replaces its part of the draft.  Members of other names are skipped,
    and a member that comes twice is refused. -/

namespace SlashingGuard.Json

/-- Where a member of a record has to be present. -/
inductive Presence where
  | everywhere
  | inArrays
  | nowhere
  deriving DecidableEq, Repr

def Presence.inObject : Presence → Bool
  | .everywhere => true
  | _ => false

def Presence.inArray : Presence → Bool
  | .nowhere => false
  | _ => true

/-- A member of a record with drafts in `σ`: its value, once read, becomes part of the draft. -/
structure Member (σ : Type) where
  name : String
  presence : Presence
  read : Reader (σ → σ)

/-- The member `name`, read by `read` and put into the draft by `store`. -/
def Member.of {σ α : Type} (name : String) (presence : Presence) (read : Reader α)
    (store : α → σ → σ) : Member σ :=
  ⟨name, presence, fun input => (read input).map fun (value, rest) => (store value, rest)⟩

/-- A record: its name, its members in order, and the draft it starts from. -/
structure Record (σ : Type) where
  name : String
  members : List (Member σ)
  draft : σ

namespace Record

variable {σ : Type}

/-- What follows the members read so far: the rest behind the quote of the next name, or the rest
    behind the object. -/
inductive Next where
  | name (rest : Rest)
  | closed (rest : Rest)

/-- The next name of an object, or its end. -/
def next (first : Bool) (input : Rest) : Except Error Next :=
  match skipBlanks input with
  | [] => flawAt .endInObject []
  | '\x7d' :: rest => .ok (.closed rest)
  | '"' :: rest => if first then .ok (.name rest) else flawPast .noObjectEnd ('"' :: rest)
  | ',' :: rest =>
    if first then flawPast .keyNoText (',' :: rest) else
    match skipBlanks rest with
    | [] => flawAt .endInValue []
    | '"' :: after => .ok (.name after)
    | '\x7d' :: after => flawPast .trailingComma ('\x7d' :: after)
    | other => flawPast .keyNoText other
  | rest => if first then flawPast .keyNoText rest else flawPast .noObjectEnd rest

/-- The rest behind the colon that follows a name. -/
def readColon (input : Rest) : Except Error Rest :=
  match skipBlanks input with
  | [] => flawAt .endInObject []
  | ':' :: rest => .ok rest
  | rest => flawPast .noColon rest

/-- The rest behind the blanks ahead, and behind the end of an object, if that follows them. -/
def pastObject (input : Rest) : Rest :=
  match skipBlanks input with
  | '\x7d' :: rest => rest
  | rest => rest

/-- The draft, unless a member is missing whose name was not seen. -/
def complete (r : Record σ) (seen : List String) (draft : σ) (rest : Rest) :
    Except Error (σ × Rest) :=
  match r.members.find? fun m => m.presence.inObject && !seen.contains m.name with
  | some m => stop (.mismatch (.missingMember m.name)) rest
  | none => .ok (draft, rest)

/-- The members of an object up to its end; `seen` holds the names read before. -/
def readMembers (r : Record σ) : (fuel : Nat) → (first : Bool) → (seen : List String) →
    (draft : σ) → Rest → Except Error (σ × Rest)
  | 0, _, _, _, rest => flawAt .endInObject rest
  | fuel + 1, first, seen, draft, input => do
    match ← next first input with
    | .closed rest => complete r seen draft rest
    | .name quoted =>
      let (chars, rest) ← readChars quoted
      let name := String.ofList chars
      match r.members.find? fun m => m.name == name with
      | none => readMembers r fuel false seen draft (← skip (← readColon rest))
      | some m =>
        if seen.contains name then
          stop (.mismatch (.duplicateMember name)) (pastObject rest)
        else
          let (store, after) ← m.read (← readColon rest)
          readMembers r fuel false (name :: seen) (store draft) after

/-- Members from an array, in order; `count` items were read before. -/
def readItems (r : Record σ) : (members : List (Member σ)) → (count : Nat) → (draft : σ) → Rest →
    Except Error (σ × Rest)
  | [], _, draft, input => (endArray input).map fun rest => (draft, rest)
  | m :: members, count, draft, input => do
    match ← nextItem (count == 0) input with
    | some item =>
      let (store, rest) ← m.read item
      readItems r members (count + 1) (store draft) rest
    | none =>
      if m.presence.inArray then
        stop (.mismatch (.wrongLength count r.name r.members.length)) (← endArray input)
      else readItems r members count draft input

/-- A record, from an object or an array. -/
def read (r : Record σ) : Reader σ := fun input =>
  match skipBlanks input with
  | [] => flawAt .endInValue []
  | '[' :: rest => r.readItems r.members 0 r.draft rest
  | '\x7b' :: rest => r.readMembers (rest.length + 1) true [] r.draft rest
  | rest => wrongKind ("struct " ++ r.name) rest

end Record

end SlashingGuard.Json
