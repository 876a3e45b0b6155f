import SlashingGuard.Json.Error
import SlashingGuard.Text.Decimal

/-! # Reading JSON

    Readers take what is left of a text and give a value and what is left
    behind it, or the first error.  A value that nobody wants is skipped with
    a lighter check: its texts may hold lone surrogates, and its numbers may
    be of any size. -/

namespace SlashingGuard.Json

/-- What is left of a text. -/
abbrev Rest : Type := List Char

/-- A reader of `α`. -/
abbrev Reader (α : Type) : Type := Rest → Except Error (α × Rest)

/-! ## Places of errors -/

/-- An error where reading stands. -/
def stop {α : Type} (cause : Cause) (rest : Rest) : Except Error α :=
  .error ⟨cause, Bytes.utf8Length rest⟩

/-- A flaw where reading stands. -/
def flawAt {α : Type} (flaw : Flaw) (rest : Rest) : Except Error α :=
  stop (.flaw flaw) rest

/-- A flaw behind the next byte. -/
def flawPast {α : Type} (flaw : Flaw) (rest : Rest) : Except Error α :=
  .error ⟨.flaw flaw, Bytes.utf8Length rest - 1⟩

/-! ## Blanks and words -/

def isBlank (c : Char) : Bool :=
  c == ' ' || c == '\n' || c == '\t' || c == '\r'

def skipBlanks (rest : Rest) : Rest :=
  rest.dropWhile isBlank

/-- The rest behind the characters of a word. -/
def readWord : (word : List Char) → Rest → Except Error Rest
  | [], rest => .ok rest
  | _ :: _, [] => flawAt .endInValue []
  | w :: word, c :: rest =>
    if c = w then readWord word rest else flawPast .badWord (c :: rest)

/-! ## Texts -/

def hexDigit? (c : Char) : Option Nat :=
  if '0' ≤ c ∧ c ≤ '9' then some (c.toNat - 48)
  else if 'a' ≤ c ∧ c ≤ 'f' then some (c.toNat - 87)
  else if 'A' ≤ c ∧ c ≤ 'F' then some (c.toNat - 55)
  else none

/-- The number that four hexadecimal digits write. -/
def hexUnit? (a b c d : Char) : Option Nat := do
  return (← hexDigit? a) * 4096 + (← hexDigit? b) * 256 + (← hexDigit? c) * 16 + (← hexDigit? d)

/-- The character that a backslash in front of `c` stands for. -/
def shortEscape? (c : Char) : Option Char :=
  if c = '"' ∨ c = '\\' ∨ c = '/' then some c
  else if c = 'b' then some '\x08'
  else if c = 'f' then some '\x0c'
  else if c = 'n' then some '\n'
  else if c = 'r' then some '\r'
  else if c = 't' then some '\t'
  else none

def isLeading (unit : Nat) : Bool := 0xD800 ≤ unit && unit ≤ 0xDBFF

def isTrailing (unit : Nat) : Bool := 0xDC00 ≤ unit && unit ≤ 0xDFFF

/-- The character of a surrogate pair. -/
def ofSurrogates (leading trailing : Nat) : Char :=
  Char.ofNat ((leading - 0xD800) * 0x400 + (trailing - 0xDC00) + 0x10000)

/-- What is wrong with digits of an escape that are too few or no digits. -/
def hexFlaw {α : Type} (rest : Rest) : Except Error α :=
  if Bytes.utf8Length rest < 4 then flawAt .endInText []
  else .error ⟨.flaw .badEscape, Bytes.utf8Length rest - 4⟩

/-- What is wrong behind a leading surrogate that no second escape follows. -/
def surrogateFlaw {α : Type} : Rest → Except Error α
  | [] => flawAt .endInText []
  | ['\\'] => flawAt .endInText []
  | '\\' :: 'u' :: rest => hexFlaw rest
  | '\\' :: rest => flawPast .halfSurrogate rest
  | rest => flawPast .halfSurrogate rest

/-- The characters up to the closing quote. -/
def readChars : Rest → Except Error (List Char × Rest)
  | [] => flawAt .endInText []
  | '"' :: rest => .ok ([], rest)
  | '\\' :: 'u' :: a :: b :: c :: d :: rest =>
    match hexUnit? a b c d with
    | none => hexFlaw (a :: b :: c :: d :: rest)
    | some unit =>
      if isTrailing unit then flawAt .loneSurrogate rest
      -- A leading half needs its trailing half right behind it.
      else if isLeading unit then
        match rest with
        | '\\' :: 'u' :: e :: f :: g :: h :: more =>
          match hexUnit? e f g h with
          | none => hexFlaw (e :: f :: g :: h :: more)
          | some second =>
            if isTrailing second then
              (readChars more).map fun (s, left) => (ofSurrogates unit second :: s, left)
            else flawAt .loneSurrogate more
        | other => surrogateFlaw other
      else (readChars rest).map fun (s, left) => (Char.ofNat unit :: s, left)
  | '\\' :: 'u' :: rest => hexFlaw rest
  | ['\\'] => flawAt .endInText []
  | '\\' :: c :: rest =>
    match shortEscape? c with
    | some escaped => (readChars rest).map fun (s, left) => (escaped :: s, left)
    | none => flawPast .badEscape (c :: rest)
  | c :: rest =>
    if c.toNat < 32 then flawPast .rawControl (c :: rest)
    else (readChars rest).map fun (s, left) => (c :: s, left)

/-- The rest behind the closing quote, whatever the escapes stand for. -/
def skipChars : Rest → Except Error Rest
  | [] => flawAt .endInText []
  | '"' :: rest => .ok rest
  | '\\' :: 'u' :: a :: b :: c :: d :: rest =>
    match hexUnit? a b c d with
    | none => hexFlaw (a :: b :: c :: d :: rest)
    | some _ => skipChars rest
  | '\\' :: 'u' :: rest => hexFlaw rest
  | ['\\'] => flawAt .endInText []
  | '\\' :: c :: rest =>
    match shortEscape? c with
    | some _ => skipChars rest
    | none => flawPast .badEscape (c :: rest)
  | c :: rest => if c.toNat < 32 then flawAt .rawControl (c :: rest) else skipChars rest

/-! ## Numbers -/

/-- A number as far as readers tell numbers apart. -/
inductive Number where
  /-- A word. -/
  | word (n : Nat)
  /-- A negative number that fits 64 bits. -/
  | negative (n : Int)
  /-- Any other number, and every number with a fraction or an exponent. -/
  | float (x : Float)

def isDigit (c : Char) : Bool := '0' ≤ c && c ≤ '9'

def digitValue (c : Char) : Nat := c.toNat - 48

/-- Digits gathered onto `n` for as long as a word holds them, and the digits from there on. -/
def gather (n : Nat) : List Char → Nat × List Char
  | [] => (n, [])
  | c :: digits =>
    if n * 10 + digitValue c < UInt64.size then gather (n * 10 + digitValue c) digits
    else (n, c :: digits)

/-- `x / 10 ^ e`, in steps that floating-point numbers can hold. -/
def scaleDown (x : Float) (e : Nat) : Float :=
  if e ≤ 308 then x / Float.ofScientific 1 false e
  else if x == 0 then x
  else scaleDown (x / Float.ofScientific 1 false 308) (e - 308)
termination_by e

/-- The floating-point number `n * 10 ^ e`, unless it is too large. -/
def float? (negative : Bool) (n : Nat) (e : Int) : Option Float :=
  let x := (UInt64.ofNat n).toFloat
  let scaled : Option Float :=
    if e < 0 then some (scaleDown x e.natAbs)
    else if e ≤ 308 then
      let y := x * Float.ofScientific 1 false e.toNat
      if y.isInf then none else some y
    else if n = 0 then some x
    else none
  scaled.map fun y => if negative then -y else y

/-- A floating-point number read up to `rest`. -/
def finishFloat (negative : Bool) (n : Nat) (e : Int) : Reader Number := fun rest =>
  match float? negative n e with
  | some x => .ok (.float x, rest)
  | none => flawAt .outOfRange rest

/-- The digits of an exponent, gathered onto `e` while they fit 31 bits, and the rest; `none` in
    place of a number that does not fit. -/
def gatherExponent (e : Nat) : Rest → Option Nat × Rest
  | [] => (some e, [])
  | c :: rest =>
    if isDigit c then
      if e * 10 + digitValue c < UInt32.size / 2 then gatherExponent (e * 10 + digitValue c) rest
      else (none, rest)
    else (some e, c :: rest)

/-- The exponent of a number `n * 10 ^ e`, behind its mark. -/
def readExponent (negative : Bool) (n : Nat) (e : Int) : Reader Number := fun rest =>
  let (down, digits) := match rest with
    | '+' :: more => (false, more)
    | '-' :: more => (true, more)
    | more => (false, more)
  match digits with
  | [] => flawAt .endInValue []
  | c :: more =>
    if isDigit c then
      match gatherExponent (digitValue c) more with
      | (some x, left) => finishFloat negative n (if down then e - x else e + x) left
      | (none, left) =>
        if n ≠ 0 ∧ down = false then flawAt .outOfRange left
        else finishFloat negative 0 0 (left.dropWhile isDigit)
    else flawPast .badNumber (c :: more)

/-- What follows the digits of a number `n * 10 ^ e`: perhaps an exponent. -/
def afterDigits (negative : Bool) (n : Nat) (e : Int) : Reader Number
  | 'e' :: rest => readExponent negative n e rest
  | 'E' :: rest => readExponent negative n e rest
  | rest => finishFloat negative n e rest

/-- The digits behind the point of a number `n * 10 ^ e`. -/
def readFraction (negative : Bool) (n : Nat) (e : Int) : Reader Number := fun rest =>
  match rest.takeWhile isDigit with
  | [] => if rest.isEmpty then flawAt .endInValue [] else flawPast .badNumber rest
  | digits =>
    let (m, dropped) := gather n digits
    afterDigits negative m (e - (digits.length - dropped.length)) (rest.dropWhile isDigit)

/-- A number without fraction and exponent whose digits fit a word. -/
def wholeNumber (negative : Bool) (n : Nat) : Number :=
  if negative = false then .word n
  else if 0 < n ∧ n ≤ UInt64.size / 2 then .negative (-n)
  else .float (-(UInt64.ofNat n).toFloat)

/-- What follows the digits before the point; `dropped` counts digits that no word held. -/
def afterWhole (negative : Bool) (n dropped : Nat) : Reader Number
  | '.' :: rest => readFraction negative n dropped rest
  | 'e' :: rest => readExponent negative n dropped rest
  | 'E' :: rest => readExponent negative n dropped rest
  | rest =>
    if dropped = 0 then .ok (wholeNumber negative n, rest)
    else finishFloat negative n dropped rest

/-- A number, behind its sign. -/
def readNumber (negative : Bool) : Reader Number
  | [] => flawAt .endInValue []
  | '0' :: rest =>
    match rest with
    | c :: _ => if isDigit c then flawPast .badNumber rest else afterWhole negative 0 0 rest
    | [] => afterWhole negative 0 0 rest
  | c :: rest =>
    if isDigit c then
      let (n, dropped) := gather 0 ((c :: rest).takeWhile isDigit)
      afterWhole negative n dropped.length ((c :: rest).dropWhile isDigit)
    else flawPast .badNumber (c :: rest)

/-- The rest behind an exponent. -/
def skipExponent (rest : Rest) : Except Error Rest :=
  let digits := match rest with
    | '+' :: more => more
    | '-' :: more => more
    | more => more
  match digits with
  | c :: more => if isDigit c then .ok (more.dropWhile isDigit) else flawPast .badNumber (c :: more)
  | [] => flawAt .badNumber []

/-- The rest behind what may follow the digits of a number. -/
def skipTail : Rest → Except Error Rest
  | 'e' :: rest => skipExponent rest
  | 'E' :: rest => skipExponent rest
  | rest => .ok rest

/-- The rest behind a number, behind its sign. -/
def skipNumber : Rest → Except Error Rest
  | [] => flawAt .badNumber []
  | c :: rest =>
    if isDigit c then
      let after := if c = '0' then rest else rest.dropWhile isDigit
      match after with
      | '.' :: more =>
        match more with
        | d :: _ =>
          if isDigit d then skipTail (more.dropWhile isDigit) else flawPast .badNumber more
        | [] => flawAt .badNumber []
      | d :: more => if isDigit d then flawPast .badNumber (d :: more) else skipTail after
      | [] => .ok []
    else flawPast .badNumber (c :: rest)

/-! ## Skipping -/

mutual

/-- The rest behind a value of any kind. -/
def skipValue : (fuel : Nat) → Rest → Except Error Rest
  | 0, rest => flawAt .endInValue rest
  | fuel + 1, input =>
    match skipBlanks input with
    | [] => flawAt .endInValue []
    | 'n' :: rest => readWord ['u', 'l', 'l'] rest
    | 't' :: rest => readWord ['r', 'u', 'e'] rest
    | 'f' :: rest => readWord ['a', 'l', 's', 'e'] rest
    | '-' :: rest => skipNumber rest
    | '"' :: rest => skipChars rest
    | '[' :: rest =>
      match skipBlanks rest with
      | [] => flawAt .endInArray []
      | ']' :: after => .ok after
      | first => skipItems fuel first
    | '\x7b' :: rest =>
      match skipBlanks rest with
      | [] => flawAt .endInObject []
      | '\x7d' :: after => .ok after
      | first => skipMembers fuel first
    | c :: rest => if isDigit c then skipNumber (c :: rest) else flawPast .noValue (c :: rest)

/-- The rest behind the items of an array, from one of them on. -/
def skipItems : (fuel : Nat) → Rest → Except Error Rest
  | 0, rest => flawAt .endInValue rest
  | fuel + 1, input => do
    match skipBlanks (← skipValue fuel input) with
    | [] => flawAt .endInArray []
    | ']' :: rest => .ok rest
    | ',' :: rest => skipItems fuel rest
    | rest => flawPast .noArrayEnd rest

/-- The rest behind the members of an object, from one of them on. -/
def skipMembers : (fuel : Nat) → Rest → Except Error Rest
  | 0, rest => flawAt .endInValue rest
  | fuel + 1, input =>
    match skipBlanks input with
    | [] => flawAt .endInObject []
    | '"' :: key => do
      match skipBlanks (← skipChars key) with
      | [] => flawAt .endInObject []
      | ':' :: value =>
        match skipBlanks (← skipValue fuel value) with
        | [] => flawAt .endInObject []
        | '\x7d' :: rest => .ok rest
        | ',' :: rest => skipMembers fuel rest
        | rest => flawPast .noObjectEnd rest
      | rest => flawPast .noColon rest
    | rest => flawPast .keyNoText rest

end

/-- The rest behind a value that nobody wants. -/
def skip (rest : Rest) : Except Error Rest :=
  skipValue (3 * rest.length + 3) rest

/-! ## Values of one kind -/

/-- The complaint that the value ahead is of another kind than expected. -/
def wrongKind {α : Type} (expected : String) : Rest → Except Error α
  | [] => flawAt .endInValue []
  | 'n' :: rest => do complain .null (← readWord ['u', 'l', 'l'] rest)
  | 't' :: rest => do complain (.bool true) (← readWord ['r', 'u', 'e'] rest)
  | 'f' :: rest => do complain (.bool false) (← readWord ['a', 'l', 's', 'e'] rest)
  | '-' :: rest => do number (← readNumber true rest)
  | '"' :: rest => do
    let (s, after) ← readChars rest
    complain (.text (String.ofList s)) after
  | '[' :: rest => complain .sequence ('[' :: rest)
  | '\x7b' :: rest => complain .map ('\x7b' :: rest)
  | c :: rest =>
    if isDigit c then do number (← readNumber false (c :: rest)) else flawPast .noValue (c :: rest)
where
  complain (found : Found) (rest : Rest) : Except Error α :=
    stop (.mismatch (.wrongKind found expected)) rest
  number : Number × Rest → Except Error α
    | (.word n, rest) => complain (.integer n) rest
    | (.negative n, rest) => complain (.integer n) rest
    | (.float x, rest) => complain (.float x) rest

/-- A truth value. -/
def readBool : Reader Bool := fun input =>
  match skipBlanks input with
  | [] => flawAt .endInValue []
  | 't' :: rest => (readWord ['r', 'u', 'e'] rest).map fun after => (true, after)
  | 'f' :: rest => (readWord ['a', 'l', 's', 'e'] rest).map fun after => (false, after)
  | rest => wrongKind "a boolean" rest

/-- A natural number below `bound`, in the type called `name`. -/
def readBelow (bound : Nat) (name : String) : Reader Nat := fun input =>
  match skipBlanks input with
  | [] => flawAt .endInValue []
  | '-' :: rest => do accept (← readNumber true rest)
  | c :: rest =>
    if isDigit c then do accept (← readNumber false (c :: rest)) else wrongKind name (c :: rest)
where
  accept : Number × Rest → Except Error (Nat × Rest)
    | (.word n, rest) =>
      if n < bound then .ok (n, rest) else stop (.mismatch (.wrongValue n name)) rest
    | (.negative n, rest) => stop (.mismatch (.wrongValue n name)) rest
    | (.float x, rest) => stop (.mismatch (.wrongKind (.float x) name)) rest

/-- A word. -/
def readWordNumber : Reader UInt64 := fun input =>
  (readBelow UInt64.size "u64" input).map fun (n, rest) => (UInt64.ofNat n, rest)

/-- A byte. -/
def readByte : Reader UInt8 := fun input =>
  (readBelow UInt8.size "u8" input).map fun (n, rest) => (UInt8.ofNat n, rest)

/-- A text, called `expected` in messages. -/
def readTextAs (expected : String) : Reader String := fun input =>
  match skipBlanks input with
  | [] => flawAt .endInValue []
  | '"' :: rest => (readChars rest).map fun (s, after) => (String.ofList s, after)
  | rest => wrongKind expected rest

/-- A text. -/
def readText : Reader String := readTextAs "a string"

/-- A text that `parse` has to accept; its complaint stands behind the text. -/
def readParsed {α ε : Type} (parse : String → Except ε α) (message : ε → String) : Reader α :=
  fun input => do
    let (s, rest) ← readText input
    match parse s with
    | .ok value => .ok (value, rest)
    | .error e => stop (.mismatch (.refused (message e))) rest

/-- A value, or null for none. -/
def readOptional {α : Type} (read : Reader α) : Reader (Option α) := fun input =>
  match skipBlanks input with
  | 'n' :: rest => (readWord ['u', 'l', 'l'] rest).map fun after => (none, after)
  | rest => (read rest).map fun (value, after) => (some value, after)

/-! ## Enumerations -/

/-- The value whose name is given, among named values. -/
def readName {α : Type} (named : List (String × α)) (input : Rest) : Except Error (α × Rest) := do
  let (name, rest) ← readTextAs "variant identifier" input
  match named.lookup name with
  | some value => .ok (value, rest)
  | none => stop (.mismatch (.unknownName name (named.map Prod.fst))) rest

/-- The null behind the name of an enumerated value. -/
def readNull (input : Rest) : Except Error Rest :=
  match skipBlanks input with
  | [] => flawAt .endInValue []
  | 'n' :: rest => readWord ['u', 'l', 'l'] rest
  | rest => wrongKind "unit" rest

/-- An enumerated value: its name, or an object that holds null under its name. -/
def readEnum {α : Type} (named : List (String × α)) : Reader α := fun input =>
  match skipBlanks input with
  | [] => flawAt .endInValue []
  | '"' :: rest => readName named ('"' :: rest)
  | '\x7b' :: rest => do
    let (value, after) ← readKey rest
    match skipBlanks after with
    | [] => flawAt .endInObject []
    | ':' :: body =>
      match skipBlanks (← readNull body) with
      | [] => flawAt .endInObject []
      | '\x7d' :: left => .ok (value, left)
      | left => flawAt .noValue left
    | left => flawPast .noColon left
  | rest => flawPast .noValue rest
where
  /-- The value whose name is a key. -/
  readKey (input : Rest) : Except Error (α × Rest) :=
    match skipBlanks input with
    | [] => flawAt .endInObject []
    | '"' :: rest => readName named ('"' :: rest)
    | '\x7d' :: rest => flawPast .noValue ('\x7d' :: rest)
    | rest => flawPast .keyNoText rest

/-! ## Arrays -/

/-- The rest from the next item of an array on, if there is one. -/
def nextItem (first : Bool) (input : Rest) : Except Error (Option Rest) :=
  match skipBlanks input with
  | [] => flawAt .endInArray []
  | ']' :: _ => .ok none
  | ',' :: rest =>
    if first then .ok (some (',' :: rest)) else
    match skipBlanks rest with
    | [] => flawAt .endInValue []
    | ']' :: after => flawPast .trailingComma (']' :: after)
    | item => .ok (some item)
  | rest => if first then .ok (some rest) else flawPast .noArrayEnd rest

/-- The end of an array. -/
def endArray (input : Rest) : Except Error Rest :=
  match skipBlanks input with
  | [] => flawAt .endInArray []
  | ']' :: rest => .ok rest
  | ',' :: rest =>
    match skipBlanks rest with
    | ']' :: after => flawPast .trailingComma (']' :: after)
    | other => flawPast .trailingText other
  | rest => flawPast .trailingText rest

/-- Items up to the end of an array. -/
def readItems {α : Type} (read : Reader α) (first : Bool) :
    (fuel : Nat) → Rest → Except Error (List α × Rest)
  | 0, rest => flawAt .endInArray rest
  | fuel + 1, input => do
    match ← nextItem first input with
    | none => return ([], ← endArray input)
    | some item =>
      let (value, rest) ← read item
      let (values, after) ← readItems read false fuel rest
      return (value :: values, after)

/-- An array of values of one kind. -/
def readList {α : Type} (read : Reader α) : Reader (List α) := fun input =>
  match skipBlanks input with
  | [] => flawAt .endInValue []
  | '[' :: rest => readItems read true (rest.length + 1) rest
  | rest => wrongKind "a sequence" rest

/-! ## Whole texts -/

/-- The value of a whole text; only blanks may follow it. -/
def readWhole {α : Type} (read : Reader α) (text : String) : Except Error α := do
  let (value, rest) ← read text.toList
  match skipBlanks rest with
  | [] => return value
  | left => flawPast .trailingText left

end SlashingGuard.Json
