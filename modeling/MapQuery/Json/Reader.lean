import MapQuery.Json.Numeral

/-!
# Reading JSON text

From the front of a text one item is read, up to its end or to where the text breaks off. Nothing
is judged here beyond that: what is wrong with an item is for its reader to find.
-/

set_option autoImplicit false

namespace MapQuery.Json

/-- What was read from the front of a text; without a rest the text breaks off within it. -/
abbrev Found := Source × Option Text

/-- The text after the blanks of JSON. -/
def skipBlanks (t : Text) : Text := t.dropWhile fun c => c = ' ' || c = '\n' || c = '\t' || c = '\r'

/-- The text that breaks off here: at its end, or at a character that cannot stand here. -/
def breakAt (t : Text) : Break := .same (if t.isEmpty then .endOfText else .malformed)

def hexDigit? (c : Char) : Option Nat :=
  if c.isDigit then some (c.toNat - '0'.toNat)
  else if 'a' ≤ c ∧ c ≤ 'f' then some (c.toNat - 'a'.toNat + 10)
  else if 'A' ≤ c ∧ c ≤ 'F' then some (c.toNat - 'A'.toNat + 10)
  else none

/-- The code unit of four hexadecimal digits. -/
def hexUnit? (a b c d : Char) : Option Nat := do
  let a ← hexDigit? a
  let b ← hexDigit? b
  let c ← hexDigit? c
  let d ← hexDigit? d
  some (((a * 16 + b) * 16 + c) * 16 + d)

def byteCount (t : Text) : Nat := t.foldl (fun n c => n + c.utf8Size) 0

/-- A string from after its opening quote: what it denotes or the first fault in it, and the text
after its closing quote or the fault where it breaks off. -/
structure StringScan where
  denoted : Except Fault Text
  rest : Except Fault Text

namespace StringScan

def stop (f : Fault) : StringScan := ⟨.error f, .error f⟩

/-- The string goes on after a character. -/
def push (c : Char) (s : StringScan) : StringScan := ⟨s.denoted.map (c :: ·), s.rest⟩

/-- The string goes on after something that denotes no character. -/
def spoil (s : StringScan) : StringScan := ⟨.error .malformed, s.rest⟩

end StringScan

def escape? (c : Char) : Option Char :=
  match c with
  | '"' => some '"'
  | '\\' => some '\\'
  | '/' => some '/'
  | 'b' => some '\x08'
  | 'f' => some '\x0c'
  | 'n' => some '\n'
  | 'r' => some '\r'
  | 't' => some '\t'
  | _ => none

/-- Whether a code unit is the first of a pair. -/
def isLeading (n : Nat) : Bool := 0xD800 ≤ n && n < 0xDC00

/-- Whether a code unit is the second of a pair. -/
def isTrailing (n : Nat) : Bool := 0xDC00 ≤ n && n < 0xE000

def pairChar (leading trailing : Nat) : Char :=
  Char.ofNat (0x10000 + (leading - 0xD800) * 0x400 + (trailing - 0xDC00))

/-- Scans a string; `leading` is a first code unit whose second has to come next. -/
def scanString (leading : Option Nat) : Text → StringScan
  | [] => .stop .endOfText
  | ['\\'] => .stop .endOfText
  | '\\' :: 'u' :: a :: b :: c :: d :: rest =>
    match hexUnit? a b c d with
    | none => .stop .malformed
    | some unit =>
      match leading with
      | some first =>
        if isTrailing unit then (scanString none rest).push (pairChar first unit)
        else (scanString none rest).spoil
      | none =>
        if isTrailing unit then (scanString none rest).spoil
        else if isLeading unit then scanString (some unit) rest
        else (scanString none rest).push (Char.ofNat unit)
  | '\\' :: 'u' :: rest =>
    let fault := if byteCount rest < 4 then Fault.endOfText else .malformed
    .stop fault
  | '\\' :: c :: rest =>
    match escape? c with
    | none => .stop .malformed
    | some e =>
      if leading.isSome then (scanString none rest).spoil else (scanString none rest).push e
  | c :: rest =>
    if c = '"' then ⟨if leading.isSome then .error .malformed else .ok [], .ok rest⟩
    else if c.toNat < 32 then .stop .malformed
    else if leading.isSome then (scanString none rest).spoil
    else (scanString none rest).push c

/-- The fault met first by a reader of a string. -/
def StringScan.firstFault (s : StringScan) (last : Fault) : Fault :=
  match s.denoted with
  | .error f => f
  | .ok _ => last

def readString (t : Text) : Except Break (Except Fault Text × Text) :=
  let s := scanString none t
  match s.rest with
  | .ok rest => .ok (s.denoted, rest)
  | .error f => .error ⟨s.firstFault f, f, s.firstFault f⟩

/-- A word that the text has to go on with. -/
def readWord (word : Text) (s : Source) (t : Text) : Found :=
  match Text.dropBeginning? word t with
  | some rest => (s, some rest)
  | none =>
    let isCut := t.length < word.length && (Text.dropBeginning? t word).isSome
    let fault := if isCut then Fault.endOfText else .malformed
    (.broken (.nameless fault fault), none)

def readNumber (negative : Bool) (t : Text) : Found :=
  match splitNumber negative t with
  | .ok (n, rest) => (.number n, some rest)
  | .error b => (.broken b, none)

def consItem (s : Source) (found : List Source × Option Break × Option Text) :
    List Source × Option Break × Option Text :=
  (s :: found.1, found.2)

def consMember (m : Except Fault Text × Source)
    (found : List (Except Fault Text × Source) × Option Break × Option Text) :
    List (Except Fault Text × Source) × Option Break × Option Text :=
  (m :: found.1, found.2)

/-- A member without a key, at which the text breaks off. -/
def lostMember (b : Break) : List (Except Fault Text × Source) × Option Break × Option Text :=
  ([(.error b.read, .broken b)], none, none)

mutual

/-- The item a text starts with. Every second step takes a character, which bounds the fuel. -/
def readItem : Nat → Text → Found
  | 0, _ => (.broken (.same .malformed), none)
  | fuel + 1, t =>
    match skipBlanks t with
    | 'n' :: rest => readWord "ull" .null rest
    | 't' :: rest => readWord "rue" (.bool true) rest
    | 'f' :: rest => readWord "alse" (.bool false) rest
    | '"' :: rest =>
      match readString rest with
      | .ok (s, rest) => (.string s, some rest)
      | .error b => (.broken b, none)
    | '[' :: rest =>
      match skipBlanks rest with
      | ']' :: rest => (.array [] none, some rest)
      | [] => (.array [] (some (.same .endOfText)), none)
      | rest =>
        let (items, cut, rest) := readItems fuel rest
        (.array items cut, rest)
    | '{' :: rest =>
      match skipBlanks rest with
      | '}' :: rest => (.object [] none, some rest)
      | rest =>
        let (members, cut, rest) := readMembers fuel rest
        (.object members cut, rest)
    | '-' :: rest => readNumber true rest
    | c :: rest =>
      if c.isDigit then readNumber false (c :: rest) else (.broken (.same .malformed), none)
    | [] => (.broken (.same .endOfText), none)

def readItems : Nat → Text → List Source × Option Break × Option Text
  | 0, _ => ([], some (.same .malformed), none)
  | fuel + 1, t =>
    match readItem fuel t with
    | (s, none) => ([s], none, none)
    | (s, some rest) =>
      match skipBlanks rest with
      | ']' :: rest => ([s], none, some rest)
      | ',' :: rest => consItem s (readItems fuel rest)
      | rest => ([s], some (breakAt rest), none)

def readMembers : Nat → Text → List (Except Fault Text × Source) × Option Break × Option Text
  | 0, _ => ([], some (.same .malformed), none)
  | fuel + 1, t =>
    match skipBlanks t with
    | '"' :: rest =>
      match readString rest with
      | .error b => lostMember b
      | .ok (key, rest) =>
        match skipBlanks rest with
        | ':' :: rest =>
          match readItem fuel rest with
          | (s, none) => ([(key, s)], none, none)
          | (s, some rest) =>
            match skipBlanks rest with
            | '}' :: rest => ([(key, s)], none, some rest)
            | ',' :: rest => consMember (key, s) (readMembers fuel rest)
            | rest => ([(key, s)], some (breakAt rest), none)
        | rest => ([(key, .broken (breakAt rest))], none, none)
    | rest => lostMember (breakAt rest)

end

/-- Reads a whole text with the given reader; after the value only blanks may follow. -/
def readWhole {α : Type} (reader : Source → Except Fault α) (t : Text) : Except Fault α :=
  let (s, rest) := readItem (2 * t.length + 2) t
  do
    let a ← reader s
    match rest.map skipBlanks with
    | some (_ :: _) => .error .malformed
    | _ => .ok a

def Value.ofText? (t : Text) : Except Fault Value := readWhole (Source.value Source.depthLimit) t

end MapQuery.Json
