import MapQuery.Filter.Tree
import MapQuery.Json.Decode
import MapQuery.Json.Printer
import MapQuery.Text.Blank
import MapQuery.Text.Escaped

/-!
# The stored form of filters

A filter is stored as a list of JSON objects, each tagged by its `type`; a single object stands for
a list of one. A node may also be written as an array of its tag and its fields in order. Every
field may be missing. What a node lacks makes it malformed, not unreadable; unreadable is only a
value of the wrong kind.
-/

set_option autoImplicit false

namespace MapQuery

open Json (Value)

/-- What a stored filter should hold at some point. -/
inductive Wanted where
  | sequence
  | node
  | tag
  | string
  | character

def Wanted.message : Wanted → Text
  | .sequence => "a sequence"
  | .node => "internally tagged enum StoredNode"
  | .tag => "variant identifier"
  | .string => "a string"
  | .character => "a character"

/-- Why a value is not the stored form of a filter. -/
inductive Misfit where
  | kind (found : Value) (wanted : Wanted)
  | noTag
  | notOneCharacter (found : Text)
  | noLiteral
  | tooLong (found fields : Nat)

def kindText : Value → Text
  | .null => "null"
  | .bool b => "boolean \x60" ++ Text.truth b ++ "\x60"
  | .number (.int z) => "integer \x60" ++ Text.integer z ++ "\x60"
  | .number (.real x) => "floating point \x60" ++ Decimal.Layout.json.write x ++ "\x60"
  | .string t => "string " ++ t.escaped
  | .array _ => "sequence"
  | .object _ => "map"

def Misfit.message : Misfit → Text
  | .kind found wanted => "invalid type: " ++ kindText found ++ ", expected " ++ wanted.message
  | .noTag => "missing field \x60type\x60"
  | .notOneCharacter found =>
    "invalid value: string " ++ found.escaped ++ ", expected a character"
  | .noLiteral => "data did not match any variant of untagged enum Literal"
  | .tooLong found fields =>
    "invalid length " ++ Text.natural found ++ ", expected " ++ Text.natural fields
      ++ (if fields = 1 then " element" else " elements") ++ " in sequence"

def tagKey : Text := "type"

/-- The tags of stored nodes. -/
inductive Tag where
  | group (op : Connective)
  | not
  | compare (op : Operator)
  | between
  | ids
  | unknown
  deriving DecidableEq

namespace Tag

def name : Tag → Text
  | .group op => op.name
  | .not => "Not"
  | .compare op => op.name
  | .between => "PropertyIsBetween"
  | .ids => "FeatureId"
  | .unknown => "Unknown"

/-- Every known tag, in the order by which a nested node may number its tag. -/
def known : List Tag :=
  [.group .and, .group .or, .not] ++ Operator.all.map .compare ++ [.between, .ids]

/-- The tag of a name; a foreign name is the tag of an unknown element. -/
def ofName (t : Text) : Tag := (known.find? (·.name == t)).getD .unknown

def ofNumber (n : Nat) : Tag := known[n]?.getD .unknown

def ofValue : Value → Except Misfit Tag
  | .string t => .ok (ofName t)
  | .number (.int (.ofNat n)) => .ok (ofNumber n)
  | v => .error (.kind v .tag)

end Tag

/-- What the fields of a stored node hold. -/
structure NodeFields where
  children : List Node := []
  child : Option Node := none
  column : Option Text := none
  literal : Option Literal := none
  wild : Option Char := none
  single : Option Char := none
  escape : Option Char := none
  lower : Option Literal := none
  upper : Option Literal := none
  ids : List Text := []

/-- A value with what it is as a node and as a list of nodes. -/
structure NodeReading where
  value : Value
  node : Except Misfit Node
  nodes : Except Misfit (List Node)

structure NodeField where
  name : Text
  read : NodeReading → NodeFields → Except Misfit NodeFields

def ifPresent {α : Type} (read : Value → Except Misfit α) : Value → Except Misfit (Option α)
  | .null => .ok none
  | v => (read v).map some

def readString : Value → Except Misfit Text
  | .string t => .ok t
  | v => .error (.kind v .string)

def readCharacter : Value → Except Misfit Char
  | .string [c] => .ok c
  | .string t => .error (.notOneCharacter t)
  | v => .error (.kind v .character)

def readLiteral : Value → Except Misfit Literal
  | .bool b => .ok (.bool b)
  | .number n => .ok (.number n.toFloat)
  | .string t => .ok (.text t)
  | _ => .error .noLiteral

def readStrings : Value → Except Misfit (List Text)
  | .array items => items.mapM readString
  | v => .error (.kind v .sequence)

/-- A field that may be null or missing. -/
def optionalField {α : Type} (name : Text) (read : Value → Except Misfit α)
    (put : Option α → NodeFields → NodeFields) : NodeField :=
  ⟨name, fun r fields => (ifPresent read r.value).map fun a => put a fields⟩

def columnField : NodeField :=
  optionalField "PropertyName" readString fun a f => { f with column := a }

namespace Tag

/-- The fields of the nodes of a tag, in order. -/
def fields : Tag → List NodeField
  | .group _ => [⟨"children", fun r f => r.nodes.map fun a => { f with children := a }⟩]
  | .not => [⟨"child", fun r f =>
      match r.value with
      | .null => .ok { f with child := none }
      | _ => r.node.map fun a => { f with child := some a }⟩]
  | .compare _ => [
      columnField,
      optionalField "Literal" readLiteral fun a f => { f with literal := a },
      optionalField "wildCard" readCharacter fun a f => { f with wild := a },
      optionalField "singleChar" readCharacter fun a f => { f with single := a },
      optionalField "escapeChar" readCharacter fun a f => { f with escape := a }]
  | .between => [
      columnField,
      optionalField "LowerBoundary" readLiteral fun a f => { f with lower := a },
      optionalField "UpperBoundary" readLiteral fun a f => { f with upper := a }]
  | .ids => [⟨"fids", fun r f => (readStrings r.value).map fun a => { f with ids := a }⟩]
  | .unknown => []

/-- The column of a comparison, unless it is blank. -/
def column? (f : NodeFields) : Option Text := f.column.filter fun c => !Text.blank c

/-- The comparison that the fields make. -/
def comparison (op : Operator) (f : NodeFields) : Node :=
  let style : PatternStyle := {}
  let pattern : PatternStyle :=
    ⟨f.wild.getD style.wild, f.single.getD style.single, f.escape.getD style.escape⟩
  match column? f with
  | none => .malformed (.noColumn op)
  | some column =>
    if op.takesLiteral then
      match f.literal with
      | none => .malformed (.noLiteral op column)
      | some l => .compare ⟨op, column, some l, pattern⟩
    else .compare ⟨op, column, none, pattern⟩

def node (f : NodeFields) : Tag → Node
  | .group op => .group op f.children
  | .not =>
    match f.child with
    | some child => .not child
    | none => .malformed .noChild
  | .compare op => comparison op f
  | .between =>
    match column? f, f.lower, f.upper with
    | some column, some lower, some upper => .between column lower upper
    | _, _, _ => .malformed .incompleteBetween
  | .ids => .ids f.ids
  | .unknown => .malformed .unknownElement

def readNamed (fields : List NodeField) :
    List (Text × NodeReading) → NodeFields → Except Misfit NodeFields
  | [], f => .ok f
  | (name, r) :: rest, f =>
    match fields.find? (·.name == name) with
    | none => readNamed fields rest f
    | some field => do
      let f ← field.read r f
      readNamed fields rest f

def readInOrder : List NodeField → List NodeReading → NodeFields → Except Misfit NodeFields
  | field :: fields, r :: rest, f => do
    let f ← field.read r f
    readInOrder fields rest f
  | _, _, f => .ok f

end Tag

namespace NodeReading

def ofMembers (members : List (Text × NodeReading)) : Except Misfit Node :=
  match members.lookup tagKey with
  | none => .error .noTag
  | some r => do
    let tag ← Tag.ofValue r.value
    let f ← Tag.readNamed tag.fields members {}
    .ok (tag.node f)

def ofItems : List NodeReading → Except Misfit Node
  | [] => .error .noTag
  | r :: rest => do
    let tag ← Tag.ofValue r.value
    let f ← Tag.readInOrder tag.fields rest {}
    if tag.fields.length < rest.length then .error (.tooLong rest.length tag.fields.length)
    else .ok (tag.node f)

end NodeReading

namespace Node

mutual

/-- What a value is as a node and as a list of nodes. -/
def reading : Value → NodeReading
  | .object members =>
    ⟨.object members, NodeReading.ofMembers (readingsOfMembers members),
      .error (.kind (.object members) .sequence)⟩
  | .array items =>
    let readings := readingsOfItems items
    ⟨.array items, NodeReading.ofItems readings, readings.mapM NodeReading.node⟩
  | v => ⟨v, .error (.kind v .node), .error (.kind v .sequence)⟩

def readingsOfItems : List Value → List NodeReading
  | [] => []
  | v :: rest => reading v :: readingsOfItems rest

def readingsOfMembers : List (Text × Value) → List (Text × NodeReading)
  | [] => []
  | (k, v) :: rest => (k, reading v) :: readingsOfMembers rest

end

/-- The tag of a top-level node has a name; only nested nodes may number it. -/
def namedTag : Value → Except Misfit Unit
  | .object members =>
    match members.lookup tagKey with
    | some (.number n) => .error (.kind (.number n) .tag)
    | _ => .ok ()
  | .array (.number n :: _) => .error (.kind (.number n) .tag)
  | _ => .ok ()

/-- The node that a value stores. -/
def ofValue (v : Value) : Except Misfit Node := do
  namedTag v
  (reading v).node

end Node

def Literal.toValue : Literal → Value
  | .bool b => .bool b
  | .number x => .number (.real x)
  | .text t => .string t

def taggedObject (tag : Tag) (members : List (Text × Value)) : Value :=
  .object ((tagKey, .string tag.name) :: members)

/-- The members of a comparison after its tag; only patterns keep their special characters. -/
def Comparison.members (c : Comparison) : List (Text × Value) :=
  let literal : List (Text × Value) :=
    match c.literal with
    | some l => [("Literal", l.toValue)]
    | none => []
  let style : List (Text × Value) :=
    if c.operator.isLike then
      [("wildCard", .string [c.pattern.wild]), ("singleChar", .string [c.pattern.single]),
        ("escapeChar", .string [c.pattern.escape])]
    else []
  ("PropertyName", .string c.column) :: (literal ++ style)

namespace Node

mutual

/-- The stored form of a node; a malformed one is stored as an unknown element. -/
def toValue : Node → Value
  | .group op children => taggedObject (.group op) [("children", .array (toValues children))]
  | .not child => taggedObject .not [("child", child.toValue)]
  | .compare c => taggedObject (.compare c.operator) c.members
  | .between column lower upper => taggedObject .between
      [("PropertyName", .string column), ("LowerBoundary", lower.toValue),
        ("UpperBoundary", upper.toValue)]
  | .ids list => taggedObject .ids [("fids", .array (list.map .string))]
  | .malformed _ => taggedObject .unknown []

def toValues : List Node → List Value
  | [] => []
  | n :: rest => n.toValue :: toValues rest

end

end Node

namespace Filter

def ofValue : Value → Except Misfit Filter
  | .object members => do
    let n ← Node.ofValue (.object members)
    .ok ⟨[n]⟩
  | .array items => do
    let nodes ← items.mapM Node.ofValue
    .ok ⟨nodes⟩
  | v => .error (.kind v .sequence)

def toValue (f : Filter) : Value := .array (Node.toValues f.nodes)

/-- Why a text is not the stored form of a filter. -/
inductive Unreadable where
  | text (fault : Json.Fault)
  | value (misfit : Misfit)

def ofText? (t : Text) : Except Unreadable Filter :=
  match Value.ofText? t with
  | .error fault => .error (.text fault)
  | .ok v => (ofValue v).mapError .value

def toText (f : Filter) : Text := f.toValue.compact

end Filter
end MapQuery
