import WalletAuth.Json.Passage

/-! Reading a record with known fields, front to back: the first fault met decides whether the text
is malformed or only unsuitable. Fields come by name in any order, other names being passed over, or
by position in a list. -/

namespace WalletAuth.Json

/-- Why a record cannot be read. -/
inductive Fault where
  /-- The text is no JSON. -/
  | malformed
  /-- The text, as far as it was read, is JSON, but of some other shape. -/
  | unsuitable
deriving DecidableEq, Repr

/-- What a field holds. -/
inductive FieldKind where
  | text
  | flag
  | integer
  | optionalInteger
  | count
  | choice (names : List String)

/-- The fault of a value of the wrong kind: a scalar is first read to its end. -/
def wrongKind (input : Bytes) : Fault :=
  match input with
  | 91 :: _ => .unsuitable
  | 123 :: _ => .unsuitable
  | _ => if (takeScalar? input).isSome then .unsuitable else .malformed

/-- The fault for an absent result. -/
def orFault {α : Type} (fault : Fault) : Option α → Except Fault α
  | some value => .ok value
  | none => .error fault

def takeText (input : Bytes) : Except Fault (String × Bytes) :=
  match input with
  | 34 :: rest => orFault .malformed (unquote rest)
  | _ => .error (wrongKind input)

/-- Whether a number is a signed integer of 64 bits. -/
def Number.isInteger : Number → Bool
  | natural value => value < 0x8000000000000000
  | negative _ => true
  | float _ => false

/-- Whether a number is an unsigned integer of 64 bits. -/
def Number.isCount : Number → Bool
  | natural _ => true
  | _ => false

def takeNumberWith (suits : Number → Bool) (input : Bytes) : Except Fault (Value × Bytes) :=
  match takeScalar? input with
  | some (.number number, rest) =>
    if suits number then .ok (.number number, rest) else .error .unsuitable
  | _ => .error (wrongKind input)

/-- Reads one of several names, alone or as the only field of an object, with null. -/
def takeChoice (names : List String) (input : Bytes) : Except Fault (Value × Bytes) :=
  let known (name : String) : Except Fault Unit :=
    if names.contains name then .ok () else .error .unsuitable
  match input with
  | 34 :: _ => do
    let (name, rest) ← takeText input
    known name
    return (.text name, rest)
  | 123 :: rest => do
    let (name, rest) ← takeText (skipBlanks rest)
    known name
    match skipBlanks rest with
    | 58 :: rest =>
      let rest ← orFault (wrongKind (skipBlanks rest)) (dropWord? "null" (skipBlanks rest))
      match skipBlanks rest with
      | 125 :: rest => return (.text name, rest)
      | _ => throw .malformed
    | _ => throw .malformed
  | _ => .error .malformed

def FieldKind.take (kind : FieldKind) (input : Bytes) : Except Fault (Value × Bytes) :=
  let input := skipBlanks input
  match kind with
  | text => (takeText input).map fun (read, rest) => (.text read, rest)
  | flag =>
    match takeScalar? input with
    | some (.bool value, rest) => .ok (.bool value, rest)
    | _ => .error (wrongKind input)
  | integer => takeNumberWith Number.isInteger input
  | optionalInteger =>
    match takeScalar? input with
    | some (.null, rest) => .ok (.null, rest)
    | _ => takeNumberWith Number.isInteger input
  | count => takeNumberWith Number.isCount input
  | choice names => takeChoice names input

def FieldKind.isOptional : FieldKind → Bool
  | optionalInteger => true
  | _ => false

/-- The names and kinds of the fields of a record, in order. -/
abbrev Schema := List (String × FieldKind)

/-- Reads fields by position, up to the end of the list. -/
def takePositional : Schema → Bool → Bytes → Except Fault (List Value × Bytes)
  | [], _, input =>
    match skipBlanks input with
    | 93 :: rest => .ok ([], rest)
    | _ => .error .malformed
  | (_, kind) :: schema, isFirst, input =>
    match skipBlanks input with
    | [] => .error .malformed
    | 93 :: _ => .error .unsuitable
    | mark :: rest => do
      let input ←
        if isFirst then pure (mark :: rest)
        else if mark ≠ 44 then throw .malformed
        else
          match skipBlanks rest with
          | [] => throw .malformed
          | 93 :: _ => throw .malformed
          | input => pure input
      let (value, rest) ← kind.take input
      let (values, rest) ← takePositional schema false rest
      return (value :: values, rest)

/-- The values of all fields in order, from those that were named. -/
def collect (found : List (String × Value)) : Schema → Except Fault (List Value)
  | [] => .ok []
  | (name, kind) :: schema => do
    let value ←
      match found.lookup name with
      | some value => pure value
      | none => if kind.isOptional then pure .null else throw .unsuitable
    return value :: (← collect found schema)

/-- Reads fields by name, up to the end of the object, in at most the given number of steps. A name
that was met before is refused at once. -/
def takeNamed (schema : Schema) :
    Nat → List (String × Value) → Bytes → Except Fault (List Value × Bytes)
  | 0, _, _ => .error .malformed
  | steps + 1, found, input => do
    let (name, rest) ← orFault .malformed (unquote input)
    let afterColon : Except Fault Bytes :=
      match skipBlanks rest with
      | 58 :: rest => .ok rest
      | _ => .error .malformed
    let (found, rest) ←
      match schema.lookup name with
      | some kind => do
        if (found.lookup name).isSome then throw .unsuitable
        let (value, rest) ← kind.take (← afterColon)
        pure ((name, value) :: found, rest)
      | none => do
        let rest ← orFault .malformed (passValue? (← afterColon))
        pure (found, rest)
    match skipBlanks rest with
    | 125 :: rest => return (← collect found schema, rest)
    | 44 :: rest =>
      match skipBlanks rest with
      | 34 :: rest => takeNamed schema steps found rest
      | _ => throw .malformed
    | _ => throw .malformed

def takeRecord (schema : Schema) (input : Bytes) : Except Fault (List Value × Bytes) :=
  match skipBlanks input with
  | 91 :: rest => takePositional schema true rest
  | 123 :: rest =>
    match skipBlanks rest with
    | 125 :: rest => (collect [] schema).map fun values => (values, rest)
    | 34 :: rest' => takeNamed schema rest.length [] rest'
    | _ => .error .malformed
  | input => .error (wrongKind input)

/-- The values of the fields of the record that a whole text spells. -/
def readRecord (schema : Schema) (input : Bytes) : Except Fault (List Value) := do
  let (values, rest) ← takeRecord schema input
  if (skipBlanks rest).isEmpty then return values else throw .malformed

end WalletAuth.Json
