import WalletAuth.Json.Value

/-! Reading JSON text. Lists and objects may nest 127 deep. -/

namespace WalletAuth.Json

def skipBlanks (input : Bytes) : Bytes :=
  input.dropWhile fun char => char == 32 || char == 10 || char == 13 || char == 9

def dropWord? (word : String) (input : Bytes) : Option Bytes :=
  let word := Bytes.ofString word
  if word.isPrefixOf input then some (input.drop word.length) else none

/-- How deep lists and objects may nest. -/
def maxDepth : Nat := 127

/-- Reads items separated by commas up to a closing mark, behind those already read (kept in
reverse). At most the given number of items is read. -/
def takeItems {α : Type} (item : Bytes → Option (α × Bytes)) (close : UInt8) :
    Nat → List α → Bytes → Option (List α × Bytes)
  | 0, _, _ => none
  | count + 1, read, input =>
    match item input with
    | none => none
    | some (value, rest) =>
      match skipBlanks rest with
      | 44 :: rest => takeItems item close count (value :: read) rest
      | mark :: rest => if mark = close then some ((value :: read).reverse, rest) else none
      | [] => none

/-- Reads what follows an opening mark: nothing but the closing mark, or items. -/
def takeGroup {α : Type} (item : Bytes → Option (α × Bytes)) (close : UInt8) (count : Nat)
    (input : Bytes) : Option (List α × Bytes) :=
  match skipBlanks input with
  | [] => none
  | mark :: rest =>
    if mark = close then some ([], rest) else takeItems item close count [] (mark :: rest)

/-- Reads a name and a colon off the front. -/
def takeName? (input : Bytes) : Option (String × Bytes) :=
  match skipBlanks input with
  | 34 :: rest =>
    (unquote rest).bind fun (name, rest) =>
      match skipBlanks rest with
      | 58 :: rest => some (name, rest)
      | _ => none
  | _ => none

def takeField? (value : Bytes → Option (Value × Bytes)) (input : Bytes) :
    Option ((String × Value) × Bytes) :=
  (takeName? input).bind fun (name, rest) =>
    (value rest).map fun (value, rest) => ((name, value), rest)

/-- Reads a value that is neither list nor object off the front. -/
def takeScalar? (input : Bytes) : Option (Value × Bytes) :=
  match input with
  | 110 :: _ => (dropWord? "null" input).map fun rest => (.null, rest)
  | 116 :: _ => (dropWord? "true" input).map fun rest => (.bool true, rest)
  | 102 :: _ => (dropWord? "false" input).map fun rest => (.bool false, rest)
  | 34 :: rest => (unquote rest).map fun (text, rest) => (.text text, rest)
  | _ => (takeNumber? input).map fun (number, rest) => (.number number, rest)

/-- Reads a value off the front, with lists and objects nested at most `depth` deep and of at most
`count` items each. -/
def takeValue? (count : Nat) : Nat → Bytes → Option (Value × Bytes)
  | 0, input => takeScalar? (skipBlanks input)
  | depth + 1, input =>
    match skipBlanks input with
    | 91 :: rest =>
      (takeGroup (takeValue? count depth) 93 count rest).map fun (items, rest) =>
        (.list items, rest)
    | 123 :: rest =>
      (takeGroup (takeField? (takeValue? count depth)) 125 count rest).map fun (fields, rest) =>
        (.object fields, rest)
    | input => takeScalar? input

/-- The value that a whole text spells. A text has fewer items than bytes. -/
def parse? (input : Bytes) : Option Value :=
  match takeValue? input.length maxDepth input with
  | some (value, rest) => if (skipBlanks rest).isEmpty then some value else none
  | none => none

end WalletAuth.Json
