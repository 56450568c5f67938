import WalletAuth.Json.Parser

/-! Passing over a value that nobody reads. Only its form is checked, and it may nest to any
depth. -/

namespace WalletAuth.Json

/-- What values are grouped in. -/
inductive Group where
  | list
  | object
deriving DecidableEq

def Group.closing : Group → UInt8
  | list => 93
  | object => 125

/-- Passes over what precedes a value in a group: the name and the colon, in an object. -/
def Group.passName? : Group → Bytes → Option Bytes
  | list, input => some input
  | object, input =>
    match skipBlanks input with
    | 34 :: rest =>
      (passQuoted rest).bind fun rest =>
        match skipBlanks rest with
        | 58 :: rest => some rest
        | _ => none
    | _ => none

def passScalar? (input : Bytes) : Option Bytes :=
  match input with
  | 110 :: _ => dropWord? "null" input
  | 116 :: _ => dropWord? "true" input
  | 102 :: _ => dropWord? "false" input
  | 34 :: rest => passQuoted rest
  | _ => (NumberText.take? input).map fun (_, rest) => rest

/-- What is met next on the way through a value. -/
inductive Stage where
  /-- A value. -/
  | value
  /-- The first value of a group, or its closing mark. -/
  | opened
  /-- A comma or a closing mark. -/
  | passed

/-- Passes on through the groups that are still open, the innermost first, in at most the given
number of steps. -/
def passFrom : Nat → Stage → List Group → Bytes → Option Bytes
  | 0, _, _, _ => none
  | _ + 1, .passed, [], input => some input
  | _ + 1, .opened, [], _ => none
  | steps + 1, .value, groups, input =>
    match skipBlanks input with
    | 91 :: rest => passFrom steps .opened (.list :: groups) rest
    | 123 :: rest => passFrom steps .opened (.object :: groups) rest
    | input =>
      match passScalar? input with
      | some rest => passFrom steps .passed groups rest
      | none => none
  | steps + 1, .opened, group :: groups, input =>
    match skipBlanks input with
    | [] => none
    | mark :: rest =>
      if mark = group.closing then passFrom steps .passed groups rest
      else
        match group.passName? (mark :: rest) with
        | some rest => passFrom steps .value (group :: groups) rest
        | none => none
  | steps + 1, .passed, group :: groups, input =>
    match skipBlanks input with
    | [] => none
    | mark :: rest =>
      if mark = 44 then
        match group.passName? rest with
        | some rest => passFrom steps .value (group :: groups) rest
        | none => none
      else if mark = group.closing then passFrom steps .passed groups rest
      else none

/-- Passes over a value at the front. Every second step at least consumes a byte. -/
def passValue? (input : Bytes) : Option Bytes :=
  passFrom (2 * input.length + 2) .value [] input

end WalletAuth.Json
