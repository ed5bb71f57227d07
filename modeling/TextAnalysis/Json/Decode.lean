import TextAnalysis.Json.Draft
import TextAnalysis.Number.Binary32
import TextAnalysis.Text.Words

/-!
# Values out of drafts

Decoders that take a value of a given kind out of a draft. The first fault in the order of the text
is the one reported. A record is decoded from an object, whose members may come in any order and may
be missing where the record says so, or from an array of its fields in order.
-/

set_option autoImplicit false

namespace TextAnalysis.Json

/-- Takes a value out of a draft. -/
abbrev Decoder (α : Type) := Draft → Except JsonFault α

mutual

/-- The fault that counts in a value that is passed over. -/
def Draft.skip : Draft → Except JsonFault Unit
  | .broken _ skipped => .error skipped
  | .array items ending => do
    skipItems items
    ending.check
  | .object members ending => do
    skipMembers members
    ending.check
  | _ => .ok ()

/-- The first fault that counts in items that are passed over. -/
def skipItems : List Draft → Except JsonFault Unit
  | [] => .ok ()
  | d :: rest => do
    d.skip
    skipItems rest

/-- The first fault that counts in members that are passed over. -/
def skipMembers : List (String × Draft) → Except JsonFault Unit
  | [] => .ok ()
  | (_, d) :: rest => do
    d.skip
    skipMembers rest

/-- The fault of an ending. -/
def Ending.check : Ending → Except JsonFault Unit
  | .closed => .ok ()
  | .broken fault => .error fault

end

/-- The greatest depth to which values may be nested where they are kept as they are. -/
def maxDepth : Nat := 127

mutual

/-- A draft as a value, where it has no fault at all. Values may be nested to the given depth. -/
def Draft.value (depth : Nat) : Draft → Except JsonFault Json
  | .null => .ok .null
  | .bool b => .ok (.bool b)
  | .integer negative n => .ok (.integer negative n)
  | .decimal negative d => .ok (.decimal negative d)
  | .string s => .ok (.string s)
  | .unusable => .error .malformed
  | .broken used _ => .error used
  | .array items ending =>
    match depth with
    | 0 => .error .malformed
    | depth + 1 => do
      let items ← itemValues depth items
      ending.check
      return .array items
  | .object members ending =>
    match depth with
    | 0 => .error .malformed
    | depth + 1 => do
      let members ← memberValues depth members
      ending.check
      return .object members

/-- Items as values. -/
def itemValues (depth : Nat) : List Draft → Except JsonFault (List Json)
  | [] => .ok []
  | d :: rest => do
    let j ← d.value depth
    return j :: (← itemValues depth rest)

/-- Members as values. -/
def memberValues (depth : Nat) : List (String × Draft) → Except JsonFault (List (String × Json))
  | [] => .ok []
  | (key, d) :: rest => do
    let j ← d.value depth
    return (key, j) :: (← memberValues depth rest)

end

mutual

/-- A value as a draft, which has no fault. -/
def toDraft : Json → Draft
  | .null => .null
  | .bool b => .bool b
  | .integer negative n => .integer negative n
  | .decimal negative d => .decimal negative d
  | .string s => .string s
  | .array items => .array (toDrafts items) .closed
  | .object members => .object (toDraftMembers members) .closed

/-- Items as drafts. -/
def toDrafts : List Json → List Draft
  | [] => []
  | j :: rest => j.toDraft :: toDrafts rest

/-- Members as drafts. -/
def toDraftMembers : List (String × Json) → List (String × Draft)
  | [] => []
  | (key, j) :: rest => (key, j.toDraft) :: toDraftMembers rest

end

/-- The fault of a draft that has another kind than the one asked for. -/
def Draft.mismatch : Draft → JsonFault
  | .broken used _ => used
  | .unusable => .malformed
  | _ => .mismatch

/-- Takes a value out of a text. -/
def decodeText {α : Type} (d : Decoder α) (text : String) : Except JsonFault α := do
  let (draft, trailing) := readText text
  let a ← d draft
  if trailing then .error .malformed else .ok a

/-- Takes a value out of a JSON value, in which the shape alone can be wrong. -/
def decodeValue {α : Type} (d : Decoder α) (j : Json) : Except JsonFault α :=
  match d j.toDraft with
  | .ok a => .ok a
  | .error _ => .error .mismatch

namespace Decoder

/-- A truth value. -/
def truth : Decoder Bool
  | .bool b => .ok b
  | d => .error d.mismatch

/-- A count of 64 bits. -/
def count : Decoder Nat
  | .integer negative n => if negative && n ≠ 0 then .error .mismatch else .ok n
  | d => .error d.mismatch

/-- A text. -/
def text : Decoder String
  | .string s => .ok s
  | d => .error d.mismatch

/-- A number, rounded to single precision. -/
def number : Decoder Binary32
  | .integer negative n => .ok (Binary32.ofDecimal negative ⟨n, 0⟩)
  | .decimal negative d => .ok (Binary32.ofDecimal negative d)
  | d => .error d.mismatch

/-- A value that may be missing, which null stands for. -/
def optional {α : Type} (d : Decoder α) : Decoder (Option α)
  | .null => .ok none
  | draft => (d draft).map some

/-- The values of a list of drafts. -/
def items {α : Type} (decode : Decoder α) : List Draft → Except JsonFault (List α)
  | [] => .ok []
  | d :: rest => do
    let a ← decode d
    return a :: (← items decode rest)

/-- A list, as an array. -/
def list {α : Type} (decode : Decoder α) : Decoder (List α)
  | .array drafts ending => do
    let values ← items decode drafts
    ending.check
    return values
  | d => .error d.mismatch

/-- A set of words, as an array. -/
def words : Decoder WordSet := fun d => (list text d).map WordSet.ofWords

/-- Adds members whose values are texts to a map. -/
def textMembers (m : Std.ExtTreeMap String String) :
    List (String × Draft) → Except JsonFault (Std.ExtTreeMap String String)
  | [] => .ok m
  | (key, d) :: rest => do
    let s ← text d
    textMembers (m.insert key s) rest

/-- A map from texts to texts, as an object. A later member takes the place of an earlier one. -/
def textMap : Decoder (Std.ExtTreeMap String String)
  | .object members ending => do
    let m ← textMembers ∅ members
    ending.check
    return m
  | d => .error d.mismatch

end Decoder

/-- A field of a record: its name, whether it may be missing, and how its value is put into the
record. -/
structure Field (α : Type) where
  name : String
  required : Bool
  set : α → Decoder α

namespace Field

/-- A field that has a value in the record already. -/
def opt {α β : Type} (name : String) (d : Decoder β) (put : α → β → α) : Field α :=
  ⟨name, false, fun a draft => (d draft).map (put a)⟩

/-- A field that must be there. -/
def req {α β : Type} (name : String) (d : Decoder β) (put : α → β → α) : Field α :=
  ⟨name, true, fun a draft => (d draft).map (put a)⟩

/-- Puts the values of members into a record. No field may come twice, and unknown members are
passed over. -/
def fromMembers {α : Type} (fields : List (Field α)) (seen : List String) (a : α) :
    List (String × Draft) → Except JsonFault (α × List String)
  | [] => .ok (a, seen)
  | (key, d) :: rest =>
    match fields.find? fun f => f.name = key with
    | none => do
      d.skip
      fromMembers fields seen a rest
    | some f =>
      if seen.contains key then .error .mismatch
      else do
        let a ← f.set a d
        fromMembers fields (key :: seen) a rest

/-- Puts the values of items into a record, in the order of its fields. `defaulted` tells that
fields without an item keep their value. -/
def fromItems {α : Type} (defaulted : Bool) (ending : Ending) (a : α) :
    List (Field α) → List Draft → Except JsonFault α
  | [], [] => do
    ending.check
    return a
  | [], _ :: _ => .error .malformed
  | _ :: _, [] => do
    ending.check
    if defaulted then return a else .error .mismatch
  | f :: fields, d :: items => do
    let a ← f.set a d
    fromItems defaulted ending a fields items

end Field

/-- Decodes a record that starts as `base`. An array that is too short will do where no field is
required. -/
def Decoder.record {α : Type} (base : α) (fields : List (Field α)) : Decoder α
  | .object members ending => do
    let (a, seen) ← Field.fromMembers fields [] base members
    ending.check
    if fields.all fun f => !f.required || seen.contains f.name then return a
    else .error .mismatch
  | .array items ending =>
    Field.fromItems (fields.all fun f => !f.required) ending base fields items
  | d => .error d.mismatch

end TextAnalysis.Json
