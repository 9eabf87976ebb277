import Spillway.Json.Skim
import Spillway.Word
/-!
Reading records from JSON. A record is written as an object, its members in any order and mixed with
members of other names, which are passed over, or as a list of its fields in order. Reading goes on
token by token, and the first token that cannot stand where it does decides the error.
-/

namespace Spillway.Json

/-- The error of a token that is no value of the wanted type. A numeral far out of range is no value
at all. -/
def Token.unwanted {α : Type} : Token → Except Malformed α
  | .word (.error malformed) | .number (.error malformed) | .text (.error malformed) _ =>
    .error malformed
  | .number (.ok numeral) => .error (if numeral.isFinite then .mistyped else .garbled)
  | .word (.ok _) | .text (.ok _) _ | .openBrace | .openBracket => .error .mistyped
  | _ => .error .garbled

/-- The string that a token is. -/
def Token.toText : Token → Except Malformed String
  | .text (.ok s) _ => .ok s
  | token => token.unwanted

/-- The truth value that a token is. -/
def Token.toBool : Token → Except Malformed Bool
  | .word (.ok .true) => .ok true
  | .word (.ok .false) => .ok false
  | token => token.unwanted

/-- The number below `limit` that a token is. -/
def Token.toNat (limit : Nat) (token : Token) : Except Malformed Nat :=
  match token with
  | .number (.ok numeral) =>
    match numeral.toNat? with
    | some n => if n < limit then .ok n else token.unwanted
    | none => token.unwanted
  | token => token.unwanted

/-- A field of a record: its name, and how its value is put into the record. -/
structure Field (α : Type) where
  name : String
  put : Token → α → Except Malformed α

/-- A record type as JSON: its fields in order, the record before any field is read, and whether
every field must be there. -/
structure Shape (α : Type) where
  fields : List (Field α)
  blank : α
  complete : Bool

/-- How far a record has been read. Objects remember the names they have had; lists, the fields that
are still to come. -/
inductive Reading (α : Type) where
  | start
  | firstName (record : α)
  | name (seen : List String) (record : α)
  | colon (field : Option (Field α)) (seen : List String) (record : α)
  | member (field : Field α) (seen : List String) (record : α)
  | skipping (skim : Skim) (seen : List String) (record : α)
  | separator (seen : List String) (record : α)
  | firstElement (record : α)
  | element (pending : List (Field α)) (record : α)
  | elementEnd (pending : List (Field α)) (record : α)
  | finished (record : α)

namespace Shape

variable {α : Type}

/-- The end of an object that had the names `seen`. -/
def closeObject (shape : Shape α) (seen : List String) (record : α) :
    Except Malformed (Reading α) :=
  if shape.complete && shape.fields.any fun field => !seen.contains field.name then
    .error .mistyped
  else .ok (.finished record)

/-- The end of a list that lacks the fields `pending`. -/
def closeList (shape : Shape α) (pending : List (Field α)) (record : α) :
    Except Malformed (Reading α) :=
  if shape.complete && !pending.isEmpty then .error .mistyped else .ok (.finished record)

/-- A token where a member's name is expected. -/
def readName (shape : Shape α) (seen : List String) (record : α) :
    Token → Except Malformed (Reading α)
  | .text (.error malformed) _ => .error malformed
  | .text (.ok name) _ =>
    match shape.fields.find? fun field => field.name == name with
    | none => .ok (.colon none seen record)
    | some field =>
      if seen.contains name then .error .mistyped else .ok (.colon (some field) seen record)
  | _ => .error .garbled

/-- A token where a value of the list is expected. -/
def readElement (pending : List (Field α)) (record : α) (token : Token) :
    Except Malformed (Reading α) :=
  match pending with
  | [] => .error .garbled
  | field :: rest => (field.put token record).map (.elementEnd rest)

/-- A token of a value that is passed over. -/
def readSkipped (skim : Skim) (seen : List String) (record : α) (token : Token) :
    Except Malformed (Reading α) :=
  (skim.step token).map fun
    | none => .separator seen record
    | some skim => .skipping skim seen record

/-- One token further. -/
def step (shape : Shape α) (reading : Reading α) (token : Token) :
    Except Malformed (Reading α) :=
  match reading, token with
  | .start, .openBrace => .ok (.firstName shape.blank)
  | .start, .openBracket => .ok (.firstElement shape.blank)
  | .start, token => token.unwanted
  | .firstName record, .closeBrace => shape.closeObject [] record
  | .firstName record, token => shape.readName [] record token
  | .name seen record, token => shape.readName seen record token
  | .colon (some field) seen record, .colon => .ok (.member field seen record)
  | .colon none seen record, .colon => .ok (.skipping .start seen record)
  | .member field seen record, token =>
    (field.put token record).map (.separator (field.name :: seen))
  | .skipping skim seen record, token => readSkipped skim seen record token
  | .separator seen record, .comma => .ok (.name seen record)
  | .separator seen record, .closeBrace => shape.closeObject seen record
  | .firstElement record, .closeBracket => shape.closeList shape.fields record
  | .firstElement record, token => readElement shape.fields record token
  | .element pending record, token => readElement pending record token
  | .elementEnd pending record, .closeBracket => shape.closeList pending record
  | .elementEnd (field :: rest) record, .comma => .ok (.element (field :: rest) record)
  | _, _ => .error .garbled

/-- The record that a text holds. -/
def read (shape : Shape α) (text : String) : Except Malformed α :=
  match (tokens text).foldlM shape.step .start with
  | .error malformed => .error malformed
  | .ok (.finished record) => .ok record
  | .ok _ => .error .truncated

end Shape
end Spillway.Json
