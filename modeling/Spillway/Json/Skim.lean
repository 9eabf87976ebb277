import Spillway.Json.Token
/-!
Passing over a JSON value token by token. What is left open is a stack of brackets, so values may be
nested to any depth.
-/

namespace Spillway.Json

/-- The value that is open: a list or an object. -/
inductive Nest where
  | list
  | object
  deriving Repr, DecidableEq

/-- What may come next inside the innermost open value. -/
inductive Place where
  /-- A value. -/
  | value
  /-- The first element of a list, or its end. -/
  | firstElement
  /-- The first name of an object, or its end. -/
  | firstName
  /-- A name. -/
  | name
  /-- The colon behind a name. -/
  | colon
  /-- A comma, or the end. -/
  | separator
  deriving Repr, DecidableEq

/-- A value passed over in part: what is open, innermost first, and what may come next. -/
structure Skim where
  nests : List Nest
  place : Place
  deriving Repr, DecidableEq

namespace Skim

/-- Before a value. -/
def start : Skim := ⟨[], .value⟩

/-- After a value inside of `nests`; nothing is left if it was the outermost. -/
def closed : List Nest → Option Skim
  | [] => none
  | nests => some ⟨nests, .separator⟩

/-- A token where a value is expected. -/
def value (nests : List Nest) : Token → Except Malformed (Option Skim)
  | .openBracket => .ok (some ⟨.list :: nests, .firstElement⟩)
  | .openBrace => .ok (some ⟨.object :: nests, .firstName⟩)
  | .word reading => reading.map fun _ => closed nests
  | .number (.ok _) => .ok (closed nests)
  | .text _ ending => ending.map fun _ => closed nests
  | _ => .error .garbled

/-- A token where a name is expected. -/
def name (nests : List Nest) : Token → Except Malformed (Option Skim)
  | .text _ ending => ending.map fun _ => some ⟨nests, .colon⟩
  | _ => .error .garbled

/-- One token further; nothing is left when the value is over. -/
def step (skim : Skim) (token : Token) : Except Malformed (Option Skim) :=
  match skim.place, skim.nests, token with
  | .value, nests, token => value nests token
  | .firstElement, _ :: outer, .closeBracket => .ok (closed outer)
  | .firstElement, nests, token => value nests token
  | .firstName, _ :: outer, .closeBrace => .ok (closed outer)
  | .firstName, nests, token => name nests token
  | .name, nests, token => name nests token
  | .colon, nests, .colon => .ok (some ⟨nests, .value⟩)
  | .separator, .list :: _, .comma => .ok (some ⟨skim.nests, .value⟩)
  | .separator, .object :: _, .comma => .ok (some ⟨skim.nests, .name⟩)
  | .separator, .list :: outer, .closeBracket => .ok (closed outer)
  | .separator, .object :: outer, .closeBrace => .ok (closed outer)
  | _, _, _ => .error .garbled

end Skim
end Spillway.Json
