/-!
Reading JSON numbers. A numeral keeps its digits; as a value it is a natural number only if it has
no sign, fraction or exponent. A numeral that no finite double-precision number is near stands for
nothing at all, and only passes where it is passed over.
-/

namespace Spillway.Json

/-- What is wrong with a JSON text: a character that cannot stand there, a value of the wrong type
or range, a member that is missing or surplus, or an end that comes too early. -/
inductive Malformed where
  | garbled
  | mistyped
  | truncated
  deriving Repr, DecidableEq

/-- A number as it is written. -/
structure Numeral where
  negative : Bool
  whole : List Nat
  fraction : List Nat
  /-- The sign of the exponent, true for a negative one, and its digits. -/
  exponent : Option (Bool × List Nat)
  deriving Repr, DecidableEq

namespace Numeral

/-- The digits at the start of a text. -/
def digits (text : List Char) : List Nat :=
  (text.takeWhile Char.isDigit).map fun c => c.toNat - '0'.toNat

/-- What follows the digits at the start of a text. -/
def afterDigits (text : List Char) : List Char := text.dropWhile Char.isDigit

/-- At least one digit, or the error of there being none. -/
def someDigits (text : List Char) : Except Malformed (List Nat × List Char) :=
  match digits text with
  | [] => .error (if text.isEmpty then .truncated else .garbled)
  | found => .ok (found, afterDigits text)

/-- The exponent at the start of a text, if one begins there. -/
def scanExponent (text : List Char) :
    Except Malformed (Option (Bool × List Nat) × List Char) :=
  match text with
  | 'e' :: rest | 'E' :: rest =>
    let negative := rest.head? == some '-'
    let rest := if negative || rest.head? == some '+' then rest.drop 1 else rest
    (someDigits rest).map fun found => (some (negative, found.1), found.2)
  | _ => .ok (none, text)

/-- The fraction at the start of a text, if one begins there. -/
def scanFraction (text : List Char) : Except Malformed (List Nat × List Char) :=
  match text with
  | '.' :: rest => someDigits rest
  | _ => .ok ([], text)

/-- The numeral at the start of a text, and what follows it. A leading zero stands alone. -/
def scan (text : List Char) : Except Malformed (Numeral × List Char) := do
  let negative := text.head? == some '-'
  let (whole, rest) ← someDigits (if negative then text.drop 1 else text)
  if whole.head? == some 0 && 1 < whole.length then throw .garbled
  let (fraction, rest) ← scanFraction rest
  let (exponent, rest) ← scanExponent rest
  return (⟨negative, whole, fraction, exponent⟩, rest)

/-- The number that digits stand for. -/
def value (digits : List Nat) : Nat := digits.foldl (fun sum d => 10 * sum + d) 0

/-- The natural number that a numeral stands for, if it is written as one. -/
def toNat? (numeral : Numeral) : Option Nat :=
  if numeral.negative || !numeral.fraction.isEmpty || numeral.exponent.isSome then none
  else some (value numeral.whole)

/-- The largest significand that is kept; digits beyond it only count for the exponent. -/
def maxSignificand : Nat := 0xffffffffffffffff

/-- The leading digits that fit into a significand, and how many digits are left over. -/
def keepDigits : (significand : Nat) → List Nat → Nat × Nat
  | significand, [] => (significand, 0)
  | significand, d :: rest =>
    if maxSignificand < 10 * significand + d then (significand, rest.length + 1)
    else keepDigits (10 * significand + d) rest

/-- A natural number rounded to 53 significant bits, half-way cases to the even neighbour. -/
def roundDouble (n : Nat) : Nat :=
  if n < Nat.pow 2 53 then n
  else
    let unit := Nat.pow 2 (n.log2 - 52)
    let low := n / unit
    let rest := 2 * (n % unit)
    if rest < unit || (rest == unit && low % 2 == 0) then low * unit else (low + 1) * unit

/-- The least number that rounds to no finite double. -/
def doubleOverflow : Nat := Nat.pow 2 1024 - Nat.pow 2 970

/-- The largest power of ten that is multiplied with in one step. -/
def maxPower : Int := 308

/-- The numeral is near a finite double-precision number, as far as its kept digits and its exponent
say. An exponent that leaves 32 bits counts as infinite. -/
def isFinite (numeral : Numeral) : Bool :=
  let (high, dropped) := keepDigits 0 numeral.whole
  let (significand, unused) := keepDigits high numeral.fraction
  let scale : Int := (dropped : Int) - ((numeral.fraction.length - unused : Nat) : Int)
  let fits (power : Int) : Bool :=
    if power < 0 then true
    else if maxPower < power then false
    else roundDouble significand * roundDouble (Nat.pow 10 power.toNat) < doubleOverflow
  if significand = 0 then true
  else
    match numeral.exponent with
    | none => fits scale
    | some (negative, shift) =>
      if 0x80000000 ≤ value shift then negative
      else fits (scale + (if negative then -(value shift : Int) else (value shift : Int)))

end Numeral
end Spillway.Json
