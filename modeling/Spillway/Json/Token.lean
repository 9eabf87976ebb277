import Spillway.Hex
import Spillway.Json.Numeral
/-!
JSON texts cut into tokens. Strings, numbers and words are read where they stand, and a token keeps
the outcome, so that the place where it turns up decides whether it counts. A string that is only
passed over need not pair its surrogate escapes.
-/

namespace Spillway.Json

/-- A piece of a written string: a character, an escaped character, or a UTF-16 unit. -/
inductive Piece where
  | plain (c : Char)
  | escaped (c : Char)
  | unit (n : Nat)
  deriving Repr, DecidableEq

/-- The number of characters that a piece takes. -/
def Piece.width : Piece → Nat
  | plain _ => 1
  | escaped _ => 2
  | unit _ => 6

/-- The character behind a one-letter escape. -/
def unescape? : Char → Option Char
  | '"' => some '"'
  | '\\' => some '\\'
  | '/' => some '/'
  | 'b' => some '\x08'
  | 'f' => some '\x0c'
  | 'n' => some '\n'
  | 'r' => some '\r'
  | 't' => some '\t'
  | _ => none

/-- The pieces of a string up to its closing quote, or up to what is wrong with it. Four bytes must
follow the start of a unit, and be hexadecimal digits. -/
def pieces : List Char → List Piece × Except Malformed Unit
  | [] => ([], .error .truncated)
  | '"' :: _ => ([], .ok ())
  | '\\' :: 'u' :: a :: b :: c :: d :: rest =>
    match Hex.toNat? [a, b, c, d] with
    | none => ([], .error .garbled)
    | some n =>
      let later := pieces rest
      (.unit n :: later.1, later.2)
  | '\\' :: 'u' :: rest =>
    ([], .error (if (String.ofList rest).utf8ByteSize < 4 then .truncated else .garbled))
  | '\\' :: c :: rest =>
    match unescape? c with
    | none => ([], .error .garbled)
    | some e =>
      let later := pieces rest
      (.escaped e :: later.1, later.2)
  | ['\\'] => ([], .error .truncated)
  | c :: rest =>
    if c < ' ' then ([], .error .garbled)
    else
      let later := pieces rest
      (.plain c :: later.1, later.2)

/-- The first unit of a pair. -/
def isLeading (n : Nat) : Bool := 0xD800 ≤ n && n ≤ 0xDBFF

/-- The second unit of a pair. -/
def isTrailing (n : Nat) : Bool := 0xDC00 ≤ n && n ≤ 0xDFFF

/-- The characters of a string from its pieces. Surrogate units must come in pairs, the leading one
first; `ending` is how the string ends. -/
def decode : List Piece → (ending : Except Malformed Unit) → Except Malformed (List Char)
  | [], .ok () => .ok []
  | [], .error malformed => .error malformed
  | .plain c :: rest, ending | .escaped c :: rest, ending => (decode rest ending).map (c :: ·)
  | .unit high :: .unit low :: rest, ending =>
    if isTrailing high then .error .garbled
    else if isLeading high then
      if isTrailing low then
        (decode rest ending).map
          (Char.ofNat (0x10000 + (high - 0xD800) * 0x400 + (low - 0xDC00)) :: ·)
      else .error .garbled
    else (decode (.unit low :: rest) ending).map (Char.ofNat high :: ·)
  | .unit n :: rest, ending =>
    if isTrailing n then .error .garbled
    else if isLeading n then
      match rest, ending with
      | [], .error malformed => .error malformed
      | _, _ => .error .garbled
    else (decode rest ending).map (Char.ofNat n :: ·)

/-- The words that are values. -/
inductive Word where
  | null
  | true
  | false
  deriving Repr, DecidableEq

/-- A token, with what reading it came to. -/
inductive Token where
  | openBrace
  | closeBrace
  | openBracket
  | closeBracket
  | comma
  | colon
  | word (reading : Except Malformed Word)
  | number (reading : Except Malformed Numeral)
  /-- A string, and how passing over it ends. -/
  | text (reading : Except Malformed String) (ending : Except Malformed Unit)
  /-- A character that begins no token. -/
  | stray

/-- Whether a text goes on with the expected letters. -/
def spells (word : Word) : (expected text : List Char) → Except Malformed Word
  | [], _ => .ok word
  | _ :: _, [] => .error .truncated
  | e :: expected, c :: text => if c = e then spells word expected text else .error .garbled

/-- The token that begins with `c`, and how many characters of the `rest` belong to it. -/
def Token.scan (c : Char) (rest : List Char) : Token × Nat :=
  match c with
  | '{' => (.openBrace, 0)
  | '}' => (.closeBrace, 0)
  | '[' => (.openBracket, 0)
  | ']' => (.closeBracket, 0)
  | ',' => (.comma, 0)
  | ':' => (.colon, 0)
  | 'n' => (.word (spells .null ['u', 'l', 'l'] rest), 3)
  | 't' => (.word (spells .true ['r', 'u', 'e'] rest), 3)
  | 'f' => (.word (spells .false ['a', 'l', 's', 'e'] rest), 4)
  | '"' =>
    let found := pieces rest
    (.text ((decode found.1 found.2).map String.ofList) found.2,
      found.1.foldr (fun piece n => piece.width + n) 1)
  | _ =>
    if c = '-' || c.isDigit then
      match Numeral.scan (c :: rest) with
      | .error malformed => (.number (.error malformed), 0)
      | .ok (numeral, after) => (.number (.ok numeral), rest.length - after.length)
    else (.stray, 0)

/-- Characters between tokens. -/
def isBlank (c : Char) : Bool := c = ' ' || c = '\t' || c = '\n' || c = '\r'

/-- The tokens of a text after its first `done` characters, which belong to a token before. -/
def tokensFrom : (done : Nat) → List Char → List Token
  | _, [] => []
  | done + 1, _ :: rest => tokensFrom done rest
  | 0, c :: rest =>
    if isBlank c then tokensFrom 0 rest
    else
      let found := Token.scan c rest
      found.1 :: tokensFrom found.2 rest

/-- The tokens of a text. -/
def tokens (text : String) : List Token := tokensFrom 0 text.toList

end Spillway.Json
