import Mathlib.Data.List.Basic
import Spillway.Json.Text
import Spillway.Json.Token
/-!
What a JSON text may look like, whichever way it is written: with blanks between its parts, with any
spelling of the characters of a string, with numbers of any form, with values nested to any depth. A
string may hold half of a surrogate pair; it is a JSON string then, but stands for no text. The texts
that are written here are among these.
-/

namespace Spillway.Json

/-! ## Strings -/

/-- The letters that escape a character, each with this character. -/
def shortEscapes : List (Char × Char) :=
  [('"', '"'), ('\\', '\\'), ('/', '/'), ('b', '\x08'), ('f', '\x0c'), ('n', '\n'), ('r', '\r'),
    ('t', '\t')]

/-- A hexadecimal digit, of either case. -/
def HexDigit (n : Nat) (c : Char) : Prop :=
  n < 16 ∧ (c = Nat.digitChar n ∨ c = (Nat.digitChar n).toUpper)

/-- The spellings of a piece of a string. -/
inductive Piece.Spelled : Piece → List Char → Prop
  | plain {c : Char} : ' ' ≤ c → c ≠ '"' → c ≠ '\\' → Spelled (.plain c) [c]
  | escaped {letter c : Char} : (letter, c) ∈ shortEscapes → Spelled (.escaped c) ['\\', letter]
  | unit {n i j k l : Nat} {a b c d : Char} :
      HexDigit i a → HexDigit j b → HexDigit k c → HexDigit l d →
      n = 16 * (16 * (16 * i + j) + k) + l → Spelled (.unit n) ['\\', 'u', a, b, c, d]

/-- What stands between the quotes of a string with these pieces. -/
inductive Spelled : List Piece → List Char → Prop
  | nil : Spelled [] []
  | cons {piece : Piece} {pieces : List Piece} {cs rest : List Char} :
      piece.Spelled cs → Spelled pieces rest → Spelled (piece :: pieces) (cs ++ rest)

/-- The characters that pieces stand for. One that has no UTF-16 unit of its own may be given by a pair
of them. -/
inductive Denotes : List Piece → List Char → Prop
  | nil : Denotes [] []
  | plain {c : Char} {pieces : List Piece} {cs : List Char} :
      Denotes pieces cs → Denotes (.plain c :: pieces) (c :: cs)
  | escaped {c : Char} {pieces : List Piece} {cs : List Char} :
      Denotes pieces cs → Denotes (.escaped c :: pieces) (c :: cs)
  | unit {c : Char} {pieces : List Piece} {cs : List Char} :
      Denotes pieces cs → Denotes (.unit c.toNat :: pieces) (c :: cs)
  | pair {c : Char} {pieces : List Piece} {cs : List Char} : 0x10000 ≤ c.toNat →
      Denotes pieces cs →
      Denotes (.unit (0xD800 + (c.toNat - 0x10000) / 0x400) ::
        .unit (0xDC00 + (c.toNat - 0x10000) % 0x400) :: pieces) (c :: cs)

/-- A string in quotes that stands for a text. -/
def IsText (s : String) (cs : List Char) : Prop :=
  ∃ pieces inner, Spelled pieces inner ∧ Denotes pieces s.toList ∧ cs = '"' :: inner ++ ['"']

/-! ## Numbers and truth values -/

def Digits (cs : List Char) : Prop := cs ≠ [] ∧ ∀ c ∈ cs, c.isDigit = true

/-- Digits in which a zero only leads if it stands alone. -/
def Whole (cs : List Char) : Prop := Digits cs ∧ (cs.head? = some '0' → cs = ['0'])

/-- The fraction of a number, or none. -/
inductive Fraction : List Char → Prop
  | none : Fraction []
  | some {cs : List Char} : Digits cs → Fraction ('.' :: cs)

/-- The exponent of a number, or none. -/
inductive Exponent : List Char → Prop
  | none : Exponent []
  | some {e : Char} {sign cs : List Char} : e ∈ ['e', 'E'] → sign ∈ [[], ['+'], ['-']] → Digits cs →
      Exponent (e :: (sign ++ cs))

inductive IsNumber : List Char → Prop
  | intro {sign whole fraction exponent : List Char} : sign ∈ [[], ['-']] → Whole whole →
      Fraction fraction → Exponent exponent → IsNumber (sign ++ (whole ++ (fraction ++ exponent)))

def IsNatural (n : Nat) (cs : List Char) : Prop := cs = Nat.toDigits 10 n

def IsTruth (b : Bool) (cs : List Char) : Prop := cs = (toString b).toList

/-! ## Values -/

/-- Blanks, or nothing. -/
def Blanks (cs : List Char) : Prop := ∀ c ∈ cs, c ∈ [' ', '\t', '\n', '\r']

/-- A member's name with blanks around it. -/
def IsName (name : String) (cs : List Char) : Prop :=
  ∃ before text after, Blanks before ∧ IsText name text ∧ Blanks after ∧
    cs = before ++ (text ++ after)

/-- The sorts of text that values are made of. -/
inductive Part where
  | value
  /-- A value with blanks around it. -/
  | padded
  /-- One element of a list or more, with commas between them. -/
  | elements
  /-- A name with blanks around it. It need not stand for a text. -/
  | name
  /-- One member of an object or more, with commas between them. -/
  | members

/-- The texts of each sort. -/
inductive Grammar : Part → List Char → Prop
  | null : Grammar .value ['n', 'u', 'l', 'l']
  | truth {b : Bool} {cs : List Char} : IsTruth b cs → Grammar .value cs
  | number {cs : List Char} : IsNumber cs → Grammar .value cs
  | text {pieces : List Piece} {inner : List Char} : Spelled pieces inner →
      Grammar .value ('"' :: (inner ++ ['"']))
  | emptyList {cs : List Char} : Blanks cs → Grammar .value ('[' :: (cs ++ [']']))
  | list {cs : List Char} : Grammar .elements cs → Grammar .value ('[' :: (cs ++ [']']))
  | emptyObject {cs : List Char} : Blanks cs → Grammar .value ('{' :: (cs ++ ['}']))
  | object {cs : List Char} : Grammar .members cs → Grammar .value ('{' :: (cs ++ ['}']))
  | padded {before cs after : List Char} : Blanks before → Grammar .value cs → Blanks after →
      Grammar .padded (before ++ (cs ++ after))
  | element {cs : List Char} : Grammar .padded cs → Grammar .elements cs
  | elements {cs rest : List Char} : Grammar .padded cs → Grammar .elements rest →
      Grammar .elements (cs ++ (',' :: rest))
  | name {before inner after : List Char} {pieces : List Piece} : Blanks before →
      Spelled pieces inner → Blanks after →
      Grammar .name (before ++ ('"' :: (inner ++ ['"']) ++ after))
  | member {name cs : List Char} : Grammar .name name → Grammar .padded cs →
      Grammar .members (name ++ (':' :: cs))
  | members {name cs rest : List Char} : Grammar .name name → Grammar .padded cs →
      Grammar .members rest → Grammar .members (name ++ (':' :: (cs ++ (',' :: rest))))

abbrev IsValue (cs : List Char) : Prop := Grammar .value cs

/-! ## Objects whose names are texts -/

/-- A value with blanks around it. -/
def IsPadded (value cs : List Char) : Prop :=
  ∃ before after, Blanks before ∧ IsValue value ∧ Blanks after ∧ cs = before ++ (value ++ after)

/-- One member or more, each given by its name and by its value as it is written. -/
inductive IsMembers : List (String × List Char) → List Char → Prop
  | one {name : String} {value n v : List Char} : IsName name n → IsPadded value v →
      IsMembers [(name, value)] (n ++ (':' :: v))
  | more {name : String} {value n v rest : List Char} {later : List (String × List Char)} :
      IsName name n → IsPadded value v → IsMembers later rest →
      IsMembers ((name, value) :: later) (n ++ (':' :: (v ++ (',' :: rest))))

/-- An object with these members in this order, and blanks around it. -/
inductive IsObject : List (String × List Char) → List Char → Prop
  | empty {before inner after : List Char} : Blanks before → Blanks inner → Blanks after →
      IsObject [] (before ++ ('{' :: (inner ++ ('}' :: after))))
  | some {members : List (String × List Char)} {before inner after : List Char} : Blanks before →
      IsMembers members inner → Blanks after →
      IsObject members (before ++ ('{' :: (inner ++ ('}' :: after))))

/-! ## What is written -/

theorem hexDigit_digit {n : Nat} (small : n < 16) : HexDigit n (Hex.digit n) := by
  refine ⟨small, .inl ?_⟩
  revert n
  decide

/-- An escaped character is a piece that stands for it. -/
theorem spelled_escape (c : Char) : ∃ piece : Piece, piece.Spelled (escape c) ∧
    ∀ pieces cs, Denotes pieces cs → Denotes (piece :: pieces) (c :: cs) := by
  by_cases short : ∃ letter, (letter, c) ∈ shortEscapes ∧ escape c = ['\\', letter]
  · obtain ⟨letter, listed, written⟩ := short
    exact ⟨.escaped c, written ▸ .escaped listed, fun _ _ => .escaped⟩
  · have long : c ≠ '"' ∧ c ≠ '\\' ∧ c ≠ '\x08' ∧ c ≠ '\x0c' ∧ c ≠ '\n' ∧ c ≠ '\r' ∧ c ≠ '\t' := by
      refine ⟨?_, ?_, ?_, ?_, ?_, ?_, ?_⟩ <;> rintro rfl <;> exact short ⟨_, by decide, rfl⟩
    obtain ⟨quote, backslash, back, feed, line, carriage, tab⟩ := long
    rw [escape, if_neg quote, if_neg backslash, if_neg back, if_neg feed, if_neg line,
      if_neg carriage, if_neg tab]
    by_cases control : c < ' '
    · have low : c.toNat < 32 := control
      rw [if_pos control]
      refine ⟨.unit c.toNat, ?_, fun _ _ => .unit⟩
      refine .unit (hexDigit_digit (n := c.toNat / 16 / 16 / 16 % 16) (by omega))
        (hexDigit_digit (n := c.toNat / 16 / 16 % 16) (by omega))
        (hexDigit_digit (n := c.toNat / 16 % 16) (by omega))
        (hexDigit_digit (n := c.toNat % 16) (by omega)) (by omega)
    · rw [if_neg control]
      exact ⟨.plain c, .plain (Char.not_lt.mp control) quote backslash, fun _ _ => .plain⟩

/-- A text in quotes stands for this text, whatever is in it. -/
theorem isText_quote (s : String) : IsText s (quote s).toList := by
  have written : ∀ cs : List Char, ∃ pieces, Spelled pieces (cs.flatMap escape) ∧
      Denotes pieces cs := by
    intro cs
    induction cs with
    | nil => exact ⟨[], .nil, .nil⟩
    | cons c rest ih =>
      obtain ⟨piece, spelled, denotes⟩ := spelled_escape c
      obtain ⟨pieces, later, stand⟩ := ih
      exact ⟨piece :: pieces, .cons spelled later, denotes _ _ stand⟩
  obtain ⟨pieces, spelled, denotes⟩ := written s.toList
  exact ⟨pieces, _, spelled, denotes, String.toList_ofList⟩

theorem isNatural_number (n : Nat) : IsNatural n (number n).toList := by
  rw [number, Nat.toString_eq_ofList_toDigits, String.toList_ofList]
  rfl

theorem isTruth_bool (b : Bool) : IsTruth b (bool b).toList := by
  cases b <;> rfl

theorem IsText.isValue {s : String} {cs : List Char} (text : IsText s cs) : IsValue cs := by
  obtain ⟨pieces, inner, spelled, -, rfl⟩ := text
  exact .text spelled

theorem IsTruth.isValue {b : Bool} {cs : List Char} (truth : IsTruth b cs) : IsValue cs :=
  .truth truth

theorem head?_toDigits_ne_zero {n : Nat} (some : 0 < n) :
    (Nat.toDigits 10 n).head? ≠ Option.some '0' := by
  have single : ∀ n < 10, 0 < n → [Nat.digitChar n].head? ≠ Option.some '0' := by decide
  induction n using Nat.strongRecOn with
  | ind n ih =>
    rcases Nat.lt_or_ge n 10 with small | great
    · rw [Nat.toDigits_of_lt_base small]
      exact single n small some
    · rw [Nat.toDigits_of_base_le (by decide) great,
        List.head?_append_of_ne_nil _ Nat.toDigits_ne_nil]
      exact ih (n / 10) (by omega) (by omega)

theorem IsNatural.digits {n : Nat} {cs : List Char} (natural : IsNatural n cs) : Digits cs := by
  rw [natural]
  exact ⟨Nat.toDigits_ne_nil, fun c found =>
    Nat.isDigit_of_mem_toDigits (by decide) (by decide) found⟩

theorem IsNatural.isValue {n : Nat} {cs : List Char} (natural : IsNatural n cs) : IsValue cs := by
  have led : Whole cs := by
    refine ⟨natural.digits, fun zero => ?_⟩
    rcases Nat.eq_zero_or_pos n with rfl | some
    · exact natural
    · rw [natural] at zero
      exact absurd zero (head?_toDigits_ne_zero some)
  have number : IsNumber ([] ++ (cs ++ ([] ++ []))) := .intro (by decide) led .none .none
  simp only [List.nil_append, List.append_nil] at number
  exact .number number

theorem blanks_nil : Blanks [] := fun _ found => by cases found

theorem isName_quote (name : String) : IsName name (quote name).toList :=
  ⟨[], _, [], blanks_nil, isText_quote name, blanks_nil, by simp⟩

theorem isPadded_self {cs : List Char} (value : IsValue cs) : IsPadded cs cs :=
  ⟨[], [], blanks_nil, value, blanks_nil, by simp⟩

theorem isMembers_intercalate {first : String × String} {later : List (String × String)}
    (values : ∀ m ∈ first :: later, IsValue m.2.toList) :
    IsMembers ((first :: later).map fun m => (m.1, m.2.toList))
      (String.intercalate "," ((first :: later).map fun m => quote m.1 ++ ":" ++ m.2)).toList := by
  have name := isName_quote first.1
  have value := isPadded_self (values first List.mem_cons_self)
  induction later generalizing first with
  | nil => simpa [String.toList_append] using IsMembers.one name value
  | cons second later ih =>
    have known : ∀ m ∈ second :: later, IsValue m.2.toList :=
      fun m found => values m (List.mem_cons_of_mem _ found)
    have rest := ih known (isName_quote second.1) (isPadded_self (known second List.mem_cons_self))
    simpa [String.toList_intercalate, List.intercalate_cons_cons, String.toList_append] using
      IsMembers.more name value rest

/-- An object that is written has the members it is written with. -/
theorem isObject_object (members : List (String × String))
    (values : ∀ m ∈ members, IsValue m.2.toList) :
    IsObject (members.map fun m => (m.1, m.2.toList)) (object members).toList := by
  have written : (object members).toList = [] ++ ('{' ::
      ((String.intercalate "," (members.map fun m => quote m.1 ++ ":" ++ m.2)).toList ++
        ('}' :: []))) := by
    simp [object, String.toList_append]
  rw [written]
  cases members with
  | nil => exact .empty blanks_nil blanks_nil blanks_nil
  | cons first later => exact .some blanks_nil (isMembers_intercalate values) blanks_nil

end Spillway.Json
