import Mathlib.Data.List.Basic
import Spillway.Proofs.Grammar
/-!
Strings read from their spelling. A string in quotes is cut into its pieces, whatever comes behind it,
and what is read from them is the text they denote, if they denote one, and nothing otherwise.
-/

namespace Spillway.Json

/-! ## Pieces -/

theorem unescape?_of_mem {letter c : Char} (listed : (letter, c) ∈ shortEscapes) :
    unescape? letter = some c ∧ letter ≠ 'u' := by
  simp only [shortEscapes, List.mem_cons, Prod.mk.injEq, List.not_mem_nil, or_false] at listed
  rcases listed with ⟨rfl, rfl⟩ | ⟨rfl, rfl⟩ | ⟨rfl, rfl⟩ | ⟨rfl, rfl⟩ | ⟨rfl, rfl⟩ | ⟨rfl, rfl⟩ |
    ⟨rfl, rfl⟩ | ⟨rfl, rfl⟩ <;> decide

theorem value?_of_hexDigit {n : Nat} {c : Char} (digit : HexDigit n c) : Hex.value? c = some n := by
  obtain ⟨small, same⟩ := digit
  have both : ∀ n < 16, Hex.value? (Nat.digitChar n) = some n ∧
      Hex.value? (Nat.digitChar n).toUpper = some n := by decide
  rcases same with rfl | rfl
  · exact (both n small).1
  · exact (both n small).2

/-- A piece is taken off the front of a string. -/
theorem pieces_cons {piece : Piece} {cs : List Char} (spelled : piece.Spelled cs) (rest : List Char) :
    pieces (cs ++ rest) = (piece :: (pieces rest).1, (pieces rest).2) := by
  cases spelled with
  | @plain c low quote backslash =>
    rw [List.singleton_append, pieces.eq_def]
    split
    case h_7 same =>
      obtain ⟨rfl, rfl⟩ := List.cons.inj same
      rw [if_neg (Char.not_lt.mpr low)]
    all_goals simp_all
  | @escaped letter c listed =>
    obtain ⟨found, other⟩ := unescape?_of_mem listed
    rw [List.cons_append, List.singleton_append, pieces.eq_def]
    split
    case h_7 short lone same =>
      obtain ⟨rfl, rfl⟩ := List.cons.inj same
      exact absurd rfl (short letter rest rfl)
    all_goals simp_all
  | @unit n i j k l a b c d first second third fourth value =>
    have number : Hex.toNat? [a, b, c, d] = some n := by
      simp [Hex.toNat?, value?_of_hexDigit first, value?_of_hexDigit second,
        value?_of_hexDigit third, value?_of_hexDigit fourth, value]
    simp only [List.cons_append, List.nil_append, pieces, number]

theorem pieces_spelled {ps : List Piece} {inner : List Char} (spelled : Spelled ps inner)
    (rest : List Char) : pieces (inner ++ '"' :: rest) = (ps, .ok ()) := by
  induction spelled with
  | nil => rw [List.nil_append, pieces]
  | cons first later ih => rw [List.append_assoc, pieces_cons first, ih]

theorem width_spelled {ps : List Piece} {inner : List Char} (spelled : Spelled ps inner) (n : Nat) :
    ps.foldr (fun piece n => piece.width + n) n = inner.length + n := by
  induction spelled with
  | nil => simp
  | cons first later ih =>
    rw [List.foldr_cons, ih, List.length_append, Nat.add_assoc]
    cases first <;> rfl

/-! ## What is read -/

theorem isLeading_iff (n : Nat) : isLeading n = true ↔ 0xD800 ≤ n ∧ n ≤ 0xDBFF := by
  simp [isLeading]

theorem isTrailing_iff (n : Nat) : isTrailing n = true ↔ 0xDC00 ≤ n ∧ n ≤ 0xDFFF := by
  simp [isTrailing]

/-- No character is half of a pair. -/
theorem toNat_range (c : Char) : c.toNat < 0xD800 ∨ 0xDFFF < c.toNat ∧ c.toNat < 0x110000 := c.valid

theorem toNat_ofNat_of_valid {n : Nat} (valid : n.isValidChar) : (Char.ofNat n).toNat = n := by
  rw [Char.ofNat, dif_pos valid]
  rfl

theorem decode_unit (c : Char) (ps : List Piece) (ending : Except Malformed Unit) :
    decode (.unit c.toNat :: ps) ending = (decode ps ending).map (c :: ·) := by
  have range := toNat_range c
  have trailing : ¬ isTrailing c.toNat = true := by
    rw [isTrailing_iff]
    omega
  have leading : ¬ isLeading c.toNat = true := by
    rw [isLeading_iff]
    omega
  cases ps with
  | nil => simp [decode, trailing, leading, Char.ofNat_toNat]
  | cons p rest => cases p <;> simp [decode, trailing, leading, Char.ofNat_toNat]

theorem decode_pair {c : Char} (high : 0x10000 ≤ c.toNat) (ps : List Piece)
    (ending : Except Malformed Unit) :
    decode (.unit (0xD800 + (c.toNat - 0x10000) / 0x400) ::
      .unit (0xDC00 + (c.toNat - 0x10000) % 0x400) :: ps) ending =
      (decode ps ending).map (c :: ·) := by
  have range := toNat_range c
  generalize first : 0xD800 + (c.toNat - 0x10000) / 0x400 = up
  generalize second : 0xDC00 + (c.toNat - 0x10000) % 0x400 = down
  have single : ¬ isTrailing up = true := by
    rw [isTrailing_iff]
    omega
  have leading : isLeading up = true := by
    rw [isLeading_iff]
    omega
  have trailing : isTrailing down = true := by
    rw [isTrailing_iff]
    omega
  have joined : 0x10000 + (up - 0xD800) * 0x400 + (down - 0xDC00) = c.toNat := by omega
  rw [decode, if_neg single, if_pos leading, if_pos trailing, joined, Char.ofNat_toNat]

/-- What pieces denote is read from them. -/
theorem decode_of_denotes {ps : List Piece} {cs : List Char} (denotes : Denotes ps cs) :
    decode ps (.ok ()) = .ok cs := by
  induction denotes with
  | nil => rfl
  | plain later ih => rw [decode, ih]; rfl
  | escaped later ih => rw [decode, ih]; rfl
  | unit later ih => rw [decode_unit, ih]; rfl
  | pair high later ih => rw [decode_pair high, ih]; rfl

theorem map_eq_ok_iff {ε α β : Type} {f : α → β} {x : Except ε α} {b : β} :
    x.map f = .ok b ↔ ∃ a, x = .ok a ∧ f a = b := by
  cases x <;> simp [Except.map]

theorem unit_lt {ps : List Piece} {inner : List Char} (spelled : Spelled ps inner) {n : Nat}
    (member : .unit n ∈ ps) : n < 0x10000 := by
  induction spelled with
  | nil => cases member
  | cons first later ih =>
    rcases List.mem_cons.mp member with same | member
    · subst same
      cases first with
      | unit first second third fourth value =>
        have := first.1
        have := second.1
        have := third.1
        have := fourth.1
        omega
    · exact ih member

theorem denotes_unit {n : Nat} {ps : List Piece} {cs : List Char} (small : n < 0x10000)
    (up : ¬ isLeading n = true) (down : ¬ isTrailing n = true) (denotes : Denotes ps cs) :
    Denotes (.unit n :: ps) (Char.ofNat n :: cs) := by
  rw [isLeading_iff] at up
  rw [isTrailing_iff] at down
  have valid : n < 0xD800 ∨ 0xDFFF < n ∧ n < 0x110000 := by omega
  have unit := Denotes.unit (c := Char.ofNat n) denotes
  rwa [toNat_ofNat_of_valid valid] at unit

theorem denotes_pair {high low : Nat} {ps : List Piece} {cs : List Char}
    (up : isLeading high = true) (down : isTrailing low = true) (denotes : Denotes ps cs) :
    Denotes (.unit high :: .unit low :: ps)
      (Char.ofNat (0x10000 + (high - 0xD800) * 0x400 + (low - 0xDC00)) :: cs) := by
  rw [isLeading_iff] at up
  rw [isTrailing_iff] at down
  generalize joined : 0x10000 + (high - 0xD800) * 0x400 + (low - 0xDC00) = n
  have valid : n < 0xD800 ∨ 0xDFFF < n ∧ n < 0x110000 := by omega
  have same := toNat_ofNat_of_valid valid
  have pair := Denotes.pair (c := Char.ofNat n) (by omega) denotes
  have first : 0xD800 + (n - 0x10000) / 0x400 = high := by omega
  have second : 0xDC00 + (n - 0x10000) % 0x400 = low := by omega
  rwa [same, first, second] at pair

/-- Nothing else is read from pieces than what they denote. -/
theorem denotes_of_decode {ps : List Piece} {cs : List Char}
    (small : ∀ n, .unit n ∈ ps → n < 0x10000) (decoded : decode ps (.ok ()) = .ok cs) :
    Denotes ps cs := by
  generalize done : (Except.ok () : Except Malformed Unit) = ending at decoded
  have later : ∀ {p : Piece} {rest : List Piece}, (∀ n, .unit n ∈ p :: rest → n < 0x10000) →
      ∀ n, .unit n ∈ rest → n < 0x10000 :=
    fun small n member => small n (List.mem_cons_of_mem _ member)
  fun_induction decode ps ending generalizing cs with
  | case1 =>
    cases decoded
    exact .nil
  | case2 => cases decoded
  | case3 c rest ending ih =>
    obtain ⟨ds, read, rfl⟩ := map_eq_ok_iff.mp decoded
    exact .plain (ih (later small) done read)
  | case4 c rest ending ih =>
    obtain ⟨ds, read, rfl⟩ := map_eq_ok_iff.mp decoded
    exact .escaped (ih (later small) done read)
  | case5 | case7 | case9 | case10 | case11 => cases decoded
  | case6 high low rest ending trailing up down ih =>
    obtain ⟨ds, read, rfl⟩ := map_eq_ok_iff.mp decoded
    exact denotes_pair up down (ih (later (later small)) done read)
  | case8 n low rest ending down up ih =>
    obtain ⟨ds, read, rfl⟩ := map_eq_ok_iff.mp decoded
    exact denotes_unit (small n List.mem_cons_self) up down (ih (later small) done read)
  | case12 n rest ending single down up ih =>
    obtain ⟨ds, read, rfl⟩ := map_eq_ok_iff.mp decoded
    exact denotes_unit (small n List.mem_cons_self) up down (ih (later small) done read)

theorem Spelled.unique {ps qs : List Piece} {inner : List Char} (first : Spelled ps inner)
    (second : Spelled qs inner) : ps = qs := by
  have same := (pieces_spelled first []).symm.trans (pieces_spelled second [])
  exact (Prod.mk.inj same).1

theorem isText_iff {ps : List Piece} {inner : List Char} (spelled : Spelled ps inner) (s : String) :
    IsText s ('"' :: (inner ++ ['"'])) ↔ Denotes ps s.toList := by
  constructor
  · rintro ⟨qs, other, again, denotes, same⟩
    rw [List.cons_append] at same
    cases List.append_cancel_right (List.cons.inj same).2
    rwa [spelled.unique again]
  · exact fun denotes => ⟨ps, inner, spelled, denotes, rfl⟩

/-- A string is read as a text exactly if it stands for this text. -/
theorem decode_eq_ok_iff {ps : List Piece} {inner : List Char} (spelled : Spelled ps inner)
    (s : String) : (decode ps (.ok ())).map String.ofList = .ok s ↔
      IsText s ('"' :: (inner ++ ['"'])) := by
  rw [map_eq_ok_iff, isText_iff spelled]
  constructor
  · rintro ⟨cs, read, rfl⟩
    rw [String.toList_ofList]
    exact denotes_of_decode (fun _ => unit_lt spelled) read
  · exact fun denotes => ⟨s.toList, decode_of_denotes denotes, String.ofList_toList⟩

end Spillway.Json
