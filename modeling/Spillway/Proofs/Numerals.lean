import Mathlib.Data.List.Basic
import Spillway.Proofs.Grammar
/-!
Numbers read from their spelling. A number is taken off the front of a text whatever comes behind it,
unless it would go on there, and it is read as a natural number exactly if it is written with the
digits of that.
-/

namespace Spillway.Json

/-- What comes behind a number and is no part of it. -/
def Apart (cs : List Char) : Prop :=
  ∀ c ∈ cs.head?, c.isDigit = false ∧ c ∉ ['.', 'e', 'E']

theorem Exponent.head? {cs : List Char} (exponent : Exponent cs) :
    ∀ c ∈ cs.head?, c.isDigit = false ∧ c ≠ '.' := by
  cases exponent with
  | none => rintro c ⟨⟩
  | some letter =>
    rintro c ⟨⟩
    simp only [List.mem_cons, List.not_mem_nil, or_false] at letter
    rcases letter with rfl | rfl <;> decide

theorem Fraction.head? {cs : List Char} (fraction : Fraction cs) :
    ∀ c ∈ cs.head?, c.isDigit = false := by
  cases fraction with
  | none => rintro c ⟨⟩
  | some _ =>
    rintro c ⟨⟩
    rfl

theorem Digits.head?_ne_minus {cs rest : List Char} (found : Digits cs) :
    (cs ++ rest).head? ≠ some '-' := by
  obtain ⟨d, ds, rfl⟩ := List.exists_cons_of_ne_nil found.1
  intro first
  cases first
  exact absurd (found.2 '-' List.mem_cons_self) (by decide)

theorem head?_append_of {p : Char → Prop} {cs rest : List Char} (first : ∀ c ∈ cs.head?, p c)
    (later : ∀ c ∈ rest.head?, p c) : ∀ c ∈ (cs ++ rest).head?, p c := by
  cases cs with
  | nil => exact later
  | cons c cs => exact first

namespace Numeral

def digit (c : Char) : Nat := c.toNat - '0'.toNat

theorem digitChar_digit {c : Char} (found : c.isDigit = true) :
    digit c < 10 ∧ Nat.digitChar (digit c) = c := by
  have range := Char.isDigit_iff_toNat.mp found
  have bounds : '0'.toNat = 48 ∧ '9'.toNat = 57 := by decide
  have small : digit c < 10 := by
    unfold digit
    omega
  refine ⟨small, Char.toNat_inj.mp ?_⟩
  rw [Nat.toNat_digitChar_of_lt_ten small, digit]
  omega

theorem someDigits_append {cs rest : List Char} (found : Digits cs)
    (stop : ∀ c ∈ rest.head?, c.isDigit = false) :
    someDigits (cs ++ rest) = .ok (cs.map digit, rest) := by
  obtain ⟨some, all⟩ := found
  have behind : rest.takeWhile Char.isDigit = [] ∧ rest.dropWhile Char.isDigit = rest := by
    cases rest with
    | nil => exact ⟨rfl, rfl⟩
    | cons c rest =>
      have other := stop c rfl
      simp [other]
  have front : digits (cs ++ rest) = cs.map digit := by
    rw [digits, List.takeWhile_append_of_pos all, behind.1, List.append_nil]
    rfl
  rw [someDigits, front, afterDigits, List.dropWhile_append_of_pos all, behind.2]
  split
  · rename_i none
    exact absurd (List.map_eq_nil_iff.mp none) some
  · rfl

theorem scanFraction_append {cs : List Char} (fraction : Fraction cs) :
    ∃ found, (found = [] ↔ cs = []) ∧
      ∀ rest : List Char, (∀ c ∈ rest.head?, c.isDigit = false ∧ c ≠ '.') →
        scanFraction (cs ++ rest) = .ok (found, rest) := by
  cases fraction with
  | none =>
    refine ⟨[], by simp, fun rest stop => ?_⟩
    rw [List.nil_append, scanFraction]
    rintro later rfl
    exact (stop '.' rfl).2 rfl
  | @some cs found =>
    refine ⟨cs.map digit, by simp [found.1], fun rest stop => ?_⟩
    exact someDigits_append found fun c first => (stop c first).1

theorem scanExponent_append {cs : List Char} (exponent : Exponent cs) :
    ∃ found, (found = none ↔ cs = []) ∧
      ∀ rest, Apart rest → scanExponent (cs ++ rest) = .ok (found, rest) := by
  cases exponent with
  | none =>
    refine ⟨Option.none, by simp, fun rest apart => ?_⟩
    rw [List.nil_append]
    unfold scanExponent
    split
    · exact absurd (apart 'e' rfl).2 (by decide)
    · exact absurd (apart 'E' rfl).2 (by decide)
    · rfl
  | @some e sign cs letter signed found =>
    refine ⟨Option.some (sign == ['-'], cs.map digit), by simp, fun rest apart => ?_⟩
    have read := someDigits_append found fun c first => (apart c first).1
    have unsigned : ∀ c ∈ ['+', '-'], (cs ++ rest).head? ≠ Option.some c := by
      intro c sign first
      obtain ⟨d, ds, rfl⟩ := List.exists_cons_of_ne_nil found.1
      cases first
      have digit := found.2 c List.mem_cons_self
      simp only [List.mem_cons, List.not_mem_nil, or_false] at sign
      rcases sign with rfl | rfl <;> cases digit
    have plus := unsigned '+' (by decide)
    have minus := unsigned '-' (by decide)
    rw [List.cons_append, List.append_assoc]
    -- as a variable, so that nothing is rewritten in it
    generalize cs ++ rest = text at read plus minus
    simp only [List.mem_cons, List.not_mem_nil, or_false] at letter signed
    rcases letter with rfl | rfl <;> rcases signed with rfl | rfl | rfl
    all_goals simp [scanExponent, plus, minus, read, Except.map]

theorem head?_of_map_digit {cs : List Char} (all : ∀ c ∈ cs, c.isDigit = true)
    (zero : (cs.map digit).head? = some 0) : cs.head? = some '0' := by
  cases cs with
  | nil => cases zero
  | cons c rest =>
    have char := (digitChar_digit (all c List.mem_cons_self)).2
    rw [Option.some.inj zero] at char
    rw [List.head?_cons, ← char]
    rfl

/-- Digits in which a zero only leads alone are not refused for a leading zero. -/
theorem leading_zero_stands_alone {whole : List Char} (led : Whole whole) :
    ((whole.map digit).head? == some 0 && decide (1 < (whole.map digit).length)) = false := by
  by_contra zero
  simp only [Bool.not_eq_false, Bool.and_eq_true, beq_iff_eq, decide_eq_true_eq] at zero
  have single := led.2 (head?_of_map_digit led.1.2 zero.1)
  rw [single] at zero
  exact absurd zero.2 (by decide)

/-- A sign is told by the first character, and taken off. -/
theorem sign_append {sign rest : List Char} (signed : sign ∈ [[], ['-']])
    (unsigned : rest.head? ≠ some '-') :
    ((sign ++ rest).head? == some '-') = (sign == ['-']) ∧
      (if sign == ['-'] then (sign ++ rest).drop 1 else sign ++ rest) = rest := by
  simp only [List.mem_cons, List.not_mem_nil, or_false] at signed
  rcases signed with rfl | rfl
  · exact ⟨beq_eq_false_iff_ne.mpr unsigned, rfl⟩
  · exact ⟨rfl, rfl⟩

theorem scan_append {sign whole fraction exponent : List Char} (signed : sign ∈ [[], ['-']])
    (led : Whole whole) (parted : Fraction fraction) (raised : Exponent exponent) :
    ∃ f e, (f = [] ↔ fraction = []) ∧ (e = none ↔ exponent = []) ∧
      ∀ rest, Apart rest → scan (sign ++ (whole ++ (fraction ++ exponent)) ++ rest) =
        .ok (⟨sign == ['-'], whole.map digit, f, e⟩, rest) := by
  obtain ⟨f, noFraction, fractionRead⟩ := scanFraction_append parted
  obtain ⟨e, noExponent, exponentRead⟩ := scanExponent_append raised
  refine ⟨f, e, noFraction, noExponent, fun rest apart => ?_⟩
  -- Each part ends where the next begins, or what comes behind the number.
  have behindFraction : ∀ c ∈ (exponent ++ rest).head?, c.isDigit = false ∧ c ≠ '.' :=
    head?_append_of raised.head? fun c first => ⟨(apart c first).1, by
      rintro rfl
      exact (apart '.' first).2 (by decide)⟩
  have behindWhole : ∀ c ∈ (fraction ++ (exponent ++ rest)).head?, c.isDigit = false :=
    head?_append_of parted.head? fun c first => (behindFraction c first).1
  have unsigned : (whole ++ (fraction ++ (exponent ++ rest))).head? ≠ some '-' :=
    led.1.head?_ne_minus
  obtain ⟨minus, taken⟩ := sign_append signed unsigned
  simp only [List.append_assoc]
  rw [scan, minus, taken, someDigits_append led.1 behindWhole]
  simp only [bind, Except.bind, leading_zero_stands_alone led, fractionRead _ behindFraction,
    exponentRead rest apart, pure, Except.pure]
  rfl

theorem toDigits_append_of_pos {cs : List Char} (all : ∀ c ∈ cs, c.isDigit = true) {n : Nat}
    (some : 0 < n) : Nat.toDigits 10 n ++ cs = Nat.toDigits 10 (Nat.ofDigitChars 10 cs n) := by
  induction cs generalizing n with
  | nil => rw [List.append_nil, Nat.ofDigitChars_nil]
  | cons c rest ih =>
    obtain ⟨small, char⟩ := digitChar_digit (all c List.mem_cons_self)
    have next : Nat.toDigits 10 n ++ [c] = Nat.toDigits 10 (10 * n + digit c) := by
      rw [← Nat.toDigits_append_toDigits (by decide) some small, Nat.toDigits_of_lt_base small, char]
    calc Nat.toDigits 10 n ++ c :: rest
      _ = Nat.toDigits 10 (10 * n + digit c) ++ rest := by
        rw [← next, List.append_assoc, List.singleton_append]
      _ = Nat.toDigits 10 (Nat.ofDigitChars 10 rest (10 * n + digit c)) :=
        ih (fun d later => all d (List.mem_cons_of_mem _ later)) (by omega)
      _ = Nat.toDigits 10 (Nat.ofDigitChars 10 (c :: rest) n) := by
        rw [Nat.ofDigitChars_cons]
        rfl

theorem value_map_digit (cs : List Char) : value (cs.map digit) = Nat.ofDigitChars 10 cs 0 := by
  rw [Nat.ofDigitChars_eq_foldl, value, List.foldl_map]
  rfl

/-- Digits without a leading zero are those of their value. -/
theorem toDigits_value {whole : List Char} (led : Whole whole) :
    Nat.toDigits 10 (value (whole.map digit)) = whole := by
  obtain ⟨⟨some, all⟩, zero⟩ := led
  obtain ⟨c, cs, rfl⟩ := List.exists_cons_of_ne_nil some
  obtain ⟨small, char⟩ := digitChar_digit (all c List.mem_cons_self)
  by_cases first : digit c = 0
  · rw [first] at char
    rw [zero (by rw [← char]; rfl)]
    rfl
  · have grown := toDigits_append_of_pos (fun d later => all d (List.mem_cons_of_mem c later))
      (Nat.pos_of_ne_zero first)
    rw [Nat.toDigits_of_lt_base small, char, List.singleton_append] at grown
    rw [value_map_digit, Nat.ofDigitChars_cons, Nat.mul_zero, Nat.zero_add]
    exact grown.symm

/-- A number is taken off the front of a text, and is natural only if it is written so. -/
theorem scan_number {cs : List Char} (number : IsNumber cs) :
    ∃ numeral, (∀ rest, Apart rest → scan (cs ++ rest) = .ok (numeral, rest)) ∧
      ∀ n, numeral.toNat? = some n ↔ IsNatural n cs := by
  obtain @⟨sign, whole, fraction, exponent, signed, led, parted, raised⟩ := number
  obtain ⟨f, e, noFraction, noExponent, read⟩ := scan_append signed led parted raised
  refine ⟨_, read, fun n => ?_⟩
  have plain : toNat? ⟨sign == ['-'], whole.map digit, f, e⟩ = some n ↔
      sign ≠ ['-'] ∧ fraction = [] ∧ exponent = [] ∧ value (whole.map digit) = n := by
    rw [toNat?, ← noFraction, ← noExponent]
    cases e <;> simp [and_assoc]
  rw [plain]
  constructor
  · rintro ⟨unsigned, rfl, rfl, rfl⟩
    simp only [List.mem_cons, List.not_mem_nil, or_false, unsigned] at signed
    rw [signed, IsNatural, toDigits_value led]
    simp
  · intro natural
    have digits := natural.digits.2
    have unsigned : sign ≠ ['-'] := by
      rintro rfl
      exact absurd (digits '-' (by simp)) (by decide)
    have noFraction : fraction = [] := by
      cases parted with
      | none => rfl
      | some _ => exact absurd (digits '.' (by simp)) (by decide)
    have noExponent : exponent = [] := by
      cases raised with
      | none => rfl
      | @some e _ _ letter _ _ =>
        have digit := digits e (by simp)
        simp only [List.mem_cons, List.not_mem_nil, or_false] at letter
        rcases letter with rfl | rfl <;> cases digit
    simp only [List.mem_cons, List.not_mem_nil, or_false, unsigned] at signed
    rw [IsNatural, signed, noFraction, noExponent, List.nil_append, List.append_nil,
      List.append_nil] at natural
    refine ⟨unsigned, noFraction, noExponent, ?_⟩
    rw [value_map_digit, natural, Nat.ofDigitChars_ten_toDigits]

end Numeral

end Spillway.Json
