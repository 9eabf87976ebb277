import Spillway.Proofs.Numerals
import Spillway.Proofs.Spelling
/-!
Tokens of JSON texts. Each text of the grammar is cut into tokens of its own, whatever comes behind it,
unless a number would go on there; blanks are no tokens.
-/

namespace Spillway.Json

/-- A text is cut into these tokens, and they leave what comes behind it as it is, unless a number would
go on there. -/
def Lexes (cs : List Char) (ts : List Token) : Prop :=
  ∀ rest, Apart rest → tokensFrom 0 (cs ++ rest) = ts ++ tokensFrom 0 rest

theorem tokensFrom_length (cs rest : List Char) :
    tokensFrom cs.length (cs ++ rest) = tokensFrom 0 rest := by
  induction cs with
  | nil => rfl
  | cons c cs ih => rw [List.length_cons, List.cons_append, tokensFrom, ih]

theorem tokensFrom_scan {c : Char} {rest : List Char} {token : Token} {n : Nat}
    (solid : isBlank c = false) (scanned : Token.scan c rest = (token, n)) :
    tokensFrom 0 (c :: rest) = token :: tokensFrom n rest := by
  rw [tokensFrom, if_neg (Bool.eq_false_iff.mp solid), scanned]

theorem Apart.nil : Apart [] := fun _ first => by cases first

theorem Apart.append {cs rest : List Char} (first : Apart cs) (later : Apart rest) :
    Apart (cs ++ rest) :=
  head?_append_of first later

theorem Blanks.apart {cs : List Char} (blanks : Blanks cs) : Apart cs := by
  cases cs with
  | nil => exact .nil
  | cons c cs =>
    have blank := blanks c List.mem_cons_self
    rintro d ⟨⟩
    simp only [List.mem_cons, List.not_mem_nil, or_false] at blank
    rcases blank with rfl | rfl | rfl | rfl <;> decide

theorem tokensFrom_blanks {cs : List Char} (blanks : Blanks cs) (rest : List Char) :
    tokensFrom 0 (cs ++ rest) = tokensFrom 0 rest := by
  induction cs with
  | nil => rfl
  | cons c cs ih =>
    have blank : isBlank c = true := by
      have listed := blanks c List.mem_cons_self
      simp only [List.mem_cons, List.not_mem_nil, or_false] at listed
      rcases listed with rfl | rfl | rfl | rfl <;> rfl
    rw [List.cons_append, tokensFrom, if_pos blank]
    exact ih fun d later => blanks d (List.mem_cons_of_mem _ later)

theorem Lexes.nil : Lexes [] [] := fun _ _ => rfl

theorem lexes_blanks {cs : List Char} (blanks : Blanks cs) : Lexes cs [] :=
  fun rest _ => tokensFrom_blanks blanks rest

theorem Lexes.append {cs ds : List Char} {ts us : List Token} (first : Lexes cs ts)
    (later : Lexes ds us) (apart : Apart ds) : Lexes (cs ++ ds) (ts ++ us) := by
  intro rest behind
  rw [List.append_assoc, first _ (apart.append behind), later _ behind, List.append_assoc]

theorem Lexes.behind_blanks {before cs : List Char} {ts : List Token} (lexes : Lexes cs ts)
    (blanks : Blanks before) : Lexes (before ++ cs) ts := by
  intro rest behind
  rw [List.append_assoc, tokensFrom_blanks blanks, lexes _ behind]

theorem Lexes.blanks {before cs after : List Char} {ts : List Token} (lexes : Lexes cs ts)
    (blanksBefore : Blanks before) (blanksAfter : Blanks after) :
    Lexes (before ++ (cs ++ after)) ts := by
  have padded := lexes.append (lexes_blanks blanksAfter) blanksAfter.apart
  rw [List.append_nil] at padded
  exact padded.behind_blanks blanksBefore

theorem tokens_eq {text : String} {ts : List Token} (lexes : Lexes text.toList ts) :
    tokens text = ts := by
  have cut := lexes [] .nil
  rwa [List.append_nil, tokensFrom, List.append_nil] at cut

/-- The characters that are tokens. -/
inductive Mark : Char → Token → Prop
  | openBrace : Mark '{' .openBrace
  | closeBrace : Mark '}' .closeBrace
  | openBracket : Mark '[' .openBracket
  | closeBracket : Mark ']' .closeBracket
  | comma : Mark ',' .comma
  | colon : Mark ':' .colon

theorem scan_mark {c : Char} {token : Token} (mark : Mark c token) (rest : List Char) :
    Token.scan c rest = (token, 0) ∧ isBlank c = false := by
  cases mark <;> exact ⟨rfl, rfl⟩

theorem Mark.apart {c : Char} {token : Token} (mark : Mark c token) (cs : List Char) :
    Apart (c :: cs) := by
  rintro d ⟨⟩
  cases mark <;> decide

theorem Lexes.mark {c : Char} {token : Token} {cs : List Char} {ts : List Token}
    (mark : Mark c token) (later : Lexes cs ts) : Lexes (c :: cs) (token :: ts) := by
  intro rest behind
  obtain ⟨scanned, solid⟩ := scan_mark mark (cs ++ rest)
  rw [List.cons_append, tokensFrom_scan solid scanned, later _ behind, List.cons_append]

theorem lexes_string {ps : List Piece} {inner : List Char} (spelled : Spelled ps inner) :
    Lexes ('"' :: (inner ++ ['"'])) [.text ((decode ps (.ok ())).map String.ofList) (.ok ())] := by
  intro rest _
  have text : inner ++ ['"'] ++ rest = inner ++ '"' :: rest := by
    rw [List.append_assoc, List.singleton_append]
  have length : (inner ++ ['"']).length = inner.length + 1 := List.length_append
  have scanned : Token.scan '"' (inner ++ ['"'] ++ rest) =
      (.text ((decode ps (.ok ())).map String.ofList) (.ok ()), (inner ++ ['"']).length) := by
    change (Token.text _ _, _) = _
    rw [text, pieces_spelled spelled, width_spelled spelled, length]
  rw [List.cons_append, tokensFrom_scan rfl scanned, tokensFrom_length, List.singleton_append]

theorem IsNumber.exists_cons {cs : List Char} (number : IsNumber cs) :
    ∃ c rest, cs = c :: rest ∧ (c = '-' ∨ c.isDigit = true) := by
  obtain @⟨sign, whole, fraction, exponent, signed, led, parted, raised⟩ := number
  simp only [List.mem_cons, List.not_mem_nil, or_false] at signed
  rcases signed with rfl | rfl
  · obtain ⟨c, rest, rfl⟩ := List.exists_cons_of_ne_nil led.1.1
    exact ⟨c, _, rfl, .inr (led.1.2 c List.mem_cons_self)⟩
  · exact ⟨'-', _, rfl, .inl rfl⟩

theorem scan_of_numeral {c : Char} {rest after : List Char} {numeral : Numeral}
    (first : c = '-' ∨ c.isDigit = true) (scanned : Numeral.scan (c :: rest) = .ok (numeral, after)) :
    isBlank c = false ∧
      Token.scan c rest = (.number (.ok numeral), rest.length - after.length) := by
  constructor
  · apply Bool.eq_false_iff.mpr
    intro blank
    simp only [isBlank, Bool.or_eq_true, decide_eq_true_eq] at blank
    rcases blank with ((rfl | rfl) | rfl) | rfl <;> rcases first with same | digit
    all_goals contradiction
  · unfold Token.scan
    split
    case h_11 => rw [if_pos (by simpa using first), scanned]
    all_goals rcases first with same | digit
    all_goals contradiction

/-- A number is one token, and is natural only if it is written so. -/
theorem lexes_number {cs : List Char} (number : IsNumber cs) :
    ∃ numeral, Lexes cs [.number (.ok numeral)] ∧ ∀ n, numeral.toNat? = some n ↔ IsNatural n cs := by
  obtain ⟨numeral, read, natural⟩ := Numeral.scan_number number
  refine ⟨numeral, fun rest apart => ?_, natural⟩
  obtain ⟨c, ds, rfl, first⟩ := number.exists_cons
  have scanned := read rest apart
  rw [List.cons_append] at scanned
  obtain ⟨solid, scanned⟩ := scan_of_numeral first scanned
  rw [List.length_append, Nat.add_sub_cancel] at scanned
  rw [List.cons_append, tokensFrom_scan solid scanned, tokensFrom_length, List.singleton_append]

theorem lexes_null : Lexes ['n', 'u', 'l', 'l'] [.word (.ok .null)] := fun _ _ => rfl

theorem lexes_truth {b : Bool} {cs : List Char} (truth : IsTruth b cs) :
    Lexes cs [.word (.ok (if b then .true else .false))] := by
  rw [truth]
  cases b <;> exact fun _ _ => rfl

end Spillway.Json
