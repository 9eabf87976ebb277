import Spillway.Json.Shape
import Spillway.Proofs.Lexing
/-!
Values as tokens. The first token of a value says what the value stands for, and reading any value
token by token passes over exactly that value, however deep it is nested: the brackets it opens are
closed again, and those that were open before it stay as they were.
-/

namespace Spillway.Json

/-! ## What the first token of a value stands for -/

/-- At the head of the value `cs`, the token is read as a text, a truth value or a number if `cs` is one
of these, and as nothing else. -/
structure Heads (token : Token) (cs : List Char) : Prop where
  text (s : String) : token.toText = .ok s ↔ IsText s cs
  truth (b : Bool) : token.toBool = .ok b ↔ IsTruth b cs
  natural (limit n : Nat) : token.toNat limit = .ok n ↔ n < limit ∧ IsNatural n cs

theorem IsText.head? {s : String} {cs : List Char} (text : IsText s cs) : cs.head? = some '"' := by
  obtain ⟨pieces, inner, _, _, rfl⟩ := text
  rfl

theorem IsTruth.head? {b : Bool} {cs : List Char} (truth : IsTruth b cs) :
    cs.head? = some (if b then 't' else 'f') := by
  rw [truth]
  cases b <;> rfl

theorem IsNatural.head? {n : Nat} {cs : List Char} (natural : IsNatural n cs) :
    ∃ c, cs.head? = some c ∧ c.isDigit = true := by
  obtain ⟨c, rest, rfl⟩ := List.exists_cons_of_ne_nil natural.digits.1
  exact ⟨c, rfl, natural.digits.2 c List.mem_cons_self⟩

theorem unwanted_ne_ok {α : Type} (token : Token) (a : α) : token.unwanted ≠ .ok a := by
  intro wanted
  unfold Token.unwanted at wanted
  split at wanted <;> cases wanted

theorem heads_of_head? {token : Token} {c : Char} {cs : List Char} (quote : c ≠ '"')
    (truth : c ∉ ['t', 'f']) (digit : c.isDigit = false) (text : token.toText = token.unwanted)
    (bool : token.toBool = token.unwanted) (nat : ∀ limit, token.toNat limit = token.unwanted) :
    Heads token (c :: cs) := by
  refine ⟨fun s => ?_, fun b => ?_, fun limit n => ?_⟩
  · rw [text]
    refine iff_of_false (unwanted_ne_ok token s) fun is => ?_
    exact quote (Option.some.inj is.head?)
  · rw [bool]
    refine iff_of_false (unwanted_ne_ok token b) fun is => ?_
    have first := Option.some.inj is.head?
    rw [first] at truth
    cases b <;> exact truth (by decide)
  · rw [nat]
    refine iff_of_false (unwanted_ne_ok token n) fun is => ?_
    obtain ⟨d, first, found⟩ := is.2.head?
    cases first
    rw [found] at digit
    cases digit

theorem toText_text (reading : Except Malformed String) (ending : Except Malformed Unit) :
    (Token.text reading ending).toText = reading := by
  cases reading <;> rfl

theorem heads_string {ps : List Piece} {inner : List Char} (spelled : Spelled ps inner) :
    Heads (.text ((decode ps (.ok ())).map String.ofList) (.ok ())) ('"' :: (inner ++ ['"'])) := by
  refine ⟨fun s => ?_, fun b => ?_, fun limit n => ?_⟩
  · rw [toText_text, decode_eq_ok_iff spelled]
  · refine iff_of_false (unwanted_ne_ok _ b) fun is => ?_
    have first := Option.some.inj is.head?
    cases b <;> exact absurd first (by decide)
  · refine iff_of_false (unwanted_ne_ok _ n) fun is => ?_
    obtain ⟨c, first, digit⟩ := is.2.head?
    cases first
    cases digit

theorem heads_number {numeral : Numeral} {cs : List Char} (number : IsNumber cs)
    (natural : ∀ n, numeral.toNat? = some n ↔ IsNatural n cs) :
    Heads (.number (.ok numeral)) cs := by
  obtain ⟨c, rest, rfl, lead⟩ := number.exists_cons
  refine ⟨fun s => ?_, fun b => ?_, fun limit n => ?_⟩
  · refine iff_of_false (unwanted_ne_ok (.number (.ok numeral)) s) fun is => ?_
    cases Option.some.inj is.head?
    rcases lead with same | digit <;> contradiction
  · refine iff_of_false (unwanted_ne_ok (.number (.ok numeral)) b) fun is => ?_
    cases Option.some.inj is.head?
    cases b <;> rcases lead with same | digit <;> contradiction
  · rw [← natural]
    unfold Token.toNat
    dsimp only
    cases found : numeral.toNat? with
    | none => exact iff_of_false (unwanted_ne_ok _ n) (by simp)
    | some m =>
      by_cases small : m < limit
      · simp only [if_pos small, Except.ok.injEq, Option.some.injEq]
        constructor
        · rintro rfl
          exact ⟨small, rfl⟩
        · exact fun same => same.2
      · simp only [if_neg small, Option.some.injEq]
        refine iff_of_false (unwanted_ne_ok _ n) ?_
        rintro ⟨below, rfl⟩
        exact small below

theorem heads_truth {b : Bool} {cs : List Char} (truth : IsTruth b cs) :
    Heads (.word (.ok (if b then .true else .false))) cs := by
  have unread : ∀ word limit, (∀ s, (Token.word (.ok word)).toText ≠ .ok s) ∧
      ∀ n, (Token.word (.ok word)).toNat limit ≠ .ok n :=
    fun word _ => ⟨unwanted_ne_ok (.word (.ok word)), unwanted_ne_ok (.word (.ok word))⟩
  rw [truth]
  refine ⟨fun s => ?_, fun a => ?_, fun limit n => ?_⟩
  · refine iff_of_false ((unread _ 0).1 s) fun is => ?_
    have first := is.head?
    cases b <;> exact absurd first (by decide)
  · have other : (toString true).toList ≠ (toString false).toList := by decide
    cases a <;> cases b <;> simp [Token.toBool, IsTruth, other, other.symm]
  · refine iff_of_false ((unread _ limit).2 n) fun is => ?_
    obtain ⟨c, first, digit⟩ := is.2.head?
    cases b <;> cases first <;> cases digit

/-! ## Passing over a value -/

namespace Skim

/-- The tokens, at least one, are passed over one by one, up to where `after` says; that is nothing if
they end the outermost value. -/
inductive Leads : Skim → List Token → Option Skim → Prop
  | last {skim : Skim} {token : Token} {after : Option Skim} :
      skim.step token = .ok after → Leads skim [token] after
  | cons {skim next : Skim} {token : Token} {later : List Token} {after : Option Skim} :
      skim.step token = .ok (some next) → Leads next later after → Leads skim (token :: later) after

theorem Leads.append {skim next : Skim} {ts us : List Token} {after : Option Skim}
    (first : skim.Leads ts (some next)) (later : next.Leads us after) :
    skim.Leads (ts ++ us) after := by
  generalize done : some next = reached at first
  induction first with
  | last step =>
    cases done
    exact .cons step later
  | cons step _ ih => exact .cons step (ih done)

theorem Leads.enter {skim other : Skim} {ts : List Token} {after : Option Skim}
    (leads : skim.Leads ts after)
    (enter : ∀ token after, skim.step token = .ok after → other.step token = .ok after) :
    other.Leads ts after := by
  cases leads with
  | last step => exact .last (enter _ _ step)
  | cons step later => exact .cons (enter _ _ step) later

/-- Where a value may stand, it may also stand as the first element of a list. -/
theorem step_firstElement {nests : List Nest} {token : Token} {after : Option Skim}
    (step : Skim.step ⟨nests, .value⟩ token = .ok after) :
    Skim.step ⟨nests, .firstElement⟩ token = .ok after := by
  have value : Skim.value nests token = .ok after := step
  unfold Skim.step
  split
  all_goals simp_all [Skim.value]

theorem step_firstName {nests : List Nest} {token : Token} {after : Option Skim}
    (step : Skim.step ⟨nests, .name⟩ token = .ok after) :
    Skim.step ⟨nests, .firstName⟩ token = .ok after := by
  have name : Skim.name nests token = .ok after := step
  unfold Skim.step
  split
  all_goals simp_all [Skim.name]

end Skim

/-- The tokens of the value `cs`. Only a list and an object have more than one. -/
structure ValueTokens (cs : List Char) (token : Token) (later : List Token) : Prop where
  lexes : Lexes cs (token :: later)
  heads : Heads token cs
  single : later = [] ∨ token = .openBracket ∨ token = .openBrace
  passes (nests : List Nest) : Skim.Leads ⟨nests, .value⟩ (token :: later) (Skim.closed nests)

/-- What tokens of each sort do when they are passed over: they leave what was open around them. -/
def Part.Passes : Part → List Token → Prop
  | .value, ts | .padded, ts => ∀ nests, Skim.Leads ⟨nests, .value⟩ ts (Skim.closed nests)
  | .elements, ts =>
    ∀ outer, Skim.Leads ⟨.list :: outer, .value⟩ ts (some ⟨.list :: outer, .separator⟩)
  | .name, ts => ∀ nests, Skim.Leads ⟨nests, .name⟩ ts (some ⟨nests, .colon⟩)
  | .members, ts =>
    ∀ outer, Skim.Leads ⟨.object :: outer, .name⟩ ts (some ⟨.object :: outer, .separator⟩)

/-- How a text of each sort is read: by tokens that are passed over; for a value, the first says what it
stands for. -/
def Part.Reads : Part → List Char → Prop
  | .value, cs => ∃ token later, ValueTokens cs token later
  | part, cs => ∃ ts, Lexes cs ts ∧ part.Passes ts

theorem ValueTokens.of_single {cs : List Char} {token : Token} (lexes : Lexes cs [token])
    (heads : Heads token cs) (step : ∀ nests, Skim.value nests token = .ok (Skim.closed nests)) :
    ValueTokens cs token [] :=
  ⟨lexes, heads, .inl rfl, fun nests => .last (step nests)⟩

theorem ValueTokens.list {cs : List Char} {ts : List Token} (lexes : Lexes cs ts)
    (passes : ∀ nests, Skim.Leads ⟨.list :: nests, .firstElement⟩ (ts ++ [.closeBracket])
      (Skim.closed nests)) :
    ValueTokens ('[' :: (cs ++ [']'])) .openBracket (ts ++ [.closeBracket]) where
  lexes := .mark .openBracket (lexes.append (.mark .closeBracket .nil) (Mark.closeBracket.apart _))
  heads := heads_of_head? (by decide) (by decide) rfl rfl rfl fun _ => rfl
  single := .inr (.inl rfl)
  passes nests := .cons rfl (passes nests)

theorem ValueTokens.object {cs : List Char} {ts : List Token} (lexes : Lexes cs ts)
    (passes : ∀ nests, Skim.Leads ⟨.object :: nests, .firstName⟩ (ts ++ [.closeBrace])
      (Skim.closed nests)) :
    ValueTokens ('{' :: (cs ++ ['}'])) .openBrace (ts ++ [.closeBrace]) where
  lexes := .mark .openBrace (lexes.append (.mark .closeBrace .nil) (Mark.closeBrace.apart _))
  heads := heads_of_head? (by decide) (by decide) rfl rfl rfl fun _ => rfl
  single := .inr (.inr rfl)
  passes nests := .cons rfl (passes nests)

/-- Every text of the grammar is read, each sort in its way. -/
theorem reads_of_grammar {part : Part} {cs : List Char} (grammar : Grammar part cs) :
    part.Reads cs := by
  induction grammar with
  | null =>
    refine ⟨_, [], .of_single lexes_null ?_ fun _ => rfl⟩
    exact heads_of_head? (by decide) (by decide) rfl rfl rfl fun _ => rfl
  | @truth b cs truth =>
    refine ⟨_, [], .of_single (lexes_truth truth) (heads_truth truth) fun _ => ?_⟩
    cases b <;> rfl
  | number number =>
    obtain ⟨numeral, lexes, natural⟩ := lexes_number number
    exact ⟨_, [], .of_single lexes (heads_number number natural) fun _ => rfl⟩
  | text spelled =>
    exact ⟨_, [], .of_single (lexes_string spelled) (heads_string spelled) fun _ => rfl⟩
  | emptyList blanks => exact ⟨_, _, .list (lexes_blanks blanks) fun _ => .last rfl⟩
  | emptyObject blanks => exact ⟨_, _, .object (lexes_blanks blanks) fun _ => .last rfl⟩
  | list _ ih =>
    obtain ⟨ts, lexes, passes⟩ := ih
    refine ⟨_, _, .list lexes fun nests => ?_⟩
    exact ((passes nests).enter fun _ _ => Skim.step_firstElement).append (.last rfl)
  | object _ ih =>
    obtain ⟨ts, lexes, passes⟩ := ih
    refine ⟨_, _, .object lexes fun nests => ?_⟩
    exact ((passes nests).enter fun _ _ => Skim.step_firstName).append (.last rfl)
  | padded before _ after ih =>
    obtain ⟨token, later, value⟩ := ih
    exact ⟨_, value.lexes.blanks before after, value.passes⟩
  | element _ ih =>
    obtain ⟨ts, lexes, passes⟩ := ih
    exact ⟨ts, lexes, fun outer => passes (.list :: outer)⟩
  | elements _ _ first later =>
    obtain ⟨ts, lexes, passes⟩ := first
    obtain ⟨us, lexesLater, passesLater⟩ := later
    refine ⟨ts ++ .comma :: us, lexes.append (.mark .comma lexesLater) (Mark.comma.apart _), ?_⟩
    exact fun outer => (passes (.list :: outer)).append (.cons rfl (passesLater outer))
  | name before spelled after =>
    exact ⟨_, (lexes_string spelled).blanks before after, fun _ => .last rfl⟩
  | member _ _ name value =>
    obtain ⟨ts, lexes, passes⟩ := name
    obtain ⟨us, lexesValue, passesValue⟩ := value
    refine ⟨ts ++ .colon :: us, lexes.append (.mark .colon lexesValue) (Mark.colon.apart _), ?_⟩
    exact fun outer => (passes _).append (.cons rfl (passesValue (.object :: outer)))
  | members _ _ _ name value later =>
    obtain ⟨ts, lexes, passes⟩ := name
    obtain ⟨us, lexesValue, passesValue⟩ := value
    obtain ⟨vs, lexesLater, passesLater⟩ := later
    have tail := lexesValue.append (.mark .comma lexesLater) (Mark.comma.apart _)
    refine ⟨ts ++ .colon :: (us ++ .comma :: vs),
      lexes.append (.mark .colon tail) (Mark.colon.apart _), fun outer => ?_⟩
    exact (passes _).append
      (.cons rfl ((passesValue (.object :: outer)).append (.cons rfl (passesLater outer))))

end Spillway.Json
