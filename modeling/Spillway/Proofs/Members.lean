import Spillway.Proofs.Skimming
/-!
Objects read member by member. What the tokens of an object come to is what its members come to, each
taken as its name and the first token of its value: blanks, the way names are spelled and what
values of unknown names hold make no difference.
-/

namespace Spillway.Json.Shape

variable {α : Type} {shape : Shape α}

/-- The record that members make of another one. Those of known names are put into it, each name once;
`seen` are the names that were there before. -/
def absorb (shape : Shape α) :
    List (String × Token) → (seen : List String) → α → Except Malformed α
  | [], seen, record =>
    if shape.complete && shape.fields.any fun field => !seen.contains field.name then
      .error .mistyped
    else .ok record
  | (name, token) :: later, seen, record =>
    match shape.fields.find? fun field => field.name == name with
    | none => shape.absorb later seen record
    | some field =>
      if seen.contains name then .error .mistyped
      else field.put token record >>= shape.absorb later (field.name :: seen)

/-- No field is put from a list or an object. -/
def Flat (shape : Shape α) : Prop :=
  ∀ field ∈ shape.fields, ∀ token, token = .openBracket ∨ token = .openBrace →
    ∀ record, ∃ malformed, field.put token record = .error malformed

theorem closeObject_eq (seen : List String) (record : α) :
    shape.closeObject seen record = (shape.absorb [] seen record).map .finished := by
  unfold closeObject absorb
  split <;> rfl

/-! ## One member -/

theorem foldlM_skipping {skim : Skim} {ts : List Token} (leads : skim.Leads ts none)
    (seen : List String) (record : α) :
    ts.foldlM shape.step (.skipping skim seen record) = .ok (.separator seen record) := by
  generalize done : none = after at leads
  induction leads with
  | last step =>
    cases done
    rw [List.foldlM_cons, Shape.step, readSkipped, step]
    rfl
  | cons step _ ih =>
    rw [List.foldlM_cons, Shape.step, readSkipped, step]
    exact ih done

theorem foldlM_value (flat : shape.Flat) {field : Field α} (known : field ∈ shape.fields)
    {cs : List Char} {token : Token} {later : List Token} (value : ValueTokens cs token later)
    (seen : List String) (record : α) :
    (token :: later).foldlM shape.step (.member field seen record) =
      (field.put token record).map (.separator (field.name :: seen)) := by
  rw [List.foldlM_cons, Shape.step]
  rcases value.single with rfl | opens
  · exact bind_pure _
  · obtain ⟨malformed, refused⟩ := flat field known token opens record
    rw [refused]
    rfl

def named (name : String) : Token := .text (.ok name) (.ok ())

/-- The tokens of one member, from its name to the end of its value. -/
theorem foldlM_member (flat : shape.Flat) {cs : List Char} {token : Token} {later : List Token}
    (value : ValueTokens cs token later) (name : String) (seen : List String) (record : α) :
    (named name :: .colon :: token :: later).foldlM shape.step (.name seen record) =
      match shape.fields.find? fun field => field.name == name with
      | none => .ok (.separator seen record)
      | some field =>
        if seen.contains name then .error .mistyped
        else (field.put token record).map (.separator (field.name :: seen)) := by
  have start : shape.step (.name seen record) (named name) =
    shape.readName seen record (named name) := rfl
  rw [List.foldlM_cons, start, named, readName]
  cases found : shape.fields.find? fun field => field.name == name with
  | none => exact foldlM_skipping (value.passes []) seen record
  | some field =>
    dsimp only
    split
    · rfl
    · exact foldlM_value flat (List.mem_of_find?_eq_some found) value seen record

/-! ## All members -/

/-- If the tokens behind a member come to what the later members come to, then so do all of them. -/
theorem foldlM_member_append (flat : shape.Flat) {cs : List Char} {token : Token}
    {later rest : List Token} (value : ValueTokens cs token later) (name : String)
    {heads : List (String × Token)}
    (next : ∀ seen record, rest.foldlM shape.step (.separator seen record) =
      (shape.absorb heads seen record).map .finished) (seen : List String) (record : α) :
    (named name :: .colon :: token :: later ++ rest).foldlM shape.step (.name seen record) =
      (shape.absorb ((name, token) :: heads) seen record).map .finished := by
  rw [List.foldlM_append, foldlM_member flat value, absorb]
  cases shape.fields.find? fun field => field.name == name with
  | none => exact next seen record
  | some field =>
    dsimp only
    split
    · rfl
    · cases field.put token record with
      | error malformed => rfl
      | ok record => exact next _ record

/-- The members as names and first tokens of values. -/
def Headed (members : List (String × List Char)) (heads : List (String × Token)) : Prop :=
  List.Forall₂ (fun m h => m.1 = h.1 ∧ Heads h.2 m.2) members heads

theorem lexes_name {name : String} {cs : List Char} (is : IsName name cs) :
    Lexes cs [named name] := by
  obtain ⟨before, text, after, blanks, ⟨ps, inner, spelled, denotes, rfl⟩, blanksAfter, rfl⟩ := is
  have lexes := lexes_string spelled
  rw [decode_of_denotes denotes, Except.map, String.ofList_toList] at lexes
  exact lexes.blanks blanks blanksAfter

theorem lexes_member {name : String} {n v : List Char} {ts : List Token} (is : IsName name n)
    (lexes : Lexes v ts) : Lexes (n ++ (':' :: v)) (named name :: .colon :: ts) :=
  (lexes_name is).append (.mark .colon lexes) (Mark.colon.apart _)

theorem exists_foldlM_members (flat : shape.Flat) {members : List (String × List Char)}
    {cs : List Char} (text : IsMembers members cs) :
    ∃ name ts heads, Lexes cs (named name :: ts) ∧ Headed members heads ∧
      ∀ seen record,
        (named name :: ts ++ [Token.closeBrace]).foldlM shape.step (.name seen record) =
          (shape.absorb heads seen record).map .finished := by
  induction text with
  | @one name _ _ _ is padded =>
    obtain ⟨before, after, blanks, value, blanksAfter, rfl⟩ := padded
    obtain ⟨token, later, tokens⟩ := reads_of_grammar value
    have lexes := lexes_member is (tokens.lexes.blanks blanks blanksAfter)
    refine ⟨name, _, [(name, token)], lexes, .cons ⟨rfl, tokens.heads⟩ .nil, ?_⟩
    refine foldlM_member_append flat tokens name fun seen record => ?_
    rw [← closeObject_eq]
    exact bind_pure _
  | @more name _ _ _ _ _ is padded _ ih =>
    obtain ⟨before, after, blanks, value, blanksAfter, rfl⟩ := padded
    obtain ⟨token, later, tokens⟩ := reads_of_grammar value
    obtain ⟨second, ts, heads, lexesRest, headed, run⟩ := ih
    have tail := (tokens.lexes.blanks blanks blanksAfter).append (.mark .comma lexesRest)
      (Mark.comma.apart _)
    refine ⟨name, _, (name, token) :: heads, lexes_member is tail,
      .cons ⟨rfl, tokens.heads⟩ headed, fun seen record => ?_⟩
    have split : named name :: (.colon :: (token :: later ++ .comma :: (named second :: ts))) ++
        [Token.closeBrace] = named name :: .colon :: token :: later ++
          .comma :: (named second :: ts ++ [.closeBrace]) := by
      simp
    have next : ∀ seen record,
        (.comma :: (named second :: ts ++ [Token.closeBrace])).foldlM shape.step
          (.separator seen record) = (shape.absorb heads seen record).map .finished := run
    rw [split]
    exact foldlM_member_append flat tokens name next seen record

theorem read_eq {text : String} {ts : List Token} {found : Except Malformed α}
    (lexes : Lexes text.toList ts) (run : ts.foldlM shape.step .start = found.map .finished) :
    shape.read text = found := by
  rw [read, tokens_eq lexes, run]
  cases found <;> rfl

/-- An object is read as its members are absorbed. -/
theorem exists_read_object (flat : shape.Flat) {members : List (String × List Char)} {text : String}
    (object : IsObject members text.toList) :
    ∃ heads, Headed members heads ∧ shape.read text = shape.absorb heads [] shape.blank := by
  generalize written : text.toList = cs at object
  cases object with
  | empty before inner after =>
    have tail := (lexes_blanks inner).append (.mark .closeBrace (lexes_blanks after))
      (Mark.closeBrace.apart _)
    have lexes := (Lexes.mark .openBrace tail).behind_blanks before
    rw [← written] at lexes
    refine ⟨[], .nil, read_eq lexes ?_⟩
    rw [← closeObject_eq]
    exact bind_pure (shape.closeObject [] shape.blank)
  | some before inner after =>
    obtain ⟨name, ts, heads, lexesInner, headed, run⟩ := exists_foldlM_members flat inner
    have tail := lexesInner.append (.mark .closeBrace (lexes_blanks after)) (Mark.closeBrace.apart _)
    have lexes := (Lexes.mark .openBrace tail).behind_blanks before
    rw [← written] at lexes
    exact ⟨heads, headed, read_eq lexes (run [] shape.blank)⟩

end Spillway.Json.Shape
