import Mathlib.Data.List.Nodup
import Spillway.Proofs.Members
import Spillway.Word
/-!
Records read from objects. A record type is laid out in slots, each with a name, the form of its values
and its place in the record. The record that an object comes to is the blank one overwritten by what
the object gives, each slot by the member of its name alone.
-/

namespace Spillway.Json

/-! ## What members give -/

/-- The values given under a name, as they are written. -/
def valuesOf (name : String) (members : List (String × List Char)) : List (List Char) :=
  members.filterMap fun m => if m.1 = name then some m.2 else none

/-- The members give the name once, with this value, or never. -/
def Given {β : Type} (Form : β → List Char → Prop) (name : String)
    (members : List (String × List Char)) : Option β → Prop
  | none => valuesOf name members = []
  | some value => ∃ cs, valuesOf name members = [cs] ∧ Form value cs

theorem valuesOf_cons_same (name : String) (cs : List Char) (later : List (String × List Char)) :
    valuesOf name ((name, cs) :: later) = cs :: valuesOf name later :=
  List.filterMap_cons_some (if_pos rfl)

theorem valuesOf_cons_other {name other : String} (differ : other ≠ name) (cs : List Char)
    (later : List (String × List Char)) :
    valuesOf name ((other, cs) :: later) = valuesOf name later :=
  List.filterMap_cons_none (if_neg differ)

theorem Given.length_eq {β : Type} {Form : β → List Char → Prop} {name : String}
    {members : List (String × List Char)} {value : Option β} (given : Given Form name members value) :
    (valuesOf name members).length = value.toList.length := by
  cases value with
  | none =>
    have never : valuesOf name members = [] := given
    rw [never]
    rfl
  | some value =>
    obtain ⟨cs, once, -⟩ := given
    rw [once]
    rfl

/-! ## Slots -/

/-- A sort of values that records hold: how they are written, and how they are read from a token. -/
structure Format where
  Value : Type
  Form : Value → List Char → Prop
  parse : Token → Except Malformed Value
  parse_iff : ∀ {token : Token} {cs : List Char}, Heads token cs →
    ∀ value, parse token = .ok value ↔ Form value cs
  /-- Lists and objects are not among the values. -/
  flat : ∀ token, token = .openBracket ∨ token = .openBrace →
    ∃ malformed, parse token = .error malformed

namespace Format

def text : Format where
  Value := String
  Form := IsText
  parse := Token.toText
  parse_iff heads := heads.text
  flat := by
    rintro token (rfl | rfl) <;> exact ⟨.mistyped, rfl⟩

def truth : Format where
  Value := Bool
  Form := IsTruth
  parse := Token.toBool
  parse_iff heads := heads.truth
  flat := by
    rintro token (rfl | rfl) <;> exact ⟨.mistyped, rfl⟩

/-- Natural numbers that are words of 64 bits. -/
def word : Format where
  Value := Nat
  Form n cs := n < Word.span ∧ IsNatural n cs
  parse := Token.toNat Word.span
  parse_iff heads := heads.natural Word.span
  flat := by
    rintro token (rfl | rfl) <;> exact ⟨.mistyped, rfl⟩

/-- Numbers of 32 bits. -/
def uint32 : Format where
  Value := UInt32
  Form n cs := IsNatural n.toNat cs
  parse token := (token.toNat UInt32.size).map UInt32.ofNat
  parse_iff heads n := by
    rw [map_eq_ok_iff]
    constructor
    · rintro ⟨m, read, rfl⟩
      obtain ⟨small, natural⟩ := (heads.natural _ m).mp read
      rwa [UInt32.toNat_ofNat_of_lt' small]
    · intro natural
      exact ⟨n.toNat, (heads.natural _ _).mpr ⟨n.toNat_lt, natural⟩, UInt32.ofNat_toNat⟩
  flat := by
    rintro token (rfl | rfl) <;> exact ⟨.mistyped, rfl⟩

end Format

/-- A place in a record: its name, what it holds, and how. -/
structure Slot (α : Type) where
  name : String
  format : Format
  get : α → format.Value
  set : format.Value → α → α
  get_set : ∀ value record, get (set value record) = value

namespace Slot

variable {α : Type}

/-- The field that the slot is read by. -/
def field (slot : Slot α) : Field α where
  name := slot.name
  put token record := (slot.format.parse token).map fun value => slot.set value record

/-- How a record comes to `final` in this slot by members, if names in `seen` were there before. -/
def Takes (slot : Slot α) (complete : Bool) (members : List (String × List Char))
    (seen : List String) (record final : α) : Prop :=
  ∃ value : Option slot.format.Value, Given slot.format.Form slot.name members value ∧
    slot.get final = value.getD (slot.get record) ∧
    (value.isSome → slot.name ∉ seen) ∧ (complete = true → value.isSome ∨ slot.name ∈ seen)

variable {slot : Slot α} {complete : Bool} {members : List (String × List Char)}
  {seen : List String} {record final : α}

theorem takes_nil : slot.Takes complete [] seen record final ↔
    slot.get final = slot.get record ∧ (complete = true → slot.name ∈ seen) := by
  constructor
  · rintro ⟨_ | value, given, same, -, whole⟩
    · exact ⟨same, fun must => (whole must).resolve_left Bool.false_ne_true⟩
    · obtain ⟨cs, none, -⟩ := given
      cases none
  · rintro ⟨same, whole⟩
    exact ⟨none, rfl, same, Bool.noConfusion, fun must => .inr (whole must)⟩

theorem takes_other {name : String} {after : List String} {other : α} (differ : name ≠ slot.name)
    (before : slot.name ∈ after ↔ slot.name ∈ seen) (same : slot.get other = slot.get record)
    (cs : List Char) : slot.Takes complete ((name, cs) :: members) seen record final ↔
      slot.Takes complete members after other final := by
  have given : ∀ value, Given slot.format.Form slot.name ((name, cs) :: members) value ↔
      Given slot.format.Form slot.name members value := by
    intro value
    cases value <;> simp only [Given, valuesOf_cons_other differ]
  simp only [Takes, given, before, same]

/-- A member of the slot's name is the only one, and its value is the slot's. -/
theorem takes_same (cs : List Char) :
    slot.Takes complete ((slot.name, cs) :: members) seen record final ↔
      slot.name ∉ seen ∧ ∃ value, slot.format.Form value cs ∧
        slot.Takes complete members (slot.name :: seen) (slot.set value record) final := by
  constructor
  · rintro ⟨_ | value, given, same, unseen, whole⟩
    · rw [Given, valuesOf_cons_same] at given
      cases given
    · obtain ⟨ds, once, form⟩ := given
      rw [valuesOf_cons_same] at once
      obtain ⟨rfl, none⟩ := List.cons.inj once
      refine ⟨unseen rfl, value, form, Option.none, none, ?_, Bool.noConfusion,
        fun _ => .inr List.mem_cons_self⟩
      rw [slot.get_set]
      exact same
  · rintro ⟨unseen, value, form, _ | again, given, same, once, -⟩
    · refine ⟨some value, ⟨cs, ?_, form⟩, ?_, fun _ => unseen, fun _ => .inl rfl⟩
      · rw [valuesOf_cons_same, given]
      · rw [slot.get_set] at same
        exact same
    · exact absurd List.mem_cons_self (once rfl)

end Slot

/-! ## Records -/

/-- How the records of a shape are laid out: a slot for each field, none of which disturbs another, and
which together are all of the record. -/
structure Layout {α : Type} (shape : Shape α) where
  slots : List (Slot α)
  fields : shape.fields = slots.map Slot.field
  names : (slots.map Slot.name).Nodup
  get_set_other : ∀ slot ∈ slots, ∀ other ∈ slots, slot.name ≠ other.name →
    ∀ value record, other.get (slot.set value record) = other.get record
  ext : ∀ record final, (∀ slot ∈ slots, slot.get final = slot.get record) → final = record

namespace Layout

variable {α : Type} {shape : Shape α} (layout : Layout shape)

include layout in
theorem flat : shape.Flat := by
  intro field known token opens record
  rw [layout.fields] at known
  obtain ⟨slot, _, rfl⟩ := List.mem_map.mp known
  obtain ⟨malformed, refused⟩ := slot.format.flat token opens
  refine ⟨malformed, ?_⟩
  change (slot.format.parse token).map _ = _
  rw [refused]
  rfl

theorem find?_eq_none_iff (name : String) :
    (shape.fields.find? fun field => field.name == name) = none ↔
      ∀ slot ∈ layout.slots, slot.name ≠ name := by
  simp [layout.fields, Slot.field]

theorem exists_of_find?_eq_some {name : String} {field : Field α}
    (found : (shape.fields.find? fun field => field.name == name) = some field) :
    ∃ slot ∈ layout.slots, slot.field = field ∧ slot.name = name := by
  have known := List.mem_of_find?_eq_some found
  rw [layout.fields] at known
  obtain ⟨slot, member, rfl⟩ := List.mem_map.mp known
  have same := List.find?_some found
  exact ⟨slot, member, rfl, eq_of_beq same⟩

theorem eq_of_name_eq {slot other : Slot α} (one : slot ∈ layout.slots) (two : other ∈ layout.slots)
    (same : slot.name = other.name) : slot = other :=
  List.inj_on_of_nodup_map layout.names one two same

theorem absorb_nil_iff (seen : List String) (record final : α) :
    shape.absorb [] seen record = .ok final ↔
      ∀ slot ∈ layout.slots, slot.Takes shape.complete [] seen record final := by
  have lacking :
      (shape.complete && shape.fields.any fun field => !seen.contains field.name) = false ↔
      ∀ slot ∈ layout.slots, shape.complete = true → slot.name ∈ seen := by
    rw [layout.fields, List.any_map]
    cases shape.complete with
    | false => simp
    | true =>
      simp only [Bool.true_and, List.any_eq_false, Function.comp_apply, Bool.not_eq_true',
        forall_const]
      refine forall₂_congr fun slot _ => ?_
      rw [Bool.not_eq_false, List.contains_iff_mem]
      rfl
  have same : record = final ↔ ∀ slot ∈ layout.slots, slot.get final = slot.get record :=
    ⟨fun same _ _ => by rw [same], fun same => (layout.ext record final same).symm⟩
  simp only [Slot.takes_nil, forall₂_and]
  rw [← same, ← lacking, Shape.absorb]
  split
  case isTrue lack =>
    refine iff_of_false (fun done => by cases done) fun both => ?_
    exact Bool.false_ne_true (both.2.symm.trans lack)
  case isFalse whole =>
    rw [Except.ok.injEq]
    exact (and_iff_left (Bool.eq_false_iff.mpr whole)).symm

/-- What a member of a known name does, if its value is of the form of its slot. -/
theorem takes_cons_iff {slot : Slot α} (member : slot ∈ layout.slots) {token : Token}
    {cs : List Char} (heads : Heads token cs) {value : slot.format.Value}
    (parsed : slot.format.parse token = .ok value)
    {seen : List String} (unseen : slot.name ∉ seen) (members : List (String × List Char))
    (complete : Bool) (record final : α) :
    (∀ other ∈ layout.slots, other.Takes complete ((slot.name, cs) :: members) seen record final) ↔
      ∀ other ∈ layout.slots,
        other.Takes complete members (slot.name :: seen) (slot.set value record) final := by
  refine forall₂_congr fun other known => ?_
  by_cases same : slot.name = other.name
  · obtain rfl := layout.eq_of_name_eq member known same
    rw [Slot.takes_same]
    constructor
    · rintro ⟨-, again, form, takes⟩
      cases parsed.symm.trans ((slot.format.parse_iff heads again).mpr form)
      exact takes
    · exact fun takes => ⟨unseen, value, (slot.format.parse_iff heads value).mp parsed, takes⟩
  · have kept := layout.get_set_other slot member other known same value record
    refine Slot.takes_other same ?_ kept cs
    simp [Ne.symm same]

theorem absorb_iff {members : List (String × List Char)} {heads : List (String × Token)}
    (headed : Shape.Headed members heads) (seen : List String) (record final : α) :
    shape.absorb heads seen record = .ok final ↔
      ∀ slot ∈ layout.slots, slot.Takes shape.complete members seen record final := by
  induction headed generalizing seen record with
  | nil => exact layout.absorb_nil_iff seen record final
  | @cons m h members later first _ ih =>
    obtain ⟨name, cs⟩ := m
    obtain ⟨_, token⟩ := h
    obtain ⟨rfl, heads⟩ := first
    rw [Shape.absorb]
    cases found : shape.fields.find? fun field => field.name == name with
    | none =>
      have strange := (layout.find?_eq_none_iff name).mp found
      exact (ih seen record).trans (forall₂_congr fun slot member =>
        (Slot.takes_other (strange slot member).symm Iff.rfl rfl cs).symm)
    | some field =>
      obtain ⟨slot, member, rfl, rfl⟩ := layout.exists_of_find?_eq_some found
      dsimp only
      split
      case isTrue again =>
        refine iff_of_false (fun done => by cases done) fun takes => ?_
        have unseen := ((Slot.takes_same cs).mp (takes slot member)).1
        exact unseen (List.contains_iff_mem.mp again)
      case isFalse fresh =>
        have unseen : slot.name ∉ seen := fun before => fresh (List.contains_iff_mem.mpr before)
        have put : slot.field.put token record =
          (slot.format.parse token).map fun value => slot.set value record := rfl
        rw [put]
        cases parsed : slot.format.parse token with
        | error malformed =>
          refine iff_of_false (fun done => by cases done) fun takes => ?_
          obtain ⟨-, value, form, -⟩ := (Slot.takes_same cs).mp (takes slot member)
          cases parsed.symm.trans ((slot.format.parse_iff heads value).mpr form)
        | ok value =>
          rw [layout.takes_cons_iff member heads parsed unseen, ← ih]
          rfl

/-- A record is read from an object exactly if each of its slots holds the value that the object gives
for it, once, or else what the blank record holds there, if slots may be left out. -/
theorem read_iff {members : List (String × List Char)} {text : String}
    (object : IsObject members text.toList) (record : α) :
    shape.read text = .ok record ↔ ∀ slot ∈ layout.slots, ∃ value : Option slot.format.Value,
      Given slot.format.Form slot.name members value ∧
        slot.get record = value.getD (slot.get shape.blank) ∧
        (shape.complete = true → value.isSome) := by
  obtain ⟨heads, headed, read⟩ := Shape.exists_read_object layout.flat object
  rw [read, layout.absorb_iff headed]
  simp [Slot.Takes]

/-- An object is refused that gives a slot twice or, if none may be left out, does not give it. -/
theorem exists_refusal {members : List (String × List Char)} {text : String}
    (object : IsObject members text.toList) {name : String} (known : name ∈ layout.slots.map Slot.name)
    (wrong : 1 < (valuesOf name members).length ∨
      shape.complete = true ∧ (valuesOf name members).length = 0) :
    ∃ malformed, shape.read text = .error malformed := by
  obtain ⟨slot, member, rfl⟩ := List.mem_map.mp known
  cases read : shape.read text with
  | error malformed => exact ⟨malformed, rfl⟩
  | ok record =>
    obtain ⟨value, given, -, whole⟩ := (layout.read_iff object record).mp read slot member
    rw [given.length_eq] at wrong
    rcases wrong with twice | ⟨must, none⟩
    · cases value <;> simp at twice
    · have given := whole must
      cases value
      · cases given
      · cases none

end Layout

end Spillway.Json
