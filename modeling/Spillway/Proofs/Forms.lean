import Spillway.Proofs.Records
import Spillway.Request
import Spillway.Settings
/-!
The JSON forms of settings and of index entries. What is written is read back, and an object is read
however its members stand: settings are the standard ones overwritten by what the object gives, an
entry is all that it gives, and members of other names may stand anywhere and hold anything.
-/

namespace Spillway

open Json (Given IsText IsTruth IsNatural IsObject IsValue Format Layout Slot valuesOf)

/-! ## Settings -/

namespace Settings

/-- The settings that hold where members give some of them, each at most once, in any order and among
members of any other names: what they give, and otherwise the standard. -/
def GivenBy (members : List (String × List Char)) (settings : Settings) : Prop :=
  ∃ name slices sync,
    Given IsText "thread_name" members name ∧
    Given (fun n cs => n < Word.span ∧ IsNatural n cs) "max_io_slices" members slices ∧
    Given IsTruth "sync_on_spill" members sync ∧
    settings = ⟨name.getD standard.threadName, slices.getD standard.maxSlices,
      sync.getD standard.syncEach⟩

/-- The slots of settings. -/
def layout : Layout shape where
  slots := [
    ⟨"thread_name", .text, threadName, fun name s => { s with threadName := name }, fun _ _ => rfl⟩,
    ⟨"max_io_slices", .word, maxSlices, fun n s => { s with maxSlices := n }, fun _ _ => rfl⟩,
    ⟨"sync_on_spill", .truth, syncEach, fun b s => { s with syncEach := b }, fun _ _ => rfl⟩]
  fields := rfl
  names := by decide
  get_set_other := by
    intro slot member other known differ value record
    simp only [List.mem_cons, List.not_mem_nil, or_false] at member known
    rcases member with rfl | rfl | rfl <;> rcases known with rfl | rfl | rfl <;>
      first | rfl | exact absurd rfl differ
  ext record final same := by
    simp only [List.forall_mem_cons] at same
    obtain ⟨name, slices, sync, -⟩ := same
    cases record
    cases final
    cases name
    cases slices
    cases sync
    rfl

theorem ofJson_iff {members : List (String × List Char)} {text : String}
    (object : IsObject members text.toList) (settings : Settings) :
    ofJson text = .ok settings ↔ settings.GivenBy members := by
  rw [ofJson, layout.read_iff object]
  simp only [layout, List.forall_mem_cons]
  constructor
  · rintro ⟨⟨name, givenName, sameName, -⟩, ⟨slices, givenSlices, sameSlices, -⟩,
      ⟨sync, givenSync, sameSync, -⟩, -⟩
    refine ⟨name, slices, sync, givenName, givenSlices, givenSync, ?_⟩
    cases settings
    cases sameName
    cases sameSlices
    cases sameSync
    rfl
  · rintro ⟨name, slices, sync, givenName, givenSlices, givenSync, rfl⟩
    exact ⟨⟨name, givenName, rfl, Bool.noConfusion⟩, ⟨slices, givenSlices, rfl, Bool.noConfusion⟩,
      ⟨sync, givenSync, rfl, Bool.noConfusion⟩, fun _ none => by cases none⟩

/-- Blanks, a stranger and an escape in a name make no difference. -/
example : ofJson " \x7b \"x\" : [1, \x7b\x7d], \"sync\\u005fon_spill\" :true\x7d" =
    .ok { standard with syncEach := true } := rfl

theorem ofJson_toJson {settings : Settings} (fits : settings.maxSlices < Word.span) :
    ofJson settings.toJson = .ok settings := by
  have name := Json.isText_quote settings.threadName
  have slices := Json.isNatural_number settings.maxSlices
  have sync := Json.isTruth_bool settings.syncEach
  have object := Json.isObject_object [("thread_name", Json.quote settings.threadName),
    ("max_io_slices", Json.number settings.maxSlices), ("sync_on_spill", Json.bool settings.syncEach)]
    (by simp [name.isValue, slices.isValue, sync.isValue])
  exact (ofJson_iff object settings).mpr ⟨some settings.threadName, some settings.maxSlices,
    some settings.syncEach, ⟨_, by simp [valuesOf], name⟩, ⟨_, by simp [valuesOf], fits, slices⟩,
    ⟨_, by simp [valuesOf], sync⟩, rfl⟩

end Settings

/-! ## Index entries -/

namespace Entry

/-- The entry that members give, each part of it once, in any order and among members of any other
names. -/
def GivenBy (members : List (String × List Char)) (entry : Entry) : Prop :=
  Given (fun (n : UInt32) cs => IsNatural n.toNat cs) "subpartition_id" members
      (some entry.subpartition) ∧
    Given (fun (n : UInt32) cs => IsNatural n.toNat cs) "buffer_index" members (some entry.index) ∧
    Given (fun n cs => n < Word.span ∧ IsNatural n cs) "file_offset" members (some entry.offset)

/-- The slots of an entry. -/
def layout : Layout shape where
  slots := [
    ⟨"subpartition_id", .uint32, subpartition, fun n e => { e with subpartition := n },
      fun _ _ => rfl⟩,
    ⟨"buffer_index", .uint32, index, fun n e => { e with index := n }, fun _ _ => rfl⟩,
    ⟨"file_offset", .word, offset, fun n e => { e with offset := n }, fun _ _ => rfl⟩]
  fields := by
    have split : ∀ (found : Except Json.Malformed Nat) (put : UInt32 → Entry),
        found.map (fun n => put (UInt32.ofNat n)) = (found.map UInt32.ofNat).map put := by
      intro found put
      cases found <;> rfl
    simp only [shape, List.map_cons, List.map_nil, Slot.field, Format.uint32, Format.word, ← split]
  names := by decide
  get_set_other := by
    intro slot member other known differ value record
    simp only [List.mem_cons, List.not_mem_nil, or_false] at member known
    rcases member with rfl | rfl | rfl <;> rcases known with rfl | rfl | rfl <;>
      first | rfl | exact absurd rfl differ
  ext record final same := by
    simp only [List.forall_mem_cons] at same
    obtain ⟨subpartition, index, offset, -⟩ := same
    cases record
    cases final
    cases subpartition
    cases index
    cases offset
    rfl

theorem ofJson_iff {members : List (String × List Char)} {text : String}
    (object : IsObject members text.toList) (entry : Entry) :
    ofJson text = .ok entry ↔ entry.GivenBy members := by
  rw [ofJson, layout.read_iff object]
  simp only [layout, List.forall_mem_cons]
  constructor
  · rintro ⟨⟨subpartition, givenSubpartition, sameSubpartition, someSubpartition⟩,
      ⟨index, givenIndex, sameIndex, someIndex⟩, ⟨offset, givenOffset, sameOffset, someOffset⟩, -⟩
    obtain ⟨subpartition, rfl⟩ := Option.isSome_iff_exists.mp (someSubpartition rfl)
    obtain ⟨index, rfl⟩ := Option.isSome_iff_exists.mp (someIndex rfl)
    obtain ⟨offset, rfl⟩ := Option.isSome_iff_exists.mp (someOffset rfl)
    cases entry
    cases sameSubpartition
    cases sameIndex
    cases sameOffset
    exact ⟨givenSubpartition, givenIndex, givenOffset⟩
  · rintro ⟨givenSubpartition, givenIndex, givenOffset⟩
    exact ⟨⟨_, givenSubpartition, rfl, fun _ => rfl⟩, ⟨_, givenIndex, rfl, fun _ => rfl⟩,
      ⟨_, givenOffset, rfl, fun _ => rfl⟩, fun _ none => by cases none⟩

theorem ofJson_toJson {entry : Entry} (fits : entry.offset < Word.span) :
    ofJson entry.toJson = .ok entry := by
  have subpartition := Json.isNatural_number entry.subpartition.toNat
  have index := Json.isNatural_number entry.index.toNat
  have offset := Json.isNatural_number entry.offset
  have object := Json.isObject_object [("subpartition_id", Json.number entry.subpartition.toNat),
    ("buffer_index", Json.number entry.index.toNat), ("file_offset", Json.number entry.offset)]
    (by simp [subpartition.isValue, index.isValue, offset.isValue])
  exact (ofJson_iff object entry).mpr ⟨⟨_, by simp [valuesOf], subpartition⟩,
    ⟨_, by simp [valuesOf], index⟩, ⟨_, by simp [valuesOf], fits, offset⟩⟩

end Entry

/-! ## Both -/

/-- Entries and settings survive their JSON forms. From any object, settings are read as what its
members give and otherwise the standard, and an entry as what they give, whatever members of other
names stand among them; where a known name is repeated, or one of an entry is lacking, nothing is
read. -/
theorem json_forms_survive :
    (∀ entry : Entry, entry.offset < Word.span → Entry.ofJson entry.toJson = .ok entry) ∧
    (∀ settings : Settings, settings.maxSlices < Word.span →
      Settings.ofJson settings.toJson = .ok settings) ∧
    ∀ (members : List (String × List Char)) (text : String), IsObject members text.toList →
      (∀ settings, Settings.ofJson text = .ok settings ↔ settings.GivenBy members) ∧
      (∀ name ∈ ["thread_name", "max_io_slices", "sync_on_spill"],
        1 < (valuesOf name members).length → ∃ malformed, Settings.ofJson text = .error malformed) ∧
      (∀ entry, Entry.ofJson text = .ok entry ↔ entry.GivenBy members) ∧
      ∀ name ∈ ["subpartition_id", "buffer_index", "file_offset"],
        (valuesOf name members).length ≠ 1 → ∃ malformed, Entry.ofJson text = .error malformed := by
  refine ⟨fun _ => Entry.ofJson_toJson, fun _ => Settings.ofJson_toJson, fun members text object => ?_⟩
  refine ⟨Settings.ofJson_iff object, fun name known twice => ?_, Entry.ofJson_iff object,
    fun name known wrong => ?_⟩
  · exact Settings.layout.exists_refusal object known (.inl twice)
  · refine Entry.layout.exists_refusal object known ?_
    rcases Nat.lt_or_gt_of_ne wrong with never | twice
    · exact .inr ⟨rfl, Nat.lt_one_iff.mp never⟩
    · exact .inl twice

theorem a_stranger_is_passed_over_and_a_repeat_refused :
    Entry.ofJson (Entry.toJson ⟨0xffffffff, 1, 0xffffffffffffffff⟩) =
      .ok ⟨0xffffffff, 1, 0xffffffffffffffff⟩ ∧
    Settings.ofJson (Settings.toJson ⟨"\"\\\n", 0xffffffffffffffff, true⟩) =
      .ok ⟨"\"\\\n", 0xffffffffffffffff, true⟩ ∧
    Settings.ofJson (Json.object [("x", "[1,\x7b\x7d]"), ("sync_on_spill", "true")]) =
      .ok ⟨"spill-writer", 1024, true⟩ ∧
    ∃ malformed, Settings.ofJson (Json.object [("sync_on_spill", "true"), ("sync_on_spill", "true")]) =
      .error malformed := by
  obtain ⟨entry, settings, objects⟩ := json_forms_survive
  have truth : IsValue ['t', 'r', 'u', 'e'] := Json.IsTruth.isValue (b := true) rfl
  have one : IsValue ['1'] := Json.IsNatural.isValue (n := 1) rfl
  have list : IsValue ['[', '1', ',', '\x7b', '\x7d', ']'] :=
    .list (.elements (.padded Json.blanks_nil one Json.blanks_nil)
      (.element (.padded Json.blanks_nil (.emptyObject Json.blanks_nil) Json.blanks_nil)))
  refine ⟨entry _ (by decide), settings _ (by decide), ?_, ?_⟩
  · have object := Json.isObject_object [("x", "[1,\x7b\x7d]"), ("sync_on_spill", "true")]
      (by simp [list, truth])
    exact ((objects _ _ object).1 _).mpr ⟨none, none, some true, rfl, rfl, ⟨_, rfl, rfl⟩, rfl⟩
  · have object := Json.isObject_object [("sync_on_spill", "true"), ("sync_on_spill", "true")]
      (by simp [truth])
    exact (objects _ _ object).2.1 "sync_on_spill" (by decide) (by decide)

end Spillway
