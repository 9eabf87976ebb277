import Mathlib.Data.List.Perm.Basic
import Spillway.Proofs.Answers
import Spillway.Proofs.Framing
import Spillway.Plan
/-!
Buffers outside of spoolers. Whoever holds a buffer may look at it, mark it, frame it, put it into a
request, and at last recycle it or drop it. Its segment sits in a hull, from which it is taken before it
is given back: so recycling, at the end of which the hull is dropped, gives it back once, and no more when
there is a crash over that. `Custody` is what is held, with an account of what was made and what is gone
on which nothing depends. One deed keeps the account right, `Custody.Sound.act`, and so do any number of
them.
-/

namespace Spillway

variable {σ π ω : Type}

/-! ## Hulls -/

/-- How things stand after a crash. -/
inductive Fate where
  /-- There was none, or it was caught. -/
  | calm
  /-- It is on its way out, and what it passes is dropped. -/
  | unwinding
  /-- Another came on the way, which ended the program. -/
  | aborted
  deriving Repr, DecidableEq

namespace Fate

/-- How things stand after a call that may have crashed. -/
def after (fate : Fate) (crashed : Bool) : Fate :=
  match crashed, fate with
  | false, fate => fate
  | true, .calm => .unwinding
  | true, _ => .aborted

/-- The crashes that are on their way. -/
def crashes : Fate → Nat
  | .calm => 0
  | .unwinding => 1
  | .aborted => 2

end Fate

/-- A buffer as its holder has it. There is no segment in it once that has gone back. -/
structure Hull where
  segment? : Option Segment
  owner : Owner
  kind : Kind
  size : Nat
  compressed : Bool
  deriving Repr

namespace Hull

def ofBuffer (buffer : Buffer) : Hull :=
  ⟨some buffer.segment, buffer.owner, buffer.kind, buffer.size, buffer.compressed⟩

/-- The payload, unless it would have to be cut out of a segment that is shorter. -/
def readable? (hull : Hull) : Option Extent :=
  match hull.segment? with
  | none => some .empty
  | some segment =>
    if hull.size ≤ segment.capacity then some (segment.bytes.take hull.size) else none

/-- The frame, if there is a payload to be had. -/
def encode? (hull : Hull) : Option (Except FrameError Frame) :=
  if Header.maxLength < hull.size then some (.error (.lengthOverflow hull.size))
  else hull.readable?.map fun payload => .ok ⟨⟨hull.kind, hull.compressed, hull.size⟩, payload⟩

/-- Writes the frame to an output, the header and then the payload. -/
def write? (sink : Sink ω) (hull : Hull) (output : ω) : Option (Except FrameError Nat × ω) :=
  hull.encode?.map fun
    | .error error => (.error error, output)
    | .ok frame =>
      match sink.writeAll (.ofList frame.header.toBytes) output with
      | (.error cause, after) => (.error (.io cause), after)
      | (.ok (), headed) =>
        match sink.writeAll frame.payload headed with
        | (.error cause, after) => (.error (.io cause), after)
        | (.ok (), after) => (.ok frame.size, after)

/-- Takes the segment out, if it is there, and then gives it back. Says whether that crashed. -/
def release (pool : Pool π) (hull : Hull) (stage : Stage σ π) : Bool × Hull × Stage σ π :=
  match hull.segment? with
  | none => (false, hull, stage)
  | some segment =>
    let done := pool.giveBack hull.owner segment stage
    (done.1, { hull with segment? := none }, done.2)

/-- The end of a hull, in any case. -/
def drop (pool : Pool π) (hull : Hull) (fate : Fate) (stage : Stage σ π) : Fate × Stage σ π :=
  let released := hull.release pool stage
  (fate.after released.1, released.2.2)

/-- Releases the segment. With or without a crash over this, the hull is dropped afterwards. -/
def recycle (pool : Pool π) (hull : Hull) (fate : Fate) (stage : Stage σ π) : Fate × Stage σ π :=
  let released := hull.release pool stage
  let fate := fate.after released.1
  if fate = .aborted then (fate, released.2.2) else released.2.1.drop pool fate released.2.2

end Hull

/-! ## What is held -/

/-- A hull under the number of the buffer that was made in it. -/
structure Piece where
  number : Nat
  hull : Hull
  deriving Repr

/-- Something that is held: a buffer, a buffer with the coordinates it will be looked up by, or a request,
which is made by adding one of these after the other. -/
inductive Holding where
  | loose (piece : Piece)
  | item (piece : Piece)
  | request (pieces : List Piece)
  deriving Repr

/-- The buffers in a holding, in their order. -/
def Holding.pieces : Holding → List Piece
  | .loose piece | .item piece => [piece]
  | .request pieces => pieces

namespace Holding

/-- A loose buffer, marked. -/
def mark (compressed : Bool) : Holding → Option Holding
  | loose ⟨number, hull⟩ => some (loose ⟨number, { hull with compressed := compressed }⟩)
  | _ => none

/-- A loose buffer with coordinates. -/
def wrap : Holding → Option Holding
  | loose piece => some (item piece)
  | _ => none

/-- An item without its coordinates. -/
def unwrap : Holding → Option Holding
  | item piece => some (loose piece)
  | _ => none

end Holding

/-- How far the dropping of some buffers came: those that are gone, those that are left when it ends the
program, and how things stand. -/
structure Drops (σ π : Type) where
  gone : List Piece
  left : List Piece
  fate : Fate
  stage : Stage σ π

/-- Drops buffers in their order. A crash over one of them drops the others on its way. -/
def dropAll (pool : Pool π) : List Piece → Fate → Stage σ π → Drops σ π
  | [], fate, stage => ⟨[], [], fate, stage⟩
  | piece :: rest, fate, stage =>
    let dropped := piece.hull.drop pool fate stage
    if dropped.1 = .aborted then ⟨[piece], rest, dropped.1, dropped.2⟩
    else
      let later := dropAll pool rest dropped.1 dropped.2
      { later with gone := piece :: later.gone }

/-- What a holder does. Holdings and buffers are told by their places, and what has been dealt with comes
first afterwards. -/
inductive Deed where
  /-- Makes a buffer of a segment, which may be refused. -/
  | make (segment : Segment) (owner : Owner) (kind : Kind) (size : Nat)
  /-- Marks a loose buffer. -/
  | mark (place : Nat) (compressed : Bool)
  /-- Reads, frames or writes any buffer that is held. -/
  | look (place : Nat)
  | encode (place : Nat)
  | write (place : Nat)
  /-- Turns a loose buffer into an item, and back. -/
  | wrap (place : Nat)
  | unwrap (place : Nat)
  /-- Begins a request, and moves an item to the end of a request, whose place is that among the others. -/
  | gather
  | push (place request : Nat)
  /-- Lets go of a loose buffer, or of anything. -/
  | recycle (place : Nat)
  | drop (place : Nat)
  /-- Catches a crash. -/
  | recover
  deriving Repr

/-- What is held, an output, and the stage on which segments go back. -/
structure Custody (σ π ω : Type) where
  holdings : List Holding
  fate : Fate
  /-- A payload was to be cut out of a segment that is shorter. -/
  overrun : Bool
  output : ω
  stage : Stage σ π
  /-- The buffers that were made, each as it was made. -/
  made : List Buffer
  /-- The numbers of those that were let go, in this order. -/
  gone : List Nat

namespace Custody

def start (output : ω) (stage : Stage σ π) : Custody σ π ω := ⟨[], .calm, false, output, stage, [], []⟩

/-- The buffers that are held. -/
def pieces (c : Custody σ π ω) : List Piece := c.holdings.flatMap Holding.pieces

/-- Other holdings instead of the one at a place. -/
def replace (c : Custody σ π ω) (place : Nat) (holdings : List Holding) : Custody σ π ω :=
  { c with holdings := holdings ++ c.holdings.eraseIdx place }

/-- Deals with what is held at a place, if this can be done with it. -/
def alter (c : Custody σ π ω) (place : Nat) (change : Holding → Option Holding) : Custody σ π ω :=
  match c.holdings[place]?.bind change with
  | none => c
  | some other => c.replace place [other]

/-- Looks into any buffer that is held, and says what the output is then, if there is a payload to be
had. -/
def view (c : Custody σ π ω) (place : Nat) (look : Hull → Option ω) : Custody σ π ω :=
  match c.pieces[place]? with
  | none => c
  | some piece =>
    match look piece.hull with
    | none => { c with overrun := true }
    | some output => { c with output := output }

/-- What a deed does. Those that do not fit what is held do nothing. -/
def act (pool : Pool π) (sink : Sink ω) (c : Custody σ π ω) : Deed → Custody σ π ω
  | .make segment owner kind size =>
    match Buffer.ofSegment segment owner kind size with
    | .error _ => c
    | .ok buffer =>
      { c with
        holdings := .loose ⟨c.made.length, .ofBuffer buffer⟩ :: c.holdings
        made := c.made ++ [buffer] }
  | .mark place compressed => c.alter place (Holding.mark compressed)
  | .look place => c.view place fun hull => hull.readable?.map fun _ => c.output
  | .encode place => c.view place fun hull => hull.encode?.map fun _ => c.output
  | .write place => c.view place fun hull => (hull.write? sink c.output).map Prod.snd
  | .wrap place => c.alter place Holding.wrap
  | .unwrap place => c.alter place Holding.unwrap
  | .gather => { c with holdings := .request [] :: c.holdings }
  | .push place request =>
    match c.holdings[place]?, (c.holdings.eraseIdx place)[request]? with
    | some (.item piece), some (.request pieces) =>
      (c.replace place []).replace request [.request (pieces ++ [piece])]
    | _, _ => c
  | .recycle place =>
    match c.holdings[place]? with
    | some (.loose piece) =>
      let done := piece.hull.recycle pool c.fate c.stage
      { c.replace place [] with
        fate := done.1
        stage := done.2
        gone := c.gone ++ [piece.number] }
    | _ => c
  | .drop place =>
    match c.holdings[place]? with
    | some holding =>
      let drops := dropAll pool holding.pieces c.fate c.stage
      { c.replace place (drops.left.map .loose) with
        fate := drops.fate
        stage := drops.stage
        gone := c.gone ++ drops.gone.map Piece.number }
    | none => c
  | .recover => { c with fate := .calm }

/-- A deed, as long as the program has not ended. -/
def handle (pool : Pool π) (sink : Sink ω) (c : Custody σ π ω) (deed : Deed) : Custody σ π ω :=
  if c.fate = .aborted then c else c.act pool sink deed

def handleAll (pool : Pool π) (sink : Sink ω) (deeds : List Deed) (c : Custody σ π ω) :
    Custody σ π ω :=
  deeds.foldl (handle pool sink) c

end Custody

/-- The buffer that a deed makes, if it makes one. -/
def Deed.makes : Deed → List Buffer
  | .make segment owner kind size => (Buffer.ofSegment segment owner kind size).toOption.toList
  | _ => []

/-- The buffers that a deed is to let go. -/
def Deed.drops (c : Custody σ π ω) : Deed → List Piece
  | .recycle place =>
    match c.holdings[place]? with
    | some (.loose piece) => [piece]
    | _ => []
  | .drop place => (c.holdings[place]?.map Holding.pieces).getD []
  | _ => []

/-! ## Hulls of buffers -/

/-- A buffer that is marked, or no longer is. -/
def Buffer.mark (buffer : Buffer) (compressed : Bool) : Buffer := { buffer with compressed := compressed }

namespace Hull

variable (buffer : Buffer)

@[simp] theorem readable?_ofBuffer : (ofBuffer buffer).readable? = some buffer.readable :=
  if_pos buffer.size_le

@[simp] theorem encode?_ofBuffer : (ofBuffer buffer).encode? = some buffer.encode := by
  rw [encode?, readable?_ofBuffer, Buffer.encode, Buffer.header]
  by_cases long : Header.maxLength < buffer.size
  · rw [if_pos long, if_pos (show Header.maxLength < (ofBuffer buffer).size from long)]
    rfl
  · rw [if_neg long, if_neg (show ¬ Header.maxLength < (ofBuffer buffer).size from long)]
    rfl

@[simp] theorem write?_ofBuffer (sink : Sink ω) (output : ω) :
    (ofBuffer buffer).write? sink output = some (sink.writeFrame buffer output) := by
  unfold write? Sink.writeFrame
  rw [encode?_ofBuffer]
  cases buffer.encode <;> rfl

theorem drop_ofBuffer (pool : Pool π) (fate : Fate) (stage : Stage σ π) :
    (ofBuffer buffer).drop pool fate stage =
      (fate.after (pool.release buffer stage).1, (pool.release buffer stage).2) := rfl

/-- The drop at the end of recycling finds no segment, so recycling comes to the same as dropping. -/
theorem recycle_ofBuffer (pool : Pool π) (fate : Fate) (stage : Stage σ π) :
    (ofBuffer buffer).recycle pool fate stage = (ofBuffer buffer).drop pool fate stage := by
  rw [drop_ofBuffer]
  exact ite_self _

end Hull

namespace Pool

variable (pool : Pool π) (buffer : Buffer) (stage : Stage σ π)

theorem handovers_release :
    handovers (pool.release buffer stage).2.journal = handovers stage.journal ++ [buffer.handover] := by
  rw [journal_release]
  split <;> rfl

theorem crashes_release (fate : Fate) (going : fate ≠ .aborted) :
    stage.crashes + (fate.after (pool.release buffer stage).1).crashes =
      (pool.release buffer stage).2.crashes + fate.crashes := by
  have quiet : (Event.released buffer.owner buffer.segment stage.file :: stage.journal).countP
      Event.isCrash = stage.journal.countP Event.isCrash :=
    List.countP_cons_of_neg (by simp [Event.isCrash])
  have one : [(Event.crashed : Event σ)].countP Event.isCrash = 1 := rfl
  simp only [Stage.crashes, journal_release, List.countP_append, quiet]
  cases (pool.release buffer stage).1 with
  | false => simp [Fate.after]
  | true =>
    simp only [if_true, one]
    cases fate with
    | calm =>
      simp only [Fate.after, Fate.crashes]
      omega
    | unwinding =>
      simp only [Fate.after, Fate.crashes]
      omega
    | aborted => exact absurd rfl going

end Pool

/-! ## One deed -/

/-- The hull is that of the buffer that was made under its number, up to the mark. -/
def Piece.Holds (made : List Buffer) (piece : Piece) : Prop :=
  ∃ buffer, made[piece.number]? = some buffer ∧
    piece.hull = .ofBuffer (buffer.mark piece.hull.compressed)

/-- What goes back when the buffer of a number is let go. -/
def handoverOf (made : List Buffer) (number : Nat) : Option (Owner × Segment) :=
  made[number]?.map Buffer.handover

/-- Buffers were dropped in their order, all of them unless this ended the program. Each has gone back, and
what crashed was over one of them. -/
structure Drops.Accounted (pool : Pool π) (made : List Buffer) (pieces : List Piece) (fate : Fate)
    (before : Stage σ π) (drops : Drops σ π) : Prop where
  order : pieces = drops.gone ++ drops.left
  ended : drops.fate ≠ .aborted → drops.left = []
  stage : drops.fate ≠ .aborted → ∃ buffers, pieces.map Piece.hull = buffers.map Hull.ofBuffer ∧
    drops.stage = (pool.releaseAll buffers before).2
  handed : (handovers drops.stage.journal).map some = (handovers before.journal).map some ++
    (drops.gone.map Piece.number).map (handoverOf made)
  crashes : before.crashes + drops.fate.crashes = drops.stage.crashes + fate.crashes

theorem accounted_dropAll (pool : Pool π) {made : List Buffer} {pieces : List Piece}
    (held : ∀ piece ∈ pieces, piece.Holds made) {fate : Fate} (going : fate ≠ .aborted)
    (stage : Stage σ π) : (dropAll pool pieces fate stage).Accounted pool made pieces fate stage := by
  induction pieces generalizing fate stage with
  | nil => exact ⟨rfl, fun _ => rfl, fun _ => ⟨[], rfl, rfl⟩, (List.append_nil _).symm, rfl⟩
  | cons piece rest ih =>
    obtain ⟨buffer, found, same⟩ := held piece List.mem_cons_self
    let marked := buffer.mark piece.hull.compressed
    have dropped : piece.hull.drop pool fate stage =
        (fate.after (pool.release marked stage).1, (pool.release marked stage).2) := by
      rw [same]
      exact Hull.drop_ofBuffer marked pool fate stage
    have handed : (handovers (pool.release marked stage).2.journal).map some =
        (handovers stage.journal).map some ++ [handoverOf made piece.number] := by
      rw [pool.handovers_release, List.map_append, handoverOf, found]
      rfl
    have crashes := pool.crashes_release marked stage fate going
    rw [dropAll, dropped]
    simp only
    split
    · rename_i ends
      exact ⟨rfl, fun goes => absurd ends goes, fun goes => absurd ends goes, handed, crashes⟩
    · rename_i goes
      have later := ih (fun other member => held other (List.mem_cons_of_mem _ member)) goes
        (pool.release marked stage).2
      refine ⟨congrArg (piece :: ·) later.order, later.ended, fun goes => ?_, ?_, ?_⟩
      · obtain ⟨buffers, hulls, after⟩ := later.stage goes
        exact ⟨marked :: buffers, congrArg₂ List.cons same hulls, after⟩
      · rw [later.handed, handed, List.append_assoc]
        rfl
      · have more := later.crashes
        dsimp only
        omega

namespace Piece.Holds

variable {made : List Buffer} {piece : Piece}

theorem lt (holds : piece.Holds made) : piece.number < made.length := by
  obtain ⟨buffer, found, -⟩ := holds
  exact (List.getElem?_eq_some_iff.mp found).1

theorem append (holds : piece.Holds made) (more : List Buffer) : piece.Holds (made ++ more) := by
  have inside := holds.lt
  obtain ⟨buffer, found, same⟩ := holds
  exact ⟨buffer, by rwa [List.getElem?_append_left inside], same⟩

theorem mark (holds : piece.Holds made) (compressed : Bool) :
    Piece.Holds made ⟨piece.number, { piece.hull with compressed := compressed }⟩ := by
  obtain ⟨buffer, found, same⟩ := holds
  refine ⟨buffer, found, ?_⟩
  rw [same]
  rfl

end Piece.Holds

theorem handoverOf_append {made : List Buffer} {number : Nat} (inside : number < made.length)
    (more : List Buffer) : handoverOf (made ++ more) number = handoverOf made number := by
  rw [handoverOf, handoverOf, List.getElem?_append_left inside]

namespace Custody

structure Sound (c : Custody σ π ω) : Prop where
  /-- Every buffer that was made is gone or held, once. -/
  numbers : (c.gone ++ c.pieces.map Piece.number).Perm (List.range c.made.length)
  /-- What went back is the segments of those that are gone. -/
  handed : (handovers c.stage.journal).map some = c.gone.map (handoverOf c.made)
  held : ∀ piece ∈ c.pieces, piece.Holds c.made
  overrun : c.overrun = false

/-- What comes of a deed. -/
structure Follows (pool : Pool π) (c : Custody σ π ω) (deed : Deed) (next : Custody σ π ω) : Prop where
  /-- What it makes comes behind what was made. -/
  made : next.made = c.made ++ deed.makes
  /-- What it is to let go goes back whole and in order, and nothing else does. Some of it is left only
  when the program ends. -/
  gone : ∃ gone left, deed.drops c = gone ++ left ∧
    (handovers next.stage.journal).map some =
      (handovers c.stage.journal).map some ++ (gone.map Piece.number).map (handoverOf c.made) ∧
    (next.fate ≠ .aborted → left = [])
  /-- It comes to the same as letting go of the buffers, one after the other. -/
  stage : next.fate ≠ .aborted → ∃ buffers,
    (deed.drops c).map Piece.hull = buffers.map Hull.ofBuffer ∧
      next.stage = (pool.releaseAll buffers c.stage).2
  /-- The crashes on their way are those that were, and those that came. -/
  crashes : c.stage.crashes + next.fate.crashes ≤ next.stage.crashes + c.fate.crashes

variable {c next : Custody σ π ω} {place : Nat} {holding : Holding}

theorem pieces_perm (found : c.holdings[place]? = some holding) :
    c.pieces.Perm (holding.pieces ++ (c.holdings.eraseIdx place).flatMap Holding.pieces) := by
  obtain ⟨inside, rfl⟩ := List.getElem?_eq_some_iff.mp found
  exact (List.getElem_cons_eraseIdx_perm inside).symm.flatMap_right Holding.pieces

@[simp] theorem pieces_replace (c : Custody σ π ω) (place : Nat) (others : List Holding) :
    (c.replace place others).pieces =
      others.flatMap Holding.pieces ++ (c.holdings.eraseIdx place).flatMap Holding.pieces :=
  List.flatMap_append

namespace Sound

/-- Nothing was made or let go, and what is held is held in another way. -/
theorem rearranged (sound : c.Sound) (made : next.made = c.made) (gone : next.gone = c.gone)
    (stage : next.stage = c.stage) (overrun : next.overrun = c.overrun)
    (numbers : (next.pieces.map Piece.number).Perm (c.pieces.map Piece.number))
    (held : ∀ piece ∈ next.pieces, piece.Holds c.made) : next.Sound where
  numbers := by
    rw [gone, made]
    exact (numbers.append_left c.gone).trans sound.numbers
  handed := by rw [stage, gone, made, sound.handed]
  held := by rwa [made]
  overrun := overrun.trans sound.overrun

theorem holds (sound : c.Sound) (found : c.holdings[place]? = some holding) :
    ∀ piece ∈ holding.pieces, piece.Holds c.made := fun piece member =>
  sound.held piece ((pieces_perm found).mem_iff.mpr (List.mem_append_left _ member))

theorem lt_of_gone (sound : c.Sound) {number : Nat} (gone : number ∈ c.gone) :
    number < c.made.length :=
  List.mem_range.mp (sound.numbers.mem_iff.mp (List.mem_append_left _ gone))

theorem make (sound : c.Sound) (buffer : Buffer) :
    Sound { c with
      holdings := .loose ⟨c.made.length, .ofBuffer buffer⟩ :: c.holdings
      made := c.made ++ [buffer] } where
  numbers := by
    show (c.gone ++ c.made.length :: c.pieces.map Piece.number).Perm
      (List.range (c.made ++ [buffer]).length)
    rw [List.length_append, List.length_singleton, List.range_succ]
    exact List.perm_middle.trans ((sound.numbers.cons _).trans (List.perm_append_singleton _ _).symm)
  handed := by
    rw [sound.handed]
    exact List.map_congr_left fun number gone =>
      (handoverOf_append (sound.lt_of_gone gone) [buffer]).symm
  held := by
    intro piece member
    rcases List.mem_cons.mp member with rfl | old
    · exact ⟨buffer, List.getElem?_concat_length, rfl⟩
    · exact (sound.held piece old).append [buffer]
  overrun := sound.overrun

theorem drop (sound : c.Sound) (found : c.holdings[place]? = some holding) {drops : Drops σ π}
    {pool : Pool π}
    (accounted : drops.Accounted pool c.made holding.pieces c.fate c.stage) :
    Sound { c.replace place (drops.left.map .loose) with
      fate := drops.fate
      stage := drops.stage
      gone := c.gone ++ drops.gone.map Piece.number } := by
  have left : (drops.left.map Holding.loose).flatMap Holding.pieces = drops.left := by
    rw [List.flatMap_map]
    exact List.flatMap_singleton' drops.left
  have same := pieces_perm found
  rw [accounted.order, List.append_assoc] at same
  have pieces : (c.replace place (drops.left.map .loose)).pieces =
      drops.left ++ (c.holdings.eraseIdx place).flatMap Holding.pieces := by
    rw [pieces_replace, left]
  refine ⟨?_, ?_, ?_, sound.overrun⟩
  · show (c.gone ++ drops.gone.map Piece.number ++
      (c.replace place (drops.left.map .loose)).pieces.map Piece.number).Perm _
    rw [pieces, List.append_assoc, ← List.map_append]
    exact ((same.symm.map Piece.number).append_left c.gone).trans sound.numbers
  · show (handovers drops.stage.journal).map some = _
    rw [accounted.handed, sound.handed, ← List.map_append]
    rfl
  · intro piece member
    have member : piece ∈ (c.replace place (drops.left.map .loose)).pieces := member
    rw [pieces] at member
    exact sound.held piece (same.mem_iff.mpr (List.mem_append_right _ member))

/-- Recycling a loose buffer comes to the same as dropping it. -/
theorem recycle_eq (sound : c.Sound) (pool : Pool π) (sink : Sink ω) {piece : Piece}
    (found : c.holdings[place]? = some (.loose piece)) :
    c.act pool sink (.recycle place) = c.act pool sink (.drop place) := by
  obtain ⟨buffer, -, same⟩ := sound.holds found piece List.mem_cons_self
  simp only [act, found, Holding.pieces, dropAll]
  rw [same, Hull.recycle_ofBuffer]
  split <;> rfl

end Sound

/-- Nothing was made or went back, and the account is right. -/
structure Keeps (c next : Custody σ π ω) : Prop where
  sound : next.Sound
  made : next.made = c.made
  stage : next.stage = c.stage
  fate : next.fate.crashes ≤ c.fate.crashes

namespace Sound

theorem keeps (sound : c.Sound) : c.Keeps c := ⟨sound, rfl, rfl, Nat.le_refl _⟩

theorem keeps_alter (sound : c.Sound) (place : Nat) {change : Holding → Option Holding}
    (same : ∀ holding other, change holding = some other →
      other.pieces.map Piece.number = holding.pieces.map Piece.number ∧
        ((∀ piece ∈ holding.pieces, piece.Holds c.made) →
          ∀ piece ∈ other.pieces, piece.Holds c.made)) :
    c.Keeps (c.alter place change) := by
  unfold alter
  cases changed : c.holdings[place]?.bind change with
  | none => exact sound.keeps
  | some other =>
    obtain ⟨holding, found, changed⟩ := Option.bind_eq_some_iff.mp changed
    obtain ⟨numbers, held⟩ := same holding other changed
    have before := pieces_perm found
    have after : (c.replace place [other]).pieces =
        other.pieces ++ (c.holdings.eraseIdx place).flatMap Holding.pieces := by
      rw [pieces_replace, List.flatMap_singleton]
    refine ⟨sound.rearranged rfl rfl rfl rfl ?_ fun piece member => ?_, rfl, rfl, Nat.le_refl _⟩
    · rw [after, List.map_append, numbers, ← List.map_append]
      exact (before.map Piece.number).symm
    · rw [after] at member
      rcases List.mem_append.mp member with new | old
      · exact held (sound.holds found) piece new
      · exact sound.held piece (before.mem_iff.mpr (List.mem_append_right _ old))

theorem keeps_view (sound : c.Sound) (place : Nat) {look : Hull → Option ω}
    (sees : ∀ buffer, ∃ output, look (.ofBuffer buffer) = some output) :
    c.Keeps (c.view place look) := by
  unfold view
  cases found : c.pieces[place]? with
  | none => exact sound.keeps
  | some piece =>
    obtain ⟨buffer, -, same⟩ := sound.held piece (List.mem_of_getElem? found)
    obtain ⟨output, seen⟩ := sees (buffer.mark piece.hull.compressed)
    simp only [same.symm ▸ seen]
    exact ⟨sound.rearranged rfl rfl rfl rfl (.refl _) sound.held, rfl, rfl, Nat.le_refl _⟩

/-- An item is moved to the end of a request. -/
theorem keeps_push (sound : c.Sound) {request : Nat} {piece : Piece} {pieces : List Piece}
    (item : c.holdings[place]? = some (.item piece))
    (found : (c.holdings.eraseIdx place)[request]? = some (.request pieces)) :
    c.Keeps ((c.replace place []).replace request [.request (pieces ++ [piece])]) := by
  have first := pieces_perm item
  have second : (c.replace place []).pieces.Perm _ := pieces_perm found
  have rest : (c.replace place []).pieces = (c.holdings.eraseIdx place).flatMap Holding.pieces :=
    pieces_replace c place []
  have all : ((c.replace place []).replace request [.request (pieces ++ [piece])]).pieces.Perm
      c.pieces := by
    rw [rest] at second
    refine List.Perm.trans ?_ (first.trans (second.append_left [piece])).symm
    rw [pieces_replace, List.flatMap_singleton, ← List.append_assoc]
    exact List.perm_append_comm.append_right _
  refine ⟨sound.rearranged rfl rfl rfl rfl (all.map Piece.number) fun other member => ?_, rfl, rfl,
    Nat.le_refl _⟩
  exact sound.held other (all.mem_iff.mp member)

end Sound

theorem Keeps.follows {pool : Pool π} {deed : Deed} (keeps : c.Keeps next) (makes : deed.makes = [])
    (drops : deed.drops c = []) : next.Sound ∧ Follows pool c deed next := by
  obtain ⟨sound, made, stage, fate⟩ := keeps
  refine ⟨sound, by rw [makes, made, List.append_nil], ⟨[], [], drops, ?_, fun _ => rfl⟩,
    fun _ => ⟨[], by rw [drops]; rfl, stage⟩, ?_⟩
  · rw [stage]
    exact (List.append_nil _).symm
  · rw [stage]
    exact Nat.add_le_add_left fate _

namespace Sound

variable (pool : Pool π) (sink : Sink ω)

theorem act_drop (sound : c.Sound) (going : c.fate ≠ .aborted) (place : Nat) :
    (c.act pool sink (.drop place)).Sound ∧
      Follows pool c (.drop place) (c.act pool sink (.drop place)) := by
  cases found : c.holdings[place]? with
  | none =>
    simp only [Custody.act, found]
    exact sound.keeps.follows rfl (by simp only [Deed.drops, found]; rfl)
  | some holding =>
    have accounted := accounted_dropAll pool (sound.holds found) going c.stage
    have drops : (Deed.drop place).drops c = holding.pieces := by
      simp only [Deed.drops, found]
      rfl
    simp only [Custody.act, found]
    have gone := drops.trans accounted.order
    refine ⟨sound.drop found accounted, (List.append_nil _).symm,
      ⟨_, _, gone, accounted.handed, accounted.ended⟩, ?_, Nat.le_of_eq accounted.crashes⟩
    rw [drops]
    exact accounted.stage

theorem act_recycle (sound : c.Sound) (going : c.fate ≠ .aborted) (place : Nat) :
    (c.act pool sink (.recycle place)).Sound ∧
      Follows pool c (.recycle place) (c.act pool sink (.recycle place)) := by
  by_cases loose : ∃ piece, c.holdings[place]? = some (.loose piece)
  · obtain ⟨piece, found⟩ := loose
    have same : (Deed.recycle place).drops c = (Deed.drop place).drops c := by
      simp only [Deed.drops, found]
      rfl
    rw [sound.recycle_eq pool sink found]
    obtain ⟨sound, made, gone, stage, crashes⟩ := sound.act_drop pool sink going place
    rw [← same] at gone stage
    exact ⟨sound, made, gone, stage, crashes⟩
  · have idle : c.act pool sink (.recycle place) = c ∧ (Deed.recycle place).drops c = [] := by
      simp only [Custody.act, Deed.drops]
      constructor
      · split
        · rename_i piece found
          exact absurd ⟨piece, found⟩ loose
        · rfl
      · split
        · rename_i piece found
          exact absurd ⟨piece, found⟩ loose
        · rfl
    rw [idle.1]
    exact sound.keeps.follows rfl idle.2

theorem act_make (sound : c.Sound) (segment : Segment) (owner : Owner) (kind : Kind) (size : Nat) :
    (c.act pool sink (.make segment owner kind size)).Sound ∧
      Follows pool c (.make segment owner kind size)
        (c.act pool sink (.make segment owner kind size)) := by
  cases made : Buffer.ofSegment segment owner kind size with
  | error error =>
    simp only [Custody.act, made]
    exact sound.keeps.follows (by simp only [Deed.makes, made]; rfl) rfl
  | ok buffer =>
    simp only [Custody.act, made]
    refine ⟨sound.make buffer, ?_, ⟨[], [], rfl, (List.append_nil _).symm, fun _ => rfl⟩,
      fun _ => ⟨[], rfl, rfl⟩, Nat.le_refl _⟩
    simp only [Deed.makes, made]
    rfl

/-- The account is right after every deed, and what comes of the deed is what is to come of it. -/
theorem act (sound : c.Sound) (going : c.fate ≠ .aborted) (deed : Deed) :
    (c.act pool sink deed).Sound ∧ Follows pool c deed (c.act pool sink deed) := by
  cases deed with
  | make segment owner kind size => exact sound.act_make pool sink segment owner kind size
  | mark place compressed =>
    refine (sound.keeps_alter place fun holding other marked => ?_).follows rfl rfl
    cases holding with
    | loose piece =>
      cases marked
      refine ⟨rfl, fun held other member => ?_⟩
      obtain rfl := List.mem_singleton.mp member
      exact (held piece List.mem_cons_self).mark compressed
    | item piece | request pieces => cases marked
  | look place =>
    simp only [Custody.act]
    refine (sound.keeps_view place fun buffer => ?_).follows rfl rfl
    rw [Hull.readable?_ofBuffer]
    exact ⟨_, rfl⟩
  | encode place =>
    simp only [Custody.act]
    refine (sound.keeps_view place fun buffer => ?_).follows rfl rfl
    rw [Hull.encode?_ofBuffer]
    exact ⟨_, rfl⟩
  | write place =>
    simp only [Custody.act]
    refine (sound.keeps_view place fun buffer => ?_).follows rfl rfl
    rw [Hull.write?_ofBuffer]
    exact ⟨_, rfl⟩
  | wrap place =>
    refine (sound.keeps_alter place fun holding other wrapped => ?_).follows rfl rfl
    cases holding with
    | loose piece =>
      cases wrapped
      exact ⟨rfl, id⟩
    | item piece | request pieces => cases wrapped
  | unwrap place =>
    refine (sound.keeps_alter place fun holding other loosened => ?_).follows rfl rfl
    cases holding with
    | item piece =>
      cases loosened
      exact ⟨rfl, id⟩
    | loose piece | request pieces => cases loosened
  | gather =>
    exact Keeps.follows ⟨sound.rearranged rfl rfl rfl rfl (.refl _) sound.held, rfl, rfl,
      Nat.le_refl _⟩ rfl rfl
  | push place request =>
    simp only [Custody.act]
    split
    · rename_i item found
      exact (sound.keeps_push item found).follows rfl rfl
    · exact sound.keeps.follows rfl rfl
  | recycle place => exact sound.act_recycle pool sink going place
  | drop place => exact sound.act_drop pool sink going place
  | recover =>
    exact Keeps.follows ⟨sound.rearranged rfl rfl rfl rfl (.refl _) sound.held, rfl, rfl,
      Nat.zero_le _⟩ rfl rfl

theorem start (output : ω) (file : σ) (state : π) :
    (Custody.start output (.start file state) : Custody σ π ω).Sound :=
  ⟨.refl _, rfl, fun _ member => absurd member (List.not_mem_nil), rfl⟩

theorem handle (sound : c.Sound) (deed : Deed) : (c.handle pool sink deed).Sound := by
  unfold Custody.handle
  split
  · exact sound
  · rename_i going
    exact (sound.act pool sink going deed).1

/-- The account is right after any deeds. -/
theorem handleAll (sound : c.Sound) (deeds : List Deed) :
    (Custody.handleAll pool sink deeds c).Sound := by
  induction deeds generalizing c with
  | nil => exact sound
  | cons deed later ih => exact ih (sound.handle pool sink deed)

end Sound
end Custody

/-- A header that is encoded says how long its payload is, and is read back. -/
theorem Buffer.length_of_encode {buffer : Buffer} {frame : Frame} (encoded : buffer.encode = .ok frame) :
    frame.header.length = frame.payload.size ∧ frame.payload = buffer.readable ∧
      Header.ofBytes frame.header.toBytes = .ok frame.header := by
  by_cases short : buffer.size ≤ Header.maxLength
  · rw [Buffer.encode_of_le short] at encoded
    cases encoded
    exact ⟨buffer.size_readable.symm, rfl, Header.ofBytes_toBytes short⟩
  · simp only [Buffer.encode, Buffer.header, if_pos (Nat.lt_of_not_le short)] at encoded
    cases encoded

/-- Whatever is done with buffers outside of spoolers, and whichever of their pools crash over it: every
buffer that was made is held or gone, and those that are gone have gone back once each, with the whole of
their segments. What is held is read, framed and written as it was made, and its frame has the length
that the header says. A segment that is too short for its buffer is refused, and does not go back at all.
Only when they are recycled or dropped do buffers go back, with a request in the order of its items, and
a crash over one of them does not keep the others. -/
theorem accepted_segments_go_back_once (pool : Pool π) (sink : Sink ω) (deeds : List Deed) (output : ω)
    (file : σ) (state : π) :
    let c := Custody.handleAll pool sink deeds (.start output (.start file state))
    c.Sound ∧
    (∀ piece ∈ c.pieces, ∃ made, c.made[piece.number]? = some made ∧
      let buffer := made.mark piece.hull.compressed
      piece.hull = .ofBuffer buffer ∧
      piece.hull.readable? = some buffer.readable ∧
      buffer.readable.size = piece.hull.size ∧
      buffer.readable.toList = made.segment.bytes.toList.take piece.hull.size ∧
      piece.hull.encode? = some buffer.encode ∧
      (∀ frame, buffer.encode = .ok frame →
        frame.header.length = frame.payload.size ∧ frame.payload = buffer.readable ∧
          Header.ofBytes frame.header.toBytes = .ok frame.header) ∧
      ∀ output, piece.hull.write? sink output = some (sink.writeFrame buffer output)) ∧
    (∀ segment owner kind size, segment.capacity < size →
      c.handle pool sink (.make segment owner kind size) = c) ∧
    ∀ deed,
      let next := c.handle pool sink deed
      (c.fate = .aborted → next = c) ∧
      (c.fate ≠ .aborted → Custody.Follows pool c deed next) ∧
      (c.fate = .calm → next.stage.crashes ≤ c.stage.crashes + 1 → next.fate ≠ .aborted) := by
  intro c
  have sound : c.Sound := (Custody.Sound.start output file state).handleAll pool sink deeds
  refine ⟨sound, fun piece member => ?_, fun segment owner kind size large => ?_, fun deed => ?_⟩
  · obtain ⟨made, found, same⟩ := sound.held piece member
    refine ⟨made, found, same, ?_⟩
    generalize piece.hull.compressed = compressed at same ⊢
    rw [same]
    exact ⟨Hull.readable?_ofBuffer _, Buffer.size_readable _, Extent.toList_take _ _,
      Hull.encode?_ofBuffer _, fun frame encoded => Buffer.length_of_encode encoded,
      Hull.write?_ofBuffer _ sink⟩
  · have refused : Buffer.ofSegment segment owner kind size =
        .error (.sizeMismatch size segment.capacity) := dif_neg (Nat.not_le.mpr large)
    simp only [Custody.handle, Custody.act, refused, ite_self]
  · have follows : c.fate ≠ .aborted → Custody.Follows pool c deed (c.handle pool sink deed) := by
      intro going
      rw [Custody.handle, if_neg going]
      exact (sound.act pool sink going deed).2
    refine ⟨fun ended => if_pos ended, follows, fun calm single aborted => ?_⟩
    have crashes := (follows (by rw [calm]; decide)).crashes
    rw [aborted, calm] at crashes
    simp only [Fate.crashes] at crashes
    omega

/-- A segment of one byte. -/
def Segment.ofByte (value : UInt8) : Segment := ⟨.ofList [value], show 1 < Word.half by decide⟩

/-- Three items are put into a request, and a segment for a fourth is refused. When the request is
dropped, the pool crashes over the second, and all three go back in their order. -/
theorem three_items_go_back_although_one_crashes :
    let deeds := [.make (.ofByte 1) .pool .data 1, .wrap 0, .make (.ofByte 2) .pool .data 1, .wrap 0,
      .make (.ofByte 4) .pool .data 5, .make (.ofByte 3) .pool .data 1, .wrap 0, .gather, .push 3 0,
      .push 2 0, .push 1 0]
    let c := Custody.handleAll Tally.pool Sink.keep deeds (.start .empty (.start () ⟨0, some 1⟩))
    let next := c.handle Tally.pool Sink.keep (.drop 0)
    c.gone = [] ∧ handovers c.stage.journal = [] ∧ next.fate = .unwinding ∧
      next.stage.crashes = 1 ∧
      (handovers next.stage.journal).map some =
        [some (.pool, .ofByte 1), some (.pool, .ofByte 2), some (.pool, .ofByte 3)] := by
  intro deeds c next
  obtain ⟨-, -, -, each⟩ :=
    accepted_segments_go_back_once Tally.pool Sink.keep deeds .empty () ⟨0, some 1⟩
  obtain ⟨-, follows, single⟩ := each (.drop 0)
  obtain ⟨gone, left, drops, handed, ended⟩ := (follows (by decide)).gone
  obtain rfl := ended (single rfl (by decide))
  rw [List.append_nil] at drops
  rw [← drops] at handed
  exact ⟨rfl, rfl, rfl, rfl, handed⟩

end Spillway
