import Spillway.Proofs.Disposal
import Spillway.Proofs.Verdicts
/-!
Every submitted buffer goes back exactly once, to its own owner, with its whole segment. A party lets its
orders go one after the other: those that went to the queue are the writer's, those that came back are
the caller's. The segments that a party has given back, followed by those that it has yet to give back,
are those of its orders, in the order of submission, whatever the file answers and wherever pools crash;
and an order is only answered when its segments, and those of all before it, have gone back. With a queue
that refuses nothing until it is empty both lines are one, in the order in which requests were submitted.
So they are in every session.
-/

namespace Spillway

variable {σ π : Type}

/-! ## Lines of orders -/

/-- What has gone back is what the orders up to the one with a ticket, and that one, give back. -/
def GoneThrough (orders : List Order) (ticket : Nat) (handed : List (Owner × Segment)) : Prop :=
  ∃ past order later, past ++ order :: later = orders ∧ order.ticket = ticket ∧
    handed = orderHandovers (past ++ [order])

/-- If the last thing that happened is a reply to a request with buffers, then exactly the segments of
its order and of those before it have gone back. -/
def AnsweredInTurn (submitted : List Request) (orders : List Order) : List (Event σ) → Prop
  | .replied ticket _ :: older => ∃ request, submitted[ticket]? = some request ∧
      (request.items ≠ [] → GoneThrough orders ticket (handovers older))
  | _ => True

/-- Orders that are let go one after the other: which they are, among all requests that have been
submitted; the one that is in hand, and those that wait; the tickets of the submissions that crashed;
and what has happened. -/
structure Line (σ : Type) where
  submitted : List Request
  orders : List Order
  hand : Option Remnant
  behind : List Order
  crashed : List Nat
  events : List (Event σ)

namespace Line

/-- What has not gone back of the order in hand. -/
def leftover (line : Line σ) : List (Owner × Segment) :=
  line.hand.toList.flatMap fun remnant => remnant.left.map Buffer.handover

/-- What has not gone back. -/
def pending (line : Line σ) : List (Owner × Segment) := line.leftover ++ orderHandovers line.behind

/-- All orders of a line go back in turn, each segment once; none is answered before it has gone back,
and all before it have; and neither does its submission crash before that. -/
structure InTurn (line : Line σ) : Prop where
  all : handovers line.events ++ line.pending = orderHandovers line.orders
  answered : AtEveryMoment (AnsweredInTurn line.submitted line.orders) line.events
  crashed : ∀ ticket ∈ line.crashed, ∃ handed, GoneThrough line.orders ticket handed ∧
    handed <+: handovers line.events

/-- What keeps a line in turn: the orders that are done, the one in hand and those that wait are all its
orders, and what has gone back is what the first give back, and a part of the second. -/
structure Kept (line : Line σ) : Prop where
  known : ∀ order ∈ line.orders, line.submitted[order.ticket]? = some order.request
  place : ∃ past, past ++ ((line.hand.map Remnant.order).toList ++ line.behind) = line.orders ∧
    handovers line.events ++ line.leftover =
      orderHandovers (past ++ (line.hand.map Remnant.order).toList)
  answered : AtEveryMoment (AnsweredInTurn line.submitted line.orders) line.events
  crashed : ∀ ticket ∈ line.crashed, ∃ handed, GoneThrough line.orders ticket handed ∧
    handed <+: handovers line.events

end Line

theorem GoneThrough.mono {orders : List Order} {ticket : Nat} {handed : List (Owner × Segment)}
    (gone : GoneThrough orders ticket handed) (more : List Order) :
    GoneThrough (orders ++ more) ticket handed := by
  obtain ⟨past, order, later, rfl, same, through⟩ := gone
  exact ⟨past, order, later ++ more, by simp, same, through⟩

theorem AnsweredInTurn.mono {submitted : List Request} {orders : List Order} {journal : List (Event σ)}
    (answered : AnsweredInTurn submitted orders journal) (requests : List Request) (more : List Order) :
    AnsweredInTurn (submitted ++ requests) (orders ++ more) journal := by
  cases journal with
  | nil => trivial
  | cons event older =>
    cases event with
    | replied ticket reply =>
      obtain ⟨request, found, gone⟩ := answered
      have inside : ticket < submitted.length := (List.getElem?_eq_some_iff.mp found).1
      exact ⟨request, by rw [List.getElem?_append_left inside, found],
        fun some => (gone some).mono more⟩
    | called _ | released _ _ _ | counted _ _ | noted _ | crashed => trivial

theorem answeredInTurn_of_isWork {low : Nat} {submitted : List Request} {orders : List Order}
    {event : Event σ} (work : event.IsWork low) (older : List (Event σ)) :
    AnsweredInTurn submitted orders (event :: older) := by
  cases event with
  | replied ticket reply => exact work.elim
  | called _ | released _ _ _ | counted _ _ | noted _ | crashed => trivial

namespace Line.Kept

variable {line : Line σ}

theorem inTurn (kept : line.Kept) : line.InTurn := by
  obtain ⟨known, ⟨past, split, gone⟩, answered, crashed⟩ := kept
  refine ⟨?_, answered, crashed⟩
  rw [Line.pending, ← List.append_assoc, gone, ← split]
  simp

theorem empty : Kept (⟨[], [], none, [], [], []⟩ : Line σ) :=
  ⟨by simp, ⟨[], rfl, rfl⟩, fun moment none => by rw [List.suffix_nil.mp none]; trivial, by simp⟩

/-- More requests are submitted, and some of them join the line. -/
theorem join (kept : line.Kept) (requests : List Request) (more : List Order)
    (known : ∀ order ∈ more, (line.submitted ++ requests)[order.ticket]? = some order.request) :
    Kept { line with
      submitted := line.submitted ++ requests
      orders := line.orders ++ more
      behind := line.behind ++ more } := by
  obtain ⟨known', ⟨past, split, gone⟩, answered, crashed⟩ := kept
  refine ⟨fun order member => ?_, ⟨past, ?_, gone⟩,
    fun moment suffix => (answered moment suffix).mono requests more, fun ticket member => ?_⟩
  · rcases List.mem_append.mp member with old | new
    · have found := known' order old
      rwa [List.getElem?_append_left (List.getElem?_eq_some_iff.mp found).1]
    · exact known order new
  · simp only [← split, List.append_assoc]
  · obtain ⟨handed, through, early⟩ := crashed ticket member
    exact ⟨handed, through.mono more, early⟩

theorem takeUp (kept : line.Kept) {order : Order} {later : List Order} (idle : line.hand = none)
    (queued : line.behind = order :: later) :
    Kept { line with hand := some (.of order), behind := later } := by
  obtain ⟨known, ⟨past, split, gone⟩, answered, crashed⟩ := kept
  refine ⟨known, ⟨past, ?_, ?_⟩, answered, crashed⟩
  · simpa [idle, queued, Remnant.of] using split
  · rw [idle] at gone
    simp only [Line.leftover, idle, Option.toList_none, List.flatMap_nil, List.append_nil,
      Option.map_none] at gone
    simp [Line.leftover, gone, Remnant.of, orderHandovers, Request.handovers]

/-- Buffers of the order in hand go back, with other work around them. -/
theorem shed (kept : line.Kept) {order : Order} {gone left : List Buffer} {crash : Bool}
    (hand : line.hand = some ⟨order, gone ++ left, crash⟩) (crash' : Bool) {low : Nat}
    {new : List (Event σ)} (work : ∀ event ∈ new, event.IsWork low)
    (handed : handovers new = gone.map Buffer.handover) :
    Kept { line with hand := some ⟨order, left, crash'⟩, events := new ++ line.events } := by
  obtain ⟨known, ⟨past, split, all⟩, answered, crashed⟩ := kept
  refine ⟨known, ⟨past, ?_, ?_⟩, ?_, fun ticket member => ?_⟩
  · simpa [hand] using split
  · simpa [Line.leftover, hand, handovers_append, handed] using all
  · exact answered.append work fun event older _ isWork _ => answeredInTurn_of_isWork isWork older
  · obtain ⟨through, gone, early⟩ := crashed ticket member
    refine ⟨through, gone, early.trans ?_⟩
    rw [handovers_append]
    exact List.prefix_append _ _

theorem note (kept : line.Kept) (notice : Notice) :
    Kept { line with events := .noted notice :: line.events } := by
  obtain ⟨known, place, answered, crashed⟩ := kept
  exact ⟨known, place, atEveryMoment_cons.mpr ⟨trivial, answered⟩, crashed⟩

/-- A request that is not in the line is answered. -/
theorem reply (kept : line.Kept) {ticket : Nat} {request : Request}
    (found : line.submitted[ticket]? = some request) (empty : request.items = []) (reply : Reply) :
    Kept { line with events := .replied ticket reply :: line.events } :=
  ⟨kept.known, kept.place,
    atEveryMoment_cons.mpr ⟨⟨request, found, fun some => absurd empty some⟩, kept.answered⟩,
    kept.crashed⟩

/-- When nothing is left of the order in hand, all orders up to it have gone back. -/
theorem goneThrough (kept : line.Kept) {order : Order} {crash : Bool}
    (hand : line.hand = some ⟨order, [], crash⟩) :
    GoneThrough line.orders order.ticket (handovers line.events) := by
  obtain ⟨past, split, all⟩ := kept.place
  refine ⟨past, order, line.behind, by simpa [hand] using split, rfl, ?_⟩
  simpa [Line.leftover, hand] using all

theorem putDown (kept : line.Kept) {order : Order} {crash : Bool}
    (hand : line.hand = some ⟨order, [], crash⟩) : Kept { line with hand := none } := by
  obtain ⟨known, ⟨past, split, all⟩, answered, crashed⟩ := kept
  refine ⟨known, ⟨past ++ [order], ?_, ?_⟩, answered, crashed⟩
  · simpa [hand] using split
  · simpa [Line.leftover, hand] using all

theorem answer (kept : line.Kept) {order : Order} {crash : Bool}
    (hand : line.hand = some ⟨order, [], crash⟩) (reply : Reply) :
    Kept { line with hand := none, events := .replied order.ticket reply :: line.events } := by
  have through := kept.goneThrough hand
  have found : line.submitted[order.ticket]? = some order.request := by
    obtain ⟨past, split, -⟩ := kept.place
    exact kept.known order (by simp [← split, hand])
  obtain ⟨known, place, answered, crashed⟩ := kept.putDown hand
  exact ⟨known, place,
    atEveryMoment_cons.mpr ⟨⟨order.request, found, fun _ => through⟩, answered⟩, crashed⟩

theorem fail (kept : line.Kept) {order : Order} {crash : Bool}
    (hand : line.hand = some ⟨order, [], crash⟩) :
    Kept { line with hand := none, crashed := line.crashed ++ [order.ticket] } := by
  have through := kept.goneThrough hand
  obtain ⟨known, place, answered, crashed⟩ := kept.putDown hand
  refine ⟨known, place, answered, fun ticket member => ?_⟩
  rcases List.mem_append.mp member with before | now
  · exact crashed ticket before
  · rw [List.mem_singleton.mp now]
    exact ⟨_, through, List.prefix_refl _⟩

/-- The first order that waits is let go and answered at once. -/
theorem carry (kept : line.Kept) {order : Order} {later : List Order} (idle : line.hand = none)
    (queued : line.behind = order :: later) {low : Nat} {new : List (Event σ)}
    (work : ∀ event ∈ new, event.IsWork low) (handed : handovers new = order.request.handovers)
    (reply : Reply) :
    Kept { line with behind := later, events := .replied order.ticket reply :: (new ++ line.events) } := by
  have taken := kept.takeUp idle queued
  have hand : some (Remnant.of order) = some ⟨order, order.request.buffers ++ [], false⟩ := by
    rw [List.append_nil, Remnant.of]
  have gone := (taken.shed hand false work handed).answer rfl reply
  rwa [← idle] at gone

end Line.Kept

theorem length_handovers_le {older journal : List (Event σ)} (earlier : older <:+ journal) :
    (handovers older).length ≤ (handovers journal).length := by
  obtain ⟨new, rfl⟩ := earlier
  rw [handovers_append, List.length_append]
  exact Nat.le_add_right _ _

theorem flatMap_handovers (requests : List Request) :
    requests.flatMap Request.handovers =
      (requests.flatMap Request.buffers).map Buffer.handover := by
  rw [List.map_flatMap]
  rfl

theorem handovers_cons (event : Event σ) (older : List (Event σ)) :
    handovers (event :: older) = handovers older ++ handovers [event] := by
  cases event <;> simp [handovers]

/-- The same events in another order give the same segments back. -/
theorem handovers_perm {one other : List (Event σ)} (perm : one.Perm other) :
    (handovers one).Perm (handovers other) := by
  induction perm with
  | nil => exact .refl _
  | @cons event older older' _ ih =>
    rw [handovers_cons event older, handovers_cons event older']
    exact ih.append_right _
  | swap first second older =>
    rw [handovers_cons second (first :: older), handovers_cons first older,
      handovers_cons first (second :: older), handovers_cons second older, List.append_assoc,
      List.append_assoc]
    exact List.perm_append_comm.append_left _
  | trans _ _ ih ih' => exact ih.trans ih'

namespace Surroundings.Effect

variable {env : Surroundings σ π} {low : Nat} {released : List Buffer} {crashed : Prop}
  {before after : Stage σ π}

/-- What has gone back after work, in the order in which it did. -/
theorem handovers_eq (effect : env.Effect low released crashed before after) :
    handovers after.journal = handovers before.journal ++ released.map Buffer.handover := by
  obtain ⟨new, journal, -, -, -, handed, -⟩ := effect
  rw [journal, handovers_append, handed]

end Surroundings.Effect

/-! ## The lines of a scene -/

theorem mem_ordersFrom {ticket : Nat} {requests : List Request} {order : Order}
    (member : order ∈ ordersFrom ticket requests) :
    order.ticket < ticket + requests.length ∧
      requests[order.ticket - ticket]? = some order.request := by
  obtain ⟨past, later, split⟩ := List.append_of_mem member
  obtain ⟨before, after, same, place, -, -⟩ := ordersFrom_split split.symm
  rw [same, place]
  simp

/-- Who has to let a request go, if those with the tickets `refusals` came back. -/
def partyOf (refusals : List Nat) (ticket : Nat) : Party :=
  if ticket ∈ refusals then .caller else .writer

/-- The orders that a party has to let go. -/
def chargesOf (submitted : List Request) (refusals : List Nat) (party : Party) : List Order :=
  (ordersFrom 0 submitted).filter fun order => partyOf refusals order.ticket = party

theorem chargesOf_empty {submitted : List Request} {request : Request} (refusals : List Nat)
    (empty : request.items.isEmpty = true) (party : Party) :
    chargesOf (submitted ++ [request]) refusals party = chargesOf submitted refusals party := by
  simp [chargesOf, ordersFrom_append, ordersFrom, empty]

theorem chargesOf_taken {submitted : List Request} {request : Request} {refusals : List Nat}
    (some : request.items.isEmpty = false) (known : ∀ ticket ∈ refusals, ticket < submitted.length)
    (party : Party) :
    chargesOf (submitted ++ [request]) refusals party = chargesOf submitted refusals party ++
      if party = .writer then [⟨submitted.length, request⟩] else [] := by
  have fresh : submitted.length ∉ refusals := fun member => Nat.lt_irrefl _ (known _ member)
  cases party <;> simp [chargesOf, ordersFrom_append, ordersFrom, some, partyOf, fresh]

theorem chargesOf_refused {submitted : List Request} {request : Request} (refusals : List Nat)
    (some : request.items.isEmpty = false) (party : Party) :
    chargesOf (submitted ++ [request]) (refusals ++ [submitted.length]) party =
      chargesOf submitted refusals party ++
        if party = .caller then [⟨submitted.length, request⟩] else [] := by
  have old : ∀ order ∈ ordersFrom 0 submitted,
      partyOf (refusals ++ [submitted.length]) order.ticket = partyOf refusals order.ticket := by
    intro order member
    have other : order.ticket ≠ submitted.length := by
      have below := (mem_ordersFrom member).1
      omega
    simp [partyOf, other]
  have same : (ordersFrom 0 submitted).filter
      (fun order => partyOf (refusals ++ [submitted.length]) order.ticket = party) =
        chargesOf submitted refusals party :=
    List.filter_congr fun order member => by rw [old order member]
  rw [chargesOf, ordersFrom_append, List.filter_append, same]
  cases party <;> simp [ordersFrom, some, partyOf]

theorem filter_party {α : Type} (of : α → Party) (xs : List α) :
    (xs.filter (of · = .writer) ++ xs.filter (of · = .caller)).Perm xs := by
  have others : xs.filter (of · = .caller) = xs.filter fun x => !decide (of x = .writer) :=
    List.filter_congr fun x _ => by cases of x <;> rfl
  rw [others]
  exact List.filter_append_perm _ xs

/-- The orders that wait for a party. -/
def Session.behind (s : Session σ π) : Party → List Order
  | .writer => s.spooler.queue
  | .caller => []

def Session.crashedOf (s : Session σ π) : Party → List Nat
  | .writer => []
  | .caller => s.crashed

namespace Scene

/-- The orders of a party. -/
def line (party : Party) (scene : Scene σ π) : Line σ :=
  ⟨scene.session.submitted, chargesOf scene.session.submitted scene.refusals party,
    scene.hands party, scene.session.behind party, scene.session.crashedOf party,
    scene.deedsOf party⟩

/-- The orders of both parties as one line, which they are as long as no more than one of them has an
order in hand. -/
def whole (scene : Scene σ π) : Line σ :=
  ⟨scene.session.submitted, ordersFrom 0 scene.session.submitted,
    (scene.hands .writer).or (scene.hands .caller), scene.session.spooler.queue,
    scene.session.crashed, scene.session.stage.journal⟩

theorem told_become {party : Party} {after : Session σ π} {scene : Scene σ π} {new : List (Event σ)}
    (journal : after.stage.journal = new ++ scene.session.stage.journal) :
    (scene.become party after).told = new.map (party, ·) ++ scene.told := by
  simp [become, journal]

theorem deedsOf_become {party : Party} {after : Session σ π} {scene : Scene σ π}
    {new : List (Event σ)} (journal : after.stage.journal = new ++ scene.session.stage.journal)
    (other : Party) :
    (scene.become party after).deedsOf other =
      (if party = other then new else []) ++ scene.deedsOf other := by
  rw [deedsOf, told_become journal, List.filter_append, List.map_append, deedsOf]
  congr 1
  by_cases own : party = other
  · simp [own, List.filter_map, Function.comp_def]
  · simp [own, List.filter_map, Function.comp_def]

end Scene

namespace Surroundings

/-- What holds in every scene: who did what adds up to the journal, which accounts for the file and the
pools; nobody else lets anything go beside a writer that lives; and each party keeps its line in turn. -/
structure Sound (env : Surroundings σ π) (file : σ) (pool : π) (scene : Scene σ π) : Prop where
  told : scene.told.map Prod.snd = scene.session.stage.journal
  accounts : env.Accounts file pool scene.session.stage
  idle : scene.session.spooler.alive = true → scene.hands .writer = none
  refused : ∀ ticket ∈ scene.refusals, ticket < scene.session.submitted.length
  lines : ∀ party, (scene.line party).Kept

variable {env : Surroundings σ π} {channel : Channel} {settings : Settings} {file : σ} {pool : π}
  {scene : Scene σ π}

/-- A party makes something of the session, and keeps the lines in turn. -/
theorem Sound.become (sound : env.Sound file pool scene) {party : Party} {after : Session σ π}
    (new : List (Event σ)) (journal : after.stage.journal = new ++ scene.session.stage.journal)
    (accounts : env.Accounts file pool after.stage)
    (idle : after.spooler.alive = true → scene.hands .writer = none)
    (longer : scene.session.submitted.length ≤ after.submitted.length)
    (lines : ∀ other, Line.Kept
      ⟨after.submitted, chargesOf after.submitted scene.refusals other, scene.hands other,
        after.behind other, after.crashedOf other,
        (if party = other then new else []) ++ scene.deedsOf other⟩) :
    env.Sound file pool (scene.become party after) := by
  refine ⟨?_, accounts, idle,
    fun ticket member => Nat.lt_of_lt_of_le (sound.refused ticket member) longer, fun other => ?_⟩
  · simp [Scene.told_become journal, sound.told, journal, Function.comp_def]
  · have kept := lines other
    rwa [← Scene.deedsOf_become journal] at kept

/-- What both parties have given back, with what they have yet to give back, is that of all requests. -/
theorem Sound.perm (sound : env.Sound file pool scene) :
    (handovers scene.session.stage.journal ++
      ((scene.line .writer).pending ++ (scene.line .caller).pending)).Perm
        (scene.session.submitted.flatMap Request.handovers) := by
  have told : (scene.deedsOf .writer ++ scene.deedsOf .caller).Perm scene.session.stage.journal := by
    rw [← sound.told, Scene.deedsOf, Scene.deedsOf, ← List.map_append]
    exact (filter_party Prod.fst scene.told).map Prod.snd
  have charged : (orderHandovers (chargesOf scene.session.submitted scene.refusals .writer) ++
      orderHandovers (chargesOf scene.session.submitted scene.refusals .caller)).Perm
        (scene.session.submitted.flatMap Request.handovers) := by
    rw [← orderHandovers_ordersFrom 0, ← orderHandovers_append]
    exact (filter_party (fun order : Order => partyOf scene.refusals order.ticket) _).flatMap_right _
  have handed := handovers_perm told
  rw [handovers_append] at handed
  have writer := (sound.lines .writer).inTurn.all
  have caller := (sound.lines .caller).inTurn.all
  simp only [Scene.line] at writer caller
  rw [← writer, ← caller] at charged
  refine .trans ?_ charged
  refine (handed.symm.append_right _).trans ?_
  rw [List.append_assoc, ← List.append_assoc (handovers (scene.deedsOf .writer))]
  exact List.perm_append_comm_assoc _ _ _

theorem sound_present (sound : env.Sound file pool scene) (request : Request) :
    env.Sound file pool (env.present channel request scene) := by
  by_cases busy : scene.hands .caller = none
  case neg => simpa [present, Option.isSome_iff_ne_none.mpr busy] using sound
  have longer : scene.session.submitted.length ≤ (scene.session.submitted ++ [request]).length := by simp
  have found : (scene.session.submitted ++ [request])[scene.session.submitted.length]? = some request := by
    simp
  -- The request joins the line of the party that has to let it go.
  have joins : ∀ party more, (∀ order ∈ more, order = ⟨scene.session.submitted.length, request⟩) →
      Line.Kept { scene.line party with
        submitted := scene.session.submitted ++ [request]
        orders := (scene.line party).orders ++ more
        behind := scene.session.behind party ++ more } := fun party more only =>
    (sound.lines party).join [request] more fun order member => by rw [only order member]; exact found
  cases empty : request.items.isEmpty with
  | true =>
    rw [present_taken env busy (by simp [empty]), env.hand_of_empty empty]
    refine sound.become [.replied scene.session.submitted.length (.ok [])] rfl sound.accounts
      sound.idle longer fun other => ?_
    have joined := joins other [] (by simp)
    simp only [List.append_nil] at joined
    rw [chargesOf_empty _ empty]
    cases other with
    | writer => exact joined
    | caller => exact joined.reply found (List.isEmpty_iff.mp empty) (.ok [])
  | false =>
    cases alive : scene.session.spooler.alive with
    | true =>
      rw [present_taken env busy (by simp [alive]), env.hand_of_alive empty alive]
      refine sound.become [] rfl sound.accounts sound.idle longer fun other => ?_
      have joined := joins other
        (if other = .writer then [⟨scene.session.submitted.length, request⟩] else []) (by split <;> simp)
      rw [chargesOf_taken empty sound.refused]
      cases other <;> simpa [Scene.line, Session.behind, Session.crashedOf] using joined
    | false =>
      have untaken : ¬ (request.items.isEmpty || scene.session.spooler.alive) = true := by
        simp [empty, alive]
      have grown := fun ticket member => Nat.lt_of_lt_of_le (sound.refused ticket member) longer
      by_cases refuses : channel.refuses scene.session.submitted.length scene.held = true
      · rw [present_refused env busy untaken refuses]
        refine ⟨sound.told, sound.accounts, by simp [alive], fun ticket member => ?_, fun other => ?_⟩
        · rcases List.mem_append.mp member with old | new
          · exact grown ticket old
          · rw [List.mem_singleton.mp new]
            simp
        · have joined := joins other
            (if other = .caller then [⟨scene.session.submitted.length, request⟩] else []) (by split <;> simp)
          simp only [Scene.line, chargesOf_refused _ empty]
          cases other with
          | writer => simpa [Scene.line, Session.behind, Session.crashedOf, Scene.deedsOf] using joined
          | caller => exact joined.takeUp busy rfl
      · rw [present_held env busy untaken refuses]
        refine ⟨sound.told, sound.accounts, by simp [alive], grown, fun other => ?_⟩
        have joined := joins other
          (if other = .writer then [⟨scene.session.submitted.length, request⟩] else []) (by split <;> simp)
        simp only [Scene.line, chargesOf_taken empty sound.refused]
        cases other <;> simpa [Scene.line, Session.behind, Session.crashedOf, Scene.deedsOf] using joined

theorem sound_carry (sound : env.Sound file pool scene) : env.Sound file pool (env.carry scene) := by
  cases alive : scene.session.spooler.alive with
  | false => simpa [carry, alive] using sound
  | true =>
    cases queued : scene.session.spooler.queue with
    | nil => simpa [carry, alive, queued] using sound
    | cons order later =>
      rw [env.carry_eq alive queued rfl]
      have effect := env.effect_process order.request scene.session.spooler.writer scene.session.stage
      have accounts := effect.accounts sound.accounts
      obtain ⟨new, journal, -, -, work, handed, -⟩ := effect
      generalize env.process order.request scene.session.spooler.writer scene.session.stage = verdict at *
      refine sound.become (.replied order.ticket _ :: new) (by rw [Stage.reply, Stage.record, journal]; rfl)
        accounts (fun _ => sound.idle alive) (Nat.le_refl _) fun other => ?_
      cases other with
      | writer => exact (sound.lines .writer).carry (sound.idle alive) queued work handed _
      | caller => exact sound.lines .caller

theorem sound_takeUp (sound : env.Sound file pool scene) : env.Sound file pool scene.takeUp := by
  simp only [Scene.takeUp]
  split
  · rename_i order later dead idle queued
    refine ⟨sound.told, sound.accounts, fun alive => ?_, sound.refused, fun other => ?_⟩
    · exact absurd (alive.symm.trans dead) (by simp)
    · cases other with
      | writer => exact (sound.lines .writer).takeUp idle queued
      | caller => exact sound.lines .caller
  · exact sound

/-- A party that has an order in hand makes something of the session and of that order. -/
theorem Sound.handle (sound : env.Sound file pool scene) {party : Party} {hand : Option Remnant}
    {after : Session σ π} (new : List (Event σ))
    (journal : after.stage.journal = new ++ scene.session.stage.journal)
    (accounts : env.Accounts file pool after.stage)
    (busy : scene.hands party ≠ none) (spooler : after.spooler = scene.session.spooler)
    (submitted : after.submitted = scene.session.submitted)
    (crashed : party = .writer → after.crashed = scene.session.crashed)
    (own : Line.Kept { scene.line party with
      hand := hand
      crashed := after.crashedOf party
      events := new ++ scene.deedsOf party }) :
    env.Sound file pool ((scene.become party after).put party hand) := by
  refine ⟨?_, accounts, fun alive => ?_, fun ticket member => ?_, fun other => ?_⟩
  · simp [Scene.told_become journal, sound.told, journal, Function.comp_def]
  · have idle := sound.idle (by simpa [spooler] using alive)
    have other : Party.writer ≠ party := fun same => busy (same ▸ idle)
    simpa [other] using idle
  · simpa [submitted] using sound.refused ticket member
  · by_cases same : other = party
    · subst same
      simpa [Scene.line, Scene.deedsOf_become journal, submitted, Session.behind, spooler] using own
    · have kept := sound.lines other
      have others : after.crashedOf other = scene.session.crashedOf other := by
        cases other with
        | writer => rfl
        | caller =>
          cases party with
          | writer => exact crashed rfl
          | caller => exact absurd rfl same
      simpa [Scene.line, Scene.deedsOf_become journal, submitted, Session.behind, spooler, others, same,
        Ne.symm same] using kept

theorem sound_shed (sound : env.Sound file pool scene) (party : Party) :
    env.Sound file pool (env.shed party scene) := by
  rcases hand : scene.hands party with _ | ⟨order, _ | ⟨buffer, left⟩, crash⟩
  · simpa [shed, hand] using sound
  · have busy : scene.hands party ≠ none := by simp [hand]
    by_cases crashes : party = .caller ∧ crash = true
    · obtain ⟨rfl, rfl⟩ := crashes
      rw [env.shed_crash hand]
      exact sound.handle [] rfl sound.accounts busy rfl rfl (by simp) ((sound.lines .caller).fail hand)
    · rw [env.shed_answer hand (by simpa using crashes)]
      exact sound.handle [.replied order.ticket (.error .closed)] rfl sound.accounts busy rfl rfl
        (fun _ => rfl) ((sound.lines party).answer hand _)
  · rw [env.shed_buffer hand]
    have effect := env.effect_release 0 buffer scene.session.stage
    have accounts := effect.accounts sound.accounts
    obtain ⟨new, journal, -, -, work, handed, -⟩ := effect
    have own : (scene.line party).hand = some ⟨order, [buffer] ++ left, crash⟩ := hand
    exact sound.handle new journal accounts (by simp [hand]) rfl rfl (fun _ => rfl)
      ((sound.lines party).shed own _ work handed)

theorem sound_leave (sound : env.Sound file pool scene) (ending : Ending) :
    env.Sound file pool (scene.leave ending) := by
  unfold Scene.leave
  split
  · have gone : ∀ {alive : Bool}, alive = false → alive = true → scene.hands .writer = none :=
      fun dead lives => absurd (dead.symm.trans lives) (by simp)
    have alive : scene.session.spooler.alive = scene.session.spooler.alive := rfl
    rcases Session.leave_together ending alive rfl with ⟨left, -⟩ | ⟨notice, -, left, -⟩
    · rw [left]
      exact sound.become [] rfl sound.accounts (gone rfl) (Nat.le_refl _) fun other => by
        cases other <;> exact sound.lines _
    · rw [left]
      exact sound.become [.noted notice] rfl sound.accounts (gone rfl) (Nat.le_refl _) fun other => by
        cases other with
        | writer => exact sound.lines .writer
        | caller => exact (sound.lines .caller).note notice
  · exact sound

theorem Shows.sound (shown : env.Shows channel settings file pool scene) :
    env.Sound file pool scene := by
  induction shown with
  | start started =>
    obtain ⟨cursor, -, rfl, rfl⟩ := spooler_start started
    refine ⟨rfl, ⟨rfl, rfl⟩, fun _ => rfl, by simp [Scene.ofSession], fun party => ?_⟩
    cases party with
    | writer => exact Line.Kept.empty.note _
    | caller => exact Line.Kept.empty
  | step happening _ sound =>
    cases happening with
    | submit request => exact sound_present sound request
    | carry => exact sound_carry sound
    | takeUp => exact sound_takeUp sound
    | shed party => exact sound_shed sound party
    | leave ending => exact sound_leave sound ending

/-! ## Both lines as one -/

/-- No more than one party has an order in hand: the caller has none, or nothing is left for the writer's
thread. So both keep one line in turn. -/
structure Joined (scene : Scene σ π) : Prop where
  kept : scene.whole.Kept
  apart : scene.hands .caller = none ∨
    scene.held = [] ∧ scene.session.spooler.alive = false

theorem nothing_held (none : scene.held = []) :
    scene.hands .writer = Option.none ∧ scene.session.spooler.queue = [] := by
  simpa [Scene.held] using none

theorem Joined.free_of_held (joined : Joined scene) (held : scene.held ≠ []) :
    scene.hands .caller = none :=
  joined.apart.resolve_right fun both => held both.1

/-- What either party has in hand is what is in hand. -/
theorem Joined.hand_eq (joined : Joined scene) {party : Party} {remnant : Remnant}
    (hand : scene.hands party = some remnant) : scene.whole.hand = some remnant := by
  cases party with
  | writer => simp [Scene.whole, hand]
  | caller =>
    obtain ⟨nothing, -⟩ := joined.apart.resolve_left (by simp [hand])
    simp [Scene.whole, hand, (nothing_held nothing).1]

theorem joined_present (joined : Joined scene) (request : Request)
    (calm : (env.present channel request scene).overtakers = []) :
    Joined (env.present channel request scene) := by
  by_cases busy : scene.hands .caller = none
  case neg => simpa [present, Option.isSome_iff_ne_none.mpr busy] using joined
  have found : (scene.session.submitted ++ [request])[scene.session.submitted.length]? = some request := by
    simp
  have orders := ordersFrom_append 0 scene.session.submitted [request]
  have joins : ∀ more, (∀ order ∈ more, order = ⟨scene.session.submitted.length, request⟩) →
      Line.Kept { scene.whole with
        submitted := scene.session.submitted ++ [request]
        orders := ordersFrom 0 scene.session.submitted ++ more
        behind := scene.session.spooler.queue ++ more } := fun more only =>
    joined.kept.join [request] more fun order member => by rw [only order member]; exact found
  cases empty : request.items.isEmpty with
  | true =>
    rw [present_taken env busy (by simp [empty]), env.hand_of_empty empty]
    refine ⟨?_, .inl busy⟩
    have replied := (joins [] (by simp)).reply found (List.isEmpty_iff.mp empty) (.ok [])
    simp only [ordersFrom, empty, if_true] at orders
    simp only [List.append_nil] at replied orders
    simp only [Scene.whole, Scene.session_become, orders]
    exact replied
  | false =>
    have one := joins [⟨scene.session.submitted.length, request⟩] (by simp)
    simp only [ordersFrom, empty, Bool.false_eq_true, if_false, Nat.zero_add] at orders
    cases alive : scene.session.spooler.alive with
    | true =>
      rw [present_taken env busy (by simp [alive]), env.hand_of_alive empty alive]
      refine ⟨?_, .inl busy⟩
      simp only [Scene.whole, Scene.session_become, orders]
      exact one
    | false =>
      have untaken : ¬ (request.items.isEmpty || scene.session.spooler.alive) = true := by
        simp [empty, alive]
      by_cases refuses : channel.refuses scene.session.submitted.length scene.held = true
      · rw [present_refused env busy untaken refuses] at calm ⊢
        have nothing : scene.held = [] := by
          cases held : scene.held with
          | nil => rfl
          | cons order later => simp [held] at calm
        obtain ⟨idle, queue⟩ := nothing_held nothing
        have first : scene.session.spooler.queue ++ [⟨scene.session.submitted.length, request⟩] =
          [⟨scene.session.submitted.length, request⟩] := by rw [queue, List.nil_append]
        have taken := one.takeUp (show scene.whole.hand = none by simp [Scene.whole, idle, busy]) first
        refine ⟨?_, .inr ⟨nothing, alive⟩⟩
        simp only [Scene.whole, orders, Scene.hands_put, idle, queue]
        exact taken
      · rw [present_held env busy untaken refuses]
        refine ⟨?_, .inl busy⟩
        simp only [Scene.whole, orders]
        exact one

theorem joined_carry (sound : env.Sound file pool scene) (joined : Joined scene) :
    Joined (env.carry scene) := by
  cases alive : scene.session.spooler.alive with
  | false => simpa [carry, alive] using joined
  | true =>
    cases queued : scene.session.spooler.queue with
    | nil => simpa [carry, alive, queued] using joined
    | cons order later =>
      rw [env.carry_eq alive queued rfl]
      have free := joined.free_of_held (by simp [Scene.held, queued])
      have idle : scene.whole.hand = none := by simp [Scene.whole, sound.idle alive, free]
      obtain ⟨new, journal, -, -, work, handed, -⟩ :=
        env.effect_process order.request scene.session.spooler.writer scene.session.stage
      generalize env.process order.request scene.session.spooler.writer scene.session.stage = verdict at *
      have carried := joined.kept.carry idle queued work handed
        (verdict.reply?.getD (.error .closed))
      refine ⟨?_, .inl free⟩
      simpa [Scene.whole, Stage.reply, Stage.record, journal] using carried

theorem joined_takeUp (joined : Joined scene) : Joined scene.takeUp := by
  simp only [Scene.takeUp]
  split
  · rename_i order later dead idle queued
    have free := joined.free_of_held (by simp [Scene.held, queued])
    have nothing : scene.whole.hand = none := by simp [Scene.whole, idle, free]
    have taken := joined.kept.takeUp nothing queued
    refine ⟨?_, .inl free⟩
    simpa [Scene.whole, free] using taken
  · exact joined

theorem Joined.handle (joined : Joined scene) {party : Party} {remnant : Remnant}
    (busy : scene.hands party = some remnant) {hand : Option Remnant} {after : Session σ π}
    (spooler : after.spooler = scene.session.spooler)
    (submitted : after.submitted = scene.session.submitted)
    (kept : Line.Kept { scene.whole with
      hand := hand
      crashed := after.crashed
      events := after.stage.journal }) :
    Joined ((scene.become party after).put party hand) := by
  cases party with
  | writer =>
    have free := joined.free_of_held (by simp [Scene.held, busy])
    refine ⟨?_, .inl (by simpa using free)⟩
    simpa [Scene.whole, spooler, submitted, free] using kept
  | caller =>
    obtain ⟨nothing, dead⟩ := joined.apart.resolve_left (by simp [busy])
    have idle := (nothing_held nothing).1
    refine ⟨?_, .inr ⟨by simpa [Scene.held, spooler] using nothing, by simpa [spooler] using dead⟩⟩
    simpa [Scene.whole, spooler, submitted, idle] using kept

theorem joined_shed (joined : Joined scene) (party : Party) : Joined (env.shed party scene) := by
  rcases hand : scene.hands party with _ | ⟨order, _ | ⟨buffer, left⟩, crash⟩
  · simpa [shed, hand] using joined
  · have own := joined.hand_eq hand
    by_cases crashes : party = .caller ∧ crash = true
    · obtain ⟨rfl, rfl⟩ := crashes
      rw [env.shed_crash hand]
      exact joined.handle hand rfl rfl (joined.kept.fail own)
    · rw [env.shed_answer hand (by simpa using crashes)]
      exact joined.handle hand rfl rfl (joined.kept.answer own _)
  · have own : scene.whole.hand = some ⟨order, [buffer] ++ left, crash⟩ := joined.hand_eq hand
    rw [env.shed_buffer hand]
    obtain ⟨new, journal, -, -, work, handed, -⟩ := env.effect_release 0 buffer scene.session.stage
    refine joined.handle hand rfl rfl ?_
    have gone := joined.kept.shed own (crash || (env.release buffer scene.session.stage).1) work handed
    rw [show new ++ scene.whole.events = (env.release buffer scene.session.stage).2.journal
      from journal.symm] at gone
    exact gone

theorem joined_leave (joined : Joined scene) (ending : Ending) : Joined (scene.leave ending) := by
  unfold Scene.leave
  split
  · rename_i idle
    have alive : scene.session.spooler.alive = scene.session.spooler.alive := rfl
    rcases Session.leave_together ending alive rfl with ⟨left, -⟩ | ⟨notice, -, left, -⟩
    · rw [left]
      exact ⟨joined.kept, .inl idle.2⟩
    · rw [left]
      exact ⟨joined.kept.note notice, .inl idle.2⟩
  · exact joined

/-- As long as nothing has overtaken, both parties keep one line in turn. -/
theorem Shows.joined (shown : env.Shows channel settings file pool scene)
    (calm : scene.overtakers = []) : Joined scene := by
  induction shown with
  | start started =>
    obtain ⟨cursor, -, rfl, rfl⟩ := spooler_start started
    exact ⟨Line.Kept.empty.note _, .inl rfl⟩
  | @step scene happening shown ih =>
    obtain ⟨new, overtakers, -⟩ := env.overtakers_happen channel happening scene
    have joined := ih (List.append_eq_nil_iff.mp (overtakers.symm.trans calm)).1
    cases happening with
    | submit request => exact joined_present joined request calm
    | carry => exact joined_carry shown.sound joined
    | takeUp => exact joined_takeUp joined
    | shed party => exact joined_shed joined party
    | leave ending => exact joined_leave joined ending

end Surroundings

/-! ## The order of submission -/

/-- If the last thing that happened is a reply to a request with buffers, then exactly the segments
of that request and of those before it have gone back. -/
def ReturnedFirst (submitted : List Request) : List (Event σ) → Prop
  | .replied ticket _ :: older => ∃ request, submitted[ticket]? = some request ∧
      (request.items ≠ [] →
        handovers older = (submitted.take (ticket + 1)).flatMap Request.handovers)
  | _ => True

/-- Everything that was submitted has gone back or waits, in order. -/
structure Session.Returned (s : Session σ π) : Prop where
  all : handovers s.stage.journal ++ orderHandovers s.spooler.queue =
    s.submitted.flatMap Request.handovers
  first : AtEveryMoment (ReturnedFirst s.submitted) s.stage.journal
  crashed : ∀ ticket ∈ s.crashed, ticket < s.submitted.length ∧
    (s.submitted.take (ticket + 1)).flatMap Request.handovers <+: handovers s.stage.journal

/-- In the line of all requests, what is gone through a ticket is gone for all requests up to it. -/
theorem GoneThrough.eq_take {submitted : List Request} {ticket : Nat} {handed : List (Owner × Segment)}
    (gone : GoneThrough (ordersFrom 0 submitted) ticket handed) :
    ticket < submitted.length ∧ handed = (submitted.take (ticket + 1)).flatMap Request.handovers := by
  obtain ⟨past, order, later, split, rfl, rfl⟩ := gone
  obtain ⟨before, after, same, place, earlier, -⟩ := ordersFrom_split split
  rw [Nat.zero_add] at place
  have taken : submitted.take (order.ticket + 1) = before ++ [order.request] := by
    rw [same, place, List.take_append, List.take_of_length_le (Nat.le_succ _)]
    simp
  refine ⟨by rw [same, place]; simp, ?_⟩
  rw [taken, orderHandovers_append, earlier, orderHandovers_ordersFrom]
  simp [orderHandovers]

theorem AnsweredInTurn.returnedFirst {submitted : List Request} {journal : List (Event σ)}
    (answered : AnsweredInTurn submitted (ordersFrom 0 submitted) journal) :
    ReturnedFirst submitted journal := by
  cases journal with
  | nil => trivial
  | cons event older =>
    cases event with
    | replied ticket reply =>
      obtain ⟨request, found, gone⟩ := answered
      exact ⟨request, found, fun some => (gone some).eq_take.2⟩
    | called _ | released _ _ _ | counted _ _ | noted _ | crashed => trivial

namespace Surroundings

variable {env : Surroundings σ π} {channel : Channel} {settings : Settings} {file : σ} {pool : π}

theorem Reaches.returned {s : Session σ π} (reached : env.Reaches settings file pool s) :
    s.Returned := by
  obtain ⟨scene, shown, rfl, idle⟩ := reached.shows Channel.closes_orderly
  have calm := shown.no_overtakers Channel.prompt_orderly
  obtain ⟨all, answered, crashed⟩ := (shown.joined calm).kept.inTurn
  refine ⟨?_, fun moment suffix => (answered moment suffix).returnedFirst, fun ticket member => ?_⟩
  · have none : scene.whole.leftover = [] := by simp [Line.leftover, Scene.whole, idle]
    rw [Line.pending, none, List.nil_append] at all
    exact all.trans (orderHandovers_ordersFrom 0 _)
  · obtain ⟨handed, gone, early⟩ := crashed ticket member
    exact ⟨gone.eq_take.1, gone.eq_take.2 ▸ early⟩

/-- When the writer takes a request, exactly the segments of those before it have gone back. -/
theorem Reaches.handed_before {s : Session σ π} (reached : env.Reaches settings file pool s)
    {order : Order} {later : List Order} (queued : s.spooler.queue = order :: later) :
    ∃ before after, s.submitted = before ++ order.request :: after ∧
      order.ticket = before.length ∧
      handovers s.stage.journal = before.flatMap Request.handovers := by
  have orderly := reached.orderly
  have orders := orderly.alive_orders (orderly.alive_of_queue (by simp [queued]))
  have all := reached.returned.all
  rw [← orderHandovers_ordersFrom 0, ← orders, orderHandovers_append] at all
  rw [queued] at orders
  obtain ⟨before, after, submitted, place, past, -⟩ := ordersFrom_split orders
  rw [Nat.zero_add] at place
  refine ⟨before, after, submitted, place, ?_⟩
  rw [List.append_cancel_right all, past, orderHandovers_ordersFrom]

/-- The rehearsal on an empty file, with a pool that crashes over the first segment. -/
def rehearsed : Scene (Planned Memory) Tally :=
  .ofSession (.fresh ⟨.start .standard 0, true, []⟩
    (rehearsal.start .standard (.start ⟨⟨.empty, false⟩, .none⟩ ⟨0, some 0⟩)).2)

/-- The writer dies over the first request, once its frame is written. -/
theorem process_rehearsed :
    ∃ file journal, rehearsal.process ⟨[threeBytes]⟩ (.start .standard 0) rehearsed.session.stage =
        ⟨none, .start .standard 0, ⟨file, ⟨1, some 0⟩, journal⟩⟩ ∧
      handovers journal = [threeBytes.buffer.handover] := by
  have spilt : ∃ file journal, rehearsal.spill ⟨[threeBytes]⟩ (.start .standard 0)
        rehearsed.session.stage = ⟨.crashed, .start .standard 0, ⟨file, ⟨1, some 0⟩, journal⟩⟩ ∧
      handovers journal = [threeBytes.buffer.handover] :=
    ⟨_, _, Eq.trans (spill_whole (by simp) (by decide) encode_threeBytes rfl (by decide) (by decide)
      (by decide) rfl) rfl, rfl⟩
  obtain ⟨file, journal, spilt, handed⟩ := spilt
  exact ⟨file, journal, Eq.trans (carryOut_of_crashed (by rw [spilt])) (by rw [spilt]), handed⟩

/-- A queue that refuses at once lets the third request overtake: its segment goes back before the second
one of the request that was submitted before it. -/
theorem refused_request_goes_between :
    let other : Item := ⟨⟨⟨.ofList [4, 5], by decide⟩, .pool, .data, 2, false, by decide⟩, 1, 7⟩
    let last := rehearsal.play ⟨fun _ _ => true⟩
      [.submit ⟨[threeBytes]⟩, .submit ⟨[threeBytes, threeBytes]⟩, .carry, .takeUp, .shed .writer,
        .submit ⟨[other]⟩, .shed .caller, .shed .caller, .shed .writer, .shed .writer] rehearsed
    last.overtakers = [2] ∧
      last.session.stage.releases.map (fun release => (release.1, release.2.1)) =
        [threeBytes, threeBytes, other, threeBytes].map fun item => item.buffer.handover := by
  intro other last
  obtain ⟨file, journal, died, handed⟩ := process_rehearsed
  have carried : last = rehearsal.play ⟨fun _ _ => true⟩
      [.takeUp, .shed .writer, .submit ⟨[other]⟩, .shed .caller, .shed .caller, .shed .writer,
        .shed .writer]
      (rehearsal.carry (rehearsal.play ⟨fun _ _ => true⟩
        [.submit ⟨[threeBytes]⟩, .submit ⟨[threeBytes, threeBytes]⟩] rehearsed)) := rfl
  rw [carried, rehearsal.carry_eq rfl rfl died, map_releases]
  refine ⟨rfl, ?_⟩
  show handovers journal ++ [threeBytes.buffer.handover] ++ [other.buffer.handover] ++
    [threeBytes.buffer.handover] = _
  rw [handed]
  rfl

end Surroundings
end Spillway
