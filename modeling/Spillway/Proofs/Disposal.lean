import Spillway.Proofs.Session
/-!
Runs of a spooler whose writer dies bit by bit. What waits behind a request that crashed is let go on the
writer's thread, one buffer after the other, and the caller may submit more while this goes on. What the
queue refuses comes back to the caller, who lets it go, again one buffer after the other. A `Scene` is
where such a run has come to, and `Surroundings.Shows` has every scene of every run. Beside a writer that
lives nobody lets anything go, so its steps are whole ones here too. The sessions of
`Surroundings.Reaches` are the scenes of the runs in which nobody comes in between (`Reaches.shows`).
-/

namespace Spillway

/-- Those who let buffers go: the writer's thread, and the caller. -/
inductive Party where
  | writer
  | caller
  deriving DecidableEq

/-- An order that is being let go. -/
structure Remnant where
  order : Order
  /-- The buffers that have not gone yet. -/
  left : List Buffer
  /-- A pool has crashed over one that has gone. -/
  crashed : Bool

/-- An order of which nothing has gone yet. -/
def Remnant.of (order : Order) : Remnant := ⟨order, order.request.buffers, false⟩

/-- The queue between the caller and the writer, as far as its behaviour is left open: whether it refuses
the request with a ticket that comes when the writer is dead and its thread still holds some orders. What
it does not refuse is let go after those. -/
structure Channel where
  refuses : (ticket : Nat) → (held : List Order) → Bool

namespace Channel

/-- A queue is disconnected once its receiving end has been dropped, with all that this still held: until
then nothing is refused. -/
def Prompt (channel : Channel) : Prop :=
  ∀ ticket held, channel.refuses ticket held = true → held = []

/-- Once the receiving end holds nothing any more, everything is refused. -/
def Closes (channel : Channel) : Prop := ∀ ticket, channel.refuses ticket [] = true

/-- The queue that refuses what comes when nothing is left to let go, and nothing before. -/
def orderly : Channel := ⟨fun _ held => held.isEmpty⟩

theorem prompt_orderly : orderly.Prompt := fun _ _ refused => List.isEmpty_iff.mp refused

theorem closes_orderly : orderly.Closes := fun _ => rfl

end Channel

/-- Where a run of a spooler has come to. The queue of a writer that is dead is what its thread has yet
to let go. -/
structure Scene (σ π : Type) where
  session : Session σ π
  /-- What each party is letting go. -/
  hands : Party → Option Remnant
  /-- The tickets of the requests that came back to the caller. -/
  refusals : List Nat
  /-- The tickets of those that came back while the thread of a dead writer still held others. -/
  overtakers : List Nat
  /-- The journal, and whose doing each event is. -/
  told : List (Party × Event σ)

/-- A single thing that happens. -/
inductive Happening where
  /-- The caller submits a request. -/
  | submit (request : Request)
  /-- The writer, which is alive, carries out the oldest request. -/
  | carry
  /-- The thread of a dead writer takes up the oldest order that it still holds. -/
  | takeUp
  /-- A party lets the next buffer go, or is done with an order. -/
  | shed (party : Party)
  /-- The spooler is given up. -/
  | leave (ending : Ending)

namespace Scene

variable {σ π : Type}

/-- The scene of a session in which nobody is letting anything go. -/
def ofSession (s : Session σ π) : Scene σ π :=
  ⟨s, fun _ => none, [], [], s.stage.journal.map (Party.writer, ·)⟩

/-- What a party has done. -/
def deedsOf (party : Party) (scene : Scene σ π) : List (Event σ) :=
  (scene.told.filter fun event => event.1 = party).map Prod.snd

/-- The orders that a dead writer's thread has yet to let go. -/
def held (scene : Scene σ π) : List Order :=
  ((scene.hands .writer).map Remnant.order).toList ++ scene.session.spooler.queue

/-- The scene once a party has made `after` of its session. -/
def become (party : Party) (after : Session σ π) (scene : Scene σ π) : Scene σ π :=
  let before := scene.session.stage.journal
  let new := after.stage.journal.take (after.stage.journal.length - before.length)
  { scene with session := after, told := new.map (party, ·) ++ scene.told }

/-- The scene with something else in the hand of a party. -/
def put (party : Party) (hand : Option Remnant) (scene : Scene σ π) : Scene σ π :=
  { scene with hands := fun p => if p = party then hand else scene.hands p }

/-- The thread of a dead writer takes up the oldest order that is left. -/
def takeUp (scene : Scene σ π) : Scene σ π :=
  let s := scene.session
  match s.spooler.alive, scene.hands .writer, s.spooler.queue with
  | false, none, order :: later =>
    { scene.put .writer (some (.of order)) with
      session := { s with spooler := { s.spooler with queue := later } } }
  | _, _, _ => scene

/-- The spooler is given up, once nobody has anything left to do. -/
def leave (ending : Ending) (scene : Scene σ π) : Scene σ π :=
  if scene.held = [] ∧ scene.hands .caller = none then
    scene.become .caller (scene.session.leave ending)
  else scene

@[simp] theorem session_become (party : Party) (after : Session σ π) (scene : Scene σ π) :
    (scene.become party after).session = after := rfl

@[simp] theorem hands_become (party : Party) (after : Session σ π) (scene : Scene σ π) :
    (scene.become party after).hands = scene.hands := rfl

@[simp] theorem refusals_become (party : Party) (after : Session σ π) (scene : Scene σ π) :
    (scene.become party after).refusals = scene.refusals := rfl

@[simp] theorem overtakers_become (party : Party) (after : Session σ π) (scene : Scene σ π) :
    (scene.become party after).overtakers = scene.overtakers := rfl

@[simp] theorem session_put (party : Party) (hand : Option Remnant) (scene : Scene σ π) :
    (scene.put party hand).session = scene.session := rfl

@[simp] theorem told_put (party : Party) (hand : Option Remnant) (scene : Scene σ π) :
    (scene.put party hand).told = scene.told := rfl

@[simp] theorem refusals_put (party : Party) (hand : Option Remnant) (scene : Scene σ π) :
    (scene.put party hand).refusals = scene.refusals := rfl

@[simp] theorem overtakers_put (party : Party) (hand : Option Remnant) (scene : Scene σ π) :
    (scene.put party hand).overtakers = scene.overtakers := rfl

@[simp] theorem deedsOf_put (party other : Party) (hand : Option Remnant) (scene : Scene σ π) :
    (scene.put party hand).deedsOf other = scene.deedsOf other := rfl

@[simp] theorem hands_put (party : Party) (hand : Option Remnant) (scene : Scene σ π) :
    (scene.put party hand).hands = fun p => if p = party then hand else scene.hands p := rfl

theorem takeUp_eq {scene : Scene σ π} {order : Order} {later : List Order}
    (dead : scene.session.spooler.alive = false) (idle : scene.hands .writer = none)
    (queued : scene.session.spooler.queue = order :: later) :
    scene.takeUp =
      { scene.put .writer (some (.of order)) with
        session := { scene.session with spooler := { scene.session.spooler with queue := later } } } := by
  simp only [takeUp, dead, idle, queued]

end Scene

namespace Surroundings

variable {σ π : Type} (env : Surroundings σ π)

/-- The caller submits a request, unless it has another one in hand. -/
def present (channel : Channel) (request : Request) (scene : Scene σ π) : Scene σ π :=
  let s := scene.session
  let order : Order := ⟨s.submitted.length, request⟩
  if (scene.hands .caller).isSome then scene
  else if request.items.isEmpty || s.spooler.alive then scene.become .caller (env.hand request s)
  else if channel.refuses order.ticket scene.held then
    { scene.put .caller (some (.of order)) with
      session := { s with submitted := s.submitted ++ [request] }
      refusals := scene.refusals ++ [order.ticket]
      overtakers := scene.overtakers ++ if scene.held.isEmpty then [] else [order.ticket] }
  else
    { scene with
      session := { s with
        submitted := s.submitted ++ [request]
        spooler := { s.spooler with queue := s.spooler.queue ++ [order] } } }

/-- A living writer carries out the oldest request. If it dies over it, those behind it stay in the
queue. -/
def carry (scene : Scene σ π) : Scene σ π :=
  let s := scene.session
  match s.spooler.alive, s.spooler.queue with
  | true, order :: later =>
    let verdict := env.process order.request s.spooler.writer s.stage
    let stage := verdict.stage.reply order.ticket (verdict.reply?.getD (.error .closed))
    scene.become .writer { s with
      spooler := ⟨verdict.writer, verdict.reply?.isSome, later⟩
      stage := stage
      errands := s.errands ++ [⟨order, stage.calls.drop s.stage.calls.length⟩] }
  | _, _ => scene

/-- A party lets the next buffer of its order go. When there is none left, the order is answered, unless
a pool crashed over it under the caller. -/
def shed (party : Party) (scene : Scene σ π) : Scene σ π :=
  let s := scene.session
  match scene.hands party with
  | none => scene
  | some ⟨order, buffer :: left, crashed⟩ =>
    let released := env.release buffer s.stage
    (scene.become party { s with stage := released.2 }).put party
      (some ⟨order, left, crashed || released.1⟩)
  | some ⟨order, [], crashed⟩ =>
    let after :=
      if party = .caller ∧ crashed = true then { s with crashed := s.crashed ++ [order.ticket] }
      else { s with stage := s.stage.reply order.ticket (.error .closed) }
    (scene.become party after).put party none

def happen (channel : Channel) : Happening → Scene σ π → Scene σ π
  | .submit request, scene => env.present channel request scene
  | .carry, scene => env.carry scene
  | .takeUp, scene => scene.takeUp
  | .shed party, scene => env.shed party scene
  | .leave ending, scene => scene.leave ending

def play (channel : Channel) (happenings : List Happening) (scene : Scene σ π) : Scene σ π :=
  happenings.foldl (fun scene happening => env.happen channel happening scene) scene

/-- The scenes that a run comes to which begins on a file. -/
inductive Shows (channel : Channel) (settings : Settings) (file : σ) (pool : π) :
    Scene σ π → Prop
  | start {spooler : Spooler} {stage : Stage σ π}
      (started : env.start settings (.start file pool) = (.done spooler, stage)) :
      Shows channel settings file pool (.ofSession (.fresh spooler stage))
  | step {scene : Scene σ π} (happening : Happening) (shown : Shows channel settings file pool scene) :
      Shows channel settings file pool (env.happen channel happening scene)

theorem hand_of_empty {request : Request} (empty : request.items.isEmpty = true) (s : Session σ π) :
    env.hand request s =
      { s with
        stage := s.stage.reply s.submitted.length (.ok [])
        submitted := s.submitted ++ [request] } := by
  simp [hand, submit, empty]

theorem hand_of_alive {request : Request} {s : Session σ π} (some : request.items.isEmpty = false)
    (alive : s.spooler.alive = true) :
    env.hand request s =
      { s with
        spooler := { s.spooler with queue := s.spooler.queue ++ [⟨s.submitted.length, request⟩] }
        submitted := s.submitted ++ [request] } := by
  simp [hand, submit, some, alive]

theorem present_taken {channel : Channel} {request : Request} {scene : Scene σ π}
    (free : scene.hands .caller = none)
    (taken : (request.items.isEmpty || scene.session.spooler.alive) = true) :
    env.present channel request scene = scene.become .caller (env.hand request scene.session) := by
  simp only [present, free, Option.isSome_none, Bool.false_eq_true, if_false, taken, if_true]

theorem present_refused {channel : Channel} {request : Request} {scene : Scene σ π}
    (free : scene.hands .caller = none)
    (untaken : ¬ (request.items.isEmpty || scene.session.spooler.alive) = true)
    (refused : channel.refuses scene.session.submitted.length scene.held = true) :
    env.present channel request scene =
      { scene.put .caller (some (.of ⟨scene.session.submitted.length, request⟩)) with
        session := { scene.session with submitted := scene.session.submitted ++ [request] }
        refusals := scene.refusals ++ [scene.session.submitted.length]
        overtakers := scene.overtakers ++
          if scene.held.isEmpty then [] else [scene.session.submitted.length] } := by
  simp only [present, free, Option.isSome_none, Bool.false_eq_true, if_false, untaken, refused,
    if_true]

theorem present_held {channel : Channel} {request : Request} {scene : Scene σ π}
    (free : scene.hands .caller = none)
    (untaken : ¬ (request.items.isEmpty || scene.session.spooler.alive) = true)
    (kept : ¬ channel.refuses scene.session.submitted.length scene.held = true) :
    env.present channel request scene =
      { scene with
        session := { scene.session with
          submitted := scene.session.submitted ++ [request]
          spooler := { scene.session.spooler with
            queue := scene.session.spooler.queue ++ [⟨scene.session.submitted.length, request⟩] } } } := by
  simp only [present, free, Option.isSome_none, Bool.false_eq_true, if_false, untaken, kept]

theorem carry_eq {scene : Scene σ π} {order : Order} {later : List Order} {verdict : Verdict σ π}
    (alive : scene.session.spooler.alive = true)
    (queued : scene.session.spooler.queue = order :: later)
    (processed : env.process order.request scene.session.spooler.writer scene.session.stage = verdict) :
    env.carry scene =
      let stage := verdict.stage.reply order.ticket (verdict.reply?.getD (.error .closed))
      scene.become .writer { scene.session with
        spooler := ⟨verdict.writer, verdict.reply?.isSome, later⟩
        stage := stage
        errands := scene.session.errands ++
          [⟨order, stage.calls.drop scene.session.stage.calls.length⟩] } := by
  simp only [carry, alive, queued, processed]

theorem shed_buffer {party : Party} {scene : Scene σ π} {order : Order} {buffer : Buffer}
    {left : List Buffer} {crashed : Bool}
    (hand : scene.hands party = some ⟨order, buffer :: left, crashed⟩) :
    env.shed party scene =
      (scene.become party
        { scene.session with stage := (env.release buffer scene.session.stage).2 }).put party
          (some ⟨order, left, crashed || (env.release buffer scene.session.stage).1⟩) := by
  simp only [shed, hand]

theorem shed_answer {party : Party} {scene : Scene σ π} {order : Order} {crashed : Bool}
    (hand : scene.hands party = some ⟨order, [], crashed⟩) (calm : party = .caller → crashed = false) :
    env.shed party scene =
      (scene.become party { scene.session with
        stage := scene.session.stage.reply order.ticket (.error .closed) }).put party none := by
  simp only [shed, hand]
  rw [if_neg]
  rintro ⟨caller, crash⟩
  rw [calm caller] at crash
  cases crash

theorem shed_crash {scene : Scene σ π} {order : Order}
    (hand : scene.hands .caller = some ⟨order, [], true⟩) :
    env.shed .caller scene =
      (scene.become .caller { scene.session with
        crashed := scene.session.crashed ++ [order.ticket] }).put .caller none := by
  simp [shed, hand]

/-- Only what the queue refuses while others are held overtakes. -/
theorem overtakers_happen (channel : Channel) (happening : Happening) (scene : Scene σ π) :
    ∃ new, (env.happen channel happening scene).overtakers = scene.overtakers ++ new ∧
      (new ≠ [] → scene.held ≠ [] ∧
        channel.refuses scene.session.submitted.length scene.held = true) := by
  have same : ∀ {after : Scene σ π}, after.overtakers = scene.overtakers →
      ∃ new, after.overtakers = scene.overtakers ++ new ∧
        (new ≠ [] → scene.held ≠ [] ∧
          channel.refuses scene.session.submitted.length scene.held = true) := fun same =>
    ⟨[], by rw [same, List.append_nil], fun some => absurd rfl some⟩
  cases happening with
  | submit request =>
    by_cases busy : (scene.hands .caller).isSome = true
    · exact same (by simp [Surroundings.happen, present, busy])
    have free : scene.hands .caller = none := by simpa using busy
    by_cases taken : (request.items.isEmpty || scene.session.spooler.alive) = true
    · exact same (by rw [Surroundings.happen, present_taken env free taken]; rfl)
    by_cases refused : channel.refuses scene.session.submitted.length scene.held = true
    · rw [Surroundings.happen, present_refused env free taken refused]
      exact ⟨_, rfl, fun some => ⟨fun nothing => some (by simp [nothing]), refused⟩⟩
    · exact same (by rw [Surroundings.happen, present_held env free taken refused])
  | carry =>
    refine same ?_
    simp only [Surroundings.happen, carry]
    split <;> rfl
  | takeUp =>
    refine same ?_
    simp only [Surroundings.happen, Scene.takeUp]
    split <;> rfl
  | shed party =>
    refine same ?_
    simp only [Surroundings.happen, shed]
    split <;> rfl
  | leave ending =>
    refine same ?_
    simp only [Surroundings.happen, Scene.leave]
    split <;> rfl

/-! ## Runs in which nobody comes in between -/

@[simp] theorem calls_release (buffer : Buffer) (stage : Stage σ π) :
    (env.release buffer stage).2.calls = stage.calls := by
  simp only [Stage.calls, Stage.events, Pool.journal_release]
  split <;> simp

@[simp] theorem calls_releaseAll (buffers : List Buffer) (stage : Stage σ π) :
    (env.releaseAll buffers stage).2.calls = stage.calls := by
  induction buffers generalizing stage with
  | nil => rfl
  | cons buffer rest ih => simp [Pool.releaseAll, ih]

@[simp] theorem calls_reply (stage : Stage σ π) (ticket : Nat) (reply : Reply) :
    (stage.reply ticket reply).calls = stage.calls := by
  simp [Stage.calls, Stage.events, Stage.reply, Stage.record]

@[simp] theorem calls_abandon (orders : List Order) (stage : Stage σ π) :
    (env.abandon orders stage).calls = stage.calls := by
  induction orders generalizing stage with
  | nil => rfl
  | cons order later ih => simp [abandon, ih]

variable {env} {channel : Channel} {settings : Settings} {file : σ} {pool : π}

theorem Shows.play {scene : Scene σ π} (shown : env.Shows channel settings file pool scene)
    (happenings : List Happening) :
    env.Shows channel settings file pool (env.play channel happenings scene) := by
  induction happenings generalizing scene with
  | nil => exact shown
  | cons happening later ih => exact ih (.step happening shown)

/-- With a prompt queue nothing overtakes. -/
theorem Shows.no_overtakers {scene : Scene σ π}
    (shown : env.Shows channel settings file pool scene) (prompt : channel.Prompt) :
    scene.overtakers = [] := by
  induction shown with
  | start started => rfl
  | @step scene happening shown calm =>
    obtain ⟨new, overtakers, refused⟩ := env.overtakers_happen channel happening scene
    rw [overtakers, calm, List.nil_append]
    cases new with
    | nil => rfl
    | cons ticket rest =>
      obtain ⟨held, refuses⟩ := refused (List.cons_ne_nil _ _)
      exact absurd (prompt _ _ refuses) held

/-- Everything that is left in the hand of a party goes if nobody comes in between. -/
theorem Shows.empties {scene : Scene σ π} (shown : env.Shows channel settings file pool scene)
    {party : Party} {order : Order} {left : List Buffer} {crashed : Bool}
    (hand : scene.hands party = some ⟨order, left, crashed⟩) :
    ∃ after, env.Shows channel settings file pool after ∧
      after.session = { scene.session with stage := (env.releaseAll left scene.session.stage).2 } ∧
      after.hands = fun p => if p = party then
        some ⟨order, [], crashed || (env.releaseAll left scene.session.stage).1⟩ else scene.hands p := by
  induction left generalizing scene crashed with
  | nil =>
    refine ⟨scene, shown, rfl, funext fun p => ?_⟩
    by_cases own : p = party
    · simp [own, hand, Pool.releaseAll]
    · simp [own]
  | cons buffer left ih =>
    have next := shown.step (.shed party)
    rw [happen, env.shed_buffer hand] at next
    obtain ⟨after, shown, session, hands⟩ := ih next (if_pos rfl)
    refine ⟨after, shown, session, hands.trans (funext fun p => ?_)⟩
    by_cases own : p = party <;> simp [own, Pool.releaseAll, Bool.or_assoc]

/-- What a dead writer's thread still holds goes as in `abandon` if nobody comes in between. -/
theorem Shows.disposes {scene : Scene σ π} (shown : env.Shows channel settings file pool scene)
    (dead : scene.session.spooler.alive = false) (idle : scene.hands = fun _ => none) :
    ∃ after, env.Shows channel settings file pool after ∧
      after.session = { scene.session with
        spooler := ⟨scene.session.spooler.writer, false, []⟩
        stage := env.abandon scene.session.spooler.queue scene.session.stage } ∧
      after.hands = fun _ => none := by
  generalize queued : scene.session.spooler.queue = orders
  induction orders generalizing scene with
  | nil =>
    refine ⟨scene, shown, ?_, idle⟩
    simp only [← dead, ← queued, abandon]
  | cons order later ih =>
    have taken := shown.step .takeUp
    rw [happen, Scene.takeUp_eq dead (by rw [idle]) queued] at taken
    obtain ⟨empty, shown, session, hands⟩ :=
      taken.empties (show _ = some (Remnant.of order) from if_pos rfl)
    have hand := congrFun hands .writer
    rw [if_pos rfl] at hand
    have answered := shown.step (.shed .writer)
    rw [happen, env.shed_answer hand (by simp)] at answered
    obtain ⟨after, shown, session', hands'⟩ := ih answered (by simp [session, dead])
      (by
        funext p
        cases p <;> simp [hands, idle])
      (by simp [session])
    refine ⟨after, shown, ?_, hands'⟩
    simp [session', session, abandon]

theorem Shows.submits {scene : Scene σ π} (shown : env.Shows channel settings file pool scene)
    (closes : channel.Closes) (orderly : scene.session.Orderly)
    (idle : scene.hands = fun _ => none) (request : Request) :
    ∃ after, env.Shows channel settings file pool after ∧
      after.session = env.hand request scene.session ∧ after.hands = fun _ => none := by
  have next := shown.step (.submit request)
  have free : scene.hands .caller = none := by rw [idle]
  by_cases taken : (request.items.isEmpty || scene.session.spooler.alive) = true
  · rw [happen, env.present_taken free taken] at next
    exact ⟨_, next, rfl, idle⟩
  · obtain ⟨some_items, dead⟩ : request.items.isEmpty = false ∧ scene.session.spooler.alive = false := by
      simpa using taken
    have nothing : scene.held = [] := by simp [Scene.held, idle, orderly.dead_queue dead]
    rw [happen, env.present_refused free taken (by rw [nothing, closes])] at next
    obtain ⟨empty, shown, session, hands⟩ := next.empties
      (show _ = some (Remnant.of ⟨scene.session.submitted.length, request⟩) from if_pos rfl)
    have left := congrFun hands .caller
    rw [if_pos rfl, Bool.false_or] at left
    have ended := shown.step (.shed .caller)
    have idle' : (empty.put .caller none).hands = fun _ => none := by
      funext p
      cases p <;> simp [hands, idle]
    cases crash : (env.releaseAll request.buffers scene.session.stage).1 with
    | true =>
      rw [crash] at left
      rw [happen, env.shed_crash left] at ended
      refine ⟨_, ended, ?_, idle'⟩
      simp [session, Surroundings.hand, submit, some_items, dead, crash]
    | false =>
      rw [crash] at left
      rw [happen, env.shed_answer left (by simp)] at ended
      refine ⟨_, ended, ?_, idle'⟩
      simp [session, Surroundings.hand, submit, some_items, dead, crash]

/-- A step of the writer, with everything that it leaves behind if it dies. -/
theorem Shows.works {scene : Scene σ π} (shown : env.Shows channel settings file pool scene)
    (orderly : scene.session.Orderly) (idle : scene.hands = fun _ => none) :
    ∃ after, env.Shows channel settings file pool after ∧
      after.session = env.work scene.session ∧ after.hands = fun _ => none := by
  cases queued : scene.session.spooler.queue with
  | nil =>
    refine ⟨scene, shown, ?_, idle⟩
    simp [work, env.step_nil queued, queued]
  | cons order later =>
    have alive := orderly.alive_of_queue (by simp [queued])
    have next := shown.step .carry
    cases verdict : env.process order.request scene.session.spooler.writer scene.session.stage with
    | mk reply? writer after =>
      rw [happen, env.carry_eq alive queued verdict] at next
      cases reply? with
      | some reply =>
        refine ⟨_, next, ?_, idle⟩
        simp [env.work_of_reply queued verdict, alive]
      | none =>
        obtain ⟨last, shown, session, hands⟩ := next.disposes rfl idle
        refine ⟨last, shown, ?_, hands⟩
        simp [session, env.work_of_death queued verdict]

/-- Every session is a scene in which nobody is letting anything go. -/
theorem Reaches.shows {s : Session σ π} (closes : channel.Closes)
    (reached : env.Reaches settings file pool s) :
    ∃ scene, env.Shows channel settings file pool scene ∧ scene.session = s ∧
      scene.hands = fun _ => none := by
  have worked : ∀ (n : Nat) (s : Session σ π), env.Reaches settings file pool s →
      (∃ scene, env.Shows channel settings file pool scene ∧ scene.session = s ∧
        scene.hands = fun _ => none) →
      ∃ scene, env.Shows channel settings file pool scene ∧ scene.session = env.workOff n s ∧
        scene.hands = fun _ => none := by
    intro n
    induction n with
    | zero => exact fun s _ shown => shown
    | succ n later =>
      rintro s reached ⟨scene, shown, rfl, idle⟩
      exact later _ (.act .step reached) (shown.works reached.orderly idle)
  induction reached with
  | start started => exact ⟨_, .start started, rfl, rfl⟩
  | @act s act reached ih =>
    obtain ⟨scene, shown, rfl, idle⟩ := ih
    cases act with
    | submit request => exact shown.submits closes reached.orderly idle request
    | forget ticket => exact ⟨scene, shown, rfl, idle⟩
    | step => exact shown.works reached.orderly idle
  | @finish s ending reached ih =>
    obtain ⟨scene, shown, session, idle⟩ := worked s.spooler.queue.length s reached ih
    have nothing : scene.held = [] := by
      simp [Scene.held, idle, session, env.queue_workOff s]
    have left := shown.step (.leave ending)
    rw [happen, Scene.leave, if_pos ⟨nothing, by rw [idle]⟩] at left
    exact ⟨_, left, by rw [Scene.session_become, session, finish_eq_leave], idle⟩

end Surroundings
end Spillway
