import Spillway.Journal
/-!
Buffers kept under numbers. A buffer leaves the shelf by being released, and one that is put in the
place of another has the other released.
-/

namespace Spillway

/-- Buffers by number, in ascending order. -/
structure Shelf where
  slots : List (Nat × Buffer)
  deriving Repr

namespace Shelf

def empty : Shelf := ⟨[]⟩

def get? (shelf : Shelf) (number : Nat) : Option Buffer := shelf.slots.lookup number

/-- The slots with one more, behind those with smaller numbers. -/
def insertSlot (number : Nat) (buffer : Buffer) : List (Nat × Buffer) → List (Nat × Buffer)
  | [] => [(number, buffer)]
  | slot :: rest =>
    if number < slot.1 then (number, buffer) :: slot :: rest
    else if number = slot.1 then (number, buffer) :: rest
    else slot :: insertSlot number buffer rest

/-- The shelf with a buffer under a number, in place of the one that had it. -/
def insert (shelf : Shelf) (number : Nat) (buffer : Buffer) : Shelf :=
  ⟨insertSlot number buffer shelf.slots⟩

def erase (shelf : Shelf) (number : Nat) : Shelf :=
  ⟨shelf.slots.filter fun slot => slot.1 != number⟩

/-- The buffers, by ascending number. -/
def buffers (shelf : Shelf) : List Buffer := shelf.slots.map Prod.snd

end Shelf

namespace Pool

variable {σ π : Type}

/-- Puts a buffer on the shelf. The one that had its number is released afterwards. -/
def put (pool : Pool π) (number : Nat) (buffer : Buffer) (shelf : Shelf) (stage : Stage σ π) :
    Bool × Shelf × Stage σ π :=
  match shelf.get? number with
  | none => (false, shelf.insert number buffer, stage)
  | some old =>
    let released := pool.release old stage
    (released.1, shelf.insert number buffer, released.2)

/-- Releases a buffer of the shelf, if there is one with this number. -/
def remove (pool : Pool π) (number : Nat) (shelf : Shelf) (stage : Stage σ π) :
    Option (Bool × Shelf × Stage σ π) :=
  (shelf.get? number).map fun buffer =>
    let released := pool.release buffer stage
    (released.1, shelf.erase number, released.2)

end Pool
end Spillway
