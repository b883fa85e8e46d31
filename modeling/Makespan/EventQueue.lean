import Makespan.Error

/-! Future events in order of time. Events of one time keep the order in which they were
scheduled. -/

namespace Makespan

structure EventQueue (α : Type) where
  /-- What is still to come, the next event first. -/
  pending : List (Time × α) := []

namespace EventQueue

variable {α : Type}

def empty : EventQueue α := ⟨[]⟩

instance : Inhabited (EventQueue α) := ⟨empty⟩

/-- Puts an event behind every event that is not later. -/
def place (time : Time) (event : α) : List (Time × α) → List (Time × α)
  | [] => [(time, event)]
  | e :: rest =>
    if e.1.rank ≤ time.rank then e :: place time event rest else (time, event) :: e :: rest

def schedule (q : EventQueue α) (time : Time) (event : α) : EventQueue α :=
  ⟨place time event q.pending⟩

/-- Takes the next event. -/
def pop? (q : EventQueue α) : Option (Time × α × EventQueue α) :=
  match q.pending with
  | [] => none
  | (time, event) :: rest => some (time, event, ⟨rest⟩)

/-- The time of the next event. -/
def peek? (q : EventQueue α) : Option Time := q.pending.head?.map (·.1)

def size (q : EventQueue α) : Nat := q.pending.length

def isEmpty (q : EventQueue α) : Bool := q.pending.isEmpty

end EventQueue

end Makespan
