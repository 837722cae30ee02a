import Snooping.Rows

/-! A queue of keys by deadline, with one registration per key that can be cancelled. -/
namespace Snooping.Expiry

/-- When a key is due. Serial numbers settle equal deadlines in order of registration. -/
structure Ticket where
  deadline : Nat
  serial : Nat
deriving DecidableEq

def Ticket.before (a b : Ticket) : Bool :=
  a.deadline < b.deadline || a.deadline == b.deadline && a.serial < b.serial

/-- Two views of the same registrations: sorted by ticket, and looked up by key. -/
structure Queue (κ : Type) where
  agenda : List (Ticket × κ)
  tickets : Rows κ Ticket
  nextSerial : Nat

/-- Places an item behind every item that is before it. -/
def place (t : Ticket) (k : κ) : List (Ticket × κ) → List (Ticket × κ)
  | [] => [(t, k)]
  | item :: rest =>
    if t.before item.1 then (t, k) :: item :: rest else item :: place t k rest

/-- Takes the item with this ticket off. -/
def strike (t : Ticket) (agenda : List (Ticket × κ)) : List (Ticket × κ) :=
  agenda.filter fun item => item.1 ≠ t

namespace Queue

variable {κ : Type} [DecidableEq κ]

def empty : Queue κ := ⟨[], .empty, 0⟩

/-- Registers `k`, replacing a registration it has. -/
def insert (q : Queue κ) (k : κ) (deadline : Nat) : Queue κ :=
  let ticket : Ticket := ⟨deadline, q.nextSerial⟩
  let agenda :=
    match q.tickets.find? k with
    | some old => strike old q.agenda
    | none => q.agenda
  ⟨place ticket k agenda, q.tickets.insert k ticket, q.nextSerial + 1⟩

def contains (q : Queue κ) (k : κ) : Bool := q.tickets.contains k

def deadline? (q : Queue κ) (k : κ) : Option Nat := (q.tickets.find? k).map (·.deadline)

def remove (q : Queue κ) (k : κ) : Queue κ :=
  match q.tickets.find? k with
  | some t => { q with agenda := strike t q.agenda, tickets := q.tickets.erase k }
  | none => q

/-- Takes the earliest key off if its deadline has been reached. -/
def popExpired? (q : Queue κ) (now : Nat) : Option (κ × Queue κ) :=
  match q.agenda with
  | [] => none
  | (t, k) :: rest =>
    if now < t.deadline then none
    else some (k, { q with agenda := rest, tickets := q.tickets.erase k })

def nextDeadline? (q : Queue κ) : Option Nat := q.agenda.head?.map (·.1.deadline)

def hasExpired (q : Queue κ) (now : Nat) : Bool :=
  match q.nextDeadline? with
  | some d => d ≤ now
  | none => false

theorem deadline?_insert (q : Queue κ) (k k' : κ) (d : Nat) :
    (q.insert k d).deadline? k' = if k' = k then some d else q.deadline? k' := by
  simp only [deadline?, insert, Rows.find?_insert]
  split <;> rfl

theorem deadline?_remove (q : Queue κ) (k k' : κ) :
    (q.remove k).deadline? k' = if k' = k then none else q.deadline? k' := by
  unfold remove deadline?
  split
  · rw [Rows.find?_erase]
    split <;> rfl
  · split <;> simp_all

def size (q : Queue κ) : Nat := q.tickets.size

def isEmpty (q : Queue κ) : Bool := q.tickets.isEmpty

end Queue
end Snooping.Expiry
