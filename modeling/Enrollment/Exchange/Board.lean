import Enrollment.Exchange
namespace Enrollment

/-!
# The board of callbacks

Every exchange has a slot of its own on the board, and its callback is the only
way to write there.  The first use of a callback stands; a use that comes after
its exchange has stopped waiting stays on the board and is never read.
-/

inductive Use
  | deliver (delivery : Delivery)
  | drop

def Use.arrival : Use → Arrival
  | deliver delivery => .delivered delivery
  | drop => .dropped

/-- For every exchange, when its callback was used, and for what. -/
structure Board where
  slots : List (Option (Duration × Use))

namespace Board

def empty : Board := ⟨[]⟩

def next (board : Board) : Nat := board.slots.length

def start (board : Board) : Board := ⟨board.slots ++ [none]⟩

/-- Uses the callback of an exchange at some time, unless it has been used. -/
def use (board : Board) (exchange : Nat) (time : Duration) (use : Use) : Board :=
  ⟨board.slots.modify exchange fun slot ↦ some (slot.getD (time, use))⟩

/-- When the callback of an exchange was used, and for what. -/
def usage? (board : Board) (exchange : Nat) : Option (Duration × Use) :=
  (board.slots[exchange]?).join

/-- A wait that starts at `now` ends by its deadline, but not before it has
looked at what is already there. -/
def cutoff (now deadline : Duration) : Duration := max now deadline

/-- What a wait from `now` to a deadline finds. -/
def arrival (board : Board) (exchange : Nat) (now deadline : Duration) : Arrival :=
  match board.usage? exchange with
  | some (time, use) => if time ≤ cutoff now deadline then use.arrival else .nothing
  | none => .nothing

/-- What becomes of a call: the error its receiver returned, or else what has
come of its callback. -/
def reply (board : Board) (exchange : Nat) (refusal : Option Error) (now deadline : Duration) :
    Reply :=
  match refusal with
  | some error => .rejected error
  | none => .accepted (board.arrival exchange now deadline)

def waitEnds (board : Board) (exchange : Nat) (now deadline : Duration) : Duration :=
  match board.usage? exchange with
  | some (time, _) => min (max now time) (cutoff now deadline)
  | none => cutoff now deadline

/-! ### One slot does not see another -/

theorem usage?_use_of_ne (board : Board) {i j : Nat} (h : i ≠ j) (time : Duration) (u : Use) :
    (board.use i time u).usage? j = board.usage? j := by
  simp [use, usage?, h]

theorem usage?_use_self (board : Board) {i : Nat} (h : i < board.slots.length)
    (time : Duration) (u : Use) :
    (board.use i time u).usage? i = some ((board.usage? i).getD (time, u)) := by
  simp [use, usage?, List.getElem?_eq_getElem h]

theorem usage?_start (board : Board) (j : Nat) : board.start.usage? j = board.usage? j := by
  unfold start usage?
  rw [List.getElem?_append]
  split
  · rfl
  · rename_i h
    rw [List.getElem?_eq_none (Nat.le_of_not_lt h), List.getElem?_singleton]
    split <;> rfl

end Board
end Enrollment
