import AmqpDelivery.Failure
import AmqpDelivery.Task

/-!
# Slots

A slot hands one value at a time from whoever has it to whoever waits for it. It holds at most one
value, and once it is closed nothing goes in or out any more, not even a value that was inside. A
waiter registers before it looks, so that a wake-up between its look and its sleep is not lost.
-/

namespace AmqpDelivery.Rendezvous

/-- The identity of a slot. -/
abbrev SlotId := Nat

/-- A task registered at a slot, and whether a wake-up has reached it since. -/
structure Waiter where
  task : TaskId
  woken : Bool
deriving DecidableEq

/-- A place for one value. -/
structure Slot (α : Type) where
  value : Option α := none
  closed : Bool := false
  waiters : List Waiter := []

namespace Slot

variable {α : Type}

/-- Puts a value in. -/
def offer (s : Slot α) (value : α) : Except Failure (Slot α) :=
  if s.closed then .error .closed
  else
    match s.value with
    | some _ => .error .full
    | none => .ok { s with value := some value }

/-- What a waiter that looks gets at once: a failure or the value. There is no answer while the
slot is open and empty. -/
def take? (s : Slot α) : Option (Except Failure α × Slot α) :=
  if s.closed then some (.error .closed, s)
  else s.value.map fun value => (.ok value, { s with value := none })

/-- Closes the slot for good. -/
def shut (s : Slot α) : Slot α := { s with closed := true }

/-- Registers a waiter behind the others. -/
def register (s : Slot α) (t : TaskId) : Slot α :=
  { s with waiters := s.waiters ++ [⟨t, false⟩] }

/-- Strikes a waiter from the list. -/
def forget (s : Slot α) (t : TaskId) : Slot α :=
  { s with waiters := s.waiters.filter fun w => w.task ≠ t }

/-- Sends a wake-up to every registered waiter. -/
def wakeAll (s : Slot α) : Slot α :=
  { s with waiters := s.waiters.map fun w => { w with woken := true } }

/-- A wake-up has reached the waiter. -/
def hasWoken (s : Slot α) (t : TaskId) : Bool := s.waiters.any fun w => w.task = t && w.woken

theorem offer_eq_ok_iff {s r : Slot α} {v : α} :
    s.offer v = .ok r ↔ s.closed = false ∧ s.value = none ∧ r = { s with value := some v } := by
  unfold offer
  cases hc : s.closed <;> cases hv : s.value <;> simp [eq_comm]

end Slot

end AmqpDelivery.Rendezvous
