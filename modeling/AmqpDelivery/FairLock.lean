import AmqpDelivery.Task

/-!
# Fair locks

A lock that tasks wait for is granted in the order of arrival: when its holder lets go, it is handed
to the first in the queue, and only a lock that nobody holds can be taken without waiting.
-/

namespace AmqpDelivery

/-- A lock with its holder and the tasks that wait for it. -/
structure FairLock where
  holder : Option TaskId := none
  queue : List TaskId := []
deriving DecidableEq

namespace FairLock

/-- Asks for the lock: it is granted at once if nobody holds it. -/
def acquire (l : FairLock) (t : TaskId) : FairLock :=
  match l.holder with
  | none => { l with holder := some t }
  | some _ => { l with queue := l.queue ++ [t] }

/-- Takes the lock if nobody holds it, and does not wait otherwise. -/
def tryAcquire? (l : FairLock) (t : TaskId) : Option FairLock :=
  match l.holder with
  | none => some { l with holder := some t }
  | some _ => none

/-- Hands the lock to the first in the queue. -/
def release (l : FairLock) : FairLock := { holder := l.queue.head?, queue := l.queue.tail }

/-- A task that holds the lock, or waits for it, goes away. -/
def leave (l : FairLock) (t : TaskId) : FairLock :=
  if l.holder = some t then l.release else { l with queue := l.queue.erase t }

/-- The lock is granted to the task. -/
def isHeldBy (l : FairLock) (t : TaskId) : Bool := l.holder = some t

end FairLock

end AmqpDelivery
