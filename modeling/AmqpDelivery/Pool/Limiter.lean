import AmqpDelivery.Task

/-!
# Limiters

A limiter bounds how many tasks of a pool run at the same time. A submission takes a permit or
queues for one; permits are handed over in the order of arrival. A task that ends, in whatever way,
first leaves the count of running tasks and then returns its permit, which goes to the first in the
queue. A submission that is withdrawn while it waits leaves the queue, and one that is withdrawn
with a permit in hand returns it. The limit zero means that there is no limit. There is no limiter
with more than `maxPermits` permits.

`Limiter.step` makes one such move, so every interleaving of submitters and tasks is a list of
events.
-/

namespace AmqpDelivery

/-- The limit that stands for none. -/
def unlimited : UInt64 := 0

/-- The greatest number of permits. -/
def maxPermits : UInt64 := 0x1FFFFFFFFFFFFFFF

/-- The limiter of a pool. -/
structure Limiter where
  name : String
  limit : UInt64
  /-- Permits that nobody holds. -/
  available : Nat
  /-- Submissions without a permit, the longest waiting first. -/
  waiting : List TaskId := []
  /-- Submissions that hold a permit and have not gone on yet. -/
  granted : List TaskId := []
  /-- Tasks that run. -/
  running : List TaskId := []
  /-- Tasks that have ended and still hold their permit. -/
  leaving : List TaskId := []
  /-- The count of running tasks. -/
  inFlight : Nat := 0

/-- What happens to a submission. -/
inductive LimiterEvent where
  /-- It arrives. -/
  | submit (t : TaskId)
  /-- Holding a permit, it is counted and starts its task. -/
  | enter (t : TaskId)
  /-- It is dropped before its task has started. -/
  | withdraw (t : TaskId)
  /-- Its task ends: it finishes, panics or is aborted. -/
  | finish (t : TaskId)
  /-- Its task returns the permit. -/
  | release (t : TaskId)
deriving DecidableEq

namespace Limiter

/-- A limiter that nobody uses yet. -/
def new (name : String) (limit : UInt64) : Limiter :=
  { name, limit, available := limit.toNat }

/-- Nothing is limited. -/
def isUnlimited (l : Limiter) : Bool := l.limit = unlimited

/-- A submission would have to wait. -/
def isFull (l : Limiter) : Bool := !l.isUnlimited && l.available = 0

/-- A submission has arrived and its task has not ended. -/
def isAlive (l : Limiter) (t : TaskId) : Bool :=
  l.waiting.contains t || l.granted.contains t || l.running.contains t

/-- The permits that are held. -/
def held (l : Limiter) : Nat := l.granted.length + l.running.length + l.leaving.length

/-- A permit comes back: it goes to the first in the queue, or is free if nobody waits. -/
def returnPermit (l : Limiter) : Limiter :=
  if l.isUnlimited then l
  else
    match l.waiting with
    | t :: rest => { l with waiting := rest, granted := l.granted ++ [t] }
    | [] => { l with available := l.available + 1 }

/-- A submission arrives: it gets a permit that is free, or waits behind the others. -/
def submit (l : Limiter) (t : TaskId) : Limiter :=
  if l.isUnlimited then { l with granted := l.granted ++ [t] }
  else if l.available = 0 then { l with waiting := l.waiting ++ [t] }
  else { l with available := l.available - 1, granted := l.granted ++ [t] }

/-- One event. Events that do not fit where the submission stands change nothing. -/
def step (l : Limiter) : LimiterEvent → Limiter
  | .submit t => l.submit t
  | .enter t =>
      if l.granted.contains t then
        { l with
          granted := l.granted.erase t
          running := l.running ++ [t]
          inFlight := l.inFlight + 1 }
      else l
  | .withdraw t =>
      if l.waiting.contains t then { l with waiting := l.waiting.erase t }
      else if l.granted.contains t then { l with granted := l.granted.erase t }.returnPermit
      else l
  | .finish t =>
      if l.running.contains t then
        { l with
          running := l.running.erase t
          leaving := l.leaving ++ [t]
          inFlight := l.inFlight - 1 }
      else l
  | .release t =>
      if l.leaving.contains t then { l with leaving := l.leaving.erase t }.returnPermit else l

/-- The limiter after a list of events. -/
def run (l : Limiter) (events : List LimiterEvent) : Limiter := events.foldl step l

end Limiter

end AmqpDelivery
