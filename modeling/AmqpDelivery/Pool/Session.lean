import AmqpDelivery.Pool.Basic

/-!
# Sessions with pools

A session submits tasks to limiters and tells them how to end. A task starts as soon as its
submission has a permit, and ends once it is told to, which may be before it starts. After every
request all that can happen does, each permit going on to the next submission within the same
request.
-/

namespace AmqpDelivery

/-- How a task is told to end. -/
inductive TaskEnding where
  | finish
  | panic
deriving DecidableEq

/-- What became of a task. -/
inductive PoolNotice where
  | admitted (t : TaskId)
  | started (t : TaskId)
  | ended (t : TaskId) (ending : TaskEnding)
  /-- It was dropped before its end. -/
  | dropped (t : TaskId)
deriving DecidableEq

/-- Pools, the limiter of every task, what the tasks were told, and what became of them. -/
structure PoolSession where
  pools : Pools
  /-- The submitted tasks with their limiters. -/
  tasks : List (TaskId × LimiterId) := []
  told : List (TaskId × TaskEnding) := []
  notices : List PoolNotice := []
  next : TaskId := 0

namespace PoolSession

/-- Adds a notice. -/
def note (s : PoolSession) (n : PoolNotice) : PoolSession := { s with notices := s.notices ++ [n] }

/-- The limiter that a task was submitted to. -/
def limiterOf? (s : PoolSession) (t : TaskId) : Option Limiter :=
  (s.tasks.lookup t).map s.pools.limiters

/-- Lets something happen at a task's limiter. -/
def apply (s : PoolSession) (t : TaskId) (e : LimiterEvent) : PoolSession :=
  match s.tasks.lookup t with
  | some id => { s with pools := s.pools.within id e }
  | none => s

/-- A task stands in the given list of its limiter. -/
def stands (s : PoolSession) (place : Limiter → List TaskId) (t : TaskId) : Bool :=
  (s.limiterOf? t).any fun l => (place l).contains t

/-- A task that stands in the given list of its limiter. -/
def standing? (s : PoolSession) (place : Limiter → List TaskId) : Option TaskId :=
  (s.tasks.map Prod.fst).find? (s.stands place)

/-- A running task that was told how to end. -/
def ending? (s : PoolSession) : Option (TaskId × TaskEnding) :=
  s.told.find? fun e => s.stands Limiter.running e.1

/-- Something that can happen by itself: a task returns its permit, ends as it was told, or
starts. -/
def turn? (s : PoolSession) : Option PoolSession :=
  match s.standing? Limiter.leaving, s.ending?, s.standing? Limiter.granted with
  | some t, _, _ => some (s.apply t (.release t))
  | none, some (t, ending), _ => some ((s.apply t (.finish t)).note (.ended t ending))
  | none, none, some t => some (((s.apply t (.enter t)).note (.admitted t)).note (.started t))
  | none, none, none => none

/-- Lets happen what can happen by itself. -/
def settle : Nat → PoolSession → PoolSession
  | 0, s => s
  | fuel + 1, s =>
      match s.turn? with
      | some s => settle fuel s
      | none => s

/-- Lets happen what can happen by itself: each task starts, ends and returns its permit at most
once. -/
def settled (s : PoolSession) : PoolSession := settle (3 * s.tasks.length + 1) s

/-- Submits a new task. -/
def submit (s : PoolSession) (id : LimiterId) : PoolSession × TaskId :=
  let t := s.next
  let s := { s with tasks := s.tasks ++ [(t, id)], next := t + 1 }
  (s.apply t (.submit t), t)

/-- Tells a task how to end. Yields whether it was still there, and nothing for a task that was told
before. -/
def tell (s : PoolSession) (t : TaskId) (ending : TaskEnding) : PoolSession × Option Bool :=
  if (s.told.lookup t).isSome then (s, none)
  else
    ({ s with told := s.told ++ [(t, ending)] },
      some ((s.limiterOf? t).any fun l => l.isAlive t))

/-- Aborts a running task. -/
def abort (s : PoolSession) (t : TaskId) : PoolSession :=
  if s.stands Limiter.running t then (s.apply t (.finish t)).note (.dropped t) else s

/-- Drops the submission of a task that has not started. -/
def cancel (s : PoolSession) (t : TaskId) : PoolSession :=
  if s.stands Limiter.waiting t || s.stands Limiter.granted t then
    (s.apply t (.withdraw t)).note (.dropped t)
  else s

end PoolSession

end AmqpDelivery
