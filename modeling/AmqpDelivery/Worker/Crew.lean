import AmqpDelivery.Pool.Limiter
import AmqpDelivery.Worker.Basic

/-!
# Workers that share a pool

Several workers hand their deliveries to the limiter of one pool, beside whoever else uses it. A
worker that asks the limiter to let a delivery in makes a submission there. It goes on when its
submission has got a permit, and withdraws it when it no longer waits.
-/

namespace AmqpDelivery

/-- Workers and the limiter of the pool that they share. -/
structure Crew where
  limiter : Limiter
  workers : List Worker
  /-- The submission each worker waits for. -/
  pending : WorkerId → Option TaskId := fun _ => none
  next : TaskId := 0

/-- What happens to a crew. -/
inductive CrewEvent where
  /-- Something happens to a worker. -/
  | within (i : WorkerId) (e : WorkerEvent)
  /-- A worker goes on with the permit of its submission. -/
  | enter (i : WorkerId)
  /-- Someone else makes a submission. -/
  | submit
  /-- A submission of someone else goes on or is withdrawn, or any task ends. -/
  | limiter (e : LimiterEvent)

/-- The event is an answer of the limiter. -/
def WorkerEvent.isFromLimiter : WorkerEvent → Bool
  | .entered _ => true
  | _ => false

namespace Crew

/-- A worker in another state. -/
def setWorker (s : Crew) (i : WorkerId) (w : Worker) : Crew :=
  { s with workers := s.workers.set i w }

/-- Something happens at the limiter. -/
def serve (s : Crew) (e : LimiterEvent) : Crew := { s with limiter := s.limiter.step e }

/-- A worker waits for a submission, or for none. -/
def await (s : Crew) (i : WorkerId) (t : Option TaskId) : Crew :=
  { s with pending := assign s.pending i t }

/-- A submission arrives at the limiter. -/
def submit (s : Crew) : Crew := { s.serve (.submit s.next) with next := s.next + 1 }

/-- Lets the limiter know what a worker asks for. -/
def tell (s : Crew) (i : WorkerId) : WorkerAction → Crew
  | .submit _ _ => s.submit.await i (some s.next)
  | .withdraw =>
      match s.pending i with
      | some t => (s.serve (.withdraw t)).await i none
      | none => s
  | _ => s

/-- Applies an event to a worker and lets the limiter know what it asks for. -/
def within (s : Crew) (i : WorkerId) (e : WorkerEvent) : Crew :=
  match s.workers[i]? with
  | some w =>
      let (w, actions) := w.step e
      actions.foldl (fun s a => s.tell i a) (s.setWorker i w)
  | none => s

/-- The submission of a worker that has got a permit. -/
def admitted? (s : Crew) (i : WorkerId) : Option TaskId :=
  (s.pending i).filter s.limiter.granted.contains

/-- A worker waits for the submission. -/
def isAwaited (s : Crew) (t : TaskId) : Bool :=
  (List.range s.workers.length).any fun i => s.pending i = some t

/-- The event is not for the workers to bring about. -/
def isForeign (s : Crew) : LimiterEvent → Bool
  | .submit _ => false
  | .enter t | .withdraw t => !s.isAwaited t
  | .finish _ | .release _ => true

/-- One event. The answers of the limiter reach the workers only through it. -/
def step (s : Crew) : CrewEvent → Crew
  | .within i e => if e.isFromLimiter then s else s.within i e
  | .enter i =>
      match s.admitted? i with
      | some t => ((s.serve (.enter t)).await i none).within i (.entered (.ok ()))
      | none => s
  | .submit => s.submit
  | .limiter e => if s.isForeign e then s.serve e else s

/-- The crew after a list of events. -/
def run (s : Crew) (events : List CrewEvent) : Crew := events.foldl step s

end Crew

end AmqpDelivery
