import AmqpDelivery.Simulation.Handler
import AmqpDelivery.Worker.Engine

/-!
# A process without a broker

A world is a process whose network refuses every attempt to connect: an engine with scripted
handlers, its connections and its pools, under a clock of its own. Whatever can happen at a point in
time happens before the clock moves on. The clock moves from alarm to alarm (`World.elapse`), or
jumps and lets every alarm on the way go off at its new time (`World.advance`).
-/

namespace AmqpDelivery

/-- The connections that are asked for directly, and those that an engine made for itself. -/
inductive Manager where
  | shared
  | own
deriving DecidableEq

/-- What an alarm is set for. -/
inductive AlarmTarget where
  /-- A worker has waited long enough. -/
  | worker (i : WorkerId)
  /-- A look-up has paused long enough. -/
  | lookUp (manager : Manager) (t : TaskId)
deriving DecidableEq

/-- Something that will happen at a given time. -/
structure WorldAlarm where
  due : Nat
  target : AlarmTarget

/-- A process. -/
structure World where
  engine : Engine (List HandlerScript)
  /-- The connections that the engine's workers use. -/
  manager : Manager
  connections : Manager → Connections
  /-- Calls of the engine that were made. -/
  engineCalls : List TaskId := []
  /-- Look-ups that have not ended, with the workers that wait for them. -/
  lookUps : List (Manager × TaskId × Option WorkerId) := []
  alarms : List WorldAlarm := []
  now : Nat := 0
  next : TaskId := 0

namespace World

/-- Why every attempt to connect fails. -/
def refusal : String := "connection refused"

/-- A world at its beginning; with `own` set, the engine makes connections of its own. -/
def new (settings : Settings) (own : Bool) : World where
  engine := { settings, pools := { settings := settings.concurrency } }
  manager := if own then .own else .shared
  connections := fun _ => { settings }

/-- Lets something happen at the connections. -/
def connect (w : World) (m : Manager) (e : ConnectionEvent) : World :=
  { w with connections := assign w.connections m ((w.connections m).step e) }

/-- Sets an alarm, at least a millisecond ahead. -/
def setAlarm (w : World) (ms : UInt64) (target : AlarmTarget) : World :=
  { w with alarms := w.alarms ++ [⟨w.now + max 1 ms.toNat, target⟩] }

/-- Begins to look up the connection of a pool. -/
def lookUp (w : World) (m : Manager) (pool : String) (worker : Option WorkerId) :
    World × TaskId :=
  let t := w.next
  let w := w.connect m (.spawn t (.lookUp pool))
  ({ w with next := t + 1, lookUps := w.lookUps ++ [(m, t, worker)] }, t)

/-- Drops a look-up. -/
def dropLookUp (w : World) (m : Manager) (t : TaskId) : World :=
  let w := w.connect m (.drop t)
  { w with lookUps := w.lookUps.filter fun l => l.2.1 ≠ t }

/-- Does what a worker asks for. Without connections it asks for nothing but them and for rest. -/
def perform (w : World) (i : WorkerId) : WorkerAction → World
  | .lookUp pool => (w.lookUp w.manager pool (some i)).1
  | .forgo =>
      (w.lookUps.filter fun l => l.2.2 = some i).foldl (fun w l => w.dropLookUp l.1 l.2.1) w
  | .rest ms => w.setAlarm ms (.worker i)
  | _ => w

/-- Applies an event to a worker and does what it asks for. -/
def tell (w : World) (i : WorkerId) (e : WorkerEvent) : World :=
  let (engine, actions) := w.engine.within i e
  actions.foldl (fun w a => w.perform i a) { w with engine }

/-- A step that a worker can take by itself. -/
def ownStep? (worker : Worker) : Option WorkerEvent :=
  match worker.phase, worker.stopping with
  | .starting, _ | .turning _, _ | .concluding _, _ | .deciding, _ => some .proceed
  | .connecting, true | .reading _, true | .entering _ _, true | .resting _, true => some .notice
  | _, _ => none

/-- A worker that can take a step by itself takes it. -/
def workerTurn? (w : World) : Option World :=
  w.engine.workers.zipIdx.findSome? fun (e, i) => (ownStep? e.worker).map fun step => w.tell i step

/-- A call of the engine that can go on does. -/
def engineTurn? (w : World) : Option World :=
  (w.engineCalls.find? fun t => w.engine.canProceed t).map fun t =>
    { w with engine := w.engine.step (.proceed t) }

/-- What happens to a look-up that does not wait: it goes on, or its attempt to connect fails, or it
has ended and its worker hears of it. -/
def lookUpTurn? (w : World) (l : Manager × TaskId × Option WorkerId) : Option World :=
  let (m, t, worker) := l
  let connections := w.connections m
  if connections.canProceed t then some (w.connect m (.proceed t))
  else
    match connections.calls t, worker with
    | some (.dialing _ _), _ =>
        let w := w.connect m (.dialed t (.error refusal))
        match (w.connections m).calls t with
        | some (.pausing _ _ ms) => some (w.setAlarm ms (.lookUp m t))
        | _ => some w
    | some (.found result), some i =>
        let w := { w with lookUps := w.lookUps.filter fun l => l.2.1 ≠ t }
        some (w.tell i (.connected result))
    | _, _ => none

/-- Something that can happen now. -/
def turn? (w : World) : Option World :=
  match w.engineTurn?, w.workerTurn? with
  | some w, _ => some w
  | none, some w => some w
  | none, none => w.lookUps.findSome? w.lookUpTurn?

/-- Lets happen what can happen now. -/
def settle : Nat → World → World
  | 0, w => w
  | fuel + 1, w =>
      match w.turn? with
      | some w => settle fuel w
      | none => w

/-- Lets happen what can happen now: every worker, look-up and call takes a few steps before it
waits. -/
def settled (w : World) : World :=
  settle (64 * (w.engine.registry.entries.length + w.engine.workers.length + w.lookUps.length
    + w.engineCalls.length + 1)) w

/-- Lets an alarm go off. -/
def sound (w : World) : AlarmTarget → World
  | .worker i => w.tell i .rested
  | .lookUp m t => w.connect m (.rested t)

/-- The earliest alarm due by `time`, the first set among equal ones, with the others. -/
def earliest (time : Nat) : List WorldAlarm → Option (WorldAlarm × List WorldAlarm)
  | [] => none
  | a :: rest =>
      match earliest time rest with
      | some (b, others) => if a.due ≤ b.due then some (a, rest) else some (b, a :: others)
      | none => if a.due ≤ time then some (a, rest) else none

/-- Jumps to a later time and lets every alarm on the way go off there. -/
def soundAll (time : Nat) : Nat → World → World
  | 0, w => w
  | fuel + 1, w =>
      match earliest time w.alarms with
      | some (a, alarms) => soundAll time fuel (({ w with alarms }.sound a.target).settled)
      | none => w

/-- Lets the clock jump. -/
def advance (w : World) (ms : Nat) : World :=
  soundAll (w.now + ms) w.alarms.length { w with now := w.now + ms }

/-- Moves from alarm to alarm until `goal` is reached or `time` is over. -/
def elapseUntil (goal : World → Bool) (time : Nat) : Nat → World → World
  | 0, w => w
  | fuel + 1, w =>
      if goal w then w
      else
        match earliest time w.alarms with
        | some (a, alarms) =>
            elapseUntil goal time fuel (({ w with alarms, now := a.due }.sound a.target).settled)
        | none => { w with now := time }

/-- Moves on for at most `ms` milliseconds until `goal` is reached. Every alarm sets at most one
other, which is later. -/
def await (w : World) (ms : Nat) (goal : World → Bool) : World × Bool :=
  let fuel := (ms + 2) * (w.engine.workers.length + w.lookUps.length + w.alarms.length + 1)
  let w := elapseUntil goal (w.now + ms) fuel w
  (w, goal w)

/-- Lets time pass. -/
def elapse (w : World) (ms : Nat) : World := (w.await ms fun _ => false).1

/-- Begins a call of the engine. -/
def call (w : World) (c : EngineCall) : World × TaskId :=
  let t := w.next
  ({ w with
      engine := w.engine.step (.spawn t c)
      engineCalls := w.engineCalls ++ [t]
      next := t + 1 }, t)

/-- A call of the engine has ended. -/
def hasEnded (w : World) (t : TaskId) : Bool :=
  match w.engine.calls t with
  | some .finished => true
  | _ => false

/-- Forgets the connection of a pool. -/
def invalidate (w : World) (pool : String) : World :=
  let t := w.next
  let w := w.connect .shared (.spawn t (.invalidate pool))
  { w with next := t + 1, lookUps := w.lookUps ++ [(.shared, t, none)] }

/-- Closes every connection. -/
def close (w : World) : World :=
  let t := w.next
  let w := w.connect .shared (.spawn t .close)
  { w with next := t + 1, lookUps := w.lookUps ++ [(.shared, t, none)] }

/-- A call of the engine has panicked. -/
def hasPanicked (w : World) (t : TaskId) : Bool :=
  match w.engine.calls t with
  | some .panicked => true
  | _ => false

/-- The limiter of a pool. -/
def limiter? (w : World) (pool : String) : Option (World × Limiter) :=
  (w.engine.pools.get? pool).map fun (pools, id) =>
    ({ w with engine := { w.engine with pools } }, pools.limiters id)

end World

end AmqpDelivery
