import AmqpDelivery.Pool.Basic
import AmqpDelivery.Worker.Basic

/-!
# The engine

The engine keeps the registered consumers, starts a worker for each that is enabled, and shuts all
workers down. The first registration of a name is the one that counts. Starting gathers the
consumers that were not started yet and then, under a lock, spawns their workers one after the
other; shutting down tells every worker to stop and waits until all have.

`Engine.step` makes one such step, so calls that overlap and workers that run meanwhile are lists of
events.
-/

namespace AmqpDelivery

/-- How long a stopping worker waits for its handlers, unless told otherwise. -/
def defaultDrainTimeoutMs : Nat := 30000

/-- A registered consumer; `η` stands for handlers. -/
structure Registration (η : Type) where
  definition : Definition
  handler : η
  state : ConsumerState := .unregistered

/-- A worker, the consumer it works for, and the limiter it submits to. -/
structure Employment where
  consumer : String
  limiter : LimiterId
  worker : Worker

/-- What a task asks of the engine. -/
inductive EngineCall where
  | start
  | shutdown
deriving DecidableEq

/-- Where a call stands. -/
inductive EngineStage where
  | ready (call : EngineCall)
  /-- A start has gathered the workers it is going to spawn and is about to ask for the lock. -/
  | gathered (workers : List Employment)
  /-- A start has panicked while it gathered workers. -/
  | panicked
  /-- It waits for the lock, or has it and is about to spawn the next worker. -/
  | spawning (workers : List Employment)
  /-- A shutdown has told the workers to stop and is about to ask for the lock. -/
  | raised
  /-- It waits for the lock, or has it and is about to take over the workers that were spawned. -/
  | collecting
  /-- A shutdown waits for workers to return. -/
  | joining (workers : List WorkerId)
  | finished

/-- Where a start stands after it has gathered workers, or could not. -/
def EngineStage.afterGathering : Option (List Employment) → EngineStage
  | some workers => .gathered workers
  | none => .panicked

/-- The consumers of a process and their workers. -/
structure Engine (η : Type) where
  settings : Settings := {}
  pools : Pools
  registry : Keyed (Registration η) := Keyed.empty
  /-- The workers were told to stop. -/
  stopping : Bool := false
  workers : List Employment := []
  /-- The workers that no shutdown has taken over. -/
  handles : List WorkerId := []
  /-- The lock of the handles. -/
  lock : FairLock := {}
  calls : TaskId → Option EngineStage := fun _ => none

/-- What happens to an engine. -/
inductive EngineEvent (η : Type) where
  | register (d : Definition) (handler : η)
  | registerConfigured (name : String) (handler : η)
  /-- A call begins. -/
  | spawn (t : TaskId) (call : EngineCall)
  /-- A call goes on. -/
  | proceed (t : TaskId)
  /-- Something happens to a worker. -/
  | within (i : WorkerId) (e : WorkerEvent)

namespace Engine

variable {η : Type}

/-- Registers a consumer, unless its name is taken. -/
def register (s : Engine η) (d : Definition) (handler : η) : Except Failure (Engine η) :=
  match s.registry.get? d.name with
  | some _ => .error (.duplicateConsumer d.name)
  | none => .ok { s with registry := s.registry.insert d.name { definition := d, handler } }

/-- Registers the first consumer of that name in the settings. -/
def registerConfigured (s : Engine η) (name : String) (handler : η) :
    Except Failure (Engine η) :=
  match s.settings.consumers.find? fun c => c.name = name with
  | none => .error (.unknownConsumer name)
  | some c => do s.register (← Definition.ofSettings c) handler

/-- The state of a consumer. -/
def state (s : Engine η) (name : String) : Except Failure ConsumerState :=
  match s.registry.get? name with
  | some r => .ok r.state
  | none => .error (.unknownConsumer name)

/-- Moves a call to another stage. -/
def goto (s : Engine η) (t : TaskId) (stage : EngineStage) : Engine η :=
  { s with calls := assign s.calls t (some stage) }

/-- Moves a consumer to another state, if it may go there. -/
def become (s : Engine η) (name : String) (next : ConsumerState) : Engine η :=
  match s.registry.get? name with
  | some r => { s with registry := s.registry.insert name { r with state := r.state.become next } }
  | none => s

/-- The backoff of a pool's connection; the defaults if it is not configured. -/
def reconnectOf (s : Engine η) (pool : String) : ReconnectSettings :=
  match s.settings.broker pool with
  | .ok b => b.reconnect
  | .error _ => {}

/-- The consumers that a start begins with: enabled, and not started before. -/
def startable (s : Engine η) : List (Registration η) :=
  (s.registry.entries.map Prod.snd).filter fun r =>
    r.state = .unregistered && r.definition.enable.isEnabled

/-- Gathers the worker of a consumer and looks up its limiter. -/
def gather? (s : Engine η) (r : Registration η) : Option (Engine η × Employment) :=
  (s.pools.get? r.definition.pool).map fun (pools, limiter) =>
    ({ s with pools },
      { consumer := r.definition.name
        limiter
        worker := { definition := r.definition, reconnect := s.reconnectOf r.definition.pool } })

/-- Gathers the workers of several consumers, unless the limiter of one cannot be had. -/
def gatherAll (s : Engine η) : List (Registration η) → Engine η × Option (List Employment)
  | [] => (s, some [])
  | r :: rest =>
      match s.gather? r with
      | some (s, worker) =>
          let (s, others) := gatherAll s rest
          (s, others.map (worker :: ·))
      | none => (s, none)

/-- Spawns a gathered worker. -/
def employ (s : Engine η) (e : Employment) : Engine η :=
  let s := s.become e.consumer .declaring
  { s with
    workers := s.workers ++ [{ e with worker := { e.worker with stopping := s.stopping } }]
    handles := s.handles ++ [s.workers.length] }

/-- Applies an event to a worker and moves its consumer as the worker asks. -/
def within (s : Engine η) (i : WorkerId) (e : WorkerEvent) : Engine η × List WorkerAction :=
  match s.workers[i]? with
  | some employment =>
      let (worker, actions) := employment.worker.step e
      let s := { s with workers := s.workers.set i { employment with worker } }
      ((movesOf actions).foldl (fun s next => s.become employment.consumer next) s, actions)
  | none => (s, [])

/-- Tells every worker to stop. -/
def raise (s : Engine η) : Engine η :=
  { s with
    stopping := true
    workers := s.workers.map fun e => { e with worker := (e.worker.step .shutdown).1 } }

/-- The worker has returned. -/
def hasReturned (s : Engine η) (i : WorkerId) : Bool :=
  (s.workers[i]?).any fun e => e.worker.isStopped

/-- A call goes on. -/
def proceed (s : Engine η) (t : TaskId) : EngineStage → Engine η
  | .ready .start =>
      let (s, workers) := s.gatherAll s.startable
      s.goto t (.afterGathering workers)
  | .ready .shutdown => s.raise.goto t .raised
  | .gathered workers => { s.goto t (.spawning workers) with lock := s.lock.acquire t }
  | .raised => { s.goto t .collecting with lock := s.lock.acquire t }
  | .spawning workers =>
      if s.lock.isHeldBy t then
        match workers with
        | e :: rest => (s.employ e).goto t (.spawning rest)
        | [] => { s.goto t .finished with lock := s.lock.release }
      else s
  | .collecting =>
      if s.lock.isHeldBy t then
        { s.goto t (.joining s.handles) with handles := [], lock := s.lock.release }
      else s
  | .joining workers => if workers.all s.hasReturned then s.goto t .finished else s
  | .panicked | .finished => s

/-- The call can go on by itself. -/
def canProceed (s : Engine η) (t : TaskId) : Bool :=
  match s.calls t with
  | some (.ready _) | some (.gathered _) | some .raised => true
  | some (.spawning _) | some .collecting => s.lock.isHeldBy t
  | some (.joining workers) => workers.all s.hasReturned
  | some .panicked | some .finished | none => false

/-- One event. Workers are told to stop by the engine alone. -/
def step (s : Engine η) : EngineEvent η → Engine η
  | .register d handler =>
      match s.register d handler with
      | .ok s => s
      | .error _ => s
  | .registerConfigured name handler =>
      match s.registerConfigured name handler with
      | .ok s => s
      | .error _ => s
  | .spawn t call =>
      match s.calls t with
      | none => s.goto t (.ready call)
      | some _ => s
  | .proceed t =>
      match s.calls t with
      | some stage => s.proceed t stage
      | none => s
  | .within _ .shutdown => s
  | .within i e => (s.within i e).1

/-- The engine after a list of events. -/
def run (s : Engine η) (events : List (EngineEvent η)) : Engine η := events.foldl step s

end Engine

end AmqpDelivery
