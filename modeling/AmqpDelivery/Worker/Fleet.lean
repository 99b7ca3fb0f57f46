import AmqpDelivery.Worker.Basic

/-!
# Workers that share a connection

Several workers open their channels on one connection. What a worker asks of the table of channels
becomes a request there, and the outcome of the request is the answer that the worker waits for.
-/

namespace AmqpDelivery

/-- Workers and the channels of the connection that they share. -/
structure Fleet where
  table : ChannelTable
  workers : List Worker
  /-- The request each worker waits for. -/
  pending : WorkerId → Option TaskId := fun _ => none
  next : TaskId := 0

/-- What happens to a fleet. -/
inductive FleetEvent where
  /-- Something happens to a worker. -/
  | within (i : WorkerId) (e : WorkerEvent)
  /-- A request goes on, or a channel is lost. -/
  | table (e : ChannelEvent)
  /-- A worker receives the outcome of its request. -/
  | deliver (i : WorkerId)

namespace Fleet

/-- The request that an action makes of the table. -/
def requestOf? : WorkerAction → Option ChannelRequest
  | .openChannel _ => some .openNew
  | .release c => some (.release c)
  | _ => none

/-- Makes a request for a worker. -/
def request (s : Fleet) (i : WorkerId) (r : ChannelRequest) : Fleet :=
  { s with
    table := s.table.step (.spawn s.next r)
    pending := assign s.pending i (some s.next)
    next := s.next + 1 }

/-- Applies an event to a worker and makes the requests that it asks for. -/
def within (s : Fleet) (i : WorkerId) (e : WorkerEvent) : Fleet :=
  match s.workers[i]? with
  | some w =>
      let (w, actions) := w.step e
      (actions.filterMap requestOf?).foldl (fun s r => s.request i r)
        { s with workers := s.workers.set i w }
  | none => s

/-- The answer that a finished request is for the worker. -/
def outcome? (s : Fleet) (i : WorkerId) : Option WorkerEvent := do
  match ← s.table.requests (← s.pending i) with
  | .opened result => some (.opened result)
  | .finished => some .released
  | _ => none

/-- One event. The answers of the table reach the workers only through it. -/
def step (s : Fleet) : FleetEvent → Fleet
  | .within _ (.opened _) | .within _ .released => s
  | .within i e => s.within i e
  | .table (.spawn _ _) => s
  | .table e => { s with table := s.table.step e }
  | .deliver i =>
      match s.outcome? i with
      | some e => { s with pending := assign s.pending i none }.within i e
      | none => s

/-- The fleet after a list of events. -/
def run (s : Fleet) (events : List FleetEvent) : Fleet := events.foldl step s

end Fleet

end AmqpDelivery
