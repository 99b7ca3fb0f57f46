import AmqpDelivery.Assign
import AmqpDelivery.Connection.Backoff
import AmqpDelivery.FairLock

/-!
# Connections by pool

Every pool has a cell with its connection. Looking a connection up takes the lock of the cell and
keeps it while the broker is dialed, so that one caller dials and the others wait for the outcome.
Invalidating a pool takes the connection out of the cell unless the lock is held just then, and keeps
the lock until it has invalidated it; closing empties the directory of cells and then goes through
the cells, and lets go of the lock of each before it invalidates the connection from there.

Cells and connections belong to a pool and are numbered within it, so that what happens at one pool
leaves no mark on another.

`Connections.step` moves one call from one locked section to the next, or lets the network act:
an attempt to connect succeeds or fails, a pause ends, a link goes down.
-/

namespace AmqpDelivery

/-- One of the cells that a pool has had. -/
structure CellId where
  pool : String
  number : Nat
deriving DecidableEq

/-- One of the connections that a pool has had. -/
structure ConnectionId where
  pool : String
  number : Nat
deriving DecidableEq

/-- An established connection. -/
structure Link where
  /-- The broker's end is there. -/
  up : Bool := true
  invalidated : Bool := false
deriving DecidableEq

/-- The connection can be used. -/
def Link.isLive (l : Link) : Bool := l.up && !l.invalidated

/-- The place of a pool's connection. -/
structure Cell where
  /-- The number of the connection in the cell. -/
  cached : Option Nat := none
  lock : FairLock := {}
deriving DecidableEq

/-- What a task asks of the connections. -/
inductive ConnectionCall where
  /-- The connection of a pool, dialed if there is none that can be used. -/
  | lookUp (pool : String)
  /-- Forget the connection of a pool. -/
  | invalidate (pool : String)
  /-- Close every connection. -/
  | close
deriving DecidableEq

/-- Where a call stands. -/
inductive ConnectionStage where
  | ready (call : ConnectionCall)
  /-- A look-up has the cell and is about to ask for its lock. -/
  | arriving (cell : CellId)
  /-- It waits for the lock, or has it and is about to look into the cell. -/
  | waiting (cell : CellId)
  /-- It has the lock and an attempt to connect is under way, `failures` having failed. -/
  | dialing (cell : CellId) (failures : UInt32)
  /-- It has the lock and pauses before the next attempt. -/
  | pausing (cell : CellId) (failures : UInt32) (ms : UInt64)
  /-- An invalidation has the cell and is about to try its lock. -/
  | trying (cell : CellId)
  /-- It has the lock and is about to take the connection out. -/
  | dropping (cell : CellId)
  /-- Closing goes through the cells that are left. -/
  | sweeping (cells : List CellId)
  /-- It has the lock of a cell and is about to take the connection out. -/
  | taking (cell : CellId) (rest : List CellId)
  /-- It has taken a connection out of a cell and is about to invalidate it. -/
  | retiring (cell : CellId) (number : Nat) (rest : List CellId)
  /-- It has invalidated a connection and is about to close the link. -/
  | severing (connection : ConnectionId) (rest : List CellId)
  /-- A look-up has ended. -/
  | found (result : Except Failure ConnectionId)
  /-- Another call has ended. -/
  | finished
  /-- The call was dropped. -/
  | dropped

/-- The connections of a process. -/
structure Connections where
  settings : Settings
  /-- The number of the cell in use, for each pool that was looked up since the last time everything
  was closed. -/
  directory : Keyed Nat := Keyed.empty
  cells : CellId → Cell := fun _ => {}
  /-- How many cells each pool has had. -/
  cellsMade : String → Nat := fun _ => 0
  links : ConnectionId → Link := fun _ => { up := false }
  /-- How many connections each pool has had. -/
  linksMade : String → Nat := fun _ => 0
  calls : TaskId → Option ConnectionStage := fun _ => none

/-- One step of a run. -/
inductive ConnectionEvent where
  /-- A call begins. -/
  | spawn (t : TaskId) (call : ConnectionCall)
  /-- A call passes its next locked section. -/
  | proceed (t : TaskId)
  /-- An attempt to connect succeeds or fails. -/
  | dialed (t : TaskId) (result : Except String Unit)
  /-- A pause between attempts is over. -/
  | rested (t : TaskId)
  /-- A call is dropped where it waits. -/
  | drop (t : TaskId)
  /-- The link of a connection goes down. -/
  | hangUp (connection : ConnectionId)
  /-- A connection is invalidated, by its user or because its link was found down. -/
  | discard (connection : ConnectionId)

namespace Connections

/-- Moves a call to another stage. -/
def goto (s : Connections) (t : TaskId) (stage : ConnectionStage) : Connections :=
  { s with calls := assign s.calls t (some stage) }

/-- Changes a cell. -/
def modifyCell (s : Connections) (cell : CellId) (f : Cell → Cell) : Connections :=
  { s with cells := assign s.cells cell (f (s.cells cell)) }

/-- Changes the lock of a cell. -/
def modifyLock (s : Connections) (cell : CellId) (f : FairLock → FairLock) : Connections :=
  s.modifyCell cell fun c => { c with lock := f c.lock }

/-- Changes a connection. -/
def modifyLink (s : Connections) (c : ConnectionId) (f : Link → Link) : Connections :=
  { s with links := assign s.links c (f (s.links c)) }

/-- Marks a connection as unusable. -/
def invalidateLink (s : Connections) (c : ConnectionId) : Connections :=
  s.modifyLink c fun l => { l with invalidated := true }

/-- The cells in use, in the order of their pools. -/
def cellsInUse (s : Connections) : List CellId :=
  s.directory.entries.map fun e => ⟨e.1, e.2⟩

/-- The cell in use for a pool. -/
def cell? (s : Connections) (pool : String) : Option CellId :=
  (s.directory.get? pool).map (CellId.mk pool)

/-- The connection in a cell. -/
def cached? (s : Connections) (cell : CellId) : Option ConnectionId :=
  (s.cells cell).cached.map (ConnectionId.mk cell.pool)

/-- The connection in a cell, if it can be used. -/
def liveCached? (s : Connections) (cell : CellId) : Option ConnectionId :=
  (s.cached? cell).filter fun c => (s.links c).isLive

/-- Takes the connection out of a cell. -/
def emptyCell (s : Connections) (cell : CellId) : Connections :=
  s.modifyCell cell fun x => { x with cached := none }

/-- Marks the connection in a cell as unusable and takes it out. -/
def discardCached (s : Connections) (cell : CellId) : Connections :=
  match s.cached? cell with
  | some c => (s.invalidateLink c).emptyCell cell
  | none => s

/-- The cell of a pool, made if it is missing. -/
def cellOf (s : Connections) (pool : String) : Connections × CellId :=
  match s.cell? pool with
  | some cell => (s, cell)
  | none =>
      let number := s.cellsMade pool
      ({ s with
          directory := s.directory.insert pool number
          cells := assign s.cells ⟨pool, number⟩ {}
          cellsMade := assign s.cellsMade pool (number + 1) }, ⟨pool, number⟩)

/-- Ends a look-up that has the lock. -/
def conclude (s : Connections) (t : TaskId) (cell : CellId)
    (result : Except Failure ConnectionId) : Connections :=
  (s.modifyLock cell FairLock.release).goto t (.found result)

/-- Passes the first section of a call. -/
def start (s : Connections) (t : TaskId) : ConnectionCall → Connections
  | .lookUp pool =>
      match s.settings.broker pool with
      | .error f => s.goto t (.found (.error f))
      | .ok _ =>
          let (s, cell) := s.cellOf pool
          s.goto t (.arriving cell)
  | .invalidate pool =>
      match s.cell? pool with
      | some cell => s.goto t (.trying cell)
      | none => s.goto t .finished
  | .close =>
      { s with directory := Keyed.empty }.goto t (.sweeping s.cellsInUse)

/-- Looks into a cell whose lock is held: a connection that can be used ends the look-up, any other
is discarded and the broker is dialed. -/
def look (s : Connections) (t : TaskId) (cell : CellId) : Connections :=
  match s.liveCached? cell with
  | some c => s.conclude t cell (.ok c)
  | none => (s.discardCached cell).goto t (.dialing cell 0)

/-- Passes the next section of a call at the given stage. -/
def proceed (s : Connections) (t : TaskId) : ConnectionStage → Connections
  | .ready call => s.start t call
  | .arriving cell => (s.modifyLock cell (FairLock.acquire · t)).goto t (.waiting cell)
  | .waiting cell => if (s.cells cell).lock.isHeldBy t then s.look t cell else s
  | .trying cell =>
      match (s.cells cell).lock.tryAcquire? t with
      | some lock => (s.modifyLock cell fun _ => lock).goto t (.dropping cell)
      | none => s.goto t .finished
  | .dropping cell => ((s.discardCached cell).modifyLock cell FairLock.release).goto t .finished
  | .sweeping [] => s.goto t .finished
  | .sweeping (cell :: rest) =>
      match (s.cells cell).lock.tryAcquire? t with
      | some lock => (s.modifyLock cell fun _ => lock).goto t (.taking cell rest)
      | none => s.goto t (.sweeping rest)
  | .taking cell rest =>
      let next : ConnectionStage :=
        match (s.cells cell).cached with
        | some number => .retiring cell number rest
        | none => .sweeping rest
      ((s.emptyCell cell).modifyLock cell FairLock.release).goto t next
  | .retiring cell number rest =>
      let c : ConnectionId := ⟨cell.pool, number⟩
      (s.invalidateLink c).goto t (.severing c rest)
  | .severing c rest => (s.modifyLink c fun l => { l with up := false }).goto t (.sweeping rest)
  | _ => s

/-- The settings of a pool's reconnection; the defaults if the pool has none. -/
def reconnectOf (s : Connections) (pool : String) : ReconnectSettings :=
  match s.settings.broker pool with
  | .ok b => b.reconnect
  | .error _ => {}

/-- Files a new connection in the cell of the look-up that dialed it. -/
def establish (s : Connections) (t : TaskId) (cell : CellId) : Connections :=
  let number := s.linksMade cell.pool
  let c : ConnectionId := ⟨cell.pool, number⟩
  let s := { s with
    links := assign s.links c {}
    linksMade := assign s.linksMade cell.pool (number + 1) }
  (s.modifyCell cell fun x => { x with cached := some number }).conclude t cell (.ok c)

/-- An attempt to connect ends. -/
def dialed (s : Connections) (t : TaskId) (result : Except String Unit) :
    ConnectionStage → Connections
  | .dialing cell failures =>
      match result with
      | .ok _ => s.establish t cell
      | .error text =>
          match afterFailure (s.reconnectOf cell.pool) (failures + 1) text with
          | .giveUp f => s.conclude t cell (.error f)
          | .retryAfter ms => s.goto t (.pausing cell (failures + 1) ms)
  | _ => s

/-- A pause is over. -/
def rested (s : Connections) (t : TaskId) : ConnectionStage → Connections
  | .pausing cell failures _ => s.goto t (.dialing cell failures)
  | _ => s

/-- Drops a look-up where it waits; its place at the lock goes to the next. -/
def drop (s : Connections) (t : TaskId) : ConnectionStage → Connections
  | .ready _ => s.goto t .dropped
  | .waiting cell | .dialing cell _ | .pausing cell _ _ =>
      (s.modifyLock cell (FairLock.leave · t)).goto t .dropped
  | _ => s

/-- Lets `f` act on the stage of a call, if the call is there. -/
def act (s : Connections) (t : TaskId) (f : ConnectionStage → Connections) : Connections :=
  match s.calls t with
  | some stage => f stage
  | none => s

/-- One step of a run. -/
def step (s : Connections) : ConnectionEvent → Connections
  | .spawn t call =>
      match s.calls t with
      | none => s.goto t (.ready call)
      | some _ => s
  | .proceed t => s.act t (s.proceed t)
  | .dialed t result => s.act t (s.dialed t result)
  | .rested t => s.act t (s.rested t)
  | .drop t => s.act t (s.drop t)
  | .hangUp c => s.modifyLink c fun l => { l with up := false }
  | .discard c => s.invalidateLink c

/-- The state after a list of steps. -/
def run (s : Connections) (events : List ConnectionEvent) : Connections := events.foldl step s

/-- What a look-up has found, if it has ended. -/
def found? (s : Connections) (t : TaskId) : Option (Except Failure ConnectionId) :=
  match s.calls t with
  | some (.found result) => some result
  | _ => none

/-- The call goes on no more: it has ended or was dropped. -/
def isOver (s : Connections) (t : TaskId) : Bool :=
  match s.calls t with
  | some (.found _) | some .finished | some .dropped => true
  | _ => false

/-- The call can pass its next section by itself. -/
def canProceed (s : Connections) (t : TaskId) : Bool :=
  match s.calls t with
  | some (.waiting cell) => (s.cells cell).lock.isHeldBy t
  | some (.ready _) | some (.arriving _) | some (.trying _) | some (.dropping _)
  | some (.sweeping _) | some (.taking _ _) | some (.retiring _ _ _) | some (.severing _ _) => true
  | _ => false

end Connections

end AmqpDelivery
