import AmqpDelivery.Assign
import AmqpDelivery.FairLock
import AmqpDelivery.Failure

/-!
# Channels of a connection

A connection keeps track of the channels opened on it, filed under the ids that the broker gave
them, and refuses to open more than its bound. Entries of channels that are no longer connected are
forgotten when the next channel is opened. Opening and releasing take the lock of the table and keep
it while they wait for the broker.
-/

namespace AmqpDelivery

/-- The identity of a channel, which unlike its id is never used twice. -/
abbrev ChannelRef := Nat

/-- A channel. -/
structure Channel where
  id : UInt16
  connected : Bool
deriving DecidableEq

/-- What a task asks of the table. -/
inductive ChannelRequest where
  /-- Open a channel. -/
  | openNew
  /-- Close a channel and forget its entry. -/
  | release (channel : ChannelRef)
  /-- Forget every entry, when the connection is closed. -/
  | clear
deriving DecidableEq

/-- Where a request stands. -/
inductive ChannelStage where
  /-- It waits for the lock, or has it and is about to go on. -/
  | waiting (request : ChannelRequest)
  /-- It has the lock and waits for the broker to open a channel. -/
  | opening
  /-- It has the lock and waits for the broker to close a channel. -/
  | closing (channel : ChannelRef)
  /-- A channel was opened or refused. -/
  | opened (result : Except Failure ChannelRef)
  /-- Another request has ended. -/
  | finished

/-- The channels of one connection. -/
structure ChannelTable where
  /-- The greatest number of channels. -/
  bound : UInt16
  channels : ChannelRef → Channel := fun _ => ⟨0, false⟩
  made : Nat := 0
  /-- The channels kept track of, by id. -/
  entries : List (UInt16 × ChannelRef) := []
  lock : FairLock := {}
  requests : TaskId → Option ChannelStage := fun _ => none

/-- One step of a run. -/
inductive ChannelEvent where
  /-- A request begins. -/
  | spawn (t : TaskId) (request : ChannelRequest)
  /-- A request goes on once it has the lock. -/
  | proceed (t : TaskId)
  /-- The broker opens a channel under an id, or refuses to. -/
  | answered (t : TaskId) (id : Option UInt16)
  /-- The broker has closed the channel of a release. -/
  | closed (t : TaskId)
  /-- A channel is closed from outside, by the broker or with its connection. -/
  | lose (channel : ChannelRef)
deriving DecidableEq

namespace ChannelTable

/-- Moves a request to another stage. -/
def goto (s : ChannelTable) (t : TaskId) (stage : ChannelStage) : ChannelTable :=
  { s with requests := assign s.requests t (some stage) }

/-- Ends a request and hands the lock on. -/
def conclude (s : ChannelTable) (t : TaskId) (stage : ChannelStage) : ChannelTable :=
  { s.goto t stage with lock := s.lock.release }

/-- The channel is connected. -/
def isConnected (s : ChannelTable) (c : ChannelRef) : Bool := (s.channels c).connected

/-- Marks a channel as closed. -/
def disconnect (s : ChannelTable) (c : ChannelRef) : ChannelTable :=
  { s with channels := assign s.channels c { s.channels c with connected := false } }

/-- Forgets the entries of channels that are no longer connected. -/
def prune (s : ChannelTable) : ChannelTable :=
  { s with entries := s.entries.filter fun e => s.isConnected e.2 }

/-- Forgets the entry under an id. -/
def forget (s : ChannelTable) (id : UInt16) : ChannelTable :=
  { s with entries := s.entries.filter fun e => e.1 ≠ id }

/-- The channels that are connected. -/
def open? (s : ChannelTable) : List ChannelRef := (List.range s.made).filter s.isConnected

/-- A connected channel has the id. -/
def uses (s : ChannelTable) (id : UInt16) : Bool := s.open?.any fun c => (s.channels c).id = id

/-- Files a new channel. -/
def file (s : ChannelTable) (id : UInt16) : ChannelTable × ChannelRef :=
  let s := s.forget id
  ({ s with
      channels := assign s.channels s.made ⟨id, true⟩
      made := s.made + 1
      entries := (id, s.made) :: s.entries }, s.made)

/-- A request that has the lock goes on. -/
def serve (s : ChannelTable) (t : TaskId) : ChannelRequest → ChannelTable
  | .openNew =>
      let s := s.prune
      if s.bound.toNat ≤ s.entries.length then
        s.conclude t (.opened (.error (.capacity s.bound)))
      else s.goto t .opening
  | .release c =>
      let s := s.forget (s.channels c).id
      if s.isConnected c then s.goto t (.closing c) else s.conclude t .finished
  | .clear => { s with entries := [] }.conclude t .finished

/-- One step of a run. The broker never gives an id that a connected channel has. -/
def step (s : ChannelTable) : ChannelEvent → ChannelTable
  | .spawn t request =>
      match s.requests t with
      | none => { s.goto t (.waiting request) with lock := s.lock.acquire t }
      | some _ => s
  | .proceed t =>
      match s.requests t with
      | some (.waiting request) => if s.lock.isHeldBy t then s.serve t request else s
      | _ => s
  | .answered t id =>
      match s.requests t, id with
      | some .opening, some id =>
          if s.uses id then s
          else
            let (s, c) := s.file id
            s.conclude t (.opened (.ok c))
      | some .opening, none => s.conclude t (.opened (.error .channelRefused))
      | _, _ => s
  | .closed t =>
      match s.requests t with
      | some (.closing c) => (s.disconnect c).conclude t .finished
      | _ => s
  | .lose c => s.disconnect c

/-- The table after a list of steps. -/
def run (s : ChannelTable) (events : List ChannelEvent) : ChannelTable := events.foldl step s

end ChannelTable

end AmqpDelivery
