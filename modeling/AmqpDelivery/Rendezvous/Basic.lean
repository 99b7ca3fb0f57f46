import AmqpDelivery.Assign
import AmqpDelivery.Rendezvous.Slot

/-!
# Rendezvous by id

Slots are filed under 64-bit ids. Any number of tasks look slots up, push into them, wait at them,
close them and remove them; a request makes its slot, publishes, waits for the reply and removes the
slot again. Closing everything empties the file for good, so that nothing is left to wait for.

`State.step` moves one task from one locked section to the next, or lets time, a timer, an answer to
a publication or a cancellation act on it, and `State.run` makes a list of such steps. Any
interleaving of the tasks is such a list.
-/

namespace AmqpDelivery.Rendezvous

variable {α : Type}

/-- What a task is asked to do. -/
inductive Call (α : Type) where
  /-- Find the slot of `id`, and make it if it is missing and `create` is set. -/
  | get (id : UInt64) (create : Bool)
  /-- Put a value into the slot of `id`. -/
  | push (id : UInt64) (value : α)
  /-- Hand over a reply: one without an id is dropped, any other is pushed. -/
  | route (id : Option UInt64) (value : α)
  /-- Wait for the value of `id`, for a time if one is given. -/
  | wait (id : UInt64) (timeoutMs : Option Nat)
  /-- Make the slot of `id`, publish, wait for the reply, remove the slot. -/
  | request (id : UInt64) (timeoutMs : Nat)
  /-- Make no request, since there is no connection to make it on, and fail at once. -/
  | decline
  /-- Remove the slot of `id` and close it. -/
  | close (id : UInt64)
  /-- Remove the slot of `id` and leave it open. -/
  | remove (id : UInt64)
  /-- Remove and close every slot, and make none any more. -/
  | closeAll
  /-- Make a slot that is filed nowhere. -/
  | slotNew
  /-- Put a value into a slot at hand. -/
  | slotPush (slot : SlotId) (value : α)
  /-- Wait for the value of a slot at hand. -/
  | slotPop (slot : SlotId)
  /-- Close a slot at hand. -/
  | slotClose (slot : SlotId)

/-- How a task ended. -/
inductive Outcome (α : Type) where
  /-- There is nothing to tell. -/
  | done
  /-- The slot that was found, made or removed. -/
  | slot (slot : Option SlotId)
  /-- Whether the value went in. -/
  | pushed (result : Except Failure Unit)
  /-- The value that was waited for. -/
  | received (result : Except Failure α)

/-- On whose behalf a task waits. -/
inductive Caller where
  /-- It waits at a slot at hand. -/
  | pop
  /-- It waits for an id, whose slot is removed if the time runs out. -/
  | wait (id : UInt64)
  /-- It waits for the reply to a request, whose slot is removed in every case. -/
  | request (id : UInt64)
deriving DecidableEq

/-- A wait: for whom, where, and until when. -/
structure Wait where
  caller : Caller
  slot : SlotId
  deadline : Option Nat
deriving DecidableEq

/-- The id that a wait removes when its time runs out. -/
def Wait.id? (w : Wait) : Option UInt64 :=
  match w.caller with
  | .pop => none
  | .wait id | .request id => some id

/-- Where a task stands between two of its locked sections. -/
inductive Stage (α : Type) where
  /-- It has not begun. -/
  | ready (call : Call α)
  /-- It has found the slot and is about to put the value in. -/
  | storing (slot : SlotId) (value : α)
  /-- It has put a value in and is about to wake the waiters. -/
  | announcing (slot : SlotId)
  /-- It has the slots that it is about to close, one after the other. -/
  | shutting (slots : List SlotId)
  /-- It has closed a slot and is about to wake the waiters there. -/
  | rousing (slot : SlotId) (rest : List SlotId)
  /-- The slot of the request is there and the publication is under way. -/
  | publishing (id : UInt64) (timeoutMs : Nat)
  /-- The request is published and is about to look up its slot. -/
  | seeking (id : UInt64) (timeoutMs : Nat)
  /-- It is about to register at the slot. -/
  | listening (w : Wait)
  /-- It has registered and is about to look at the slot. -/
  | checking (w : Wait)
  /-- It found nothing and sleeps until it is woken or the time runs out. -/
  | parked (w : Wait)
  /-- Its time has run out and it is about to remove the id. -/
  | overdue (id : UInt64) (caller : Caller)
  /-- The request has its outcome and is about to remove its id. -/
  | leaving (id : UInt64) (result : Except Failure α)
  /-- It has ended. -/
  | finished (outcome : Outcome α)
  /-- It was dropped before its end. -/
  | dropped

/-- The slots, the file of ids, and the tasks. -/
structure State (α : Type) where
  slots : SlotId → Slot α
  /-- How many slots there are; they have the identities below this number. -/
  made : Nat
  /-- The slot that each id is filed under. -/
  index : List (UInt64 × SlotId)
  closed : Bool
  /-- The stage of every task that was begun. -/
  tasks : TaskId → Option (Stage α)
  /-- The time in milliseconds. -/
  now : Nat

/-- One step of a run. -/
inductive Event (α : Type) where
  /-- A task that was not there before is begun. -/
  | spawn (t : TaskId) (call : Call α)
  /-- A task passes its next locked section. -/
  | proceed (t : TaskId)
  /-- The publication of a request is answered. -/
  | published (t : TaskId) (result : Except Failure Unit)
  /-- The timer of a sleeping task fires. -/
  | expire (t : TaskId)
  /-- A task is dropped where it waits. -/
  | drop (t : TaskId)
  /-- Time passes. -/
  | advance (ms : Nat)

namespace State

/-- No slots, no ids, no tasks. -/
def empty : State α where
  slots := fun _ => {}
  made := 0
  index := []
  closed := false
  tasks := fun _ => none
  now := 0

/-- The slot filed under `id`. -/
def find? (s : State α) (id : UInt64) : Option SlotId := s.index.lookup id

/-- How many ids are filed. -/
def size (s : State α) : Nat := s.index.length

/-- Takes `id` out of the file. -/
def unfile (s : State α) (id : UInt64) : State α :=
  { s with index := s.index.filter fun e => e.1 ≠ id }

/-- Moves a task to another stage. -/
def goto (s : State α) (t : TaskId) (stage : Stage α) : State α :=
  { s with tasks := assign s.tasks t (some stage) }

/-- Changes a slot. -/
def modify (s : State α) (slot : SlotId) (f : Slot α → Slot α) : State α :=
  { s with slots := assign s.slots slot (f (s.slots slot)) }

/-- Makes a new slot. -/
def make (s : State α) : State α × SlotId :=
  ({ s with slots := assign s.slots s.made {}, made := s.made + 1 }, s.made)

/-- Finds the slot of `id`, which is made if it is missing and `create` is set. There is none once
everything was closed. -/
def get (s : State α) (id : UInt64) (create : Bool) : State α × Option SlotId :=
  if s.closed then (s, none)
  else
    match s.find? id, create with
    | some slot, _ => (s, some slot)
    | none, false => (s, none)
    | none, true =>
        let (s, slot) := s.make
        ({ s with index := (id, slot) :: s.index }, some slot)

/-- Ends a wait: a request still has to remove its id. -/
def conclude (s : State α) (t : TaskId) (caller : Caller) (result : Except Failure α) : State α :=
  match caller with
  | .request id => s.goto t (.leaving id result)
  | _ => s.goto t (.finished (.received result))

/-- Begins to wait at the slot of `id`, if there is one. -/
def await (s : State α) (t : TaskId) (id : UInt64) (caller : Caller) (timeoutMs : Option Nat) :
    State α :=
  match (s.get id false).2 with
  | some slot => s.goto t (.listening ⟨caller, slot, timeoutMs.map (s.now + ·)⟩)
  | none => s.conclude t caller (.error .closed)

/-- Looks up the slot that a value goes into. -/
def aim (s : State α) (t : TaskId) (id : UInt64) (value : α) : State α :=
  match (s.get id false).2 with
  | some slot => s.goto t (.storing slot value)
  | none => s.goto t (.finished (.pushed (.error .closed)))

/-- Passes the first locked section of a call. -/
def start (s : State α) (t : TaskId) : Call α → State α
  | .get id create =>
      let (s, slot) := s.get id create
      s.goto t (.finished (.slot slot))
  | .push id value => s.aim t id value
  | .route none _ => s.goto t (.finished .done)
  | .route (some id) value => s.aim t id value
  | .wait id timeoutMs => s.await t id (.wait id) timeoutMs
  | .request id timeoutMs =>
      match s.get id true with
      | (s, some _) => s.goto t (.publishing id timeoutMs)
      | (s, none) => s.goto t (.finished (.received (.error .closed)))
  | .decline => s.goto t (.finished (.received (.error .closed)))
  | .close id => (s.unfile id).goto t (.shutting (s.find? id).toList)
  | .remove id => (s.unfile id).goto t (.finished (.slot (s.find? id)))
  | .closeAll =>
      { s with index := [], closed := true }.goto t (.shutting (s.index.map Prod.snd))
  | .slotNew =>
      let (s, slot) := s.make
      s.goto t (.finished (.slot (some slot)))
  | .slotPush slot value => s.goto t (.storing slot value)
  | .slotPop slot => s.goto t (.listening ⟨.pop, slot, none⟩)
  | .slotClose slot => s.goto t (.shutting [slot])

/-- Passes the next locked section of a task at the given stage. A task that sleeps unwoken, waits
for its publication or has ended stays as it is. -/
def proceed (s : State α) (t : TaskId) : Stage α → State α
  | .ready call => s.start t call
  | .storing slot value =>
      match (s.slots slot).offer value with
      | .ok filled => (s.modify slot fun _ => filled).goto t (.announcing slot)
      | .error failure => s.goto t (.finished (.pushed (.error failure)))
  | .announcing slot => (s.modify slot Slot.wakeAll).goto t (.finished (.pushed (.ok ())))
  | .shutting [] => s.goto t (.finished .done)
  | .shutting (slot :: rest) => (s.modify slot Slot.shut).goto t (.rousing slot rest)
  | .rousing slot rest => (s.modify slot Slot.wakeAll).goto t (.shutting rest)
  | .seeking id timeoutMs => s.await t id (.request id) (some timeoutMs)
  | .listening w => (s.modify w.slot (Slot.register · t)).goto t (.checking w)
  | .checking w =>
      match (s.slots w.slot).take? with
      | some (result, slot) =>
          (s.modify w.slot fun _ => slot.forget t).conclude t w.caller result
      | none => s.goto t (.parked w)
  | .parked w =>
      if (s.slots w.slot).hasWoken t then
        (s.modify w.slot (Slot.forget · t)).goto t (.listening w)
      else s
  | .overdue id caller => (s.unfile id).conclude t caller (.error .timeout)
  | .leaving id result => (s.unfile id).goto t (.finished (.received result))
  | .publishing _ _ | .finished _ | .dropped => s

/-- The publication of a request is answered. -/
def published (s : State α) (t : TaskId) (result : Except Failure Unit) : Stage α → State α
  | .publishing id timeoutMs =>
      match result with
      | .ok _ => s.goto t (.seeking id timeoutMs)
      | .error failure => s.goto t (.leaving id (.error failure))
  | _ => s

/-- The timer of a task fires. It counts only if the time has come and the task sleeps unwoken. -/
def expire (s : State α) (t : TaskId) : Stage α → State α
  | .parked w =>
      match w.deadline, w.id? with
      | some deadline, some id =>
          if deadline ≤ s.now ∧ (s.slots w.slot).hasWoken t = false then
            (s.modify w.slot (Slot.forget · t)).goto t (.overdue id w.caller)
          else s
      | _, _ => s
  | _ => s

/-- Drops a task that has not begun, sleeps or waits for its publication. -/
def drop (s : State α) (t : TaskId) : Stage α → State α
  | .ready _ | .publishing _ _ => s.goto t .dropped
  | .parked w => (s.modify w.slot (Slot.forget · t)).goto t .dropped
  | _ => s

/-- Lets `f` act on the stage of a task, if the task is there. -/
def act (s : State α) (t : TaskId) (f : Stage α → State α) : State α :=
  match s.tasks t with
  | some stage => f stage
  | none => s

/-- One step of a run. -/
def step (s : State α) : Event α → State α
  | .spawn t call =>
      match s.tasks t with
      | none => s.goto t (.ready call)
      | some _ => s
  | .proceed t => s.act t (s.proceed t)
  | .published t result => s.act t (s.published t result)
  | .expire t => s.act t (s.expire t)
  | .drop t => s.act t (s.drop t)
  | .advance ms => { s with now := s.now + ms }

/-- The state after a list of steps. -/
def run (s : State α) (events : List (Event α)) : State α := events.foldl step s

/-- How a task ended, if it has. -/
def outcome? (s : State α) (t : TaskId) : Option (Outcome α) :=
  match s.tasks t with
  | some (.finished outcome) => some outcome
  | _ => none

/-- The task can pass its next locked section. -/
def canProceed (s : State α) (t : TaskId) : Bool :=
  match s.tasks t with
  | some (.parked w) => (s.slots w.slot).hasWoken t
  | some (.publishing _ _) | some (.finished _) | some .dropped | none => false
  | some _ => true

end State

end AmqpDelivery.Rendezvous
