import AmqpDelivery.Rendezvous.Basic

/-!
# Sessions

A session runs the tasks of a rendezvous under a clock that moves only when it is told to. After
every call, and after the clock has moved, whatever can run does so until nothing moves: first the
tasks that can pass a locked section, in the order in which they were spawned, and woken waiters in
the order in which they wait; then the alarms that are due, the earliest first. A wait whose time is
already over when it begins takes a value that is there, or ends at once.
-/

namespace AmqpDelivery.Rendezvous

variable {α : Type}

/-- What happens to a task at a given time: its publication is answered, or its timer fires. -/
structure Alarm where
  due : Nat
  task : TaskId
  publication : Option (Except Failure Unit)

/-- How a request's publication will be answered, and after how many milliseconds if not at once. -/
structure Publication where
  task : TaskId
  result : Except Failure Unit
  delayMs : Option Nat

/-- A rendezvous with its unfinished tasks and the alarms that are set. -/
structure Session (α : Type) where
  state : State α := State.empty
  spawned : List TaskId := []
  publications : List Publication := []
  alarms : List Alarm := []
  next : TaskId := 0

namespace Session

/-- Lets a step happen. -/
def apply (s : Session α) (e : Event α) : Session α := { s with state := s.state.step e }

/-- The timer of a task is set. -/
def hasTimer (s : Session α) (t : TaskId) : Bool :=
  s.alarms.any fun a => a.task = t && a.publication.isNone

/-- A step that a task can take by itself: its next locked section, the answer to a publication that
is answered at once, or the end of a wait whose time is over before its timer is set. -/
def ownStep? (s : Session α) (t : TaskId) : Option (Event α) :=
  if s.state.canProceed t then some (.proceed t)
  else
    match s.state.tasks t with
    | some (.publishing _ _) =>
        match s.publications.find? fun p => p.task = t with
        | some ⟨_, result, none⟩ => some (.published t result)
        | _ => none
    | some (.parked w) =>
        if w.deadline.any (· ≤ s.state.now) && !s.hasTimer t then some (.expire t) else none
    | _ => none

/-- Takes a task's own steps until it has none left. -/
def runTask (t : TaskId) : Nat → Session α → Session α
  | 0, s => s
  | fuel + 1, s =>
      match s.ownStep? t with
      | some e => runTask t fuel (s.apply e)
      | none => s

/-- The alarm of a task that has come to wait for time to pass. -/
def alarmOf? (s : Session α) (t : TaskId) : Option Alarm :=
  match s.state.tasks t with
  | some (.parked w) => w.deadline.map fun due => ⟨due, t, none⟩
  | some (.publishing _ _) =>
      (s.publications.find? fun p => p.task = t).bind fun p =>
        p.delayMs.map fun ms => ⟨s.state.now + ms, t, some p.result⟩
  | _ => none

/-- Sets the alarm of a task behind the others, unless the same one is set already. -/
def setAlarm (s : Session α) (t : TaskId) : Session α :=
  match s.alarmOf? t with
  | some a =>
      if s.alarms.any fun b => b.task = t && b.publication.isSome = a.publication.isSome then s
      else { s with alarms := s.alarms ++ [a] }
  | none => s

/-- More steps than a task can take in a row: the longest run closes every slot. -/
def stepBound (s : Session α) : Nat := 16 + 2 * s.state.made

/-- Runs a task until it waits or has ended, and sets its alarm. -/
def advanceTask (s : Session α) (t : TaskId) : Session α := (runTask t s.stepBound s).setAlarm t

/-- The woken waiters of the slots below `n`, in the order in which they wait. -/
def wokenBelow (s : State α) : Nat → List TaskId
  | 0 => []
  | n + 1 =>
      wokenBelow s n ++ ((s.slots n).waiters.filter fun w => w.woken).map Waiter.task

/-- A task that can take a step by itself. -/
def runnable? (s : Session α) : Option TaskId :=
  (wokenBelow s.state s.state.made ++ s.spawned).find? fun t => (s.ownStep? t).isSome

/-- The earliest of the alarms that are due, the first set among equal ones. -/
def earliest (now : Nat) : List Alarm → Option Alarm
  | [] => none
  | a :: rest =>
      match earliest now rest with
      | some b => if a.due ≤ now ∧ a.due ≤ b.due then some a else some b
      | none => if a.due ≤ now then some a else none

/-- Lets an alarm go off. -/
def sound (s : Session α) (a : Alarm) : Session α :=
  let s := { s with
    alarms := s.alarms.filter fun b =>
      ¬ (b.task = a.task ∧ b.publication.isSome = a.publication.isSome) }
  s.apply (match a.publication with
    | some result => .published a.task result
    | none => .expire a.task)

/-- Lets everything run until nothing moves. -/
def settle : Nat → Session α → Session α
  | 0, s => s
  | fuel + 1, s =>
      match s.runnable? with
      | some t => settle fuel (s.advanceTask t)
      | none =>
          match earliest s.state.now s.alarms with
          | some a => settle fuel ((s.sound a).advanceTask a.task)
          | none => s

/-- More turns than the tasks can take before nothing moves. -/
def turnBound (s : Session α) : Nat := 8 * (s.spawned.length + 1) + s.alarms.length

/-- Lets everything run until nothing moves. -/
def settled (s : Session α) : Session α := settle s.turnBound s

/-- Begins a task that runs with the others. -/
def spawn (s : Session α) (call : Call α) : Session α × TaskId :=
  let t := s.next
  ({ (s.apply (.spawn t call)) with next := t + 1, spawned := s.spawned ++ [t] }, t)

/-- Begins a request whose publication is answered as given; no delay is the same as none. -/
def request (s : Session α) (id : UInt64) (timeoutMs : Nat) (result : Except Failure Unit)
    (delayMs : Option Nat) : Session α × TaskId :=
  let (s, t) := s.spawn (.request id timeoutMs)
  ({ s with publications := s.publications ++ [⟨t, result, delayMs.filter (· ≠ 0)⟩] }, t)

/-- Makes a call that does not wait, before anything else runs. -/
def perform (s : Session α) (call : Call α) : Session α × Outcome α :=
  let t := s.next
  let s := runTask t s.stepBound { (s.apply (.spawn t call)) with next := t + 1 }
  (s, (s.state.outcome? t).getD .done)

/-- Lets time pass. -/
def advance (s : Session α) (ms : Nat) : Session α := s.apply (.advance ms)

/-- Drops a task. -/
def cancel (s : Session α) (t : TaskId) : Session α :=
  { (s.apply (.drop t)) with
    spawned := s.spawned.filter (· ≠ t), alarms := s.alarms.filter fun a => a.task ≠ t }

/-- The tasks that have ended since the last time, with their outcomes. -/
def collect (s : Session α) : Session α × List (TaskId × Outcome α) :=
  ({ s with spawned := s.spawned.filter fun t => (s.state.outcome? t).isNone },
    s.spawned.filterMap fun t => (s.state.outcome? t).map fun o => (t, o))

end Session

end AmqpDelivery.Rendezvous
