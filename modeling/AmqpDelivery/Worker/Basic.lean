import AmqpDelivery.Connection.Backoff
import AmqpDelivery.Connection.Cells
import AmqpDelivery.Connection.Channels
import AmqpDelivery.Dispatch.Run
import AmqpDelivery.Topology
import AmqpDelivery.Worker.State

/-!
# Workers

A worker runs one consumer: it looks up the connection of its pool, opens a channel, prepares it,
and hands every delivery that it reads to the limiter of the pool and then to a handler. When the
channel fails it releases it, waits, and starts over on a fresh one; when it is told to stop it
cancels its subscription, gives its handlers time to finish, releases the channel and stops.

A worker does nothing by itself. `Worker.step` takes one event, which is a step of the worker's own
or an answer to something it asked for, and yields what it asks for next. Any behaviour of the
broker, the limiter, the handlers and the clock is therefore a list of events.
-/

namespace AmqpDelivery

/-- The identity of a worker. -/
abbrev WorkerId := Nat

/-- What prepares a channel for consuming. -/
inductive Preparation where
  /-- Bound the unsettled deliveries. -/
  | bound (prefetch : UInt16)
  | declare (d : Declaration)
  | subscribe (queue : String)

/-- The failure of the consumer `name` when the broker refuses a preparation. -/
def Preparation.refusal (name : String) : Preparation → Failure
  | .bound _ => .prefetchRefused name
  | .declare d => d.refusal
  | .subscribe queue => .subscriptionRefused queue

/-- What comes after the bound on unsettled deliveries: the topology, if the consumer declares it,
and the subscription. -/
def Definition.preparations (d : Definition) : List Preparation :=
  (if d.declares then (Topology.forConsumer d).declarations.map .declare else [])
    ++ [.subscribe d.queue.name]

/-- The tag of a subscription: the name of the consumer, and a mark that tells it from the other
subscriptions of the same consumer. -/
def Definition.tag (d : Definition) (mark : String) : String := d.name ++ "-" ++ mark

/-- What a subscription yields. -/
inductive StreamItem where
  | delivery (d : Delivery)
  | failure (text : String)
  /-- There is nothing more to come under a tag that ends in `mark`. -/
  | ended (mark : String)

/-- A delivery whose handler was started. -/
structure Handling where
  channel : ChannelRef
  message : Message
  stage : Stage := .handling
  /-- The worker has given up waiting for it. -/
  aborted : Bool := false
  /-- It was dropped before its end. -/
  gone : Bool := false

/-- Nothing happens any more for this delivery. -/
def Handling.isOver (h : Handling) : Bool := h.gone || h.stage.isSettled

/-- Where a worker stands. -/
inductive Phase where
  /-- It is about to begin, or to begin again. -/
  | starting
  /-- It waits for the connection. -/
  | connecting
  /-- It waits for a channel. -/
  | opening (connection : ConnectionId)
  /-- It waits for the answer to a preparation, with others to follow. -/
  | preparing (channel : ChannelRef) (current : Preparation) (rest : List Preparation)
  /-- It is about to read on, unless it has to stop. -/
  | turning (channel : ChannelRef)
  /-- It waits for a delivery. -/
  | reading (channel : ChannelRef)
  /-- It waits for the limiter to let a delivery in. -/
  | entering (channel : ChannelRef) (message : Message)
  /-- It has read enough and is about to look whether its channel is connected. -/
  | leaving (channel : ChannelRef) (result : Except Failure Unit)
  /-- It waits for its subscription to be cancelled. -/
  | cancelling (channel : ChannelRef) (result : Except Failure Unit)
  /-- It waits for its handlers. -/
  | draining (channel : ChannelRef) (result : Except Failure Unit)
  /-- It waits for its channel to be released. -/
  | releasing (channel : ChannelRef) (result : Except Failure Unit)
  /-- It has ended an attempt and holds no channel. -/
  | concluding (result : Except Failure Unit)
  /-- It has failed and is about to decide whether to start over. -/
  | deciding
  /-- It waits before it starts over. -/
  | resting (ms : UInt64)
  | stopped

/-- A worker. -/
structure Worker where
  definition : Definition
  reconnect : ReconnectSettings
  /-- It was told to stop. -/
  stopping : Bool := false
  phase : Phase := .starting
  /-- How often it has started over. -/
  restarts : UInt32 := 0
  /-- Every delivery whose handler it has started. -/
  handlings : List Handling := []

/-- What happens to a worker. -/
inductive WorkerEvent where
  /-- It is told to stop. -/
  | shutdown
  /-- It takes a step of its own. -/
  | proceed
  /-- It notices while it waits that it was told to stop. -/
  | notice
  | connected (result : Except Failure ConnectionId)
  | opened (result : Except Failure ChannelRef)
  /-- A preparation is accepted or refused. -/
  | prepared (accepted : Bool)
  | item (i : StreamItem)
  /-- The limiter lets the delivery in. -/
  | entered (result : Except Failure Unit)
  /-- The channel is found connected or not. -/
  | status (connected : Bool)
  | cancelled
  /-- The handlers are found to have ended. -/
  | drained
  /-- The time for the handlers is over. -/
  | expired
  | released
  | rested
  /-- A handler ends. -/
  | handled (i : Nat) (run : HandlerRun)
  /-- The channel answers a call made for a delivery. -/
  | answered (i : Nat) (result : Except Failure Unit)
  /-- The task of a delivery that was given up is dropped. -/
  | dropped (i : Nat)

/-- What a worker asks for. -/
inductive WorkerAction where
  | become (next : ConsumerState)
  | lookUp (pool : String)
  /-- It no longer waits for the connection. -/
  | forgo
  | openChannel (connection : ConnectionId)
  | prepare (channel : ChannelRef) (p : Preparation)
  /-- It asks the limiter to let a delivery in. -/
  | submit (channel : ChannelRef) (message : Message)
  /-- It no longer waits for the limiter. -/
  | withdraw
  /-- The handler of a delivery is started. -/
  | handle (channel : ChannelRef) (message : Message)
  /-- A call for a delivery. -/
  | call (channel : ChannelRef) (c : ChannelCall)
  | cancel (channel : ChannelRef)
  /-- It gives up waiting for a handler. -/
  | abort (i : Nat)
  | release (channel : ChannelRef)
  | rest (ms : UInt64)

namespace Worker

/-- Moves on without asking for anything. -/
def goto (w : Worker) (phase : Phase) : Worker × List WorkerAction := ({ w with phase }, [])

/-- Moves on and asks for something. -/
def ask (w : Worker) (phase : Phase) (a : WorkerAction) : Worker × List WorkerAction :=
  ({ w with phase }, [a])

/-- Asks for the next preparation, or goes on to read when all are accepted. -/
def prepare (w : Worker) (channel : ChannelRef) : List Preparation → Worker × List WorkerAction
  | p :: rest => w.ask (.preparing channel p rest) (.prepare channel p)
  | [] => w.ask (.turning channel) (.become .consuming)

/-- The deliveries of a channel whose handlers have not ended, by their positions. -/
def unfinished (w : Worker) (channel : ChannelRef) : List Nat :=
  w.handlings.zipIdx.filterMap fun (h, i) =>
    if h.channel = channel ∧ h.isOver = false then some i else none

/-- Changes a delivery. -/
def modifyHandling (w : Worker) (i : Nat) (f : Handling → Handling) : Worker :=
  { w with handlings := w.handlings.modify i f }

/-- A step of its own. -/
def proceed (w : Worker) : Phase → Worker × List WorkerAction
  | .starting =>
      if w.stopping then w.goto (.concluding (.ok ()))
      else w.ask .connecting (.lookUp w.definition.pool)
  | .turning channel =>
      w.goto (if w.stopping then .leaving channel (.ok ()) else .reading channel)
  | .concluding (.ok _) => w.ask .stopped (.become .stopped)
  | .concluding (.error _) => w.ask .deciding (.become .failed)
  | .deciding =>
      if !w.definition.restarts || w.stopping then w.ask .stopped (.become .stopped)
      else
        let restarts := w.restarts + 1
        let ms := backoffDelay w.reconnect restarts
        ({ w with restarts, phase := .resting ms }, [.rest ms])
  | _ => (w, [])

/-- It notices that it was told to stop. Only waits for the connection, for a delivery, for the
limiter and for the next start end early. -/
def notice (w : Worker) : Phase → Worker × List WorkerAction
  | .connecting => w.ask (.concluding (.ok ())) .forgo
  | .reading channel => w.goto (.leaving channel (.ok ()))
  | .entering channel _ => w.ask (.leaving channel (.ok ())) .withdraw
  | .resting _ => w.ask .stopped (.become .stopped)
  | _ => (w, [])

/-- The connection is there, or could not be had. -/
def connected (w : Worker) (result : Except Failure ConnectionId) :
    Phase → Worker × List WorkerAction
  | .connecting =>
      match result with
      | .ok c => w.ask (.opening c) (.openChannel c)
      | .error f => w.goto (.concluding (.error f))
  | _ => (w, [])

/-- The channel is there, or could not be had. -/
def opened (w : Worker) (result : Except Failure ChannelRef) : Phase → Worker × List WorkerAction
  | .opening _ =>
      match result with
      | .ok channel => w.prepare channel (.bound w.definition.prefetch :: w.definition.preparations)
      | .error f => w.goto (.concluding (.error f))
  | _ => (w, [])

/-- A preparation is accepted or refused. A refusal ends the attempt. -/
def prepared (w : Worker) (accepted : Bool) : Phase → Worker × List WorkerAction
  | .preparing channel p rest =>
      if accepted then w.prepare channel rest
      else w.ask (.releasing channel (.error (p.refusal w.definition.name))) (.release channel)
  | _ => (w, [])

/-- The subscription yields something. -/
def item (w : Worker) (i : StreamItem) : Phase → Worker × List WorkerAction
  | .reading channel =>
      match i with
      | .delivery d =>
          let m := Message.ofDelivery w.definition.name d
          w.ask (.entering channel m) (.submit channel m)
      | .failure text => w.goto (.leaving channel (.error (.consuming text)))
      | .ended mark =>
          let text := w.definition.tag mark ++ " stream closed"
          w.goto (.leaving channel (.error (.consuming text)))
  | _ => (w, [])

/-- The limiter lets the delivery in, and its handler is started. -/
def entered (w : Worker) (result : Except Failure Unit) : Phase → Worker × List WorkerAction
  | .entering channel message =>
      match result with
      | .ok _ =>
          ({ w with
              phase := .turning channel
              handlings := w.handlings ++ [{ channel, message }] },
            [.handle channel message])
      | .error f => w.goto (.leaving channel (.error f))
  | _ => (w, [])

/-- The channel is found connected, and the subscription is cancelled, or it is not. -/
def status (w : Worker) (isConnected : Bool) : Phase → Worker × List WorkerAction
  | .leaving channel result =>
      if isConnected then w.ask (.cancelling channel result) (.cancel channel)
      else w.goto (.draining channel result)
  | _ => (w, [])

/-- The handlers are found to have ended. -/
def drained (w : Worker) : Phase → Worker × List WorkerAction
  | .draining channel result =>
      if (w.unfinished channel).isEmpty then w.ask (.releasing channel result) (.release channel)
      else (w, [])
  | _ => (w, [])

/-- The time for the handlers is over: those that have not ended are given up. -/
def expired (w : Worker) : Phase → Worker × List WorkerAction
  | .draining channel result =>
      let late := w.unfinished channel
      let w := late.foldl (fun w i => w.modifyHandling i fun h => { h with aborted := true }) w
      ({ w with phase := .releasing channel result },
        late.map .abort ++ [.release channel])
  | _ => (w, [])

/-- The channel is released. -/
def released (w : Worker) : Phase → Worker × List WorkerAction
  | .releasing _ result => w.goto (.concluding result)
  | _ => (w, [])

/-- The wait is over. -/
def rested (w : Worker) : Phase → Worker × List WorkerAction
  | .resting _ => w.ask .starting (.become .declaring)
  | _ => (w, [])

/-- Lets the dispatch of a delivery go on, and makes the call that it comes to. -/
def advance (w : Worker) (i : Nat) (f : Handling → Stage) : Worker × List WorkerAction :=
  match w.handlings[i]? with
  | some h =>
      if h.isOver then (w, [])
      else
        let stage := f h
        (w.modifyHandling i fun h => { h with stage },
          (stage.call?.map fun c => WorkerAction.call h.channel c).toList)
  | none => (w, [])

/-- A handler ends. -/
def handled (w : Worker) (i : Nat) (run : HandlerRun) : Worker × List WorkerAction :=
  match w.handlings[i]? with
  | some ⟨_, _, .handling, _, _⟩ =>
      w.advance i fun h => h.stage.onHandled w.definition h.message run
  | _ => (w, [])

/-- The channel answers a call. -/
def answered (w : Worker) (i : Nat) (result : Except Failure Unit) :
    Worker × List WorkerAction :=
  match w.handlings[i]? with
  | some ⟨_, _, .handling, _, _⟩ => (w, [])
  | _ => w.advance i fun h => h.stage.onAnswer h.message.tag result

/-- The task of a delivery that was given up is dropped. -/
def dropped (w : Worker) (i : Nat) : Worker :=
  w.modifyHandling i fun h => { h with gone := h.gone || (h.aborted && !h.isOver) }

/-- One event. Events that do not fit where the worker stands change nothing. -/
def step (w : Worker) : WorkerEvent → Worker × List WorkerAction
  | .shutdown => ({ w with stopping := true }, [])
  | .proceed => w.proceed w.phase
  | .notice => if w.stopping then w.notice w.phase else (w, [])
  | .connected result => w.connected result w.phase
  | .opened result => w.opened result w.phase
  | .prepared accepted => w.prepared accepted w.phase
  | .item i => w.item i w.phase
  | .entered result => w.entered result w.phase
  | .status isConnected => w.status isConnected w.phase
  | .cancelled =>
      match w.phase with
      | .cancelling channel result => w.goto (.draining channel result)
      | _ => (w, [])
  | .drained => w.drained w.phase
  | .expired => w.expired w.phase
  | .released => w.released w.phase
  | .rested => w.rested w.phase
  | .handled i run => w.handled i run
  | .answered i result => w.answered i result
  | .dropped i => (w.dropped i, [])

/-- The worker after a list of events, and all that it asked for. -/
def run (w : Worker) : List WorkerEvent → Worker × List WorkerAction
  | [] => (w, [])
  | e :: rest =>
      let (next, actions) := w.step e
      let (last, later) := next.run rest
      (last, actions ++ later)

/-- The worker has returned. -/
def isStopped (w : Worker) : Bool :=
  match w.phase with
  | .stopped => true
  | _ => false

/-- The channel that the worker has opened and not released. -/
def held? (w : Worker) : Option ChannelRef :=
  match w.phase with
  | .preparing c _ _ | .turning c | .reading c | .entering c _ | .leaving c _ | .cancelling c _
  | .draining c _ | .releasing c _ => some c
  | _ => none

end Worker

/-- The states that a list of actions moves to. -/
def movesOf (actions : List WorkerAction) : List ConsumerState :=
  actions.filterMap fun
    | .become next => some next
    | _ => none

end AmqpDelivery
