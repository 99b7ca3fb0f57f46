import AmqpDelivery.Dispatch.Plan
import AmqpDelivery.Trace

/-!
# Dispatch of one delivery

`dispatch` carries out the plan of a handled message against a channel that answers every call, and
keeps the calls, the result and the span. `Stage` is the same dispatch one await at a time: waiting
for the handler, waiting for the answer to a publication, waiting for the answer to the settlement.
-/

namespace AmqpDelivery

/-- A channel, as the answers it gives. -/
abbrev ChannelAnswers := ChannelCall → Except Failure Unit

/-- The calls of a dispatch and what it returns. -/
structure Dispatched where
  calls : List ChannelCall
  result : Except Failure Settlement

/-- Makes one call that settles the message. -/
def settleWith (answer : ChannelAnswers) (call : ChannelCall) (s : Settlement) : Dispatched :=
  ⟨[call], (answer call).map fun _ => s⟩

/-- Carries out a plan for the delivery `tag`. -/
def Plan.run (answer : ChannelAnswers) (tag : UInt64) : Plan → Dispatched
  | .settle verdict => settleWith answer (verdict.call tag) verdict.settlement
  | .republish call s =>
      let last :=
        match answer call with
        | .ok _ => settleWith answer (Verdict.ack.call tag) s
        | .error _ => settleWith answer (Verdict.requeue.call tag) .requeued
      ⟨call :: last.calls, last.result⟩

/-- Handles one delivery of the consumer `d`. -/
def dispatch (d : Definition) (answer : ChannelAnswers) (m : Message) (run : HandlerRun) :
    Dispatched :=
  (Plan.of d m run.outcome).run answer m.tag

/-- The messages of a failure, if it is one. -/
def failureMessages {α : Type} : Except Failure α → List String
  | .ok _ => []
  | .error f => [f.message]

/-- The span of a dispatch: the handler's failure first, then the failure of the settlement. -/
def spanOf (d : Definition) (m : Message) (run : HandlerRun)
    (result : Except Failure Settlement) : Span where
  name := d.name
  parent := Trace.get? m.headers Trace.parentField
  errors :=
    (match run.outcome with
      | .ok _ => []
      | .error e => [e.message]) ++ failureMessages result
  status :=
    match result with
    | .ok _ => .ok
    | .error f => .failed f.message

/-- Where a dispatch stands. -/
inductive Stage where
  | handling
  | republishing (call : ChannelCall) (settlement : Settlement)
  | settling (call : ChannelCall) (settlement : Settlement)
  | settled (result : Except Failure Settlement)

namespace Stage

/-- The first stage of a plan. -/
def ofPlan (tag : UInt64) : Plan → Stage
  | .settle verdict => .settling (verdict.call tag) verdict.settlement
  | .republish call s => .republishing call s

/-- The call whose answer is awaited. -/
def call? : Stage → Option ChannelCall
  | .republishing call _ => some call
  | .settling call _ => some call
  | _ => none

/-- The stage after the handler has finished. -/
def onHandled (d : Definition) (m : Message) (run : HandlerRun) : Stage → Stage
  | .handling => ofPlan m.tag (Plan.of d m run.outcome)
  | s => s

/-- The stage after the channel has answered. -/
def onAnswer (tag : UInt64) (answer : Except Failure Unit) : Stage → Stage
  | .republishing _ s =>
      match answer with
      | .ok _ => .settling (Verdict.ack.call tag) s
      | .error _ => .settling (Verdict.requeue.call tag) .requeued
  | .settling _ s => .settled (answer.map fun _ => s)
  | s => s

/-- Nothing is awaited any more. -/
def isSettled : Stage → Bool
  | .settled _ => true
  | _ => false

end Stage

end AmqpDelivery
