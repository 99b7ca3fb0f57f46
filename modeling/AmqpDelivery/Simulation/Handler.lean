import AmqpDelivery.Dispatch.Plan

/-!
# Scripted handlers

A handler that follows a script, for trying definitions out: it ends in the way the script names, or
not at all.
-/

namespace AmqpDelivery

/-- How a scripted handler ends. -/
inductive HandlerEnding where
  | never
  | fails (failure : HandlerFailure)
  | panics
  /-- It returns a verdict, after reading the payload as JSON if `readsJson` is set. -/
  | returns (verdict : Verdict) (readsJson : Bool)

/-- What a scripted handler does with one message. -/
structure HandlerScript where
  ending : HandlerEnding := .returns .ack false

/-- The end of a script on a message, if it has one. -/
def HandlerEnding.run? (m : Message) : HandlerEnding → Option HandlerRun
  | .never => none
  | .fails failure => some (.returned (.error failure))
  | .panics => some .panicked
  | .returns verdict false => some (.returned (.ok verdict))
  | .returns verdict true => some (.returned (m.json.map fun _ => verdict))

end AmqpDelivery
