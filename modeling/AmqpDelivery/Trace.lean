import AmqpDelivery.Field.Properties
import AmqpDelivery.Failure
import AmqpDelivery.Text.Lowercase

/-!
# Trace context in headers

Trace context travels in message headers under lowercase names and as long strings. A span records
what happened to one delivery.
-/

namespace AmqpDelivery

namespace Trace

/-- The name of the tracer that opens consumer spans. -/
def tracer : String := "amqp consumer"

/-- Header with the parent of a span. -/
def parentField : String := "traceparent"

/-- Writes one piece of context. -/
def set (headers : FieldTable) (key value : String) : FieldTable :=
  headers.insert (Text.lowercase key) (.ofText value)

/-- Reads one piece of context: the text of a long string under exactly this name. -/
def get? (headers : FieldTable) (key : String) : Option String :=
  (headers.get? key).bind FieldValue.text?

/-- Writes a whole context, piece by piece. -/
def inject (context : List (String × String)) (headers : FieldTable) : FieldTable :=
  context.foldl (fun h e => set h e.1 e.2) headers

end Trace

/-- How a span ended. -/
inductive SpanStatus where
  | ok
  | failed (description : String)
deriving DecidableEq

/-- The record of one delivery. -/
structure Span where
  name : String
  parent : Option String
  errors : List String
  status : SpanStatus
deriving DecidableEq

end AmqpDelivery
