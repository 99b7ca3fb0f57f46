import AmqpDelivery.Field.Value

/-!
# Message properties

The fourteen optional properties that travel with a message. A header table that is set and empty
differs from one that is not set.
-/

namespace AmqpDelivery

/-- The properties of a message; `none` means not set. -/
structure Properties where
  contentType : Option String := none
  contentEncoding : Option String := none
  headers : Option FieldTable := none
  deliveryMode : Option UInt8 := none
  priority : Option UInt8 := none
  correlationId : Option String := none
  replyTo : Option String := none
  expiration : Option String := none
  messageId : Option String := none
  timestamp : Option UInt64 := none
  kind : Option String := none
  userId : Option String := none
  appId : Option String := none
  clusterId : Option String := none

instance : Inhabited Properties := ⟨{}⟩

/-- The header table, empty when none is set. -/
def Properties.headerTable (p : Properties) : FieldTable := p.headers.getD Keyed.empty

end AmqpDelivery
