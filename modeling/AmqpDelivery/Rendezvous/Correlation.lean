import AmqpDelivery.Decimal.Natural
import AmqpDelivery.Field.Properties

/-!
# Correlation ids

A request carries its id in decimal; a reply belongs to one of our requests if its correlation id
reads back as a 64-bit number.
-/

namespace AmqpDelivery

/-- The correlation id of a request. -/
def correlationText (id : UInt64) : String := Decimal.ofNat id.toNat

/-- The id of the request that a reply answers, if it is one of ours. -/
def correlationId? (p : Properties) : Option UInt64 := p.correlationId.bind Decimal.readUInt64?

end AmqpDelivery
