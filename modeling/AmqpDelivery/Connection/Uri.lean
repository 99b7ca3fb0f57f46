import AmqpDelivery.Settings.Basic
import AmqpDelivery.Decimal.Natural

/-!
# Broker addresses

The address of a broker as one line of text. Its parts are written as they are; the virtual host
loses its leading slashes, and the default one is written `%2f`.
-/

namespace AmqpDelivery

/-- The virtual host as it stands in an address. -/
def vhostPart (vhost : String) : String :=
  if vhost = "" ∨ vhost = "/" then "%2f"
  else String.ofList (vhost.toList.dropWhile (· = '/'))

/-- The address of a broker. -/
def BrokerSettings.uri (b : BrokerSettings) : String :=
  "amqp://" ++ b.user ++ ":" ++ b.password ++ "@" ++ b.host ++ ":" ++ Decimal.ofNat b.port.toNat
    ++ "/" ++ vhostPart b.vhost ++ "?heartbeat=" ++ Decimal.ofNat b.heartbeat.toNat

end AmqpDelivery
