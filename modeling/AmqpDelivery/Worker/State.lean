/-!
# States of a consumer

A consumer is registered, declares its topology, consumes, and stops or fails; a failed one declares
again or stops. Nothing leads out of `stopped`.
-/

namespace AmqpDelivery

/-- The state of a registered consumer. -/
inductive ConsumerState where
  | unregistered
  | declaring
  | consuming
  | stopped
  | failed
deriving DecidableEq

namespace ConsumerState

/-- The transitions that a consumer may make. -/
def mayBecome : ConsumerState → ConsumerState → Bool
  | .unregistered, .declaring => true
  | .declaring, .consuming => true
  | .declaring, .failed => true
  | .declaring, .stopped => true
  | .consuming, .stopped => true
  | .consuming, .failed => true
  | .failed, .declaring => true
  | .failed, .stopped => true
  | _, _ => false

/-- The name under which a state is reported. -/
def label : ConsumerState → String
  | .unregistered => "Unregistered"
  | .declaring => "Declaring"
  | .consuming => "Consuming"
  | .stopped => "Stopped"
  | .failed => "Failed"

/-- Moves to `next` if that is allowed; a refused move changes nothing. -/
def become (s next : ConsumerState) : ConsumerState := if s.mayBecome next then next else s

end ConsumerState

end AmqpDelivery
