/-!
# Tasks

What runs concurrently is a task. Tasks are told apart by numbers that are never used twice.
-/

namespace AmqpDelivery

/-- The identity of a task. -/
abbrev TaskId := Nat

end AmqpDelivery
