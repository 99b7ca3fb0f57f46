import AmqpDelivery.Queue

/-!
# The arguments of a queue

The broker is told the limits of a queue, and where its dead letters go, by named arguments. There
are four of them, each there if and only if the queue has a value for it, and no others
(`Queue.get?_arguments`).
-/

namespace AmqpDelivery

theorem FieldTable.get?_insertOption (t : FieldTable) (key other : String)
    (value : Option FieldValue) :
    (t.insertOption key value).get? other =
      if other = key then value.or (t.get? other) else t.get? other := by
  cases value with
  | none => simp [FieldTable.insertOption]
  | some v => simp [FieldTable.insertOption, Keyed.get?_insert]

namespace Queue

/-- Every argument of a queue. Texts are long strings, the limits are 32-bit numbers. -/
theorem get?_arguments (q : Queue) (key : String) :
    q.arguments.get? key =
      if key = "x-dead-letter-exchange" then
        q.deadLetterExchange.map fun exchange => .longString exchange.toUTF8
      else if key = "x-dead-letter-routing-key" then
        q.deadLetterRoutingKey.map fun routing => .longString routing.toUTF8
      else if key = "x-message-ttl" then q.ttl.map .longInt
      else if key = "x-max-length" then q.maxLength.map .longInt
      else none := by
  have htext : FieldValue.ofText = fun text => .longString text.toUTF8 := rfl
  simp only [arguments, FieldTable.get?_insertOption, Keyed.get?_empty, Option.or_none, htext,
    deadLetterExchangeArgument, deadLetterRoutingKeyArgument, messageTtlArgument, maxLengthArgument]
  -- the names differ, so the key is one of them at most
  by_cases hexchange : key = "x-dead-letter-exchange"
  · simp [hexchange]
  · by_cases hrouting : key = "x-dead-letter-routing-key"
    · simp [hrouting]
    · by_cases httl : key = "x-message-ttl"
      · simp [httl]
      · simp [hexchange, hrouting, httl]

/-- The dead-letter argument is the dead-letter exchange, if there is one. -/
theorem get?_deadLetterExchange (q : Queue) :
    q.arguments.get? deadLetterExchangeArgument = q.deadLetterExchange.map .ofText := by
  rw [get?_arguments]
  exact if_pos rfl

/-- The dead-letter exchange shows in no other argument. -/
theorem get?_arguments_of_ne (q : Queue) (exchange : Option String) {key : String}
    (hkey : key ≠ deadLetterExchangeArgument) :
    ({ q with deadLetterExchange := exchange } : Queue).arguments.get? key =
      q.arguments.get? key := by
  have hother : key ≠ "x-dead-letter-exchange" := hkey
  simp only [get?_arguments, hother, if_false]

end Queue

end AmqpDelivery
