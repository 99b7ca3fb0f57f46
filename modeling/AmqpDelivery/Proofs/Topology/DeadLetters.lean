import AmqpDelivery.Proofs.Routing
import AmqpDelivery.Proofs.Topology.Arguments
import AmqpDelivery.Proofs.Topology.Declarable

/-!
# Where rejected messages go

The broker publishes a message that is rejected from a queue to the dead-letter exchange of that
queue. A consumer that is not delayed gives its queue the dead-letter exchange it overrides; the
queue of any other consumer is declared as its definition says. Main statement: so a delayed
consumer sends dead letters into its own delay exchange if and only if its queue definition does
(`dead_letters_of_queue`), which no definition from settings can. One that does is sent its own
dead letters for ever (`dead_letters_come_back`).
-/

namespace AmqpDelivery

/-- The exchange and the routing key under which the broker publishes a message that was published
under `key` and is rejected from the queue, if it does. -/
def Queue.deadLetterTarget? (q : Queue) (key : String) : Option (String × String) :=
  q.deadLetterExchange.map fun exchange => (exchange, q.deadLetterRoutingKey.getD key)

namespace FieldValue

/-- Different texts are different values. -/
@[simp] theorem ofText_inj {s t : String} : ofText s = ofText t ↔ s = t := by
  simp [ofText, String.toByteArray_inj]

end FieldValue

section Queues

variable {d : Definition}

theorem queueOf_of_delayed (h : d.delayed = true) : Topology.queueOf d = d.queue := by
  simp [Topology.queueOf, h]

theorem queueOf_of_override (h : d.delayed = false) (override : String)
    (ho : d.deadLetterOverride = some override) :
    Topology.queueOf d = { d.queue with deadLetterExchange := some override } := by
  simp [Topology.queueOf, Definition.deadLetterExchange, h, ho]

theorem queueOf_of_plain (h : d.delayed = false) (ho : d.deadLetterOverride = none) :
    Topology.queueOf d = d.queue := by
  simp [Topology.queueOf, Definition.deadLetterExchange, h, ho]

/-- Every delayed consumer has a delay exchange. -/
theorem exists_delay (h : d.delayed = true) :
    ∃ delay, d.deadLetterExchange = some delay ∧ Topology.delayName? d = some delay := by
  cases ho : d.deadLetterOverride <;>
    simp [Topology.delayName?, Definition.deadLetterExchange, h, ho]

/-- Beside the delay exchange a queue is bound to the exchange of its consumer only. -/
theorem mem_ownBindings {delay : String} (hdelay : Topology.delayName? d = some delay) {b : Binding}
    (hb : b ∈ (Topology.forConsumer d).bindings) (hne : b.exchange ≠ delay) :
    b ∈ Topology.ownBindings d := by
  rcases List.mem_append.1 hb with hown | hback
  · exact hown
  · simp only [hdelay, Option.map_some, Option.toList_some, List.mem_singleton] at hback
    exact absurd (congrArg Binding.exchange hback) hne

end Queues

/-- The dead letters of the queue that a topology declares. Those of a delayed consumer go where its
queue definition says, and so into its delay exchange only if that is what it says; otherwise
nothing but a binding to the consumer's own exchange can bring them back. Those of other consumers
go to the override, if there is one. -/
theorem dead_letters_of_queue (d : Definition) :
    ∃ q, (Topology.forConsumer d).queues = [q] ∧
      (d.delayed = true → q.arguments = d.queue.arguments ∧
        ∃ delay, d.deadLetterExchange = some delay ∧
          (q.arguments.get? deadLetterExchangeArgument = some (.ofText delay) ↔
            d.queue.deadLetterExchange = some delay) ∧
          (d.queue.deadLetterExchange ≠ some delay → ∀ key target,
            q.deadLetterTarget? key = some target → target.1 ≠ delay ∧
              ∀ b ∈ (Topology.forConsumer d).bindings, b.exchange = target.1 →
                b ∈ Topology.ownBindings d)) ∧
      (∀ override, d.delayed = false → d.deadLetterOverride = some override →
        q.arguments.get? deadLetterExchangeArgument = some (.ofText override) ∧
          ∀ key, key ≠ deadLetterExchangeArgument →
            q.arguments.get? key = d.queue.arguments.get? key) ∧
      (d.delayed = false → d.deadLetterOverride = none → q.arguments = d.queue.arguments) ∧
      ∀ s, Definition.ofSettings s = .ok d → d.delayed = true →
        q.arguments.get? deadLetterExchangeArgument = none := by
  refine ⟨Topology.queueOf d, rfl, fun h => ?_, fun override h ho => ?_, fun h ho => ?_,
    fun s hs h => ?_⟩
  · rw [queueOf_of_delayed h]
    obtain ⟨delay, hdelay, hname⟩ := exists_delay h
    refine ⟨rfl, delay, hdelay, ?_, fun hapart key target htarget => ?_⟩
    · rw [Queue.get?_deadLetterExchange]
      simp
    · obtain ⟨exchange, hexchange, rfl⟩ := Option.map_eq_some_iff.1 htarget
      have hne : exchange ≠ delay := fun heq => hapart (heq ▸ hexchange)
      exact ⟨hne, fun b hb hfrom => mem_ownBindings hname hb (hfrom ▸ hne)⟩
  · rw [queueOf_of_override h override ho]
    refine ⟨Queue.get?_deadLetterExchange _, fun key hkey => ?_⟩
    exact Queue.get?_arguments_of_ne d.queue (some override) hkey
  · rw [queueOf_of_plain h ho]
  · rw [queueOf_of_delayed h, Queue.get?_deadLetterExchange, (Definition.ofSettings_eq_ok hs).2.1]
    rfl

theorem dead_letters_of_queue_buried :
    let d : Definition :=
      { Definition.new "mails" "mails" with
        queue := { name := "mails", deadLetterExchange := some "graveyard" }
        delayed := true
        deadLetterOverride := some "retries" }
    ∃ q, (Topology.forConsumer d).queues = [q] ∧
      ∀ key target, q.deadLetterTarget? key = some target → target.1 ≠ "retries" := by
  intro d
  obtain ⟨q, hq, hdelayed, -⟩ := dead_letters_of_queue d
  obtain ⟨-, delay, hdelay, -, hapart⟩ := hdelayed rfl
  cases hdelay
  exact ⟨q, hq, fun key target htarget => (hapart (by decide) key target htarget).1⟩

/-- A delayed consumer of the queue `mails` whose queue definition sends dead letters into the
default delay exchange. -/
def loopingConsumer : Definition :=
  { Definition.new "mails" "mails" with
    queue := { name := "mails", deadLetterExchange := some defaultDelayExchange }
    delayed := true }

/-- A message that is given up on after its last retry comes back through the delay exchange. -/
theorem dead_letters_come_back :
    loopingConsumer.delayed = true ∧ loopingConsumer.deadLetterExchange = some "delayed" ∧
    ∃ q, (Topology.forConsumer loopingConsumer).queues = [q] ∧
      q.arguments.get? deadLetterExchangeArgument = some (.ofText "delayed") ∧
      ∃ target, q.deadLetterTarget? "mails" = some target ∧
        routes [loopingConsumer] target.1 target.2 = ["mails"] :=
  ⟨rfl, rfl, _, rfl, rfl, _, rfl, by decide⟩

end AmqpDelivery
