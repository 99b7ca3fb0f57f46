import AmqpDelivery.Proofs.Counters
import AmqpDelivery.Proofs.Redelivery
import AmqpDelivery.Proofs.Routing

/-!
# What a message published again carries

A failed message goes out again as it came in, apart from two headers: the counter is raised, and
the delay is written when the message goes to the delay exchange and taken off otherwise
(`retry_changes_two_headers`). This is for any headers, for none, and for any other property.
-/

namespace AmqpDelivery

/-- What a publication carries. -/
def ChannelCall.content? : ChannelCall → Option (ByteArray × Properties)
  | .publish _ _ payload p => some (payload, p)
  | _ => none

section Published

variable {d : Definition} {m : Message} {run : HandlerRun}

/-- A failed message within its budget is published again, and then its delivery is settled. -/
theorem calls_of_failed (answer : ChannelAnswers) {f : HandlerFailure} (hf : run.outcome = .error f)
    (hbudget : m.retryCount d.redelivery < d.redelivery.maxRedeliveries) :
    (dispatch d answer m run).calls = [retryCall d m, .ack m.tag] ∨
      (dispatch d answer m run).calls = [retryCall d m, .nack m.tag true] := by
  cases hp : answer (retryCall d m) with
  | ok u => exact Or.inl (congrArg Dispatched.calls (dispatch_of_published hf hbudget hp))
  | error g => exact Or.inr (congrArg Dispatched.calls (dispatch_of_unpublished hf hbudget hp))

/-- What is read off the calls, apart from the settlement, is read off the publication. -/
theorem filterMap_calls_of_failed {α : Type} {g : ChannelCall → Option α} (answer : ChannelAnswers)
    {f : HandlerFailure} (hf : run.outcome = .error f)
    (hbudget : m.retryCount d.redelivery < d.redelivery.maxRedeliveries)
    (hack : ∀ tag, g (.ack tag) = none) (hnack : ∀ tag requeue, g (.nack tag requeue) = none) :
    (dispatch d answer m run).calls.filterMap g = (g (retryCall d m)).toList := by
  rcases calls_of_failed answer hf hbudget with hcalls | hcalls
  · rw [hcalls, List.filterMap_cons, List.filterMap_cons, hack]
    cases g (retryCall d m) <;> rfl
  · rw [hcalls, List.filterMap_cons, List.filterMap_cons, hnack]
    cases g (retryCall d m) <;> rfl

/-- The delay that is written is that of a consumer which is delayed. -/
theorem delay_retryRoute (d : Definition) :
    (retryRoute d).delay = if d.delayed then d.redelivery.delayMs else none := by
  unfold retryRoute Definition.deadLetterExchange
  cases d.delayed <;> cases d.redelivery.delayMs <;> cases d.deadLetterOverride <;> rfl

theorem toInt_delay (ms : UInt32) :
    (Int32.ofNat (min ms.toNat 0x7FFFFFFF)).toInt = min (ms.toNat : Int) 0x7FFFFFFF := by
  rw [Int32.toInt_ofNat_of_lt (by omega)]
  omega

theorem toInt_count (count : UInt32) : (Int64.ofNat count.toNat).toInt = count.toNat := by
  have hlt := count.toNat_lt
  exact Int64.toInt_ofNat_of_lt (by omega)

end Published

/-- A failed message within its budget is published once, with its payload and with its properties
but for the headers. In these the counter stands one higher, the delay is that of the consumer if
the message goes to the delay exchange and is gone otherwise, and whatever else was there is there,
and nothing more. -/
theorem retry_changes_two_headers (d : Definition) (hx : d.redelivery.countHeader ≠ delayHeader)
    (answer : ChannelAnswers) (m : Message) (run : HandlerRun) (f : HandlerFailure)
    (hf : run.outcome = .error f)
    (hbudget : m.retryCount d.redelivery < d.redelivery.maxRedeliveries) :
    let calls := (dispatch d answer m run).calls
    ∃ exchange headers,
      calls.filterMap ChannelCall.target? = [(exchange, d.queue.name)] ∧
      calls.filterMap ChannelCall.content? =
        [(m.payload, { m.properties with headers := some headers })] ∧
      (∃ n : Int64, headers.get? d.redelivery.countHeader = some (.longLongInt n) ∧
        n.toInt = (m.retryCount d.redelivery).toNat + 1) ∧
      (∀ ms, d.delayed = true → d.redelivery.delayMs = some ms →
        Topology.delayName? d = some exchange ∧
          ∃ n : Int32, headers.get? delayHeader = some (.longInt n) ∧
            n.toInt = min (ms.toNat : Int) 0x7FFFFFFF) ∧
      (d.delayed = false ∨ d.redelivery.delayMs = none →
        exchange = defaultExchange ∧ headers.get? delayHeader = none) ∧
      ∀ name, name ≠ d.redelivery.countHeader → name ≠ delayHeader →
        headers.get? name = m.properties.headerTable.get? name := by
  intro calls
  obtain ⟨hdelayed, hdirect⟩ := exchange_retryRoute d
  have hdelay := delay_retryRoute d
  refine ⟨(retryRoute d).exchange, retryHeaders m.properties.headerTable d.redelivery.countHeader
    (m.retryCount d.redelivery + 1) (retryRoute d).delay, ?_, ?_, ?_, fun ms hd hms => ?_,
    fun hnot => ?_, fun name hcount hother => ?_⟩
  · exact filterMap_calls_of_failed answer hf hbudget (fun _ => rfl) fun _ _ => rfl
  · exact filterMap_calls_of_failed answer hf hbudget (fun _ => rfl) fun _ _ => rfl
  · refine ⟨_, get?_countHeader_retryHeaders _ _ _ hx, ?_⟩
    rw [toInt_count, toNat_retryCount_add_one hbudget]
    rfl
  · rw [hd, hms] at hdelay
    refine ⟨hdelayed ⟨hd, by rw [hms]; rfl⟩, _, ?_, toInt_delay ms⟩
    rw [get?_retryHeaders_delay, hdelay]
    rfl
  · have hnone : (retryRoute d).delay = none := by
      rw [hdelay]
      rcases hnot with h | h
      · rw [h]
        rfl
      · rw [h, ite_self]
    refine ⟨hdirect fun h => ?_, ?_⟩
    · rcases hnot with hplain | hms
      · rw [hplain] at h
        cases h.1
      · rw [hms] at h
        cases h.2
    · rw [get?_retryHeaders_delay, hnone]
      rfl
  · rw [get?_retryHeaders_of_ne _ _ _ _ hother, if_neg hcount]

/-- A message that was retried once, waited and carries a trace. -/
def tracedMessage : Message :=
  { headed [(defaultCountHeader, .longUInt 1), (delayHeader, .longInt 5),
      ("traceparent", .ofText "00-1-1-00")] with
    tag := 7 }

/-- A delay beyond the greatest signed 32-bit number is cut off, and the trace stays. -/
theorem retry_changes_two_headers_delayed :
    let d := (Definition.new "orders" "orders").withRetryDelay 3000000000
    d.redelivery.countHeader ≠ delayHeader ∧
      tracedMessage.retryCount d.redelivery < d.redelivery.maxRedeliveries ∧
      ∃ headers : FieldTable,
        (dispatch d accepting tracedMessage .panicked).calls.filterMap ChannelCall.content? =
          [(tracedMessage.payload, { tracedMessage.properties with headers := some headers })] ∧
        (∃ n : Int64, headers.get? defaultCountHeader = some (.longLongInt n) ∧ n.toInt = 2) ∧
        (∃ n : Int32, headers.get? delayHeader = some (.longInt n) ∧ n.toInt = 0x7FFFFFFF) ∧
        headers.get? "traceparent" = some (.ofText "00-1-1-00") := by
  intro d
  have hx : d.redelivery.countHeader ≠ delayHeader := by decide
  have hcount : tracedMessage.retryCount d.redelivery = 1 := by decide +kernel
  have hbudget : tracedMessage.retryCount d.redelivery < d.redelivery.maxRedeliveries := by
    rw [hcount]
    decide
  obtain ⟨exchange, headers, -, hcontent, hcounter, hdelay, -, hkept⟩ :=
    retry_changes_two_headers d hx accepting tracedMessage .panicked .panicked rfl hbudget
  refine ⟨hx, hbudget, headers, hcontent, ?_, (hdelay 3000000000 rfl rfl).2, ?_⟩
  · rw [hcount] at hcounter
    exact hcounter
  · rw [hkept "traceparent" (by decide) (by decide)]
    rfl

end AmqpDelivery
