import AmqpDelivery.Dispatch.Run

/-!
# Every dispatch settles its delivery once

A handler returns a verdict, or it fails: it returns an error or panics (`HandlerRun.Fails`). Either
way the calls of a dispatch are publications, at most one, followed by one call that settles the
delivery, and the dispatch returns what the channel answers to that last call
(`dispatch_settles_once`). Which settlement it reports can be read off the calls alone
(`Settlement.ofCalls?`): a message published again carries a delay exactly when it goes to the
delay exchange.
-/

namespace AmqpDelivery

/-- The handler came to no verdict. -/
inductive HandlerRun.Fails : HandlerRun → Prop
  /-- It returned an error. -/
  | returned (f : HandlerFailure) : Fails (.returned (.error f))
  /-- It panicked. -/
  | panicked : Fails .panicked

/-- The delivery that a call settles; a publication settles none. -/
def ChannelCall.settledTag? : ChannelCall → Option UInt64
  | .ack tag | .nack tag _ | .reject tag _ => some tag
  | .publish _ _ _ _ => none

/-- The call takes its delivery off the queue for good. -/
def ChannelCall.removes : ChannelCall → Bool
  | .ack _ => true
  | .nack _ requeue | .reject _ requeue => !requeue
  | .publish _ _ _ _ => false

/-- A channel on which every call goes through. -/
def accepting : ChannelAnswers := fun _ => .ok ()

/-- The settlement that a list of calls amounts to. -/
def Settlement.ofCalls? : List ChannelCall → Option Settlement
  | [.ack _] => some .acked
  | [.nack _ true] | [.publish _ _ _ _, .nack _ true] => some .requeued
  | [.nack _ false] => some .dropped
  | [.reject _ _] => some .rejected
  | [.publish _ _ _ p, .ack _] =>
      some (if (p.headerTable.get? delayHeader).isSome then .delayed else .retried)
  | _ => none

/-- A dispatch takes a handler that came to no verdict for one that returned an error. -/
theorem HandlerRun.fails_iff {run : HandlerRun} : run.Fails ↔ ∃ f, run.outcome = .error f := by
  constructor
  · rintro (⟨f⟩ | ⟨⟩)
    · exact ⟨f, rfl⟩
    · exact ⟨.panicked, rfl⟩
  · rintro ⟨f, hf⟩
    cases run with
    | returned result =>
        cases hf
        exact .returned f
    | panicked => exact .panicked

@[simp] theorem Verdict.settledTag?_call (tag : UInt64) (v : Verdict) :
    (v.call tag).settledTag? = some tag := by
  cases v <;> rfl

@[simp] theorem Verdict.ofCalls?_call (tag : UInt64) (v : Verdict) :
    Settlement.ofCalls? [v.call tag] = some v.settlement := by
  cases v <;> rfl

/-! ## Messages published again -/

/-- Whatever the headers were, the delay header of a message published again is the delay. -/
@[simp] theorem get?_retryHeaders_delay (headers : FieldTable) (countHeader : String)
    (count : UInt32) (delay : Option UInt32) :
    (retryHeaders headers countHeader count delay).get? delayHeader = delay.map delayValue := by
  cases delay with
  | none => simp [retryHeaders, setDelay, Keyed.get?_erase]
  | some ms => simp [retryHeaders, setDelay, Keyed.get?_insert]

/-- Apart from the delay, only the counter changes. -/
theorem get?_retryHeaders_of_ne (headers : FieldTable) (countHeader : String) (count : UInt32)
    (delay : Option UInt32) {key : String} (hkey : key ≠ delayHeader) :
    (retryHeaders headers countHeader count delay).get? key =
      if key = countHeader then some (.longLongInt (Int64.ofNat count.toNat))
      else headers.get? key := by
  cases delay with
  | none => simp [retryHeaders, setDelay, Keyed.get?_erase, Keyed.get?_insert, hkey]
  | some ms => simp [retryHeaders, setDelay, Keyed.get?_insert, hkey]

@[simp] theorem headerTable_retryProperties (p : Properties) (countHeader : String)
    (count : UInt32) (delay : Option UInt32) :
    (retryProperties p countHeader count delay).headerTable =
      retryHeaders p.headerTable countHeader count delay := rfl

/-- A message goes to the delay exchange when its consumer is delayed and has a delay. -/
theorem settlement_retryRoute (d : Definition) :
    (retryRoute d).settlement =
      if d.delayed && d.redelivery.delayMs.isSome then .delayed else .retried := by
  unfold retryRoute Definition.deadLetterExchange
  cases d.delayed <;> cases d.redelivery.delayMs <;> cases d.deadLetterOverride <;> rfl

theorem isSome_delay_retryRoute (d : Definition) :
    (retryRoute d).delay.isSome = (d.delayed && d.redelivery.delayMs.isSome) := by
  unfold retryRoute Definition.deadLetterExchange
  cases d.delayed <;> cases d.redelivery.delayMs <;> cases d.deadLetterOverride <;> rfl

theorem ofCalls?_retryCall_ack (d : Definition) (m : Message) (tag : UInt64) :
    Settlement.ofCalls? [retryCall d m, .ack tag] = some (retryRoute d).settlement := by
  rw [settlement_retryRoute, ← isSome_delay_retryRoute]
  simp [retryCall, Settlement.ofCalls?]

/-! ## The four ways through a dispatch -/

section Dispatch

variable {d : Definition} {answer : ChannelAnswers} {m : Message} {run : HandlerRun}

theorem dispatch_of_verdict {v : Verdict} (hv : run.outcome = .ok v) :
    dispatch d answer m run = settleWith answer (v.call m.tag) v.settlement := by
  simp [dispatch, Plan.of, Plan.run, hv]

theorem dispatch_of_spent {f : HandlerFailure} (hf : run.outcome = .error f)
    (hc : d.redelivery.maxRedeliveries ≤ m.retryCount d.redelivery) :
    dispatch d answer m run = settleWith answer (.reject m.tag false) .rejected := by
  simp [dispatch, Plan.of, Plan.run, hf, hc, Verdict.call, Verdict.settlement]

theorem dispatch_of_published {f : HandlerFailure} (hf : run.outcome = .error f)
    (hc : m.retryCount d.redelivery < d.redelivery.maxRedeliveries)
    (hp : answer (retryCall d m) = .ok ()) :
    dispatch d answer m run =
      ⟨[retryCall d m, .ack m.tag], (answer (.ack m.tag)).map fun _ => (retryRoute d).settlement⟩ := by
  have hc' : ¬ d.redelivery.maxRedeliveries ≤ m.retryCount d.redelivery := UInt32.not_le.2 hc
  simp [dispatch, Plan.of, Plan.run, hf, hc', hp, settleWith, Verdict.call]

theorem dispatch_of_unpublished {f : HandlerFailure} (hf : run.outcome = .error f)
    (hc : m.retryCount d.redelivery < d.redelivery.maxRedeliveries) {g : Failure}
    (hp : answer (retryCall d m) = .error g) :
    dispatch d answer m run =
      ⟨[retryCall d m, .nack m.tag true], (answer (.nack m.tag true)).map fun _ => .requeued⟩ := by
  have hc' : ¬ d.redelivery.maxRedeliveries ≤ m.retryCount d.redelivery := UInt32.not_le.2 hc
  simp [dispatch, Plan.of, Plan.run, hf, hc', hp, settleWith, Verdict.call]

/-- A call of a dispatch publishes the message again, puts the delivery back or takes it off. -/
theorem mem_dispatch_calls {c : ChannelCall} (h : c ∈ (dispatch d answer m run).calls) :
    c = retryCall d m ∨ c = .nack m.tag true ∨ (c.removes = true ∧ c.settledTag? = some m.tag) := by
  cases ho : run.outcome with
  | ok v =>
      rw [dispatch_of_verdict ho] at h
      obtain rfl : c = v.call m.tag := by simpa [settleWith] using h
      cases v <;> simp [Verdict.call, ChannelCall.removes, ChannelCall.settledTag?]
  | error f =>
      rcases UInt32.le_or_lt d.redelivery.maxRedeliveries (m.retryCount d.redelivery) with hc | hc
      · rw [dispatch_of_spent ho hc] at h
        obtain rfl : c = .reject m.tag false := by simpa [settleWith] using h
        exact Or.inr (Or.inr ⟨rfl, rfl⟩)
      · cases hp : answer (retryCall d m) with
        | ok u =>
            rw [dispatch_of_published ho hc hp] at h
            rcases List.mem_cons.1 h with rfl | h
            · exact Or.inl rfl
            · obtain rfl := List.mem_singleton.1 h
              exact Or.inr (Or.inr ⟨rfl, rfl⟩)
        | error g =>
            rw [dispatch_of_unpublished ho hc hp] at h
            rcases List.mem_cons.1 h with rfl | h
            · exact Or.inl rfl
            · exact Or.inr (Or.inl (List.mem_singleton.1 h))

/-- What every dispatch has in common: publications, then one call that settles the delivery, and
the answer to it as the result. -/
structure Dispatched.SettledBy (r : Dispatched) (answer : ChannelAnswers) (tag : UInt64)
    (before : List ChannelCall) (last : ChannelCall) (s : Settlement) : Prop where
  calls : r.calls = before ++ [last]
  result : r.result = (answer last).map fun _ => s
  published : ∀ c ∈ before, c.settledTag? = none
  settled : last.settledTag? = some tag
  named : Settlement.ofCalls? r.calls = some s

theorem Dispatched.SettledBy.of_settleWith (answer : ChannelAnswers) (tag : UInt64) (v : Verdict) :
    (settleWith answer (v.call tag) v.settlement).SettledBy answer tag [] (v.call tag)
      v.settlement where
  calls := rfl
  result := rfl
  published := by simp
  settled := Verdict.settledTag?_call tag v
  named := Verdict.ofCalls?_call tag v

/-- On the failing path an acknowledgement comes after a publication that went through. -/
theorem dispatch_settledBy (d : Definition) (answer : ChannelAnswers) (m : Message)
    (run : HandlerRun) :
    ∃ before last s, (dispatch d answer m run).SettledBy answer m.tag before last s ∧
      (run.Fails → last = .ack m.tag → ∃ p ∈ before, answer p = .ok ()) := by
  cases ho : run.outcome with
  | ok v =>
      rw [dispatch_of_verdict ho]
      refine ⟨_, _, _, .of_settleWith answer m.tag v, ?_⟩
      intro hfails
      obtain ⟨f, hf⟩ := HandlerRun.fails_iff.1 hfails
      rw [ho] at hf
      cases hf
  | error f =>
      rcases UInt32.le_or_lt d.redelivery.maxRedeliveries (m.retryCount d.redelivery) with hc | hc
      -- the budget is spent: a single rejection
      · rw [dispatch_of_spent ho hc]
        refine ⟨_, _, _, .of_settleWith answer m.tag .reject, ?_⟩
        intro _ hack
        simp [Verdict.call] at hack
      · cases hp : answer (retryCall d m) with
        | ok u =>
            -- the message is out again, and its old delivery is acknowledged
            rw [dispatch_of_published ho hc hp]
            refine ⟨[retryCall d m], .ack m.tag, (retryRoute d).settlement, ?_, ?_⟩
            · exact ⟨rfl, rfl, List.forall_mem_singleton.2 rfl, rfl,
                ofCalls?_retryCall_ack d m m.tag⟩
            · intro _ _
              exact ⟨retryCall d m, by simp, hp⟩
        | error g =>
            -- nothing is out, so the delivery goes back to its queue
            rw [dispatch_of_unpublished ho hc hp]
            refine ⟨[retryCall d m], .nack m.tag true, .requeued, ?_, ?_⟩
            · exact ⟨rfl, rfl, List.forall_mem_singleton.2 rfl, rfl, rfl⟩
            · intro _ hack
              simp at hack

end Dispatch

/-- One settlement for every dispatch. The calls are the one call of the verdict, or, when the handler
returned an error or panicked, one rejection if the budget is spent and otherwise a publication and
then an acknowledgement or a requeue. The last call settles the delivery, it is the only one that
does, and its answer alone decides what the dispatch returns. -/
theorem dispatch_settles_once (d : Definition) (answer : ChannelAnswers) (m : Message)
    (run : HandlerRun) :
    -- a verdict is one call
    (run = .returned (.ok .ack) → (dispatch d answer m run).calls = [.ack m.tag]) ∧
    (run = .returned (.ok .requeue) → (dispatch d answer m run).calls = [.nack m.tag true]) ∧
    (run = .returned (.ok .drop) → (dispatch d answer m run).calls = [.nack m.tag false]) ∧
    (run = .returned (.ok .reject) → (dispatch d answer m run).calls = [.reject m.tag false]) ∧
    -- so is a failure when the budget is spent
    (run.Fails → d.redelivery.maxRedeliveries ≤ m.retryCount d.redelivery →
      (dispatch d answer m run).calls = [.reject m.tag false]) ∧
    -- otherwise a failure is one publication, and then one call that its answer decides
    (run.Fails → m.retryCount d.redelivery < d.redelivery.maxRedeliveries →
      (∃ exchange key payload properties,
        retryCall d m = .publish exchange key payload properties) ∧
      (answer (retryCall d m) = .ok () →
        (dispatch d answer m run).calls = [retryCall d m, .ack m.tag]) ∧
      (∀ g, answer (retryCall d m) = .error g →
        (dispatch d answer m run).calls = [retryCall d m, .nack m.tag true])) ∧
    (dispatch d answer m run).calls.filterMap ChannelCall.settledTag? = [m.tag] ∧
    ∃ before last, (dispatch d answer m run).calls = before ++ [last] ∧
      last.settledTag? = some m.tag ∧
      (run.Fails → last = .ack m.tag → ∃ p ∈ before, p.settledTag? = none ∧ answer p = .ok ()) ∧
      -- the dispatch returns the answer to the last call
      (∀ s, (dispatch d answer m run).result = .ok s ↔
        answer last = .ok () ∧ Settlement.ofCalls? (dispatch d answer m run).calls = some s) ∧
      (∀ f, (dispatch d answer m run).result = .error f ↔ answer last = .error f) := by
  have hverdict : ∀ v, run = .returned (.ok v) →
      (dispatch d answer m run).calls = [v.call m.tag] := by
    rintro v rfl
    rw [dispatch_of_verdict rfl, settleWith]
  refine ⟨hverdict .ack, hverdict .requeue, hverdict .drop, hverdict .reject, ?_, ?_, ?_⟩
  · intro hfails hc
    obtain ⟨f, hf⟩ := HandlerRun.fails_iff.1 hfails
    rw [dispatch_of_spent hf hc, settleWith]
  · intro hfails hc
    obtain ⟨f, hf⟩ := HandlerRun.fails_iff.1 hfails
    refine ⟨⟨_, _, _, _, rfl⟩, ?_, ?_⟩
    · intro hp
      rw [dispatch_of_published hf hc hp]
    · intro g hp
      rw [dispatch_of_unpublished hf hc hp]
  · obtain ⟨before, last, s, h, hack⟩ := dispatch_settledBy d answer m run
    refine ⟨?_, before, last, h.calls, h.settled, ?_, ?_, ?_⟩
    -- what comes before the last call publishes, and publications settle nothing
    · have hbefore : before.filterMap ChannelCall.settledTag? = [] :=
        List.filterMap_eq_nil_iff.2 h.published
      rw [h.calls, List.filterMap_append, hbefore]
      simp [h.settled]
    · intro hfails hlast
      obtain ⟨p, hp, hok⟩ := hack hfails hlast
      exact ⟨p, hp, h.published p hp, hok⟩
    · intro s'
      rw [h.result, h.named]
      cases answer last <;> simp [Except.map]
    · intro f
      rw [h.result]
      cases answer last <;> simp [Except.map]

theorem dispatch_settles_once_panicked :
    let d := Definition.new "orders" "orders"
    let m : Message := { consumer := "orders", tag := 7 }
    let refusing : ChannelAnswers := fun _ => .error .publishing
    HandlerRun.panicked.Fails ∧ m.retryCount d.redelivery < d.redelivery.maxRedeliveries ∧
      (dispatch d accepting m .panicked).calls = [retryCall d m, .ack 7] ∧
      (dispatch d accepting m .panicked).result = .ok .retried ∧
      (dispatch d refusing m .panicked).calls = [retryCall d m, .nack 7 true] ∧
      (dispatch d accepting m (.returned (.ok .drop))).calls = [.nack 7 false] := by
  intro d m refusing
  have hleft : m.retryCount d.redelivery < d.redelivery.maxRedeliveries := by decide
  obtain ⟨-, -, -, -, -, haccepted, -⟩ := dispatch_settles_once d accepting m .panicked
  obtain ⟨-, -, -, -, -, hrefused, -⟩ := dispatch_settles_once d refusing m .panicked
  obtain ⟨-, -, hdrop, -⟩ := dispatch_settles_once d accepting m (.returned (.ok .drop))
  refine ⟨.panicked, hleft, ?_, rfl, ?_, hdrop rfl⟩
  · exact (haccepted .panicked hleft).2.1 rfl
  · exact (hrefused .panicked hleft).2.2 _ rfl

end AmqpDelivery
