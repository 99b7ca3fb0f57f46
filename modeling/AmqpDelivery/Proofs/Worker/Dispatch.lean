import AmqpDelivery.Proofs.Settlement
import AmqpDelivery.Proofs.Worker.Effect

/-!
# Dispatches of a worker

A worker carries out a dispatch one await at a time. The calls that it has made for a delivery by
the time its dispatch has come to a stage are the first calls of one `dispatch` (`Stage.After`,
`Stage.After.begins`), and a call that takes a delivery off its queue is made for one of three
reasons (`Justified`): its handler returned a verdict, it was published again, or its count has
reached the bound.
-/

namespace AmqpDelivery

/-- The settlement of the delivery was asked for. -/
def Stage.hasSettled : Stage → Bool
  | .settling _ _ | .settled _ => true
  | _ => false

/-- The calls made for a delivery by the time its dispatch has come to a stage. -/
inductive Stage.After (d : Definition) (m : Message) : Stage → List ChannelCall → Prop
  | handling : After d m .handling []
  | republishing {run : HandlerRun} {f : HandlerFailure} (hf : run.outcome = .error f)
      (hc : m.retryCount d.redelivery < d.redelivery.maxRedeliveries) :
      After d m (.republishing (retryCall d m) (retryRoute d).settlement) [retryCall d m]
  | settling (answer : ChannelAnswers) (run : HandlerRun) (call : ChannelCall) (s : Settlement) :
      After d m (.settling call s) (dispatch d answer m run).calls
  | settled (answer : ChannelAnswers) (run : HandlerRun) (result : Except Failure Settlement) :
      After d m (.settled result) (dispatch d answer m run).calls

namespace Stage

variable {d : Definition} {m : Message} {e : WorkerEvent} {stage next : Stage}
  {calls : List ChannelCall}

/-- The first call after the handler has ended. -/
theorem After.ofPlan (run : HandlerRun) :
    After d m (.ofPlan m.tag (Plan.of d m run.outcome))
      (Stage.ofPlan m.tag (Plan.of d m run.outcome)).call?.toList := by
  have hsettle : ∀ (v : Verdict) (answer : ChannelAnswers),
      (dispatch d answer m run).calls = [v.call m.tag] →
        After d m (.settling (v.call m.tag) v.settlement) [v.call m.tag] := by
    intro v answer hcalls
    rw [← hcalls]
    exact .settling answer run _ _
  cases ho : run.outcome with
  | ok v => exact hsettle v accepting (by rw [dispatch_of_verdict ho, settleWith])
  | error f =>
      rcases UInt32.le_or_lt d.redelivery.maxRedeliveries (m.retryCount d.redelivery) with hc | hc
      · have hplan : Plan.of d m (.error f) = .settle .reject := if_pos hc
        rw [hplan]
        exact hsettle .reject accepting (by rw [dispatch_of_spent ho hc]; rfl)
      · have hplan : Plan.of d m (.error f) =
            .republish (retryCall d m) (retryRoute d).settlement := if_neg (UInt32.not_le.2 hc)
        rw [hplan]
        exact .republishing ho hc

/-- Going on adds the call of the next stage. -/
theorem After.move (h : After d m stage calls) (hmoves : Moves d m e stage next) :
    After d m next (calls ++ next.call?.toList) := by
  cases hmoves with
  | handled i run =>
      cases h
      exact .ofPlan run
  | published i call s =>
      cases h with
      | @republishing run f hf hc =>
          -- the same calls as on a channel that answers every call well
          have hd : (dispatch d accepting m run).calls = [retryCall d m, .ack m.tag] := by
            rw [dispatch_of_published hf hc rfl]
          show After d m _ [retryCall d m, .ack m.tag]
          rw [← hd]
          exact .settling accepting run _ _
  | unpublished i g call s =>
      cases h with
      | @republishing run f hf hc =>
          -- the same calls as on a channel that answers none well
          have hd : (dispatch d (fun _ => .error g) m run).calls =
              [retryCall d m, .nack m.tag true] := by
            rw [dispatch_of_unpublished hf hc rfl]
          show After d m _ [retryCall d m, .nack m.tag true]
          rw [← hd]
          exact .settling (fun _ => .error g) run _ _
  | settled i answer call s =>
      cases h with
      | settling answer' run =>
          show After d m _ ((dispatch d answer' m run).calls ++ [])
          rw [List.append_nil]
          exact .settled answer' run _

/-- The calls made so far are the first calls of a dispatch. -/
theorem After.begins (h : After d m stage calls) :
    ∃ answer run, calls <+: (dispatch d answer m run).calls := by
  cases h with
  | handling => exact ⟨accepting, .panicked, List.nil_prefix⟩
  | @republishing run f hf hc =>
      refine ⟨accepting, run, ?_⟩
      rw [dispatch_of_published hf hc rfl]
      exact ⟨[.ack m.tag], rfl⟩
  | settling answer run => exact ⟨answer, run, List.prefix_refl _⟩
  | settled answer run => exact ⟨answer, run, List.prefix_refl _⟩

/-- Only a dispatch that has come to its settlement has made a call that settles. -/
theorem After.hasSettled (h : After d m stage calls) {call : ChannelCall} {tag : UInt64}
    (hmem : call ∈ calls) (htag : call.settledTag? = some tag) : stage.hasSettled = true := by
  cases h with
  | handling => cases hmem
  | republishing =>
      obtain rfl := List.mem_singleton.1 hmem
      cases htag
  | settling => rfl
  | settled => rfl

/-- The calls made for a delivery publish it again, put it back or take it off. -/
theorem After.mem_calls (h : After d m stage calls) {call : ChannelCall} (hmem : call ∈ calls) :
    call = retryCall d m ∨ call = .nack m.tag true ∨
      (call.removes = true ∧ call.settledTag? = some m.tag) := by
  obtain ⟨answer, run, hbegins⟩ := h.begins
  exact mem_dispatch_calls (hbegins.subset hmem)

theorem After.settledTag (h : After d m stage calls) {call : ChannelCall} {tag : UInt64}
    (hmem : call ∈ calls) (htag : call.settledTag? = some tag) : tag = m.tag := by
  rcases h.mem_calls hmem with rfl | rfl | ⟨-, hcall⟩
  · cases htag
  · exact (Option.some.inj htag).symm
  · rw [hcall] at htag
    exact (Option.some.inj htag).symm

/-- A dispatch comes to its settlement once. -/
theorem Moves.not_hasSettled (h : Moves d m e stage next) {call : ChannelCall}
    (hcall : next.call? = some call) : stage.hasSettled = false := by
  cases h with
  | handled => rfl
  | published => rfl
  | unpublished => rfl
  | settled => cases hcall

end Stage

/-! ## Why a delivery may be taken off its queue -/

/-- What allows to take the delivery off that was dispatched at place `i`, in answer to an event
that comes after the given steps. -/
inductive Justified (d : Definition) (before : Worker.Steps) (i : Nat) (m : Message) :
    WorkerEvent → ChannelCall → Prop
  /-- Its handler returns a verdict. -/
  | verdict (v : Verdict) : Justified d before i m (.handled i (.returned (.ok v))) (v.call m.tag)
  /-- It was published again, no other call was made for it, and the publication goes through. -/
  | republished (hcalls : callsFor i before = [retryCall d m]) :
      Justified d before i m (.answered i (.ok ())) (.ack m.tag)
  /-- Its handler fails and its count has reached the bound. -/
  | spent {run : HandlerRun} {f : HandlerFailure} (hf : run.outcome = .error f)
      (hc : d.redelivery.maxRedeliveries ≤ m.retryCount d.redelivery) :
      Justified d before i m (.handled i run) (.reject m.tag false)

theorem HandlerRun.eq_returned {run : HandlerRun} {v : Verdict} (h : run.outcome = .ok v) :
    run = .returned (.ok v) := by
  cases run with
  | returned result => exact congrArg HandlerRun.returned h
  | panicked => cases h

/-- A call that takes a delivery off is justified by the event it answers. -/
theorem Stage.Moves.justified {d : Definition} {m : Message} {e : WorkerEvent}
    {stage next : Stage} {before : Worker.Steps} {i : Nat} {call : ChannelCall}
    (hmoves : stage.Moves d m e next) (hafter : stage.After d m (callsFor i before))
    (he : e.delivery? = some i) (hcall : next.call? = some call) (hremoves : call.removes = true) :
    Justified d before i m e call := by
  cases hmoves with
  | handled j run =>
      obtain rfl := Option.some.inj he
      cases ho : run.outcome with
      | ok v =>
          obtain rfl := HandlerRun.eq_returned ho
          obtain rfl := Option.some.inj hcall
          exact .verdict v
      | error f =>
          rw [ho] at hcall
          -- a failing handler takes the delivery off only when the budget is spent
          by_cases hc : d.redelivery.maxRedeliveries ≤ m.retryCount d.redelivery
          · rw [Plan.of, if_pos hc] at hcall
            obtain rfl := Option.some.inj hcall
            exact .spent ho hc
          · rw [Plan.of, if_neg hc] at hcall
            obtain rfl := Option.some.inj hcall
            cases hremoves
  | published j published s =>
      obtain rfl := Option.some.inj he
      obtain rfl := Option.some.inj hcall
      -- in this stage the publication is the only call so far
      generalize hcalls : callsFor j before = calls at hafter
      cases hafter
      exact .republished hcalls
  | unpublished j f published s =>
      obtain rfl := Option.some.inj hcall
      cases hremoves
  | settled => cases hcall

end AmqpDelivery
