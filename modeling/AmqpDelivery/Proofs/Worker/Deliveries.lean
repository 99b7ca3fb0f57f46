import AmqpDelivery.Proofs.Worker.Account

/-!
# No delivery is lost or settled twice

When the tags of the deliveries that a worker reads are distinct on every channel, each delivery is
dispatched at most once and settled at most once, on the channel it arrived on, and is taken off its
queue only for a reason (`deliveries_settled_once`). Nothing is assumed about the handlers, the
answers of the channel, the limiter or the moment at which the worker is told to stop: they are the
events of the run.
-/

namespace AmqpDelivery

/-- The deliveries that were settled, by channel and tag, in the order of the calls. -/
def settlementsOf (actions : List WorkerAction) : List (ChannelRef × UInt64) :=
  (callsOf actions).filterMap fun c => c.2.settledTag?.map fun tag => (c.1, tag)

theorem settlementsOf_append (actions more : List WorkerAction) :
    settlementsOf (actions ++ more) = settlementsOf actions ++ settlementsOf more := by
  simp [settlementsOf]

theorem mem_settlementsOf {actions : List WorkerAction} {c : ChannelRef} {tag : UInt64} :
    (c, tag) ∈ settlementsOf actions ↔
      ∃ call, (c, call) ∈ callsOf actions ∧ call.settledTag? = some tag := by
  simp only [settlementsOf, List.mem_filterMap, Option.map_eq_some_iff, Prod.mk.injEq]
  constructor
  · rintro ⟨⟨c', call⟩, hmem, tag', htag, rfl, rfl⟩
    exact ⟨call, hmem, htag⟩
  · rintro ⟨call, hmem, htag⟩
    exact ⟨(c, call), hmem, tag, htag, rfl, rfl⟩

/-- A delivery by channel and tag. -/
def deliveryKey (d : ChannelRef × Message) : ChannelRef × UInt64 := (d.1, d.2.tag)

namespace Worker

variable {w : Worker} {steps : Steps}

/-- The delivery that a settlement belongs to has come to its settlement. -/
theorem exists_of_settlement (hcall : w.CallAccount steps) {c : ChannelRef} {tag : UInt64}
    (h : (c, tag) ∈ settlementsOf (actionsOf steps)) :
    ∃ (i : Nat) (handling : Handling), w.handlings[i]? = some handling ∧ handling.channel = c ∧
      handling.message.tag = tag ∧ handling.stage.hasSettled = true := by
  obtain ⟨call, hmem, htag⟩ := mem_settlementsOf.1 h
  obtain ⟨i, handling, hi, hchannel, hin⟩ := hcall.owned c call hmem
  have hafter := hcall.stages i handling hi
  exact ⟨i, handling, hi, hchannel, (hafter.settledTag hin htag).symm, hafter.hasSettled hin htag⟩

/-- The tag of a call is the tag of the delivery that it is made for. -/
theorem tag_of_moves {i : Nat} {handling : Handling} {stage : Stage} {e : WorkerEvent}
    {call : ChannelCall} {tag : UInt64} (hcall : w.CallAccount steps)
    (hi : w.handlings[i]? = some handling)
    (hmoves : handling.stage.Moves w.definition handling.message e stage)
    (hstage : stage.call? = some call) (htag : call.settledTag? = some tag) :
    tag = handling.message.tag := by
  have hafter := (hcall.stages i handling hi).move hmoves
  rw [hstage] at hafter
  exact hafter.settledTag (List.mem_append_right _ List.mem_cons_self) htag

/-- Deliveries with the same channel and tag are one delivery. -/
theorem index_eq_of_key (hread : w.ReadAccount (actionsOf steps))
    (hdistinct : ((readsOf (actionsOf steps)).map deliveryKey).Nodup) {i j : Nat}
    {h k : Handling} (hi : w.handlings[i]? = some h) (hj : w.handlings[j]? = some k)
    (hchannel : h.channel = k.channel) (htag : h.message.tag = k.message.tag) : i = j := by
  have hsub : (dispatchesOf (actionsOf steps)).Sublist (readsOf (actionsOf steps)) :=
    (List.sublist_append_left _ _).trans hread.read
  have hnodup := (hsub.map deliveryKey).nodup hdistinct
  have hget : ∀ {l : Nat} {x : Handling}, w.handlings[l]? = some x →
      ((dispatchesOf (actionsOf steps)).map deliveryKey)[l]? = some (x.channel, x.message.tag) := by
    intro l x hl
    rw [List.getElem?_map, hread.getElem?_dispatchesOf hl]
    rfl
  have hlength := (List.getElem?_eq_some_iff.1 (hget hi)).1
  apply (List.getElem?_inj hlength hnodup).1
  rw [hget hi, hget hj, hchannel, htag]

/-- One event settles one delivery at most. -/
theorem settlements_step_nodup (w : Worker) (e : WorkerEvent) :
    (settlementsOf (w.step e).2).Nodup := by
  have heffect := step_effect w e
  generalize w.step e = r at heffect
  cases heffect with
  | quiet _ _ hquiet _ _ =>
      rw [settlementsOf, (quiet_actions hquiet).2.2]
      exact List.nodup_nil
  | read => exact List.nodup_nil
  | dispatched => exact List.nodup_nil
  | @advanced i handling stage =>
      cases stage.call? with
      | none => exact List.nodup_nil
      | some call =>
          have hsingle : settlementsOf [.call handling.channel call] =
              (call.settledTag?.map fun tag => (handling.channel, tag)).toList := by
            cases h : call.settledTag? <;> simp [settlementsOf, callsOf, h]
          show (settlementsOf [.call handling.channel call]).Nodup
          rw [hsingle]
          cases call.settledTag? <;> simp

/-- No delivery is settled twice. -/
theorem settlements_nodup (d : Definition) (reconnect : ReconnectSettings) (stopping : Bool)
    (events : List WorkerEvent)
    (hdistinct : ((readsOf (actionsOf ((spawned d reconnect stopping).trace events))).map
      deliveryKey).Nodup) :
    (settlementsOf (actionsOf ((spawned d reconnect stopping).trace events))).Nodup := by
  induction events using List.reverseRecOn with
  | nil => exact List.nodup_nil
  | append_singleton events e ih =>
      obtain ⟨hread, hcall⟩ := account_run d reconnect stopping events
      rw [trace_concat, actionsOf_concat, readsOf_append, List.map_append] at hdistinct
      have hearlier := (List.nodup_append.1 hdistinct).1
      rw [trace_concat, actionsOf_concat, settlementsOf_append]
      refine List.nodup_append.2 ⟨ih hearlier, settlements_step_nodup _ e, ?_⟩
      rintro ⟨c, tag⟩ hold ⟨c', tag'⟩ hnew heq
      obtain ⟨rfl, rfl⟩ := Prod.mk.inj heq
      -- the new call belongs to a dispatch that had not come to its settlement, the old one to a
      -- dispatch that had, and the tags tell that they are the same dispatch
      obtain ⟨call, hmem, htag⟩ := mem_settlementsOf.1 hnew
      obtain ⟨i, handling, stage, hi, hchannel, -, hstage, hmoves⟩ := exists_of_call hmem
      obtain ⟨j, other, hj, hchannel', htag', hsettled⟩ := exists_of_settlement hcall hold
      have hsame := tag_of_moves hcall hi hmoves hstage htag
      obtain rfl := index_eq_of_key hread hearlier hi hj (hchannel.trans hchannel'.symm)
        (hsame.symm.trans htag'.symm)
      obtain rfl := Option.some.inj (hi.symm.trans hj)
      rw [hmoves.not_hasSettled hstage] at hsettled
      cases hsettled

end Worker

open Worker in
/-- For a run of a worker whose deliveries have distinct tags on every channel: each delivery that
was read is dispatched at most once; no delivery is settled twice; the calls made for a delivery are
the first calls of one dispatch of its message. Every call is made for a delivery that was
dispatched before, on the channel that delivery arrived on, and one that takes it off its queue is
justified. When the worker asks to release a channel, each delivery it read there was taken off,
was put back or is not settled; and it asks for that after it has read from a channel, unless it
still holds the channel. -/
theorem deliveries_settled_once (d : Definition) (reconnect : ReconnectSettings) (stopping : Bool)
    (events : List WorkerEvent)
    (hdistinct : ((readsOf ((spawned d reconnect stopping).run events).2).map deliveryKey).Nodup) :
    let steps := (spawned d reconnect stopping).trace events
    (dispatchesOf (actionsOf steps)).Sublist (readsOf (actionsOf steps)) ∧
    (settlementsOf (actionsOf steps)).Nodup ∧
    (∀ i c m, (dispatchesOf (actionsOf steps))[i]? = some (c, m) →
      ∃ answer run, callsFor i steps <+: (dispatch d answer m run).calls) ∧
    (∀ before e actions after, steps = before ++ (e, actions) :: after →
      (∀ c call, (c, call) ∈ callsOf actions →
        ∃ i m, e.delivery? = some i ∧ (dispatchesOf (actionsOf before))[i]? = some (c, m) ∧
          (∀ tag, call.settledTag? = some tag → tag = m.tag) ∧
          (call.removes = true → Justified d before i m e call)) ∧
      (∀ c, .release c ∈ actions → ∀ m, (c, m) ∈ readsOf (actionsOf before) →
        (∃ call, (c, call) ∈ callsOf (actionsOf before) ∧ call.settledTag? = some m.tag ∧
          call.removes = true) ∨
        (c, .nack m.tag true) ∈ callsOf (actionsOf before) ∨
        (c, m.tag) ∉ settlementsOf (actionsOf before))) ∧
    (∀ c m, (c, m) ∈ readsOf (actionsOf steps) →
      ((spawned d reconnect stopping).run events).1.held? = some c ∨
        [WorkerAction.submit c m, .release c].Sublist (actionsOf steps)) := by
  intro steps
  rw [run_actions] at hdistinct
  obtain ⟨hread, hcall⟩ := account_run d reconnect stopping events
  refine ⟨(List.sublist_append_left _ _).trans hread.read,
    settlements_nodup d reconnect stopping events hdistinct, ?_, ?_, ?_⟩
  · intro i c m hi
    rw [← hread.dispatched, List.getElem?_map, Option.map_eq_some_iff] at hi
    obtain ⟨handling, hhandling, hplace⟩ := hi
    obtain ⟨rfl, rfl⟩ := Prod.mk.inj hplace
    have hafter := hcall.stages i handling hhandling
    rw [definition_run] at hafter
    exact hafter.begins
  · intro before e actions after heq
    obtain ⟨earlier, rfl, rfl, -⟩ := exists_of_trace_eq heq
    obtain ⟨hread, hcall⟩ := account_run d reconnect stopping earlier
    constructor
    · intro c call hmem
      obtain ⟨i, handling, stage, hi, rfl, he, hstage, hmoves⟩ := exists_of_call hmem
      refine ⟨i, handling.message, he, hread.getElem?_dispatchesOf hi, ?_, ?_⟩
      · intro tag htag
        exact tag_of_moves hcall hi hmoves hstage htag
      · intro hremoves
        have hafter := hcall.stages i handling hi
        rw [definition_run] at hafter hmoves
        exact hmoves.justified hafter he hstage hremoves
    · intro c _ m _
      -- a delivery that is settled was put back or taken off by one of the calls made for it
      by_cases hsettled : (c, m.tag) ∈ settlementsOf
          (actionsOf ((spawned d reconnect stopping).trace earlier))
      · obtain ⟨call, hmem, htag⟩ := mem_settlementsOf.1 hsettled
        obtain ⟨i, handling, hi, -, hin⟩ := hcall.owned c call hmem
        rcases (hcall.stages i handling hi).mem_calls hin with rfl | rfl | ⟨hremoves, -⟩
        · cases htag
        · have heq : handling.message.tag = m.tag := Option.some.inj htag
          rw [heq] at hmem
          exact Or.inr (Or.inl hmem)
        · exact Or.inl ⟨call, hmem, htag, hremoves⟩
      · exact Or.inr (Or.inr hsettled)
  · intro c m hmem
    exact (hread.engaged c m hmem).imp held?_of_engaged? id

/-- A consumer that declares nothing. -/
def undeclared : Definition := { Definition.new "orders" "orders" with declares := false }

/-- Two handlers at a time, of which the first panics and is given up between its publication and
the acknowledgement. -/
def overlappingRun : List WorkerEvent :=
  [.proceed, .connected (.ok ⟨"default", 0⟩), .opened (.ok 0), .prepared true, .prepared true,
    .proceed, .item (.delivery { tag := 1 }), .entered (.ok ()),
    .proceed, .item (.delivery { tag := 2 }), .entered (.ok ()),
    .handled 1 (.returned (.ok .ack)), .handled 0 .panicked, .answered 1 (.ok ()),
    .shutdown, .proceed, .status true, .cancelled, .expired, .dropped 0, .released]

open Worker in
theorem deliveries_settled_once_overlapping :
    ((readsOf ((spawned undeclared {} false).run overlappingRun).2).map deliveryKey).Nodup ∧
      settlementsOf (actionsOf ((spawned undeclared {} false).trace overlappingRun)) = [(0, 2)] ∧
      (settlementsOf (actionsOf ((spawned undeclared {} false).trace overlappingRun))).Nodup := by
  have hdistinct :
      ((readsOf ((spawned undeclared {} false).run overlappingRun).2).map deliveryKey).Nodup := by
    decide
  exact ⟨hdistinct, rfl,
    (deliveries_settled_once undeclared {} false overlappingRun hdistinct).2.1⟩

end AmqpDelivery
