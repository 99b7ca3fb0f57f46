import AmqpDelivery.Proofs.Settlement
import AmqpDelivery.Topology
import Mathlib.Data.List.Basic

/-!
# Where messages published again are routed to

The dispatch of a delivery decides where a failed message is published, and the topology of its
consumer decides where the broker routes it from there. The two agree (`retries_routed_back`): a
message comes back to the queue it was read from, through the default exchange or through the delay
exchange, which several consumers may share as long as none of them declares an exchange of its own
under that name.
-/

namespace AmqpDelivery

/-- The exchange and the routing key of a publication. -/
def ChannelCall.target? : ChannelCall → Option (String × String)
  | .publish exchange key _ _ => some (exchange, key)
  | _ => none

/-- The call puts a message into the delay exchange of the consumer, to be held there. -/
def ChannelCall.EntersDelayOf (d : Definition) : ChannelCall → Prop
  | .publish exchange _ _ p =>
      Topology.delayName? d = some exchange ∧ (p.headerTable.get? delayHeader).isSome = true
  | _ => False

/-! ## Routing by the topologies of several consumers -/

/-- The exchanges that the consumers declare. -/
def exchangesOf (ds : List Definition) : List Exchange :=
  ds.flatMap fun d => (Topology.forConsumer d).exchanges

/-- The queues that the consumers declare. -/
def queuesOf (ds : List Definition) : List Queue :=
  ds.flatMap fun d => (Topology.forConsumer d).queues

/-- The bindings that the consumers declare. -/
def bindingsOf (ds : List Definition) : List Binding :=
  ds.flatMap fun d => (Topology.forConsumer d).bindings

/-- The default exchange routes to the queue that the key names. -/
def defaultRoutes (ds : List Definition) (key : String) : List String :=
  ((queuesOf ds).filter fun q => q.name = key).map Queue.name

/-- A direct exchange routes to the queues that are bound to it under the key. -/
def directRoutes (ds : List Definition) (exchange key : String) : List String :=
  ((bindingsOf ds).filter fun b => b.exchange = exchange ∧ b.routingKey = key).map Binding.queue

/-- The queues to which a publication is routed. -/
def routes (ds : List Definition) (exchange key : String) : List String :=
  if exchange = defaultExchange then defaultRoutes ds key else directRoutes ds exchange key

/-- The topology has a delay exchange of this name, and leads from it to the queue. -/
structure Topology.LeadsBack (t : Topology) (exchange queue : String) : Prop where
  declared : ∃ e ∈ t.exchanges, e.name = exchange ∧ e.durable = true ∧
    e.kind.wire = delayedExchangeType ∧
    e.arguments.get? delayedTypeArgument = some (.ofText ExchangeKind.direct.wire)
  bound : ⟨queue, exchange, queue⟩ ∈ t.bindings

/-- No consumer has an exchange of its own under the name of a delay exchange. -/
def DelaysApart (ds : List Definition) : Prop :=
  ∀ d ∈ ds, ∀ d' ∈ ds, ∀ e ∈ d.exchange, Topology.delayName? d' ≠ some e.name

instance (ds : List Definition) : Decidable (DelaysApart ds) :=
  inferInstanceAs (Decidable (∀ d ∈ ds, ∀ d' ∈ ds, ∀ e ∈ d.exchange,
    Topology.delayName? d' ≠ some e.name))

section Lists

theorem flatMap_ite_singleton {α β : Type} (l : List α) (p : α → Prop) [DecidablePred p] (b : β) :
    (l.flatMap fun a => if p a then [b] else []) = (l.filter p).map fun _ => b := by
  induction l with
  | nil => rfl
  | cons a rest ih =>
      by_cases hp : p a <;> simp [List.flatMap_cons, hp, ih]

/-- A filter that only passes elements with the key of `a` leaves `a` alone, if keys are distinct. -/
theorem filter_eq_singleton {α β : Type} {l : List α} {key : α → β} {p : α → Bool} {a : α}
    (hnodup : (l.map key).Nodup) (ha : a ∈ l) (hp : p a = true)
    (hkey : ∀ b ∈ l, p b = true → key b = key a) : l.filter p = [a] := by
  induction l with
  | nil => cases ha
  | cons b rest ih =>
      obtain ⟨hfresh, hrest⟩ := List.nodup_cons.1 hnodup
      have hkeys : ∀ c ∈ rest, p c = true → key c = key a :=
        fun c hc => hkey c (List.mem_cons_of_mem b hc)
      rcases List.mem_cons.1 ha with rfl | hmem
      · have hnil : rest.filter p = [] := by
          rw [List.filter_eq_nil_iff]
          intro c hc hpc
          exact hfresh (hkeys c hc hpc ▸ List.mem_map_of_mem hc)
        rw [List.filter_cons_of_pos hp, hnil]
      · have hb : ¬p b = true := by
          intro hpb
          exact hfresh (hkey b List.mem_cons_self hpb ▸ List.mem_map_of_mem hmem)
        rw [List.filter_cons_of_neg hb, ih hrest hmem hkeys]

end Lists

section Routing

variable {ds : List Definition} {d : Definition} {name : String}

theorem target?_retryCall (d : Definition) (m : Message) :
    (retryCall d m).target? = some ((retryRoute d).exchange, d.queue.name) := rfl

@[simp] theorem name_queueOf (d : Definition) : (Topology.queueOf d).name = d.queue.name := by
  unfold Topology.queueOf
  split <;> rfl

/-- The queue of a consumer is the one that its name is routed to by default. -/
theorem defaultRoutes_queue (hqueues : (ds.map fun d => d.queue.name).Nodup) (hd : d ∈ ds) :
    defaultRoutes ds d.queue.name = [d.queue.name] := by
  have hmap : queuesOf ds = ds.map Topology.queueOf := by
    rw [queuesOf, List.map_eq_flatMap]
    rfl
  have hnames : ((queuesOf ds).map Queue.name).Nodup := by
    simpa [hmap, Function.comp_def] using hqueues
  have hmem : Topology.queueOf d ∈ queuesOf ds := by
    rw [hmap]
    exact List.mem_map_of_mem hd
  have hone := filter_eq_singleton (p := fun q => q.name = d.queue.name) hnames hmem (by simp)
    (by simp)
  rw [defaultRoutes, hone, List.map_singleton, name_queueOf]

/-- Where the exchange of a consumer is not the delay exchange, at most one binding of the consumer
leads from the delay exchange. -/
theorem bindings_from_delay (hown : ∀ e, d.exchange = some e → e.name ≠ name) (key : String) :
    (Topology.forConsumer d).bindings.filter
        (fun b => b.exchange = name ∧ b.routingKey = key) =
      if Topology.delayName? d = some name ∧ d.queue.name = key then [⟨key, name, key⟩] else [] := by
  have hnone : (Topology.ownBindings d).filter
      (fun b => b.exchange = name ∧ b.routingKey = key) = [] := by
    rw [List.filter_eq_nil_iff]
    intro b hb
    unfold Topology.ownBindings at hb
    split at hb
    · next e he =>
      obtain ⟨k, -, rfl⟩ := List.mem_map.1 hb
      simp [hown e he]
    · cases hb
  rw [Topology.forConsumer, List.filter_append, hnone, List.nil_append]
  cases Topology.delayName? d with
  | none => rfl
  | some other => by_cases hname : other = name <;> by_cases hkey : d.queue.name = key <;>
      simp [hname, hkey]

/-- From its delay exchange the key of a consumer leads to its queue alone. -/
theorem directRoutes_delay (hqueues : (ds.map fun d => d.queue.name).Nodup) (hapart : DelaysApart ds)
    (hd : d ∈ ds) (hname : Topology.delayName? d = some name) :
    directRoutes ds name d.queue.name = [d.queue.name] := by
  have hown : ∀ d' ∈ ds, ∀ e, d'.exchange = some e → e.name ≠ name := by
    rintro d' hd' e he rfl
    exact hapart d' hd' d hd e he hname
  have hbindings : (bindingsOf ds).filter
      (fun b => b.exchange = name ∧ b.routingKey = d.queue.name) =
      (ds.filter fun d' => Topology.delayName? d' = some name ∧ d'.queue.name = d.queue.name).map
        fun _ => ⟨d.queue.name, name, d.queue.name⟩ := by
    rw [bindingsOf, List.filter_flatMap, ← flatMap_ite_singleton]
    exact List.flatMap_congr fun d' hd' => bindings_from_delay (hown d' hd') _
  -- the only consumer with this queue is `d`
  have hone := filter_eq_singleton
    (p := fun d' => Topology.delayName? d' = some name ∧ d'.queue.name = d.queue.name)
    hqueues hd (by simp [hname]) (by simp)
  rw [directRoutes, hbindings, hone]
  rfl

/-- A delayed consumer declares its delay exchange and the way back from it. -/
theorem leadsBack_of_delayed (hname : Topology.delayName? d = some name) :
    (Topology.forConsumer d).LeadsBack name d.queue.name where
  declared := by
    refine ⟨Topology.delayExchange name, ?_, rfl, rfl, rfl, ?_⟩
    · simp [Topology.forConsumer, hname]
    · simp [Topology.delayExchange, Exchange.directDelayed, Keyed.get?_insert, ExchangeKind.wire]
  bound := by simp [Topology.forConsumer, hname]

/-- All consumers that declare an exchange under the name of a delay exchange declare the same. -/
theorem eq_delayExchange (hapart : DelaysApart ds) (hd : d ∈ ds)
    (hname : Topology.delayName? d = some name) {e : Exchange} (he : e ∈ exchangesOf ds)
    (hsame : e.name = name) : e = Topology.delayExchange name := by
  obtain ⟨d', hd', he⟩ := List.mem_flatMap.1 he
  rcases List.mem_append.1 he with hown | hdelay
  · have hne := hapart d' hd' d hd e (Option.mem_toList.1 hown)
    exact absurd (hsame ▸ hname) hne
  · obtain ⟨other, -, rfl⟩ := Option.map_eq_some_iff.1 (Option.mem_toList.1 hdelay)
    have hother : other = name := hsame
    rw [hother]

/-- A failed message goes to the delay exchange if its consumer is delayed and has a delay. -/
theorem exchange_retryRoute (d : Definition) :
    (d.delayed = true ∧ d.redelivery.delayMs.isSome = true →
      Topology.delayName? d = some (retryRoute d).exchange) ∧
    (¬(d.delayed = true ∧ d.redelivery.delayMs.isSome = true) →
      (retryRoute d).exchange = defaultExchange) := by
  unfold retryRoute Topology.delayName? Definition.deadLetterExchange
  cases d.delayed <;> cases d.redelivery.delayMs <;> cases d.deadLetterOverride <;> simp

theorem retryCall_entersDelayOf (d : Definition) (m : Message) :
    (retryCall d m).EntersDelayOf d ↔ d.delayed = true ∧ d.redelivery.delayMs.isSome = true := by
  have hheader : ((retryCall d m).EntersDelayOf d ↔
      Topology.delayName? d = some (retryRoute d).exchange ∧
        (d.delayed = true ∧ d.redelivery.delayMs.isSome = true)) := by
    rw [← Bool.and_eq_true, ← isSome_delay_retryRoute, retryCall, ChannelCall.EntersDelayOf]
    simp
  rw [hheader]
  exact ⟨fun h => h.2, fun h => ⟨(exchange_retryRoute d).1 h, h⟩⟩

end Routing

/-- A failed message that is published again is routed to the queue of its consumer and to no other.
It passes through the delay exchange if and only if the consumer is delayed and has a delay, and
then this exchange is one that the consumer declares, bound back to its queue. -/
theorem retries_routed_back (ds : List Definition) (hqueues : (ds.map fun d => d.queue.name).Nodup)
    (hapart : DelaysApart ds) (d : Definition) (hd : d ∈ ds) (answer : ChannelAnswers) (m : Message)
    (run : HandlerRun) (f : HandlerFailure) (hf : run.outcome = .error f)
    (hbudget : m.retryCount d.redelivery < d.redelivery.maxRedeliveries) :
    let calls := (dispatch d answer m run).calls
    ∃ exchange, calls.filterMap ChannelCall.target? = [(exchange, d.queue.name)] ∧
      routes ds exchange d.queue.name = [d.queue.name] ∧
      ((∃ c ∈ calls, c.EntersDelayOf d) ↔
        d.delayed = true ∧ d.redelivery.delayMs.isSome = true) ∧
      (d.delayed = true ∧ d.redelivery.delayMs.isSome = true →
        Topology.delayName? d = some exchange ∧
        directRoutes ds exchange d.queue.name = [d.queue.name] ∧
        (Topology.forConsumer d).LeadsBack exchange d.queue.name ∧
        ∀ e ∈ exchangesOf ds, e.name = exchange → e = Topology.delayExchange exchange) ∧
      (¬(d.delayed = true ∧ d.redelivery.delayMs.isSome = true) →
        exchange = defaultExchange ∧ defaultRoutes ds d.queue.name = [d.queue.name]) := by
  intro calls
  -- the message is published, and then the delivery is settled whatever the answer
  obtain ⟨last, hcalls, htarget, hlast⟩ : ∃ last, calls = [retryCall d m, last] ∧
      last.target? = none ∧ ¬last.EntersDelayOf d := by
    cases hp : answer (retryCall d m) with
    | ok u =>
        have hcalls := congrArg Dispatched.calls (dispatch_of_published hf hbudget hp)
        exact ⟨.ack m.tag, hcalls, rfl, id⟩
    | error g =>
        have hcalls := congrArg Dispatched.calls (dispatch_of_unpublished hf hbudget hp)
        exact ⟨.nack m.tag true, hcalls, rfl, id⟩
  obtain ⟨hdelayed, hdirect⟩ := exchange_retryRoute d
  have hdefault : defaultRoutes ds d.queue.name = [d.queue.name] := defaultRoutes_queue hqueues hd
  refine ⟨(retryRoute d).exchange, ?_, ?_, ?_, fun h => ?_, fun h => ⟨hdirect h, hdefault⟩⟩
  · rw [hcalls]
    simp [target?_retryCall, htarget]
  · unfold routes
    split
    · exact hdefault
    · next hne =>
      refine directRoutes_delay hqueues hapart hd (hdelayed ?_)
      exact Classical.not_not.1 fun h => hne (hdirect h)
  · rw [hcalls]
    simp [hlast, retryCall_entersDelayOf]
  · exact ⟨hdelayed h, directRoutes_delay hqueues hapart hd (hdelayed h),
      leadsBack_of_delayed (hdelayed h), fun e he => eq_delayExchange hapart hd (hdelayed h) he⟩

/-- Two consumers that share the delay exchange, one of them with an exchange of its own, and one
that is not delayed. -/
def sharingConsumers : List Definition :=
  [{ Definition.new "orders" "orders" with
      exchange := some { name := "events", kind := .topic } }.withRetryDelay 5000,
    (Definition.new "invoices" "invoices").withRetryDelay 1000, Definition.new "audits" "audits"]

theorem retries_routed_back_shared :
    (sharingConsumers.map fun d => d.queue.name).Nodup ∧ DelaysApart sharingConsumers ∧
      ∀ d ∈ sharingConsumers, ∃ exchange,
        (dispatch d accepting { consumer := d.name } .panicked).calls.filterMap ChannelCall.target? =
          [(exchange, d.queue.name)] ∧
        routes sharingConsumers exchange d.queue.name = [d.queue.name] := by
  have hqueues : (sharingConsumers.map fun d => d.queue.name).Nodup := by decide
  have hapart : DelaysApart sharingConsumers := by decide
  have hbudget : ∀ d ∈ sharingConsumers,
      ({ consumer := d.name } : Message).retryCount d.redelivery < d.redelivery.maxRedeliveries := by
    decide
  refine ⟨hqueues, hapart, fun d hd => ?_⟩
  obtain ⟨exchange, htarget, hroutes, -⟩ := retries_routed_back sharingConsumers hqueues hapart d hd
    accepting { consumer := d.name } .panicked .panicked rfl (hbudget d hd)
  exact ⟨exchange, htarget, hroutes⟩

end AmqpDelivery
