import AmqpDelivery.Proofs.Routing
import AmqpDelivery.Proofs.Topology.Arguments
import AmqpDelivery.Proofs.Topology.Declarable

/-!
# What an installation asks of the broker

A topology is installed one declaration after the other, and the first that is refused is the last.
Main statement: what a consumer declares, what goes to the broker in which order and what the error
names, whatever the broker answers (`installation_in_order`). A queue of a consumer is bound to an
exchange only once both have been accepted.
-/

namespace AmqpDelivery

/-- A method of the protocol that declares something. The broker answers each before the next is
sent. -/
inductive Method where
  | exchangeDeclare (name kind : String) (passive durable autoDelete internal : Bool)
      (arguments : FieldTable)
  | queueDeclare (name : String) (passive durable exclusive autoDelete : Bool)
      (arguments : FieldTable)
  | queueBind (queue exchange routingKey : String) (arguments : FieldTable)

/-- The method that issues a declaration. -/
def Declaration.method : Declaration → Method
  | .exchange e => .exchangeDeclare e.name e.kind.wire e.passive e.durable e.autoDelete e.internal
      e.arguments
  | .queue q => .queueDeclare q.name q.passive q.durable q.exclusive q.autoDelete q.arguments
  | .binding b => .queueBind b.queue b.exchange b.routingKey Keyed.empty

namespace Topology

section Issue

variable {accepts : Nat → Bool} {ds : List Declaration}

/-- Either all declarations are issued and accepted, or those up to the first that is refused are
issued and the failure names that one. -/
theorem issue_cases (accepts : Nat → Bool) (n : Nat) (ds : List Declaration) :
    (issue accepts n ds = (ds, .ok ()) ∧ ∀ i < ds.length, accepts (n + i) = true) ∨
      ∃ i, ∃ d ∈ ds[i]?, (∀ j < i, accepts (n + j) = true) ∧ accepts (n + i) = false ∧
        issue accepts n ds = (ds.take (i + 1), .error d.refusal) := by
  induction ds generalizing n with
  | nil => exact Or.inl ⟨rfl, fun i hi => absurd hi (Nat.not_lt_zero i)⟩
  | cons d rest ih =>
      by_cases hfirst : accepts n = true
      · -- what holds from the next place on holds from this one, which is accepted
        have hshift : ∀ {k}, (∀ i < k, accepts (n + 1 + i) = true) →
            ∀ i < k + 1, accepts (n + i) = true := by
          intro k hk i hi
          cases i with
          | zero => exact hfirst
          | succ i => exact Nat.add_right_comm n 1 i ▸ hk i (Nat.lt_of_succ_lt_succ hi)
        rcases ih (n + 1) with ⟨hissue, hall⟩ | ⟨i, x, hx, hbefore, hrefused, hissue⟩
        · refine Or.inl ⟨?_, hshift hall⟩
          simp only [issue, hfirst, if_true, hissue]
        · refine Or.inr ⟨i + 1, x, hx, hshift hbefore, ?_, ?_⟩
          · exact Nat.add_right_comm n 1 i ▸ hrefused
          · simp only [issue, hfirst, if_true, hissue, List.take_succ_cons]
      · have hrefused : accepts n = false := Bool.eq_false_iff.2 hfirst
        refine Or.inr ⟨0, d, rfl, fun j hj => absurd hj (Nat.not_lt_zero j), hrefused, ?_⟩
        simp only [issue, hrefused, Bool.false_eq_true, if_false, Nat.zero_add,
          List.take_succ_cons, List.take_zero]

/-- What is issued stands in its place of the list, and whatever stands before it was issued and
accepted. -/
theorem accepted_before_issued {i : Nat} {d : Declaration}
    (h : (issue accepts 0 ds).1[i]? = some d) :
    ds[i]? = some d ∧ ∀ j < i, accepts j = true ∧ (issue accepts 0 ds).1[j]? = ds[j]? := by
  rcases issue_cases accepts 0 ds with ⟨hissue, hall⟩ | ⟨k, x, hx, hbefore, -, hissue⟩
  · rw [hissue] at h ⊢
    obtain ⟨hi, -⟩ := List.getElem?_eq_some_iff.1 h
    exact ⟨h, fun j hj => ⟨Nat.zero_add j ▸ hall j (Nat.lt_trans hj hi), rfl⟩⟩
  · rw [hissue] at h ⊢
    obtain ⟨hi, -⟩ := List.getElem?_eq_some_iff.1 h
    have hik : i < k + 1 := Nat.lt_of_lt_of_le hi (List.length_take_le _ _)
    refine ⟨(List.getElem?_take_of_lt hik).symm.trans h, fun j hj => ⟨?_, ?_⟩⟩
    · exact Nat.zero_add j ▸ hbefore j (Nat.lt_of_lt_of_le hj (Nat.le_of_lt_succ hik))
    · exact List.getElem?_take_of_lt (Nat.lt_trans hj hik)

end Issue

section Derived

variable {d : Definition}

theorem delayName?_eq (d : Definition) :
    delayName? d = if d.delayed then some (d.deadLetterOverride.getD defaultDelayExchange)
      else none := by
  unfold delayName? Definition.deadLetterExchange
  cases d.delayed <;> cases d.deadLetterOverride <;> rfl

theorem queueOf_eq (d : Definition) :
    queueOf d = { d.queue with deadLetterExchange :=
      if d.delayed then d.queue.deadLetterExchange
      else d.deadLetterOverride.or d.queue.deadLetterExchange } := by
  unfold queueOf Definition.deadLetterExchange
  cases d.delayed <;> cases d.deadLetterOverride <;> rfl

/-- A binding of a consumer attaches its queue to one of its exchanges. -/
theorem ends_of_mem_bindings {b : Binding} (h : b ∈ (forConsumer d).bindings) :
    b.queue = (queueOf d).name ∧ ∃ e ∈ (forConsumer d).exchanges, e.name = b.exchange := by
  simp only [forConsumer, List.mem_append, Option.mem_toList, Option.map_eq_some_iff] at h
  rcases h with hown | ⟨name, hname, rfl⟩
  · cases he : d.exchange with
    | none => simp [ownBindings, he] at hown
    | some e =>
        simp only [ownBindings, he, List.mem_map] at hown
        obtain ⟨key, -, rfl⟩ := hown
        exact ⟨(name_queueOf d).symm, e, mem_exchanges_forConsumer.2 (Or.inl he), rfl⟩
  · exact ⟨(name_queueOf d).symm, _, mem_exchanges_forConsumer.2 (Or.inr ⟨name, hname, rfl⟩), rfl⟩

/-- Of the declarations of a consumer a binding stands behind those of its exchange and of its
queue. -/
theorem declared_before_binding {i : Nat} {b : Binding}
    (h : (forConsumer d).declarations[i]? = some (.binding b)) :
    (∃ j < i, ∃ e, (forConsumer d).declarations[j]? = some (.exchange e) ∧ e.name = b.exchange) ∧
      ∃ j < i, ∃ q, (forConsumer d).declarations[j]? = some (.queue q) ∧ q.name = b.queue := by
  set exchanges := (forConsumer d).exchanges
  set bindings := (forConsumer d).bindings
  have hds : (forConsumer d).declarations =
      exchanges.map .exchange ++ .queue (queueOf d) :: bindings.map .binding := by
    simp [declarations, exchanges, bindings, forConsumer]
  have hlength : (exchanges.map Declaration.exchange).length = exchanges.length := List.length_map _
  rw [hds] at h ⊢
  -- neither an exchange nor the queue is a binding
  obtain ⟨k, rfl⟩ : ∃ k, i = exchanges.length + (k + 1) := by
    rcases Nat.lt_trichotomy i exchanges.length with hlt | rfl | hgt
    · simp [List.getElem?_append, hlt] at h
    · simp at h
    · exact Nat.exists_eq_add_of_lt hgt
  have hb : bindings[k]? = some b := by
    simpa [List.getElem?_append_right] using h
  obtain ⟨hqueue, e, he, hname⟩ := ends_of_mem_bindings (List.mem_of_getElem? hb)
  constructor
  · obtain ⟨j, hj, rfl⟩ := List.mem_iff_getElem.1 he
    refine ⟨j, Nat.lt_add_right _ hj, _, ?_, hname⟩
    rw [List.getElem?_append_left (hlength ▸ hj), List.getElem?_map,
      List.getElem?_eq_getElem hj, Option.map_some]
  · refine ⟨exchanges.length, Nat.lt_add_of_pos_right (Nat.succ_pos k), queueOf d, ?_, hqueue.symm⟩
    rw [List.getElem?_append_right (Nat.le_of_eq hlength), hlength, Nat.sub_self, List.getElem?_cons_zero]

end Derived

end Topology

/-- A consumer declares its exchange, for a delayed one the delay exchange, its queue and the
bindings of the queue to both. Of any topology the exchanges are declared first, then the queues,
then the bindings, each as it is listed, until one is refused, and that one is named. What a queue of
a consumer is bound to has been accepted, and so has the queue. -/
theorem installation_in_order :
    (∀ d : Definition,
      let t := Topology.forConsumer d
      let delay := d.deadLetterOverride.getD "delayed"
      let bound := fun (exchange key : String) => (⟨d.queue.name, exchange, key⟩ : Binding)
      t.exchanges = d.exchange.toList ++
        (if d.delayed then
          [{ name := delay, kind := .delayed, durable := true,
             arguments := Keyed.empty.insert "x-delayed-type" (.longString "direct".toUTF8) }]
        else []) ∧
      t.queues = [{ d.queue with deadLetterExchange :=
        if d.delayed then d.queue.deadLetterExchange
        else d.deadLetterOverride.or d.queue.deadLetterExchange }] ∧
      t.bindings =
        (match d.exchange, d.routingKeys with
          | none, _ => []
          | some e, [] => [bound e.name ""]
          | some e, keys => keys.map (bound e.name)) ++
        (if d.delayed then [bound delay d.queue.name] else [])) ∧
    -- a queue is declared with the arguments that it has values for
    (∀ (q : Queue) (key : String), q.arguments.get? key =
      if key = "x-dead-letter-exchange" then
        q.deadLetterExchange.map fun exchange => .longString exchange.toUTF8
      else if key = "x-dead-letter-routing-key" then
        q.deadLetterRoutingKey.map fun routing => .longString routing.toUTF8
      else if key = "x-message-ttl" then q.ttl.map .longInt
      else if key = "x-max-length" then q.maxLength.map .longInt
      else none) ∧
    (∀ (t : Topology) (accepts : Nat → Bool),
      let kindName : ExchangeKind → String := fun
        | .direct => "direct"
        | .fanout => "fanout"
        | .topic => "topic"
        | .headers => "headers"
        | .delayed => "x-delayed-message"
      let all : List Method :=
        t.exchanges.map (fun e => Method.exchangeDeclare e.name (kindName e.kind) e.passive e.durable
          e.autoDelete e.internal e.arguments) ++
        t.queues.map (fun q => Method.queueDeclare q.name q.passive q.durable q.exclusive q.autoDelete
          q.arguments) ++
        t.bindings.map (fun b => Method.queueBind b.queue b.exchange b.routingKey Keyed.empty)
      let names : List Failure :=
        t.exchanges.map (fun e => Failure.exchangeRefused e.name) ++
        t.queues.map (fun q => Failure.queueRefused q.name) ++
        t.bindings.map (fun b => Failure.bindingRefused b.exchange b.queue)
      let made := (t.install accepts).1.map Declaration.method
      let result := (t.install accepts).2
      (result = .ok () ↔ made = all ∧ ∀ i < all.length, accepts i = true) ∧
      (result ≠ .ok () → ∃ i < all.length, ∃ f ∈ names[i]?, (∀ j < i, accepts j = true) ∧
        accepts i = false ∧ made = all.take (i + 1) ∧ result = .error f)) ∧
    ∀ (d : Definition) (accepts : Nat → Bool) (i : Nat) (b : Binding),
      let made := ((Topology.forConsumer d).install accepts).1
      made[i]? = some (.binding b) →
        (∃ j < i, ∃ e, made[j]? = some (.exchange e) ∧ e.name = b.exchange ∧ accepts j = true) ∧
        ∃ j < i, ∃ q, made[j]? = some (.queue q) ∧ q.name = b.queue ∧ accepts j = true := by
  refine ⟨fun d => ?_, Queue.get?_arguments, fun t accepts => ?_, fun d accepts i b => ?_⟩
  · intro t delay bound
    refine ⟨?_, ?_, ?_⟩
    · simp only [t, Topology.forConsumer, Topology.delayName?_eq]
      cases d.delayed <;> rfl
    · simp only [t, Topology.forConsumer, Topology.queueOf_eq]
    · simp only [t, Topology.forConsumer, Topology.delayName?_eq, Topology.ownBindings,
        Topology.keysOf]
      cases d.exchange <;> cases d.routingKeys <;> cases d.delayed <;> rfl
  · intro kindName all names made result
    have hkind : kindName = ExchangeKind.wire := by
      funext kind
      cases kind <;> rfl
    -- the methods and the failures belong to the declarations place by place
    have hall : t.declarations.map Declaration.method = all := by
      simp [Topology.declarations, all, hkind, Declaration.method, Function.comp_def]
    have hnames : t.declarations.map Declaration.refusal = names := by
      simp [Topology.declarations, names, Declaration.refusal, Function.comp_def]
    have hlength : all.length = t.declarations.length := hall ▸ List.length_map _
    rcases Topology.issue_cases accepts 0 t.declarations with
      ⟨hissue, haccepted⟩ | ⟨i, x, hx, hbefore, hrefused, hissue⟩
    · have hmade : made = all := hall ▸ congrArg (·.1.map Declaration.method) hissue
      have hresult : result = .ok () := congrArg Prod.snd hissue
      refine ⟨⟨fun _ => ⟨hmade, fun i hi => ?_⟩, fun _ => hresult⟩, fun h => absurd hresult h⟩
      exact Nat.zero_add i ▸ haccepted i (hlength ▸ hi)
    · simp only [Nat.zero_add] at hbefore hrefused
      have hmade : made = all.take (i + 1) := by
        rw [← hall, ← List.map_take]
        exact congrArg (·.1.map Declaration.method) hissue
      have hresult : result = .error x.refusal := congrArg Prod.snd hissue
      have hi : i < all.length := hlength ▸ (List.getElem?_eq_some_iff.1 hx).1
      refine ⟨⟨fun hok => ?_, fun ⟨_, haccepted⟩ => ?_⟩, fun _ => ?_⟩
      · rw [hresult] at hok
        cases hok
      · exact absurd (haccepted i hi) (Bool.eq_false_iff.1 hrefused)
      · refine ⟨i, hi, x.refusal, ?_, hbefore, hrefused, hmade, hresult⟩
        rw [← hnames, List.getElem?_map, hx]
        rfl
  · intro made hb
    obtain ⟨hplace, hbefore⟩ := Topology.accepted_before_issued hb
    obtain ⟨⟨j, hj, e, he, hexchange⟩, k, hk, q, hq, hqueue⟩ :=
      Topology.declared_before_binding hplace
    exact ⟨⟨j, hj, e, (hbefore j hj).2.trans he, hexchange, (hbefore j hj).1⟩,
      k, hk, q, (hbefore k hk).2.trans hq, hqueue, (hbefore k hk).1⟩

/-- A delayed consumer with a topic exchange and two routing keys, bound under both. Messages stay in
its queue for a minute. -/
def twoKeys : Definition :=
  { Definition.new "orders" "orders" with
    exchange := some { name := "events", kind := .topic }
    queue := { name := "orders", ttl := some 60000 }
    routingKeys := ["a", "b"]
    delayed := true }

/-- The broker refuses the second binding of the consumer. -/
theorem installation_in_order_refused :
    let made := ((Topology.forConsumer twoKeys).install (· != 4)).1
    let result := ((Topology.forConsumer twoKeys).install (· != 4)).2
    result = .error (.bindingRefused "events" "orders") ∧ made.length = 5 ∧
      made[4]? = some (.binding ⟨"orders", "events", "b"⟩) ∧
      twoKeys.queue.arguments.get? "x-message-ttl" = some (.longInt 60000) ∧
      ∃ j < 4, ∃ e, made[j]? = some (.exchange e) ∧ e.name = "events" := by
  intro made result
  have hlast : made[4]? = some (.binding ⟨"orders", "events", "b"⟩) := rfl
  obtain ⟨-, harguments, -, hends⟩ := installation_in_order
  obtain ⟨⟨j, hj, e, he, hname, -⟩, -⟩ := hends twoKeys (· != 4) 4 _ hlast
  exact ⟨rfl, rfl, hlast, harguments twoKeys.queue "x-message-ttl", j, hj, e, he, hname⟩

end AmqpDelivery
