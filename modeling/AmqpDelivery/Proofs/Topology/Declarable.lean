import AmqpDelivery.Topology
import Mathlib.Data.List.Basic

/-!
# Topologies that a broker accepts

A broker refuses a delayed exchange that does not say how it routes, and an exchange that it holds
already under the same name but otherwise declared. Main statement: what it makes of a consumer
from settings (`declarable_of_settings`). It accepts the exchanges, however often the consumer is
started again, if and only if the settings do not ask for a delayed exchange of the consumer's own
and do not give the delay exchange of a delayed consumer the name of its own one. Settings that do
are accepted all the same (`settings_refused_by_broker`).
-/

namespace AmqpDelivery

/-- A delayed exchange says how it routes. -/
def Exchange.Typed (e : Exchange) : Prop :=
  e.kind.wire = delayedExchangeType → (e.arguments.get? delayedTypeArgument).isSome = true

/-- No two entries of the list declare one name differently. -/
def Consistent (exchanges : List Exchange) : Prop :=
  ∀ e ∈ exchanges, ∀ e' ∈ exchanges, e.name = e'.name → e = e'

/-- A broker that holds some exchanges accepts a declaration. -/
def Exchange.AcceptedBy (held : List Exchange) (e : Exchange) : Prop :=
  e.Typed ∧ ∀ h ∈ held, h.name = e.name → h = e

/-- A broker accepts declarations one after the other and holds what it has accepted. -/
def AcceptedInTurn (held : List Exchange) : List Exchange → Prop
  | [] => True
  | e :: rest => e.AcceptedBy held ∧ AcceptedInTurn (e :: held) rest

section Broker

theorem Consistent.mono {l k : List Exchange} (h : Consistent k) (hsub : l ⊆ k) : Consistent l :=
  fun e he e' he' => h e (hsub he) e' (hsub he')

/-- In which order consistent exchanges are declared does not matter. -/
theorem acceptedInTurn_iff {held exchanges : List Exchange} (hheld : Consistent held) :
    AcceptedInTurn held exchanges ↔
      (∀ e ∈ exchanges, e.Typed) ∧ Consistent (exchanges ++ held) := by
  induction exchanges generalizing held with
  | nil => simp [AcceptedInTurn, hheld]
  | cons e rest ih =>
      have hmiddle : ∀ x, x ∈ rest ++ e :: held ↔ x ∈ e :: rest ++ held := by
        intro x
        simp only [List.mem_append, List.mem_cons]
        tauto
      constructor
      · rintro ⟨⟨htyped, hagree⟩, hrest⟩
        have hnext : Consistent (e :: held) := by
          intro x hx y hy hxy
          rcases List.mem_cons.1 hx with rfl | hx' <;> rcases List.mem_cons.1 hy with rfl | hy'
          · rfl
          · exact (hagree y hy' hxy.symm).symm
          · exact hagree x hx' hxy
          · exact hheld x hx' y hy' hxy
        obtain ⟨hall, hcons⟩ := (ih hnext).1 hrest
        refine ⟨List.forall_mem_cons.2 ⟨htyped, hall⟩, ?_⟩
        exact hcons.mono fun x hx => (hmiddle x).2 hx
      · rintro ⟨hall, hcons⟩
        have hnext : Consistent (e :: held) := by
          refine hcons.mono fun x hx => (hmiddle x).1 (List.mem_append_right rest hx)
        refine ⟨⟨hall e List.mem_cons_self, fun h hh hname => ?_⟩, (ih hnext).2 ⟨?_, ?_⟩⟩
        · exact hnext h (List.mem_cons_of_mem e hh) e List.mem_cons_self hname
        · exact fun x hx => hall x (List.mem_cons_of_mem e hx)
        · exact hcons.mono fun x hx => (hmiddle x).1 hx

/-- Exchanges that are typed and consistent are accepted however often they are declared. -/
theorem accepted_always_iff (exchanges : List Exchange) :
    (∀ times, AcceptedInTurn [] (List.replicate times exchanges).flatten) ↔
      (∀ e ∈ exchanges, e.Typed) ∧ Consistent exchanges := by
  have hnone : Consistent [] := fun e he => absurd he List.not_mem_nil
  constructor
  · intro h
    simpa using (acceptedInTurn_iff hnone).1 (h 1)
  · rintro ⟨htyped, hcons⟩ times
    have hsub : (List.replicate times exchanges).flatten ⊆ exchanges := by
      intro e he
      obtain ⟨l, hl, hel⟩ := List.mem_flatten.1 he
      exact List.eq_of_mem_replicate hl ▸ hel
    refine (acceptedInTurn_iff hnone).2 ⟨fun e he => htyped e (hsub he), ?_⟩
    rw [List.append_nil]
    exact hcons.mono hsub

end Broker

section Settings

variable {s : ConsumerSettings} {d : Definition}

theorem ExchangeKind.ofWire_eq_ok {name : String} {kind : ExchangeKind} :
    ExchangeKind.ofWire name = .ok kind ↔ kind.wire = name := by
  constructor
  · intro h
    unfold ExchangeKind.ofWire at h
    split at h
    · next found hfound =>
      cases h
      simpa using List.find?_some hfound
    · cases h
  · rintro rfl
    cases kind <;> rfl

/-- The definition that settings describe. -/
theorem Definition.ofSettings_eq_ok (h : Definition.ofSettings s = .ok d) :
    Definition.exchangeOfSettings s = .ok d.exchange ∧
      d.queue = { name := s.queue, durable := s.durable } ∧
      d.delayed = s.retryDelayMs.isSome ∧ d.deadLetterOverride = s.deadLetterExchange ∧
      d.pool = s.pool := by
  unfold Definition.ofSettings at h
  split at h
  · cases h
  · cases he : Definition.exchangeOfSettings s with
    | error f => simp [he, Except.map] at h
    | ok exchange =>
        simp only [he, Except.map, Except.ok.injEq] at h
        subst h
        exact ⟨rfl, rfl, rfl, rfl, rfl⟩

/-- The exchange that settings describe. -/
theorem Definition.exchangeOfSettings_eq_ok {exchange : Option Exchange}
    (h : Definition.exchangeOfSettings s = .ok exchange) :
    (s.exchange = none ∧ exchange = none) ∨
      ∃ name kind, s.exchange = some name ∧ kind.wire = s.exchangeKind ∧
        exchange = some { name, kind, durable := s.durable } := by
  unfold Definition.exchangeOfSettings at h
  split at h
  · next hnone =>
    cases h
    exact Or.inl ⟨hnone, rfl⟩
  · next name hname =>
    cases hkind : ExchangeKind.ofWire s.exchangeKind with
    | error f => simp [hkind, Except.map] at h
    | ok kind =>
        simp only [hkind, Except.map, Except.ok.injEq] at h
        exact Or.inr ⟨name, kind, hname, ExchangeKind.ofWire_eq_ok.1 hkind, h.symm⟩

/-- The name of the delay exchange that settings describe. -/
theorem delayName?_ofSettings (h : Definition.ofSettings s = .ok d) :
    Topology.delayName? d =
      if s.retryDelayMs.isSome then some (s.deadLetterExchange.getD defaultDelayExchange)
      else none := by
  obtain ⟨-, -, hdelayed, hoverride, -⟩ := Definition.ofSettings_eq_ok h
  unfold Topology.delayName? Definition.deadLetterExchange
  rw [hdelayed, hoverride]
  cases s.retryDelayMs <;> cases s.deadLetterExchange <;> rfl

end Settings

section Exchanges

variable {d : Definition}

theorem typed_delayExchange (name : String) : (Topology.delayExchange name).Typed := by
  intro _
  simp [Topology.delayExchange, Exchange.directDelayed, Keyed.get?_insert]

/-- An exchange without arguments is no delay exchange. -/
theorem ne_delayExchange {e : Exchange} (h : e.arguments = Keyed.empty) (name : String) :
    e ≠ Topology.delayExchange name := by
  rintro rfl
  have hget := congrArg (·.get? delayedTypeArgument) h
  simp [Topology.delayExchange, Exchange.directDelayed, Keyed.get?_insert] at hget

theorem mem_exchanges_forConsumer {e : Exchange} :
    e ∈ (Topology.forConsumer d).exchanges ↔
      d.exchange = some e ∨ ∃ name, Topology.delayName? d = some name ∧
        e = Topology.delayExchange name := by
  simp only [Topology.forConsumer, List.mem_append, Option.mem_toList,
    Option.map_eq_some_iff]
  exact or_congr_right (exists_congr fun name => and_congr_right fun _ => eq_comm)

/-- The exchanges of a consumer are typed if its own one is. -/
theorem typed_forConsumer_iff :
    (∀ e ∈ (Topology.forConsumer d).exchanges, e.Typed) ↔ ∀ e, d.exchange = some e → e.Typed := by
  constructor
  · intro h e he
    exact h e (mem_exchanges_forConsumer.2 (Or.inl he))
  · intro h e he
    rcases mem_exchanges_forConsumer.1 he with hown | ⟨name, -, rfl⟩
    · exact h e hown
    · exact typed_delayExchange name

/-- Where the consumer's own exchange has no arguments, it must not have the name of the delay
exchange. -/
theorem consistent_forConsumer_iff (hplain : ∀ e, d.exchange = some e → e.arguments = Keyed.empty) :
    Consistent (Topology.forConsumer d).exchanges ↔
      ∀ e, d.exchange = some e → Topology.delayName? d ≠ some e.name := by
  constructor
  · intro h e he hname
    have hown := mem_exchanges_forConsumer.2 (Or.inl he)
    have hdelay := mem_exchanges_forConsumer.2 (Or.inr ⟨e.name, hname, rfl⟩)
    exact ne_delayExchange (hplain e he) e.name (h e hown _ hdelay rfl)
  · intro h e he e' he' hname
    rcases mem_exchanges_forConsumer.1 he with hown | ⟨name, hdelay, rfl⟩ <;>
      rcases mem_exchanges_forConsumer.1 he' with hown' | ⟨name', hdelay', rfl⟩
    · exact Option.some.inj (hown.symm.trans hown')
    · exact absurd (hname ▸ hdelay') (h e hown)
    · exact absurd (hname ▸ hdelay) (h e' hown')
    · exact congrArg Topology.delayExchange hname

end Exchanges

/-- What a broker makes of the exchanges of a consumer from settings. All of them say how they route
if and only if the settings do not ask for a delayed exchange by its type; no two have one name and
different declarations if and only if the consumer's own exchange does not have the name of its
delay exchange; and if both hold, the broker accepts them however often the consumer starts. -/
theorem declarable_of_settings (s : ConsumerSettings) (d : Definition)
    (h : Definition.ofSettings s = .ok d) :
    let exchanges := (Topology.forConsumer d).exchanges
    let typed := s.exchange ≠ none → s.exchangeKind ≠ delayedExchangeType
    let apart := ∀ name, s.exchange = some name → s.retryDelayMs.isSome = true →
      name ≠ s.deadLetterExchange.getD defaultDelayExchange
    ((∀ e ∈ exchanges, e.Typed) ↔ typed) ∧ (Consistent exchanges ↔ apart) ∧
      ((∀ times, AcceptedInTurn [] (List.replicate times exchanges).flatten) ↔ typed ∧ apart) := by
  intro exchanges typed apart
  obtain ⟨hexchange, -⟩ := Definition.ofSettings_eq_ok h
  have hdelay := delayName?_ofSettings h
  have htyped : (∀ e ∈ exchanges, e.Typed) ↔ typed := by
    rw [typed_forConsumer_iff]
    rcases Definition.exchangeOfSettings_eq_ok hexchange with
      ⟨hnone, hown⟩ | ⟨name, kind, hname, hkind, hown⟩
    · simp [typed, hnone, hown]
    · simp [typed, hname, hown, Exchange.Typed, hkind]
  have hapart : Consistent exchanges ↔ apart := by
    rcases Definition.exchangeOfSettings_eq_ok hexchange with
      ⟨hnone, hown⟩ | ⟨name, kind, hname, hkind, hown⟩
    · rw [consistent_forConsumer_iff (by simp [hown])]
      simp [apart, hnone, hown]
    · rw [consistent_forConsumer_iff (by simp [hown])]
      cases hms : s.retryDelayMs <;> simp [apart, hname, hown, hdelay, hms, eq_comm]
  exact ⟨htyped, hapart, (accepted_always_iff exchanges).trans (and_congr htyped hapart)⟩

/-- A delayed consumer with a topic exchange of its own. -/
def shopSettings : ConsumerSettings where
  name := "orders"
  queue := "orders"
  exchange := some "events"
  exchangeKind := "topic"
  retryDelayMs := some 1000

theorem declarable_of_settings_delayed :
    ∃ d, Definition.ofSettings shopSettings = .ok d ∧
      (Topology.forConsumer d).exchanges.map Exchange.name = ["events", "delayed"] ∧
      ∀ times,
        AcceptedInTurn [] (List.replicate times (Topology.forConsumer d).exchanges).flatten := by
  obtain ⟨d, hd⟩ : ∃ d, Definition.ofSettings shopSettings = .ok d := ⟨_, rfl⟩
  obtain ⟨-, -, haccepted⟩ := declarable_of_settings shopSettings d hd
  refine ⟨d, hd, ?_, haccepted.2 ⟨fun _ => by decide, fun name hname _ => ?_⟩⟩
  · cases hd
    rfl
  · cases hname
    decide

/-- Settings with a delayed exchange of the consumer's own, and settings in which it has the name of
the delay exchange, are accepted although the broker refuses their exchanges. -/
theorem settings_refused_by_broker :
    (∃ d, Definition.ofSettings { shopSettings with exchangeKind := "x-delayed-message" } = .ok d ∧
      ∃ e ∈ (Topology.forConsumer d).exchanges, ¬e.Typed) ∧
    ∃ d, Definition.ofSettings { shopSettings with exchange := some "delayed" } = .ok d ∧
      ∃ e ∈ (Topology.forConsumer d).exchanges, ∃ e' ∈ (Topology.forConsumer d).exchanges,
        e.name = e'.name ∧ e.kind ≠ e'.kind := by
  refine ⟨⟨_, rfl, _, List.mem_cons_self, fun h => ?_⟩,
    ⟨_, rfl, _, List.mem_cons_self, _, List.mem_cons_of_mem _ List.mem_cons_self, rfl, ?_⟩⟩
  · cases h rfl
  · decide

end AmqpDelivery
