import AmqpDelivery.Proofs.Engine.Staff
import AmqpDelivery.Proofs.Topology.Declarable
import Mathlib.Data.List.Induction

/-!
# Which consumers are registered

A call that registers a consumer does it (`Engine.Registers`) or leaves the engine as it was, and
nothing else registers one (`Engine.step_registry`). Main statement: the first call that succeeds
for a name is the only one, and the consumer keeps its definition and its handler for ever; which
calls fail, and how, depends on the settings and on what was registered before
(`Engine.first_registration_wins`).
-/

namespace AmqpDelivery

variable {η : Type}

/-- The settings describe a consumer: it has a name and a queue, and its exchange, if it has one, is
of a known kind. -/
def ConsumerSettings.Valid (c : ConsumerSettings) : Prop :=
  c.name ≠ "" ∧ c.queue ≠ "" ∧
    (c.exchange = none ∨ ∃ kind : ExchangeKind, kind.wire = c.exchangeKind)

/-- The entry is the first of that name. -/
def FirstNamed (consumers : List ConsumerSettings) (name : String) (c : ConsumerSettings) : Prop :=
  ∃ before after, consumers = before ++ c :: after ∧ c.name = name ∧ ∀ e ∈ before, e.name ≠ name

section Settings

variable {c : ConsumerSettings} {consumers : List ConsumerSettings} {name : String}

theorem ExchangeKind.ofWire_of_unknown (h : ¬∃ kind : ExchangeKind, kind.wire = name) :
    ofWire name = .error (.configuration (Failure.named "exchange kind" name)) := by
  unfold ofWire
  split
  · next kind hkind =>
    exact absurd ⟨kind, ofWire_eq_ok.1 (by rw [ofWire, hkind])⟩ h
  · rfl

/-- Valid settings describe a consumer of their name. -/
theorem ConsumerSettings.Valid.definition (h : c.Valid) :
    ∃ d, Definition.ofSettings c = .ok d ∧ d.name = c.name := by
  obtain ⟨hname, hqueue, hexchange⟩ := h
  have hok : ∃ exchange, Definition.exchangeOfSettings c = .ok exchange := by
    unfold Definition.exchangeOfSettings
    cases hx : c.exchange with
    | none => exact ⟨none, rfl⟩
    | some exchange =>
        rcases hexchange with hnone | ⟨kind, hkind⟩
        · rw [hx] at hnone
          cases hnone
        · exact ⟨some { name := exchange, kind, durable := c.durable }, by
            simp only [ExchangeKind.ofWire_eq_ok.2 hkind, Except.map]⟩
  obtain ⟨exchange, hok⟩ := hok
  rw [Definition.ofSettings, if_neg (not_or.mpr ⟨hname, hqueue⟩), hok]
  exact ⟨_, rfl, rfl⟩

/-- Settings that are not valid are refused as settings. -/
theorem ConsumerSettings.refused_of_not_valid (h : ¬c.Valid) :
    ∃ text, Definition.ofSettings c = .error (.configuration text) := by
  unfold Definition.ofSettings
  split
  · exact ⟨_, rfl⟩
  · next hnamed =>
    obtain ⟨hname, hqueue⟩ := not_or.mp hnamed
    -- what is left to be wrong is the kind of an exchange
    have hexchange := fun hx => h ⟨hname, hqueue, hx⟩
    obtain ⟨hx, hkind⟩ := not_or.mp hexchange
    obtain ⟨exchange, hx⟩ := Option.ne_none_iff_exists'.mp hx
    simp only [Definition.exchangeOfSettings, hx, ExchangeKind.ofWire_of_unknown hkind, Except.map]
    exact ⟨_, rfl⟩

/-- The entry that is found is the first of the name. -/
theorem find?_eq_some_iff_firstNamed :
    (consumers.find? fun e => e.name = name) = some c ↔ FirstNamed consumers name c := by
  rw [List.find?_eq_some_iff_append]
  constructor
  · rintro ⟨hname, before, after, heq, hbefore⟩
    exact ⟨before, after, heq, of_decide_eq_true hname, fun e he => by simpa using hbefore e he⟩
  · rintro ⟨before, after, heq, hname, hbefore⟩
    exact ⟨decide_eq_true hname, before, after, heq, fun e he => by simpa using hbefore e he⟩

theorem find?_of_none_named (h : ∀ e ∈ consumers, e.name ≠ name) :
    (consumers.find? fun e => e.name = name) = none := by
  rw [List.find?_eq_none]
  intro e he
  simpa using h e he

end Settings

namespace Engine

/-- The event is a call that succeeds, and registers the definition with the handler. -/
inductive Registers (s : Engine η) : EngineEvent η → Definition → η → Prop
  | direct {d : Definition} {handler : η} {next : Engine η}
      (hok : s.register d handler = .ok next) : Registers s (.register d handler) d handler
  | configured {name : String} {handler : η} {c : ConsumerSettings} {d : Definition}
      {next : Engine η} (hfirst : FirstNamed s.settings.consumers name c)
      (hd : Definition.ofSettings c = .ok d) (hok : s.registerConfigured name handler = .ok next) :
      Registers s (.registerConfigured name handler) d handler

/-- One of the events was a call that succeeded in registering a consumer of the name. -/
def Registered (s : Engine η) (events : List (EngineEvent η)) (name : String) : Prop :=
  ∃ before ev after d handler, events = before ++ ev :: after ∧
    (s.run before).Registers ev d handler ∧ d.name = name

section Calls

variable {s next : Engine η} {d : Definition} {handler : η} {name : String} {c : ConsumerSettings}
  {ev : EngineEvent η}

theorem register_of_free (h : s.registry.get? d.name = none) (handler : η) :
    s.register d handler =
      .ok { s with registry := s.registry.insert d.name { definition := d, handler } } := by
  rw [register, h]

theorem register_of_taken {r : Registration η} (h : s.registry.get? d.name = some r) (handler : η) :
    s.register d handler = .error (.duplicateConsumer d.name) := by
  rw [register, h]

theorem register_eq_ok (h : s.register d handler = .ok next) : s.registry.get? d.name = none := by
  cases hd : s.registry.get? d.name with
  | none => rfl
  | some r =>
      rw [register_of_taken hd] at h
      cases h

theorem registerConfigured_of_unknown (h : ∀ e ∈ s.settings.consumers, e.name ≠ name)
    (handler : η) : s.registerConfigured name handler = .error (.unknownConsumer name) := by
  rw [registerConfigured, find?_of_none_named h]

/-- Settings that are refused are refused before the name is looked at. -/
theorem registerConfigured_of_refused {f : Failure} (hc : FirstNamed s.settings.consumers name c)
    (hd : Definition.ofSettings c = .error f) (handler : η) :
    s.registerConfigured name handler = .error f := by
  rw [registerConfigured, find?_eq_some_iff_firstNamed.mpr hc]
  simp only [hd]
  rfl

theorem registerConfigured_of_first (hc : FirstNamed s.settings.consumers name c)
    (hd : Definition.ofSettings c = .ok d) (handler : η) :
    s.registerConfigured name handler = s.register d handler := by
  rw [registerConfigured, find?_eq_some_iff_firstNamed.mpr hc]
  simp only [hd]
  rfl

/-- A call that registers a consumer finds its name free, and files it there. -/
theorem Registers.step (h : s.Registers ev d handler) :
    s.registry.get? d.name = none ∧
      s.step ev = { s with registry := s.registry.insert d.name { definition := d, handler } } := by
  cases h with
  | direct hok =>
      have hfree := register_eq_ok hok
      refine ⟨hfree, ?_⟩
      simp only [Engine.step, register_of_free hfree]
  | configured hfirst hd hok =>
      rw [registerConfigured_of_first hfirst hd] at hok
      have hfree := register_eq_ok hok
      refine ⟨hfree, ?_⟩
      simp only [Engine.step, registerConfigured_of_first hfirst hd, register_of_free hfree]

theorem step_register_of_error {f : Failure} (h : s.register d handler = .error f) :
    s.step (.register d handler) = s := by
  simp only [Engine.step, h]

theorem step_registerConfigured_of_error {f : Failure}
    (h : s.registerConfigured name handler = .error f) :
    s.step (.registerConfigured name handler) = s := by
  simp only [Engine.step, h]

/-- A call for a consumer of the settings that succeeds registers the first entry of the name. -/
theorem registers_configured (h : s.registerConfigured name handler = .ok next) :
    ∃ d, s.Registers (.registerConfigured name handler) d handler := by
  have hok := h
  unfold registerConfigured at h
  split at h
  · cases h
  · next c hfind =>
    cases hd : Definition.ofSettings c with
    | error f =>
        rw [hd] at h
        cases h
    | ok d => exact ⟨d, .configured (find?_eq_some_iff_firstNamed.mp hfind) hd hok⟩

end Calls

section Steps

variable {s : Engine η} {ev : EngineEvent η} {name : String} {r : Registration η}

/-- A call that goes on moves the consumer of one worker at most. -/
theorem proceed_registry (s : Engine η) (t : TaskId) (stage : EngineStage) :
    ∃ name moves, (s.proceed t stage).registry = Registry.moveAll s.registry name moves := by
  cases stage with
  | ready call =>
      cases call with
      | start =>
          refine ⟨"", [], ?_⟩
          simp only [proceed]
          rw [gatherAll_eq]
          rfl
      | shutdown => exact ⟨"", [], rfl⟩
  | spawning workers =>
      cases hlock : s.lock.isHeldBy t with
      | false => exact ⟨"", [], by simp only [proceed, hlock]; rfl⟩
      | true =>
          cases workers with
          | nil => exact ⟨"", [], by simp only [proceed, hlock]; rfl⟩
          | cons e rest =>
              refine ⟨e.consumer, [.declaring], ?_⟩
              simp only [proceed, hlock, if_true, employ, become_eq]
              rfl
  | collecting | joining workers =>
      refine ⟨"", [], ?_⟩
      simp only [proceed]
      split <;> rfl
  | _ => exact ⟨"", [], rfl⟩

/-- A worker that goes on moves its own consumer. -/
theorem within_registry (s : Engine η) (i : WorkerId) (e : WorkerEvent) :
    ∃ name moves, (s.within i e).1.registry = Registry.moveAll s.registry name moves := by
  unfold within
  cases s.workers[i]? with
  | none => exact ⟨"", [], rfl⟩
  | some employment =>
      refine ⟨employment.consumer, movesOf (employment.worker.step e).2, ?_⟩
      simp only [foldl_become]

/-- An event registers a consumer, or does no more to the registered ones than to move one. -/
theorem step_registry (s : Engine η) (ev : EngineEvent η) :
    (∃ d handler, s.Registers ev d handler) ∨
      ∃ name moves, (s.step ev).registry = Registry.moveAll s.registry name moves := by
  cases ev with
  | register d handler =>
      cases hcall : s.register d handler with
      | ok next => exact Or.inl ⟨d, handler, .direct hcall⟩
      | error f => exact Or.inr ⟨"", [], by rw [step_register_of_error hcall]; rfl⟩
  | registerConfigured name handler =>
      cases hcall : s.registerConfigured name handler with
      | ok next =>
          obtain ⟨d, hd⟩ := registers_configured hcall
          exact Or.inl ⟨d, handler, hd⟩
      | error f => exact Or.inr ⟨"", [], by rw [step_registerConfigured_of_error hcall]; rfl⟩
  | spawn t call =>
      refine Or.inr ⟨"", [], ?_⟩
      simp only [step]
      split <;> rfl
  | proceed t =>
      refine Or.inr ?_
      simp only [step]
      split
      · exact s.proceed_registry t _
      · exact ⟨"", [], rfl⟩
  | within i e =>
      cases e with
      | shutdown => exact Or.inr ⟨"", [], rfl⟩
      | _ => exact Or.inr (s.within_registry i _)

/-- What is registered after an event was registered before or is registered by it. -/
theorem origin_step (hr : (s.step ev).registry.get? name = some r) :
    (s.Registers ev r.definition r.handler ∧ r.definition.name = name) ∨
      ∃ r', s.registry.get? name = some r' ∧ r'.definition = r.definition ∧
        r'.handler = r.handler := by
  rcases s.step_registry ev with ⟨d, handler, hregisters⟩ | ⟨who, moves, hmoves⟩
  · rw [hregisters.step.2] at hr
    change (s.registry.insert _ _).get? name = some r at hr
    rw [Keyed.get?_insert] at hr
    split at hr
    · next hname =>
      cases hr
      exact Or.inl ⟨hregisters, hname.symm⟩
    · exact Or.inr ⟨r, hr, rfl, rfl⟩
  · rw [hmoves, Registry.get?_moveAll] at hr
    split at hr
    · obtain ⟨r', hr', rfl⟩ := Option.map_eq_some_iff.1 hr
      exact Or.inr ⟨r', hr', rfl, rfl⟩
    · exact Or.inr ⟨r, hr, rfl, rfl⟩

end Steps

section Runs

variable {start : Engine η} {events : List (EngineEvent η)} {name : String} {r : Registration η}

/-- What a call registers is there from then on, with its definition and its handler. -/
theorem Registers.kept {before : List (EngineEvent η)} {ev : EngineEvent η} {d : Definition}
    {handler : η} (h : (start.run before).Registers ev d handler) (after : List (EngineEvent η)) :
    ∃ r, (start.run (before ++ ev :: after)).registry.get? d.name = some r ∧
      r.definition = d ∧ r.handler = handler := by
  have hnew : ((start.run before).step ev).registry.get? d.name =
      some { definition := d, handler } := by
    rw [h.step.2]
    exact (Keyed.get?_insert _ _ _ _).trans (if_pos rfl)
  obtain ⟨moves, hmoves⟩ := run_kept _ after d.name _ hnew
  rw [run_append]
  exact ⟨_, hmoves, rfl, rfl⟩

/-- What is registered after a run was registered by one of its calls. -/
theorem origin_run (hempty : start.registry = Keyed.empty)
    (hr : (start.run events).registry.get? name = some r) :
    ∃ before ev after, events = before ++ ev :: after ∧
      (start.run before).Registers ev r.definition r.handler ∧ r.definition.name = name := by
  induction events using List.reverseRecOn generalizing r with
  | nil =>
      change start.registry.get? name = some r at hr
      rw [hempty] at hr
      cases hr
  | append_singleton events ev ih =>
      rw [run_append] at hr
      rcases origin_step hr with ⟨hregisters, hname⟩ | ⟨r', hr', hdefinition, hhandler⟩
      · exact ⟨events, ev, [], rfl, hregisters, hname⟩
      · obtain ⟨before, ev', after, heq, hregisters, hname⟩ := ih hr'
        rw [hdefinition, hhandler] at hregisters
        rw [hdefinition] at hname
        exact ⟨before, ev', after ++ [ev], by simp [heq], hregisters, hname⟩

theorem registered_iff (hempty : start.registry = Keyed.empty) :
    start.Registered events name ↔ ∃ r, (start.run events).registry.get? name = some r := by
  constructor
  · rintro ⟨before, ev, after, d, handler, rfl, hregisters, rfl⟩
    obtain ⟨r, hr, -⟩ := hregisters.kept after
    exact ⟨r, hr⟩
  · rintro ⟨r, hr⟩
    obtain ⟨before, ev, after, heq, hregisters, hname⟩ := origin_run hempty hr
    exact ⟨before, ev, after, _, _, heq, hregisters, hname⟩

theorem not_registered_iff (hempty : start.registry = Keyed.empty) :
    ¬start.Registered events name ↔ (start.run events).registry.get? name = none := by
  rw [registered_iff hempty, Option.eq_none_iff_forall_ne_some, not_exists]

theorem register_eq_error_iff (hempty : start.registry = Keyed.empty) {d : Definition} {handler : η}
    {f : Failure} : (start.run events).register d handler = .error f ↔
      start.Registered events d.name ∧ f = .duplicateConsumer d.name := by
  rw [registered_iff hempty]
  cases hd : (start.run events).registry.get? d.name with
  | none => simp [register_of_free hd]
  | some r => simp [register_of_taken hd, eq_comm]

theorem state_of_registered (hempty : start.registry = Keyed.empty)
    (h : start.Registered events name) : ∃ st, (start.run events).state name = .ok st := by
  obtain ⟨r, hr⟩ := (registered_iff hempty).mp h
  exact ⟨r.state, state_eq_ok.mpr ⟨r, hr, rfl⟩⟩

theorem state_of_not_registered (hempty : start.registry = Keyed.empty)
    (h : ¬start.Registered events name) :
    (start.run events).state name = .error (.unknownConsumer name) := by
  rw [state, (not_registered_iff hempty).mp h]

end Runs

/-- After any events, whatever the settings. A call that succeeded has registered its consumer for
good, with its definition and its handler; whatever is registered comes from such a call, and a name
has one. A call that fails changes nothing. A registration fails just if the name was registered
before. The registration of a consumer from the settings goes by the first entry of the name: it
fails if there is none, or else if the entry is not valid, or else if the name was registered. A
name has a state just if it was registered. -/
theorem first_registration_wins (settings : Settings) (pools : Pools)
    (events : List (EngineEvent η)) :
    let start := ({ settings, pools } : Engine η)
    let s := start.run events
    (∀ before ev after d handler, events = before ++ ev :: after →
      (start.run before).Registers ev d handler →
        (∃ r, s.registry.get? d.name = some r ∧ r.definition = d ∧ r.handler = handler) ∧
        ∀ between ev' later d' handler', after = between ++ ev' :: later →
          (start.run (before ++ ev :: between)).Registers ev' d' handler' → d'.name ≠ d.name) ∧
    (∀ name r, s.registry.get? name = some r → ∃ before ev after, events = before ++ ev :: after ∧
      (start.run before).Registers ev r.definition r.handler ∧ r.definition.name = name) ∧
    (∀ d handler f, s.register d handler = .error f → s.step (.register d handler) = s) ∧
    (∀ name handler f, s.registerConfigured name handler = .error f →
      s.step (.registerConfigured name handler) = s) ∧
    (∀ d handler f, s.register d handler = .error f ↔
      start.Registered events d.name ∧ f = .duplicateConsumer d.name) ∧
    (∀ name handler,
      ((∀ c ∈ settings.consumers, c.name ≠ name) →
        s.registerConfigured name handler = .error (.unknownConsumer name)) ∧
      ∀ c, FirstNamed settings.consumers name c →
        (¬c.Valid → ∃ text, Definition.ofSettings c = .error (.configuration text) ∧
          s.registerConfigured name handler = .error (.configuration text)) ∧
        (c.Valid → start.Registered events name →
          s.registerConfigured name handler = .error (.duplicateConsumer name)) ∧
        (c.Valid → ¬start.Registered events name → ∃ d, Definition.ofSettings c = .ok d ∧
          d.name = name ∧ s.Registers (.registerConfigured name handler) d handler)) ∧
    ∀ name, (start.Registered events name → ∃ st, s.state name = .ok st) ∧
      (¬start.Registered events name → s.state name = .error (.unknownConsumer name)) := by
  intro start s
  have hempty : start.registry = Keyed.empty := rfl
  have hsettings : s.settings = settings := run_settings start events
  refine ⟨?_, ?_, ?_, ?_, ?_, ?_, ?_⟩
  · rintro before ev after d handler heq hregisters
    refine ⟨?_, ?_⟩
    · have hs : s = start.run (before ++ ev :: after) := congrArg start.run heq
      rw [hs]
      exact hregisters.kept after
    · intro between ev' later d' handler' _ hagain hname
      -- the second call would find its name taken
      obtain ⟨r, hr, -⟩ := hregisters.kept between
      rw [← hname, hagain.step.1] at hr
      cases hr
  · intro name r hr
    exact origin_run hempty hr
  · intro d handler f hf
    exact step_register_of_error hf
  · intro name handler f hf
    exact step_registerConfigured_of_error hf
  · intro d handler f
    exact register_eq_error_iff hempty
  · intro name handler
    rw [← hsettings]
    refine ⟨fun hnone => registerConfigured_of_unknown hnone handler, ?_⟩
    intro c hc
    have hname : c.name = name := hc.choose_spec.choose_spec.2.1
    refine ⟨?_, ?_, ?_⟩
    · intro hinvalid
      obtain ⟨text, hd⟩ := ConsumerSettings.refused_of_not_valid hinvalid
      exact ⟨text, hd, registerConfigured_of_refused hc hd handler⟩
    · intro hvalid htaken
      obtain ⟨d, hd, hdname⟩ := hvalid.definition
      obtain rfl : d.name = name := hdname.trans hname
      rw [registerConfigured_of_first hc hd]
      exact (register_eq_error_iff hempty).mpr ⟨htaken, rfl⟩
    · intro hvalid hfree
      obtain ⟨d, hd, hdname⟩ := hvalid.definition
      obtain rfl : d.name = name := hdname.trans hname
      have hok := register_of_free ((not_registered_iff hempty).mp hfree) handler
      exact ⟨d, hd, rfl, .configured hc hd ((registerConfigured_of_first hc hd handler).trans hok)⟩
  · intro name
    exact ⟨state_of_registered hempty, state_of_not_registered hempty⟩

/-- Settings with one name twice, and another twice of which the first entry has no queue. -/
def repeatedSettings : Settings :=
  { consumers :=
      [{ name := "mail", queue := "mail" }, { name := "orders" },
        { name := "mail", queue := "other" }, { name := "orders", queue := "orders" }] }

/-- A consumer of the settings is registered, started and told to declare its topology. -/
def mailRun : List (EngineEvent Nat) :=
  [.spawn 0 .start, .proceed 0, .registerConfigured "mail" 1, .spawn 1 .start, .proceed 1,
    .proceed 1, .proceed 1, .within 0 .proceed, .within 0 (.connected (.error .closed))]

theorem first_registration_wins_repeated :
    let start := ({ settings := repeatedSettings, pools := { settings := {} } } : Engine Nat)
    let s := start.run mailRun
    let mail : Definition := { Definition.new "mail" "mail" with
      queue := { name := "mail", durable := true } }
    (∃ r, s.registry.get? "mail" = some r ∧ r.definition = mail ∧ r.handler = 1) ∧
      (∃ st, s.state "mail" = .ok st) ∧
      s.register mail 2 = .error (.duplicateConsumer "mail") ∧
      s.registerConfigured "mail" 2 = .error (.duplicateConsumer "mail") ∧
      s.step (.registerConfigured "mail" 2) = s ∧
      (∃ text, s.registerConfigured "orders" 2 = .error (.configuration text)) ∧
      s.registerConfigured "bills" 2 = .error (.unknownConsumer "bills") ∧
      s.state "orders" = .error (.unknownConsumer "orders") := by
  intro start s mail
  obtain ⟨hkept, -, -, hunchanged, htaken, hconfigured, hstate⟩ :=
    first_registration_wins repeatedSettings { settings := {} } mailRun
  have hfirst : FirstNamed repeatedSettings.consumers "mail" { name := "mail", queue := "mail" } :=
    ⟨[], _, rfl, rfl, List.forall_mem_nil _⟩
  have hregisters : (start.run [.spawn 0 .start, .proceed 0]).Registers
      (.registerConfigured "mail" 1) mail 1 := .configured hfirst rfl rfl
  have hmail : start.Registered mailRun "mail" := ⟨_, _, _, _, _, rfl, hregisters, rfl⟩
  have horders : ¬start.Registered mailRun "orders" := by
    rintro ⟨before, ev, after, d, handler, heq, hd, hname⟩
    obtain ⟨⟨r, hr, -⟩, -⟩ := hkept before ev after d handler heq hd
    rw [hname] at hr
    cases hr
  have hduplicate : s.registerConfigured "mail" 2 = .error (.duplicateConsumer "mail") :=
    ((hconfigured "mail" 2).2 _ hfirst).2.1 ⟨by decide, by decide, Or.inl rfl⟩ hmail
  have hinvalid : ¬({ name := "orders" } : ConsumerSettings).Valid := fun h => h.2.1 rfl
  obtain ⟨text, -, hrefused⟩ := ((hconfigured "orders" 2).2 { name := "orders" }
    ⟨[{ name := "mail", queue := "mail" }], _, rfl, rfl, by decide⟩).1 hinvalid
  exact ⟨(hkept _ _ _ _ _ rfl hregisters).1, (hstate "mail").1 hmail,
    (htaken mail 2 _).mpr ⟨hmail, rfl⟩, hduplicate, hunchanged "mail" 2 _ hduplicate,
    ⟨text, hrefused⟩, (hconfigured "bills" 2).1 (by decide), (hstate "orders").2 horders⟩

end Engine

end AmqpDelivery
