import AmqpDelivery.Proofs.Engine.Change
import AmqpDelivery.Proofs.Worker.Stride

/-!
# What holds of the engine at all times

A name keeps its registration, of which only the state moves (`Engine.Kept`). Every worker, also one
that is gathered and not spawned yet, works for a registered consumer, and a consumer that has a
worker is not `unregistered` any more (`Engine.Sound`).
-/

namespace AmqpDelivery

variable {η : Type}

/-- No move leads to `unregistered`. -/
theorem ConsumerState.become_ne_unregistered {st : ConsumerState} (next : ConsumerState)
    (h : st ≠ .unregistered) : st.become next ≠ .unregistered := by
  revert h
  cases st <;> cases next <;> decide

namespace Registration

theorem after_after (r : Registration η) (moves more : List ConsumerState) :
    (r.after moves).after more = r.after (moves ++ more) := by
  simp only [after, List.foldl_append]

theorem after_ne_unregistered {r : Registration η} (moves : List ConsumerState)
    (h : r.state ≠ .unregistered) : (r.after moves).state ≠ .unregistered := by
  induction moves generalizing r with
  | nil => exact h
  | cons next rest ih =>
      exact ih (r := r.after [next]) (ConsumerState.become_ne_unregistered next h)

/-- No move leads out of `stopped`. -/
theorem after_stopped {r : Registration η} (moves : List ConsumerState)
    (h : r.state = .stopped) : (r.after moves).state = .stopped := by
  induction moves generalizing r with
  | nil => exact h
  | cons next rest ih =>
      refine ih (r := r.after [next]) ?_
      show r.state.become next = .stopped
      rw [h]
      rfl

end Registration

namespace Engine

/-- Every registration of the first engine is one of the second, its consumer moved. -/
def Kept (s s' : Engine η) : Prop :=
  ∀ name r, s.registry.get? name = some r → ∃ moves, s'.registry.get? name = some (r.after moves)

section Kept

variable {s s' s'' : Engine η}

theorem kept_of_registry (h : s'.registry = s.registry) : s.Kept s' := by
  intro name r hr
  exact ⟨[], h ▸ hr⟩

theorem Kept.trans (h : s.Kept s') (h' : s'.Kept s'') : s.Kept s'' := by
  intro name r hr
  obtain ⟨moves, hmoves⟩ := h name r hr
  obtain ⟨more, hmore⟩ := h' name _ hmoves
  exact ⟨moves ++ more, r.after_after moves more ▸ hmore⟩

/-- A registration after the moves of one consumer. -/
theorem get?_moves {name other : String} {moves : List ConsumerState} {r : Registration η}
    (hr : s.registry.get? other = some r) :
    ∃ done, (Registry.moveAll s.registry name moves).get? other = some (r.after done) := by
  by_cases heq : other = name
  · subst heq
    exact ⟨moves, Registry.get?_moveAll_self _ _ hr⟩
  · exact ⟨[], (Registry.get?_moveAll_of_ne _ _ heq).trans hr⟩

theorem get?_insert_new {name other : String} {value r : Registration η}
    (hnew : s.registry.get? name = none) (hr : s.registry.get? other = some r) :
    (s.registry.insert name value).get? other = some r := by
  rw [Keyed.get?_insert, if_neg, hr]
  rintro rfl
  rw [hnew] at hr
  cases hr

/-- What a step does to the registrations, of which it adds one at most. -/
theorem Change.kept {ev : EngineEvent η} (h : s.Change ev s') : s.Kept s' := by
  cases h with
  | registers hnew hidle =>
      intro name r hr
      exact ⟨[], get?_insert_new hnew hr⟩
  | employs h hlock =>
      intro name r hr
      exact get?_moves hr
  | works he hi =>
      intro name r hr
      exact get?_moves hr
  | _ => exact kept_of_registry rfl

theorem Change.settings {ev : EngineEvent η} (h : s.Change ev s') : s'.settings = s.settings := by
  cases h <;> rfl

theorem step_kept (s : Engine η) (ev : EngineEvent η) : s.Kept (s.step ev) :=
  (s.step_change ev).kept

theorem run_kept (s : Engine η) (events : List (EngineEvent η)) : s.Kept (s.run events) := by
  induction events generalizing s with
  | nil => exact kept_of_registry rfl
  | cons ev rest ih => exact (s.step_kept ev).trans (ih (s.step ev))

theorem run_settings (s : Engine η) (events : List (EngineEvent η)) :
    (s.run events).settings = s.settings := by
  induction events generalizing s with
  | nil => rfl
  | cons ev rest ih => exact (ih (s.step ev)).trans (s.step_change ev).settings

theorem state_eq_ok {name : String} {st : ConsumerState} :
    s.state name = .ok st ↔ ∃ r, s.registry.get? name = some r ∧ r.state = st := by
  unfold state
  cases s.registry.get? name with
  | none =>
      constructor
      · intro h
        cases h
      · rintro ⟨r, hr, -⟩
        cases hr
  | some r =>
      constructor
      · intro h
        exact ⟨r, rfl, Except.ok.inj h⟩
      · rintro ⟨r', hr, rfl⟩
        cases hr
        rfl

/-- A consumer that is `stopped` stays so. -/
theorem state_stopped_run {name : String} (h : s.state name = .ok .stopped)
    (events : List (EngineEvent η)) : (s.run events).state name = .ok .stopped := by
  obtain ⟨r, hr, hstate⟩ := state_eq_ok.1 h
  obtain ⟨moves, hmoves⟩ := s.run_kept events name r hr
  exact state_eq_ok.2 ⟨_, hmoves, Registration.after_stopped moves hstate⟩

end Kept

/-- The worker is a fresh one of a registered consumer. -/
def Gathers (s : Engine η) (e : Employment) : Prop :=
  ∃ r, s.registry.get? e.consumer = some r ∧
    e.worker = { definition := r.definition, reconnect := s.reconnectOf r.definition.pool }

/-- The worker is one of a consumer that was started. -/
def Employs (s : Engine η) (e : Employment) : Prop :=
  ∃ r, s.registry.get? e.consumer = some r ∧ e.worker.definition = r.definition ∧
    r.state ≠ .unregistered

/-- What holds of the engine at all times. -/
structure Sound (s : Engine η) : Prop where
  named : ∀ name r, s.registry.get? name = some r → r.definition.name = name
  gathers : ∀ t, ∀ e ∈ s.pending t, s.Gathers e
  distinct : ∀ t, ((s.pending t).map Employment.consumer).Nodup
  employs : ∀ e ∈ s.workers, s.Employs e

section Sound

variable {s s' : Engine η} {ev : EngineEvent η}

theorem Gathers.keep {e : Employment} (h : s.Gathers e) (hkept : s.Kept s')
    (hsettings : s'.settings = s.settings) : s'.Gathers e := by
  obtain ⟨r, hr, hworker⟩ := h
  obtain ⟨moves, hmoves⟩ := hkept _ r hr
  refine ⟨r.after moves, hmoves, ?_⟩
  rw [hworker, reconnectOf, ← hsettings]
  rfl

theorem Employs.keep {e : Employment} (h : s.Employs e) (hkept : s.Kept s') : s'.Employs e := by
  obtain ⟨r, hr, hdefinition, hstate⟩ := h
  obtain ⟨moves, hmoves⟩ := hkept _ r hr
  exact ⟨r.after moves, hmoves, hdefinition, Registration.after_ne_unregistered moves hstate⟩

/-- A step of the worker does not change whom it works for. -/
theorem Employs.step {e : Employment} (h : s.Employs e) (we : WorkerEvent) :
    s.Employs { e with worker := (e.worker.step we).1 } := by
  obtain ⟨r, hr, hdefinition, hstate⟩ := h
  exact ⟨r, hr, (e.worker.step_stride we).1.trans hdefinition, hstate⟩

/-- What a start begins with is registered and was not started. -/
theorem Sound.of_startable (h : s.Sound) {r : Registration η} (hr : r ∈ s.startable) :
    s.registry.get? r.definition.name = some r ∧ r.state = .unregistered := by
  obtain ⟨hmem, hok⟩ := List.mem_filter.1 hr
  obtain ⟨⟨name, r'⟩, hentry, rfl⟩ := List.mem_map.1 hmem
  have hget := s.registry.get?_of_mem hentry
  have hname : r'.definition.name = name := h.named name r' hget
  rw [Bool.and_eq_true, decide_eq_true_eq] at hok
  exact ⟨hname.symm ▸ hget, hok.1⟩

/-- A worker that a start gathers is for a consumer that was not started. -/
theorem Sound.of_gathered (h : s.Sound) {e : Employment} (he : e ∈ s.gathered s.startable) :
    ∃ r, s.registry.get? e.consumer = some r ∧ r.state = .unregistered := by
  obtain ⟨r, hr, hconsumer, -⟩ := s.mem_gathered he
  obtain ⟨hget, hstate⟩ := h.of_startable hr
  exact ⟨r, hconsumer ▸ hget, hstate⟩

/-- The consumer of a worker was started. -/
theorem Sound.started (h : s.Sound) {i : WorkerId} {e : Employment} {r : Registration η}
    (hi : s.workers[i]? = some e) (hr : s.registry.get? e.consumer = some r) :
    r.state ≠ .unregistered := by
  obtain ⟨r', hr', -, hstate⟩ := h.employs e (List.mem_of_getElem? hi)
  rw [hr] at hr'
  cases hr'
  exact hstate

/-- A start begins with every consumer once. -/
theorem Sound.startable_nodup (h : s.Sound) :
    (s.startable.map fun r => r.definition.name).Nodup := by
  have hnames : (s.registry.entries.map Prod.snd).map (fun r => r.definition.name) =
      s.registry.keys := by
    rw [List.map_map, Keyed.keys]
    refine List.map_congr_left fun entry hentry => ?_
    exact h.named entry.1 entry.2 (s.registry.get?_of_mem hentry)
  have hsublist := (List.filter_sublist (p := fun r : Registration η =>
    decide (r.state = .unregistered) && r.definition.enable.isEnabled)
    (l := s.registry.entries.map Prod.snd)).map fun r => r.definition.name
  exact (hnames ▸ s.registry.keys_nodup).sublist hsublist

theorem pending_eq {t : TaskId} {stage : EngineStage} (h : s.calls t = some stage) :
    s.pending t = stage.pending := by
  rw [pending, h]

theorem mem_pending {t : TaskId} {e : Employment} {rest : List Employment}
    (h : s.calls t = some (.spawning (e :: rest))) : e ∈ s.pending t := by
  rw [pending_eq h]
  exact List.mem_cons_self

/-- A call that keeps part of what is pending for its task. -/
theorem pending_sublist {t : TaskId} {stage : EngineStage}
    (hcalls : s'.calls = assign s.calls t (some stage))
    (hstage : stage.pending.Sublist (s.pending t)) (u : TaskId) :
    (s'.pending u).Sublist (s.pending u) := by
  rw [pending_of_calls hcalls]
  split
  · next heq => exact heq ▸ hstage
  · exact List.Sublist.refl _

theorem Passes.pending {t : TaskId} {stage next : EngineStage} {handles : List WorkerId}
    {lock : FairLock} (h : s.Passes t stage next handles lock) : next.pending = [] := by
  cases h <;> rfl

/-- What is pending for a task was pending before, or is gathered now. -/
theorem Change.pending (h : s.Change ev s') (t : TaskId) :
    (s'.pending t).Sublist (s.pending t) ∨ s'.pending t = s.gathered s.startable := by
  cases h with
  | same hidle => exact Or.inl (List.Sublist.refl _)
  | registers hnew hidle => exact Or.inl (List.Sublist.refl _)
  | begins h =>
      refine Or.inl (pending_sublist rfl ?_ t)
      exact List.nil_sublist _
  | @gathers u h =>
      by_cases hu : t = u
      · right
        simp [Engine.pending, goto, hu, EngineStage.pending_afterGathering, gathered]
      · left
        simp [Engine.pending, goto, hu]
  | raises h =>
      refine Or.inl (pending_sublist rfl ?_ t)
      exact List.nil_sublist _
  | queues h => exact Or.inl (pending_sublist rfl (pending_eq h ▸ List.Sublist.refl _) t)
  | employs h hlock =>
      exact Or.inl (pending_sublist rfl (pending_eq h ▸ List.sublist_cons_self _ _) t)
  | passes h hpasses =>
      exact Or.inl (pending_sublist rfl (hpasses.pending ▸ List.nil_sublist _) t)
  | works he hi => exact Or.inl (List.Sublist.refl _)

theorem Sound.named_step (h : s.Sound) (hchange : s.Change ev s') (name : String)
    (r : Registration η) (hr : s'.registry.get? name = some r) : r.definition.name = name := by
  have hmoved : ∀ {other moves},
      (Registry.moveAll s.registry other moves).get? name = some r → r.definition.name = name := by
    intro other moves hr
    rw [Registry.get?_moveAll] at hr
    split at hr
    · obtain ⟨old, hold, rfl⟩ := Option.map_eq_some_iff.1 hr
      exact h.named name old hold
    · exact h.named name r hr
  cases hchange with
  | registers hnew hidle =>
      rw [Keyed.get?_insert] at hr
      split at hr
      · next heq =>
        cases hr
        exact heq.symm
      · exact h.named name r hr
  | employs hcalls hlock => exact hmoved hr
  | works he hi => exact hmoved hr
  | _ => exact h.named name r hr

theorem Sound.gathers_step (h : s.Sound) (hchange : s.Change ev s') (t : TaskId)
    (e : Employment) (he : e ∈ s'.pending t) : s'.Gathers e := by
  have hbefore : s.Gathers e := by
    rcases hchange.pending t with hsub | hgathered
    · exact h.gathers t e (hsub.subset he)
    · rw [hgathered] at he
      obtain ⟨r, hr, hconsumer, hworker⟩ := s.mem_gathered he
      exact ⟨r, hconsumer ▸ (h.of_startable hr).1, hworker⟩
  exact hbefore.keep hchange.kept hchange.settings

theorem Sound.distinct_step (h : s.Sound) (hchange : s.Change ev s') (t : TaskId) :
    ((s'.pending t).map Employment.consumer).Nodup := by
  rcases hchange.pending t with hsub | hgathered
  · exact (h.distinct t).sublist (hsub.map _)
  · rw [hgathered]
    exact h.startable_nodup.sublist (s.consumers_gathered _)

/-- A spawned worker is one of a consumer that was started. -/
theorem Gathers.employed {e : Employment} (h : s.Gathers e) (hregistry :
    s'.registry = Registry.moveAll s.registry e.consumer [.declaring]) (stopping : Bool) :
    s'.Employs { e with worker := { e.worker with stopping } } := by
  obtain ⟨r, hr, hworker⟩ := h
  refine ⟨r.after [.declaring], ?_, ?_, ?_⟩
  · rw [hregistry, Registry.get?_moveAll_self _ _ hr]
  · rw [hworker]
    rfl
  · show r.state.become .declaring ≠ .unregistered
    cases r.state <;> decide

theorem Sound.employs_step (h : s.Sound) (hchange : s.Change ev s') (e : Employment)
    (he : e ∈ s'.workers) : s'.Employs e := by
  have hold : ∀ e ∈ s.workers, s'.Employs e := fun e he => (h.employs e he).keep hchange.kept
  cases hchange with
  | raises hcalls =>
      obtain ⟨old, hmem, rfl⟩ := List.mem_map.1 he
      exact (hold old hmem).step .shutdown
  | employs hcalls hlock =>
      rcases List.mem_append.1 he with he | he
      · exact hold e he
      · rw [List.mem_singleton.1 he]
        exact (h.gathers _ _ (mem_pending hcalls)).employed rfl _
  | works hne hi =>
      rcases List.mem_or_eq_of_mem_set he with he | rfl
      · exact hold e he
      · exact (hold _ (List.mem_of_getElem? hi)).step _
  | _ => exact hold e he

/-- A worker stays, and goes on by at most one step, with the actions that the event leads to. -/
theorem Change.worker (h : s.Change ev s') {i : WorkerId} {e : Employment}
    (hi : s.workers[i]? = some e) :
    ∃ w, s'.workers[i]? = some { e with worker := w } ∧
      (w = e.worker ∧ s.actionsOn i ev = [] ∨
        ∃ we, e.worker.step we = (w, s.actionsOn i ev)) := by
  cases h with
  | same hidle => exact ⟨e.worker, hi, Or.inl ⟨rfl, hidle i⟩⟩
  | registers hnew hidle => exact ⟨e.worker, hi, Or.inl ⟨rfl, hidle i⟩⟩
  | raises hcalls =>
      refine ⟨(e.worker.step .shutdown).1, ?_, Or.inr ⟨.shutdown, rfl⟩⟩
      exact (List.getElem?_map ..).trans (congrArg (Option.map _) hi)
  | employs hcalls hlock =>
      refine ⟨e.worker, ?_, Or.inl ⟨rfl, rfl⟩⟩
      have hlt : i < s.workers.length := (List.getElem?_eq_some_iff.1 hi).1
      exact (List.getElem?_append_left hlt).trans hi
  | @works j we employment hne hj =>
      rw [actionsOn_within hne hj]
      by_cases hji : j = i
      · subst hji
        rw [hi] at hj
        cases hj
        rw [if_pos rfl]
        have hlt : j < s.workers.length := (List.getElem?_eq_some_iff.1 hi).1
        exact ⟨_, List.getElem?_set_self hlt, Or.inr ⟨we, rfl⟩⟩
      · rw [if_neg hji]
        exact ⟨e.worker, (List.getElem?_set_ne hji).trans hi, Or.inl ⟨rfl, rfl⟩⟩
  | _ => exact ⟨e.worker, hi, Or.inl ⟨rfl, rfl⟩⟩

/-- A worker was there before, or was pending. -/
theorem Change.worker_of (h : s.Change ev s') {j : WorkerId} {e' : Employment}
    (hj : s'.workers[j]? = some e') :
    (∃ e, s.workers[j]? = some e ∧ e.consumer = e'.consumer) ∨
      ∃ t, ∃ e ∈ s.pending t, e.consumer = e'.consumer := by
  cases h with
  | raises hcalls =>
      obtain ⟨e, he, rfl⟩ := Option.map_eq_some_iff.1 ((List.getElem?_map ..).symm.trans hj)
      exact Or.inl ⟨e, he, rfl⟩
  | employs hcalls hlock =>
      rcases Nat.lt_or_ge j s.workers.length with hlt | hge
      · exact Or.inl ⟨e', (List.getElem?_append_left hlt).symm.trans hj, rfl⟩
      · have hlast := (List.getElem?_append_right hge).symm.trans hj
        obtain rfl := List.mem_singleton.1 (List.mem_of_getElem? hlast)
        exact Or.inr ⟨_, _, mem_pending hcalls, rfl⟩
  | @works i we employment hne hi =>
      by_cases hij : i = j
      · subst hij
        have hlt : i < s.workers.length := (List.getElem?_eq_some_iff.1 hi).1
        obtain rfl := Option.some.inj ((List.getElem?_set_self hlt).symm.trans hj)
        exact Or.inl ⟨employment, hi, rfl⟩
      · exact Or.inl ⟨e', (List.getElem?_set_ne hij).symm.trans hj, rfl⟩
  | _ => exact Or.inl ⟨e', hj, rfl⟩

/-- What holds at all times is kept by every event. -/
theorem Sound.step (h : s.Sound) (ev : EngineEvent η) : (s.step ev).Sound where
  named := h.named_step (s.step_change ev)
  gathers := h.gathers_step (s.step_change ev)
  distinct := h.distinct_step (s.step_change ev)
  employs := h.employs_step (s.step_change ev)

theorem sound_initial (settings : Settings) (pools : Pools) :
    ({ settings, pools } : Engine η).Sound where
  named _ _ hr := by cases hr
  gathers _ _ he := by cases he
  distinct _ := List.nodup_nil
  employs _ he := by cases he

theorem Sound.run (h : s.Sound) (events : List (EngineEvent η)) : (s.run events).Sound := by
  induction events generalizing s with
  | nil => exact h
  | cons ev rest ih => exact ih (h.step ev)

end Sound

end Engine

end AmqpDelivery
