import AmqpDelivery.Proofs.Engine.Standing
import AmqpDelivery.Proofs.Worker.Lifecycle

/-!
# The consumers of the engine and their workers

A start that no other start overlaps spawns the only worker of each of its consumers: until then the
consumer is `unregistered` (`Engine.Untouched`), and from then on it is in the state that its worker
shows (`Engine.Conducts`), whatever happens to the worker and to the engine.
-/

namespace AmqpDelivery

variable {η : Type}

namespace Engine

/-- The task has begun to start consumers and has not finished. -/
def isStarting (s : Engine η) (t : TaskId) : Bool :=
  match s.calls t with
  | some (.gathered _) | some (.spawning _) => true
  | _ => false

/-- No other task starts consumers while the task does. -/
def Alone (s : Engine η) (t : TaskId) : Prop :=
  ∀ u, u ≠ t → s.isStarting t = true → s.isStarting u = false

/-- The starts of other tasks do not overlap the one of the task, as far as the events go. -/
def StartsAlone (s : Engine η) (events : List (EngineEvent η)) (t : TaskId) : Prop :=
  ∀ es, es <+: events → (s.run es).Alone t

/-- The next step of the task spawns the worker. -/
def Spawns (s : Engine η) (t : TaskId) (e : Employment) : Prop :=
  s.lock.isHeldBy t = true ∧ ∃ others, s.calls t = some (.spawning (e :: others))

/-- The consumers whose workers are pending for a task have not been started. -/
def Untouched (s : Engine η) (t : TaskId) : Prop :=
  ∀ e ∈ s.pending t, ∃ r, s.registry.get? e.consumer = some r ∧ r.state = .unregistered

section Starting

variable {s s' : Engine η} {ev : EngineEvent η} {t : TaskId}

theorem isStarting_of_pending {e : Employment} (h : e ∈ s.pending t) :
    s.isStarting t = true := by
  unfold pending at h
  unfold isStarting
  split at h
  · next stage hcalls =>
    rw [hcalls]
    cases stage <;> first | rfl | cases h
  · cases h

/-- What is left to be spawned after the worker of a consumer is for other consumers, if nobody else
starts consumers. -/
theorem Sound.ne_of_spawned (hsound : s.Sound) {u : TaskId} {e e' : Employment}
    {others : List Employment} (hcalls : s.calls t = some (.spawning (e :: others)))
    (hnext : s'.calls = assign s.calls t (some (.spawning others)))
    (halone : u ≠ t → s.isStarting u = false) (he' : e' ∈ s'.pending u) :
    e'.consumer ≠ e.consumer := by
  rw [pending_of_calls hnext] at he'
  split at he'
  · intro heq
    have hdistinct := hsound.distinct t
    rw [pending_eq hcalls] at hdistinct
    exact (List.nodup_cons.1 hdistinct).1 (heq ▸ List.mem_map_of_mem he')
  · next hne =>
    have hstarting := isStarting_of_pending he'
    rw [halone hne] at hstarting
    cases hstarting

theorem Spawns.mem {e : Employment} (h : s.Spawns t e) : e ∈ s.pending t := by
  obtain ⟨-, others, hcalls⟩ := h
  exact mem_pending hcalls

theorem Untouched.step (h : s.Untouched t) (hsound : s.Sound) (halone : s.Alone t)
    (hchange : s.Change ev s') : s'.Untouched t := by
  intro e he
  have hbefore : ∃ r, s.registry.get? e.consumer = some r ∧ r.state = .unregistered := by
    rcases hchange.pending t with hsub | hgathered
    · exact h e (hsub.subset he)
    · rw [hgathered] at he
      exact hsound.of_gathered he
  obtain ⟨r, hr, hstate⟩ := hbefore
  cases hchange with
  | registers hnew hidle => exact ⟨r, get?_insert_new hnew hr, hstate⟩
  | @employs u e' rest hcalls hlock =>
      -- either the task itself spawns, and what is left has other consumers, or nothing is pending
      have hne : e.consumer ≠ e'.consumer := by
        refine hsound.ne_of_spawned hcalls rfl (fun hne => ?_) he
        cases hstarting : s.isStarting t with
        | false => rfl
        | true =>
            have hother := isStarting_of_pending (mem_pending hcalls)
            rw [halone u hne.symm hstarting] at hother
            cases hother
      exact ⟨r, (Registry.get?_moveAll_of_ne _ _ hne).trans hr, hstate⟩
  | works hshutdown hi =>
      -- workers move only consumers that were started
      refine ⟨r, (Registry.get?_moveAll_of_ne _ _ ?_).trans hr, hstate⟩
      intro heq
      exact hsound.started hi (heq ▸ hr) hstate
  | _ => exact ⟨r, hr, hstate⟩

theorem StartsAlone.now {events : List (EngineEvent η)} (h : s.StartsAlone events t) :
    s.Alone t :=
  h [] List.nil_prefix

theorem StartsAlone.last {events : List (EngineEvent η)} (h : s.StartsAlone events t) :
    (s.run events).Alone t :=
  h events List.prefix_rfl

theorem StartsAlone.step {events : List (EngineEvent η)} (h : s.StartsAlone (ev :: events) t) :
    (s.step ev).StartsAlone events t := by
  intro es hes
  exact h (ev :: es) ((List.prefix_cons_inj ev).2 hes)

theorem Untouched.run {events : List (EngineEvent η)} (h : s.Untouched t) (hsound : s.Sound)
    (halone : s.StartsAlone events t) : (s.run events).Untouched t := by
  induction events generalizing s with
  | nil => exact h
  | cons ev rest ih =>
      exact ih (h.step hsound halone.now (s.step_change ev)) (hsound.step ev) halone.step

/-- A task that has made no call makes none unless the event is that it does. -/
theorem Change.calls_none (h : s.Change ev s') {u : TaskId} (hu : s.calls u = none)
    (hev : ∀ call, ev ≠ .spawn u call) : s'.calls u = none := by
  have hother : ∀ {t stage next}, s.calls t = some stage →
      assign s.calls t (some next) u = none := by
    intro t stage next hcalls
    rw [assign_of_ne, hu]
    rintro rfl
    rw [hu] at hcalls
    cases hcalls
  cases h with
  | same hidle => exact hu
  | registers hnew hidle => exact hu
  | @begins t call hcalls =>
      refine (assign_of_ne ?_).trans hu
      rintro rfl
      exact hev call rfl
  | gathers hcalls => exact hother hcalls
  | raises hcalls => exact hother hcalls
  | queues hcalls => exact hother hcalls
  | employs hcalls hlock => exact hother hcalls
  | passes hcalls hpasses => exact hother hcalls
  | works hshutdown hi => exact hu

theorem calls_none_run {events : List (EngineEvent η)} {u : TaskId} (hu : s.calls u = none)
    (hevents : ∀ call, .spawn u call ∉ events) : (s.run events).calls u = none := by
  induction events generalizing s with
  | nil => exact hu
  | cons ev rest ih =>
      refine ih ((s.step_change ev).calls_none hu ?_) ?_
      · rintro call rfl
        exact hevents call List.mem_cons_self
      · intro call hmem
        exact hevents call (List.mem_cons_of_mem _ hmem)

/-- A task starts consumers alone if no other task makes a call. -/
theorem startsAlone_of_single {events : List (EngineEvent η)} (hnone : ∀ u, u ≠ t → s.calls u = none)
    (hevents : ∀ u call, .spawn u call ∈ events → u = t) : s.StartsAlone events t := by
  intro es hes u hne hstarting
  have hu : (s.run es).calls u = none :=
    calls_none_run (hnone u hne) fun call hmem => hne (hevents u call (hes.subset hmem))
  rw [isStarting, hu]

end Starting

/-- What a worker has asked for while the events happened. -/
def actionsFrom (s : Engine η) (i : WorkerId) : List (EngineEvent η) → List WorkerAction
  | [] => []
  | ev :: rest => s.actionsOn i ev ++ (s.step ev).actionsFrom i rest

/-- The worker `i`, spawned as `e`, has asked for these actions. No other worker works for its
consumer or is going to, and the consumer is in the state to which the actions lead. -/
structure Conducts (s : Engine η) (i : WorkerId) (e : Employment) (actions : List WorkerAction) :
    Prop where
  employed : ∃ w, s.workers[i]? = some { e with worker := w } ∧
    w.definition = e.worker.definition ∧ w.reconnect = e.worker.reconnect ∧ w.OnCourse actions
  only : ∀ j e', s.workers[j]? = some e' → e'.consumer = e.consumer → j = i
  settled : ∀ t, ∀ e' ∈ s.pending t, e'.consumer ≠ e.consumer
  shown : ∃ r, s.registry.get? e.consumer = some r ∧ r.state = stateAfter actions

section Conducting

variable {s s' : Engine η} {ev : EngineEvent η} {i : WorkerId} {e : Employment}
  {actions : List WorkerAction}

theorem Conducts.employed_step (h : s.Conducts i e actions) (hchange : s.Change ev s') :
    ∃ w, s'.workers[i]? = some { e with worker := w } ∧
      w.definition = e.worker.definition ∧ w.reconnect = e.worker.reconnect ∧
      w.OnCourse (actions ++ s.actionsOn i ev) := by
  obtain ⟨w, hi, hdefinition, hreconnect, hcourse⟩ := h.employed
  obtain ⟨next, hnext, ⟨rfl, hidle⟩ | ⟨we, hstep⟩⟩ := hchange.worker hi
  · rw [hidle, List.append_nil]
    exact ⟨_, hnext, hdefinition, hreconnect, hcourse⟩
  · have hstride := w.step_stride we
    have honward := hcourse.step we
    rw [hstep] at hstride honward
    exact ⟨next, hnext, hstride.1.trans hdefinition, hstride.2.1.trans hreconnect, honward⟩

theorem Conducts.only_step (h : s.Conducts i e actions) (hchange : s.Change ev s')
    (j : WorkerId) (e' : Employment) (hj : s'.workers[j]? = some e')
    (hconsumer : e'.consumer = e.consumer) : j = i := by
  rcases hchange.worker_of hj with ⟨old, hold, hsame⟩ | ⟨t, old, hold, hsame⟩
  · exact h.only j old hold (hsame.trans hconsumer)
  · exact absurd (hsame.trans hconsumer) (h.settled t old hold)

/-- The registration moves with the worker that is the only one. -/
theorem Conducts.registration (h : s.Conducts i e actions) (hchange : s.Change ev s')
    {r : Registration η} (hr : s.registry.get? e.consumer = some r) :
    s'.registry.get? e.consumer = some (r.after (movesOf (s.actionsOn i ev))) := by
  cases hchange with
  | same hidle =>
      rw [hidle]
      exact hr
  | registers hnew hidle =>
      rw [hidle]
      exact get?_insert_new hnew hr
  | employs hcalls hlock =>
      have hne := (h.settled _ _ (mem_pending hcalls)).symm
      exact (Registry.get?_moveAll_of_ne _ _ hne).trans hr
  | @works j we employment hshutdown hj =>
      rw [actionsOn_within hshutdown hj]
      by_cases hji : j = i
      · subst hji
        obtain ⟨w, hi, -⟩ := h.employed
        rw [hi] at hj
        cases hj
        rw [if_pos rfl]
        exact Registry.get?_moveAll_self _ _ hr
      · -- another worker moves the consumer that it works for, and this is not the one of `i`
        rw [if_neg hji]
        have hne : e.consumer ≠ employment.consumer := fun heq => hji (h.only j _ hj heq.symm)
        exact (Registry.get?_moveAll_of_ne _ _ hne).trans hr
  | _ => exact hr

theorem Conducts.shown_step (h : s.Conducts i e actions) (hchange : s.Change ev s') :
    ∃ r, s'.registry.get? e.consumer = some r ∧
      r.state = stateAfter (actions ++ s.actionsOn i ev) := by
  obtain ⟨r, hr, hstate⟩ := h.shown
  refine ⟨_, h.registration hchange hr, ?_⟩
  obtain ⟨w, hi, -, -, hcourse⟩ := h.employed
  obtain ⟨next, -, ⟨-, hidle⟩ | ⟨we, hstep⟩⟩ := hchange.worker hi
  · rw [hidle, List.append_nil]
    exact hstate
  · have hbecome : (movesOf (w.step we).2).foldl ConsumerState.become (stateAfter actions) =
        stateAfter (actions ++ (w.step we).2) := hcourse.become
    rw [hstep] at hbecome
    rw [Registration.after, hstate]
    exact hbecome

/-- A consumer that has a worker is not started again. -/
theorem Conducts.settled_step (h : s.Conducts i e actions) (hsound : s.Sound)
    (hchange : s.Change ev s') (t : TaskId) (e' : Employment) (he' : e' ∈ s'.pending t) :
    e'.consumer ≠ e.consumer := by
  rcases hchange.pending t with hsub | hgathered
  · exact h.settled t e' (hsub.subset he')
  · intro heq
    rw [hgathered] at he'
    obtain ⟨r, hr, hstate⟩ := hsound.of_gathered he'
    obtain ⟨w, hi, -⟩ := h.employed
    exact hsound.started hi (heq ▸ hr) hstate

/-- Whatever happens, the worker goes on to conduct its consumer. -/
theorem Conducts.step (h : s.Conducts i e actions) (hsound : s.Sound) (ev : EngineEvent η) :
    (s.step ev).Conducts i e (actions ++ s.actionsOn i ev) where
  employed := h.employed_step (s.step_change ev)
  only := h.only_step (s.step_change ev)
  settled := h.settled_step hsound (s.step_change ev)
  shown := h.shown_step (s.step_change ev)

theorem Conducts.run (h : s.Conducts i e actions) (hsound : s.Sound)
    (events : List (EngineEvent η)) :
    (s.run events).Conducts i e (actions ++ s.actionsFrom i events) := by
  induction events generalizing s actions with
  | nil =>
      rw [actionsFrom, List.append_nil]
      exact h
  | cons ev rest ih =>
      rw [actionsFrom, ← List.append_assoc]
      exact ih (h.step hsound ev) (hsound.step ev)

/-- The worker that a start spawns conducts its consumer, which was `unregistered` so far. -/
theorem Untouched.conducts {t : TaskId} (h : s.Untouched t) (hsound : s.Sound) (halone : s.Alone t)
    (hspawns : s.Spawns t e) : (s.step (.proceed t)).Conducts s.workers.length e [] := by
  have hmine := hspawns.mem
  obtain ⟨hlock, others, hcalls⟩ := hspawns
  obtain ⟨r, hr, hfresh⟩ := h e hmine
  obtain ⟨r', hr', hworker⟩ := hsound.gathers t e hmine
  rw [s.step_employs hcalls hlock]
  refine ⟨⟨_, List.getElem?_concat_length, rfl, rfl, ?_⟩, ?_, ?_, ?_⟩
  · rw [hworker]
    exact Worker.onCourse_fresh _ _ _
  · intro j e' hj hconsumer
    rcases Nat.lt_or_ge j s.workers.length with hlt | hge
    · have hold := (List.getElem?_append_left hlt).symm.trans hj
      exact absurd hfresh (hsound.started hold (hconsumer.symm ▸ hr))
    · have hlast := (List.getElem?_append_right hge).symm.trans hj
      have hlt := (List.getElem?_eq_some_iff.1 hlast).1
      exact Nat.le_antisymm (Nat.le_of_sub_eq_zero (Nat.lt_one_iff.1 hlt)) hge
  · intro u e' he'
    refine hsound.ne_of_spawned hcalls rfl (fun hne => ?_) he'
    exact halone u hne (isStarting_of_pending hmine)
  · refine ⟨r.after [.declaring], Registry.get?_moveAll_self _ _ hr, ?_⟩
    show r.state.become .declaring = .declaring
    rw [hfresh]
    rfl

end Conducting

end Engine

end AmqpDelivery
