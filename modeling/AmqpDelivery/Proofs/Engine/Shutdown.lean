import AmqpDelivery.Proofs.Engine.Handles
import AmqpDelivery.Proofs.Worker.Teardown

/-!
# What a shutdown leaves behind

When the first shutdown returns, every consumer that was started is `stopped`, its handlers have
ended or were given up, and its channels are released (`Engine.ShutDown`). It stays like this: no
delivery is dispatched any more, and a consumer that is started later stops without asking for a
connection (`Engine.StaysDown`). Both hold whatever the workers met with before
(`Engine.shutdown_complete`). Where shutdowns overlap, this is for the one that took over the workers;
another may return before it (`Engine.shutdown_overtaken`).
-/

namespace AmqpDelivery

variable {η : Type}

namespace Engine

/-! ## What holds of all workers -/

section Workers

variable {s : Engine η} {asked : WorkerId → List WorkerAction}

/-- A worker that is pending is one that was told nothing yet. -/
theorem Sound.spawned (h : s.Sound) {t : TaskId} {e : Employment} (hspawns : s.Spawns t e)
    (stopping : Bool) : ∃ d reconnect,
      ({ e.worker with stopping } : Worker) = Worker.spawned d reconnect stopping := by
  obtain ⟨r, -, hworker⟩ := h.gathers t e hspawns.mem
  exact ⟨r.definition, s.reconnectOf r.definition.pool, by rw [hworker]; rfl⟩

/-- What every step of a worker preserves, and what holds of every worker that is spawned, holds of
all workers after any run, the workers that were there before having asked for `asked`. -/
theorem workers_keep_from {P : WorkerId → Worker → List WorkerAction → Prop}
    (hstep : ∀ i w actions we, P i w actions → P i (w.step we).1 (actions ++ (w.step we).2))
    (hsound : s.Sound)
    (hfresh : ∀ i d reconnect stopping, s.workers.length ≤ i →
      (s.stopping = true → stopping = true) → P i (Worker.spawned d reconnect stopping) [])
    (hworkers : ∀ (i : WorkerId) (e : Employment), s.workers[i]? = some e → P i e.worker (asked i))
    (hunasked : ∀ i, s.workers.length ≤ i → asked i = []) (events : List (EngineEvent η)) :
    ∀ i e, (s.run events).workers[i]? = some e → P i e.worker (asked i ++ s.actionsFrom i events) := by
  induction events generalizing s asked with
  | nil =>
      intro i e hi
      rw [actionsFrom, List.append_nil]
      exact hworkers i e hi
  | cons ev rest ih =>
      have hchange := s.step_change ev
      have hlength := hchange.length_le
      have hfresh' : ∀ i d reconnect stopping, (s.step ev).workers.length ≤ i →
          ((s.step ev).stopping = true → stopping = true) →
          P i (Worker.spawned d reconnect stopping) [] := by
        intro i d reconnect stopping hi hstopping
        exact hfresh i d reconnect stopping (Nat.le_trans hlength hi)
          fun hs => hstopping (hchange.stopping hs)
      have hunasked' : ∀ i, (s.step ev).workers.length ≤ i → asked i ++ s.actionsOn i ev = [] := by
        intro i hi
        have hge := Nat.le_trans hlength hi
        rw [hunasked i hge, actionsOn_of_absent hge]
        rfl
      have hworkers' : ∀ i e, (s.step ev).workers[i]? = some e →
          P i e.worker (asked i ++ s.actionsOn i ev) := by
        intro i e hi
        rcases Nat.lt_or_ge i s.workers.length with hlt | hge
        -- the worker was there, and made one step at most
        · have hold := List.getElem?_eq_getElem hlt
          obtain ⟨w, hw, ⟨rfl, hidle⟩ | ⟨we, hwe⟩⟩ := hchange.worker hold
          · rw [hi] at hw
            cases hw
            rw [hidle, List.append_nil]
            exact hworkers i _ hold
          · rw [hi] at hw
            cases hw
            have hnext := hstep i _ _ we (hworkers i _ hold)
            rw [hwe] at hnext
            exact hnext
        -- the worker is spawned now
        · obtain ⟨rfl, t, e₀, -, hspawns, rfl⟩ := hchange.hired hge hi
          obtain ⟨d, reconnect, hspawned⟩ := hsound.spawned hspawns s.stopping
          rw [hunasked _ hge, actionsOn_of_absent hge]
          show P _ { e₀.worker with stopping := s.stopping } []
          rw [hspawned]
          exact hfresh _ d reconnect s.stopping (Nat.le_refl _) id
      intro i e hi
      rw [actionsFrom, ← List.append_assoc]
      exact ih (hsound.step ev) hfresh' hworkers' hunasked' i e hi

/-- `workers_keep_from`, counting what the workers ask for from now on. -/
theorem workers_keep {P : WorkerId → Worker → List WorkerAction → Prop} (hsound : s.Sound)
    (hstep : ∀ i w actions we, P i w actions → P i (w.step we).1 (actions ++ (w.step we).2))
    (hfresh : ∀ i d reconnect stopping, s.workers.length ≤ i →
      (s.stopping = true → stopping = true) → P i (Worker.spawned d reconnect stopping) [])
    (hworkers : ∀ i e, s.workers[i]? = some e → P i e.worker []) (events : List (EngineEvent η))
    (i : WorkerId) (e : Employment) (hi : (s.run events).workers[i]? = some e) :
    P i e.worker (s.actionsFrom i events) := by
  exact workers_keep_from hstep hsound hfresh hworkers (fun _ _ => rfl) events i e hi

end Workers

/-! ## Consumers without a worker -/

/-- The consumer is registered and may run. -/
def Enables (s : Engine η) (name : String) : Prop :=
  ∃ r, s.registry.get? name = some r ∧ r.definition.enable.isEnabled = true

/-- Which consumers have workers. -/
structure Roster (s : Engine η) : Prop where
  started : ∀ name r, s.registry.get? name = some r → r.state ≠ .unregistered →
    ∃ e ∈ s.workers, e.consumer = name
  enabled : ∀ e ∈ s.workers, s.Enables e.consumer
  awaited : ∀ t, ∀ e ∈ s.pending t, s.Enables e.consumer

/-- Every consumer that is disabled or has no worker is `unregistered`. -/
def OthersUnregistered (s : Engine η) : Prop :=
  ∀ name r, s.registry.get? name = some r →
    (r.definition.enable.isEnabled = false ∨ ∀ e ∈ s.workers, e.consumer ≠ name) →
    s.state name = .ok .unregistered

section Roster

variable {s s' : Engine η} {ev : EngineEvent η} {name : String}

theorem Enables.keep (h : s.Enables name) (hkept : s.Kept s') : s'.Enables name := by
  obtain ⟨r, hr, henabled⟩ := h
  obtain ⟨moves, hmoves⟩ := hkept name r hr
  exact ⟨r.after moves, hmoves, henabled⟩

/-- Who has a worker keeps it. -/
theorem Change.keeps_worker (h : s.Change ev s') (hname : ∃ e ∈ s.workers, e.consumer = name) :
    ∃ e ∈ s'.workers, e.consumer = name := by
  obtain ⟨e, hmem, rfl⟩ := hname
  obtain ⟨i, hi⟩ := List.mem_iff_getElem?.1 hmem
  obtain ⟨w, hw, -⟩ := h.worker hi
  exact ⟨_, List.mem_of_getElem? hw, rfl⟩

theorem roster_initial (settings : Settings) (pools : Pools) :
    ({ settings, pools } : Engine η).Roster where
  started _ _ hr := by cases hr
  enabled _ he := by cases he
  awaited _ _ he := by cases he

/-- A consumer is moved only if it has a worker, or gets one. -/
theorem Roster.started_step (h : s.Roster) (hchange : s.Change ev s') (name : String)
    (r : Registration η) (hr : s'.registry.get? name = some r) (hstate : r.state ≠ .unregistered) :
    ∃ e ∈ s'.workers, e.consumer = name := by
  have hkeep : (∃ e ∈ s.workers, e.consumer = name) → ∃ e ∈ s'.workers, e.consumer = name :=
    hchange.keeps_worker
  cases hchange with
  | registers hnew hidle =>
      rw [Keyed.get?_insert] at hr
      split at hr
      · cases hr
        exact absurd rfl hstate
      · exact hkeep (h.started name r hr hstate)
  | @employs t e rest hcalls hlock =>
      by_cases hname : name = e.consumer
      · exact ⟨_, List.mem_append_right _ (List.mem_singleton_self _), hname.symm⟩
      · exact hkeep (h.started name r ((Registry.get?_moveAll_of_ne _ _ hname).symm.trans hr) hstate)
  | @works i we employment hne hi =>
      by_cases hname : name = employment.consumer
      · exact hkeep ⟨employment, List.mem_of_getElem? hi, hname.symm⟩
      · exact hkeep (h.started name r ((Registry.get?_moveAll_of_ne _ _ hname).symm.trans hr) hstate)
  | _ => exact hkeep (h.started name r hr hstate)

theorem Roster.step (h : s.Roster) (hsound : s.Sound) (ev : EngineEvent η) :
    (s.step ev).Roster where
  started := h.started_step (s.step_change ev)
  enabled e he := by
    obtain ⟨i, hi⟩ := List.mem_iff_getElem?.1 he
    refine Enables.keep ?_ (s.step_kept ev)
    rcases (s.step_change ev).worker_of hi with ⟨old, hold, hsame⟩ | ⟨t, old, hold, hsame⟩
    · exact hsame ▸ h.enabled old (List.mem_of_getElem? hold)
    · exact hsame ▸ h.awaited t old hold
  awaited t e he := by
    refine Enables.keep ?_ (s.step_kept ev)
    rcases (s.step_change ev).pending t with hsub | hgathered
    · exact h.awaited t e (hsub.subset he)
    · -- a start begins with consumers that are enabled
      rw [hgathered] at he
      obtain ⟨r, hr, hconsumer, -⟩ := s.mem_gathered he
      obtain ⟨-, hok⟩ := List.mem_filter.1 hr
      rw [Bool.and_eq_true] at hok
      exact ⟨r, hconsumer ▸ (hsound.of_startable hr).1, hok.2⟩

theorem Roster.run (h : s.Roster) (hsound : s.Sound) (events : List (EngineEvent η)) :
    (s.run events).Roster := by
  induction events generalizing s with
  | nil => exact h
  | cons ev rest ih => exact ih (h.step hsound ev) (hsound.step ev)

theorem Roster.others (h : s.Roster) : s.OthersUnregistered := by
  intro name r hr hidle
  refine state_eq_ok.2 ⟨r, hr, Classical.byContradiction fun hstate => ?_⟩
  obtain ⟨e, he, rfl⟩ := h.started name r hr hstate
  rcases hidle with hdisabled | hnone
  · obtain ⟨r', hr', henabled⟩ := h.enabled e he
    rw [hr] at hr'
    cases hr'
    rw [hdisabled] at henabled
    cases henabled
  · exact hnone e he rfl

end Roster

/-! ## Shutting down -/

/-- All workers that the task waits for have returned, so its next step returns from the shutdown. -/
def hasJoined (s : Engine η) (t : TaskId) : Bool :=
  match s.calls t with
  | some (.joining ws) => ws.all s.hasReturned
  | _ => false

/-- All workers have returned. -/
def AllStopped (s : Engine η) : Prop :=
  ∀ (i : WorkerId) (e : Employment), s.workers[i]? = some e → e.worker.phase = .stopped

/-- The event is a step of the worker's own. -/
def isOwnStepOf (i : WorkerId) : EngineEvent η → Bool
  | .within j e => j = i && e.isOwn
  | _ => false

/-- The workers are shut down, after each worker `i` has asked for `asked i`. -/
structure ShutDown (s : Engine η) (asked : WorkerId → List WorkerAction) : Prop where
  /-- No start has gathered consumers that it has not started. -/
  settled : ∀ t, s.pending t = []
  /-- Every consumer that was started is `stopped`. -/
  stopped : ∀ (i : WorkerId) (e : Employment), s.workers[i]? = some e →
    s.state e.consumer = .ok .stopped
  /-- Every handler that was started has ended or was given up. -/
  handlers : ∀ (i : WorkerId) (e : Employment), s.workers[i]? = some e →
    e.worker.handlings.map Handling.place = dispatchesOf (asked i) ∧
      ∀ (k : Nat) (h : Handling), e.worker.handlings[k]? = some h →
        h.isOver = true ∨ .abort k ∈ asked i
  /-- Every channel that was opened is released. -/
  channels : ∀ (i : WorkerId) (e : Employment), s.workers[i]? = some e →
    openedOf (asked i) = releasedOf (asked i) ∧ e.worker.held? = none
  others : s.OthersUnregistered

/-- The workers stay shut down while the events happen. -/
structure StaysDown (s : Engine η) (later : List (EngineEvent η)) : Prop where
  stopped : ∀ (i : WorkerId) (e : Employment), s.workers[i]? = some e →
    (s.run later).state e.consumer = .ok .stopped
  /-- No delivery is dispatched any more, also not by workers that are spawned later. -/
  silent : ∀ i, dispatchesOf (s.actionsFrom i later) = []
  /-- A consumer that is started later has asked for nothing but to be moved to `stopped`, or for
  nothing yet, and two more steps of its worker's own lead there. -/
  late : ∀ (i : WorkerId) (e : Employment), s.workers.length ≤ i →
    (s.run later).workers[i]? = some e →
    (s.actionsFrom i later = [] ∧ (s.run later).state e.consumer = .ok .declaring ∨
      s.actionsFrom i later = [.become .stopped] ∧
        (s.run later).state e.consumer = .ok .stopped) ∧
    ∀ more : List (EngineEvent η), 2 ≤ more.countP (isOwnStepOf i) →
      ((s.run later).run more).state e.consumer = .ok .stopped
  others : (s.run later).OthersUnregistered

section Shutdown

variable {s : Engine η} {t : TaskId} {i : WorkerId} {e : Employment} {actions : List WorkerAction}
  {asked : WorkerId → List WorkerAction}

theorem exists_of_hasJoined (h : s.hasJoined t = true) :
    ∃ ws, s.calls t = some (.joining ws) ∧ ws.all s.hasReturned = true := by
  unfold hasJoined at h
  split at h
  · next ws hcalls => exact ⟨ws, hcalls, h⟩
  · cases h

theorem step_hasJoined (h : s.hasJoined t = true) :
    s.step (.proceed t) = s.goto t .finished := by
  obtain ⟨ws, hcalls, hall⟩ := exists_of_hasJoined h
  simp only [step, hcalls, proceed, hall, if_true]

/-- The shutdown that took over the workers first returns when all workers have. -/
theorem Handed.all_stopped {taken : List TaskId} (h : s.Handed taken)
    (hfirst : taken.head? = some t) (hjoined : s.hasJoined t = true) : s.AllStopped := by
  intro i e hi
  obtain ⟨ws, hcalls, hall⟩ := exists_of_hasJoined hjoined
  have hlt : i < s.workers.length := (List.getElem?_eq_some_iff.1 hi).1
  rw [h.first t ws hfirst hcalls, List.all_eq_true] at hall
  have hreturned := hall i (List.mem_range.2 hlt)
  rw [hasReturned, hi] at hreturned
  exact e.worker.isStopped_iff.1 hreturned

/-- While a task shuts down, or right when it returns, no start is under way. -/
theorem Apart.no_pending (h : s.Apart) (hshuts : s.isShuttingDown t = true) (u : TaskId) :
    s.pending u = [] := by
  refine List.eq_nil_iff_forall_not_mem.2 fun e he => ?_
  have hstarting := isStarting_of_pending he
  by_cases hu : t = u
  · subst hu
    unfold isStarting at hstarting
    split at hstarting
    · next hcalls =>
      rw [isShuttingDown, hcalls] at hshuts
      cases hshuts
    · next hcalls =>
      rw [isShuttingDown, hcalls] at hshuts
      cases hshuts
    · cases hstarting
  · have hnot := (h u t hu hstarting).2
    rw [hshuts] at hnot
    cases hnot

/-- A worker that has stopped shows it by the state of its consumer. -/
theorem Conducts.state_of_stopped (h : s.Conducts i e actions) (hi : s.workers[i]? = some e)
    (hp : e.worker.phase = .stopped) : s.state e.consumer = .ok .stopped := by
  obtain ⟨w, hw, -, -, hfollows⟩ := h.follows
  obtain rfl : e.worker = w := congrArg Employment.worker (Option.some.inj (hi.symm.trans hw))
  exact hfollows.returned.1 (e.worker.isStopped_iff.2 hp)

/-- What a worker keeps in order: its channels and its handlers. -/
def InOrder (w : Worker) (actions : List WorkerAction) : Prop :=
  w.Tidy actions ∧ ∃ steps, actionsOf steps = actions ∧ w.ReadAccount actions ∧ w.CallAccount steps

theorem inOrder_spawned (d : Definition) (reconnect : ReconnectSettings) (stopping : Bool) :
    InOrder (Worker.spawned d reconnect stopping) [] := by
  obtain ⟨hread, hcall⟩ := Worker.account_run d reconnect stopping []
  exact ⟨Worker.tidy_spawned d reconnect stopping, [], rfl, hread, hcall⟩

theorem InOrder.step {w : Worker} (h : InOrder w actions) (we : WorkerEvent) :
    InOrder (w.step we).1 (actions ++ (w.step we).2) := by
  obtain ⟨htidy, steps, rfl, hread, hcall⟩ := h
  obtain ⟨hread', hcall'⟩ := Worker.account_step hread hcall we
  rw [actionsOf_concat] at hread'
  exact ⟨htidy.step we, _, actionsOf_concat .., hread', hcall'⟩

/-- The workers of an engine keep their channels and handlers in order. -/
theorem inOrder_run (settings : Settings) (pools : Pools) (events : List (EngineEvent η))
    (hi : (({ settings, pools } : Engine η).run events).workers[i]? = some e) :
    InOrder e.worker (({ settings, pools } : Engine η).actionsFrom i events) := by
  refine workers_keep (P := fun _ => InOrder) (sound_initial settings pools) ?_ ?_ ?_ events i e hi
  · intro i w actions we h
    exact h.step we
  · intro i d reconnect stopping _ _
    exact inOrder_spawned d reconnect stopping
  · intro i e hi
    cases hi

/-- A worker that was there when the workers were shut down has stopped and dispatches nothing; one
that was spawned later is on its way to stop. -/
def Rests (n : Nat) (i : WorkerId) (w : Worker) (actions : List WorkerAction) : Prop :=
  (i < n → w.phase = .stopped ∧ dispatchesOf actions = []) ∧
    (n ≤ i → ∃ left, w.Retires left actions)

theorem Rests.step {n : Nat} {w : Worker} (h : Rests n i w actions) (we : WorkerEvent) :
    Rests n i (w.step we).1 (actions ++ (w.step we).2) := by
  refine ⟨fun hlt => ?_, fun hge => ?_⟩
  · obtain ⟨hphase, hnone⟩ := h.1 hlt
    refine ⟨Worker.phase_step_stopped hphase we, ?_⟩
    rw [dispatchesOf_append, hnone, Worker.dispatches_step_stopped hphase we]
    rfl
  · obtain ⟨left, hretires⟩ := h.2 hge
    exact ⟨_, hretires.step we⟩

/-- After all workers have stopped and were told to, the later ones stop too. -/
theorem rests_run (hsound : s.Sound) (hstopping : s.stopping = true) (hstopped : s.AllStopped)
    (events : List (EngineEvent η)) (hi : (s.run events).workers[i]? = some e) :
    Rests s.workers.length i e.worker (s.actionsFrom i events) := by
  refine workers_keep (P := Rests s.workers.length) hsound ?_ ?_ ?_ events i e hi
  · intro i w actions we h
    exact h.step we
  · intro i d reconnect stopping hge htold
    refine ⟨fun hlt => absurd hlt (Nat.not_lt.2 hge), fun _ => ⟨2, ?_⟩⟩
    rw [htold hstopping]
    exact Worker.retires_spawned d reconnect
  · intro i e hi
    refine ⟨fun _ => ⟨hstopped i e hi, rfl⟩, fun hge => ?_⟩
    rw [List.getElem?_eq_none hge] at hi
    cases hi

/-- A step of a worker's own. -/
theorem own_step (hi : s.workers[i]? = some e) :
    (s.step (.within i .proceed)).workers[i]? =
      some { e with worker := (e.worker.step .proceed).1 } := by
  have hlt := (List.getElem?_eq_some_iff.1 hi).1
  simp only [step, within, hi, foldl_become]
  exact List.getElem?_set_self hlt

/-- A worker that is on its way to stop gets on with every step of its own. -/
theorem retires_run {left : Nat} (hi : s.workers[i]? = some e) (h : e.worker.Retires left actions)
    (events : List (EngineEvent η)) :
    ∃ w left' more, (s.run events).workers[i]? = some { e with worker := w } ∧
      w.Retires left' more ∧ left' ≤ left - events.countP (isOwnStepOf i) := by
  induction events generalizing s e left actions with
  | nil => exact ⟨e.worker, left, actions, hi, h, Nat.le_refl _⟩
  | cons ev rest ih =>
      cases hown : isOwnStepOf i ev with
      | true =>
          obtain rfl : ev = .within i .proceed := by
            cases ev with
            | within j we =>
                simp only [isOwnStepOf, Bool.and_eq_true, decide_eq_true_eq] at hown
                obtain ⟨rfl, hwe⟩ := hown
                cases we with
                | proceed => rfl
                | _ => cases hwe
            | _ => cases hown
          obtain ⟨w, left', more, hw, hretires, hleft⟩ := ih (own_step hi) (h.step .proceed)
          refine ⟨w, left', more, hw, hretires, ?_⟩
          rw [List.countP_cons_of_pos hown]
          simp only [WorkerEvent.isOwn, if_true] at hleft
          omega
      | false =>
          rw [List.countP_cons_of_neg (by simp [hown])]
          obtain ⟨w₁, hw₁, ⟨rfl, -⟩ | ⟨we, hwe⟩⟩ := (s.step_change ev).worker hi
          · exact ih hw₁ h
          · have hnext := h.step we
            rw [hwe] at hnext
            obtain ⟨w, left', more, hw, hretires, hleft⟩ := ih hw₁ hnext
            exact ⟨w, left', more, hw, hretires, by omega⟩

/-- Workers that have stopped and kept everything in order are shut down. -/
theorem shutDown (hroster : s.Roster) (hstaffed : s.Staffed asked) (hphase : s.AllStopped)
    (hpending : ∀ u, s.pending u = [])
    (horder : ∀ (i : WorkerId) (e : Employment), s.workers[i]? = some e →
      InOrder e.worker (asked i)) : s.ShutDown asked where
  settled := hpending
  stopped i e hi := (hstaffed.conducts i e hi).state_of_stopped hi (hphase i e hi)
  handlers i e hi := by
    obtain ⟨htidy, steps, -, hread, -⟩ := horder i e hi
    exact ⟨hread.dispatched, (htidy.of_stopped (hphase i e hi)).2.2⟩
  channels i e hi := by
    obtain ⟨hchannels, hheld, -⟩ := (horder i e hi).1.of_stopped (hphase i e hi)
    exact ⟨hchannels, hheld⟩
  others := hroster.others

/-- Workers that have stopped and were told to stay shut down, whatever happens. -/
theorem staysDown {later : List (EngineEvent η)} (hsound : s.Sound) (hroster : s.Roster)
    (hstaffed : s.Staffed asked) (hstopping : s.stopping = true)
    (hphase : s.AllStopped) (hapart : s.StartsApart later) : s.StaysDown later := by
  have hlater := hstaffed.run hsound hapart.alone
  constructor
  · intro i e hi
    apply state_stopped_run
    exact (hstaffed.conducts i e hi).state_of_stopped hi (hphase i e hi)
  · intro i
    rcases Nat.lt_or_ge i (s.run later).workers.length with hlt | hge
    · have hrests := rests_run hsound hstopping hphase later (List.getElem?_eq_getElem hlt)
      rcases Nat.lt_or_ge i s.workers.length with hold | hnew
      · exact (hrests.1 hold).2
      · obtain ⟨left, hretires⟩ := hrests.2 hnew
        exact hretires.silent
    · obtain ⟨-, hnone⟩ := List.append_eq_nil_iff.1 (hlater.unasked i hge)
      rw [hnone]
      rfl
  · intro i e hnew hi
    obtain ⟨left, hretires⟩ := (rests_run hsound hstopping hphase later hi).2 hnew
    have hconducts := hlater.conducts i e hi
    rw [hstaffed.unasked i hnew, List.nil_append] at hconducts
    refine ⟨?_, fun more hown => ?_⟩
    · have hstate : (s.run later).state e.consumer = .ok (stateAfter (s.actionsFrom i later)) :=
        state_eq_ok.2 hconducts.shown
      rcases hretires.asked with hnil | hstops
      · rw [hnil] at hstate
        exact Or.inl ⟨hnil, hstate⟩
      · rw [hstops] at hstate
        exact Or.inr ⟨hstops, hstate⟩
    · -- it has two steps to make at most
      obtain ⟨w, left', asked', hw, hretires', hleft⟩ := retires_run hi hretires more
      have hbound := hretires.left_le
      obtain rfl : left' = 0 := by omega
      have hmore := hconducts.run (hsound.run later) more
      exact (hmore.current hw).state_of_stopped hw hretires'.done
  · exact (hroster.run hsound later).others

end Shutdown

/-- When the first shutdown returns, the consumers that were started are `stopped`, their handlers have
ended or were given up, and their channels are released. All this stays so, and a consumer that is
started later stops at once. No start may overlap another start or a shutdown; of shutdowns that
overlap each other, the first is the one that took over the workers before the others. -/
theorem shutdown_complete (settings : Settings) (pools : Pools)
    (before later : List (EngineEvent η)) (t : TaskId)
    (hapart : ({ settings, pools } : Engine η).StartsApart (before ++ .proceed t :: later))
    (hfirst : (({ settings, pools } : Engine η).takeovers before).head? = some t ∨
      ∀ u, .spawn u .shutdown ∈ before → u = t)
    (hjoined : (({ settings, pools } : Engine η).run before).hasJoined t = true) :
    let init : Engine η := { settings, pools }
    let now := (init.run before).step (.proceed t)
    now.calls t = some .finished ∧ now.ShutDown (fun i => init.actionsFrom i before) ∧
      now.StaysDown later := by
  intro init now
  have hsound : (init.run before).Sound := (sound_initial settings pools).run before
  have hbefore : init.StartsApart before := hapart.left
  have hafter : (init.run before).StartsApart (.proceed t :: later) := hapart.right
  -- what holds right before the shutdown returns
  have hstaffed : (init.run before).Staffed fun i => init.actionsFrom i before := by
    have hrun := (staffed_initial settings pools).run (sound_initial settings pools) hbefore.alone
    exact hrun
  have hhanded : (init.run before).Handed (init.takeovers before) :=
    (handed_initial settings pools).run hbefore
  have hroster : (init.run before).Roster :=
    (roster_initial settings pools).run (sound_initial settings pools) before
  obtain ⟨ws, hcalls, -⟩ := exists_of_hasJoined hjoined
  have hshuts : (init.run before).isShuttingDown t = true := by
    rw [isShuttingDown, hcalls]
    rfl
  have hhead : (init.takeovers before).head? = some t :=
    hfirst.elim id fun halone => first_of_alone halone hcalls
  -- returning changes nothing but where the task stands
  have hnow : now = (init.run before).goto t .finished := step_hasJoined hjoined
  have hworkers : now.workers = (init.run before).workers := by
    rw [hnow]
    rfl
  have hphase : now.AllStopped := by
    intro i e hi
    rw [hworkers] at hi
    exact hhanded.all_stopped hhead hjoined i e hi
  have hstaffed' : now.Staffed fun i => init.actionsFrom i before := by
    have hstep := hstaffed.step hsound hafter.now.alone (.proceed t)
    simp only [actionsOn, List.append_nil] at hstep
    exact hstep
  have hroster' : now.Roster := hroster.step hsound (.proceed t)
  have hstopping : now.stopping = true := by
    rw [hnow]
    exact hhanded.told t hshuts
  refine ⟨?_, ?_, staysDown (hsound.step _) hroster' hstaffed' hstopping hphase hafter.step⟩
  · rw [hnow]
    exact assign_self ..
  · refine shutDown hroster' hstaffed' hphase (fun u => ?_) fun i e hi => ?_
    · have hnone := hafter.now.no_pending hshuts u
      rw [hnow, pending_of_calls rfl u]
      split
      · rfl
      · exact hnone
    · rw [hworkers] at hi
      exact inOrder_run settings pools before hi

/-- Two consumers are started and a third is disabled. One worker has handed a delivery to its
handler, the other has not begun, when the workers are told to stop; the handler takes too long. -/
def stoppingRun : List (EngineEvent Unit) :=
  [.register plainOrders (), .register (Definition.new "audits" "audits") (),
    .register { Definition.new "invoices" "invoices" with enable := .always false } (),
    .spawn 0 .start, .proceed 0, .proceed 0, .proceed 0, .proceed 0, .proceed 0,
    .within 1 .proceed, .within 1 (.connected (.ok ⟨"default", 0⟩)), .within 1 (.opened (.ok 0)),
    .within 1 (.prepared true), .within 1 (.prepared true), .within 1 .proceed,
    .within 1 (.item (.delivery { tag := 1 })), .within 1 (.entered (.ok ())),
    .spawn 1 .shutdown, .proceed 1, .proceed 1, .proceed 1,
    .within 0 .proceed, .within 0 .proceed, .within 1 .proceed, .within 1 (.status true),
    .within 1 .cancelled, .within 1 .expired, .within 1 .released, .within 1 .proceed]

/-- Another consumer is registered and started. -/
def startedLateRun : List (EngineEvent Unit) :=
  [.register (Definition.new "refunds" "refunds") (), .spawn 2 .start, .proceed 2, .proceed 2,
    .proceed 2, .proceed 2, .within 2 .proceed, .within 2 .proceed]

theorem shutdown_complete_aborted :
    let init : Engine Unit := { settings := {}, pools := { settings := {} } }
    let now := (init.run stoppingRun).step (.proceed 1)
    init.StartsApart (stoppingRun ++ .proceed 1 :: startedLateRun) ∧
      (init.takeovers stoppingRun).head? = some 1 ∧
      (init.run stoppingRun).hasJoined 1 = true ∧
      now.workers.map Employment.consumer = ["audits", "orders"] ∧
      (dispatchesOf (init.actionsFrom 1 stoppingRun)).length = 1 ∧
      movesOf (now.actionsFrom 2 startedLateRun) = [.stopped] ∧
      now.ShutDown (fun i => init.actionsFrom i stoppingRun) ∧ now.StaysDown startedLateRun := by
  intro init now
  have hapart : init.StartsApart (stoppingRun ++ .proceed 1 :: startedLateRun) := by
    have hamong :
        init.remainsApartAmong [0, 1, 2] (stoppingRun ++ .proceed 1 :: startedLateRun) = true := by
      decide +kernel
    refine startsApart_of_among (fun _ _ => rfl) ?_ hamong
    intro u call hmem
    simp [stoppingRun, startedLateRun] at hmem
    rcases hmem with ⟨rfl, -⟩ | ⟨rfl, -⟩ | ⟨rfl, -⟩ <;> simp
  have hfirst : (init.takeovers stoppingRun).head? = some 1 := by decide +kernel
  have hjoined : (init.run stoppingRun).hasJoined 1 = true := by decide +kernel
  obtain ⟨-, hdown, hstays⟩ :=
    shutdown_complete {} { settings := {} } stoppingRun startedLateRun 1 hapart (Or.inl hfirst)
      hjoined
  refine ⟨hapart, hfirst, hjoined, ?_, ?_, ?_, hdown, hstays⟩
  · decide +kernel
  · decide +kernel
  · decide +kernel

/-- A worker consumes when two tasks shut the workers down. The one that began first comes to the
lock after the other. -/
def overtakenRun : List (EngineEvent Unit) :=
  [.register plainOrders (), .spawn 0 .start, .proceed 0, .proceed 0, .proceed 0, .proceed 0,
    .within 0 .proceed, .within 0 (.connected (.ok ⟨"default", 0⟩)), .within 0 (.opened (.ok 0)),
    .within 0 (.prepared true), .within 0 (.prepared true), .within 0 .proceed,
    .spawn 1 .shutdown, .proceed 1, .spawn 2 .shutdown, .proceed 2, .proceed 2, .proceed 2,
    .proceed 1, .proceed 1]

/-- Of two shutdowns that overlap, the first to begin and to return may find all workers taken over,
and leave one behind that still consumes. -/
theorem shutdown_overtaken :
    let init : Engine Unit := { settings := {}, pools := { settings := {} } }
    let now := (init.run overtakenRun).step (.proceed 1)
    init.StartsApart (overtakenRun ++ [.proceed 1]) ∧
      init.takeovers overtakenRun = [2, 1] ∧
      (init.run overtakenRun).hasJoined 1 = true ∧ now.isShuttingDown 2 = true ∧
      now.state "orders" = .ok .consuming ∧
      ¬ now.ShutDown fun i => init.actionsFrom i overtakenRun := by
  intro init now
  have hapart : init.StartsApart (overtakenRun ++ [.proceed 1]) := by
    have hamong : init.remainsApartAmong [0, 1, 2] (overtakenRun ++ [.proceed 1]) = true := by
      decide +kernel
    refine startsApart_of_among (fun _ _ => rfl) ?_ hamong
    intro u call hmem
    simp [overtakenRun] at hmem
    rcases hmem with ⟨rfl, -⟩ | ⟨rfl, -⟩ | ⟨rfl, -⟩ <;> simp
  have hstate : now.state "orders" = .ok .consuming := by decide +kernel
  refine ⟨hapart, by decide +kernel, by decide +kernel, by decide +kernel, hstate, ?_⟩
  intro hdown
  have hworker : (now.workers[0]?).map Employment.consumer = some "orders" := by decide +kernel
  obtain ⟨e, he, hconsumer⟩ := Option.map_eq_some_iff.1 hworker
  have hstopped := hdown.stopped 0 e he
  rw [hconsumer, hstate] at hstopped
  cases hstopped

end Engine

end AmqpDelivery
