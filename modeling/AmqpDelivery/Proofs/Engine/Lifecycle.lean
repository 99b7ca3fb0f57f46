import AmqpDelivery.Proofs.Engine.Conduct

/-!
# The lifecycle of a consumer

A consumer that is started goes through a lifecycle (`Engine.worker_follows_lifecycle`), whatever
its worker meets with and whenever it is told to stop, if no other start overlaps the one that
spawns the worker.
-/

namespace AmqpDelivery

variable {η : Type}

namespace Engine

/-- A consumer follows a lifecycle: where it stands after what its worker has asked for, and what
the worker may ask for next. -/
structure FollowsLifecycle (s : Engine η) (consumer : String) (w : Worker)
    (actions : List WorkerAction) : Prop where
  /-- The consumer is where the last move leads to. -/
  reached : s.state consumer = .ok (stateAfter actions)
  /-- Whatever happens next, the worker asks for one move at most, and that move is allowed. -/
  allowed : ∀ event, movesOf (w.step event).2 = [] ∨
    ∃ next, movesOf (w.step event).2 = [next] ∧ (stateAfter actions).mayBecome next = true
  /-- The states are the first of a lifecycle, and all of it when the worker has returned. -/
  states : ∃ rounds consumed failed,
    (.unregistered :: .declaring :: movesOf actions) <+: lifecycle rounds consumed failed ∧
      (w.isStopped = true ↔
        .unregistered :: .declaring :: movesOf actions = lifecycle rounds consumed failed)
  /-- The consumer is `stopped` if and only if the worker has returned. -/
  returned : w.isStopped = true ↔ s.state consumer = .ok .stopped
  /-- A consumer that is not to be started over is `declaring` once. -/
  once : w.definition.restarts = false → .declaring ∉ movesOf actions
  /-- The worker starts the consumer over at the end of a wait, which is as long as belongs to the
  number of this start, counted in 32 bits, and which is the last thing that it asked for. -/
  waits : ∀ event, .declaring ∈ movesOf (w.step event).2 →
    event = .rested ∧ ∃ ms,
      ms = backoffDelay w.reconnect (UInt32.ofNat ((movesOf actions).count .declaring + 1)) ∧
      w.phase = .resting ms ∧ (marksOf actions).getLast? = some (.rest ms)

variable {s : Engine η} {i : WorkerId} {e : Employment} {actions : List WorkerAction}

/-- A worker that conducts its consumer leads it along a lifecycle. -/
theorem Conducts.follows (h : s.Conducts i e actions) :
    ∃ w, s.workers[i]? = some { e with worker := w } ∧ w.definition = e.worker.definition ∧
      w.reconnect = e.worker.reconnect ∧ s.FollowsLifecycle e.consumer w actions := by
  obtain ⟨w, hi, hdefinition, hreconnect, hcourse⟩ := h.employed
  have hreached : s.state e.consumer = .ok (stateAfter actions) := state_eq_ok.2 h.shown
  have hstopped : w.isStopped = true ↔ w.phase = .stopped := w.isStopped_iff
  refine ⟨w, hi, hdefinition, hreconnect, ?_⟩
  constructor
  · exact hreached
  · intro event
    rcases w.step_moves event with hnone | ⟨next, hone⟩
    · exact Or.inl hnone
    · exact Or.inr ⟨next, hone, hcourse.allowed (hone ▸ List.mem_singleton_self next)⟩
  · obtain ⟨rounds, consumed, failed, more, hstates, hmore⟩ := hcourse.lifecycle
    refine ⟨rounds, consumed, failed, ⟨more, hstates⟩, ?_⟩
    rw [hstopped, hmore, ← hstates]
    exact List.self_eq_append_right.symm
  · rw [hstopped, hreached, ← hcourse.shows.stopped_iff]
    exact ⟨congrArg _, Except.ok.inj⟩
  · exact hcourse.once
  · intro event hnext
    exact hcourse.restart hnext

/-- A worker that a start spawns leads its consumer along a lifecycle, if no other start overlaps
this one until then. So far the consumer is `unregistered`, and once it is `stopped` it stays so. -/
theorem worker_follows_lifecycle (settings : Settings) (pools : Pools)
    (before after : List (EngineEvent η)) (t : TaskId) (e : Employment)
    (hspawns : (({ settings, pools } : Engine η).run before).Spawns t e)
    (halone : ({ settings, pools } : Engine η).StartsAlone before t) :
    let s := ({ settings, pools } : Engine η).run before
    let spawned := s.step (.proceed t)
    let now := spawned.run after
    let actions := spawned.actionsFrom s.workers.length after
    s.state e.consumer = .ok .unregistered ∧
      spawned.state e.consumer = .ok .declaring ∧
      ∃ w, now.workers[s.workers.length]? = some { e with worker := w } ∧
        w.definition = e.worker.definition ∧
        w.reconnect = now.reconnectOf w.definition.pool ∧
        now.FollowsLifecycle e.consumer w actions ∧
        (w.isStopped = true → ∀ later, (now.run later).state e.consumer = .ok .stopped) := by
  intro s spawned now actions
  have hsound : s.Sound := (sound_initial settings pools).run before
  have huntouched : s.Untouched t := by
    refine Untouched.run ?_ (sound_initial settings pools) halone
    intro e' he'
    cases he'
  have hmine := hspawns.mem
  have hspawned := huntouched.conducts hsound halone.last hspawns
  have hnow := hspawned.run (hsound.step (.proceed t)) after
  obtain ⟨r, -, hworker⟩ := hsound.gathers t e hmine
  obtain ⟨w, hi, hdefinition, hreconnect, hfollows⟩ := hnow.follows
  refine ⟨state_eq_ok.2 (huntouched e hmine), state_eq_ok.2 hspawned.shown, w, hi, hdefinition, ?_,
    hfollows, ?_⟩
  · have hsettings : now.settings = s.settings :=
      (run_settings spawned after).trans (s.step_change _).settings
    rw [hreconnect, hdefinition, hworker, reconnectOf, reconnectOf, hsettings]
  · intro hreturned later
    exact state_stopped_run (hfollows.returned.1 hreturned) later

/-- A consumer that declares nothing. -/
def plainOrders : Definition := { Definition.new "orders" "orders" with declares := false }

/-- A start that is about to spawn the worker of one consumer. -/
def startingRun : List (EngineEvent Unit) :=
  [.register plainOrders (), .spawn 0 .start, .proceed 0, .proceed 0]

/-- The worker fails to connect, waits, starts over, consumes, and is told to stop. -/
def restartedRun : List (EngineEvent Unit) :=
  [.within 0 .proceed, .within 0 (.connected (.error .closed)), .within 0 .proceed,
    .within 0 .proceed, .within 0 .rested, .within 0 .proceed,
    .within 0 (.connected (.ok ⟨"default", 0⟩)), .within 0 (.opened (.ok 0)),
    .within 0 (.prepared true), .within 0 (.prepared true), .spawn 1 .shutdown, .proceed 1,
    .within 0 .proceed, .within 0 (.status false), .within 0 .drained, .within 0 .released,
    .within 0 .proceed]

theorem worker_follows_lifecycle_restarted :
    let s := ({ settings := {}, pools := { settings := {} } } : Engine Unit).run startingRun
    let e : Employment :=
      { consumer := "orders", limiter := 0, worker := { definition := plainOrders, reconnect := {} } }
    let now := (s.step (.proceed 0)).run restartedRun
    let actions := (s.step (.proceed 0)).actionsFrom s.workers.length restartedRun
    s.Spawns 0 e ∧ movesOf actions = [.failed, .declaring, .consuming, .stopped] ∧
      (∃ w, now.workers[s.workers.length]? = some { e with worker := w } ∧
        now.FollowsLifecycle e.consumer w actions) ∧
      ∀ later, (now.run later).state e.consumer = .ok .stopped := by
  intro s e now actions
  have hspawns : s.Spawns 0 e := ⟨rfl, [], rfl⟩
  have halone :
      ({ settings := {}, pools := { settings := {} } } : Engine Unit).StartsAlone startingRun 0 := by
    refine startsAlone_of_single (fun _ _ => rfl) ?_
    intro u call hmem
    simp [startingRun] at hmem
    exact hmem.1
  obtain ⟨-, -, w, hi, -, -, hfollows, hstays⟩ :=
    worker_follows_lifecycle {} { settings := {} } startingRun restartedRun 0 e hspawns halone
  have hmoves : movesOf actions = [.failed, .declaring, .consuming, .stopped] := by
    decide +kernel
  have hstopped : stateAfter actions = .stopped := by
    rw [stateAfter, hmoves]
    rfl
  refine ⟨hspawns, hmoves, ⟨w, hi, hfollows⟩, hstays (hfollows.returned.2 ?_)⟩
  rw [hfollows.reached, hstopped]

end Engine

end AmqpDelivery
