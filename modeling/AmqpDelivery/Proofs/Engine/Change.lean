import AmqpDelivery.Worker.Engine

/-!
# What one step of the engine does

`Engine.step_change` is the one place where the steps of the engine are opened. A step registers a
consumer, lets a call begin or go on, or lets a worker go on. What each of them changes is written
out in `Engine.Change`; a registration changes only as its consumer is moved (`Registry.moveAll`).
-/

namespace AmqpDelivery

variable {η : Type}

/-- The workers that a call has gathered and not spawned. -/
def EngineStage.pending : EngineStage → List Employment
  | .gathered workers | .spawning workers => workers
  | _ => []

/-- What is pending after a gathering. -/
theorem EngineStage.pending_afterGathering (workers : Option (List Employment)) :
    (afterGathering workers).pending = workers.getD [] := by
  cases workers <;> rfl

/-- The registered consumers. -/
abbrev Registry (η : Type) := Keyed (Registration η)

/-- The registration after its consumer was asked to move. -/
def Registration.after (r : Registration η) (moves : List ConsumerState) : Registration η :=
  { r with state := moves.foldl ConsumerState.become r.state }

namespace Registry

variable (t : Registry η) (name : String)

/-- Asks a consumer to move. -/
def move (next : ConsumerState) : Registry η :=
  match t.get? name with
  | some r => t.insert name (r.after [next])
  | none => t

/-- Asks a consumer to move several times. -/
def moveAll (moves : List ConsumerState) : Registry η :=
  moves.foldl (fun t next => move t name next) t

theorem get?_move (next : ConsumerState) (other : String) :
    (move t name next).get? other =
      if other = name then (t.get? other).map fun r => r.after [next] else t.get? other := by
  by_cases heq : other = name
  · subst heq
    rw [if_pos rfl, move]
    cases hr : t.get? other with
    | none => exact hr
    | some r => rw [Keyed.get?_insert, if_pos rfl]; rfl
  · rw [if_neg heq, move]
    cases t.get? name with
    | none => rfl
    | some r => rw [Keyed.get?_insert, if_neg heq]

theorem get?_moveAll (moves : List ConsumerState) (other : String) :
    (moveAll t name moves).get? other =
      if other = name then (t.get? other).map fun r => r.after moves else t.get? other := by
  induction moves generalizing t with
  | nil =>
      have hnone : (t.get? other).map (fun r => r.after []) = t.get? other := by
        cases t.get? other <;> rfl
      rw [hnone, ite_self]
      rfl
  | cons next rest ih =>
      rw [moveAll, List.foldl_cons, ← moveAll, ih, get?_move]
      split
      · rw [Option.map_map]
        rfl
      · rfl

theorem get?_moveAll_of_ne {moves : List ConsumerState} {other : String} (h : other ≠ name) :
    (moveAll t name moves).get? other = t.get? other :=
  (get?_moveAll t name moves other).trans (if_neg h)

theorem get?_moveAll_self {moves : List ConsumerState} {r : Registration η}
    (h : t.get? name = some r) : (moveAll t name moves).get? name = some (r.after moves) := by
  rw [get?_moveAll, if_pos rfl, h]
  rfl

end Registry

namespace Engine

/-- The workers that a task has gathered and not spawned. -/
def pending (s : Engine η) (t : TaskId) : List Employment :=
  match s.calls t with
  | some stage => stage.pending
  | none => []

theorem become_eq (s : Engine η) (name : String) (next : ConsumerState) :
    s.become name next = { s with registry := Registry.move s.registry name next } := by
  unfold become Registry.move
  cases s.registry.get? name with
  | none => rfl
  | some r => rfl

theorem foldl_become (s : Engine η) (name : String) (moves : List ConsumerState) :
    moves.foldl (fun s next => s.become name next) s =
      { s with registry := Registry.moveAll s.registry name moves } := by
  induction moves generalizing s with
  | nil => rfl
  | cons next rest ih =>
      rw [List.foldl_cons, ih, become_eq]
      rfl

/-- What a worker asks for in one step of the engine. -/
def actionsOn (s : Engine η) (i : WorkerId) : EngineEvent η → List WorkerAction
  | .within _ .shutdown => []
  | .within j e => if j = i then (s.within j e).2 else []
  | _ => []

theorem actionsOn_within {s : Engine η} {i j : WorkerId} {e : WorkerEvent} {employment : Employment}
    (he : e ≠ .shutdown) (hj : s.workers[j]? = some employment) :
    s.actionsOn i (.within j e) = if j = i then (employment.worker.step e).2 else [] := by
  have hactions : (s.within j e).2 = (employment.worker.step e).2 := by
    rw [within, hj]
  cases e with
  | shutdown => exact absurd rfl he
  | _ => rw [actionsOn, hactions]; exact WorkerEvent.noConfusion

section Gathering

variable (s : Engine η)

/-- The workers that are gathered for some consumers, none if the gathering panics. -/
def gathered (rs : List (Registration η)) : List Employment := (s.gatherAll rs).2.getD []

theorem exists_of_gather? {r : Registration η} {next : Engine η × Employment}
    (h : s.gather? r = some next) :
    ∃ pools limiter, next =
      ({ s with pools },
        { consumer := r.definition.name
          limiter
          worker := { definition := r.definition, reconnect := s.reconnectOf r.definition.pool } }) := by
  obtain ⟨⟨pools, limiter⟩, -, rfl⟩ := Option.map_eq_some_iff.1 h
  exact ⟨pools, limiter, rfl⟩

/-- Gathering changes nothing but the pools. -/
theorem gatherAll_eq (rs : List (Registration η)) :
    (s.gatherAll rs).1 = { s with pools := (s.gatherAll rs).1.pools } := by
  induction rs generalizing s with
  | nil => rfl
  | cons r rest ih =>
      unfold gatherAll
      cases hr : s.gather? r with
      | none => rfl
      | some next =>
          obtain ⟨pools, limiter, rfl⟩ := s.exists_of_gather? hr
          exact ih { s with pools }

/-- Gathering panics at a consumer, or goes on after it, and then it may panic later. -/
theorem gathered_cons (r : Registration η) (rest : List (Registration η)) :
    s.gathered (r :: rest) = [] ∨ ∃ pools limiter,
      s.gathered (r :: rest) =
        { consumer := r.definition.name
          limiter
          worker := { definition := r.definition, reconnect := s.reconnectOf r.definition.pool } } ::
          ({ s with pools } : Engine η).gathered rest := by
  unfold gathered
  rw [gatherAll]
  cases hr : s.gather? r with
  | none => exact Or.inl rfl
  | some next =>
      obtain ⟨pools, limiter, rfl⟩ := s.exists_of_gather? hr
      cases hothers : (({ s with pools } : Engine η).gatherAll rest).2 with
      | none => exact Or.inl (by simp only [hothers, Option.map_none, Option.getD_none])
      | some others =>
          refine Or.inr ⟨pools, limiter, ?_⟩
          simp only [hothers, Option.map_some, Option.getD_some]

/-- A gathered worker is a fresh one of a consumer in the list. -/
theorem mem_gathered {rs : List (Registration η)} {e : Employment} (h : e ∈ s.gathered rs) :
    ∃ r ∈ rs, e.consumer = r.definition.name ∧
      e.worker =
        { definition := r.definition, reconnect := s.reconnectOf r.definition.pool } := by
  induction rs generalizing s with
  | nil => cases h
  | cons r rest ih =>
      rcases s.gathered_cons r rest with hnil | ⟨pools, limiter, hcons⟩
      · rw [hnil] at h
        cases h
      · rw [hcons] at h
        rcases List.mem_cons.1 h with rfl | h
        · exact ⟨r, List.mem_cons_self, rfl, rfl⟩
        · obtain ⟨r', hr', hconsumer, hworker⟩ := ih { s with pools } h
          exact ⟨r', List.mem_cons_of_mem _ hr', hconsumer, hworker⟩

/-- The consumers are gathered in order, if gathering does not panic. -/
theorem consumers_gathered (rs : List (Registration η)) :
    ((s.gathered rs).map Employment.consumer).Sublist (rs.map fun r => r.definition.name) := by
  induction rs generalizing s with
  | nil => exact List.Sublist.refl _
  | cons r rest ih =>
      rcases s.gathered_cons r rest with hnil | ⟨pools, limiter, hcons⟩
      · rw [hnil]
        exact List.nil_sublist _
      · rw [hcons]
        exact (ih { s with pools }).cons_cons _

end Gathering

/-- What is pending after the call of a task has come to a stage. -/
theorem pending_of_calls {s s' : Engine η} {t : TaskId} {stage : EngineStage}
    (h : s'.calls = assign s.calls t (some stage)) (u : TaskId) :
    s'.pending u = if u = t then stage.pending else s.pending u := by
  by_cases hu : u = t
  · subst hu
    simp [pending, h]
  · simp [pending, h, hu]

/-- How a call goes on that has nothing to gather and nothing to spawn. -/
inductive Passes (s : Engine η) (t : TaskId) :
    EngineStage → EngineStage → List WorkerId → FairLock → Prop
  | asks : Passes s t .raised .collecting s.handles (s.lock.acquire t)
  | collects (hlock : s.lock.isHeldBy t = true) :
      Passes s t .collecting (.joining s.handles) [] s.lock.release
  | joins {workers : List WorkerId} (hall : workers.all s.hasReturned = true) :
      Passes s t (.joining workers) .finished s.handles s.lock
  | leaves (hlock : s.lock.isHeldBy t = true) :
      Passes s t (.spawning []) .finished s.handles s.lock.release

/-- What one event does to the engine. -/
inductive Change (s : Engine η) : EngineEvent η → Engine η → Prop
  | same {ev : EngineEvent η} (hidle : ∀ i, s.actionsOn i ev = []) : Change s ev s
  | registers {ev : EngineEvent η} {d : Definition} {handler : η}
      (hnew : s.registry.get? d.name = none) (hidle : ∀ i, s.actionsOn i ev = []) :
      Change s ev { s with registry := s.registry.insert d.name { definition := d, handler } }
  | begins {t : TaskId} {call : EngineCall} (h : s.calls t = none) :
      Change s (.spawn t call) (s.goto t (.ready call))
  | gathers {t : TaskId} (h : s.calls t = some (.ready .start)) :
      Change s (.proceed t)
        ({ s with pools := (s.gatherAll s.startable).1.pools }.goto t
          (.afterGathering (s.gatherAll s.startable).2))
  | raises {t : TaskId} (h : s.calls t = some (.ready .shutdown)) :
      Change s (.proceed t) (s.raise.goto t .raised)
  | queues {t : TaskId} {workers : List Employment} (h : s.calls t = some (.gathered workers)) :
      Change s (.proceed t) { s.goto t (.spawning workers) with lock := s.lock.acquire t }
  | employs {t : TaskId} {e : Employment} {rest : List Employment}
      (h : s.calls t = some (.spawning (e :: rest))) (hlock : s.lock.isHeldBy t = true) :
      Change s (.proceed t)
        ({ s with
            registry := Registry.moveAll s.registry e.consumer [.declaring]
            workers := s.workers ++ [{ e with worker := { e.worker with stopping := s.stopping } }]
            handles := s.handles ++ [s.workers.length] }.goto t (.spawning rest))
  | passes {t : TaskId} {stage next : EngineStage} {handles : List WorkerId} {lock : FairLock}
      (h : s.calls t = some stage) (hpasses : s.Passes t stage next handles lock) :
      Change s (.proceed t) { s.goto t next with handles, lock }
  | works {i : WorkerId} {e : WorkerEvent} {employment : Employment} (he : e ≠ .shutdown)
      (hi : s.workers[i]? = some employment) :
      Change s (.within i e)
        { s with
          registry :=
            Registry.moveAll s.registry employment.consumer (movesOf (employment.worker.step e).2)
          workers := s.workers.set i { employment with worker := (employment.worker.step e).1 } }

section Step

variable (s : Engine η)

theorem register_change {ev : EngineEvent η} {d : Definition} {handler : η} {s' : Engine η}
    (h : s.register d handler = .ok s') (hidle : ∀ i, s.actionsOn i ev = []) :
    s.Change ev s' := by
  unfold register at h
  split at h
  · cases h
  · next hnew =>
    cases h
    exact .registers hnew hidle

theorem proceed_change {t : TaskId} {stage : EngineStage} (h : s.calls t = some stage) :
    s.Change (.proceed t) (s.proceed t stage) := by
  cases stage with
  | ready call =>
      cases call with
      | start =>
          simp only [proceed]
          rw [gatherAll_eq]
          exact .gathers h
      | shutdown => exact .raises h
  | gathered workers => exact .queues h
  | raised => exact .passes h .asks
  | spawning workers =>
      cases hlock : s.lock.isHeldBy t with
      | true =>
          cases workers with
          | nil =>
              simp only [proceed, hlock]
              exact .passes h (.leaves hlock)
          | cons e rest =>
              simp only [proceed, hlock, if_true, employ, become_eq]
              exact .employs h hlock
      | false =>
          simp only [proceed, hlock]
          exact .same fun _ => rfl
  | collecting =>
      cases hlock : s.lock.isHeldBy t with
      | true =>
          simp only [proceed, hlock]
          exact .passes h (.collects hlock)
      | false =>
          simp only [proceed, hlock]
          exact .same fun _ => rfl
  | joining workers =>
      cases hall : workers.all s.hasReturned with
      | true =>
          simp only [proceed, hall]
          exact .passes h (.joins hall)
      | false =>
          simp only [proceed, hall]
          exact .same fun _ => rfl
  | panicked => exact .same fun _ => rfl
  | finished => exact .same fun _ => rfl

theorem within_change (i : WorkerId) {e : WorkerEvent} (he : e ≠ .shutdown) :
    s.Change (.within i e) (s.within i e).1 := by
  unfold within
  cases hi : s.workers[i]? with
  | some employment =>
      simp only [foldl_become]
      exact .works he hi
  | none =>
      refine .same fun j => ?_
      have hactions : (s.within i e).2 = [] := by rw [within, hi]
      cases e <;> simp only [actionsOn, hactions, ite_self]

/-- Every event makes one of the changes. -/
theorem step_change (ev : EngineEvent η) : s.Change ev (s.step ev) := by
  cases ev with
  | register d handler =>
      simp only [step]
      split
      · next hok => exact s.register_change hok fun _ => rfl
      · exact .same fun _ => rfl
  | registerConfigured name handler =>
      simp only [step]
      split
      · next hok =>
        unfold registerConfigured at hok
        split at hok
        · cases hok
        · next c _ =>
          cases hd : Definition.ofSettings c with
          | error f =>
              rw [hd] at hok
              cases hok
          | ok d =>
              rw [hd] at hok
              exact s.register_change hok fun _ => rfl
      · exact .same fun _ => rfl
  | spawn t call =>
      simp only [step]
      cases hcalls : s.calls t with
      | none => exact .begins hcalls
      | some stage => exact .same fun _ => rfl
  | proceed t =>
      simp only [step]
      cases hcalls : s.calls t with
      | none => exact .same fun _ => rfl
      | some stage => exact s.proceed_change hcalls
  | within i e =>
      cases e with
      | shutdown => exact .same fun _ => rfl
      | _ => exact s.within_change i WorkerEvent.noConfusion

theorem step_employs {t : TaskId} {e : Employment} {rest : List Employment}
    (h : s.calls t = some (.spawning (e :: rest))) (hlock : s.lock.isHeldBy t = true) :
    s.step (.proceed t) =
      { s with
        registry := Registry.moveAll s.registry e.consumer [.declaring]
        workers := s.workers ++ [{ e with worker := { e.worker with stopping := s.stopping } }]
        handles := s.handles ++ [s.workers.length] }.goto t (.spawning rest) := by
  simp only [step, h, proceed, hlock, if_true, employ, become_eq]
  rfl

end Step

end Engine

end AmqpDelivery
