import AmqpDelivery.Proofs.Engine.Lifecycle

/-!
# One worker for each consumer

Where starts do not overlap, every worker conducts its consumer and no two work for the same one
(`Engine.Staffed`, `Engine.one_worker_each`). Two starts that overlap may both gather a consumer
before one of them spawns its worker, and then both spawn one (`Engine.consumer_started_twice`).
-/

namespace AmqpDelivery

variable {η : Type}

/-- A shutdown has begun and has not finished. -/
def EngineStage.shutsDown : EngineStage → Bool
  | .raised | .collecting | .joining _ => true
  | _ => false

namespace Engine

/-- The task has begun to shut the workers down and has not finished. -/
def isShuttingDown (s : Engine η) (t : TaskId) : Bool := (s.calls t).any EngineStage.shutsDown

/-- While one task starts consumers, no other starts consumers or shuts them down. -/
def Apart (s : Engine η) : Prop :=
  ∀ t u, u ≠ t → s.isStarting t = true → s.isStarting u = false ∧ s.isShuttingDown u = false

/-- Starts overlap neither each other nor a shutdown, as far as the events go. -/
def StartsApart (s : Engine η) (events : List (EngineEvent η)) : Prop :=
  ∀ es, es <+: events → (s.run es).Apart

section Apart

variable {s : Engine η} {ev : EngineEvent η} {events more : List (EngineEvent η)}

theorem Apart.alone (h : s.Apart) (t : TaskId) : s.Alone t :=
  fun u hne hstarting => (h t u hne hstarting).1

theorem StartsApart.alone (h : s.StartsApart events) (t : TaskId) : s.StartsAlone events t :=
  fun es hes => (h es hes).alone t

theorem StartsApart.now (h : s.StartsApart events) : s.Apart := h [] List.nil_prefix

theorem StartsApart.step (h : s.StartsApart (ev :: events)) : (s.step ev).StartsApart events :=
  fun es hes => h (ev :: es) ((List.prefix_cons_inj ev).2 hes)

theorem StartsApart.left (h : s.StartsApart (events ++ more)) : s.StartsApart events :=
  fun es hes => h es (hes.trans (List.prefix_append _ _))

theorem run_append (s : Engine η) (events more : List (EngineEvent η)) :
    s.run (events ++ more) = (s.run events).run more :=
  List.foldl_append

theorem StartsApart.right (h : s.StartsApart (events ++ more)) :
    (s.run events).StartsApart more := by
  intro es hes
  rw [← run_append]
  exact h (events ++ es) ((List.prefix_append_right_inj events).2 hes)

/-- `Apart` for tasks that are given. -/
def apartAmong (s : Engine η) (ts : List TaskId) : Bool :=
  ts.all fun t => ts.all fun u =>
    u == t || !s.isStarting t || !(s.isStarting u || s.isShuttingDown u)

/-- `StartsApart` for tasks that are given. -/
def remainsApartAmong (s : Engine η) (ts : List TaskId) : List (EngineEvent η) → Bool
  | [] => s.apartAmong ts
  | ev :: rest => s.apartAmong ts && (s.step ev).remainsApartAmong ts rest

theorem apart_of_among {ts : List TaskId} (hnone : ∀ u ∉ ts, s.calls u = none)
    (h : s.apartAmong ts = true) : s.Apart := by
  intro t u hne hstarting
  by_cases hu : u ∈ ts
  · have ht : t ∈ ts := by
      refine Classical.byContradiction fun ht => ?_
      rw [isStarting, hnone t ht] at hstarting
      cases hstarting
    have hpair := List.all_eq_true.1 (List.all_eq_true.1 h t ht) u hu
    simpa [hne, hstarting] using hpair
  · rw [isStarting, isShuttingDown, hnone u hu]
    exact ⟨rfl, rfl⟩

/-- It is enough to look at the tasks that make calls. -/
theorem startsApart_of_among {ts : List TaskId} (hnone : ∀ u ∉ ts, s.calls u = none)
    (hevents : ∀ u call, .spawn u call ∈ events → u ∈ ts)
    (h : s.remainsApartAmong ts events = true) : s.StartsApart events := by
  induction events generalizing s with
  | nil =>
      intro es hes
      rw [List.prefix_nil.1 hes]
      exact apart_of_among hnone h
  | cons ev rest ih =>
      obtain ⟨hnow, hrest⟩ := Bool.and_eq_true_iff.1 h
      intro es hes
      cases es with
      | nil => exact apart_of_among hnone hnow
      | cons first es =>
          obtain ⟨rfl, hes'⟩ := List.cons_prefix_cons.1 hes
          refine ih (fun u hu => ?_) (fun u call hmem => ?_) hrest es hes'
          · refine (s.step_change first).calls_none (hnone u hu) ?_
            rintro call rfl
            exact hu (hevents u call List.mem_cons_self)
          · exact hevents u call (List.mem_cons_of_mem _ hmem)

end Apart

/-- Every worker `i` conducts its consumer, having asked for `asked i`, and the consumers that are
about to be started have not been started before. -/
structure Staffed (s : Engine η) (asked : WorkerId → List WorkerAction) : Prop where
  conducts : ∀ i e, s.workers[i]? = some e → s.Conducts i e (asked i)
  unasked : ∀ i, s.workers.length ≤ i → asked i = []
  untouched : ∀ t, s.Untouched t

section Staffed

variable {s s' : Engine η} {ev : EngineEvent η} {i : WorkerId} {e : Employment}
  {actions : List WorkerAction} {asked : WorkerId → List WorkerAction}

/-- It does not matter what the worker was like when it was spawned. -/
theorem Conducts.current {e' : Employment} (h : s.Conducts i e actions)
    (hi : s.workers[i]? = some e') : s.Conducts i e' actions := by
  obtain ⟨w, hw, -, -, hcourse⟩ := h.employed
  rw [hw] at hi
  cases hi
  exact ⟨⟨w, hw, rfl, rfl, hcourse⟩, h.only, h.settled, h.shown⟩

/-- A worker that is not there asks for nothing. -/
theorem actionsOn_of_absent (h : s.workers.length ≤ i) (ev : EngineEvent η) :
    s.actionsOn i ev = [] := by
  cases ev with
  | within j e =>
      by_cases hj : j = i
      · have hnone : (s.within j e).2 = [] := by
          rw [within, hj, List.getElem?_eq_none h]
        cases e <;> simp only [actionsOn, hnone, ite_self]
      · cases e <;> simp only [actionsOn, hj, if_false]
  | _ => rfl

/-- Workers are never dropped. -/
theorem Change.length_le (h : s.Change ev s') : s.workers.length ≤ s'.workers.length := by
  cases h with
  | raises hcalls => exact Nat.le_of_eq (List.length_map _).symm
  | employs hcalls hlock => exact (List.length_append ▸ Nat.le_add_right _ _)
  | works hne hi => exact Nat.le_of_eq List.length_set.symm
  | _ => exact Nat.le_refl _

/-- A worker that was not there before is the one that the event spawns. -/
theorem Change.hired (h : s.Change ev s') (hnone : s.workers.length ≤ i)
    (hi : s'.workers[i]? = some e) :
    i = s.workers.length ∧ ∃ t e₀, ev = .proceed t ∧ s.Spawns t e₀ ∧
      e = { e₀ with worker := { e₀.worker with stopping := s.stopping } } := by
  cases h with
  | raises hcalls =>
      obtain ⟨hlt, -⟩ := List.getElem?_eq_some_iff.1 hi
      simp only [goto, raise, List.length_map] at hlt
      exact absurd hlt (Nat.not_lt.2 hnone)
  | works hne hj =>
      obtain ⟨hlt, -⟩ := List.getElem?_eq_some_iff.1 hi
      simp only [List.length_set] at hlt
      exact absurd hlt (Nat.not_lt.2 hnone)
  | employs hcalls hlock =>
      have hlast := (List.getElem?_append_right hnone).symm.trans hi
      obtain rfl := List.mem_singleton.1 (List.mem_of_getElem? hlast)
      have hlt := (List.getElem?_eq_some_iff.1 hlast).1
      have hi : i = s.workers.length :=
        Nat.le_antisymm (Nat.le_of_sub_eq_zero (Nat.lt_one_iff.1 hlt)) hnone
      exact ⟨hi, _, _, rfl, ⟨hlock, _, hcalls⟩, rfl⟩
  | _ => cases (List.getElem?_eq_none hnone).symm.trans hi

theorem staffed_initial (settings : Settings) (pools : Pools) :
    ({ settings, pools } : Engine η).Staffed fun _ => [] where
  conducts _ _ hi := by cases hi
  unasked _ _ := rfl
  untouched _ _ he := by cases he

theorem Staffed.step (h : s.Staffed asked) (hsound : s.Sound) (halone : ∀ t, s.Alone t)
    (ev : EngineEvent η) : (s.step ev).Staffed fun i => asked i ++ s.actionsOn i ev where
  conducts i e hi := by
    rcases Nat.lt_or_ge i s.workers.length with hlt | hge
    · have hold := h.conducts i s.workers[i] (List.getElem?_eq_getElem hlt)
      exact (hold.step hsound ev).current hi
    · obtain ⟨rfl, t, e₀, rfl, hspawns, -⟩ := (s.step_change ev).hired hge hi
      rw [h.unasked _ hge, actionsOn_of_absent hge]
      exact ((h.untouched t).conducts hsound (halone t) hspawns).current hi
  unasked i hge := by
    have hold : s.workers.length ≤ i := Nat.le_trans (s.step_change ev).length_le hge
    rw [h.unasked i hold, actionsOn_of_absent hold]
    rfl
  untouched t := (h.untouched t).step hsound (halone t) (s.step_change ev)

theorem Staffed.run {events : List (EngineEvent η)} (h : s.Staffed asked) (hsound : s.Sound)
    (halone : ∀ t, s.StartsAlone events t) :
    (s.run events).Staffed fun i => asked i ++ s.actionsFrom i events := by
  induction events generalizing s asked with
  | nil =>
      simp only [actionsFrom, List.append_nil]
      exact h
  | cons ev rest ih =>
      have hrest := ih (h.step hsound (fun t => (halone t).now) ev) (hsound.step ev)
        fun t => (halone t).step
      simp only [List.append_assoc] at hrest
      exact hrest

/-- The workers of a staffed engine work for different consumers. -/
theorem Staffed.nodup (h : s.Staffed asked) : (s.workers.map Employment.consumer).Nodup := by
  rw [List.Nodup, List.pairwise_map, List.pairwise_iff_getElem]
  intro i j hi hj hij heq
  have honly := (h.conducts j _ (List.getElem?_eq_getElem hj)).only i _
    (List.getElem?_eq_getElem hi) heq
  exact Nat.ne_of_lt hij honly

end Staffed

/-- No consumer gets a second worker, if no two starts overlap. -/
theorem one_worker_each (settings : Settings) (pools : Pools) (events : List (EngineEvent η))
    (halone : ∀ t, ({ settings, pools } : Engine η).StartsAlone events t) :
    ((({ settings, pools } : Engine η).run events).workers.map Employment.consumer).Nodup :=
  ((staffed_initial settings pools).run (sound_initial settings pools) halone).nodup

/-- A start, a registration, and a second start. -/
def startedAgainRun : List (EngineEvent Unit) :=
  [.register plainOrders (), .spawn 0 .start, .proceed 0, .proceed 0, .proceed 0, .proceed 0,
    .register (Definition.new "invoices" "invoices") (), .spawn 1 .start, .proceed 1, .proceed 1,
    .proceed 1, .proceed 1]

theorem one_worker_each_again :
    let init : Engine Unit := { settings := {}, pools := { settings := {} } }
    (∀ t, init.StartsAlone startedAgainRun t) ∧
      (init.run startedAgainRun).workers.map Employment.consumer = ["orders", "invoices"] ∧
      ((init.run startedAgainRun).workers.map Employment.consumer).Nodup := by
  intro init
  have hapart : init.StartsApart startedAgainRun := by
    have hamong : init.remainsApartAmong [0, 1] startedAgainRun = true := by decide +kernel
    refine startsApart_of_among (fun _ _ => rfl) ?_ hamong
    intro u call hmem
    simp [startedAgainRun] at hmem
    rcases hmem with ⟨rfl, -⟩ | ⟨rfl, -⟩ <;> simp
  refine ⟨hapart.alone, by decide +kernel, ?_⟩
  exact one_worker_each {} { settings := {} } startedAgainRun hapart.alone

/-- Two starts gather the same consumer before one of them spawns its worker. -/
def startedTwiceRun : List (EngineEvent Unit) :=
  [.register plainOrders (), .spawn 0 .start, .spawn 1 .start, .proceed 0, .proceed 1, .proceed 0,
    .proceed 0, .proceed 0, .proceed 1, .proceed 1]

/-- Starts that overlap may spawn two workers for one consumer. -/
theorem consumer_started_twice :
    ¬ ∀ (settings : Settings) (pools : Pools) (events : List (EngineEvent Unit)),
      ((({ settings, pools } : Engine Unit).run events).workers.map Employment.consumer).Nodup := by
  intro h
  have htwice : (({ settings := {}, pools := { settings := {} } } : Engine Unit).run
      startedTwiceRun).workers.map Employment.consumer = ["orders", "orders"] := by
    decide +kernel
  have hnodup := h {} { settings := {} } startedTwiceRun
  rw [htwice] at hnodup
  exact absurd hnodup (by decide)

end Engine

end AmqpDelivery
