import AmqpDelivery.Proofs.Engine.Staff

/-!
# Who waits for the workers

A shutdown that has come to the lock takes over the workers that no other has taken over, and waits
for them. The first that does so waits for all workers (`Engine.Handed`), since no start overlaps
it; one that comes to the lock later finds none and returns at once, so shutdowns that overlap are
told apart by the order in which they take over. One that no other overlaps is the first
(`Engine.first_of_alone`).
-/

namespace AmqpDelivery

variable {η : Type}

/-- A shutdown has not taken over workers yet. -/
def EngineStage.isBeforeTakeover : EngineStage → Bool
  | .ready .shutdown | .raised | .collecting => true
  | _ => false

/-- A shutdown has taken over workers, or a call has finished. -/
def EngineStage.isPastTakeover : EngineStage → Bool
  | .joining _ | .finished => true
  | _ => false

namespace Engine

/-- The task that takes over workers with the event. -/
def takeover? (s : Engine η) : EngineEvent η → Option TaskId
  | .proceed t =>
      match s.calls t with
      | some .collecting => if s.lock.isHeldBy t then some t else none
      | _ => none
  | _ => none

/-- The tasks that take over workers, the first one first. -/
def takeovers (s : Engine η) : List (EngineEvent η) → List TaskId
  | [] => []
  | ev :: rest => (s.takeover? ev).toList ++ (s.step ev).takeovers rest

/-- Who has the handles of the workers, when the tasks `taken` have taken over workers. -/
structure Handed (s : Engine η) (taken : List TaskId) : Prop where
  /-- Until somebody takes over workers there is a handle for each of them. -/
  kept : taken = [] → s.handles = List.range s.workers.length
  /-- The first that takes over workers waits for all of them. -/
  first : ∀ t ws, taken.head? = some t → s.calls t = some (.joining ws) →
    ws = List.range s.workers.length
  past : ∀ t ∈ taken, (s.calls t).any EngineStage.isPastTakeover = true
  /-- A shutdown begins with telling the workers to stop. -/
  told : ∀ t, s.isShuttingDown t = true → s.stopping = true

section Steps

variable {s s' : Engine η} {ev : EngineEvent η} {t : TaskId} {ws : List WorkerId}
  {taken : List TaskId}

theorem takeover?_eq_some (h : s.takeover? ev = some t) :
    ev = .proceed t ∧ s.calls t = some .collecting ∧
      s.step ev = { s.goto t (.joining s.handles) with handles := [], lock := s.lock.release } := by
  cases ev with
  | proceed u =>
      simp only [takeover?] at h
      split at h
      · next hcalls =>
        split at h
        · next hlock =>
          cases h
          refine ⟨rfl, hcalls, ?_⟩
          simp only [step, hcalls, proceed, hlock, if_true]
        · cases h
      · cases h
  | _ => cases h

theorem Change.stopping (h : s.Change ev s') (hstopping : s.stopping = true) :
    s'.stopping = true := by
  cases h with
  | raises hcalls => rfl
  | _ => exact hstopping

/-- The handles and the workers grow together, unless workers are taken over. -/
theorem Change.handles (h : s.Change ev s') (hnone : s.takeover? ev = none) :
    s'.handles = s.handles ∧ s'.workers.length = s.workers.length ∨
      s'.handles = s.handles ++ [s.workers.length] ∧
        s'.workers.length = s.workers.length + 1 ∧ ∃ u, s.isStarting u = true := by
  cases h with
  | raises hcalls => exact Or.inl ⟨rfl, List.length_map _⟩
  | @employs u e rest hcalls hlock =>
      refine Or.inr ⟨rfl, List.length_append, u, ?_⟩
      rw [isStarting, hcalls]
  | @passes u stage next handles lock hcalls hpasses =>
      cases hpasses with
      | collects hlock =>
          simp [takeover?, hcalls, hlock] at hnone
      | _ => exact Or.inl ⟨rfl, rfl⟩
  | works hne hi => exact Or.inl ⟨rfl, List.length_set⟩
  | _ => exact Or.inl ⟨rfl, rfl⟩

/-- What one event does to the call of the task `t`. -/
inductive Furthers (s : Engine η) (ev : EngineEvent η) (s' : Engine η) (t : TaskId) :
    Option EngineStage → Option EngineStage → Prop
  | stays {stage : Option EngineStage} : Furthers s ev s' t stage stage
  | begins {call : EngineCall} (hev : ev = .spawn t call) :
      Furthers s ev s' t none (some (.ready call))
  | gathers {workers : List Employment} :
      Furthers s ev s' t (some (.ready .start)) (some (.gathered workers))
  | panics : Furthers s ev s' t (some (.ready .start)) (some .panicked)
  | queues {workers : List Employment} :
      Furthers s ev s' t (some (.gathered workers)) (some (.spawning workers))
  | employs {e : Employment} {rest : List Employment} :
      Furthers s ev s' t (some (.spawning (e :: rest))) (some (.spawning rest))
  | leaves : Furthers s ev s' t (some (.spawning [])) (some .finished)
  | raises (hstopping : s'.stopping = true) :
      Furthers s ev s' t (some (.ready .shutdown)) (some .raised)
  | asks : Furthers s ev s' t (some .raised) (some .collecting)
  | collects {ws : List WorkerId} (htakes : s.takeover? ev = some t) :
      Furthers s ev s' t (some .collecting) (some (.joining ws))
  | joins {ws : List WorkerId} : Furthers s ev s' t (some (.joining ws)) (some .finished)

/-- An event furthers the call of one task at most. -/
theorem Change.furthers (h : s.Change ev s') (t : TaskId) :
    s.Furthers ev s' t (s.calls t) (s'.calls t) := by
  have hassign : ∀ {u next}, s'.calls = assign s.calls u (some next) →
      s.Furthers ev s' u (s.calls u) (some next) → s.Furthers ev s' t (s.calls t) (s'.calls t) := by
    intro u next hcalls hu
    rw [hcalls]
    by_cases ht : t = u
    · subst ht
      rw [assign_self]
      exact hu
    · rw [assign_of_ne ht]
      exact .stays
  cases h with
  | begins hcalls => exact hassign rfl (hcalls ▸ .begins rfl)
  | gathers hcalls =>
      refine hassign rfl ?_
      rw [hcalls]
      cases (s.gatherAll s.startable).2 with
      | some workers => exact .gathers
      | none => exact .panics
  | raises hcalls => exact hassign rfl (hcalls ▸ .raises rfl)
  | queues hcalls => exact hassign rfl (hcalls ▸ .queues)
  | employs hcalls hlock => exact hassign rfl (hcalls ▸ .employs)
  | @passes u stage next handles lock hcalls hpasses =>
      refine hassign rfl ?_
      cases hpasses with
      | asks => exact hcalls ▸ .asks
      | collects hlock =>
          have htakes : s.takeover? (.proceed u) = some u := by
            simp only [takeover?, hcalls, hlock, if_true]
          exact hcalls ▸ .collects htakes
      | joins hall => exact hcalls ▸ .joins
      | leaves hlock => exact hcalls ▸ .leaves
  | _ => exact .stays

/-- A task that is past taking over stays so. -/
theorem Change.past (h : s.Change ev s')
    (hpast : (s.calls t).any EngineStage.isPastTakeover = true) :
    (s'.calls t).any EngineStage.isPastTakeover = true := by
  have hfurthers := h.furthers t
  generalize s.calls t = stage, s'.calls t = next at hfurthers hpast ⊢
  cases hfurthers with
  | stays => exact hpast
  | joins => rfl
  | _ => cases hpast

/-- A shutdown that is yet to take over workers begins now, or was so before. -/
theorem Change.before_takeover (h : s.Change ev s')
    (hbefore : (s'.calls t).any EngineStage.isBeforeTakeover = true) :
    (s.calls t).any EngineStage.isBeforeTakeover = true ∨ ev = .spawn t .shutdown := by
  have hfurthers := h.furthers t
  generalize s.calls t = stage, s'.calls t = next at hfurthers hbefore ⊢
  cases hfurthers with
  | stays => exact Or.inl hbefore
  | @begins call hev =>
      cases call with
      | start => cases hbefore
      | shutdown => exact Or.inr hev
  | raises | asks => exact Or.inl rfl
  | _ => cases hbefore

/-- The first step of a shutdown tells the workers to stop. -/
theorem Change.told (h : s.Change ev s') (htold : s.isShuttingDown t = true → s.stopping = true)
    (hshuts : s'.isShuttingDown t = true) : s'.stopping = true := by
  have hfurthers := h.furthers t
  unfold isShuttingDown at htold hshuts
  generalize s.calls t = stage, s'.calls t = next at hfurthers htold hshuts
  cases hfurthers with
  | stays => exact h.stopping (htold hshuts)
  | raises hstopping => exact hstopping
  | asks => exact h.stopping (htold rfl)
  | collects htakes => exact h.stopping (htold rfl)
  | _ => cases hshuts

/-- A task comes to wait for workers by taking them over, and otherwise waited for them before. -/
theorem Change.joining (h : s.Change ev s') (hnone : s.takeover? ev = none)
    (hjoins : s'.calls t = some (.joining ws)) : s.calls t = some (.joining ws) := by
  have hfurthers := h.furthers t
  rw [hjoins] at hfurthers
  generalize s.calls t = stage at hfurthers ⊢
  cases hfurthers with
  | stays => rfl
  | collects htakes =>
      rw [hnone] at htakes
      cases htakes

/-- Nobody but a shutdown takes over workers. -/
theorem begun_of_takeovers {events : List (EngineEvent η)} (h : t ∈ s.takeovers events) :
    (s.calls t).any EngineStage.isBeforeTakeover = true ∨ .spawn t .shutdown ∈ events := by
  induction events generalizing s with
  | nil => cases h
  | cons ev rest ih =>
      rcases List.mem_append.1 h with hnow | hlater
      · obtain ⟨-, hcalls, -⟩ := takeover?_eq_some (Option.mem_toList.1 hnow)
        rw [hcalls]
        exact Or.inl rfl
      · rcases ih hlater with hbefore | hmem
        · rcases (s.step_change ev).before_takeover hbefore with hbefore | rfl
          · exact Or.inl hbefore
          · exact Or.inr List.mem_cons_self
        · exact Or.inr (List.mem_cons_of_mem _ hmem)

/-- A task that waits for workers has taken them over. -/
theorem takeovers_of_joining {events : List (EngineEvent η)}
    (h : (s.run events).calls t = some (.joining ws)) :
    s.calls t = some (.joining ws) ∨ t ∈ s.takeovers events := by
  induction events generalizing s with
  | nil => exact Or.inl h
  | cons ev rest ih =>
      rcases ih h with hjoins | hlater
      · cases htakes : s.takeover? ev with
        | none => exact Or.inl ((s.step_change ev).joining htakes hjoins)
        | some u =>
            obtain ⟨-, -, hnext⟩ := takeover?_eq_some htakes
            by_cases hu : t = u
            · subst hu
              exact Or.inr (List.mem_append_left _ (Option.mem_toList.2 htakes))
            · refine Or.inl ?_
              rw [hnext] at hjoins
              simpa [goto, hu] using hjoins
      · exact Or.inr (List.mem_append_right _ hlater)

/-- A shutdown that has taken over workers is the first to do so if no other has begun. -/
theorem first_of_alone {settings : Settings} {pools : Pools} {events : List (EngineEvent η)}
    (halone : ∀ u, .spawn u .shutdown ∈ events → u = t)
    (hjoins : (({ settings, pools } : Engine η).run events).calls t = some (.joining ws)) :
    (({ settings, pools } : Engine η).takeovers events).head? = some t := by
  have hmem : t ∈ ({ settings, pools } : Engine η).takeovers events :=
    (takeovers_of_joining hjoins).resolve_left nofun
  have hall : ∀ u ∈ ({ settings, pools } : Engine η).takeovers events, u = t := fun u hu =>
    halone u ((begun_of_takeovers hu).resolve_left nofun)
  cases htaken : ({ settings, pools } : Engine η).takeovers events with
  | nil =>
      rw [htaken] at hmem
      cases hmem
  | cons u rest =>
      rw [htaken] at hall
      exact congrArg some (hall u List.mem_cons_self)

theorem handed_initial (settings : Settings) (pools : Pools) :
    ({ settings, pools } : Engine η).Handed [] where
  kept _ := rfl
  first _ _ hhead := by cases hhead
  past _ hmem := by cases hmem
  told _ hshuts := by cases hshuts

/-- A task takes over the workers. -/
theorem Handed.taken_over (h : s.Handed taken) (htakes : s.takeover? ev = some t) :
    (s.step ev).Handed (taken ++ [t]) := by
  have hchange := s.step_change ev
  have htold := fun u => hchange.told (h.told u)
  obtain ⟨rfl, hcalls, hnext⟩ := takeover?_eq_some htakes
  refine ⟨fun hnil => ?_, fun u ws hhead hjoins => ?_, fun u hu => ?_, htold⟩
  · cases List.append_eq_nil_iff.1 hnil with
    | intro _ hcons => cases hcons
  · rw [hnext] at hjoins ⊢
    cases taken with
    | nil =>
        -- the first task to do so finds a handle for each worker
        obtain rfl : t = u := Option.some.inj hhead
        have hws : EngineStage.joining s.handles = .joining ws := by
          simpa [goto] using hjoins
        cases hws
        exact h.kept rfl
    | cons a rest =>
        obtain rfl : a = u := Option.some.inj hhead
        have hne : a ≠ t := by
          rintro rfl
          have hpast := h.past a List.mem_cons_self
          rw [hcalls] at hpast
          cases hpast
        refine h.first a ws rfl ?_
        simpa [goto, hne] using hjoins
  · rcases List.mem_append.1 hu with hold | hnew
    · exact hchange.past (h.past u hold)
    · rw [List.mem_singleton.1 hnew, hnext]
      simp [goto, EngineStage.isPastTakeover]

/-- Nobody takes over workers. -/
theorem Handed.untaken (h : s.Handed taken) (hapart : s.Apart) (hnone : s.takeover? ev = none) :
    (s.step ev).Handed taken := by
  have hchange := s.step_change ev
  refine ⟨fun hnil => ?_, fun t ws hhead hjoins => ?_, fun t ht => hchange.past (h.past t ht),
    fun t => hchange.told (h.told t)⟩
  · rcases hchange.handles hnone with ⟨hhandles, hlength⟩ | ⟨hhandles, hlength, -⟩
    · rw [hhandles, hlength]
      exact h.kept hnil
    · rw [hhandles, hlength, List.range_succ, h.kept hnil]
  · have hbefore := hchange.joining hnone hjoins
    have hws := h.first t ws hhead hbefore
    rcases hchange.handles hnone with ⟨-, hlength⟩ | ⟨-, -, u, hstarting⟩
    · rw [hlength]
      exact hws
    · -- a worker is spawned, but no start overlaps the shutdown that waits
      have hne : t ≠ u := by
        rintro rfl
        rw [isStarting, hbefore] at hstarting
        cases hstarting
      have hshuts := (hapart u t hne hstarting).2
      rw [isShuttingDown, hbefore] at hshuts
      cases hshuts

theorem Handed.step (h : s.Handed taken) (hapart : s.Apart) (ev : EngineEvent η) :
    (s.step ev).Handed (taken ++ (s.takeover? ev).toList) := by
  cases htakes : s.takeover? ev with
  | none =>
      rw [Option.toList_none, List.append_nil]
      exact h.untaken hapart htakes
  | some t => exact h.taken_over htakes

theorem Handed.run {events : List (EngineEvent η)} (h : s.Handed taken)
    (hapart : s.StartsApart events) : (s.run events).Handed (taken ++ s.takeovers events) := by
  induction events generalizing s taken with
  | nil =>
      rw [takeovers, List.append_nil]
      exact h
  | cons ev rest ih =>
      rw [takeovers, ← List.append_assoc]
      exact ih (h.step hapart.now ev) hapart.step

end Steps

end Engine

end AmqpDelivery
