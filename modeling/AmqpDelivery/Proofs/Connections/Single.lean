import AmqpDelivery.Proofs.Connections.Standing

/-!
# One cell in use for each pool

As long as closing does not overlap with look-ups and invalidations (`Connections.ClosesApart`),
look-ups and invalidations work at the cell that the directory has for their pool, a pool has one
cell in use at most, and its live connection is in there, or was taken out by closing, which is about
to invalidate it (`Connections.Single`).
-/

namespace AmqpDelivery

/-- The call closes the connections. -/
def ConnectionStage.closes : ConnectionStage → Bool
  | .sweeping _ | .taking _ _ | .retiring _ _ _ | .severing _ _ => true
  | _ => false

namespace Connections

/-- The task has begun to close the connections and has not finished. -/
def isClosing (s : Connections) (t : TaskId) : Bool := (s.calls t).any ConnectionStage.closes

/-- The task looks a connection up, or invalidates one, and has a cell for it. -/
def isWorking (s : Connections) (t : TaskId) : Bool :=
  (s.calls t).any fun stage => stage.worksAt?.isSome

/-- While one task closes the connections, none looks one up or invalidates one. -/
def Apart (s : Connections) : Prop :=
  ∀ t u, s.isClosing t = true → s.isWorking u = false

/-- Closing overlaps with no look-up and no invalidation, as far as the events go. -/
def ClosesApart (s : Connections) (events : List ConnectionEvent) : Prop :=
  ∀ es, es <+: events → (s.run es).Apart

/-- The cell is in the directory, or closing has it before it. -/
def InUse (s : Connections) (cell : CellId) : Prop :=
  s.directory.get? cell.pool = some cell.number ∨
    ∃ t stage, s.calls t = some stage ∧ cell ∈ stage.sweeps

/-- The connection is in the cell, or closing has taken it out and is about to invalidate it. -/
def Holds (s : Connections) (cell : CellId) (c : ConnectionId) : Prop :=
  s.cached? cell = some c ∨ s.Retires cell c

/-- Every pool has one cell in use at most, and it holds the pool's live connection. -/
structure Single (s : Connections) : Prop where
  current : ∀ t stage cell, s.calls t = some stage → stage.worksAt? = some cell →
    s.directory.get? cell.pool = some cell.number
  filed : ∀ c, (s.links c).isLive = true → ∃ cell, s.InUse cell ∧ s.Holds cell c
  alone : ∀ cell a b, s.Holds cell a → s.Holds cell b → a = b
  only : ∀ cell other, s.InUse cell → s.InUse other → cell.pool = other.pool → cell = other

section Apart

variable {s : Connections} {ev : ConnectionEvent} {events : List ConnectionEvent}

theorem ClosesApart.now (h : s.ClosesApart events) : s.Apart := h [] List.nil_prefix

theorem ClosesApart.step (h : s.ClosesApart (ev :: events)) : (s.step ev).ClosesApart events :=
  fun es hes => h (ev :: es) ((List.prefix_cons_inj ev).2 hes)

theorem Apart.not_working (h : s.Apart) {t u : TaskId} {stage stage' : ConnectionStage}
    (ht : s.calls t = some stage) (hcloses : stage.closes = true) (hu : s.calls u = some stage') :
    stage'.worksAt? = none := by
  have hclosing : s.isClosing t = true := by rw [isClosing, ht, Option.any_some, hcloses]
  have hworking := h t u hclosing
  rw [isWorking, hu, Option.any_some] at hworking
  exact Option.not_isSome_iff_eq_none.1 (Bool.eq_false_iff.1 hworking)

end Apart

section Among

variable {s s' : Connections} {t u : TaskId} {next : ConnectionStage}
  {events : List ConnectionEvent}

theorem calls_goto_eq_none : (s.goto u next).calls t = none ↔ t ≠ u ∧ s.calls t = none := by
  by_cases heq : t = u
  · rw [heq, calls_goto_self]
    exact iff_of_false (by rintro ⟨⟩) fun h => h.1 rfl
  · rw [s.calls_goto_of_ne heq]
    exact (and_iff_right heq).symm

/-- A task has no call as long as it makes none. -/
theorem calls_step_eq_none {ev : ConnectionEvent} :
    (s.step ev).calls t = none ↔ s.calls t = none ∧ ∀ call, ev ≠ .spawn t call := by
  constructor
  · intro h
    constructor
    · have hchange := s.step_change ev
      generalize s.step ev = s' at hchange h
      cases hchange with
      | stays => exact h
      | begins call hfree => exact (calls_goto_eq_none.1 h).2
      | passes hstage hpasses =>
          have hcalls := Moves.calls (Or.inl hpasses)
          exact hcalls ▸ (calls_goto_eq_none.1 h).2
      | answered hstage hanswered =>
          have hcalls := Moves.calls (Or.inr hanswered)
          exact hcalls ▸ (calls_goto_eq_none.1 h).2
      | hangsUp c => exact h
      | discards c => exact h
    · rintro call rfl
      simp only [step] at h
      split at h
      · exact (calls_goto_eq_none.1 h).1 rfl
      · next hsome => cases hsome.symm.trans h
  · rintro ⟨h, hother⟩
    have hchange := s.step_change ev
    generalize s.step ev = s' at hchange
    have hne : ∀ {u stage}, s.calls u = some stage → t ≠ u := by
      rintro u stage hu rfl
      cases h.symm.trans hu
    cases hchange with
    | stays => exact h
    | begins call hfree =>
        refine calls_goto_eq_none.2 ⟨?_, h⟩
        rintro rfl
        exact hother call rfl
    | passes hstage hpasses =>
        exact calls_goto_eq_none.2 ⟨hne hstage, (Moves.calls (Or.inl hpasses)) ▸ h⟩
    | answered hstage hanswered =>
        exact calls_goto_eq_none.2 ⟨hne hstage, (Moves.calls (Or.inr hanswered)) ▸ h⟩
    | hangsUp c => exact h
    | discards c => exact h

theorem calls_run_eq_none :
    (s.run events).calls t = none ↔ s.calls t = none ∧ ∀ call, .spawn t call ∉ events := by
  induction events generalizing s with
  | nil => exact (and_iff_left fun _ => List.not_mem_nil).symm
  | cons ev rest ih =>
      show ((s.step ev).run rest).calls t = none ↔ _
      rw [ih, calls_step_eq_none]
      constructor
      · rintro ⟨⟨hnone, hnow⟩, hlater⟩
        refine ⟨hnone, fun call hmem => ?_⟩
        rcases List.mem_cons.1 hmem with heq | hmem
        · exact hnow call heq.symm
        · exact hlater call hmem
      · rintro ⟨hnone, hnever⟩
        refine ⟨⟨hnone, fun call heq => ?_⟩, fun call hmem => ?_⟩
        · exact hnever call (heq ▸ List.mem_cons_self)
        · exact hnever call (List.mem_cons_of_mem _ hmem)

/-- `Apart` for tasks that are given. -/
def apartAmong (s : Connections) (ts : List TaskId) : Bool :=
  ts.all fun t => ts.all fun u => !(s.isClosing t && s.isWorking u)

/-- `ClosesApart` for tasks that are given. -/
def closesApartAmong (s : Connections) (ts : List TaskId) : List ConnectionEvent → Bool
  | [] => s.apartAmong ts
  | ev :: rest => s.apartAmong ts && (s.step ev).closesApartAmong ts rest

theorem apart_of_among {ts : List TaskId} (hnone : ∀ u ∉ ts, s.calls u = none)
    (h : s.apartAmong ts = true) : s.Apart := by
  intro t u hclosing
  have hknown : ∀ v, s.calls v ≠ none → v ∈ ts := fun v hv =>
    Classical.byContradiction fun hnotin => hv (hnone v hnotin)
  refine Bool.eq_false_iff.2 fun hworking => ?_
  have ht : t ∈ ts := by
    refine hknown t fun heq => ?_
    rw [isClosing, heq] at hclosing
    cases hclosing
  have hu : u ∈ ts := by
    refine hknown u fun heq => ?_
    rw [isWorking, heq] at hworking
    cases hworking
  have hpair := List.all_eq_true.1 (List.all_eq_true.1 h t ht) u hu
  simp [hclosing, hworking] at hpair

/-- It is enough to look at the tasks that make calls. -/
theorem closesApart_of_among {ts : List TaskId} (hnone : ∀ u ∉ ts, s.calls u = none)
    (hevents : ∀ u call, .spawn u call ∈ events → u ∈ ts)
    (h : s.closesApartAmong ts events = true) : s.ClosesApart events := by
  induction events generalizing s with
  | nil =>
      intro es hes
      rw [List.prefix_nil.1 hes]
      exact apart_of_among hnone h
  | cons ev rest ih =>
      obtain ⟨hnow, hrest⟩ := Bool.and_eq_true_iff.1 h
      intro es hes
      cases es with
      | nil => exact apart_of_among hnone hnow
      | cons first es =>
          obtain ⟨rfl, hes'⟩ := List.cons_prefix_cons.1 hes
          refine ih (fun u hu => ?_) (fun u call hmem => ?_) hrest es hes'
          · refine calls_step_eq_none.2 ⟨hnone u hu, ?_⟩
            rintro call rfl
            exact hu (hevents u call List.mem_cons_self)
          · exact hevents u call (List.mem_cons_of_mem _ hmem)

end Among

theorem run_append (s : Connections) (events more : List ConnectionEvent) :
    s.run (events ++ more) = (s.run events).run more :=
  List.foldl_append

section Single

variable {s s' : Connections} {t u : TaskId} {stage stage' next : ConnectionStage} {cell : CellId}
  {c : ConnectionId}

theorem closes_of_sweeps (h : cell ∈ stage.sweeps) : stage.closes = true := by
  cases stage with
  | sweeping | taking | retiring | severing => rfl
  | _ => cases h

theorem InUse.lt_cellsMade (h : s.InUse cell) (hplaced : s.Placed) :
    cell.number < s.cellsMade cell.pool := by
  rcases h with hlisted | ⟨t, stage, hstage, hin⟩
  · exact hplaced.listed _ _ hlisted
  · exact hplaced.swept t stage cell hstage hin

/-- While somebody works at a cell, the directory alone says what is in use. -/
theorem InUse.listed (h : s.InUse cell) (hapart : s.Apart) (hu : s.calls u = some stage)
    (hworks : stage.worksAt? ≠ none) : s.directory.get? cell.pool = some cell.number := by
  rcases h with hlisted | ⟨t, stage', hstage, hin⟩
  · exact hlisted
  · exact absurd (hapart.not_working hstage (closes_of_sweeps hin) hu) hworks

/-- A move leaves the cells in use as they are, but for the one that it makes, the one that closing
has emptied, and the one that closing passes over. -/
theorem InUse.of_moves (h : (s'.goto t next).InUse cell) (hstage : s.calls t = some stage)
    (hmoves : s.Moves t stage s' next) :
    s.InUse cell ∨ s.cellsMade cell.pool = cell.number ∧ next.worksAt? ≠ none := by
  rcases h with hlisted | ⟨u, stage', hu, hin⟩
  · rcases hmoves.listed hlisted with hbefore | ⟨hnumber, -, hworks⟩
    · exact Or.inl (Or.inl hbefore)
    · exact Or.inr ⟨hnumber.symm, hworks⟩
  · rcases hmoves.calls_eq hu with ⟨-, rfl⟩ | ⟨-, hu⟩
    · rcases hmoves.sweeps hin with hbefore | hlisted
      · exact Or.inl (Or.inr ⟨t, stage, hstage, hbefore⟩)
      · exact Or.inl (Or.inl hlisted)
    · exact Or.inl (Or.inr ⟨u, stage', hu, hin⟩)

theorem inUse_of_lists (hmoves : s.Moves t stage s' next)
    (hlisted : s.directory.get? cell.pool = some cell.number) : (s'.goto t next).InUse cell := by
  rcases hmoves.lists hlisted with hstill | hin
  · exact Or.inl hstill
  · exact Or.inr ⟨t, next, s'.calls_goto_self t next, hin⟩

theorem inUse_of_retires (h : stage.Retires cell c) (hstage : s.calls t = some stage) :
    s.InUse cell := by
  cases h
  exact Or.inr ⟨t, _, hstage, List.mem_cons_self⟩

/-- A cell that closing passes over stays in use: whoever holds its lock is closing, too. -/
theorem InUse.moves (h : s.InUse cell) (hlocked : s.Locked) (hapart : s.Apart)
    (hstage : s.calls t = some stage) (hmoves : s.Moves t stage s' next) :
    (s'.goto t next).InUse cell ∨ (s'.cells cell).cached = none ∨ ∃ c, stage.Retires cell c := by
  have hother : ∀ {u stage'}, u ≠ t → s.calls u = some stage' → cell ∈ stage'.sweeps →
      (s'.goto t next).InUse cell := by
    intro u stage' hne hu hin
    refine Or.inr ⟨u, stage', ?_, hin⟩
    rw [s'.calls_goto_of_ne hne, hmoves.calls]
    exact hu
  rcases h with hlisted | ⟨u, stage', hu, hin⟩
  · exact Or.inl (inUse_of_lists hmoves hlisted)
  · by_cases heq : u = t
    · subst heq
      cases hstage.symm.trans hu
      rcases hmoves.swept hin with hstill | hempty | hretires | ⟨hstands, v, hheld⟩
      · exact Or.inl (Or.inr ⟨u, next, s'.calls_goto_self u next, hstill⟩)
      · exact Or.inr (Or.inl hempty)
      · exact Or.inr (Or.inr hretires)
      · -- the holder of the lock works at the cell, which it cannot while `u` closes, or sweeps it
        have hpresent := (hlocked.present cell v).1 (FairLock.mem_tasks.2 (Or.inl hheld))
        obtain ⟨stage', hv, hstands'⟩ := Option.bind_eq_some_iff.1 hpresent
        have hne : v ≠ u := by
          rintro rfl
          cases hu.symm.trans hv
          rw [hstands] at hstands'
          cases hstands'
        rcases ConnectionStage.works_or_sweeps hstands' with hworks | hsweeps
        · rw [hapart.not_working hu (closes_of_sweeps hin) hv] at hworks
          cases hworks
        · exact Or.inl (hother hne hv hsweeps)
    · exact Or.inl (hother heq hu hin)

theorem Single.current_moves (h : s.Single) (hapart : (s'.goto t next).Apart)
    (hstage : s.calls t = some stage) (hmoves : s.Moves t stage s' next)
    (hu : (s'.goto t next).calls u = some stage') (hworks : stage'.worksAt? = some cell) :
    s'.directory.get? cell.pool = some cell.number := by
  have hkeeps : s.directory.get? cell.pool = some cell.number →
      s'.directory.get? cell.pool = some cell.number := by
    intro hlisted
    refine (inUse_of_lists hmoves hlisted).listed hapart hu ?_
    rw [hworks]
    rintro ⟨⟩
  rcases hmoves.calls_eq hu with ⟨-, rfl⟩ | ⟨-, hu⟩
  · rcases hmoves.worksAt hworks with hbefore | hnow
    · exact hkeeps (h.current t stage cell hstage hbefore)
    · exact hnow
  · exact hkeeps (h.current u stage' cell hu hworks)

theorem Holds.pool (h : s.Holds cell c) : c.pool = cell.pool := by
  rcases h with hin | ⟨t, stage, -, hretires⟩
  · exact (cached?_eq_some.1 hin).1
  · cases hretires
    rfl

/-- A cell comes to hold a connection by having it dialed. -/
theorem Holds.of_moves (h : (s'.goto t next).Holds cell c) (hmoves : s.Moves t stage s' next) :
    s.Holds cell c ∨ s'.cached? cell = some c ∧ stage.dialsFor? = some cell := by
  rcases h with hin | hretires
  · obtain ⟨hpool, hnumber⟩ := cached?_eq_some.1 hin
    rcases hmoves.cached hnumber with hbefore | ⟨hdials, -⟩
    · exact Or.inl (Or.inl (cached?_eq_some.2 ⟨hpool, hbefore⟩))
    · exact Or.inr ⟨hin, hdials⟩
  · rcases hretires.of_moves hmoves with hbefore | ⟨hbefore, -⟩
    · exact Or.inl (Or.inr hbefore)
    · exact Or.inl (Or.inl hbefore)

/-- A cell that a connection is dialed for holds none, where closing stays apart. -/
theorem Sound.not_holds (h : s.Sound) (hapart : s.Apart) (hstage : s.calls t = some stage)
    (hdials : stage.dialsFor? = some cell) : ¬ s.Holds cell c := by
  rintro (hin | ⟨u, stage', hu, hretires⟩)
  · rw [cached?, h.vacant t stage cell hstage hdials] at hin
    cases hin
  · cases hretires
    have hidle := hapart.not_working hu rfl hstage
    rw [ConnectionStage.worksAt?_of_dialsFor hdials] at hidle
    cases hidle

theorem Single.alone_moves (h : s.Single) (hsound : s.Sound) (hapart : s.Apart)
    (hstage : s.calls t = some stage) (hmoves : s.Moves t stage s' next) {a b : ConnectionId}
    (ha : (s'.goto t next).Holds cell a) (hb : (s'.goto t next).Holds cell b) : a = b := by
  rcases ha.of_moves hmoves with hbefore | ⟨hin, hdials⟩
  · rcases hb.of_moves hmoves with hbefore' | ⟨-, hdials⟩
    · exact h.alone cell a b hbefore hbefore'
    · exact (hsound.not_holds hapart hstage hdials hbefore).elim
  · rcases hb.of_moves hmoves with hbefore | ⟨hin', -⟩
    · exact (hsound.not_holds hapart hstage hdials hbefore).elim
    · exact Option.some.inj (hin.symm.trans hin')

/-- A cell in use goes on holding the pool's connection until it is invalidated. -/
theorem Single.holds_moves (h : s.Single) (hsound : s.Sound) (hapart : s.Apart)
    (hstage : s.calls t = some stage) (hmoves : s.Moves t stage s' next) (huse : s.InUse cell)
    (hholds : s.Holds cell c) (hvalid : (s'.links c).invalidated ≠ true) :
    (s'.goto t next).InUse cell ∧ (s'.goto t next).Holds cell c := by
  have hnext := s'.calls_goto_self t next
  rcases hholds with hin | hretires
  · rcases hmoves.keeps hin with hstays | hgone | hretires | hdials | hmade
    · refine ⟨?_, Or.inl hstays⟩
      rcases huse.moves hsound.locked hapart hstage hmoves with hstill | hempty | ⟨d, hretires⟩
      · exact hstill
      · rw [cached?, hempty] at hstays
        cases hstays
      · -- closing has taken nothing else out of the cell, and invalidates what it has
        obtain rfl : c = d := h.alone cell c d (Or.inl hin) (Or.inr ⟨t, stage, hstage, hretires⟩)
        exact absurd (hmoves.retired hretires) hvalid
    · exact absurd hgone hvalid
    · exact ⟨inUse_of_retires hretires hnext, Or.inr ⟨t, next, hnext, hretires⟩⟩
    · exact (hsound.not_holds hapart hstage hdials (Or.inl hin)).elim
    · exact absurd (huse.lt_cellsMade hsound.placed) (hmade ▸ Nat.lt_irrefl _)
  · obtain ⟨u, stage', hu, hretires'⟩ :=
      (hretires.moves hstage hmoves).resolve_right hvalid
    exact ⟨inUse_of_retires hretires' hu, Or.inr ⟨u, stage', hu, hretires'⟩⟩

theorem Single.moves (h : s.Single) (hsound : s.Sound) (hapart : s.Apart)
    (hapart' : (s'.goto t next).Apart) (hstage : s.calls t = some stage)
    (hmoves : s.Moves t stage s' next) : (s'.goto t next).Single := by
  constructor
  · intro u stage' cell hu hworks
    show s'.directory.get? cell.pool = some cell.number
    exact h.current_moves hapart' hstage hmoves hu hworks
  · intro c hlive
    rcases hmoves.link c with hwears | ⟨-, -, cell, hdials, hpool, hcached⟩
    · -- it was live before, so a cell in use held it, and it was not invalidated
      obtain ⟨cell, huse, hholds⟩ := h.filed c (hwears.live hlive)
      have hvalid : (s'.links c).invalidated ≠ true :=
        Bool.eq_false_iff.1 (Link.isLive_iff.1 hlive).2
      exact ⟨cell, h.holds_moves hsound hapart hstage hmoves huse hholds hvalid⟩
    · -- it was just dialed, for a cell that the directory has
      have hlisted := h.current t stage cell hstage (ConnectionStage.worksAt?_of_dialsFor hdials)
      exact ⟨cell, inUse_of_lists hmoves hlisted, Or.inl (cached?_eq_some.2 ⟨hpool, hcached⟩)⟩
  · intro cell a b ha hb
    exact h.alone_moves hsound hapart hstage hmoves ha hb
  · intro cell other hcell hother hpool
    -- where a cell was made, nobody is closing, and the directory has one cell for the pool
    have hnew : next.worksAt? ≠ none → cell = other := by
      intro hworks
      have hlisted := hcell.listed hapart' (s'.calls_goto_self t next) hworks
      have hlisted' := hother.listed hapart' (s'.calls_goto_self t next) hworks
      rw [← hpool, hlisted] at hlisted'
      obtain ⟨pool, number⟩ := cell
      obtain ⟨pool', number'⟩ := other
      cases hpool
      cases hlisted'
      rfl
    rcases hcell.of_moves hstage hmoves with hbefore | ⟨-, hworks⟩
    · rcases hother.of_moves hstage hmoves with hbefore' | ⟨-, hworks⟩
      · exact h.only cell other hbefore hbefore' hpool
      · exact hnew hworks
    · exact hnew hworks

theorem single_initial (settings : Settings) : ({ settings } : Connections).Single := by
  refine ⟨?_, ?_, ?_, ?_⟩
  · rintro t stage cell ⟨⟩
  · rintro c ⟨⟩
  · rintro cell a b (⟨⟨⟩⟩ | ⟨t, stage, ⟨⟩, -⟩)
  · rintro cell other (⟨⟨⟩⟩ | ⟨t, stage, ⟨⟩, -⟩)

/-- Nothing but a link wears. -/
theorem Single.wears (h : s.Single) {links : ConnectionId → Link}
    (hwears : ∀ c, (s.links c).Wears (links c)) : ({ s with links } : Connections).Single :=
  ⟨h.current, fun c hlive => h.filed c ((hwears c).live hlive), h.alone, h.only⟩

theorem Single.begins (h : s.Single) {call : ConnectionCall} (hfree : s.calls t = none) :
    (s.goto t (.ready call)).Single := by
  have huse : ∀ cell, (s.goto t (.ready call)).InUse cell ↔ s.InUse cell := by
    intro cell
    refine or_congr_right ⟨?_, ?_⟩
    · rintro ⟨u, stage, hu, hin⟩
      rcases calls_of_begins hu with rfl | hu
      · cases hin
      · exact ⟨u, stage, hu, hin⟩
    · rintro ⟨u, stage, hu, hin⟩
      have hne : u ≠ t := by
        rintro rfl
        cases hfree.symm.trans hu
      exact ⟨u, stage, (s.calls_goto_of_ne hne).trans hu, hin⟩
  have hholds : ∀ cell c, (s.goto t (.ready call)).Holds cell c → s.Holds cell c := by
    rintro cell c (hin | ⟨u, stage, hu, hretires⟩)
    · exact Or.inl hin
    · rcases calls_of_begins hu with rfl | hu
      · cases hretires
      · exact Or.inr ⟨u, stage, hu, hretires⟩
  constructor
  · intro u stage' cell hu hworks
    rcases calls_of_begins hu with rfl | hu
    · cases hworks
    · exact h.current u stage' cell hu hworks
  · intro c hlive
    obtain ⟨cell, hin, hheld⟩ := h.filed c hlive
    exact ⟨cell, (huse cell).2 hin, hheld.imp_right fun hretires => hretires.begins hfree⟩
  · intro cell a b ha hb
    exact h.alone cell a b (hholds cell a ha) (hholds cell b hb)
  · intro cell other hcell hother
    exact h.only cell other ((huse cell).1 hcell) ((huse other).1 hother)

/-- Where closing stays apart, every step keeps one cell for each pool. -/
theorem Single.step (h : s.Single) (hsound : s.Sound) {ev : ConnectionEvent} (hapart : s.Apart)
    (hapart' : (s.step ev).Apart) : (s.step ev).Single := by
  have hchange := s.step_change ev
  generalize s.step ev = s' at hchange hapart'
  cases hchange with
  | stays => exact h
  | begins call hfree => exact h.begins hfree
  | passes hstage hpasses => exact h.moves hsound hapart hapart' hstage (Or.inl hpasses)
  | answered hstage hanswered => exact h.moves hsound hapart hapart' hstage (Or.inr hanswered)
  | hangsUp c => exact h.wears (s.links_sever_wears c)
  | discards c => exact h.wears (s.links_invalidateLink_wears c)

theorem Single.run {events : List ConnectionEvent} (h : s.Single) (hsound : s.Sound)
    (hapart : s.ClosesApart events) : (s.run events).Single := by
  induction events generalizing s with
  | nil => exact h
  | cons ev rest ih =>
      exact ih (h.step hsound hapart.now hapart.step.now) (hsound.step ev) hapart.step

end Single

end Connections

end AmqpDelivery
