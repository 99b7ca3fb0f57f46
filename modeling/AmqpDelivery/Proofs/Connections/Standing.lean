import AmqpDelivery.Proofs.Connections.Moves
import AmqpDelivery.Proofs.FairLock

/-!
# What holds of the connections at all times

The tasks at the lock of a cell are those whose calls stand there, and a call that has a cell to
itself holds its lock (`Connections.Locked`), so no two calls have the same cell to themselves
(`Connections.Locked.alone`). Cells and connections are numbered in the order in which they are made
(`Connections.Placed`), a connection is in one cell at most (`Connections.Filed`), and a cell that a
connection is dialed for is empty (`Connections.Vacant`). Every step keeps all of it
(`Connections.Sound.step`).
-/

namespace AmqpDelivery

namespace Connections

/-- Where the call of a task stands. -/
def standsAt? (s : Connections) (t : TaskId) : Option CellId :=
  (s.calls t).bind ConnectionStage.standsAt?

/-- The cell that the task dials a connection for. -/
def dialsFor? (s : Connections) (t : TaskId) : Option CellId :=
  (s.calls t).bind ConnectionStage.dialsFor?

/-- Closing has taken the connection out of the cell and has not invalidated it yet. -/
def Retires (s : Connections) (cell : CellId) (c : ConnectionId) : Prop :=
  ∃ t stage, s.calls t = some stage ∧ stage.Retires cell c

/-- How the calls stand at the locks of the cells. -/
structure Locked (s : Connections) : Prop where
  distinct : ∀ cell, (s.cells cell).lock.tasks.Nodup
  present : ∀ cell t, t ∈ (s.cells cell).lock.tasks ↔ s.standsAt? t = some cell
  guarded : ∀ cell t stage, s.calls t = some stage → stage.guards? = some cell →
    (s.cells cell).lock.holder = some t

/-- How far the cells and the connections are numbered. -/
structure Placed (s : Connections) : Prop where
  listed : ∀ pool number, s.directory.get? pool = some number → number < s.cellsMade pool
  worked : ∀ t stage cell, s.calls t = some stage → stage.worksAt? = some cell →
    cell.number < s.cellsMade cell.pool
  swept : ∀ t stage cell, s.calls t = some stage → cell ∈ stage.sweeps →
    cell.number < s.cellsMade cell.pool
  cached : ∀ cell number, (s.cells cell).cached = some number → number < s.linksMade cell.pool

/-- A connection is in one cell at most. -/
def Filed (s : Connections) : Prop :=
  ∀ cell other c, s.cached? cell = some c → s.cached? other = some c → cell = other

/-- A cell that a connection is dialed for is empty. -/
def Vacant (s : Connections) : Prop :=
  ∀ t stage cell, s.calls t = some stage → stage.dialsFor? = some cell →
    (s.cells cell).cached = none

structure Sound (s : Connections) : Prop where
  locked : s.Locked
  placed : s.Placed
  filed : s.Filed
  vacant : s.Vacant

section Locked

variable {s s' : Connections} {t u : TaskId} {stage next : ConnectionStage} {cell : CellId}

theorem standsAt?_goto_self (s : Connections) (t : TaskId) (stage : ConnectionStage) :
    (s.goto t stage).standsAt? t = stage.standsAt? := by
  rw [standsAt?, calls_goto_self, Option.bind_some]

theorem standsAt?_goto_of_ne (s : Connections) {t u : TaskId} (stage : ConnectionStage)
    (h : u ≠ t) : (s.goto t stage).standsAt? u = s.standsAt? u := by
  rw [standsAt?, s.calls_goto_of_ne h, standsAt?]

/-- Two calls that have the same cell to themselves are the same. -/
theorem Locked.alone (h : s.Locked) {stage' : ConnectionStage} (ht : s.calls t = some stage)
    (hguards : stage.guards? = some cell) (hu : s.calls u = some stage')
    (hguards' : stage'.guards? = some cell) : t = u :=
  Option.some.inj ((h.guarded cell t stage ht hguards).symm.trans (h.guarded cell u stage' hu hguards'))

/-- A task goes on without touching a lock. -/
theorem Locked.still (h : s.Locked) (hcalls : s'.calls = s.calls)
    (hlocks : ∀ cell, (s'.cells cell).lock = (s.cells cell).lock)
    (hstands : next.standsAt? = s.standsAt? t)
    (hguards : ∀ cell, next.guards? = some cell → (s.cells cell).lock.holder = some t) :
    (s'.goto t next).Locked := by
  constructor
  · intro cell
    show (s'.cells cell).lock.tasks.Nodup
    rw [hlocks]
    exact h.distinct cell
  · intro cell u
    show u ∈ (s'.cells cell).lock.tasks ↔ _
    rw [hlocks, h.present]
    by_cases heq : u = t
    · rw [heq, standsAt?_goto_self, hstands]
    · rw [s'.standsAt?_goto_of_ne next heq, standsAt?, standsAt?, hcalls]
  · intro cell u stage hu hstage
    show (s'.cells cell).lock.holder = some u
    rw [hlocks]
    rcases calls_goto_eq_some hu with ⟨rfl, rfl⟩ | ⟨-, hu⟩
    · exact hguards cell hstage
    · exact h.guarded cell u stage (hcalls ▸ hu) hstage

/-- A task asks for the lock of a cell. -/
theorem Locked.acquires (h : s.Locked) (hnone : s.standsAt? t = none)
    (hnext : next.standsAt? = some cell)
    (hfree : next.guards? ≠ none → (s.cells cell).lock.holder = none) :
    ((s.modifyLock cell (FairLock.acquire · t)).goto t next).Locked := by
  have habsent : t ∉ (s.cells cell).lock.tasks := by
    rw [h.present, hnone]
    rintro ⟨⟩
  constructor
  · intro other
    rw [cells_goto]
    by_cases heq : other = cell
    · rw [heq, lock_modifyLock_self]
      exact FairLock.nodup_acquire (h.distinct cell) habsent
    · rw [s.lock_modifyLock_of_ne heq]
      exact h.distinct other
  · intro other u
    rw [cells_goto]
    by_cases hu : u = t
    · rw [hu, standsAt?_goto_self, hnext]
      by_cases heq : other = cell
      · rw [heq, lock_modifyLock_self, FairLock.mem_tasks_acquire]
        exact iff_of_true (Or.inl rfl) rfl
      · rw [s.lock_modifyLock_of_ne heq, h.present, hnone]
        exact iff_of_false (by rintro ⟨⟩) fun hsame => heq (Option.some.inj hsame).symm
    · rw [standsAt?_goto_of_ne _ next hu]
      show _ ↔ s.standsAt? u = some other
      by_cases heq : other = cell
      · rw [heq, lock_modifyLock_self, FairLock.mem_tasks_acquire, h.present]
        exact or_iff_right hu
      · rw [s.lock_modifyLock_of_ne heq, h.present]
  · intro other u stage hu hguards
    rw [cells_goto]
    rcases calls_goto_eq_some hu with ⟨rfl, rfl⟩ | ⟨-, hu⟩
    · have hother : cell = other :=
        Option.some.inj (hnext.symm.trans (ConnectionStage.standsAt?_of_guards hguards))
      rw [← hother, lock_modifyLock_self]
      refine FairLock.holder_acquire_free (hfree ?_)
      rw [hguards]
      rintro ⟨⟩
    · have hholder := h.guarded other u stage hu hguards
      by_cases hsame : other = cell
      · rw [hsame] at hholder ⊢
        rw [lock_modifyLock_self]
        exact FairLock.holder_acquire hholder
      · rw [s.lock_modifyLock_of_ne hsame]
        exact hholder

/-- A task goes away from the lock of a cell. -/
theorem Locked.leaves (h : s.Locked) (hcalls : s'.calls = s.calls)
    (hlocks : ∀ cell, (s'.cells cell).lock = (s.cells cell).lock)
    (hstands : s.standsAt? t = some cell) (hnext : next.standsAt? = none) :
    ((s'.modifyLock cell (FairLock.leave · t)).goto t next).Locked := by
  constructor
  · intro other
    rw [cells_goto]
    by_cases heq : other = cell
    · rw [heq, lock_modifyLock_self, hlocks, FairLock.tasks_leave]
      exact (h.distinct cell).erase t
    · rw [s'.lock_modifyLock_of_ne heq, hlocks]
      exact h.distinct other
  · intro other u
    rw [cells_goto]
    by_cases hu : u = t
    · rw [hu, standsAt?_goto_self, hnext]
      refine iff_of_false ?_ (by rintro ⟨⟩)
      by_cases heq : other = cell
      · rw [heq, lock_modifyLock_self, hlocks, FairLock.tasks_leave]
        exact (h.distinct cell).not_mem_erase
      · rw [s'.lock_modifyLock_of_ne heq, hlocks, h.present, hstands]
        exact fun hsame => heq (Option.some.inj hsame).symm
    · rw [standsAt?_goto_of_ne _ next hu]
      show _ ↔ (s'.calls u).bind ConnectionStage.standsAt? = some other
      rw [hcalls]
      by_cases heq : other = cell
      · rw [heq, lock_modifyLock_self, hlocks, FairLock.tasks_leave,
          List.mem_erase_of_ne hu, h.present]
        rfl
      · rw [s'.lock_modifyLock_of_ne heq, hlocks, h.present]
        rfl
  · intro other u stage hu hguards
    rw [cells_goto]
    rcases calls_goto_eq_some hu with ⟨-, rfl⟩ | ⟨hne, hu⟩
    · rw [ConnectionStage.standsAt?_of_guards hguards] at hnext
      cases hnext
    · have hu' : s.calls u = some stage := hcalls ▸ hu
      have hholder := h.guarded other u stage hu' hguards
      by_cases hsame : other = cell
      · rw [hsame] at hholder ⊢
        rw [lock_modifyLock_self, hlocks]
        exact FairLock.holder_leave hholder hne
      · rw [s'.lock_modifyLock_of_ne hsame, hlocks]
        exact hholder

/-- The holder of a lock lets go of it by going away. -/
theorem Locked.releases (h : s.Locked) (hcalls : s'.calls = s.calls)
    (hlocks : ∀ cell, (s'.cells cell).lock = (s.cells cell).lock)
    (hstands : s.standsAt? t = some cell) (hheld : (s.cells cell).lock.holder = some t)
    (hnext : next.standsAt? = none) :
    ((s'.modifyLock cell FairLock.release).goto t next).Locked := by
  -- going away as the holder is letting go
  have hleave : s'.modifyLock cell FairLock.release = s'.modifyLock cell (FairLock.leave · t) := by
    have hlock : (s'.cells cell).lock.leave t = (s'.cells cell).lock.release := by
      rw [hlocks]
      exact if_pos hheld
    simp only [modifyLock, modifyCell, hlock]
  rw [hleave]
  exact h.leaves hcalls hlocks hstands hnext

/-- Nobody is at the lock of a cell that was not made. -/
theorem Locked.unmade (h : s.Locked) (hplaced : s.Placed)
    (hcell : s.cellsMade cell.pool ≤ cell.number) : (s.cells cell).lock = {} := by
  refine FairLock.eq_free fun u hu => ?_
  rw [h.present] at hu
  obtain ⟨stage, hstage, hstands⟩ := Option.bind_eq_some_iff.1 hu
  have hlt : cell.number < s.cellsMade cell.pool := by
    rcases ConnectionStage.works_or_sweeps hstands with hworks | hsweeps
    · exact hplaced.worked u stage cell hstage hworks
    · exact hplaced.swept u stage cell hstage hsweeps
  exact absurd hlt (Nat.not_lt.2 hcell)

theorem lock_makeCell (h : s.Locked) (hplaced : s.Placed) (pool : String) (cell : CellId) :
    ((s.makeCell pool).cells cell).lock = (s.cells cell).lock := by
  by_cases heq : cell = ⟨pool, s.cellsMade pool⟩
  · rw [heq, cells_makeCell_self, h.unmade hplaced (Nat.le_refl _)]
  · rw [s.cells_makeCell_of_ne heq]

theorem standsAt?_eq (h : s.calls t = some stage) : s.standsAt? t = stage.standsAt? := by
  rw [standsAt?, h, Option.bind_some]

/-- Passing a section keeps the calls and the locks in step. -/
theorem Locked.passes (h : s.Locked) (hplaced : s.Placed) (hstage : s.calls t = some stage)
    (hpasses : s.Passes t stage s' next) : (s'.goto t next).Locked := by
  have hstands := standsAt?_eq hstage
  have hheld := fun cell => h.guarded cell t stage hstage
  cases hpasses with
  | refuses | arrives | seeks | misses | empties | skips | ends | overlooks | retires | severs =>
      exact h.still rfl (fun _ => rfl) hstands.symm (by rintro c ⟨⟩)
  | makes hnone =>
      exact h.still rfl (lock_makeCell h hplaced _) hstands.symm (by rintro c ⟨⟩)
  | queues => exact h.acquires hstands rfl (fun hguards => absurd rfl hguards)
  | finds hholder hlive => exact h.releases rfl (fun _ => rfl) hstands hholder rfl
  | dials hholder hnone =>
      refine h.still s.calls_discardCached (fun _ => s.lock_discardCached) hstands.symm ?_
      rintro c ⟨⟩
      exact hholder
  | takes hfree | reaches hfree => exact h.acquires hstands rfl (fun _ => hfree)
  | drops =>
      exact h.releases s.calls_discardCached (fun _ => s.lock_discardCached) hstands (hheld _ rfl)
        rfl
  | clears =>
      refine h.releases rfl (fun _ => s.lock_emptyCell) hstands (hheld _ rfl) ?_
      unfold afterTaking
      split <;> rfl

theorem Locked.answered (h : s.Locked) (hstage : s.calls t = some stage)
    (hanswered : s.Answered t stage s' next) : (s'.goto t next).Locked := by
  have hstands := standsAt?_eq hstage
  have hheld := fun cell => h.guarded cell t stage hstage
  cases hanswered with
  | connects => exact h.releases rfl (fun _ => s.lock_fileLink) hstands (hheld _ rfl) rfl
  | givesUp f => exact h.releases rfl (fun _ => rfl) hstands (hheld _ rfl) rfl
  | pauses | resumes => exact h.still rfl (fun _ => rfl) hstands.symm hheld
  | leavesEarly => exact h.still rfl (fun _ => rfl) hstands.symm (by rintro c ⟨⟩)
  | leaves hwhere =>
      refine h.leaves rfl (fun _ => rfl) ?_ rfl
      rcases hwhere with rfl | ⟨n, rfl⟩ | ⟨n, ms, rfl⟩ <;> exact hstands

end Locked

section Placed

variable {s s' : Connections} {t u : TaskId} {stage stage' next : ConnectionStage}

/-- What a call that moves leaves of the others. -/
theorem Moves.calls_eq (h : s.Moves t stage s' next)
    (hstage : (s'.goto t next).calls u = some stage') :
    u = t ∧ stage' = next ∨ u ≠ t ∧ s.calls u = some stage' := by
  rw [← h.calls]
  exact calls_goto_eq_some hstage

theorem Placed.moves (h : s.Placed) (hstage : s.calls t = some stage)
    (hmoves : s.Moves t stage s' next) : (s'.goto t next).Placed := by
  have hmade : ∀ {pool n}, n < s.cellsMade pool → n < s'.cellsMade pool := fun hlt =>
    Nat.lt_of_lt_of_le hlt (hmoves.cellsMade_le _)
  have hlisted : ∀ pool n, s'.directory.get? pool = some n → n < s'.cellsMade pool := by
    intro pool n hn
    rcases hmoves.listed hn with hold | ⟨-, hnew, -⟩
    · exact hmade (h.listed pool n hold)
    · rw [hnew]
      exact Nat.lt_succ_self n
  constructor
  · exact hlisted
  · intro u stage' cell hu hworks
    rcases hmoves.calls_eq hu with ⟨-, rfl⟩ | ⟨-, hu⟩
    · rcases hmoves.worksAt hworks with hbefore | hnow
      · exact hmade (h.worked t stage cell hstage hbefore)
      · exact hlisted _ _ hnow
    · exact hmade (h.worked u stage' cell hu hworks)
  · intro u stage' cell hu hsweeps
    rcases hmoves.calls_eq hu with ⟨-, rfl⟩ | ⟨-, hu⟩
    · rcases hmoves.sweeps hsweeps with hbefore | hlisted
      · exact hmade (h.swept t stage cell hstage hbefore)
      · exact hmade (h.listed _ _ hlisted)
    · exact hmade (h.swept u stage' cell hu hsweeps)
  · intro cell n hn
    rcases hmoves.cached hn with hold | ⟨-, -, -, hnew⟩
    · exact Nat.lt_of_lt_of_le (h.cached cell n hold) (hmoves.linksMade_le _)
    · show n < s'.linksMade cell.pool
      rw [hnew]
      exact Nat.lt_succ_self n

theorem Filed.moves (h : s.Filed) (hplaced : s.Placed) (hmoves : s.Moves t stage s' next) :
    (s'.goto t next).Filed := by
  intro cell other c hin hin'
  obtain ⟨hpool, hnumber⟩ := cached?_eq_some.1 hin
  obtain ⟨hpool', hnumber'⟩ := cached?_eq_some.1 hin'
  -- a connection that was there before has not the number of one that is dialed now
  have hold : ∀ {home}, c.pool = home.pool → (s.cells home).cached = some c.number →
      c.number ≠ s.linksMade c.pool := by
    intro home heq hcached
    rw [heq]
    exact Nat.ne_of_lt (hplaced.cached home c.number hcached)
  rcases hmoves.cached hnumber with hbefore | ⟨hdials, -, hnew, -⟩
  · rcases hmoves.cached hnumber' with hbefore' | ⟨-, -, hnew, -⟩
    · exact h cell other c (cached?_eq_some.2 ⟨hpool, hbefore⟩)
        (cached?_eq_some.2 ⟨hpool', hbefore'⟩)
    · exact absurd (hpool' ▸ hnew) (hold hpool hbefore)
  · rcases hmoves.cached hnumber' with hbefore' | ⟨hdials', -⟩
    · exact absurd (hpool ▸ hnew) (hold hpool' hbefore')
    · exact Option.some.inj (hdials.symm.trans hdials')

/-- Closing retires a connection that it takes out of its cell now, or that it retired before. -/
theorem Retires.of_moves {cell : CellId} {c : ConnectionId} (h : (s'.goto t next).Retires cell c)
    (hmoves : s.Moves t stage s' next) :
    s.Retires cell c ∨ s.cached? cell = some c ∧ (s'.cells cell).cached = none := by
  obtain ⟨u, stage', hu, hretires⟩ := h
  rcases hmoves.calls_eq hu with ⟨-, rfl⟩ | ⟨-, hu⟩
  · exact Or.inr (hmoves.retires hretires)
  · exact Or.inl ⟨u, stage', hu, hretires⟩

/-- A connection that closing retires comes to be invalidated. -/
theorem Retires.moves {cell : CellId} {c : ConnectionId} (h : s.Retires cell c)
    (hstage : s.calls t = some stage) (hmoves : s.Moves t stage s' next) :
    (s'.goto t next).Retires cell c ∨ (s'.links c).invalidated = true := by
  obtain ⟨u, stage', hu, hretires⟩ := h
  by_cases heq : u = t
  · subst heq
    cases hstage.symm.trans hu
    exact Or.inr (hmoves.retired hretires)
  · refine Or.inl ⟨u, stage', ?_, hretires⟩
    rw [s'.calls_goto_of_ne heq, hmoves.calls]
    exact hu

theorem Vacant.moves (h : s.Vacant) (hlocked : s.Locked) (hstage : s.calls t = some stage)
    (hmoves : s.Moves t stage s' next) : (s'.goto t next).Vacant := by
  intro u stage' cell hu hdials
  show (s'.cells cell).cached = none
  rcases hmoves.calls_eq hu with ⟨-, rfl⟩ | ⟨hne, hu⟩
  · rcases hmoves.dialsFor hdials with hbefore | hnow
    · -- a call that goes on dialing has not filed a connection
      refine Option.eq_none_iff_forall_ne_some.2 fun n hn => ?_
      rcases hmoves.cached hn with hold | ⟨-, rfl, -⟩
      · rw [h t stage cell hstage hbefore] at hold
        cases hold
      · cases hdials
    · exact hnow
  · refine Option.eq_none_iff_forall_ne_some.2 fun n hn => ?_
    rcases hmoves.cached hn with hold | ⟨hdials', -⟩
    · rw [h u stage' cell hu hdials] at hold
      cases hold
    · -- nobody else dials for the cell
      exact hne (hlocked.alone hu (ConnectionStage.guards?_of_dialsFor hdials) hstage
        (ConnectionStage.guards?_of_dialsFor hdials'))

theorem Retires.begins {cell : CellId} {c : ConnectionId} (h : s.Retires cell c)
    {call : ConnectionCall} (hfree : s.calls t = none) :
    (s.goto t (.ready call)).Retires cell c := by
  obtain ⟨u, stage', hu, hretires⟩ := h
  have hne : u ≠ t := by
    rintro rfl
    cases hfree.symm.trans hu
  exact ⟨u, stage', (s.calls_goto_of_ne hne).trans hu, hretires⟩

/-- A call that begins is at no cell. -/
theorem calls_of_begins {call : ConnectionCall}
    (hu : (s.goto t (.ready call)).calls u = some stage') :
    stage' = .ready call ∨ s.calls u = some stage' :=
  (calls_goto_eq_some hu).imp And.right And.right

end Placed

section Sound

variable {s s' : Connections} {t : TaskId} {stage next : ConnectionStage}

theorem sound_initial (settings : Settings) : ({ settings } : Connections).Sound := by
  refine ⟨⟨?_, ?_, ?_⟩, ⟨?_, ?_, ?_, ?_⟩, ?_, ?_⟩
  · exact fun cell => List.Pairwise.nil
  · exact fun cell t => iff_of_false (by rintro ⟨⟩) (by rintro ⟨⟩)
  · rintro cell t stage ⟨⟩
  · rintro pool number ⟨⟩
  · rintro t stage cell ⟨⟩
  · rintro t stage cell ⟨⟩
  · rintro cell number ⟨⟩
  · rintro cell other c ⟨⟩
  · rintro t stage cell ⟨⟩

theorem Sound.begins (h : s.Sound) {call : ConnectionCall} (hfree : s.calls t = none) :
    (s.goto t (.ready call)).Sound := by
  constructor
  · refine h.locked.still rfl (fun _ => rfl) ?_ (by rintro c ⟨⟩)
    rw [standsAt?, hfree]
    rfl
  · constructor
    · exact h.placed.listed
    · intro u stage' cell hu hworks
      rcases calls_of_begins hu with rfl | hu
      · cases hworks
      · exact h.placed.worked u stage' cell hu hworks
    · intro u stage' cell hu hsweeps
      rcases calls_of_begins hu with rfl | hu
      · cases hsweeps
      · exact h.placed.swept u stage' cell hu hsweeps
    · exact h.placed.cached
  · exact h.filed
  · intro u stage' cell hu hdials
    rcases calls_of_begins hu with rfl | hu
    · cases hdials
    · exact h.vacant u stage' cell hu hdials

theorem Sound.moves (h : s.Sound) (hstage : s.calls t = some stage)
    (hmoves : s.Moves t stage s' next) : (s'.goto t next).Sound := by
  refine ⟨?_, h.placed.moves hstage hmoves, h.filed.moves h.placed hmoves,
    h.vacant.moves h.locked hstage hmoves⟩
  rcases hmoves with hpasses | hanswered
  · exact h.locked.passes h.placed hstage hpasses
  · exact h.locked.answered hstage hanswered

/-- Links may change as they like. -/
theorem Sound.relink (h : s.Sound) (links : ConnectionId → Link) :
    ({ s with links } : Connections).Sound := by
  obtain ⟨hlocked, hplaced, hfiled, hvacant⟩ := h
  exact ⟨⟨hlocked.distinct, hlocked.present, hlocked.guarded⟩,
    ⟨hplaced.listed, hplaced.worked, hplaced.swept, hplaced.cached⟩, hfiled, hvacant⟩

/-- Every step keeps the connections sound. -/
theorem Sound.step (h : s.Sound) (ev : ConnectionEvent) : (s.step ev).Sound := by
  have hchange := s.step_change ev
  generalize s.step ev = s' at hchange
  cases hchange with
  | stays => exact h
  | begins call hfree => exact h.begins hfree
  | passes hstage hpasses => exact h.moves hstage (Or.inl hpasses)
  | answered hstage hanswered => exact h.moves hstage (Or.inr hanswered)
  | hangsUp | discards => exact h.relink _

theorem Sound.run (h : s.Sound) (events : List ConnectionEvent) : (s.run events).Sound := by
  induction events generalizing s with
  | nil => exact h
  | cons ev rest ih => exact ih (h.step ev)

end Sound

end Connections

end AmqpDelivery
