import AmqpDelivery.Connection.Cells

/-!
# What one step of the connections does

`Connections.step_change` is the one place where the steps of the connections are opened. A step
lets a call begin or pass its next section, is an answer of the network to a look-up that dials, or
takes a link down; what each of them changes is written out in `Connections.Change`.
-/

namespace AmqpDelivery

/-- A lock that is taken without waiting is free, and taken as by one that would wait. -/
theorem FairLock.tryAcquire?_eq_some {l l' : FairLock} {t : TaskId}
    (h : l.tryAcquire? t = some l') : l.holder = none ∧ l' = l.acquire t := by
  unfold tryAcquire? at h
  split at h
  · next hfree =>
    cases h
    exact ⟨hfree, by simp only [acquire, hfree]⟩
  · cases h

theorem FairLock.tryAcquire?_eq_none {l : FairLock} {t : TaskId} (h : l.tryAcquire? t = none) :
    ∃ u, l.holder = some u := by
  unfold tryAcquire? at h
  split at h
  · cases h
  · next u hheld => exact ⟨u, hheld⟩

namespace Connections

/-- A new cell for a pool that has none in use. -/
def makeCell (s : Connections) (pool : String) : Connections :=
  { s with
    directory := s.directory.insert pool (s.cellsMade pool)
    cells := assign s.cells ⟨pool, s.cellsMade pool⟩ {}
    cellsMade := assign s.cellsMade pool (s.cellsMade pool + 1) }

/-- A new connection in a cell. -/
def fileLink (s : Connections) (cell : CellId) : Connections :=
  { s with
    links := assign s.links ⟨cell.pool, s.linksMade cell.pool⟩ {}
    linksMade := assign s.linksMade cell.pool (s.linksMade cell.pool + 1) }.modifyCell cell
      fun x => { x with cached := some (s.linksMade cell.pool) }

/-- What follows once closing has taken the connection out of a cell. -/
def afterTaking (s : Connections) (cell : CellId) (rest : List CellId) : ConnectionStage :=
  match (s.cells cell).cached with
  | some number => .retiring cell number rest
  | none => .sweeping rest

/-- The section of a call that its task passes of itself: the stages before and after, and the state
but for the stage. -/
inductive Passes (s : Connections) (t : TaskId) :
    ConnectionStage → Connections → ConnectionStage → Prop
  /-- There are no settings for the pool. -/
  | refuses {pool : String} {f : Failure} (hsettings : s.settings.broker pool = .error f) :
      Passes s t (.ready (.lookUp pool)) s (.found (.error f))
  | arrives {pool : String} {cell : CellId} (hcell : s.cell? pool = some cell) :
      Passes s t (.ready (.lookUp pool)) s (.arriving cell)
  | makes {pool : String} (hnone : s.directory.get? pool = none) :
      Passes s t (.ready (.lookUp pool)) (s.makeCell pool) (.arriving ⟨pool, s.cellsMade pool⟩)
  | seeks {pool : String} {cell : CellId} (hcell : s.cell? pool = some cell) :
      Passes s t (.ready (.invalidate pool)) s (.trying cell)
  /-- The pool has no cell, and nothing to invalidate. -/
  | misses {pool : String} : Passes s t (.ready (.invalidate pool)) s .finished
  | empties :
      Passes s t (.ready .close) { s with directory := Keyed.empty } (.sweeping s.cellsInUse)
  | queues {cell : CellId} :
      Passes s t (.arriving cell) (s.modifyLock cell (FairLock.acquire · t)) (.waiting cell)
  | finds {cell : CellId} {c : ConnectionId} (hheld : (s.cells cell).lock.holder = some t)
      (hlive : s.liveCached? cell = some c) :
      Passes s t (.waiting cell) (s.modifyLock cell FairLock.release) (.found (.ok c))
  | dials {cell : CellId} (hheld : (s.cells cell).lock.holder = some t)
      (hnone : s.liveCached? cell = none) :
      Passes s t (.waiting cell) (s.discardCached cell) (.dialing cell 0)
  | takes {cell : CellId} (hfree : (s.cells cell).lock.holder = none) :
      Passes s t (.trying cell) (s.modifyLock cell (FairLock.acquire · t)) (.dropping cell)
  /-- The lock is held, and the invalidation does nothing. -/
  | skips {cell : CellId} {u : TaskId} (hheld : (s.cells cell).lock.holder = some u) :
      Passes s t (.trying cell) s .finished
  | drops {cell : CellId} :
      Passes s t (.dropping cell) ((s.discardCached cell).modifyLock cell FairLock.release) .finished
  | ends : Passes s t (.sweeping []) s .finished
  | reaches {cell : CellId} {rest : List CellId} (hfree : (s.cells cell).lock.holder = none) :
      Passes s t (.sweeping (cell :: rest)) (s.modifyLock cell (FairLock.acquire · t))
        (.taking cell rest)
  /-- The lock is held, and closing leaves the cell as it is. -/
  | overlooks {cell : CellId} {rest : List CellId} {u : TaskId}
      (hheld : (s.cells cell).lock.holder = some u) :
      Passes s t (.sweeping (cell :: rest)) s (.sweeping rest)
  | clears {cell : CellId} {rest : List CellId} :
      Passes s t (.taking cell rest) ((s.emptyCell cell).modifyLock cell FairLock.release)
        (s.afterTaking cell rest)
  | retires {cell : CellId} {number : Nat} {rest : List CellId} :
      Passes s t (.retiring cell number rest) (s.invalidateLink ⟨cell.pool, number⟩)
        (.severing ⟨cell.pool, number⟩ rest)
  | severs {c : ConnectionId} {rest : List CellId} :
      Passes s t (.severing c rest) (s.modifyLink c fun l => { l with up := false })
        (.sweeping rest)

/-- How the network, the clock or its owner moves a call on. -/
inductive Answered (s : Connections) (t : TaskId) :
    ConnectionStage → Connections → ConnectionStage → Prop
  | connects {cell : CellId} {failures : UInt32} :
      Answered s t (.dialing cell failures)
        ((s.fileLink cell).modifyLock cell FairLock.release)
        (.found (.ok ⟨cell.pool, s.linksMade cell.pool⟩))
  | givesUp {cell : CellId} {failures : UInt32} (f : Failure) :
      Answered s t (.dialing cell failures) (s.modifyLock cell FairLock.release)
        (.found (.error f))
  | pauses {cell : CellId} {failures : UInt32} (n : UInt32) (ms : UInt64) :
      Answered s t (.dialing cell failures) s (.pausing cell n ms)
  | resumes {cell : CellId} {failures : UInt32} {ms : UInt64} :
      Answered s t (.pausing cell failures ms) s (.dialing cell failures)
  | leavesEarly {call : ConnectionCall} : Answered s t (.ready call) s .dropped
  | leaves {cell : CellId} {stage : ConnectionStage}
      (hstage : stage = .waiting cell ∨ (∃ n, stage = .dialing cell n) ∨
        ∃ n ms, stage = .pausing cell n ms) :
      Answered s t stage (s.modifyLock cell (FairLock.leave · t)) .dropped

/-- What one event can do to the connections. -/
inductive Change (s : Connections) : ConnectionEvent → Connections → Prop
  /-- Nobody waits for the event. -/
  | stays (ev : ConnectionEvent) : Change s ev s
  | begins {t : TaskId} (call : ConnectionCall) (hfree : s.calls t = none) :
      Change s (.spawn t call) (s.goto t (.ready call))
  | passes {t : TaskId} {stage next : ConnectionStage} {s' : Connections}
      (hstage : s.calls t = some stage) (hpasses : s.Passes t stage s' next) :
      Change s (.proceed t) (s'.goto t next)
  | answered {ev : ConnectionEvent} {t : TaskId} {stage next : ConnectionStage} {s' : Connections}
      (hstage : s.calls t = some stage) (hanswered : s.Answered t stage s' next) :
      Change s ev (s'.goto t next)
  | hangsUp (c : ConnectionId) :
      Change s (.hangUp c) (s.modifyLink c fun l => { l with up := false })
  | discards (c : ConnectionId) : Change s (.discard c) (s.invalidateLink c)

section Steps

variable {s : Connections} {t : TaskId}

theorem start_passes (s : Connections) (t : TaskId) (call : ConnectionCall) :
    ∃ s' next, s.start t call = s'.goto t next ∧ s.Passes t (.ready call) s' next := by
  cases call with
  | lookUp pool =>
      simp only [start]
      split
      · next f hsettings => exact ⟨_, _, rfl, .refuses hsettings⟩
      · unfold cellOf
        cases hcell : s.cell? pool with
        | some cell => exact ⟨_, _, rfl, .arrives hcell⟩
        | none => exact ⟨_, _, rfl, .makes (Option.map_eq_none_iff.1 hcell)⟩
  | invalidate pool =>
      simp only [start]
      split
      · next cell hcell => exact ⟨_, _, rfl, .seeks hcell⟩
      · exact ⟨_, _, rfl, .misses⟩
  | close => exact ⟨_, _, rfl, .empties⟩

theorem look_passes {cell : CellId} (hheld : (s.cells cell).lock.holder = some t) :
    ∃ s' next, s.look t cell = s'.goto t next ∧ s.Passes t (.waiting cell) s' next := by
  unfold look
  split
  · next c hlive => exact ⟨_, _, rfl, .finds hheld hlive⟩
  · next hnone => exact ⟨_, _, rfl, .dials hheld hnone⟩

/-- Passing a section moves the task on, unless it has to wait. -/
theorem proceed_passes (s : Connections) (t : TaskId) (stage : ConnectionStage) :
    s.proceed t stage = s ∨
      ∃ s' next, s.proceed t stage = s'.goto t next ∧ s.Passes t stage s' next := by
  cases stage with
  | ready call => exact Or.inr (s.start_passes t call)
  | arriving cell => exact Or.inr ⟨_, _, rfl, .queues⟩
  | waiting cell =>
      simp only [proceed]
      split
      · next hheld => exact Or.inr (look_passes (of_decide_eq_true hheld))
      · exact Or.inl rfl
  | trying cell =>
      simp only [proceed]
      split
      · next lock htry =>
        obtain ⟨hfree, rfl⟩ := FairLock.tryAcquire?_eq_some htry
        exact Or.inr ⟨_, _, rfl, .takes hfree⟩
      · next htry =>
        obtain ⟨u, hheld⟩ := FairLock.tryAcquire?_eq_none htry
        exact Or.inr ⟨_, _, rfl, .skips hheld⟩
  | dropping cell => exact Or.inr ⟨_, _, rfl, .drops⟩
  | sweeping cells =>
      cases cells with
      | nil => exact Or.inr ⟨_, _, rfl, .ends⟩
      | cons cell rest =>
          simp only [proceed]
          split
          · next lock htry =>
            obtain ⟨hfree, rfl⟩ := FairLock.tryAcquire?_eq_some htry
            exact Or.inr ⟨_, _, rfl, .reaches hfree⟩
          · next htry =>
            obtain ⟨u, hheld⟩ := FairLock.tryAcquire?_eq_none htry
            exact Or.inr ⟨_, _, rfl, .overlooks hheld⟩
  | taking cell rest => exact Or.inr ⟨_, _, rfl, .clears⟩
  | retiring cell number rest => exact Or.inr ⟨_, _, rfl, .retires⟩
  | severing c rest => exact Or.inr ⟨_, _, rfl, .severs⟩
  | _ => exact Or.inl rfl

theorem dialed_answered (s : Connections) (t : TaskId) (result : Except String Unit)
    (stage : ConnectionStage) :
    s.dialed t result stage = s ∨
      ∃ s' next, s.dialed t result stage = s'.goto t next ∧ s.Answered t stage s' next := by
  cases stage with
  | dialing cell failures =>
      cases result with
      | ok u => exact Or.inr ⟨_, _, rfl, .connects⟩
      | error text =>
          simp only [dialed]
          split
          · next f hgives => exact Or.inr ⟨_, _, rfl, .givesUp f⟩
          · next ms hretries => exact Or.inr ⟨_, _, rfl, .pauses _ _⟩
  | _ => exact Or.inl rfl

theorem rested_answered (s : Connections) (t : TaskId) (stage : ConnectionStage) :
    s.rested t stage = s ∨
      ∃ s' next, s.rested t stage = s'.goto t next ∧ s.Answered t stage s' next := by
  cases stage with
  | pausing cell failures ms => exact Or.inr ⟨_, _, rfl, .resumes⟩
  | _ => exact Or.inl rfl

theorem drop_answered (s : Connections) (t : TaskId) (stage : ConnectionStage) :
    s.drop t stage = s ∨
      ∃ s' next, s.drop t stage = s'.goto t next ∧ s.Answered t stage s' next := by
  cases stage with
  | ready call => exact Or.inr ⟨_, _, rfl, .leavesEarly⟩
  | waiting cell => exact Or.inr ⟨_, _, rfl, .leaves (Or.inl rfl)⟩
  | dialing cell n => exact Or.inr ⟨_, _, rfl, .leaves (Or.inr (Or.inl ⟨n, rfl⟩))⟩
  | pausing cell n ms => exact Or.inr ⟨_, _, rfl, .leaves (Or.inr (Or.inr ⟨n, ms, rfl⟩))⟩
  | _ => exact Or.inl rfl

/-- What is asked of a call that is there changes the connections as its answer does. -/
theorem act_change (s : Connections) (t : TaskId) (ev : ConnectionEvent)
    (f : ConnectionStage → Connections)
    (h : ∀ stage, f stage = s ∨
      ∃ s' next, f stage = s'.goto t next ∧ s.Answered t stage s' next) :
    s.Change ev (s.act t f) := by
  unfold act
  cases hstage : s.calls t with
  | none => exact .stays ev
  | some stage =>
      rcases h stage with hsame | ⟨s', next, hnext, hanswered⟩
      · simp only [hsame]
        exact .stays ev
      · simp only [hnext]
        exact .answered hstage hanswered

/-- Every step of the connections is one of the changes. -/
theorem step_change (s : Connections) (ev : ConnectionEvent) : s.Change ev (s.step ev) := by
  cases ev with
  | spawn t call =>
      simp only [step]
      split
      · next hfree => exact .begins call hfree
      · exact .stays _
  | proceed t =>
      simp only [step, act]
      cases hstage : s.calls t with
      | none => exact .stays _
      | some stage =>
          rcases s.proceed_passes t stage with hsame | ⟨s', next, hnext, hpasses⟩
          · simp only [hsame]
            exact .stays _
          · simp only [hnext]
            exact .passes hstage hpasses
  | dialed t result => exact s.act_change t _ _ (s.dialed_answered t result)
  | rested t => exact s.act_change t _ _ (s.rested_answered t)
  | drop t => exact s.act_change t _ _ (s.drop_answered t)
  | hangUp c => exact .hangsUp c
  | discard c => exact .discards c

end Steps

end Connections

end AmqpDelivery
