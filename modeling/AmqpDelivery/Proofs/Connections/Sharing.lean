import Mathlib.Data.List.Induction
import AmqpDelivery.Proofs.Connections.Single

/-!
# Look-ups share their connections

As long as closing does not overlap with look-ups and invalidations, a pool has one live connection
at most, all look-ups share it, and one look-up at a time dials for the pool
(`Connections.connections_shared`).

Closing takes the cells out of the directory at once, and passes over those whose lock is held. So a
look-up that is dialing then goes on in a cell that nobody else finds, the next look-up makes
another cell and dials as well, and both end up with a live connection
(`Connections.connection_doubled_by_close`).
-/

namespace AmqpDelivery

/-- The pool whose connection a look-up seeks. -/
def ConnectionStage.seeks? : ConnectionStage → Option String
  | .ready (.lookUp pool) => some pool
  | .arriving cell | .waiting cell | .dialing cell _ | .pausing cell _ _ => some cell.pool
  | .found (.ok c) => some c.pool
  | _ => none

namespace Connections

/-- The call that a task makes. -/
def callOf? (events : List ConnectionEvent) (t : TaskId) : Option ConnectionCall :=
  events.findSome? fun
    | .spawn u call => if u = t then some call else none
    | _ => none

/-- The tasks whose calls are `asked` share one connection for each pool. -/
structure Shares (s : Connections) (asked : TaskId → Option ConnectionCall) : Prop where
  /-- No pool has two live connections, be they cached or only held by those who looked them up. -/
  live : ∀ a b, a.pool = b.pool → (s.links a).isLive = true → (s.links b).isLive = true → a = b
  /-- Look-ups of one pool that hold live connections hold the same. -/
  held : ∀ pool t u a b, asked t = some (.lookUp pool) → asked u = some (.lookUp pool) →
    s.found? t = some (.ok a) → s.found? u = some (.ok b) →
      (s.links a).isLive = true → (s.links b).isLive = true → a = b
  /-- One look-up at a time dials for a pool. -/
  dialed : ∀ t u cell other, s.dialsFor? t = some cell → s.dialsFor? u = some other →
    cell.pool = other.pool → t = u

section Seeks

variable {s s' : Connections} {t u : TaskId} {stage next : ConnectionStage} {pool : String}

/-- A look-up seeks the connection of one pool until it ends. -/
theorem Moves.seeks (h : s.Moves t stage s' next) (hnext : next.seeks? = some pool) :
    stage.seeks? = some pool := by
  rcases h with h | h
  · cases h with
    | arrives hcell =>
        cases hnext
        obtain ⟨rfl, -⟩ := cell?_eq_some.1 hcell
        rfl
    | finds hheld hlive =>
        cases hnext
        exact congrArg some (cached?_eq_some.1 (liveCached?_eq_some.1 hlive).1).1.symm
    | clears =>
        unfold afterTaking at hnext
        split at hnext <;> cases hnext
    | _ => first | exact hnext | cases hnext
  · cases h <;> first | exact hnext | cases hnext

theorem callOf?_append {events : List ConnectionEvent} {call : ConnectionCall}
    (h : callOf? events t = some call) (more : List ConnectionEvent) :
    callOf? (events ++ more) t = some call := by
  rw [callOf?, List.findSome?_append]
  exact congrArg (Option.or · _) h

theorem callOf?_append_of_none {events : List ConnectionEvent} (h : callOf? events t = none)
    (more : List ConnectionEvent) : callOf? (events ++ more) t = callOf? more t := by
  rw [callOf?, List.findSome?_append]
  exact congrArg (Option.or · _) h

theorem callOf?_spawn (t : TaskId) (call : ConnectionCall) :
    callOf? [.spawn t call] t = some call := by
  simp [callOf?]

theorem callOf?_of_ne {ev : ConnectionEvent} (h : ∀ call, ev ≠ .spawn t call) :
    callOf? [ev] t = none := by
  cases ev with
  | spawn u call =>
      have hne : u ≠ t := by
        rintro rfl
        exact h call rfl
      simp [callOf?, hne]
  | _ => rfl

/-- How the calls under way stand to the events so far. -/
structure Asked (s : Connections) (events : List ConnectionEvent) : Prop where
  idle : ∀ t, s.calls t = none → callOf? events t = none
  sought : ∀ t stage pool, s.calls t = some stage → stage.seeks? = some pool →
    callOf? events t = some (.lookUp pool)

theorem Asked.moves {events : List ConnectionEvent} (h : s.Asked events)
    (hstage : s.calls t = some stage) (hmoves : s.Moves t stage s' next)
    {stage' : ConnectionStage} (hu : (s'.goto t next).calls u = some stage')
    (hseeks : stage'.seeks? = some pool) : callOf? events u = some (.lookUp pool) := by
  rcases hmoves.calls_eq hu with ⟨rfl, rfl⟩ | ⟨-, hu⟩
  · exact h.sought u stage pool hstage (hmoves.seeks hseeks)
  · exact h.sought u stage' pool hu hseeks

theorem Asked.step {events : List ConnectionEvent} (h : s.Asked events) (ev : ConnectionEvent) :
    (s.step ev).Asked (events ++ [ev]) := by
  constructor
  · intro t hnone
    obtain ⟨hbefore, hother⟩ := calls_step_eq_none.1 hnone
    rw [callOf?_append_of_none (h.idle t hbefore)]
    exact callOf?_of_ne hother
  · intro t stage pool hstage hseeks
    have hchange := s.step_change ev
    generalize s.step ev = s' at hchange hstage
    cases hchange with
    | stays => exact callOf?_append (h.sought t stage pool hstage hseeks) _
    | @begins u call hfree =>
        rcases calls_goto_eq_some hstage with ⟨rfl, rfl⟩ | ⟨-, hstage⟩
        · rw [callOf?_append_of_none (h.idle t hfree), callOf?_spawn]
          cases call <;> cases hseeks
          rfl
        · exact callOf?_append (h.sought t stage pool hstage hseeks) _
    | passes hstage' hpasses =>
        exact callOf?_append (h.moves hstage' (Or.inl hpasses) hstage hseeks) _
    | answered hstage' hanswered =>
        exact callOf?_append (h.moves hstage' (Or.inr hanswered) hstage hseeks) _
    | hangsUp c => exact callOf?_append (h.sought t stage pool hstage hseeks) _
    | discards c => exact callOf?_append (h.sought t stage pool hstage hseeks) _

theorem asked_run (settings : Settings) (events : List ConnectionEvent) :
    (({ settings } : Connections).run events).Asked events := by
  induction events using List.reverseRecOn with
  | nil =>
      refine ⟨fun t _ => rfl, ?_⟩
      rintro t stage pool ⟨⟩
  | append_singleton events ev ih =>
      rw [run_append]
      exact ih.step ev

end Seeks

section Shares

variable {s : Connections} {events : List ConnectionEvent}

theorem Single.live_unique (h : s.Single) {a b : ConnectionId} (hpool : a.pool = b.pool)
    (ha : (s.links a).isLive = true) (hb : (s.links b).isLive = true) : a = b := by
  obtain ⟨cell, hcell, hholds⟩ := h.filed a ha
  obtain ⟨other, hother, hholds'⟩ := h.filed b hb
  obtain rfl : cell = other :=
    h.only cell other hcell hother (hholds.pool.symm.trans (hpool.trans hholds'.pool))
  exact h.alone cell a b hholds hholds'

theorem Single.shares (h : s.Single) (hsound : s.Sound) (hasked : s.Asked events) :
    s.Shares (callOf? events) := by
  constructor
  · intro a b hpool ha hb
    exact h.live_unique hpool ha hb
  · intro pool t u a b ht hu hfound hfound' ha hb
    -- a look-up returns a connection of the pool that it was asked for
    have hseeks : ∀ {t : TaskId} {c : ConnectionId}, callOf? events t = some (.lookUp pool) →
        s.found? t = some (.ok c) → c.pool = pool := by
      intro t c ht hfound
      have hsought := hasked.sought t _ c.pool (found?_eq_some.1 hfound) rfl
      rw [ht] at hsought
      cases hsought
      rfl
    exact h.live_unique ((hseeks ht hfound).trans (hseeks hu hfound').symm) ha hb
  · intro t u cell other ht hu hpool
    obtain ⟨stage, hstage, hdials⟩ := Option.bind_eq_some_iff.1 ht
    obtain ⟨stage', hstage', hdials'⟩ := Option.bind_eq_some_iff.1 hu
    have hcell := h.current t stage cell hstage (ConnectionStage.worksAt?_of_dialsFor hdials)
    have hother := h.current u stage' other hstage' (ConnectionStage.worksAt?_of_dialsFor hdials')
    have hsame : cell = other := h.only cell other (Or.inl hcell) (Or.inl hother) hpool
    subst hsame
    exact hsound.locked.alone hstage (ConnectionStage.guards?_of_dialsFor hdials) hstage'
      (ConnectionStage.guards?_of_dialsFor hdials')

end Shares

/-- Where closing overlaps with no look-up and no invalidation, a pool has one live connection at
most, and all look-ups share it. -/
theorem connections_shared (settings : Settings) (events : List ConnectionEvent)
    (hapart : ({ settings } : Connections).ClosesApart events) :
    (({ settings } : Connections).run events).Shares (callOf? events) := by
  have hsound := sound_initial settings
  exact ((single_initial settings).run hsound hapart).shares (hsound.run events)
    (asked_run settings events)

/-- The settings of one pool. -/
def ordersSettings : Settings := { brokers := Keyed.ofList [("orders", {})] }

/-- Two look-ups share a connection that is dialed at the second attempt, everything is closed, and
a third look-up dials anew. -/
def closedBetweenRun : List ConnectionEvent :=
  [.spawn 0 (.lookUp "orders"), .proceed 0, .proceed 0, .proceed 0, .spawn 1 (.lookUp "orders"),
    .proceed 1, .proceed 1, .dialed 0 (.error "refused"), .rested 0, .dialed 0 (.ok ()),
    .proceed 1, .spawn 2 .close, .proceed 2, .proceed 2, .proceed 2, .proceed 2, .proceed 2,
    .proceed 2, .spawn 3 (.lookUp "orders"), .proceed 3, .proceed 3, .proceed 3,
    .dialed 3 (.ok ())]

theorem connections_shared_reopened :
    let init : Connections := { settings := ordersSettings }
    init.ClosesApart closedBetweenRun ∧
      (init.run closedBetweenRun).found? 0 = some (.ok ⟨"orders", 0⟩) ∧
      (init.run closedBetweenRun).found? 1 = some (.ok ⟨"orders", 0⟩) ∧
      (init.run closedBetweenRun).found? 3 = some (.ok ⟨"orders", 1⟩) ∧
      (init.run closedBetweenRun).isOver 2 = true ∧
      (init.run closedBetweenRun).Shares (callOf? closedBetweenRun) := by
  intro init
  have hapart : init.ClosesApart closedBetweenRun := by
    have hamong : init.closesApartAmong [0, 1, 2, 3] closedBetweenRun = true := by decide +kernel
    refine closesApart_of_among (fun _ _ => rfl) ?_ hamong
    intro u call hmem
    simp [closedBetweenRun] at hmem
    rcases hmem with ⟨rfl, -⟩ | ⟨rfl, -⟩ | ⟨rfl, -⟩ | ⟨rfl, -⟩ <;> simp
  refine ⟨hapart, by decide +kernel, by decide +kernel, by decide +kernel, by decide +kernel, ?_⟩
  exact connections_shared ordersSettings closedBetweenRun hapart

/-- Everything is closed while a look-up dials, and a second look-up begins to dial. -/
def closedWhileDialingRun : List ConnectionEvent :=
  [.spawn 0 (.lookUp "orders"), .proceed 0, .proceed 0, .proceed 0, .spawn 1 .close, .proceed 1,
    .proceed 1, .proceed 1, .spawn 2 (.lookUp "orders"), .proceed 2, .proceed 2, .proceed 2]

/-- Closing while a look-up dials leaves two dials for one pool, and two live connections. -/
theorem connection_doubled_by_close :
    ¬ (∀ (settings : Settings) (events : List ConnectionEvent) (t u : TaskId) (cell other : CellId),
        (({ settings } : Connections).run events).dialsFor? t = some cell →
        (({ settings } : Connections).run events).dialsFor? u = some other →
          cell.pool = other.pool → t = u) ∧
      ¬ (∀ (settings : Settings) (events : List ConnectionEvent) (a b : ConnectionId),
        a.pool = b.pool →
        ((({ settings } : Connections).run events).links a).isLive = true →
        ((({ settings } : Connections).run events).links b).isLive = true → a = b) := by
  constructor
  · intro h
    have hsame := h ordersSettings closedWhileDialingRun 0 2 ⟨"orders", 0⟩ ⟨"orders", 1⟩
      (by decide +kernel) (by decide +kernel) rfl
    cases hsame
  · intro h
    have hsame := h ordersSettings
      (closedWhileDialingRun ++ [.dialed 0 (.ok ()), .dialed 2 (.ok ())]) ⟨"orders", 0⟩ ⟨"orders", 1⟩
      rfl (by decide +kernel) (by decide +kernel)
    cases hsame

end Connections

end AmqpDelivery
