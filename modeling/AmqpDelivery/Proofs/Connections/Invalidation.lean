import AmqpDelivery.Proofs.Connections.Sharing

/-!
# Invalidations

An invalidation that finds a connection cached drops it, and no look-up that ends later returns the
connection, provided that nobody but a look-up that dials has the lock when the invalidation tries it
(`Connections.invalidation_lasts`). Closing may have taken the connection out of the cell before the
invalidation came there; then no look-up finds it either, and closing is about to invalidate it if it
has not done so.

The lock is also held by look-ups that only read the cell: when a dial ends with others in line, the
next of them has the lock before it runs. An invalidation that comes then finds the lock held, takes
this for a dial and leaves the connection as it is (`Connections.invalidation_lost_to_reader`).
-/

namespace AmqpDelivery

namespace Connections

/-- The connection was invalidated, or closing has taken it out of the cell, no other cell has it, and
closing is about to invalidate it. -/
def Removed (s : Connections) (cell : CellId) (c : ConnectionId) : Prop :=
  (s.links c).invalidated = true ∨ s.Retires cell c ∧ ∀ other, s.cached? other ≠ some c

/-- The connection is still in the cell, or was removed. -/
structure Doomed (s : Connections) (cell : CellId) (c : ConnectionId) : Prop where
  cellMade : cell.number < s.cellsMade cell.pool
  linkMade : c.number < s.linksMade c.pool
  kept : s.cached? cell = some c ∨ s.Removed cell c

/-- The connection was removed. -/
structure Gone (s : Connections) (cell : CellId) (c : ConnectionId) : Prop where
  linkMade : c.number < s.linksMade c.pool
  removed : s.Removed cell c

/-- The invalidation has the lock of the cell, or has returned after the connection was removed. -/
def Dropping (s : Connections) (t : TaskId) (cell : CellId) (c : ConnectionId) : Prop :=
  s.calls t = some (.dropping cell) ∨ s.calls t = some .finished ∧ s.Removed cell c

/-- No call closes the connections, or is about to. -/
def Unclosed (s : Connections) : Prop :=
  ∀ t stage, s.calls t = some stage → stage.closes = false ∧ stage ≠ .ready .close

section Gone

variable {s s' : Connections} {t u : TaskId} {stage next : ConnectionStage} {cell : CellId}
  {c : ConnectionId}

/-- A connection that was made is not dialed again. -/
theorem Moves.wears (h : s.Moves t stage s' next) (hmade : c.number < s.linksMade c.pool) :
    (s.links c).Wears (s'.links c) := by
  rcases h.link c with hwears | ⟨hnew, -⟩
  · exact hwears
  · exact absurd hmade (hnew ▸ Nat.lt_irrefl _)

/-- A connection that was made comes into no cell. -/
theorem Moves.cached_before (h : s.Moves t stage s' next) (hmade : c.number < s.linksMade c.pool)
    (hin : s'.cached? cell = some c) : s.cached? cell = some c := by
  obtain ⟨hpool, hnumber⟩ := cached?_eq_some.1 hin
  rcases h.cached hnumber with hbefore | ⟨-, -, hnew, -⟩
  · exact cached?_eq_some.2 ⟨hpool, hbefore⟩
  · rw [hpool, hnew] at hmade
    exact absurd hmade (Nat.lt_irrefl _)

theorem Removed.moves (h : s.Removed cell c) (hmade : c.number < s.linksMade c.pool)
    (hstage : s.calls t = some stage) (hmoves : s.Moves t stage s' next) :
    (s'.goto t next).Removed cell c := by
  rcases h with hgone | ⟨hretires, hout⟩
  · exact Or.inl ((hmoves.wears hmade).invalidated hgone)
  · rcases hretires.moves hstage hmoves with hstill | hgone
    · exact Or.inr ⟨hstill, fun other hin => hout other (hmoves.cached_before hmade hin)⟩
    · exact Or.inl hgone

/-- Where only links wear, what was removed stays so. -/
theorem Removed.wears (h : s.Removed cell c) {links : ConnectionId → Link}
    (hwears : (s.links c).Wears (links c)) : ({ s with links } : Connections).Removed cell c :=
  h.imp_left hwears.invalidated

theorem Removed.begins (h : s.Removed cell c) {call : ConnectionCall} (hfree : s.calls t = none) :
    (s.goto t (.ready call)).Removed cell c :=
  h.imp_right (And.imp_left fun hretires => hretires.begins hfree)

/-- A connection that was removed stays removed. -/
theorem Removed.step (h : s.Removed cell c) (hmade : c.number < s.linksMade c.pool)
    (ev : ConnectionEvent) : (s.step ev).Removed cell c := by
  have hchange := s.step_change ev
  generalize s.step ev = s' at hchange
  cases hchange with
  | stays => exact h
  | begins call hfree => exact h.begins hfree
  | passes hstage hpasses => exact h.moves hmade hstage (Or.inl hpasses)
  | answered hstage hanswered => exact h.moves hmade hstage (Or.inr hanswered)
  | hangsUp d => exact h.wears (s.links_sever_wears d c)
  | discards d => exact h.wears (s.links_invalidateLink_wears d c)

theorem Gone.step (h : s.Gone cell c) (ev : ConnectionEvent) : (s.step ev).Gone cell c :=
  ⟨Nat.lt_of_lt_of_le h.linkMade (s.linksMade_step_le ev _), h.removed.step h.linkMade ev⟩

/-- A connection that was removed is found in no cell. -/
theorem Gone.not_cached (h : s.Gone cell c) (other : CellId) : s.liveCached? other ≠ some c := by
  intro hlive
  obtain ⟨hin, hlive⟩ := liveCached?_eq_some.1 hlive
  rcases h.removed with hgone | ⟨-, hout⟩
  · rw [Link.not_live_of_invalidated hgone] at hlive
    cases hlive
  · exact hout other hin

/-- No look-up comes to hold a connection that was removed. -/
theorem Gone.not_found (h : s.Gone cell c) (ev : ConnectionEvent)
    (hfound : (s.step ev).found? u = some (.ok c)) : s.found? u = some (.ok c) := by
  have hmoves : ∀ {t stage s' next}, s.Moves t stage s' next →
      (s'.goto t next).found? u = some (.ok c) → s.found? u = some (.ok c) := by
    intro t stage s' next hmoves hfound
    rcases hmoves.calls_eq (found?_eq_some.1 hfound) with ⟨-, hnext⟩ | ⟨-, hu⟩
    · rcases hmoves.found hnext.symm with ⟨other, hlive⟩ | hnew
      · exact (h.not_cached other hlive).elim
      · exact absurd h.linkMade (hnew ▸ Nat.lt_irrefl _)
    · exact found?_eq_some.2 hu
  have hchange := s.step_change ev
  generalize s.step ev = s' at hchange hfound
  cases hchange with
  | stays => exact hfound
  | begins call hfree =>
      rcases calls_of_begins (found?_eq_some.1 hfound) with hready | hu
      · cases hready
      · exact found?_eq_some.2 hu
  | passes hstage hpasses => exact hmoves (Or.inl hpasses) hfound
  | answered hstage hanswered => exact hmoves (Or.inr hanswered) hfound
  | hangsUp d => exact hfound
  | discards d => exact hfound

/-- Once a connection was removed, no look-up that ends later returns it. -/
theorem Gone.run (h : s.Gone cell c) (events : List ConnectionEvent)
    (hfound : (s.run events).found? u = some (.ok c)) : s.found? u = some (.ok c) := by
  induction events generalizing s with
  | nil => exact hfound
  | cons ev rest ih => exact h.not_found ev (ih (h.step ev) hfound)

end Gone

section Unclosed

variable {s s' : Connections} {t : TaskId} {stage next : ConnectionStage} {ev : ConnectionEvent}
  {events : List ConnectionEvent}

theorem Unclosed.moves (h : s.Unclosed) (hstage : s.calls t = some stage)
    (hmoves : s.Moves t stage s' next) : (s'.goto t next).Unclosed := by
  intro u stage' hu
  rcases hmoves.calls_eq hu with ⟨-, rfl⟩ | ⟨-, hu⟩
  · obtain ⟨hidle, hready⟩ := h t stage hstage
    rcases hmoves with hmoves | hmoves
    · cases hmoves with
      | empties => exact absurd rfl hready
      | ends | reaches | overlooks | clears | retires | severs => cases hidle
      | _ => exact ⟨rfl, nofun⟩
    · cases hmoves <;> exact ⟨rfl, nofun⟩
  · exact h u stage' hu

theorem Unclosed.step (h : s.Unclosed) (hev : ∀ u, ev ≠ .spawn u .close) : (s.step ev).Unclosed := by
  have hchange := s.step_change ev
  generalize s.step ev = s' at hchange
  cases hchange with
  | @begins t call hfree =>
      intro u stage hu
      rcases calls_of_begins hu with rfl | hu
      · refine ⟨rfl, ?_⟩
        rintro ⟨⟩
        exact hev t rfl
      · exact h u stage hu
  | passes hstage hpasses => exact h.moves hstage (Or.inl hpasses)
  | answered hstage hanswered => exact h.moves hstage (Or.inr hanswered)
  | _ => exact h

theorem Unclosed.run (h : s.Unclosed) (hopen : ∀ u, .spawn u .close ∉ events) :
    (s.run events).Unclosed := by
  induction events generalizing s with
  | nil => exact h
  | cons ev rest ih =>
      refine ih (h.step fun u heq => ?_) fun u hmem => hopen u (List.mem_cons_of_mem _ hmem)
      exact hopen u (heq ▸ List.mem_cons_self)

theorem unclosed_initial (settings : Settings) : ({ settings } : Connections).Unclosed := nofun

end Unclosed

section Doomed

variable {s s' : Connections} {t u : TaskId} {stage next : ConnectionStage} {cell : CellId}
  {c : ConnectionId}

/-- A move leaves the connection in its cell or removes it. -/
theorem Doomed.moves (h : s.Doomed cell c) (hsound : s.Sound) (hin : s.cached? cell = some c)
    (hstage : s.calls t = some stage) (hmoves : s.Moves t stage s' next) :
    (s'.goto t next).cached? cell = some c ∨ (s'.goto t next).Removed cell c := by
  rcases hmoves.keeps hin with hstays | hgone | hretires | hdials | hmade
  · exact Or.inl hstays
  · exact Or.inr (Or.inl hgone)
  · -- it was in no other cell, and this one is empty now
    refine Or.inr (Or.inr ⟨⟨t, next, s'.calls_goto_self t next, hretires⟩, fun other hin' => ?_⟩)
    obtain rfl : cell = other :=
      hsound.filed cell other c hin (hmoves.cached_before h.linkMade hin')
    have hempty : s'.cached? cell = none :=
      Option.map_eq_none_iff.2 (hmoves.retires hretires).2
    exact nomatch hempty.symm.trans hin'
  · -- nothing is dialed for a cell that has a connection
    rw [cached?, hsound.vacant t stage cell hstage hdials] at hin
    cases hin
  · exact absurd h.cellMade (hmade ▸ Nat.lt_irrefl _)

theorem Doomed.step (h : s.Doomed cell c) (hsound : s.Sound) (ev : ConnectionEvent) :
    (s.step ev).Doomed cell c := by
  constructor
  · exact Nat.lt_of_lt_of_le h.cellMade (s.cellsMade_step_le ev _)
  · exact Nat.lt_of_lt_of_le h.linkMade (s.linksMade_step_le ev _)
  · rcases h.kept with hin | hremoved
    · have hchange := s.step_change ev
      generalize s.step ev = s' at hchange
      cases hchange with
      | passes hstage hpasses => exact h.moves hsound hin hstage (Or.inl hpasses)
      | answered hstage hanswered => exact h.moves hsound hin hstage (Or.inr hanswered)
      | _ => exact Or.inl hin
    · exact Or.inr (hremoved.step h.linkMade ev)

theorem Doomed.run (h : s.Doomed cell c) (hsound : s.Sound) (events : List ConnectionEvent) :
    (s.run events).Doomed cell c := by
  induction events generalizing s with
  | nil => exact h
  | cons ev rest ih => exact ih (h.step hsound ev) (hsound.step ev)

/-- An invalidation that finds the lock free, or held by a look-up that dials, is not in vain. -/
theorem dropping_of_try (h : s.Doomed cell c) (hsound : s.Sound)
    (hstage : s.calls t = some (.trying cell))
    (hheld : ∀ u, (s.cells cell).lock.holder = some u → s.dialsFor? u = some cell) :
    (s.step (.proceed t)).Dropping t cell c := by
  simp only [step, act, hstage, proceed]
  split
  · exact Or.inl (calls_goto_self _ t _)
  · next htry =>
    -- the holder dials, so the cell is empty and the connection was removed before
    obtain ⟨u, hholder⟩ := FairLock.tryAcquire?_eq_none htry
    obtain ⟨stage, hu, hdials⟩ := Option.bind_eq_some_iff.1 (hheld u hholder)
    have hremoved : s.Removed cell c := by
      refine h.kept.resolve_left fun hin => ?_
      rw [cached?, hsound.vacant u stage cell hu hdials] at hin
      cases hin
    exact Or.inr ⟨calls_goto_self _ t _,
      hremoved.moves h.linkMade hstage (Or.inl (.skips hholder))⟩

/-- The move of an invalidation that has the lock of its cell ends it. -/
theorem Moves.of_dropping (h : s.Moves t (.dropping cell) s' next) :
    next = .finished ∧ s' = (s.discardCached cell).modifyLock cell FairLock.release := by
  rcases h with h | h
  · cases h with
    | drops => exact ⟨rfl, rfl⟩
  · cases h with
    | leaves hwhere => rcases hwhere with heq | ⟨n, heq⟩ | ⟨n, ms, heq⟩ <;> cases heq

/-- A call that has ended does not move. -/
theorem not_moves_finished (h : s.Moves t .finished s' next) : False := by
  rcases h with h | h
  · cases h
  · cases h with
    | leaves hwhere => rcases hwhere with heq | ⟨n, heq⟩ | ⟨n, ms, heq⟩ <;> cases heq

/-- A call that has ended stays so. -/
theorem calls_step_of_finished (h : s.calls t = some .finished) (ev : ConnectionEvent) :
    (s.step ev).calls t = some .finished := by
  have hmoves : ∀ {u stage s' next}, s.calls u = some stage → s.Moves u stage s' next →
      (s'.goto u next).calls t = some .finished := by
    intro u stage s' next hstage hmoves
    have hne : t ≠ u := by
      rintro rfl
      cases hstage.symm.trans h
      exact not_moves_finished hmoves
    exact (s'.calls_goto_of_ne hne).trans ((congrFun hmoves.calls t).trans h)
  have hchange := s.step_change ev
  generalize s.step ev = s' at hchange
  cases hchange with
  | @begins u call hfree =>
      have hne : t ≠ u := by
        rintro rfl
        cases hfree.symm.trans h
      exact (s.calls_goto_of_ne hne).trans h
  | passes hstage hpasses => exact hmoves hstage (Or.inl hpasses)
  | answered hstage hanswered => exact hmoves hstage (Or.inr hanswered)
  | _ => exact h

/-- While the invalidation has the lock of the cell, a move is its last, or is not its own. -/
theorem Doomed.dropping_moves (h : s.Doomed cell c) (hdropping : s.calls t = some (.dropping cell))
    (hstage : s.calls u = some stage) (hmoves : s.Moves u stage s' next) :
    (s'.goto u next).Dropping t cell c := by
  by_cases heq : t = u
  · subst heq
    cases hstage.symm.trans hdropping
    refine Or.inr ⟨?_, ?_⟩
    · rw [hmoves.of_dropping.1]
      exact calls_goto_self _ t _
    · rcases h.kept with hin | hremoved
      · rw [hmoves.of_dropping.2]
        exact Or.inl (s.invalidated_discardCached hin)
      · exact hremoved.moves h.linkMade hstage hmoves
  · exact Or.inl ((s'.calls_goto_of_ne heq).trans ((congrFun hmoves.calls t).trans hdropping))

theorem Dropping.step (h : s.Dropping t cell c) (hdoomed : s.Doomed cell c)
    (ev : ConnectionEvent) : (s.step ev).Dropping t cell c := by
  rcases h with hdropping | ⟨hfinished, hremoved⟩
  · have hchange := s.step_change ev
    generalize s.step ev = s' at hchange
    cases hchange with
    | @begins u call hfree =>
        have hne : t ≠ u := by
          rintro rfl
          cases hfree.symm.trans hdropping
        exact Or.inl ((s.calls_goto_of_ne hne).trans hdropping)
    | passes hstage hpasses => exact hdoomed.dropping_moves hdropping hstage (Or.inl hpasses)
    | answered hstage hanswered =>
        exact hdoomed.dropping_moves hdropping hstage (Or.inr hanswered)
    | _ => exact Or.inl hdropping
  · exact Or.inr ⟨calls_step_of_finished hfinished ev, hremoved.step hdoomed.linkMade ev⟩

theorem Dropping.run (h : s.Dropping t cell c) (hdoomed : s.Doomed cell c) (hsound : s.Sound)
    (events : List ConnectionEvent) : (s.run events).Dropping t cell c := by
  induction events generalizing s with
  | nil => exact h
  | cons ev rest ih => exact ih (h.step hdoomed ev) (hdoomed.step hsound ev) (hsound.step ev)

end Doomed

/-- An invalidation `t` of a pool begins while the connection `c` is in the pool's cell. If nobody but
a look-up that dials has the lock of the cell when the invalidation tries it, then no look-up that ends
after the invalidation has returned returns `c`, and `c` was invalidated by then; or else closing had
come first and taken it out of the cell, and is about to invalidate it. -/
theorem invalidation_lasts (settings : Settings) (before mid between after : List ConnectionEvent)
    (t : TaskId) (pool : String) (cell : CellId) (c : ConnectionId) :
    let begun := ({ settings } : Connections).run before
    let tried := (begun.step (.proceed t)).run mid
    let ended := (tried.step (.proceed t)).run between
    begun.calls t = some (.ready (.invalidate pool)) →
    begun.cell? pool = some cell →
    begun.cached? cell = some c →
    tried.calls t = some (.trying cell) →
    (∀ u, (tried.cells cell).lock.holder = some u → tried.dialsFor? u = some cell) →
    ended.isOver t = true →
      ((ended.links c).invalidated = true ∨
        ∃ u rest, ended.calls u = some (.retiring cell c.number rest)) ∧
      ((∀ u, .spawn u .close ∉ before ++ mid ++ between) → (ended.links c).invalidated = true) ∧
      ∀ u, ended.found? u = none → (ended.run after).found? u ≠ some (.ok c) := by
  intro begun tried ended hready hcell hcached htrying hheld hover
  have hsound : begun.Sound := (sound_initial settings).run before
  have hdoomed : begun.Doomed cell c := by
    obtain ⟨rfl, hlisted⟩ := cell?_eq_some.1 hcell
    obtain ⟨hpool, hin⟩ := cached?_eq_some.1 hcached
    refine ⟨hsound.placed.listed _ _ hlisted, ?_, Or.inl hcached⟩
    rw [hpool]
    exact hsound.placed.cached _ _ hin
  have hsoundTried : tried.Sound := (hsound.step _).run mid
  have hdoomedTried : tried.Doomed cell c := (hdoomed.step hsound _).run (hsound.step _) mid
  -- whatever happens while the invalidation passes its last section, it ends with `c` removed
  have hdropping : ended.Dropping t cell c :=
    (dropping_of_try hdoomedTried hsoundTried htrying hheld).run (hdoomedTried.step hsoundTried _)
      (hsoundTried.step _) between
  have hdoomedEnded : ended.Doomed cell c :=
    (hdoomedTried.step hsoundTried _).run (hsoundTried.step _) between
  have hgone : ended.Gone cell c := by
    refine ⟨hdoomedEnded.linkMade, ?_⟩
    rcases hdropping with hdropping | ⟨-, hremoved⟩
    · rw [isOver, hdropping] at hover
      cases hover
    · exact hremoved
  have hretired : (ended.links c).invalidated = true ∨
      ∃ u rest, ended.calls u = some (.retiring cell c.number rest) := by
    rcases hgone.removed with hgone | ⟨⟨u, stage, hu, hretires⟩, -⟩
    · exact Or.inl hgone
    · cases hretires
      exact Or.inr ⟨u, _, hu⟩
  refine ⟨hretired, fun hopen => hretired.resolve_right ?_, fun u hnone hfound => ?_⟩
  · rintro ⟨u, rest, hu⟩
    simp only [List.mem_append, not_or] at hopen
    have hbegun : begun.Unclosed := (unclosed_initial settings).run fun v => (hopen v).1.1
    have hproceed : ∀ v, ConnectionEvent.proceed t ≠ .spawn v .close := nofun
    have htried : tried.Unclosed := (hbegun.step hproceed).run fun v => (hopen v).1.2
    have hended : ended.Unclosed := (htried.step hproceed).run fun v => (hopen v).2
    cases (hended u _ hu).1
  · rw [hgone.run after hfound] at hnone
    cases hnone

/-- A look-up dials, a second one waits behind it, and the dial succeeds: the lock is handed to the
second before it runs. -/
def handedOnRun : List ConnectionEvent :=
  [.spawn 0 (.lookUp "orders"), .proceed 0, .proceed 0, .proceed 0, .spawn 1 (.lookUp "orders"),
    .proceed 1, .proceed 1, .dialed 0 (.ok ()), .spawn 2 (.invalidate "orders")]

/-- After the second look-up has read the cell as well, the invalidation drops the connection, and
the next look-up dials another. -/
theorem invalidation_lasts_after_readers :
    let before := handedOnRun ++ [.proceed 1]
    let begun := ({ settings := ordersSettings } : Connections).run before
    let tried := begun.step (.proceed 2)
    let ended := (tried.step (.proceed 2)).run [.proceed 2]
    let after : List ConnectionEvent :=
      [.spawn 3 (.lookUp "orders"), .proceed 3, .proceed 3, .proceed 3, .dialed 3 (.ok ())]
    begun.cached? ⟨"orders", 0⟩ = some ⟨"orders", 0⟩ ∧ ended.isOver 2 = true ∧
      (ended.links ⟨"orders", 0⟩).invalidated = true ∧
      (ended.run after).found? 3 = some (.ok ⟨"orders", 1⟩) ∧
      (ended.run after).found? 3 ≠ some (.ok ⟨"orders", 0⟩) := by
  intro before begun tried ended after
  have hcached : begun.cached? ⟨"orders", 0⟩ = some ⟨"orders", 0⟩ := by decide +kernel
  have hover : ended.isOver 2 = true := by decide +kernel
  have hfree : (tried.cells ⟨"orders", 0⟩).lock.holder = none := by decide +kernel
  obtain ⟨-, hopen, hnever⟩ := invalidation_lasts ordersSettings before [] [.proceed 2] after 2
    "orders" ⟨"orders", 0⟩ ⟨"orders", 0⟩ rfl (by decide +kernel) hcached rfl
    (fun u hu => by cases hfree.symm.trans hu) hover
  have hgone := hopen (by simp [before, handedOnRun])
  exact ⟨hcached, hover, hgone, by decide +kernel, hnever 3 (by decide +kernel)⟩

/-- An invalidation that comes while the lock is handed to a look-up that only reads the cell does
nothing: the connection is not invalidated, and the look-up ends afterwards and returns it. -/
theorem invalidation_lost_to_reader :
    ¬ ∀ (settings : Settings) (before between after : List ConnectionEvent) (t u : TaskId)
        (pool : String) (cell : CellId) (c : ConnectionId),
      let begun := ({ settings } : Connections).run before
      let ended := begun.run between
      (∀ v, .spawn v .close ∉ before ++ between ++ after) →
      begun.calls t = some (.ready (.invalidate pool)) →
      begun.cell? pool = some cell →
      begun.cached? cell = some c →
      (∀ v, begun.dialsFor? v = none) →
      ended.isOver t = true →
        (ended.links c).invalidated = true ∨
          (ended.found? u = none → (ended.run after).found? u ≠ some (.ok c)) := by
  intro h
  let begun := ({ settings := ordersSettings } : Connections).run handedOnRun
  have hquiet : ∀ v, begun.dialsFor? v = none := by
    intro v
    match v with
    | 0 | 1 | 2 => decide +kernel
    | w + 3 =>
        have hcalls : begun.calls (w + 3) = none :=
          calls_run_eq_none.2 ⟨rfl, by simp [handedOnRun]⟩
        rw [dialsFor?, hcalls, Option.bind_none]
  have hlost := h ordersSettings handedOnRun [.proceed 2, .proceed 2] [.proceed 1] 2 1 "orders"
    ⟨"orders", 0⟩ ⟨"orders", 0⟩ (by simp [handedOnRun]) rfl (by decide +kernel) (by decide +kernel)
    hquiet (by decide +kernel)
  rcases hlost with hgone | hnever
  · exact absurd hgone (by decide +kernel)
  · exact hnever (by decide +kernel) (by decide +kernel)

end Connections

end AmqpDelivery
