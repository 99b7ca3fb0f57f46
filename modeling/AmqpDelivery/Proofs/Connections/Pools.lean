import AmqpDelivery.Proofs.Connections.Sharing

/-!
# Pools do not touch each other

Deleting the events of all pools but one from a run, without closing, leaves a run again, and the
connections then stand as the pool's part of them did (`Connections.partOf_run`): no call on the
pool has gone another way, and cells and connections of the pool are the same. A call on the pool
that cannot go on waits for the pool's own dial, or for the lock of one of its cells, which another
call on the pool has (`Connections.pools_apart`).
-/

namespace AmqpDelivery

section Confine

variable {α β κ : Type} [DecidableEq κ]

/-- The function that agrees with `f` where the key is `k` and has the value `b` elsewhere. -/
def confine (key : α → κ) (k : κ) (f : α → β) (b : β) : α → β :=
  fun x => if key x = k then f x else b

variable {key : α → κ} {k : κ} {f : α → β} {a : α} {b d : β}

theorem confine_of (h : key a = k) : confine key k f d a = f a := if_pos h

theorem confine_assign_of [DecidableEq α] (h : key a = k) :
    confine key k (assign f a b) d = assign (confine key k f d) a b := by
  funext x
  by_cases hx : x = a
  · rw [hx, confine_of h, assign_self, assign_self]
  · rw [assign_of_ne hx, confine, confine, assign_of_ne hx]

theorem confine_assign_of_ne [DecidableEq α] (h : key a ≠ k) :
    confine key k (assign f a b) d = confine key k f d := by
  funext x
  by_cases hx : x = a
  · rw [hx, confine, confine, if_neg h, if_neg h]
  · rw [confine, confine, assign_of_ne hx]

end Confine

namespace Keyed

variable {α : Type} (table : Keyed α) {key other : String} {value : α}

/-- The table with the entry of one key only. -/
def only (key : String) : Keyed α :=
  match table.get? key with
  | some value => empty.insert key value
  | none => empty

theorem get?_only : (table.only key).get? key = table.get? key := by
  unfold only
  split
  · next value hvalue => rw [hvalue, get?_insert, if_pos rfl]
  · next hnone => rw [hnone, get?_empty]

theorem only_insert_self : (table.insert key value).only key = empty.insert key value := by
  rw [only, get?_insert, if_pos rfl]

theorem only_insert_of_ne (h : other ≠ key) :
    (table.insert other value).only key = table.only key := by
  rw [only, get?_insert, if_neg h.symm, only]

theorem only_of_none (h : table.get? key = none) : table.only key = empty := by
  rw [only, h]

end Keyed

/-- The pool that a call is about. -/
def ConnectionCall.pool? : ConnectionCall → Option String
  | .lookUp pool | .invalidate pool => some pool
  | .close => none

/-- The pool that an event is about, the tasks having asked for the pools `asked`. -/
def ConnectionEvent.pool? (asked : TaskId → Option String) : ConnectionEvent → Option String
  | .spawn t _ | .proceed t | .dialed t _ | .rested t | .drop t => asked t
  | .hangUp c | .discard c => some c.pool

/-- The call is one on the pool, and has no cell of another. -/
def ConnectionStage.IsOn (pool : String) : ConnectionStage → Prop
  | .ready call => call.pool? = some pool
  | .arriving cell | .waiting cell | .dialing cell _ | .pausing cell _ _ | .trying cell
  | .dropping cell => cell.pool = pool
  | .sweeping _ | .taking _ _ | .retiring _ _ _ | .severing _ _ => False
  | .found _ | .finished | .dropped => True

namespace Connections

/-- The pool that a task asks for. -/
def poolOf? (events : List ConnectionEvent) (t : TaskId) : Option String :=
  (callOf? events t).bind ConnectionCall.pool?

/-- The events that are about one pool, the tasks having asked for the pools `asked`. -/
def eventsOf (asked : TaskId → Option String) (events : List ConnectionEvent) (pool : String) :
    List ConnectionEvent :=
  events.filter fun ev => ev.pool? asked = some pool

/-- The event can happen. -/
def admits (s : Connections) : ConnectionEvent → Bool
  | .spawn t _ => (s.calls t).isNone
  | .proceed t => s.canProceed t
  | .dialed t _ =>
      match s.calls t with
      | some (.dialing _ _) => true
      | _ => false
  | .rested t =>
      match s.calls t with
      | some (.pausing _ _ _) => true
      | _ => false
  | .drop t =>
      match s.calls t with
      | some (.ready _) | some (.waiting _) | some (.dialing _ _) | some (.pausing _ _ _) => true
      | _ => false
  | .hangUp c => (s.links c).up
  | .discard c => decide (c.number < s.linksMade c.pool)

/-- Every event can happen when its turn comes. -/
def admitsRun (s : Connections) : List ConnectionEvent → Bool
  | [] => true
  | ev :: rest => s.admits ev && (s.step ev).admitsRun rest

/-- The connections with the cells, the connections and the calls of one pool, and apart from these
as at the beginning. -/
def partOf (s : Connections) (asked : TaskId → Option String) (q : String) : Connections where
  settings := s.settings
  directory := s.directory.only q
  cells := confine CellId.pool q s.cells {}
  cellsMade := confine id q s.cellsMade 0
  links := confine ConnectionId.pool q s.links { up := false }
  linksMade := confine id q s.linksMade 0
  calls := confine asked (some q) s.calls none

/-- Every call is one on the pool that its task asks for. -/
def Homed (s : Connections) (asked : TaskId → Option String) : Prop :=
  ∀ t stage, s.calls t = some stage → ∃ pool, asked t = some pool ∧ stage.IsOn pool

section PartOf

variable (s : Connections) (asked : TaskId → Option String) {q : String} {t : TaskId}
  {cell : CellId} {c : ConnectionId}

theorem calls_partOf (h : asked t = some q) : (s.partOf asked q).calls t = s.calls t :=
  confine_of h

theorem cells_partOf (h : cell.pool = q) : (s.partOf asked q).cells cell = s.cells cell :=
  confine_of h

theorem links_partOf (h : c.pool = q) : (s.partOf asked q).links c = s.links c := confine_of h

theorem cellsMade_partOf : (s.partOf asked q).cellsMade q = s.cellsMade q := confine_of rfl

theorem linksMade_partOf : (s.partOf asked q).linksMade q = s.linksMade q := confine_of rfl

theorem cell?_partOf : (s.partOf asked q).cell? q = s.cell? q :=
  congrArg (Option.map (CellId.mk q)) s.directory.get?_only

theorem cached?_partOf (h : cell.pool = q) : (s.partOf asked q).cached? cell = s.cached? cell := by
  rw [cached?, s.cells_partOf asked h, cached?]

theorem liveCached?_partOf (h : cell.pool = q) :
    (s.partOf asked q).liveCached? cell = s.liveCached? cell := by
  rw [liveCached?, liveCached?, s.cached?_partOf asked h]
  cases hcached : s.cached? cell with
  | none => rfl
  | some c =>
      have hpool : c.pool = q := (cached?_eq_some.1 hcached).1.trans h
      rw [Option.filter_some, Option.filter_some, s.links_partOf asked hpool]

theorem partOf_goto (h : asked t = some q) (stage : ConnectionStage) :
    (s.goto t stage).partOf asked q = (s.partOf asked q).goto t stage := by
  simp only [partOf, goto, confine_assign_of h]

theorem partOf_goto_of_ne (h : asked t ≠ some q) (stage : ConnectionStage) :
    (s.goto t stage).partOf asked q = s.partOf asked q := by
  simp only [partOf, goto, confine_assign_of_ne h]

theorem partOf_modifyCell (h : cell.pool = q) (f : Cell → Cell) :
    (s.modifyCell cell f).partOf asked q = (s.partOf asked q).modifyCell cell f := by
  rw [modifyCell, modifyCell, s.cells_partOf asked h]
  simp only [partOf, confine_assign_of h]

theorem partOf_modifyCell_of_ne (h : cell.pool ≠ q) (f : Cell → Cell) :
    (s.modifyCell cell f).partOf asked q = s.partOf asked q := by
  simp only [partOf, modifyCell, confine_assign_of_ne h]

theorem partOf_modifyLock (h : cell.pool = q) (f : FairLock → FairLock) :
    (s.modifyLock cell f).partOf asked q = (s.partOf asked q).modifyLock cell f :=
  s.partOf_modifyCell asked h _

theorem partOf_modifyLock_of_ne (h : cell.pool ≠ q) (f : FairLock → FairLock) :
    (s.modifyLock cell f).partOf asked q = s.partOf asked q :=
  s.partOf_modifyCell_of_ne asked h _

theorem partOf_modifyLink (h : c.pool = q) (f : Link → Link) :
    (s.modifyLink c f).partOf asked q = (s.partOf asked q).modifyLink c f := by
  rw [modifyLink, modifyLink, s.links_partOf asked h]
  simp only [partOf, confine_assign_of h]

theorem partOf_modifyLink_of_ne (h : c.pool ≠ q) (f : Link → Link) :
    (s.modifyLink c f).partOf asked q = s.partOf asked q := by
  simp only [partOf, modifyLink, confine_assign_of_ne h]

theorem partOf_discardCached (h : cell.pool = q) :
    (s.discardCached cell).partOf asked q = (s.partOf asked q).discardCached cell := by
  rw [discardCached, discardCached, s.cached?_partOf asked h]
  cases hcached : s.cached? cell with
  | none => rfl
  | some c =>
      have hpool : c.pool = q := (cached?_eq_some.1 hcached).1.trans h
      show ((s.invalidateLink c).emptyCell cell).partOf asked q = _
      rw [emptyCell, partOf_modifyCell _ asked h, invalidateLink, s.partOf_modifyLink asked hpool]
      rfl

theorem partOf_discardCached_of_ne (h : cell.pool ≠ q) :
    (s.discardCached cell).partOf asked q = s.partOf asked q := by
  unfold discardCached
  split
  · next c hcached =>
    have hpool : c.pool ≠ q := (cached?_eq_some.1 hcached).1.symm ▸ h
    rw [emptyCell, partOf_modifyCell_of_ne _ asked h, invalidateLink,
      s.partOf_modifyLink_of_ne asked hpool]
  · rfl

theorem partOf_makeCell (h : s.directory.get? q = none) :
    (s.makeCell q).partOf asked q = (s.partOf asked q).makeCell q := by
  have hnumber : (s.partOf asked q).cellsMade q = s.cellsMade q := s.cellsMade_partOf asked
  have hcell : CellId.pool ⟨q, s.cellsMade q⟩ = q := rfl
  have hpool : id q = q := rfl
  rw [makeCell, makeCell, hnumber]
  simp only [partOf, Keyed.only_insert_self, Keyed.only_of_none _ h, confine_assign_of hcell,
    confine_assign_of hpool]

theorem partOf_makeCell_of_ne {pool : String} (h : pool ≠ q) :
    (s.makeCell pool).partOf asked q = s.partOf asked q := by
  have hcell : CellId.pool ⟨pool, s.cellsMade pool⟩ ≠ q := h
  have hpool : id pool ≠ q := h
  simp only [partOf, makeCell, Keyed.only_insert_of_ne _ h, confine_assign_of_ne hcell,
    confine_assign_of_ne hpool]

theorem partOf_fileLink (h : cell.pool = q) :
    (s.fileLink cell).partOf asked q = (s.partOf asked q).fileLink cell := by
  have hlink : ConnectionId.pool ⟨cell.pool, s.linksMade cell.pool⟩ = q := h
  have hpool : id cell.pool = q := h
  have hnumber : (s.partOf asked q).linksMade cell.pool = s.linksMade cell.pool := confine_of h
  rw [fileLink, fileLink, partOf_modifyCell _ asked h, hnumber]
  simp only [partOf, confine_assign_of hlink, confine_assign_of hpool]

theorem partOf_fileLink_of_ne (h : cell.pool ≠ q) :
    (s.fileLink cell).partOf asked q = s.partOf asked q := by
  have hlink : ConnectionId.pool ⟨cell.pool, s.linksMade cell.pool⟩ ≠ q := h
  have hpool : id cell.pool ≠ q := h
  rw [fileLink, partOf_modifyCell_of_ne _ asked h]
  simp only [partOf, confine_assign_of_ne hlink, confine_assign_of_ne hpool]

end PartOf

section Steps

variable {s s' : Connections} {asked : TaskId → Option String} {q pool : String} {t u : TaskId}
  {stage next : ConnectionStage} {cell : CellId}

theorem partOf_conclude (ht : asked t = some q) (h : cell.pool = q)
    (result : Except Failure ConnectionId) :
    (s.conclude t cell result).partOf asked q = (s.partOf asked q).conclude t cell result := by
  rw [conclude, partOf_goto _ asked ht, s.partOf_modifyLock asked h, conclude]

theorem partOf_cellOf (s : Connections) (asked : TaskId → Option String) (q : String) :
    (s.partOf asked q).cellOf q = ((s.cellOf q).1.partOf asked q, (s.cellOf q).2) := by
  rw [cellOf, cellOf, s.cell?_partOf asked]
  cases hcell : s.cell? q with
  | some cell => rfl
  | none =>
      have hmade := s.partOf_makeCell asked (Option.map_eq_none_iff.1 hcell)
      show ((s.partOf asked q).makeCell q, _) = ((s.makeCell q).partOf asked q, _)
      rw [hmade, s.cellsMade_partOf asked]

theorem partOf_start (ht : asked t = some q) {call : ConnectionCall} (h : call.pool? = some q) :
    (s.start t call).partOf asked q = (s.partOf asked q).start t call := by
  cases call with
  | lookUp pool =>
      cases h
      have hbroker : (s.partOf asked q).settings.broker q = s.settings.broker q := rfl
      simp only [start, hbroker]
      cases s.settings.broker q with
      | error f => exact s.partOf_goto asked ht _
      | ok broker =>
          simp only [partOf_cellOf]
          exact partOf_goto _ asked ht _
  | invalidate pool =>
      cases h
      simp only [start, s.cell?_partOf asked]
      cases s.cell? q with
      | some cell => exact s.partOf_goto asked ht _
      | none => exact s.partOf_goto asked ht _
  | close => cases h

theorem partOf_look (ht : asked t = some q) (h : cell.pool = q) :
    (s.look t cell).partOf asked q = (s.partOf asked q).look t cell := by
  rw [look, look, s.liveCached?_partOf asked h]
  cases s.liveCached? cell with
  | some c => exact partOf_conclude ht h _
  | none =>
      show ((s.discardCached cell).goto t _).partOf asked q = _
      rw [partOf_goto _ asked ht, s.partOf_discardCached asked h]

theorem partOf_proceed (ht : asked t = some q) (h : stage.IsOn q) :
    (s.proceed t stage).partOf asked q = (s.partOf asked q).proceed t stage := by
  cases stage with
  | ready call => exact partOf_start ht h
  | arriving cell =>
      simp only [proceed]
      rw [partOf_goto _ asked ht, s.partOf_modifyLock asked h]
  | waiting cell =>
      simp only [proceed, s.cells_partOf asked h]
      split
      · exact partOf_look ht h
      · rfl
  | trying cell =>
      simp only [proceed, s.cells_partOf asked h]
      split
      · rw [partOf_goto _ asked ht, s.partOf_modifyLock asked h]
      · exact s.partOf_goto asked ht _
  | dropping cell =>
      simp only [proceed]
      rw [partOf_goto _ asked ht, partOf_modifyLock _ asked h, s.partOf_discardCached asked h]
  | sweeping cells => exact h.elim
  | taking cell rest => exact h.elim
  | retiring cell number rest => exact h.elim
  | severing c rest => exact h.elim
  | _ => rfl

theorem partOf_dialed (ht : asked t = some q) (h : stage.IsOn q) (result : Except String Unit) :
    (s.dialed t result stage).partOf asked q = (s.partOf asked q).dialed t result stage := by
  cases stage with
  | dialing cell failures =>
      cases result with
      | ok u =>
          have hnumber : (s.partOf asked q).linksMade cell.pool = s.linksMade cell.pool :=
            confine_of h
          simp only [dialed, establish, hnumber]
          show ((s.fileLink cell).conclude t cell _).partOf asked q = _
          rw [partOf_conclude ht h, s.partOf_fileLink asked h, fileLink, hnumber]
      | error text =>
          have hsame : (s.partOf asked q).reconnectOf cell.pool = s.reconnectOf cell.pool := rfl
          simp only [dialed, hsame]
          split
          · exact partOf_conclude ht h _
          · exact s.partOf_goto asked ht _
  | _ => rfl

theorem partOf_rested (ht : asked t = some q) :
    (s.rested t stage).partOf asked q = (s.partOf asked q).rested t stage := by
  cases stage with
  | pausing cell failures ms => exact s.partOf_goto asked ht _
  | _ => rfl

theorem partOf_drop (ht : asked t = some q) (h : stage.IsOn q) :
    (s.drop t stage).partOf asked q = (s.partOf asked q).drop t stage := by
  cases stage with
  | ready call => exact s.partOf_goto asked ht _
  | waiting cell | dialing cell n | pausing cell n ms =>
      simp only [drop]
      rw [partOf_goto _ asked ht, s.partOf_modifyLock asked h]
  | _ => rfl

theorem partOf_act (ht : asked t = some q) {f g : ConnectionStage → Connections}
    (h : ∀ stage, s.calls t = some stage → (f stage).partOf asked q = g stage) :
    (s.act t f).partOf asked q = (s.partOf asked q).act t g := by
  unfold act
  rw [s.calls_partOf asked ht]
  cases hstage : s.calls t with
  | none => rfl
  | some stage => exact h stage hstage

/-- A call that its task has asked for is on the pool. -/
theorem Homed.isOn (h : s.Homed asked) (ht : asked t = some q) (hstage : s.calls t = some stage) :
    stage.IsOn q := by
  obtain ⟨pool, hpool, hon⟩ := h t stage hstage
  cases ht.symm.trans hpool
  exact hon

/-- An event of the pool does to the pool's part what it does to the whole. -/
theorem partOf_step (h : s.Homed asked) {ev : ConnectionEvent} (hev : ev.pool? asked = some q) :
    (s.step ev).partOf asked q = (s.partOf asked q).step ev := by
  cases ev with
  | spawn t call =>
      simp only [step, s.calls_partOf asked hev]
      split
      · exact s.partOf_goto asked hev _
      · rfl
  | proceed t =>
      exact partOf_act hev fun stage hstage => partOf_proceed hev (h.isOn hev hstage)
  | dialed t result =>
      exact partOf_act hev fun stage hstage => partOf_dialed hev (h.isOn hev hstage) result
  | rested t => exact partOf_act hev fun stage _ => partOf_rested hev
  | drop t => exact partOf_act hev fun stage hstage => partOf_drop hev (h.isOn hev hstage)
  | hangUp c => exact s.partOf_modifyLink asked (Option.some.inj hev) _
  | discard c => exact s.partOf_modifyLink asked (Option.some.inj hev) _

/-- A call on another pool leaves no mark on the part of this one. -/
theorem Moves.partOf_eq (h : s.Moves t stage s' next) (hon : stage.IsOn pool) (hne : pool ≠ q) :
    s'.partOf asked q = s.partOf asked q := by
  rcases h with h | h
  · cases h with
    | makes hnone =>
        cases hon
        exact s.partOf_makeCell_of_ne asked hne
    | queues | finds | takes =>
        cases hon
        exact s.partOf_modifyLock_of_ne asked hne _
    | dials =>
        cases hon
        exact s.partOf_discardCached_of_ne asked hne
    | drops =>
        cases hon
        rw [partOf_modifyLock_of_ne _ asked hne, s.partOf_discardCached_of_ne asked hne]
    | empties => cases hon
    | reaches | clears | retires | severs => exact hon.elim
    | _ => rfl
  · cases h with
    | connects =>
        cases hon
        rw [partOf_modifyLock_of_ne _ asked hne, s.partOf_fileLink_of_ne asked hne]
    | givesUp =>
        cases hon
        exact s.partOf_modifyLock_of_ne asked hne _
    | leaves hwhere =>
        rcases hwhere with rfl | ⟨n, rfl⟩ | ⟨n, ms, rfl⟩ <;>
          (cases hon; exact s.partOf_modifyLock_of_ne asked hne _)
    | _ => rfl

theorem partOf_act_of_ne (h : s.Homed asked) (ht : asked t ≠ some q)
    {f : ConnectionStage → Connections}
    (hf : ∀ stage, f stage = s ∨ ∃ s' next, f stage = s'.goto t next ∧ s.Moves t stage s' next) :
    (s.act t f).partOf asked q = s.partOf asked q := by
  unfold act
  cases hstage : s.calls t with
  | none => rfl
  | some stage =>
      obtain ⟨pool, hpool, hon⟩ := h t stage hstage
      have hne : pool ≠ q := by
        rintro rfl
        exact ht hpool
      show (f stage).partOf asked q = s.partOf asked q
      rcases hf stage with hsame | ⟨s', next, hnext, hmoves⟩
      · rw [hsame]
      · rw [hnext, partOf_goto_of_ne _ asked ht, hmoves.partOf_eq hon hne]

/-- Every answer is a move. -/
theorem moves_of_answered {f : Connections}
    (h : f = s ∨ ∃ s' next, f = s'.goto t next ∧ s.Answered t stage s' next) :
    f = s ∨ ∃ s' next, f = s'.goto t next ∧ s.Moves t stage s' next :=
  h.imp_right fun ⟨s', next, hnext, hanswered⟩ => ⟨s', next, hnext, Or.inr hanswered⟩

theorem moves_of_proceed (s : Connections) (t : TaskId) (stage : ConnectionStage) :
    s.proceed t stage = s ∨
      ∃ s' next, s.proceed t stage = s'.goto t next ∧ s.Moves t stage s' next :=
  (s.proceed_passes t stage).imp_right fun ⟨s', next, hnext, hpasses⟩ =>
    ⟨s', next, hnext, Or.inl hpasses⟩

/-- An event of another pool leaves the part of this one as it is. -/
theorem partOf_step_of_ne (h : s.Homed asked) {ev : ConnectionEvent}
    (hev : ev.pool? asked ≠ some q) : (s.step ev).partOf asked q = s.partOf asked q := by
  cases ev with
  | spawn t call =>
      simp only [step]
      split
      · exact s.partOf_goto_of_ne asked hev _
      · rfl
  | proceed t => exact partOf_act_of_ne h hev (s.moves_of_proceed t)
  | dialed t result =>
      exact partOf_act_of_ne h hev fun stage => moves_of_answered (s.dialed_answered t result stage)
  | rested t =>
      exact partOf_act_of_ne h hev fun stage => moves_of_answered (s.rested_answered t stage)
  | drop t =>
      exact partOf_act_of_ne h hev fun stage => moves_of_answered (s.drop_answered t stage)
  | hangUp c => exact s.partOf_modifyLink_of_ne asked (fun heq => hev (congrArg some heq)) _
  | discard c => exact s.partOf_modifyLink_of_ne asked (fun heq => hev (congrArg some heq)) _

/-- A call on a pool stays one. -/
theorem Moves.isOn (h : s.Moves t stage s' next) (hon : stage.IsOn pool) : next.IsOn pool := by
  rcases h with h | h
  · cases h with
    | arrives hcell | seeks hcell =>
        cases hon
        exact (cell?_eq_some.1 hcell).1
    | makes hnone =>
        cases hon
        rfl
    | empties => cases hon
    | ends | reaches | overlooks | clears | retires | severs => exact hon.elim
    | refuses | misses | finds | skips | drops => trivial
    | queues | dials | takes => exact hon
  · cases h with
    | pauses | resumes => exact hon
    | connects | givesUp | leavesEarly | leaves => trivial

theorem Homed.moves (h : s.Homed asked) (hstage : s.calls t = some stage)
    (hmoves : s.Moves t stage s' next) : (s'.goto t next).Homed asked := by
  intro u stage' hu
  rcases hmoves.calls_eq hu with ⟨rfl, rfl⟩ | ⟨-, hu⟩
  · obtain ⟨pool, hpool, hon⟩ := h u stage hstage
    exact ⟨pool, hpool, hmoves.isOn hon⟩
  · exact h u stage' hu

theorem Homed.step (h : s.Homed asked) {ev : ConnectionEvent}
    (hspawn : ∀ t call, ev = .spawn t call → s.calls t = none →
      ∃ pool, asked t = some pool ∧ call.pool? = some pool) : (s.step ev).Homed asked := by
  have hchange := s.step_change ev
  generalize s.step ev = s' at hchange
  cases hchange with
  | stays => exact h
  | @begins t call hfree =>
      intro u stage hu
      rcases calls_goto_eq_some hu with ⟨rfl, rfl⟩ | ⟨-, hu⟩
      · exact hspawn u call rfl hfree
      · exact h u stage hu
  | passes hstage hpasses => exact h.moves hstage (Or.inl hpasses)
  | answered hstage hanswered => exact h.moves hstage (Or.inr hanswered)
  | hangsUp c => exact h
  | discards c => exact h

theorem canProceed_partOf (h : s.Homed asked) (ht : asked t = some q) :
    (s.partOf asked q).canProceed t = s.canProceed t := by
  unfold canProceed
  rw [s.calls_partOf asked ht]
  cases hstage : s.calls t with
  | none => rfl
  | some stage =>
      cases stage with
      | waiting cell =>
          have hcell : cell.pool = q := h.isOn ht hstage
          simp only [s.cells_partOf asked hcell]
      | _ => rfl

/-- Whether an event of the pool can happen shows in the pool's part. -/
theorem admits_partOf (h : s.Homed asked) {ev : ConnectionEvent} (hev : ev.pool? asked = some q) :
    (s.partOf asked q).admits ev = s.admits ev := by
  cases ev with
  | spawn t call => simp only [admits, s.calls_partOf asked hev]
  | proceed t => exact canProceed_partOf h hev
  | dialed t result => simp only [admits, s.calls_partOf asked hev]
  | rested t => simp only [admits, s.calls_partOf asked hev]
  | drop t => simp only [admits, s.calls_partOf asked hev]
  | hangUp c => simp only [admits, s.links_partOf asked (Option.some.inj hev)]
  | discard c =>
      have hmade : (s.partOf asked q).linksMade c.pool = s.linksMade c.pool :=
        confine_of (Option.some.inj hev)
      simp only [admits, hmade]

end Steps

section Run

variable {settings : Settings} {events before : List ConnectionEvent} {q : String}

/-- Every call is on the pool that its task asks for in the events, at any time. -/
theorem homed_run (hopen : ∀ t, .spawn t .close ∉ events) (hbefore : before <+: events) :
    (({ settings } : Connections).run before).Homed (poolOf? events) := by
  induction before using List.reverseRecOn with
  | nil => rintro t stage ⟨⟩
  | append_singleton before ev ih =>
      have hshorter : before <+: events := (List.prefix_append before [ev]).trans hbefore
      rw [run_append]
      apply (ih hshorter).step
      rintro t call rfl hfree
      -- the task has not asked before, so this is its call
      have hnone : callOf? before t = none := (asked_run settings before).idle t hfree
      have hcall : callOf? events t = some call := by
        obtain ⟨rest, rfl⟩ := hbefore
        rw [List.append_assoc, callOf?_append_of_none hnone]
        exact callOf?_append (callOf?_spawn t call) rest
      have hpool : poolOf? events t = call.pool? := congrArg (Option.bind · _) hcall
      cases call with
      | lookUp pool => exact ⟨pool, hpool, rfl⟩
      | invalidate pool => exact ⟨pool, hpool, rfl⟩
      | close =>
          have hmem : .spawn t .close ∈ before ++ [.spawn t .close] :=
            List.mem_append_right _ List.mem_cons_self
          exact absurd (hbefore.subset hmem) (hopen t)

theorem partOf_initial (settings : Settings) (asked : TaskId → Option String) (q : String) :
    ({ settings } : Connections).partOf asked q = { settings } := by
  have hconst : ∀ {α β κ : Type} [DecidableEq κ] (key : α → κ) (k : κ) (b : β),
      confine key k (fun _ => b) b = fun _ => b := by
    intro α β κ _ key k b
    funext x
    exact ite_self b
  simp only [partOf, hconst]
  rfl

theorem eventsOf_append (asked : TaskId → Option String) (ev : ConnectionEvent) :
    eventsOf asked (before ++ [ev]) q =
      eventsOf asked before q ++ if ev.pool? asked = some q then [ev] else [] := by
  rw [eventsOf, List.filter_append, eventsOf]
  congr 1
  by_cases hev : ev.pool? asked = some q
  · rw [if_pos hev]
    exact List.filter_cons_of_pos (decide_eq_true hev)
  · rw [if_neg hev]
    exact List.filter_cons_of_neg (by simpa using hev)

/-- The pool's part of a run is the run of the pool's events. -/
theorem partOf_run (hopen : ∀ t, .spawn t .close ∉ events) (hbefore : before <+: events) :
    (({ settings } : Connections).run before).partOf (poolOf? events) q =
      ({ settings } : Connections).run (eventsOf (poolOf? events) before q) := by
  induction before using List.reverseRecOn with
  | nil => exact partOf_initial settings _ q
  | append_singleton before ev ih =>
      have hshorter : before <+: events := (List.prefix_append before [ev]).trans hbefore
      have hhomed : (({ settings } : Connections).run before).Homed (poolOf? events) :=
        homed_run hopen hshorter
      rw [run_append, eventsOf_append, run_append, ← ih hshorter]
      by_cases hev : ev.pool? (poolOf? events) = some q
      · rw [if_pos hev]
        exact partOf_step hhomed hev
      · rw [if_neg hev]
        exact partOf_step_of_ne hhomed hev

theorem admitsRun_append (s : Connections) (events more : List ConnectionEvent) :
    s.admitsRun (events ++ more) = (s.admitsRun events && (s.run events).admitsRun more) := by
  induction events generalizing s with
  | nil => rfl
  | cons ev rest ih =>
      show (s.admits ev && (s.step ev).admitsRun (rest ++ more)) = _
      rw [ih, ← Bool.and_assoc]
      rfl

/-- What is left of a run once the events of the other pools are deleted can happen as well. -/
theorem admitsRun_eventsOf (hopen : ∀ t, .spawn t .close ∉ events) (hbefore : before <+: events)
    (hruns : ({ settings } : Connections).admitsRun before = true) :
    ({ settings } : Connections).admitsRun (eventsOf (poolOf? events) before q) = true := by
  induction before using List.reverseRecOn with
  | nil => rfl
  | append_singleton before ev ih =>
      have hshorter : before <+: events := (List.prefix_append before [ev]).trans hbefore
      rw [admitsRun_append, Bool.and_eq_true] at hruns
      obtain ⟨hruns, hnow⟩ := hruns
      rw [eventsOf_append, admitsRun_append, ih hshorter hruns, Bool.true_and]
      by_cases hev : ev.pool? (poolOf? events) = some q
      · rw [if_pos hev, ← partOf_run hopen hshorter]
        have hadmits : (({ settings } : Connections).run before).admits ev = true :=
          (Bool.and_eq_true_iff.1 hnow).1
        show (Connections.admits _ ev && true) = true
        rw [Bool.and_true, admits_partOf (homed_run hopen hshorter) hev]
        exact hadmits
      · rw [if_neg hev]
        rfl

end Run

section HeldUp

variable {s s' : Connections} {asked : TaskId → Option String} {q : String} {t : TaskId}
  {stage next : ConnectionStage}

/-- Nobody is in line for a lock that is free. -/
def Prompt (s : Connections) : Prop := ∀ cell, (s.cells cell).lock.Prompt

/-- A call waits at a cell of the pool: for its own dial, or for the lock, and then all who are at
the lock are calls on the pool, and the one that has it dials or can go on. -/
def HeldUpAt (s : Connections) (asked : TaskId → Option String) (q : String) (t : TaskId) : Prop :=
  ∃ cell, cell.pool = q ∧ (s.dialsFor? t = some cell ∨
    s.calls t = some (.waiting cell) ∧
      (∀ u ∈ (s.cells cell).lock.tasks, asked u = some q) ∧
      ∃ u, (s.cells cell).lock.holder = some u ∧
        (s.dialsFor? u = some cell ∨ s.canProceed u = true))

theorem Prompt.modifyLock (h : s.Prompt) (cell : CellId) {f : FairLock → FairLock}
    (hf : (f (s.cells cell).lock).Prompt) : (s.modifyLock cell f).Prompt := by
  intro other
  by_cases heq : other = cell
  · rw [heq, lock_modifyLock_self]
    exact hf
  · rw [s.lock_modifyLock_of_ne heq]
    exact h other

theorem Prompt.of_locks (h : s.Prompt)
    (hlocks : ∀ cell, (s'.cells cell).lock = (s.cells cell).lock) : s'.Prompt := by
  intro cell
  rw [hlocks]
  exact h cell

theorem Prompt.moves (h : s.Prompt) (hmoves : s.Moves t stage s' next) :
    (s'.goto t next).Prompt := by
  have hdiscarded : ∀ cell, (s.discardCached cell).Prompt := fun cell =>
    h.of_locks fun _ => s.lock_discardCached
  have hemptied : ∀ cell, (s.emptyCell cell).Prompt := fun cell =>
    h.of_locks fun _ => s.lock_emptyCell
  have hacquired : ∀ cell, (s.modifyLock cell (FairLock.acquire · t)).Prompt := fun cell => by
    apply h.modifyLock
    exact FairLock.prompt_acquire _ t
  have hleft : ∀ cell, (s.modifyLock cell (FairLock.leave · t)).Prompt := fun cell => by
    apply h.modifyLock
    exact (h cell).leave
  rcases hmoves with hmoves | hmoves
  · cases hmoves with
    | @makes pool hnone =>
        intro cell
        by_cases heq : cell = ⟨pool, s.cellsMade pool⟩
        · rw [heq, cells_goto, cells_makeCell_self]
          exact fun _ => rfl
        · rw [cells_goto, s.cells_makeCell_of_ne heq]
          exact h cell
    | queues | takes | reaches => exact hacquired _
    | finds => exact h.modifyLock _ (FairLock.prompt_release _)
    | dials => exact hdiscarded _
    | drops => exact (hdiscarded _).modifyLock _ (FairLock.prompt_release _)
    | clears => exact (hemptied _).modifyLock _ (FairLock.prompt_release _)
    | _ => exact h
  · cases hmoves with
    | @connects cell =>
        have hfiled : (s.fileLink cell).Prompt := h.of_locks fun _ => s.lock_fileLink
        exact hfiled.modifyLock _ (FairLock.prompt_release _)
    | givesUp => exact h.modifyLock _ (FairLock.prompt_release _)
    | leaves => exact hleft _
    | _ => exact h

theorem Prompt.run (h : s.Prompt) (events : List ConnectionEvent) : (s.run events).Prompt := by
  induction events generalizing s with
  | nil => exact h
  | cons ev rest ih =>
      apply ih
      have hchange := s.step_change ev
      generalize s.step ev = s' at hchange
      cases hchange with
      | passes hstage hpasses => exact h.moves (Or.inl hpasses)
      | answered hstage hanswered => exact h.moves (Or.inr hanswered)
      | _ => exact h

/-- Whoever is at the lock of a cell is on the cell's pool. -/
theorem Homed.at_lock (h : s.Homed asked) (hlocked : s.Locked) {cell : CellId}
    (ht : t ∈ (s.cells cell).lock.tasks) : asked t = some cell.pool := by
  obtain ⟨stage, hstage, hstands⟩ := Option.bind_eq_some_iff.1 ((hlocked.present cell t).1 ht)
  obtain ⟨pool, hpool, hon⟩ := h t stage hstage
  cases stage with
  | waiting c | dialing c | pausing c | dropping c =>
      cases hstands
      cases hon
      exact hpool
  | taking c rest => exact hon.elim
  | _ => cases hstands

/-- A call on the pool that cannot go on waits for something at the pool. -/
theorem heldUpAt_of_stuck (hlocked : s.Locked) (hprompt : s.Prompt) (hhomed : s.Homed asked)
    (ht : asked t = some q) (hbegun : s.calls t ≠ none) (hover : s.isOver t = false)
    (hstuck : s.canProceed t = false) : s.HeldUpAt asked q t := by
  obtain ⟨stage, hstage⟩ := Option.ne_none_iff_exists'.1 hbegun
  have hon : stage.IsOn q := hhomed.isOn ht hstage
  rw [isOver, hstage] at hover
  rw [canProceed, hstage] at hstuck
  cases stage with
  | dialing cell n => exact ⟨cell, hon, Or.inl (by rw [dialsFor?, hstage]; rfl)⟩
  | pausing cell n ms => exact ⟨cell, hon, Or.inl (by rw [dialsFor?, hstage]; rfl)⟩
  | waiting cell =>
      have hhome : ∀ u ∈ (s.cells cell).lock.tasks, asked u = some q := fun u hu => by
        rw [hhomed.at_lock hlocked hu, hon]
      refine ⟨cell, hon, Or.inr ⟨hstage, hhome, ?_⟩⟩
      -- the task is in line, so the lock is not free
      have hin : t ∈ (s.cells cell).lock.tasks := by
        rw [hlocked.present, standsAt?_eq hstage]
        rfl
      have hheld : (s.cells cell).lock.holder ≠ none := by
        intro hfree
        rcases FairLock.mem_tasks.1 hin with hholder | hqueue
        · cases hfree.symm.trans hholder
        · rw [hprompt cell hfree] at hqueue
          cases hqueue
      obtain ⟨u, hu⟩ := Option.ne_none_iff_exists'.1 hheld
      refine ⟨u, hu, ?_⟩
      have huin : u ∈ (s.cells cell).lock.tasks := FairLock.mem_tasks.2 (Or.inl hu)
      obtain ⟨stage', hstage', hstands⟩ :=
        Option.bind_eq_some_iff.1 ((hlocked.present cell u).1 huin)
      rw [dialsFor?, canProceed, hstage']
      cases stage' with
      | waiting c =>
          cases hstands
          exact Or.inr (FairLock.isHeldBy_iff.2 hu)
      | dialing c n => exact Or.inl hstands
      | pausing c n ms => exact Or.inl hstands
      | dropping c => exact Or.inr rfl
      | taking c rest => exact Or.inr rfl
      | _ => cases hstands
  | sweeping cells => exact hon.elim
  | taking cell rest => exact hon.elim
  | retiring cell number rest => exact hon.elim
  | severing c rest => exact hon.elim
  | found result => cases hover
  | finished => cases hover
  | dropped => cases hover
  | _ => cases hstuck

end HeldUp

/-- Two states of the connections do not differ at a pool, be it in the calls of the tasks that have
asked for it or in its cells and connections. -/
structure Alike (s r : Connections) (asked : TaskId → Option String) (q : String) : Prop where
  calls : ∀ t, asked t = some q → r.calls t = s.calls t
  /-- Its look-ups have the same results. -/
  found : ∀ t, asked t = some q → r.found? t = s.found? t
  /-- The same of its calls can go on. -/
  free : ∀ t, asked t = some q → r.canProceed t = s.canProceed t
  listed : r.cell? q = s.cell? q
  cells : ∀ cell, cell.pool = q → r.cells cell = s.cells cell
  cellsMade : r.cellsMade q = s.cellsMade q
  links : ∀ c, c.pool = q → r.links c = s.links c
  linksMade : r.linksMade q = s.linksMade q

theorem alike_partOf {s : Connections} {asked : TaskId → Option String} (h : s.Homed asked)
    (q : String) : s.Alike (s.partOf asked q) asked q where
  calls _ ht := s.calls_partOf asked ht
  found t ht := by rw [found?, s.calls_partOf asked ht, found?]
  free _ ht := canProceed_partOf h ht
  listed := s.cell?_partOf asked
  cells _ hcell := s.cells_partOf asked hcell
  cellsMade := s.cellsMade_partOf asked
  links _ hc := s.links_partOf asked hc
  linksMade := s.linksMade_partOf asked

/-- Unless everything is closed, deleting the events of the other pools leaves a run in which every
call on the pool stands and ends as before, and the pool ends in the same state; and a call on the
pool never waits for anything but a call on the pool. -/
theorem pools_apart (settings : Settings) (events : List ConnectionEvent) (q : String)
    (hopen : ∀ t, .spawn t .close ∉ events) :
    let init : Connections := { settings }
    let asked := poolOf? events
    let s := init.run events
    let r := init.run (eventsOf asked events q)
    (init.admitsRun events = true → init.admitsRun (eventsOf asked events q) = true) ∧
      s.Alike r asked q ∧
      ∀ t, asked t = some q → s.isOver t = false → s.canProceed t = false →
        s.HeldUpAt asked q t := by
  intro init asked s r
  have hhomed : s.Homed asked := homed_run hopen List.prefix_rfl
  refine ⟨admitsRun_eventsOf hopen List.prefix_rfl, ?_, ?_⟩
  · have hpart : s.partOf asked q = r := partOf_run hopen List.prefix_rfl
    rw [← hpart]
    exact alike_partOf hhomed q
  · intro t ht hover hstuck
    have hbegun : s.calls t ≠ none := by
      intro hnone
      have hnever : callOf? events t = none := (asked_run settings events).idle t hnone
      have hpool : asked t = none := congrArg (Option.bind · _) hnever
      cases hpool.symm.trans ht
    have hprompt : s.Prompt := Prompt.run (s := init) (fun _ _ => rfl) events
    exact heldUpAt_of_stuck ((sound_initial settings).run events).locked hprompt hhomed ht hbegun
      hover hstuck

/-- The settings of two pools, one of which gives up dialing at the first failure. -/
def downAndOther : Settings :=
  { brokers := Keyed.ofList [("down", {}), ("other", { reconnect := { maxAttempts := 1 } })] }

/-- Dialing one pool fails, and a second look-up and an invalidation come meanwhile. The other pool
is dialed, its connection is lost, and dialing it once more fails for good. -/
def twoPoolsRun : List ConnectionEvent :=
  [.spawn 0 (.lookUp "down"), .proceed 0, .spawn 1 (.lookUp "other"), .proceed 0, .proceed 1,
    .proceed 0, .proceed 1, .spawn 2 (.lookUp "down"), .proceed 1, .proceed 2, .proceed 2,
    .dialed 1 (.ok ()), .spawn 3 (.invalidate "down"), .proceed 3, .hangUp ⟨"other", 0⟩, .proceed 3,
    .spawn 4 (.lookUp "other"), .proceed 4, .dialed 0 (.error "refused"), .proceed 4, .proceed 4,
    .dialed 4 (.error "gone")]

/-- What `twoPoolsRun` does at the other pool. -/
def otherPoolRun : List ConnectionEvent :=
  [.spawn 1 (.lookUp "other"), .proceed 1, .proceed 1, .proceed 1, .dialed 1 (.ok ()),
    .hangUp ⟨"other", 0⟩, .spawn 4 (.lookUp "other"), .proceed 4, .proceed 4, .proceed 4,
    .dialed 4 (.error "gone")]

theorem pools_apart_dialing :
    let init : Connections := { settings := downAndOther }
    let asked := poolOf? twoPoolsRun
    let s := init.run twoPoolsRun
    (∀ t, .spawn t .close ∉ twoPoolsRun) ∧ eventsOf asked twoPoolsRun "other" = otherPoolRun ∧
      init.admitsRun twoPoolsRun = true ∧ init.admitsRun otherPoolRun = true ∧
      s.Alike (init.run otherPoolRun) asked "other" ∧
      s.found? 1 = some (.ok ⟨"other", 0⟩) ∧ s.found? 4 = some (.error (.connection "gone")) ∧
      s.dialsFor? 0 = some ⟨"down", 0⟩ ∧ s.isOver 3 = true ∧ s.HeldUpAt asked "down" 2 := by
  intro init asked s
  have hopen : ∀ t, .spawn t .close ∉ twoPoolsRun := by simp [twoPoolsRun]
  have hevents : eventsOf asked twoPoolsRun "other" = otherPoolRun := rfl
  have hruns : init.admitsRun twoPoolsRun = true := by decide +kernel
  obtain ⟨hleft, halike, -⟩ := pools_apart downAndOther twoPoolsRun "other" hopen
  obtain ⟨-, -, hstuck⟩ := pools_apart downAndOther twoPoolsRun "down" hopen
  refine ⟨hopen, hevents, hruns, hevents ▸ hleft hruns, hevents ▸ halike, ?_, ?_, ?_, ?_, ?_⟩
  · decide +kernel
  · decide +kernel
  · decide +kernel
  · decide +kernel
  · exact hstuck 2 (by decide +kernel) (by decide +kernel) (by decide +kernel)

end Connections

end AmqpDelivery
