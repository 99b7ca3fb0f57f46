import AmqpDelivery.Proofs.Connections.Change

/-!
# What a call changes on its way

One lemma for each part of the state says what a call that moves can do to it (`Connections.Moves`):
where the call goes, which cells come into use and go out of it, what comes into the cells, and how
links wear. The invariants of the connections need no other facts about the steps.
-/

namespace AmqpDelivery

namespace ConnectionStage

/-- The cell at whose lock the call is, to hold it or to wait for it. -/
def standsAt? : ConnectionStage → Option CellId
  | .waiting cell | .dialing cell _ | .pausing cell _ _ | .dropping cell | .taking cell _ => some cell
  | _ => none

/-- The cell that the call has to itself. -/
def guards? : ConnectionStage → Option CellId
  | .dialing cell _ | .pausing cell _ _ | .dropping cell | .taking cell _ => some cell
  | _ => none

/-- The cell that the call dials a connection for. -/
def dialsFor? : ConnectionStage → Option CellId
  | .dialing cell _ | .pausing cell _ _ => some cell
  | _ => none

/-- The cell of a look-up or an invalidation under way. -/
def worksAt? : ConnectionStage → Option CellId
  | .arriving cell | .waiting cell | .dialing cell _ | .pausing cell _ _ | .trying cell
  | .dropping cell => some cell
  | _ => none

/-- The cells that closing has before it, with the one that it is at. -/
def sweeps : ConnectionStage → List CellId
  | .sweeping cells | .severing _ cells => cells
  | .taking cell rest | .retiring cell _ rest => cell :: rest
  | _ => []

/-- Closing has taken the connection out of the cell and has not invalidated it yet. -/
inductive Retires (cell : CellId) : ConnectionId → ConnectionStage → Prop
  | intro {number : Nat} {rest : List CellId} :
      Retires cell ⟨cell.pool, number⟩ (.retiring cell number rest)

variable {stage : ConnectionStage} {cell : CellId}

theorem standsAt?_of_guards (h : stage.guards? = some cell) : stage.standsAt? = some cell := by
  cases stage <;> first | exact h | cases h

theorem guards?_of_dialsFor (h : stage.dialsFor? = some cell) : stage.guards? = some cell := by
  cases stage <;> first | exact h | cases h

theorem worksAt?_of_dialsFor (h : stage.dialsFor? = some cell) : stage.worksAt? = some cell := by
  cases stage <;> first | exact h | cases h

/-- Whoever stands at a cell works there or sweeps it. -/
theorem works_or_sweeps (h : stage.standsAt? = some cell) :
    stage.worksAt? = some cell ∨ cell ∈ stage.sweeps := by
  cases stage with
  | taking c rest =>
      cases h
      exact Or.inr List.mem_cons_self
  | waiting c => exact Or.inl h
  | dialing c n => exact Or.inl h
  | pausing c n ms => exact Or.inl h
  | dropping c => exact Or.inl h
  | _ => cases h

end ConnectionStage

/-- A link that wears only goes down and stays invalidated. -/
structure Link.Wears (l l' : Link) : Prop where
  up : l'.up = true → l.up = true
  invalidated : l.invalidated = true → l'.invalidated = true

namespace Link

variable {l l' : Link}

theorem isLive_iff : l.isLive = true ↔ l.up = true ∧ l.invalidated = false := by
  rw [isLive, Bool.and_eq_true, Bool.not_eq_true']

theorem not_live_of_invalidated (h : l.invalidated = true) : l.isLive = false := by
  rw [isLive, h, Bool.not_true, Bool.and_false]

theorem Wears.refl (l : Link) : l.Wears l := ⟨id, id⟩

theorem wears_down (l : Link) : l.Wears { l with up := false } := ⟨by rintro ⟨⟩, id⟩

theorem wears_invalidated (l : Link) : l.Wears { l with invalidated := true } := ⟨id, fun _ => rfl⟩

theorem Wears.live (h : l.Wears l') (hlive : l'.isLive = true) : l.isLive = true := by
  obtain ⟨hup, hvalid⟩ := isLive_iff.1 hlive
  refine isLive_iff.2 ⟨h.up hup, Bool.eq_false_iff.2 fun hinvalid => ?_⟩
  rw [h.invalidated hinvalid] at hvalid
  cases hvalid

end Link

namespace Connections

section Parts

variable (s : Connections) {cell other : CellId} {f : FairLock → FairLock} {pool : String}

theorem cells_goto (t : TaskId) (stage : ConnectionStage) : (s.goto t stage).cells = s.cells := rfl

theorem calls_goto_self (t : TaskId) (stage : ConnectionStage) :
    (s.goto t stage).calls t = some stage := assign_self ..

theorem calls_goto_of_ne {t u : TaskId} {stage : ConnectionStage} (h : u ≠ t) :
    (s.goto t stage).calls u = s.calls u := assign_of_ne h

theorem calls_goto_eq_some {s : Connections} {t u : TaskId} {stage stage' : ConnectionStage}
    (h : (s.goto t stage).calls u = some stage') :
    u = t ∧ stage' = stage ∨ u ≠ t ∧ s.calls u = some stage' := assign_eq_some h

theorem lock_modifyLock_self :
    ((s.modifyLock cell f).cells cell).lock = f (s.cells cell).lock :=
  congrArg Cell.lock (assign_self ..)

theorem lock_modifyLock_of_ne (h : other ≠ cell) :
    ((s.modifyLock cell f).cells other).lock = (s.cells other).lock :=
  congrArg Cell.lock (assign_of_ne h)

theorem cached_modifyLock : ((s.modifyLock cell f).cells other).cached = (s.cells other).cached := by
  show (assign s.cells cell _ other).cached = _
  by_cases h : other = cell
  · rw [h, assign_self]
  · rw [assign_of_ne h]

theorem cells_emptyCell_self :
    (s.emptyCell cell).cells cell = { s.cells cell with cached := none } := assign_self ..

theorem cells_emptyCell_of_ne (h : other ≠ cell) :
    (s.emptyCell cell).cells other = s.cells other := assign_of_ne h

theorem lock_emptyCell : ((s.emptyCell cell).cells other).lock = (s.cells other).lock := by
  by_cases h : other = cell
  · rw [h, cells_emptyCell_self]
  · rw [s.cells_emptyCell_of_ne h]

/-- Taking a connection out of a cell puts none into any. -/
theorem cached_of_emptyCell {number : Nat}
    (h : ((s.emptyCell cell).cells other).cached = some number) :
    (s.cells other).cached = some number := by
  by_cases heq : other = cell
  · rw [heq, cells_emptyCell_self] at h
    cases h
  · rw [s.cells_emptyCell_of_ne heq] at h
    exact h

/-- The cells do not tell whether the connection that was taken out was invalidated. -/
theorem cells_discardCached : (s.discardCached cell).cells = (s.emptyCell cell).cells := by
  unfold discardCached
  split
  · rfl
  · next hnone =>
    have hcached : (s.cells cell).cached = none := Option.map_eq_none_iff.1 hnone
    funext other
    by_cases heq : other = cell
    · rw [heq, cells_emptyCell_self, ← hcached]
    · rw [s.cells_emptyCell_of_ne heq]

theorem lock_discardCached : ((s.discardCached cell).cells other).lock = (s.cells other).lock := by
  rw [cells_discardCached, lock_emptyCell]

theorem calls_discardCached : (s.discardCached cell).calls = s.calls := by
  unfold discardCached
  split <;> rfl

theorem directory_discardCached : (s.discardCached cell).directory = s.directory := by
  unfold discardCached
  split <;> rfl

theorem cellsMade_discardCached : (s.discardCached cell).cellsMade = s.cellsMade := by
  unfold discardCached
  split <;> rfl

theorem linksMade_discardCached : (s.discardCached cell).linksMade = s.linksMade := by
  unfold discardCached
  split <;> rfl

theorem lock_fileLink : ((s.fileLink cell).cells other).lock = (s.cells other).lock := by
  show (assign s.cells cell _ other).lock = _
  by_cases h : other = cell
  · rw [h, assign_self]
  · rw [assign_of_ne h]

theorem cached_fileLink_self : ((s.fileLink cell).cells cell).cached = some (s.linksMade cell.pool) :=
  congrArg Cell.cached (assign_self ..)

theorem cached_fileLink_of_ne (h : other ≠ cell) :
    ((s.fileLink cell).cells other).cached = (s.cells other).cached :=
  congrArg Cell.cached (assign_of_ne h)

theorem linksMade_fileLink_le (p : String) : s.linksMade p ≤ (s.fileLink cell).linksMade p := by
  show s.linksMade p ≤ assign s.linksMade cell.pool (s.linksMade cell.pool + 1) p
  by_cases h : p = cell.pool
  · rw [h, assign_self]
    exact Nat.le_succ _
  · exact Nat.le_of_eq (assign_of_ne h).symm

theorem cells_makeCell_self : (s.makeCell pool).cells ⟨pool, s.cellsMade pool⟩ = {} := assign_self ..

theorem cells_makeCell_of_ne (h : other ≠ ⟨pool, s.cellsMade pool⟩) :
    (s.makeCell pool).cells other = s.cells other := assign_of_ne h

theorem cellsMade_makeCell_le (p : String) : s.cellsMade p ≤ (s.makeCell pool).cellsMade p := by
  show s.cellsMade p ≤ assign s.cellsMade pool (s.cellsMade pool + 1) p
  by_cases h : p = pool
  · rw [h, assign_self]
    exact Nat.le_succ _
  · exact Nat.le_of_eq (assign_of_ne h).symm

theorem directory_makeCell (p : String) :
    (s.makeCell pool).directory.get? p =
      if p = pool then some (s.cellsMade pool) else s.directory.get? p :=
  Keyed.get?_insert ..

theorem links_modifyLink_wears {g : Link → Link} (hg : ∀ l : Link, l.Wears (g l))
    (c d : ConnectionId) : (s.links d).Wears ((s.modifyLink c g).links d) := by
  show (s.links d).Wears (assign s.links c (g (s.links c)) d)
  by_cases h : d = c
  · rw [h, assign_self]
    exact hg _
  · rw [assign_of_ne h]
    exact Link.Wears.refl _

theorem links_sever_wears (c d : ConnectionId) :
    (s.links d).Wears ((s.modifyLink c fun l => { l with up := false }).links d) :=
  s.links_modifyLink_wears Link.wears_down c d

theorem links_invalidateLink_wears (c d : ConnectionId) :
    (s.links d).Wears ((s.invalidateLink c).links d) :=
  s.links_modifyLink_wears Link.wears_invalidated c d

theorem links_discardCached_wears (c : ConnectionId) :
    (s.links c).Wears ((s.discardCached cell).links c) := by
  unfold discardCached
  split
  · exact s.links_invalidateLink_wears _ c
  · exact Link.Wears.refl _

/-- The connection that is taken out of a cell is invalidated. -/
theorem invalidated_discardCached {c : ConnectionId} (h : s.cached? cell = some c) :
    ((s.discardCached cell).links c).invalidated = true := by
  simp only [discardCached, h]
  exact congrArg Link.invalidated (assign_self ..)

end Parts

/-- How a call goes from one stage to another. -/
def Moves (s : Connections) (t : TaskId) (stage : ConnectionStage) (s' : Connections)
    (next : ConnectionStage) : Prop :=
  s.Passes t stage s' next ∨ s.Answered t stage s' next

section Moves

variable {s s' : Connections} {t : TaskId} {stage next : ConnectionStage} {cell : CellId}
  {pool : String} {number : Nat} {c : ConnectionId}

theorem cell?_eq_some :
    s.cell? pool = some cell ↔ cell.pool = pool ∧ s.directory.get? pool = some cell.number := by
  rw [cell?, Option.map_eq_some_iff]
  constructor
  · rintro ⟨n, hn, rfl⟩
    exact ⟨rfl, hn⟩
  · rintro ⟨rfl, hn⟩
    exact ⟨cell.number, hn, rfl⟩

theorem cached?_eq_some :
    s.cached? cell = some c ↔ c.pool = cell.pool ∧ (s.cells cell).cached = some c.number := by
  rw [cached?, Option.map_eq_some_iff]
  constructor
  · rintro ⟨n, hn, rfl⟩
    exact ⟨rfl, hn⟩
  · rintro ⟨hpool, hn⟩
    exact ⟨c.number, hn, by rw [← hpool]⟩

theorem liveCached?_eq_some :
    s.liveCached? cell = some c ↔ s.cached? cell = some c ∧ (s.links c).isLive = true :=
  Option.filter_eq_some_iff

theorem listed_of_mem_cellsInUse (h : cell ∈ s.cellsInUse) :
    s.directory.get? cell.pool = some cell.number := by
  obtain ⟨e, he, rfl⟩ := List.mem_map.1 h
  exact s.directory.get?_of_mem he

theorem found?_eq_some {result : Except Failure ConnectionId} :
    s.found? t = some result ↔ s.calls t = some (.found result) := by
  unfold found?
  split
  · next r hr =>
    rw [hr]
    constructor <;> (rintro ⟨⟩; rfl)
  · next hnone =>
    exact ⟨nofun, fun h => absurd h (hnone result)⟩

theorem mem_cellsInUse_of_listed (h : s.directory.get? cell.pool = some cell.number) :
    cell ∈ s.cellsInUse :=
  List.mem_map.2 ⟨(cell.pool, cell.number), s.directory.mem_of_get? h, rfl⟩

theorem worksAt?_afterTaking (rest : List CellId) : (s.afterTaking cell rest).worksAt? = none := by
  unfold afterTaking
  split <;> rfl

/-- Closing goes on to the next cell, or has the connection of this one to invalidate. -/
theorem sweeps_afterTaking (rest : List CellId) :
    (s.afterTaking cell rest).sweeps = rest ∨ (s.afterTaking cell rest).sweeps = cell :: rest := by
  unfold afterTaking
  split
  · exact Or.inr rfl
  · exact Or.inl rfl

theorem Moves.calls (h : s.Moves t stage s' next) : s'.calls = s.calls := by
  rcases h with h | h
  · cases h with
    | dials | drops => exact s.calls_discardCached
    | _ => rfl
  · cases h <;> rfl

/-- A look-up or an invalidation stays at its cell, which was in use when it came there. -/
theorem Moves.worksAt (h : s.Moves t stage s' next) (hnext : next.worksAt? = some cell) :
    stage.worksAt? = some cell ∨ s'.directory.get? cell.pool = some cell.number := by
  rcases h with h | h
  · cases h with
    | arrives hcell =>
        cases hnext
        obtain ⟨rfl, hlisted⟩ := cell?_eq_some.1 hcell
        exact Or.inr hlisted
    | makes hnone =>
        cases hnext
        exact Or.inr ((s.directory_makeCell _).trans (if_pos rfl))
    | seeks hcell =>
        cases hnext
        obtain ⟨rfl, hlisted⟩ := cell?_eq_some.1 hcell
        exact Or.inr hlisted
    | clears =>
        rw [worksAt?_afterTaking] at hnext
        cases hnext
    | _ => first | exact Or.inl hnext | cases hnext
  · cases h <;> first | exact Or.inl hnext | cases hnext

/-- Closing has no cell before it that was not in use when it began. -/
theorem Moves.sweeps (h : s.Moves t stage s' next) (hin : cell ∈ next.sweeps) :
    cell ∈ stage.sweeps ∨ s.directory.get? cell.pool = some cell.number := by
  rcases h with h | h
  · cases h with
    | empties => exact Or.inr (listed_of_mem_cellsInUse hin)
    | overlooks | retires => exact Or.inl (List.mem_cons_of_mem _ hin)
    | @clears home rest =>
        rcases s.sweeps_afterTaking rest with heq | heq
        · rw [heq] at hin
          exact Or.inl (List.mem_cons_of_mem _ hin)
        · rw [heq] at hin
          exact Or.inl hin
    | _ => exact Or.inl hin
  · cases h <;> cases hin

/-- A cell comes into use by being made. -/
theorem Moves.listed (h : s.Moves t stage s' next) (hin : s'.directory.get? pool = some number) :
    s.directory.get? pool = some number ∨
      number = s.cellsMade pool ∧ s'.cellsMade pool = number + 1 ∧ next.worksAt? ≠ none := by
  rcases h with h | h
  · cases h with
    | @makes p hnone =>
        rw [directory_makeCell] at hin
        split at hin
        · next heq =>
          cases hin
          rw [heq]
          exact Or.inr ⟨rfl, assign_self .., by rintro ⟨⟩⟩
        · exact Or.inl hin
    | empties => cases hin
    | dials | drops => exact Or.inl (s.directory_discardCached ▸ hin)
    | _ => exact Or.inl hin
  · cases h <;> exact Or.inl hin

theorem Moves.cellsMade_le (h : s.Moves t stage s' next) (pool : String) :
    s.cellsMade pool ≤ s'.cellsMade pool := by
  rcases h with h | h
  · cases h with
    | makes => exact s.cellsMade_makeCell_le pool
    | dials | drops => exact Nat.le_of_eq (congrFun s.cellsMade_discardCached pool).symm
    | _ => exact Nat.le_refl _
  · cases h <;> exact Nat.le_refl _

theorem Moves.linksMade_le (h : s.Moves t stage s' next) (pool : String) :
    s.linksMade pool ≤ s'.linksMade pool := by
  rcases h with h | h
  · cases h with
    | dials | drops => exact Nat.le_of_eq (congrFun s.linksMade_discardCached pool).symm
    | _ => exact Nat.le_refl _
  · cases h with
    | connects => exact s.linksMade_fileLink_le pool
    | _ => exact Nat.le_refl _

theorem cellsMade_step_le (s : Connections) (ev : ConnectionEvent) (pool : String) :
    s.cellsMade pool ≤ (s.step ev).cellsMade pool := by
  have hchange := s.step_change ev
  generalize s.step ev = s' at hchange
  cases hchange with
  | passes hstage hpasses =>
      have hle := Moves.cellsMade_le (Or.inl hpasses) pool
      exact hle
  | answered hstage hanswered =>
      have hle := Moves.cellsMade_le (Or.inr hanswered) pool
      exact hle
  | _ => exact Nat.le_refl _

theorem linksMade_step_le (s : Connections) (ev : ConnectionEvent) (pool : String) :
    s.linksMade pool ≤ (s.step ev).linksMade pool := by
  have hchange := s.step_change ev
  generalize s.step ev = s' at hchange
  cases hchange with
  | passes hstage hpasses =>
      have hle := Moves.linksMade_le (Or.inl hpasses) pool
      exact hle
  | answered hstage hanswered =>
      have hle := Moves.linksMade_le (Or.inr hanswered) pool
      exact hle
  | _ => exact Nat.le_refl _

/-- A connection comes into a cell by being dialed for it. -/
theorem Moves.cached (h : s.Moves t stage s' next) (hin : (s'.cells cell).cached = some number) :
    (s.cells cell).cached = some number ∨
      stage.dialsFor? = some cell ∧ next = .found (.ok ⟨cell.pool, number⟩) ∧
        number = s.linksMade cell.pool ∧ s'.linksMade cell.pool = number + 1 := by
  rcases h with h | h
  · cases h with
    | @makes p hnone =>
        by_cases heq : cell = ⟨p, s.cellsMade p⟩
        · rw [heq, cells_makeCell_self] at hin
          cases hin
        · rw [s.cells_makeCell_of_ne heq] at hin
          exact Or.inl hin
    | dials =>
        rw [cells_discardCached] at hin
        exact Or.inl (s.cached_of_emptyCell hin)
    | drops =>
        rw [cached_modifyLock, cells_discardCached] at hin
        exact Or.inl (s.cached_of_emptyCell hin)
    | clears =>
        rw [cached_modifyLock] at hin
        exact Or.inl (s.cached_of_emptyCell hin)
    | _ => first | exact Or.inl hin | exact Or.inl (s.cached_modifyLock ▸ hin)
  · cases h with
    | @connects home failures =>
        rw [cached_modifyLock] at hin
        by_cases heq : cell = home
        · subst heq
          rw [cached_fileLink_self] at hin
          cases hin
          exact Or.inr ⟨rfl, rfl, rfl, assign_self ..⟩
        · rw [s.cached_fileLink_of_ne heq] at hin
          exact Or.inl hin
    | _ => first | exact Or.inl hin | exact Or.inl (s.cached_modifyLock ▸ hin)

/-- A look-up that begins to dial has emptied the cell. -/
theorem Moves.dialsFor (h : s.Moves t stage s' next) (hnext : next.dialsFor? = some cell) :
    stage.dialsFor? = some cell ∨ (s'.cells cell).cached = none := by
  rcases h with h | h
  · cases h with
    | dials =>
        cases hnext
        rw [cells_discardCached, cells_emptyCell_self]
        exact Or.inr rfl
    | clears =>
        unfold afterTaking at hnext
        split at hnext <;> cases hnext
    | _ => cases hnext
  · cases h <;> first | exact Or.inl hnext | cases hnext

/-- Links wear, but for the one that a look-up has just dialed. -/
theorem Moves.link (h : s.Moves t stage s' next) (c : ConnectionId) :
    (s.links c).Wears (s'.links c) ∨
      c.number = s.linksMade c.pool ∧ next = .found (.ok c) ∧ ∃ cell,
        stage.dialsFor? = some cell ∧ c.pool = cell.pool ∧ (s'.cells cell).cached = some c.number := by
  rcases h with h | h
  · cases h with
    | dials | drops => exact Or.inl (s.links_discardCached_wears c)
    | retires => exact Or.inl (s.links_invalidateLink_wears _ c)
    | severs => exact Or.inl (s.links_sever_wears _ c)
    | _ => exact Or.inl (Link.Wears.refl _)
  · cases h with
    | @connects home failures =>
        by_cases heq : c = ⟨home.pool, s.linksMade home.pool⟩
        · subst heq
          refine Or.inr ⟨rfl, rfl, home, rfl, rfl, ?_⟩
          rw [cached_modifyLock, cached_fileLink_self]
        · refine Or.inl ?_
          show (s.links c).Wears (assign s.links _ _ c)
          rw [assign_of_ne heq]
          exact Link.Wears.refl _
    | _ => exact Or.inl (Link.Wears.refl _)

/-- Closing comes to retire a connection by taking it out of the cell. -/
theorem Moves.retires (h : s.Moves t stage s' next) (hnext : next.Retires cell c) :
    s.cached? cell = some c ∧ (s'.cells cell).cached = none := by
  rcases h with h | h
  · cases h with
    | clears =>
        unfold afterTaking at hnext
        split at hnext
        · next number hnumber =>
          cases hnext
          refine ⟨cached?_eq_some.2 ⟨rfl, hnumber⟩, ?_⟩
          rw [cached_modifyLock, cells_emptyCell_self]
        · cases hnext
    | _ => cases hnext
  · cases h <;> cases hnext

/-- Closing goes on from a connection that it has taken out by invalidating it. -/
theorem Moves.retired (h : s.Moves t stage s' next) (hstage : stage.Retires cell c) :
    (s'.links c).invalidated = true := by
  cases hstage
  rcases h with h | h
  · cases h
    exact congrArg Link.invalidated (assign_self ..)
  · cases h with
    | leaves hwhere => rcases hwhere with heq | ⟨n, heq⟩ | ⟨n, ms, heq⟩ <;> cases heq

/-- A connection stays in its cell, is invalidated or is taken out by closing, unless another is
dialed for the cell or the cell is made anew. -/
theorem Moves.keeps (h : s.Moves t stage s' next) (hin : s.cached? cell = some c) :
    s'.cached? cell = some c ∨ (s'.links c).invalidated = true ∨ next.Retires cell c ∨
      stage.dialsFor? = some cell ∨ cell.number = s.cellsMade cell.pool := by
  obtain ⟨hpool, hcached⟩ := cached?_eq_some.1 hin
  have hstays : (s'.cells cell).cached = (s.cells cell).cached → s'.cached? cell = some c :=
    fun heq => cached?_eq_some.2 ⟨hpool, heq.trans hcached⟩
  have hdiscard : ∀ home, (s.discardCached home).cached? cell = some c ∨
      ((s.discardCached home).links c).invalidated = true := by
    intro home
    by_cases heq : cell = home
    · exact Or.inr (s.invalidated_discardCached (heq ▸ hin))
    · refine Or.inl ?_
      rw [cached?, cells_discardCached, s.cells_emptyCell_of_ne heq]
      exact hin
  have hunlock : ∀ {s'' : Connections} {home : CellId} {f : FairLock → FairLock},
      s''.cached? cell = some c → (s''.modifyLock home f).cached? cell = some c := by
    intro s'' home f heq
    rw [cached?, cached_modifyLock]
    exact heq
  rcases h with h | h
  · cases h with
    | @makes p hnone =>
        by_cases heq : cell = ⟨p, s.cellsMade p⟩
        · subst heq
          exact Or.inr (Or.inr (Or.inr (Or.inr rfl)))
        · exact Or.inl (hstays (congrArg Cell.cached (s.cells_makeCell_of_ne heq)))
    | @dials home =>
        rcases hdiscard home with hkept | hgone
        · exact Or.inl hkept
        · exact Or.inr (Or.inl hgone)
    | @drops home =>
        rcases hdiscard home with hkept | hgone
        · exact Or.inl (hunlock hkept)
        · exact Or.inr (Or.inl hgone)
    | @clears home rest =>
        by_cases heq : cell = home
        · subst heq
          refine Or.inr (Or.inr (Or.inl ?_))
          obtain ⟨pool, number⟩ := c
          cases hpool
          simp only [afterTaking, hcached]
          exact .intro
        · refine Or.inl (hunlock ?_)
          rw [cached?, s.cells_emptyCell_of_ne heq]
          exact hin
    | queues | finds | takes | reaches => exact Or.inl (hunlock hin)
    | _ => exact Or.inl hin
  · cases h with
    | @connects home failures =>
        by_cases heq : cell = home
        · rw [heq]
          exact Or.inr (Or.inr (Or.inr (Or.inl rfl)))
        · refine Or.inl (hunlock (cached?_eq_some.2 ⟨hpool, ?_⟩))
          rw [s.cached_fileLink_of_ne heq]
          exact hcached
    | givesUp | leaves => exact Or.inl (hunlock hin)
    | _ => exact Or.inl hin

/-- A look-up finds a connection in its cell that can be used, or the one that it has just dialed. -/
theorem Moves.found (h : s.Moves t stage s' next) (hnext : next = .found (.ok c)) :
    (∃ cell, s.liveCached? cell = some c) ∨ c.number = s.linksMade c.pool := by
  rcases h with h | h
  · cases h with
    | finds hheld hlive =>
        cases hnext
        exact Or.inl ⟨_, hlive⟩
    | clears =>
        unfold afterTaking at hnext
        split at hnext <;> cases hnext
    | _ => cases hnext
  · cases h with
    | connects =>
        cases hnext
        exact Or.inr rfl
    | _ => cases hnext

/-- A cell in use stays so, unless closing takes it on. -/
theorem Moves.lists (h : s.Moves t stage s' next)
    (hin : s.directory.get? cell.pool = some cell.number) :
    s'.directory.get? cell.pool = some cell.number ∨ cell ∈ next.sweeps := by
  rcases h with h | h
  · cases h with
    | @makes p hnone =>
        rw [directory_makeCell]
        split
        · next heq =>
          rw [heq, hnone] at hin
          cases hin
        · exact Or.inl hin
    | empties => exact Or.inr (mem_cellsInUse_of_listed hin)
    | dials | drops => exact Or.inl (s.directory_discardCached ▸ hin)
    | _ => exact Or.inl hin
  · cases h <;> exact Or.inl hin

/-- Closing is done with a cell once it was found empty or its connection was invalidated, or skips
it because its lock is held. -/
theorem Moves.swept (h : s.Moves t stage s' next) (hin : cell ∈ stage.sweeps) :
    cell ∈ next.sweeps ∨ (s'.cells cell).cached = none ∨ (∃ c, stage.Retires cell c) ∨
      stage.standsAt? = none ∧ ∃ u, (s.cells cell).lock.holder = some u := by
  rcases h with h | h
  · cases h with
    | @overlooks home rest u hheld =>
        rcases List.mem_cons.1 hin with rfl | hrest
        · exact Or.inr (Or.inr (Or.inr ⟨rfl, u, hheld⟩))
        · exact Or.inl hrest
    | @clears home rest =>
        rcases List.mem_cons.1 hin with rfl | hrest
        · refine Or.inr (Or.inl ?_)
          rw [cached_modifyLock, cells_emptyCell_self]
        · rcases s.sweeps_afterTaking rest with heq | heq
          · rw [heq]
            exact Or.inl hrest
          · rw [heq]
            exact Or.inl (List.mem_cons_of_mem _ hrest)
    | @retires home number rest =>
        rcases List.mem_cons.1 hin with rfl | hrest
        · exact Or.inr (Or.inr (Or.inl ⟨_, .intro⟩))
        · exact Or.inl hrest
    | _ => first | exact Or.inl hin | cases hin
  · cases h with
    | leaves hwhere => rcases hwhere with rfl | ⟨n, rfl⟩ | ⟨n, ms, rfl⟩ <;> cases hin
    | _ => cases hin

end Moves

end Connections

end AmqpDelivery
