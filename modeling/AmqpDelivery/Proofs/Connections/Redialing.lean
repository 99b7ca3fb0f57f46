import AmqpDelivery.Proofs.Connections.Dialing

/-!
# Dialing and dialing again

A look-up whose last attempt fails leaves its cell empty (`Connections.empty_of_failed`), and the
cell stays empty until a connection is made for the pool (`Connections.empty_run`). Main statement:
how often a look-up attempts to connect, how long it waits in between, and that the next look-up
begins with its first attempt again (`Connections.dialing_exact`).
-/

namespace AmqpDelivery

namespace Connections

/-- No cell that was not made yet has a connection. -/
def EmptyUnmade (s : Connections) : Prop :=
  ∀ cell, s.cellsMade cell.pool ≤ cell.number → (s.cells cell).cached = none

/-- Whoever is not an old task and works for the pool of the cell works at this cell, or at one that
was made when there were so many already; and so will those who come. -/
structure WorksSince (s : Connections) (home : CellId) (made : Nat) (old : TaskId → Prop) :
    Prop where
  counted : made ≤ s.cellsMade home.pool
  listed : ∀ n, s.directory.get? home.pool = some n → n = home.number ∨ made ≤ n
  works : ∀ u stage cell, ¬old u → s.calls u = some stage → stage.worksAt? = some cell →
    cell.pool = home.pool → cell = home ∨ made ≤ cell.number

section Slots

variable {s s' : Connections} {t u : TaskId} {ev : ConnectionEvent} {events : List ConnectionEvent}
  {cell home : CellId} {failures : UInt32} {stage next : ConnectionStage} {pool : String}
  {made : Nat} {old : TaskId → Prop}

theorem linksMade_run_le (s : Connections) (events : List ConnectionEvent) (pool : String) :
    s.linksMade pool ≤ (s.run events).linksMade pool := by
  induction events generalizing s with
  | nil => exact Nat.le_refl _
  | cons ev rest ih => exact Nat.le_trans (s.linksMade_step_le ev pool) (ih (s.step ev))

/-- An empty cell stays empty when a call moves, unless a connection is made for its pool. -/
theorem Moves.empty (h : s.Moves t stage s' next) (hempty : (s.cells cell).cached = none)
    (hlinks : s'.linksMade cell.pool = s.linksMade cell.pool) : (s'.cells cell).cached = none := by
  refine Option.eq_none_iff_forall_ne_some.mpr fun number hnumber => ?_
  rcases h.cached hnumber with hold | ⟨-, -, hmade, hnext⟩
  · rw [hempty] at hold
    cases hold
  · omega

theorem empty_step (hempty : (s.cells cell).cached = none)
    (hlinks : (s.step ev).linksMade cell.pool = s.linksMade cell.pool) :
    ((s.step ev).cells cell).cached = none := by
  have hchange := s.step_change ev
  generalize s.step ev = s' at hchange hlinks ⊢
  cases hchange with
  | passes hstage hpasses =>
      have hmoves := Moves.empty (Or.inl hpasses) hempty hlinks
      exact hmoves
  | answered hstage hanswered =>
      have hmoves := Moves.empty (Or.inr hanswered) hempty hlinks
      exact hmoves
  | _ => exact hempty

/-- An empty cell stays empty until a connection is made for its pool. -/
theorem empty_run (hempty : (s.cells cell).cached = none)
    (hlinks : (s.run events).linksMade cell.pool = s.linksMade cell.pool) :
    ((s.run events).cells cell).cached = none := by
  induction events generalizing s with
  | nil => exact hempty
  | cons ev rest ih =>
      have hfirst := s.linksMade_step_le ev cell.pool
      have hrest : (s.step ev).linksMade cell.pool ≤ (s.run (ev :: rest)).linksMade cell.pool :=
        linksMade_run_le (s.step ev) rest cell.pool
      have hstep : (s.step ev).linksMade cell.pool = s.linksMade cell.pool := by omega
      refine ih (empty_step hempty hstep) ?_
      rw [hstep]
      exact hlinks

theorem EmptyUnmade.moves (h : s.EmptyUnmade) (hplaced : s.Placed) (hstage : s.calls t = some stage)
    (hmoves : s.Moves t stage s' next) : (s'.goto t next).EmptyUnmade := by
  intro cell hcell
  have hbefore : s.cellsMade cell.pool ≤ cell.number :=
    Nat.le_trans (hmoves.cellsMade_le cell.pool) hcell
  show (s'.cells cell).cached = none
  refine Option.eq_none_iff_forall_ne_some.mpr fun number hnumber => ?_
  rcases hmoves.cached hnumber with hold | ⟨hdials, -⟩
  · rw [h cell hbefore] at hold
    cases hold
  · -- a connection is dialed for a cell that was made
    have hworks := ConnectionStage.worksAt?_of_dialsFor hdials
    exact absurd (hplaced.worked t stage cell hstage hworks) (Nat.not_lt.mpr hbefore)

theorem EmptyUnmade.step (h : s.EmptyUnmade) (hplaced : s.Placed) (ev : ConnectionEvent) :
    (s.step ev).EmptyUnmade := by
  have hchange := s.step_change ev
  generalize s.step ev = s' at hchange
  cases hchange with
  | passes hstage hpasses => exact h.moves hplaced hstage (Or.inl hpasses)
  | answered hstage hanswered => exact h.moves hplaced hstage (Or.inr hanswered)
  | _ => exact h

theorem EmptyUnmade.run (h : s.EmptyUnmade) (hsound : s.Sound) (events : List ConnectionEvent) :
    (s.run events).EmptyUnmade := by
  induction events generalizing s with
  | nil => exact h
  | cons ev rest ih => exact ih (h.step hsound.placed ev) (hsound.step ev)

/-- As long as the cell is the one in use for its pool, if any is, it is so for those who come. -/
theorem worksSince_now
    (hcurrent : ∀ n, s.directory.get? home.pool = some n → n = home.number) :
    s.WorksSince home (s.cellsMade home.pool) (fun u => s.calls u ≠ none) := by
  refine ⟨Nat.le_refl _, fun n hn => Or.inl (hcurrent n hn), ?_⟩
  intro u stage cell hu hstage _ _
  rw [not_not.mp hu] at hstage
  cases hstage

theorem WorksSince.moves (h : s.WorksSince home made old) (hstage : s.calls t = some stage)
    (hmoves : s.Moves t stage s' next) : (s'.goto t next).WorksSince home made old := by
  have hlisted : ∀ n, s'.directory.get? home.pool = some n → n = home.number ∨ made ≤ n := by
    intro n hn
    rcases hmoves.listed hn with hold | ⟨hnew, -⟩
    · exact h.listed n hold
    · rw [hnew]
      exact Or.inr h.counted
  refine ⟨Nat.le_trans h.counted (hmoves.cellsMade_le _), hlisted, ?_⟩
  intro u stage' cell hu hstage' hworks hpool
  rcases hmoves.calls_eq hstage' with ⟨rfl, rfl⟩ | ⟨-, hbefore⟩
  · rcases hmoves.worksAt hworks with hsame | hin
    · exact h.works u stage cell hu hstage hsame hpool
    · rw [hpool] at hin
      refine (hlisted cell.number hin).imp_left fun hnumber => ?_
      cases cell
      cases home
      exact congrArg₂ CellId.mk hpool hnumber
  · exact h.works u stage' cell hu hbefore hworks hpool

theorem WorksSince.step (h : s.WorksSince home made old) (ev : ConnectionEvent) :
    (s.step ev).WorksSince home made old := by
  have hchange := s.step_change ev
  generalize s.step ev = s' at hchange
  cases hchange with
  | stays => exact h
  | begins call hfree =>
      refine ⟨h.counted, h.listed, ?_⟩
      intro u stage' cell hu hstage' hworks
      rcases calls_of_begins hstage' with rfl | hbefore
      · cases hworks
      · exact h.works u stage' cell hu hbefore hworks
  | passes hstage hpasses => exact h.moves hstage (Or.inl hpasses)
  | answered hstage hanswered => exact h.moves hstage (Or.inr hanswered)
  | hangsUp | discards => exact ⟨h.counted, h.listed, h.works⟩

theorem WorksSince.run (h : s.WorksSince home made old) (events : List ConnectionEvent) :
    (s.run events).WorksSince home made old := by
  induction events generalizing s with
  | nil => exact h
  | cons ev rest ih => exact ih (h.step ev)

/-- Whoever looks into an empty cell begins with its first attempt. -/
theorem step_waiting_of_empty (hstage : s.calls u = some (.waiting cell))
    (hheld : (s.cells cell).lock.isHeldBy u = true) (hempty : (s.cells cell).cached = none) :
    (s.step (.proceed u)).calls u = some (.dialing cell 0) := by
  have hnone : s.liveCached? cell = none := by
    rw [liveCached?, cached?, hempty]
    rfl
  simp only [step, act, hstage, proceed, hheld, if_true, look, hnone]
  exact calls_goto_self ..

/-- A look-up that begins where its pool has an empty cell, and passes by itself to the lock that
nobody holds, dials. -/
theorem run_lookUp_of_empty {b : BrokerSettings} (hnew : s.calls u = none)
    (hb : s.settings.broker cell.pool = .ok b)
    (hcurrent : s.directory.get? cell.pool = some cell.number)
    (hfree : (s.cells cell).lock.tasks = []) (hempty : (s.cells cell).cached = none) :
    (s.run [.spawn u (.lookUp cell.pool), .proceed u, .proceed u, .proceed u]).calls u =
      some (.dialing cell 0) := by
  have hholder : (s.cells cell).lock.holder = none := by
    refine Option.eq_none_iff_forall_ne_some.mpr fun v hv => ?_
    rw [FairLock.tasks_of_held hv] at hfree
    cases hfree
  let begun := s.goto u (.ready (.lookUp cell.pool))
  let arrived := begun.goto u (.arriving cell)
  have hbegun : s.step (.spawn u (.lookUp cell.pool)) = begun := by
    simp only [step, hnew]
    rfl
  have harrived : begun.step (.proceed u) = arrived := by
    have hcell : begun.cell? cell.pool = some cell := cell?_eq_some.mpr ⟨rfl, hcurrent⟩
    have hstage : begun.calls u = some (.ready (.lookUp cell.pool)) := calls_goto_self ..
    have hsettings : begun.settings.broker cell.pool = .ok b := hb
    simp only [step, act, hstage, proceed, start, hsettings, cellOf, hcell]
    rfl
  have hqueued : arrived.step (.proceed u) =
      (arrived.modifyLock cell (FairLock.acquire · u)).goto u (.waiting cell) := by
    have hstage : arrived.calls u = some (.arriving cell) := calls_goto_self ..
    simp only [step, act, hstage, proceed]
  rw [run, List.foldl_cons, hbegun, List.foldl_cons, harrived, List.foldl_cons, hqueued,
    List.foldl_cons, List.foldl_nil]
  refine step_waiting_of_empty (calls_goto_self ..) ?_ ?_
  · rw [cells_goto, lock_modifyLock_self]
    exact FairLock.isHeldBy_iff.mpr (FairLock.holder_acquire_free hholder)
  · rw [cells_goto, cached_modifyLock]
    exact hempty

/-- A look-up that fails as it dials leaves its cell empty and its lock to others. -/
theorem empty_of_failed {text : String} {f : Failure} (hsound : s.Sound)
    (hstage : s.calls t = some (.dialing cell failures))
    (hfound : (s.step (.dialed t (.error text))).found? t = some (.error f)) :
    ((s.step (.dialed t (.error text))).cells cell).cached = none ∧
      t ∉ ((s.step (.dialed t (.error text))).cells cell).lock.tasks := by
  constructor
  · have hempty := hsound.vacant t _ cell hstage rfl
    cases hafter : afterFailure (s.reconnectOf cell.pool) (failures + 1) text with
    | giveUp g =>
        simp only [step, act, hstage, dialed, hafter, conclude]
        exact s.cached_modifyLock.trans hempty
    | retryAfter ms =>
        simp only [step, act, hstage, dialed, hafter]
        exact hempty
  · rw [(hsound.step _).locked.present, standsAt?, found?_eq_some.mp hfound]
    rintro ⟨⟩

end Slots

/-- How a connection is dialed, if less than `2 ^ 32` attempts fail. Dialing returns the connection
of the first attempt that succeeds, if the attempts are not bounded or the bound allows this one; if
as many attempts fail as the bound says, it returns the error of the last; until then it waits, and
without a bound it never fails. The wait after the attempt `i` is the backoff for `i`, and the
attempt that ends the dialing has none. A look-up makes these attempts and waits, and ends so. When
it fails, its cell is empty. Whoever looks next into this cell, or comes after the failure and looks
into the cell that the pool has by then, begins to dial with no attempt failed, unless a connection
was made for the pool in between; so does a look-up that begins at once and meets nobody at the
lock. -/
theorem dialing_exact {α : Type} :
    (∀ (b : BrokerSettings) (texts : List String) (c : α) rest, texts.length < UInt32.size →
      b.reconnect.maxAttempts = 0 ∨ texts.length + 1 ≤ b.reconnect.maxAttempts.toNat →
      dial b.reconnect (texts.map .error ++ .ok c :: rest) =
        ⟨some (.ok c), texts.length + 1, backoffs b.reconnect texts.length⟩) ∧
    (∀ (b : BrokerSettings) (texts : List String) (text : String) (rest : List (Except String α)),
      b.reconnect.maxAttempts ≠ 0 → texts.length + 1 = b.reconnect.maxAttempts.toNat →
      dial b.reconnect (texts.map .error ++ .error text :: rest) =
        ⟨some (.error (.connection text)), texts.length + 1, backoffs b.reconnect texts.length⟩) ∧
    (∀ (b : BrokerSettings) (texts : List String), texts.length < UInt32.size →
      b.reconnect.maxAttempts = 0 ∨ texts.length < b.reconnect.maxAttempts.toNat →
      dial b.reconnect (texts.map .error : List (Except String α)) =
        ⟨none, texts.length, backoffs b.reconnect texts.length⟩) ∧
    (∀ (b : BrokerSettings) (outcomes : List (Except String α)) (f : Failure),
      b.reconnect.maxAttempts = 0 → (dial b.reconnect outcomes).result ≠ some (.error f)) ∧
    (∀ settings before events t cell b,
      let s := ({ settings } : Connections).run before
      s.calls t = some (.dialing cell 0) → settings.broker cell.pool = .ok b → .drop t ∉ events →
        ∃ results : List (Except String Unit), let r := dial b.reconnect results
          s.dialHistory t events = inTurn results r.waits ∧ r.attempts = results.length ∧
            s.DialsTo t events cell 0 r) ∧
    ∀ settings before t cell failures text f,
      let s := ({ settings } : Connections).run before
      let failed := s.step (.dialed t (.error text))
      s.calls t = some (.dialing cell failures) → failed.found? t = some (.error f) →
        (failed.cells cell).cached = none ∧ t ∉ (failed.cells cell).lock.tasks ∧
        (∀ later u other, other.pool = cell.pool →
          (other = cell ∨ failed.calls u = none ∧
            ∀ n, failed.directory.get? cell.pool = some n → n = cell.number) →
          (failed.run later).linksMade cell.pool = failed.linksMade cell.pool →
          (failed.run later).calls u = some (.waiting other) →
          ((failed.run later).cells other).lock.isHeldBy u = true →
            ((failed.run later).step (.proceed u)).calls u = some (.dialing other 0)) ∧
        ∀ u b, settings.broker cell.pool = .ok b → failed.calls u = none →
          failed.directory.get? cell.pool = some cell.number →
          (failed.cells cell).lock.tasks = [] →
          let begins := [.spawn u (.lookUp cell.pool), .proceed u, .proceed u, .proceed u]
          (failed.run begins).calls u = some (.dialing cell 0) := by
  refine ⟨?_, ?_, ?_, ?_, ?_, ?_⟩
  · intro b texts c rest hfits hallows
    exact dial_connected hallows hfits c rest
  · intro b texts text rest hbounded hspent
    exact dial_spent hbounded hspent text rest
  · intro b texts hfits hallows
    exact dial_waiting hallows hfits
  · intro b outcomes f hunbounded
    exact dialFrom_unbounded hunbounded 0 outcomes f
  · intro settings before events t cell b s hstage hb hdrop
    have hreconnect : s.reconnectOf cell.pool = b.reconnect := by
      rw [reconnectOf, run_settings, hb]
    obtain ⟨results, hdials⟩ := dials_run (Or.inl hstage) hdrop
    rw [hreconnect] at hdials
    exact ⟨results, hdials⟩
  · intro settings before t cell failures text f s failed hstage hfound
    have hinit : ({ settings } : Connections).Sound := sound_initial settings
    have hunmade : failed.EmptyUnmade :=
      EmptyUnmade.step (EmptyUnmade.run (fun _ _ => rfl) hinit before) (hinit.run before).placed _
    obtain ⟨hempty, hlock⟩ := empty_of_failed (hinit.run before) hstage hfound
    refine ⟨hempty, hlock, ?_, ?_⟩
    · intro later u other hpool hwhich hlinks hwaiting hheld
      -- the cell that is looked into is the one of the failed look-up, or was made since
      have hother : other = cell ∨ failed.cellsMade cell.pool ≤ other.number := by
        rcases hwhich with hsame | ⟨hnew, hcurrent⟩
        · exact Or.inl hsame
        · have hsince := (worksSince_now hcurrent).run later
          exact hsince.works u _ other (not_not.mpr hnew) hwaiting rfl hpool
      have hbefore : (failed.cells other).cached = none := by
        rcases hother with rfl | hmade
        · exact hempty
        · exact hunmade other (hpool ▸ hmade)
      rw [← hpool] at hlinks
      exact step_waiting_of_empty hwaiting hheld (empty_run hbefore hlinks)
    · intro u b hb hnew hcurrent hfree begins
      have hsettings : failed.settings = settings := (step_settings _ _).trans (run_settings _ _)
      exact run_lookUp_of_empty hnew (hsettings ▸ hb) hcurrent hfree hempty

/-- Settings by which one pool is dialed twice at most. -/
def twiceSettings : BrokerSettings := { reconnect := { maxAttempts := 2 } }

/-- Connections of one pool with these settings. -/
def twiceDialed : Connections :=
  { settings := { brokers := Keyed.ofList [("orders", twiceSettings)] } }

/-- A look-up that dials. -/
def dialingRun : List ConnectionEvent :=
  [.spawn 0 (.lookUp "orders"), .proceed 0, .proceed 0, .proceed 0]

/-- Its first attempt fails, and it waits and attempts again; a second look-up stands in line. -/
def dialingAgainRun : List ConnectionEvent :=
  [.dialed 0 (.error "refused"), .spawn 1 (.lookUp "orders"), .proceed 1, .proceed 1, .rested 0]

/-- The second attempt fails. -/
def failedRun : Connections :=
  (twiceDialed.run (dialingRun ++ dialingAgainRun)).step (.dialed 0 (.error "unreachable"))

/-- Both attempts fail, and nobody stands in line. -/
def failedAloneRun : Connections :=
  (twiceDialed.run (dialingRun ++ [.dialed 0 (.error "refused"), .rested 0])).step
    (.dialed 0 (.error "unreachable"))

theorem dialing_exact_twice :
    dial twiceSettings.reconnect [.error "refused", .ok 7] = ⟨some (.ok 7), 2, [500]⟩ ∧
      dial twiceSettings.reconnect [.error "refused", .error "unreachable", .ok 7] =
        ⟨some (.error (.connection "unreachable")), 2, [500]⟩ ∧
      dial twiceSettings.reconnect [(.error "refused" : Except String Nat)] = ⟨none, 1, [500]⟩ ∧
      (dial ({} : BrokerSettings).reconnect [.error "refused", .ok 7]).result ≠
        some (.error (.connection "refused")) ∧
      (∃ results : List (Except String Unit), let r := dial twiceSettings.reconnect results
        (twiceDialed.run dialingRun).dialHistory 0 dialingAgainRun = inTurn results r.waits ∧
          r.attempts = results.length ∧
          (twiceDialed.run dialingRun).DialsTo 0 dialingAgainRun ⟨"orders", 0⟩ 0 r) ∧
      failedRun.found? 0 = some (.error (.connection "unreachable")) ∧
      (failedRun.cells ⟨"orders", 0⟩).cached = none ∧
      (failedRun.step (.proceed 1)).calls 1 = some (.dialing ⟨"orders", 0⟩ 0) ∧
      (failedAloneRun.run
          [.spawn 1 (.lookUp "orders"), .proceed 1, .proceed 1, .proceed 1]).calls 1 =
        some (.dialing ⟨"orders", 0⟩ 0) := by
  obtain ⟨hconnected, hspent, hpending, hunbounded, hdials, hslot⟩ := @dialing_exact Nat
  have hwait : backoffs twiceSettings.reconnect 1 = [500] := by decide +kernel
  have hdialing : (twiceDialed.run dialingRun).calls 0 = some (.dialing ⟨"orders", 0⟩ 0) := rfl
  have hagain : (twiceDialed.run (dialingRun ++ dialingAgainRun)).calls 0 =
      some (.dialing ⟨"orders", 0⟩ 1) := rfl
  have hfound : failedRun.found? 0 = some (.error (.connection "unreachable")) := by decide +kernel
  have hwaiting : failedRun.calls 1 = some (.waiting ⟨"orders", 0⟩) := rfl
  have hheld : (failedRun.cells ⟨"orders", 0⟩).lock.isHeldBy 1 = true := by decide +kernel
  obtain ⟨hempty, -, hnext, -⟩ := hslot _ _ 0 ⟨"orders", 0⟩ 1 _ _ hagain hfound
  refine ⟨?_, ?_, ?_, ?_, ?_, hfound, hempty, ?_, ?_⟩
  · rw [← hwait]
    exact hconnected twiceSettings ["refused"] 7 [] (by decide) (Or.inr (by decide +kernel))
  · rw [← hwait]
    exact hspent twiceSettings ["refused"] "unreachable" [.ok 7] (by decide +kernel) rfl
  · rw [← hwait]
    exact hpending twiceSettings ["refused"] (by decide) (Or.inr (by decide +kernel))
  · exact hunbounded {} [.error "refused", .ok 7] (.connection "refused") rfl
  · exact hdials _ dialingRun dialingAgainRun 0 ⟨"orders", 0⟩ twiceSettings hdialing rfl
      (by simp [dialingAgainRun])
  · exact hnext [] 1 ⟨"orders", 0⟩ rfl (Or.inl rfl) rfl hwaiting hheld
  · have halone : failedAloneRun.found? 0 = some (.error (.connection "unreachable")) := by
      decide +kernel
    obtain ⟨-, -, -, hbegins⟩ := hslot _ _ 0 ⟨"orders", 0⟩ 1 _ _ rfl halone
    exact hbegins 1 twiceSettings rfl rfl (by decide +kernel) (by decide +kernel)

end Connections

end AmqpDelivery
