import AmqpDelivery.Proofs.Connections.Attempts
import AmqpDelivery.Proofs.Connections.Single

/-!
# How a look-up dials

What a look-up does while it dials is read off a run (`Connections.dialHistory`): its attempts and
the waits between them. They are those of the dial record of its attempts, and the look-up stands
where the record ends (`Connections.dials_run`), unless it is dropped.
-/

namespace AmqpDelivery

/-- Something that a look-up does while it dials. -/
inductive DialNote where
  /-- An attempt ends. -/
  | attempt (result : Except String Unit)
  /-- A wait of so many milliseconds begins. -/
  | pause (ms : UInt64)

/-- Attempts and waits in turn, an attempt first. -/
def inTurn : List (Except String Unit) → List UInt64 → List DialNote
  | [], _ => []
  | result :: results, [] => .attempt result :: inTurn results []
  | result :: results, ms :: waits => .attempt result :: .pause ms :: inTurn results waits

/-- The task whose call an event moves on, if any does. -/
def ConnectionEvent.task? : ConnectionEvent → Option TaskId
  | .spawn t _ | .proceed t | .dialed t _ | .rested t | .drop t => some t
  | .hangUp _ | .discard _ => none

namespace Connections

/-- The wait that the task is in. -/
def pauseOf? (s : Connections) (t : TaskId) : Option UInt64 :=
  match s.calls t with
  | some (.pausing _ _ ms) => some ms
  | _ => none

/-- The task has an attempt under way. -/
def isDialing (s : Connections) (t : TaskId) : Bool :=
  match s.calls t with
  | some (.dialing _ _) => true
  | _ => false

/-- What the task does in one step as it dials. -/
def dialNotes (s : Connections) (t : TaskId) (ev : ConnectionEvent) : List DialNote :=
  match ev with
  | .dialed u result =>
      if u = t ∧ s.isDialing t then
        .attempt result :: ((s.step ev).pauseOf? t).toList.map DialNote.pause
      else []
  | _ => []

/-- What the task does in a run as it dials. -/
def dialHistory (s : Connections) (t : TaskId) : List ConnectionEvent → List DialNote
  | [] => []
  | ev :: rest => s.dialNotes t ev ++ (s.step ev).dialHistory t rest

section Steps

variable {s s' : Connections} {t : TaskId} {ev : ConnectionEvent} {stage next : ConnectionStage}
  {cell : CellId} {failures : UInt32} {result : Except Failure ConnectionId}

theorem Moves.settings (h : s.Moves t stage s' next) : s'.settings = s.settings := by
  have hdiscard : ∀ cell, (s.discardCached cell).settings = s.settings := by
    intro cell
    unfold discardCached
    split <;> rfl
  rcases h with h | h
  · cases h with
    | dials | drops => exact hdiscard _
    | _ => rfl
  · cases h <;> rfl

theorem step_settings (s : Connections) (ev : ConnectionEvent) :
    (s.step ev).settings = s.settings := by
  have hchange := s.step_change ev
  generalize s.step ev = s' at hchange
  cases hchange with
  | passes hstage hpasses =>
      have hsettings := Moves.settings (Or.inl hpasses)
      exact hsettings
  | answered hstage hanswered =>
      have hsettings := Moves.settings (Or.inr hanswered)
      exact hsettings
  | _ => rfl

theorem run_settings (s : Connections) (events : List ConnectionEvent) :
    (s.run events).settings = s.settings := by
  induction events generalizing s with
  | nil => rfl
  | cons ev rest ih => exact (ih (s.step ev)).trans (s.step_settings ev)

theorem reconnectOf_step (s : Connections) (ev : ConnectionEvent) (pool : String) :
    (s.step ev).reconnectOf pool = s.reconnectOf pool := by
  rw [reconnectOf, s.step_settings, reconnectOf]

/-- A call of another task stays where it is. -/
theorem calls_step_of_ne (h : ev.task? ≠ some t) : (s.step ev).calls t = s.calls t := by
  have hact : ∀ {u : TaskId} {f : ConnectionStage → Connections}, t ≠ u →
      (∀ stage, f stage = s ∨ ∃ s' next, f stage = s'.goto u next ∧ s.Moves u stage s' next) →
      (s.act u f).calls t = s.calls t := by
    intro u f hne hf
    unfold act
    split
    · next stage _ =>
      rcases hf stage with hsame | ⟨s', next, hnext, hmoves⟩
      · rw [hsame]
      · rw [hnext, s'.calls_goto_of_ne hne, hmoves.calls]
    · rfl
  have hanswers : ∀ {u : TaskId} {stage : ConnectionStage} {x : Connections},
      (x = s ∨ ∃ s' next, x = s'.goto u next ∧ s.Answered u stage s' next) →
      x = s ∨ ∃ s' next, x = s'.goto u next ∧ s.Moves u stage s' next := by
    rintro u stage x (hsame | ⟨s', next, hnext, hanswered⟩)
    · exact Or.inl hsame
    · exact Or.inr ⟨s', next, hnext, Or.inr hanswered⟩
  have hne : ∀ u, ev.task? = some u → t ≠ u := by
    rintro u hu rfl
    exact h hu
  cases ev with
  | spawn u call =>
      simp only [step]
      split
      · exact s.calls_goto_of_ne (hne u rfl)
      · rfl
  | proceed u =>
      refine hact (hne u rfl) fun stage => ?_
      rcases s.proceed_passes u stage with hsame | ⟨s', next, hnext, hpasses⟩
      · exact Or.inl hsame
      · exact Or.inr ⟨s', next, hnext, Or.inl hpasses⟩
  | dialed u result =>
      exact hact (hne u rfl) fun stage => hanswers (s.dialed_answered u result stage)
  | rested u => exact hact (hne u rfl) fun stage => hanswers (s.rested_answered u stage)
  | drop u => exact hact (hne u rfl) fun stage => hanswers (s.drop_answered u stage)
  | hangUp c => rfl
  | discard c => rfl

/-- A look-up that has ended stays so. -/
theorem calls_step_of_found (h : s.calls t = some (.found result)) (ev : ConnectionEvent) :
    (s.step ev).calls t = some (.found result) := by
  by_cases htask : ev.task? = some t
  · cases ev with
    | hangUp c | discard c => cases htask
    | _ =>
        cases htask
        simp only [step, act, h, proceed, dialed, rested, drop]
  · rw [calls_step_of_ne htask, h]

theorem calls_run_of_found (h : s.calls t = some (.found result)) (events : List ConnectionEvent) :
    (s.run events).calls t = some (.found result) := by
  induction events generalizing s with
  | nil => exact h
  | cons ev rest ih => exact ih (calls_step_of_found h ev)

theorem dialNotes_of_not_dialing (h : s.isDialing t = false) (ev : ConnectionEvent) :
    s.dialNotes t ev = [] := by
  cases ev with
  | dialed u result => simp [dialNotes, h]
  | _ => rfl

/-- A look-up that has ended dials no more. -/
theorem dialHistory_of_found (h : s.calls t = some (.found result))
    (events : List ConnectionEvent) : s.dialHistory t events = [] := by
  induction events generalizing s with
  | nil => rfl
  | cons ev rest ih =>
      have hidle : s.isDialing t = false := by rw [isDialing, h]
      rw [dialHistory, dialNotes_of_not_dialing hidle, ih (calls_step_of_found h ev),
        List.nil_append]

end Steps

/-- The look-up dials for the cell, so many attempts having failed. -/
def DialsOn (s : Connections) (t : TaskId) (cell : CellId) (failures : UInt32) : Prop :=
  s.calls t = some (.dialing cell failures) ∨ ∃ ms, s.calls t = some (.pausing cell failures ms)

/-- What one event does to a look-up that dials and is not dropped. -/
inductive DialStep (s : Connections) (t : TaskId) (cell : CellId) (failures : UInt32) :
    ConnectionEvent → Prop
  /-- It goes on with what it is at, or its wait is over. -/
  | stays {ev : ConnectionEvent} (hnotes : s.dialNotes t ev = [])
      (hnext : (s.step ev).DialsOn t cell failures)
      (hpause : ∀ ms, (s.step ev).pauseOf? t = some ms → s.pauseOf? t = some ms) :
      DialStep s t cell failures ev
  | connects (hnotes : s.dialNotes t (.dialed t (.ok ())) = [.attempt (.ok ())])
      (hnext : (s.step (.dialed t (.ok ()))).calls t =
        some (.found (.ok ⟨cell.pool, s.linksMade cell.pool⟩))) :
      DialStep s t cell failures (.dialed t (.ok ()))
  | retries {text : String} {ms : UInt64}
      (hretry : afterFailure (s.reconnectOf cell.pool) (failures + 1) text = .retryAfter ms)
      (hnotes : s.dialNotes t (.dialed t (.error text)) = [.attempt (.error text), .pause ms])
      (hnext : (s.step (.dialed t (.error text))).calls t =
        some (.pausing cell (failures + 1) ms)) :
      DialStep s t cell failures (.dialed t (.error text))
  | givesUp {text : String} {f : Failure}
      (hgive : afterFailure (s.reconnectOf cell.pool) (failures + 1) text = .giveUp f)
      (hnotes : s.dialNotes t (.dialed t (.error text)) = [.attempt (.error text)])
      (hnext : (s.step (.dialed t (.error text))).calls t = some (.found (.error f))) :
      DialStep s t cell failures (.dialed t (.error text))

/-- How a look-up stands at the end of the events that dials from now on, so many attempts having
failed before, if its attempts and waits are those of the record. -/
inductive DialsTo (s : Connections) (t : TaskId) (events : List ConnectionEvent) (cell : CellId)
    (failures : UInt32) (r : DialRecord Unit) : Prop
  /-- An attempt is under way. -/
  | attempts (hresult : r.result = none)
      (hstage : (s.run events).calls t =
        some (.dialing cell (failures + UInt32.ofNat r.attempts)))
  /-- It is in the last wait of the record, or in the one that it was in. -/
  | waits {ms : UInt64} (hresult : r.result = none)
      (hms : r.waits.getLast?.or (s.pauseOf? t) = some ms)
      (hstage : (s.run events).calls t =
        some (.pausing cell (failures + UInt32.ofNat r.attempts) ms))
  /-- It has found the connection that came of an attempt. -/
  | connected (earlier later : List ConnectionEvent) (hresult : r.result = some (.ok ()))
      (hevents : events = earlier ++ .dialed t (.ok ()) :: later)
      (hfound : (s.run events).found? t =
        some (.ok ⟨cell.pool, (s.run earlier).linksMade cell.pool⟩))
  | failed {f : Failure} (hresult : r.result = some (.error f))
      (hfound : (s.run events).found? t = some (.error f))

section Dials

variable {s : Connections} {t : TaskId} {ev : ConnectionEvent} {events : List ConnectionEvent}
  {cell : CellId} {failures : UInt32}

/-- A look-up that an event does not touch dials on. -/
theorem DialsOn.stays (h : s.DialsOn t cell failures) (hnotes : s.dialNotes t ev = [])
    (hcalls : (s.step ev).calls t = s.calls t) : s.DialStep t cell failures ev := by
  refine .stays hnotes ?_ ?_
  · rw [DialsOn, hcalls]
    exact h
  · intro ms hms
    rw [pauseOf?, hcalls] at hms
    exact hms

theorem isDialing_of_pausing {ms : UInt64} (h : s.calls t = some (.pausing cell failures ms)) :
    s.isDialing t = false := by
  rw [isDialing, h]

theorem step_dialing (hstage : s.calls t = some (.dialing cell failures)) (hdrop : ev ≠ .drop t)
    (htask : ev.task? = some t) : s.DialStep t cell failures ev := by
  have hdials : s.DialsOn t cell failures := Or.inl hstage
  have hdialing : s.isDialing t = true := by rw [isDialing, hstage]
  cases ev with
  | dialed u result =>
      obtain rfl : u = t := Option.some.inj htask
      cases result with
      | ok v =>
          have hnext : (s.step (.dialed u (.ok ()))).calls u =
              some (.found (.ok ⟨cell.pool, s.linksMade cell.pool⟩)) := by
            simp only [step, act, hstage, dialed, establish, conclude]
            exact calls_goto_self ..
          refine .connects ?_ hnext
          simp [dialNotes, hdialing, pauseOf?, hnext]
      | error text =>
          cases hafter : afterFailure (s.reconnectOf cell.pool) (failures + 1) text with
          | giveUp f =>
              have hnext : (s.step (.dialed u (.error text))).calls u =
                  some (.found (.error f)) := by
                simp only [step, act, hstage, dialed, hafter, conclude]
                exact calls_goto_self ..
              refine .givesUp hafter ?_ hnext
              simp [dialNotes, hdialing, pauseOf?, hnext]
          | retryAfter ms =>
              have hnext : (s.step (.dialed u (.error text))).calls u =
                  some (.pausing cell (failures + 1) ms) := by
                simp only [step, act, hstage, dialed, hafter]
                exact calls_goto_self ..
              refine .retries hafter ?_ hnext
              simp [dialNotes, hdialing, pauseOf?, hnext]
  | drop u =>
      obtain rfl : u = t := Option.some.inj htask
      exact absurd rfl hdrop
  | hangUp c | discard c => cases htask
  | _ =>
      cases htask
      exact hdials.stays rfl (by simp only [step, act, hstage, proceed, rested])

theorem step_pausing {ms : UInt64} (hstage : s.calls t = some (.pausing cell failures ms))
    (hdrop : ev ≠ .drop t) (htask : ev.task? = some t) : s.DialStep t cell failures ev := by
  have hdials : s.DialsOn t cell failures := Or.inr ⟨ms, hstage⟩
  have hnotes := dialNotes_of_not_dialing (isDialing_of_pausing hstage)
  cases ev with
  | rested u =>
      obtain rfl : u = t := Option.some.inj htask
      have hnext : (s.step (.rested u)).calls u = some (.dialing cell failures) := by
        simp only [step, act, hstage, rested]
        exact calls_goto_self ..
      refine .stays (hnotes _) (Or.inl hnext) ?_
      intro ms' hms'
      rw [pauseOf?, hnext] at hms'
      cases hms'
  | drop u =>
      obtain rfl : u = t := Option.some.inj htask
      exact absurd rfl hdrop
  | hangUp c | discard c => cases htask
  | _ =>
      cases htask
      exact hdials.stays (hnotes _) (by simp only [step, act, hstage, proceed, dialed])

theorem dialNotes_of_ne (h : ev.task? ≠ some t) : s.dialNotes t ev = [] := by
  cases ev with
  | dialed u result =>
      have hne : u ≠ t := fun heq => h (congrArg some heq)
      simp [dialNotes, hne]
  | _ => rfl

/-- A look-up that dials does one of the steps, unless it is dropped. -/
theorem DialsOn.step (h : s.DialsOn t cell failures) (hdrop : ev ≠ .drop t) :
    s.DialStep t cell failures ev := by
  by_cases htask : ev.task? = some t
  · rcases h with hstage | ⟨ms, hstage⟩
    · exact step_dialing hstage hdrop htask
    · exact step_pausing hstage hdrop htask
  · exact h.stays (dialNotes_of_ne htask) (calls_step_of_ne htask)

theorem add_ofNat_succ (n : UInt32) (k : Nat) :
    n + 1 + UInt32.ofNat k = n + UInt32.ofNat (k + 1) := by
  rw [UInt32.add_assoc, UInt32.add_comm 1, ofNat_succ]

/-- A step that is not an attempt leaves open what is yet to come. -/
theorem DialsTo.stays {r : DialRecord Unit}
    (h : (s.step ev).DialsTo t events cell failures r)
    (hpause : ∀ ms, (s.step ev).pauseOf? t = some ms → s.pauseOf? t = some ms) :
    s.DialsTo t (ev :: events) cell failures r := by
  cases h with
  | attempts hresult hstage => exact .attempts hresult hstage
  | waits hresult hms hstage =>
      refine .waits hresult ?_ hstage
      cases hlast : r.waits.getLast? with
      | some last => rwa [hlast] at hms
      | none =>
          rw [hlast, Option.none_or] at hms
          exact hpause _ hms
  | connected earlier later hresult hevents hfound =>
      exact .connected (ev :: earlier) later hresult (congrArg (List.cons ev) hevents) hfound
  | failed hresult hfound => exact .failed hresult hfound

/-- The attempt that fails and the wait that follows it come before what is yet to come. -/
theorem DialsTo.retries {r : DialRecord Unit} {ms : UInt64}
    (h : (s.step ev).DialsTo t events cell (failures + 1) r)
    (hpause : (s.step ev).pauseOf? t = some ms) :
    s.DialsTo t (ev :: events) cell failures (r.after 1 [ms]) := by
  cases h with
  | attempts hresult hstage =>
      rw [add_ofNat_succ] at hstage
      exact .attempts hresult hstage
  | @waits last hresult hms hstage =>
      rw [add_ofNat_succ] at hstage
      refine .waits hresult ?_ hstage
      rw [hpause] at hms
      show ([ms] ++ r.waits).getLast?.or _ = some last
      rw [List.getLast?_append]
      cases hlast : r.waits.getLast? with
      | some last' => rwa [hlast] at hms
      | none => rwa [hlast] at hms
  | connected earlier later hresult hevents hfound =>
      exact .connected (ev :: earlier) later hresult (congrArg (List.cons ev) hevents) hfound
  | failed hresult hfound => exact .failed hresult hfound

/-- What a look-up does as it dials, and where it stands then, is what the dial record of its
attempts says. -/
theorem dials_run (hdials : s.DialsOn t cell failures) (hdrop : .drop t ∉ events) :
    ∃ results : List (Except String Unit),
      let r := dialFrom (s.reconnectOf cell.pool) failures results
      s.dialHistory t events = inTurn results r.waits ∧ r.attempts = results.length ∧
        s.DialsTo t events cell failures r := by
  induction events generalizing s failures with
  | nil =>
      refine ⟨[], rfl, rfl, ?_⟩
      rcases hdials with hstage | ⟨ms, hstage⟩
      · exact .attempts rfl (hstage.trans (by simp [dialFrom]))
      · have hpause : s.pauseOf? t = some ms := by rw [pauseOf?, hstage]
        exact .waits rfl hpause (hstage.trans (by simp [dialFrom]))
  | cons ev rest ih =>
      have hev : ev ≠ .drop t := fun h => hdrop (h ▸ List.mem_cons_self)
      have hrest : .drop t ∉ rest := fun h => hdrop (List.mem_cons_of_mem ev h)
      cases hdials.step hev with
      | stays hnotes hnext hpause =>
          obtain ⟨results, hhistory, hattempts, hto⟩ := ih hnext hrest
          rw [reconnectOf_step] at hhistory hattempts hto
          refine ⟨results, ?_, hattempts, hto.stays hpause⟩
          rw [dialHistory, hnotes, List.nil_append, hhistory]
      | connects hnotes hnext =>
          refine ⟨[.ok ()], ?_, rfl, ?_⟩
          · rw [dialHistory, hnotes, dialHistory_of_found hnext, List.append_nil]
            rfl
          · refine .connected [] rest rfl rfl (found?_eq_some.mpr ?_)
            exact calls_run_of_found hnext rest
      | @retries text ms hretry hnotes hnext =>
          obtain ⟨results, hhistory, hattempts, hto⟩ := ih (Or.inr ⟨ms, hnext⟩) hrest
          rw [reconnectOf_step] at hhistory hattempts hto
          have hpause : (s.step (.dialed t (.error text))).pauseOf? t = some ms := by
            rw [pauseOf?, hnext]
          refine ⟨.error text :: results, ?_⟩
          rw [dialFrom_error_of_retry hretry]
          refine ⟨?_, congrArg (· + 1) hattempts, hto.retries hpause⟩
          rw [dialHistory, hnotes, hhistory]
          rfl
      | @givesUp text f hgive hnotes hnext =>
          refine ⟨[.error text], ?_⟩
          rw [dialFrom_error_of_giveUp hgive]
          refine ⟨?_, rfl, .failed rfl (found?_eq_some.mpr (calls_run_of_found hnext rest))⟩
          rw [dialHistory, hnotes, dialHistory_of_found hnext, List.append_nil]
          rfl

end Dials

end Connections

end AmqpDelivery
