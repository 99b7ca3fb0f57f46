import AmqpDelivery.Proofs.Rendezvous.Reach

/-!
# What the tasks of a run are about

Most calls are about one id (`Call.id?`), and where a task stands fits what it was asked to do
(`Stage.Suits`): it carries the value that it was given, waits for the caller that it was, removes
no id but its own, and closes slots only if it was asked to. Slots at hand are named once they are
made (`State.Names`), so that a run reaches only states in which everything known is there.
-/

namespace AmqpDelivery.Rendezvous

variable {α : Type}

/-- The id that a call is about. -/
def Call.id? : Call α → Option UInt64
  | .get id _ | .push id _ | .wait id _ | .request id _ | .close id | .remove id => some id
  | .route id? _ => id?
  | _ => none

/-- The value that a call puts in. -/
def Call.value? : Call α → Option α
  | .push _ value | .route _ value | .slotPush _ value => some value
  | _ => none

/-- On whose behalf a call waits, if it does. -/
def Call.caller? : Call α → Option Caller
  | .wait id _ => some (.wait id)
  | .request id _ => some (.request id)
  | .slotPop _ => some .pop
  | _ => none

/-- The call closes slots. -/
def Call.Closes : Call α → Prop
  | .close _ | .closeAll | .slotClose _ => True
  | _ => False

/-- Where a task can stand that was asked to make the call. -/
def Stage.Suits (call : Call α) : Stage α → Prop
  | .ready own => own = call
  | .storing _ value => call.value? = some value
  | .announcing _ => call.value? ≠ none
  | .shutting _ | .rousing _ _ => call.Closes
  | .publishing id _ | .seeking id _ | .leaving id _ => ∃ ms, call = .request id ms
  | .listening w | .checking w | .parked w => call.caller? = some w.caller
  | .overdue id caller => call.id? = some id ∧ call.caller? = some caller
  | .finished _ | .dropped => True

/-- The slots at hand that the events name are made by then. -/
def State.Names (s : State α) : List (Event α) → Prop
  | [] => True
  | e :: rest => e.Known s.made ∧ (s.step e).Names rest

section Suits

variable {s next : State α} {p : SlotId} {e : Event α} {t : TaskId} {x y : Stage α}
  {notes : List (Note α)} {call : Call α} {id : UInt64}

theorem Call.request_of_caller (h : call.caller? = some (.request id)) :
    ∃ ms, call = .request id ms := by
  cases call with
  | request own ms =>
      cases h
      exact ⟨ms, rfl⟩
  | _ => cases h

/-- A wait that removes an id when its time runs out is about that id. -/
theorem Call.id_of_caller {w : Wait} (h : call.caller? = some w.caller) (hid : w.id? = some id) :
    call.id? = some id := by
  obtain ⟨caller, slot, deadline⟩ := w
  cases call with
  | wait own ms =>
      cases h
      exact hid
  | request own ms =>
      cases h
      exact hid
  | slotPop q =>
      cases h
      cases hid
  | _ => cases h

/-- A call that is about an id names no slot at hand. -/
theorem Call.slot_of_id (h : call.id? = some id) : call.slot? = none := by
  cases call <;> first | rfl | cases h

/-- A wait that returns has received its result. -/
theorem Caller.finished_resolved {caller : Caller} {outcome : Outcome α}
    {result : Except Failure α} (h : .finished outcome = caller.resolved result) :
    outcome = .received result := by
  cases caller with
  | request id => cases h
  | pop | wait id =>
      cases h
      rfl

theorem Call.suits_resolved {caller : Caller} (h : call.caller? = some caller)
    (result : Except Failure α) : (caller.resolved result).Suits call := by
  cases caller with
  | request id => exact request_of_caller h
  | pop => trivial
  | wait id => trivial

theorem Turn.suits {q q' : Slot α} (h : Turn p q e t x y q' notes) (hx : x.Suits call) :
    y.Suits call := by
  cases h with
  | @store value he hclosed hvalue =>
      intro hnone
      cases hnone.symm.trans hx
  | full he hclosed hvalue => trivial
  | refuse he hclosed => trivial
  | announce he => trivial
  | shut he => exact hx
  | rouse he => exact hx
  | register he hw => exact hx
  | take he hw hclosed hvalue => exact Call.suits_resolved hx _
  | late he hw hclosed => exact Call.suits_resolved hx _
  | park he hw hclosed hvalue => exact hx
  | wake he hw hwoken => exact hx
  | expire he hw hid hwoken => exact ⟨Call.id_of_caller hx hid, hx⟩
  | drop he hw => trivial

/-- A task goes on as its call has it. -/
theorem Act.suits (h : Act s e t x y next notes) (hx : x.Suits call) : y.Suits call := by
  cases h with
  | pass h =>
      cases h with
      | slotPush q value he =>
          cases hx
          rfl
      | slotPop q he =>
          cases hx
          rfl
      | slotClose q he =>
          cases hx
          trivial
      | published id ms u he => exact hx
      | unpublished id ms f he => exact hx
      | _ => trivial
  | hit he hclosed hfind h =>
      cases h with
      | get create => trivial
      | push value =>
          cases hx
          rfl
      | route value =>
          cases hx
          rfl
      | wait timeoutMs =>
          cases hx
          rfl
      | request ms =>
          cases hx
          exact ⟨ms, rfl⟩
      | seek ms =>
          obtain ⟨more, rfl⟩ := hx
          rfl
  | miss he hfind h =>
      cases h with
      | seek ms => exact hx
      | _ => trivial
  | opens he hclosed hfind h =>
      cases h with
      | get => trivial
      | request ms =>
          cases hx
          exact ⟨ms, rfl⟩
  | makes he => trivial
  | removes he h =>
      cases h with
      | close =>
          cases hx
          trivial
      | remove => trivial
      | overdue caller => exact Call.suits_resolved hx.2 _
      | leave result => trivial
  | clears he =>
      cases hx
      trivial
  | turns h => exact h.suits hx

end Suits

namespace State

variable {s : State α} {es fs : List (Event α)}

theorem names_append : s.Names (es ++ fs) ↔ s.Names es ∧ (s.run es).Names fs := by
  induction es generalizing s with
  | nil => exact (and_iff_right trivial).symm
  | cons e es ih =>
      show e.Known s.made ∧ (s.step e).Names (es ++ fs) ↔
        (e.Known s.made ∧ (s.step e).Names es) ∧ ((s.step e).run es).Names fs
      rw [ih, and_assoc]

theorem Names.before (h : s.Names (es ++ fs)) : s.Names es := (names_append.mp h).1

theorem Reachable.run_names (h : s.Reachable) (hnames : s.Names es) : (s.run es).Reachable := by
  induction es generalizing s with
  | nil => exact h
  | cons e es ih => exact ih (h.step hnames.1) hnames.2

/-- The states of a run that names slots at hand once they are made. -/
theorem Names.reachable (h : (empty : State α).Names es) : (empty.run es).Reachable :=
  Reachable.empty.run_names h

/-- How a task came to stand where it stands at the end of a run: it was begun by the last event, or
it stood somewhere before and stayed there or acted. -/
theorem run_moved {e : Event α} {t : TaskId} {x : Stage α} {call : Call α}
    (hcall : callOf t (es ++ [e]) = some call) (ht : (empty.run (es ++ [e])).tasks t = some x) :
    x = .ready call ∨ ∃ z, (empty.run es).tasks t = some z ∧ callOf t es = some call ∧
      (x = z ∨ e.task? = some t ∧
        Act (empty.run es) e t z x (empty.run (es ++ [e])) ((empty.run es).notes e)) := by
  rw [run_concat] at ht ⊢
  cases hold : (empty.run es).tasks t with
  | none =>
      left
      rw [callOf_concat, not_asked es hold, Option.none_or] at hcall
      rw [step_unbegun hold, hcall] at ht
      exact (Option.some.inj ht).symm
  | some z =>
      right
      have hthere : (empty.run es).tasks t ≠ none := by simp [hold]
      refine ⟨z, rfl, asked_before (by rfl) hthere hcall, ?_⟩
      rcases step_task hold e with hstay | ⟨y, he, hy, hact⟩
      · exact Or.inl (Option.some.inj (ht.symm.trans hstay))
      · obtain rfl := Option.some.inj (hy.symm.trans ht)
        exact Or.inr ⟨he, hact⟩

/-- A task that is there was asked to make a call. -/
theorem run_called {t : TaskId} (ht : (empty.run es).tasks t ≠ none) :
    ∃ call, callOf t es = some call := by
  cases hcall : callOf t es with
  | some call => exact ⟨call, rfl⟩
  | none => exact absurd (run_unbegun rfl es hcall) ht

/-- Every task of a run stands where its call brings it. -/
theorem run_suits {t : TaskId} {x : Stage α} {call : Call α} (hcall : callOf t es = some call)
    (ht : (empty.run es).tasks t = some x) : x.Suits call := by
  induction es using List.reverseRecOn generalizing x with
  | nil => cases ht
  | append_singleton es e ih =>
      rcases run_moved hcall ht with rfl | ⟨z, hold, hasked, rfl | ⟨-, hact⟩⟩
      · rfl
      · exact ih hasked hold
      · exact hact.suits (ih hasked hold)

end State

end AmqpDelivery.Rendezvous
