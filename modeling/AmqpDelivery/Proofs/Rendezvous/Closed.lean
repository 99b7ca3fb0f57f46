import AmqpDelivery.Proofs.Rendezvous.Desk
import AmqpDelivery.Proofs.Rendezvous.Errands

/-!
# The end of everything is final

A call that closes everything does so in its first section (`State.run_cleared`). From then on
everything is closed, and whoever looks for a slot is refused (`State.late_refused`).
-/

namespace AmqpDelivery.Rendezvous

variable {α : Type}

/-- What a call that looks for a slot answers once everything is closed. -/
def Call.refusal? : Call α → Option (Outcome α)
  | .get _ _ => some (.slot none)
  | .push _ _ | .route (some _) _ => some (.pushed (.error .closed))
  | .wait _ _ | .request _ _ => some (.received (.error .closed))
  | _ => none

section Acts

variable {s next : State α} {e : Event α} {t : TaskId} {y : Stage α} {notes : List (Note α)}
  {call : Call α} {outcome : Outcome α}

/-- A task that closes everything does so in its first section. -/
theorem Act.closes_all (h : Act s e t (.ready .closeAll) y next notes) :
    y = .dropped ∨ next.closed = true := by
  cases h with
  | pass h =>
      cases h with
      | unbegun call he => exact Or.inl rfl
  | hit he hclosed hfind h => cases h
  | miss he hfind h => cases h
  | opens he hclosed hfind h => cases h
  | removes he h => cases h
  | clears he => exact Or.inr rfl
  | turns h => cases h

/-- Once everything is closed, a call that looks for a slot is refused in its first section. -/
theorem Act.refused (h : Act s e t (.ready call) y next notes) (hclosed : s.closed = true)
    (hcall : call.refusal? = some outcome) : y = .finished outcome ∨ y = .dropped := by
  have hopen : s.closed ≠ false := by simp [hclosed]
  cases h with
  | pass h =>
      cases h with
      | unbegun call he => exact Or.inr rfl
      | _ => cases hcall
  | hit he hfalse hfind h => exact absurd hfalse hopen
  | miss he hfind h => cases h <;> (cases hcall; exact Or.inl rfl)
  | opens he hfalse hfind h => exact absurd hfalse hopen
  | makes he => cases hcall
  | removes he h => cases h <;> cases hcall
  | clears he => cases hcall
  | turns h => cases h

end Acts

namespace State

variable {s : State α} {t : TaskId} {x : Stage α} {call : Call α} {outcome : Outcome α}
  {es later : List (Event α)}

theorem closed_stays (hclosed : s.closed = true) (e : Event α) :
    (s.step e).closed = true := by
  have hchange := s.step_change e
  generalize s.step e = next, s.notes e = notes at hchange ⊢
  cases hchange with
  | rests now hblocked hbegun => exact hclosed
  | begins he ht => exact hclosed
  | acts he ht h => exact h.stays_closed hclosed

theorem closed_run (hclosed : s.closed = true) (later : List (Event α)) :
    (s.run later).closed = true := by
  induction later generalizing s with
  | nil => exact hclosed
  | cons e later ih => exact ih (closed_stays hclosed e)

/-- A call that closes everything has not begun, was dropped before, or has closed everything. -/
theorem run_clears (hcall : callOf t es = some .closeAll)
    (ht : (empty.run es).tasks t = some x) :
    x = .ready .closeAll ∨ x = .dropped ∨ (empty.run es).closed = true := by
  induction es using List.reverseRecOn generalizing x with
  | nil => cases ht
  | append_singleton es e ih =>
      rcases run_moved hcall ht with hready | ⟨z, hold, hasked, rfl | ⟨-, hact⟩⟩
      · exact Or.inl hready
      · rw [run_concat]
        exact (ih hasked hold).imp_right (Or.imp_right fun hc => closed_stays hc e)
      · right
        rcases ih hasked hold with rfl | rfl | hclosed
        · exact hact.closes_all
        · exact absurd trivial hact.not_ended
        · exact Or.inr (hact.stays_closed hclosed)

theorem run_cleared (hcall : callOf t es = some .closeAll)
    (hout : (empty.run es).outcome? t = some outcome) : (empty.run es).closed = true := by
  cases ht : (empty.run es).tasks t with
  | none => simp [outcome?, ht] at hout
  | some x =>
      rcases run_clears hcall ht with rfl | rfl | hclosed
      · simp [outcome?, ht] at hout
      · simp [outcome?, ht] at hout
      · exact hclosed

theorem refused_proceed (ht : s.tasks t = some (.ready call)) (hclosed : s.closed = true)
    (hcall : call.refusal? = some outcome) : (s.step (.proceed t)).outcome? t = some outcome := by
  have hstep : s.step (.proceed t) = s.start t call := step_proceed ht
  rw [hstep]
  cases call with
  | get id create =>
      cases hcall
      simp [start, get, hclosed, goto, outcome?]
  | push id value =>
      cases hcall
      simp [start, aim, get, hclosed, goto, outcome?]
  | route id? value =>
      cases id? with
      | none => cases hcall
      | some id =>
          cases hcall
          simp [start, aim, get, hclosed, goto, outcome?]
  | wait id timeoutMs =>
      cases hcall
      simp [start, await, get, hclosed, goto, outcome?, conclude]
  | request id ms =>
      cases hcall
      simp [start, get, hclosed, goto, outcome?]
  | _ => cases hcall

/-- A call that had not passed its first section when everything was closed is refused, unless it is
dropped before it begins. -/
theorem late_refused (hclosed : (empty.run es).closed = true) (hcall : call.refusal? = some outcome)
    (hfirst : ∀ z, (empty.run es).tasks t = some z → z = .ready call)
    (hasked : callOf t (es ++ later) = some call)
    (ht : (empty.run (es ++ later)).tasks t = some x) :
    x = .ready call ∨ x = .dropped ∨ x = .finished outcome := by
  induction later using List.reverseRecOn generalizing x with
  | nil =>
      rw [List.append_nil] at ht
      exact Or.inl (hfirst x ht)
  | append_singleton later e ih =>
      rw [← List.append_assoc] at hasked ht
      rcases run_moved hasked ht with hready | ⟨z, hold, hbefore, rfl | ⟨-, hact⟩⟩
      · exact Or.inl hready
      · exact ih hbefore hold
      · right
        rcases ih hbefore hold with rfl | rfl | rfl
        · have hstill : (empty.run (es ++ later)).closed = true := by
            rw [run_append]
            exact closed_run hclosed later
          exact (hact.refused hstill hcall).symm
        · exact absurd trivial hact.not_ended
        · exact absurd trivial hact.not_ended

end State

end AmqpDelivery.Rendezvous
