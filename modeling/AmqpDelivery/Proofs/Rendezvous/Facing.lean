import AmqpDelivery.Proofs.Rendezvous.Begun

/-!
# A rendezvous seen from one slot

The next section of a task faces at most one slot (`Stage.faces?`). Seen from a slot that is made, an
event is a turn of a task that faces the slot, or it leaves the slot as it is (`State.step_view`).
-/

namespace AmqpDelivery.Rendezvous

variable {α : Type}

/-- The slot that the next section of a task is about. -/
def Stage.faces? : Stage α → Option SlotId
  | .storing p _ | .announcing p | .shutting (p :: _) | .rousing p _ => some p
  | .listening w | .checking w | .parked w => some w.slot
  | _ => none

/-- The slot that a task stands in the midst of: it has changed the slot and not told the waiters, or
it is one of the waiters. -/
def Stage.midst? : Stage α → Option SlotId
  | .announcing p | .rousing p _ => some p
  | .checking w | .parked w => some w.slot
  | _ => none

/-- What one event does at the slot `p` and to the tasks. -/
inductive View (s : State α) (p : SlotId) (e : Event α) (next : State α) (notes : List (Note α)) :
    Prop
  /-- No task moves. -/
  | rests (hblocked : ∀ t, e = .proceed t → s.canProceed t = false)
      (hslot : next.slots p = s.slots p) (htasks : next.tasks = s.tasks) (hnotes : notes = [])
  /-- A task begins. -/
  | begins {t : TaskId} {call : Call α} (he : e = .spawn t call) (ht : s.tasks t = none)
      (hslot : next.slots p = s.slots p)
      (htasks : next.tasks = assign s.tasks t (some (.ready call))) (hnotes : notes = [])
  /-- A task that does not face the slot acts. -/
  | away {t : TaskId} {x y : Stage α} (he : e.task? = some t) (ht : s.tasks t = some x)
      (hx : x.faces? ≠ some p) (hact : Act s e t x y next notes)
      (hslot : next.slots p = s.slots p) (htasks : next.tasks = assign s.tasks t (some y))
  /-- A task turns to the slot. -/
  | turns {t : TaskId} {x y : Stage α} {q : Slot α} {own : List (Note α)} (he : e.task? = some t)
      (ht : s.tasks t = some x) (hturn : Turn p (s.slots p) e t x y q own)
      (hslot : next.slots p = q) (htasks : next.tasks = assign s.tasks t (some y))
      (hnotes : notes = own ++ y.endNotes t)

/-- A task in the midst of a slot faces it. -/
theorem Stage.faces_of_midst {x : Stage α} {p : SlotId} (hx : x.midst? = some p) :
    x.faces? = some p := by
  unfold midst? at hx
  split at hx <;> simp_all [faces?]

section Acts

variable {s next : State α} {p : SlotId} {e : Event α} {t : TaskId} {x y : Stage α}
  {notes : List (Note α)}

/-- A task turns to the slot that it faces. -/
theorem Turn.faces {q q' : Slot α} (h : Turn p q e t x y q' notes) : x.faces? = some p := by
  cases h with
  | register he hw => rw [← hw]; rfl
  | take he hw hclosed hvalue => rw [← hw]; rfl
  | late he hw hclosed => rw [← hw]; rfl
  | park he hw hclosed hvalue => rw [← hw]; rfl
  | wake he hw hwoken => rw [← hw]; rfl
  | expire he hw hid hwoken => rw [← hw]; rfl
  | drop he hw => rw [← hw]; rfl
  | _ => rfl

/-- A turn brings a task into the midst of no other slot. -/
theorem Turn.midst {q q' : Slot α} (h : Turn p q e t x y q' notes) {r : SlotId}
    (hy : y.midst? = some r) : r = p := by
  cases h with
  | announce he => simp [Stage.midst?] at hy
  | rouse he => simp [Stage.midst?] at hy
  | take he hw hclosed hvalue => unfold Caller.resolved at hy; split at hy <;> cases hy
  | late he hw hclosed => unfold Caller.resolved at hy; split at hy <;> cases hy
  | _ => simp_all [Stage.midst?]

/-- Only a task that faces a slot comes into its midst. -/
theorem Act.midst (h : Act s e t x y next notes) (hx : x.faces? ≠ some p) :
    y.midst? ≠ some p := by
  intro hy
  cases h with
  | pass h => cases h <;> cases hy
  | hit he hclosed hfind h => cases h <;> cases hy
  | miss he hfind h => cases h <;> cases hy
  | opens he hclosed hfind h => cases h <;> cases hy
  | makes he => cases hy
  | removes he h =>
      cases h with
      | overdue caller => cases caller <;> cases hy
      | _ => cases hy
  | clears he => cases hy
  | turns h =>
      apply hx
      rw [h.faces, h.midst hy]

/-- An act is a turn to the slot `p` or leaves it as it is. -/
theorem Act.view (h : Act s e t x y next notes) (he : e.task? = some t) (ht : s.tasks t = some x)
    (hmade : p < s.made) : View s p e next notes := by
  have htasks := h.tasks
  have hother : ∀ q : Slot α, assign s.slots s.made q p = s.slots p :=
    fun q => assign_of_ne (Nat.ne_of_lt hmade)
  cases h with
  | pass h => exact .away he ht (by cases h <;> simp [Stage.faces?]) (.pass h) rfl htasks
  | hit he' hclosed hfind h =>
      exact .away he ht (by cases h <;> simp [Stage.faces?]) (.hit he' hclosed hfind h) rfl htasks
  | miss he' hfind h =>
      exact .away he ht (by cases h <;> simp [Stage.faces?]) (.miss he' hfind h) rfl htasks
  | opens he' hclosed hfind h =>
      exact .away he ht (by cases h <;> simp [Stage.faces?]) (.opens he' hclosed hfind h)
        (hother _) htasks
  | makes he' => exact .away he ht (by simp [Stage.faces?]) (.makes he') (hother _) htasks
  | removes he' h =>
      exact .away he ht (by cases h <;> simp [Stage.faces?]) (.removes he' h) rfl htasks
  | clears he' => exact .away he ht (by simp [Stage.faces?]) (.clears he') rfl htasks
  | @turns x y r q notes h =>
      by_cases hr : p = r
      · subst hr
        exact .turns he ht h (assign_self _ _ _) htasks rfl
      · have hx : x.faces? ≠ some p := by
          rw [h.faces]
          simpa using fun heq => hr heq.symm
        exact .away he ht hx (.turns h) (assign_of_ne hr) htasks

end Acts

namespace State

/-- Every event, seen from a slot that is made. -/
theorem step_view (s : State α) (e : Event α) {p : SlotId} (hmade : p < s.made) :
    View s p e (s.step e) (s.notes e) := by
  have hchange := s.step_change e
  generalize s.step e = next, s.notes e = notes at hchange
  cases hchange with
  | rests now hblocked hbegun => exact .rests hblocked rfl rfl rfl
  | begins he ht => exact .begins he ht rfl rfl rfl
  | acts he ht h => exact h.view he ht hmade

/-- Slots are never unmade. -/
theorem made_le_step (s : State α) (e : Event α) : s.made ≤ (s.step e).made := by
  have hchange := s.step_change e
  generalize s.step e = next, s.notes e = notes at hchange
  cases hchange with
  | rests now hblocked hbegun => exact Nat.le_refl _
  | begins he ht => exact Nat.le_refl _
  | acts he ht h =>
      cases h with
      | opens he' hclosed hfind h => exact Nat.le_succ _
      | makes he' => exact Nat.le_succ _
      | _ => exact Nat.le_refl _

theorem made_le_run (s : State α) (events : List (Event α)) : s.made ≤ (s.run events).made := by
  induction events generalizing s with
  | nil => exact Nat.le_refl _
  | cons e events ih => exact Nat.le_trans (s.made_le_step e) (ih (s.step e))

end State

end AmqpDelivery.Rendezvous
