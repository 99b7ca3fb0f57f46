import AmqpDelivery.Proofs.Rendezvous.Loss

/-!
# Deserted slots

A slot that was taken out of the file and left open may have tasks that wait there. If no other task
has it at hand, nobody comes to it any more (`State.Deserted`): nothing that is done by ids closes
or fills it, and closing everything does not reach it. Whoever sleeps there without a timeout sleeps
for ever.
-/

namespace AmqpDelivery.Rendezvous

variable {α : Type}

section Deserted

variable {s next : State α} {p : SlotId} {e : Event α} {t : TaskId} {x y : Stage α} {w : Wait}
  {notes : List (Note α)} {later : List (Event α)}

/-- Nobody comes to the slot any more, by an id or otherwise, but those who wait there, unwoken. -/
structure State.Deserted (s : State α) (p : SlotId) : Prop where
  made : p < s.made
  unfiled : ∀ id, (id, p) ∉ s.index
  vacant : (s.slots p).closed = false ∧ (s.slots p).value = none
  asleep : ∀ t, (s.slots p).hasWoken t = false
  alone : ∀ t x, s.tasks t = some x → x.Holds p → x.wait? ≠ none

/-- The event is about the slot at hand. -/
def Event.Mentions (p : SlotId) : Event α → Prop
  | .spawn _ call => call.slot? = some p
  | _ => False

theorem Slot.asleep_register {q : Slot α} (h : ∀ u, q.hasWoken u = false) (t u : TaskId) :
    (q.register t).hasWoken u = false := by
  have hnone := h u
  simp_all [hasWoken, register]

theorem Slot.asleep_forget {q : Slot α} (h : ∀ u, q.hasWoken u = false) (t u : TaskId) :
    (q.forget t).hasWoken u = false := by
  have hnone := h u
  simp_all [hasWoken, forget]

/-- Those who wait at a slot that is open and empty leave it so, and wake nobody. -/
theorem Turn.deserted {q q' : Slot α} (h : Turn p q e t x y q' notes) (hx : x.wait? ≠ none)
    (hvacant : q.closed = false ∧ q.value = none) (hasleep : ∀ u, q.hasWoken u = false) :
    (q'.closed = false ∧ q'.value = none) ∧ (∀ u, q'.hasWoken u = false) ∧
      (y.Holds p → y.wait? ≠ none) := by
  cases h with
  | register he hw =>
      exact ⟨hvacant, Slot.asleep_register hasleep t, fun _ => Option.some_ne_none _⟩
  | take he hw hclosed hvalue => cases hvacant.2.symm.trans hvalue
  | late he hw hclosed => cases hvacant.1.symm.trans hclosed
  | park he hw hclosed hvalue => exact ⟨hvacant, hasleep, fun _ => Option.some_ne_none _⟩
  | wake he hw hwoken => cases (hasleep t).symm.trans hwoken
  | expire he hw hid hwoken => exact ⟨hvacant, Slot.asleep_forget hasleep t, False.elim⟩
  | drop he hw => exact ⟨hvacant, Slot.asleep_forget hasleep t, False.elim⟩
  | _ => exact absurd rfl hx

theorem Stage.faces_of_holds (hx : x.wait? ≠ none) (hp : x.Holds p) : x.faces? = some p := by
  cases x with
  | listening w | checking w | parked w => exact congrArg some hp
  | _ => exact absurd rfl hx

/-- A deserted slot stays so, as long as nobody is given it at hand. -/
theorem State.Deserted.step (hd : s.Deserted p) (he : ¬ e.Mentions p) : (s.step e).Deserted p := by
  have hmade := Nat.lt_of_lt_of_le hd.made (s.made_le_step e)
  have hunfiled := unfiled_step hd.made hd.unfiled e
  have hview := s.step_view e hd.made
  generalize s.step e = next, s.notes e = notes at hview hmade hunfiled ⊢
  -- of the tasks only the one that moves has to be looked at
  have halone : ∀ {u y}, next.tasks = assign s.tasks u (some y) → (y.Holds p → y.wait? ≠ none) →
      ∀ t x, next.tasks t = some x → x.Holds p → x.wait? ≠ none := by
    intro u y htasks hy t x ht
    rw [htasks] at ht
    by_cases htu : t = u
    · subst htu
      obtain rfl : y = x := by simpa using ht
      exact hy
    · rw [assign_of_ne htu] at ht
      exact hd.alone t x ht
  have hkeep : next.slots p = s.slots p →
      (∀ t x, next.tasks t = some x → x.Holds p → x.wait? ≠ none) → next.Deserted p := by
    intro hslot hall
    refine ⟨hmade, hunfiled, ?_, ?_, hall⟩ <;> rw [hslot]
    · exact hd.vacant
    · exact hd.asleep
  cases hview with
  | rests hblocked hslot htasks hnotes =>
      apply hkeep hslot
      rw [htasks]
      exact hd.alone
  | begins hspawn ht hslot htasks hnotes =>
      subst hspawn
      exact hkeep hslot (halone htasks fun hy => absurd hy he)
  | @away t x y hown ht hx hact hslot htasks =>
      refine hkeep hslot (halone htasks fun hy => ?_)
      rcases hact.holds hy with hold | ⟨id, hfiled⟩
      · exact absurd (Stage.faces_of_holds (hd.alone t x ht hold) hold) hx
      · exact absurd hfiled (hd.unfiled id)
  | @turns t x y q notes hown ht hturn hslot htasks hnotes =>
      have hwaits := hd.alone t x ht (Stage.holds_of_faces hturn.faces)
      obtain ⟨hvacant, hasleep, hy⟩ := hturn.deserted hwaits hd.vacant hd.asleep
      exact ⟨hmade, hunfiled, by rwa [hslot], by rwa [hslot], halone htasks hy⟩

/-- A task that sleeps at a deserted slot without a timeout sleeps on, unless it is dropped. -/
theorem State.Deserted.sleeps (hd : s.Deserted p) (ht : s.tasks t = some (.parked w))
    (hw : w.slot = p) (hnever : w.deadline = none) (he : e ≠ .drop t) :
    (s.step e).tasks t = some (.parked w) := by
  subst hw
  rcases step_task ht e with hstay | ⟨y, -, hy, hact⟩
  · exact hstay
  · generalize hnext : s.step e = next, s.notes e = notes at hact
    cases hact with
    | pass h => cases h
    | hit he hclosed hfind h => cases h
    | miss he hfind h => cases h
    | opens he hclosed hfind h => cases h
    | removes he h => cases h
    | turns h =>
        cases h with
        | wake he' hslot hwoken =>
            subst hslot
            cases (hd.asleep t).symm.trans hwoken
        | expire he' hslot hid hwoken =>
            subst he'
            rw [← hnext]
            simp [State.step, act, ht, expire, hnever]
        | drop he' hslot => exact absurd he' he

theorem State.Deserted.run (hd : s.Deserted p) (ht : s.tasks t = some (.parked w))
    (hw : w.slot = p) (hnever : w.deadline = none)
    (hlater : ∀ e ∈ later, ¬ e.Mentions p ∧ e ≠ .drop t) :
    (s.run later).tasks t = some (.parked w) ∧ (s.run later).Deserted p := by
  induction later generalizing s with
  | nil => exact ⟨ht, hd⟩
  | cons e later ih =>
      obtain ⟨hmentions, hdrop⟩ := hlater e List.mem_cons_self
      exact ih (hd.step hmentions) (hd.sleeps ht hw hnever hdrop)
        fun d hin => hlater d (List.mem_cons_of_mem e hin)

end Deserted

/-- Two tasks wait by one id, one of them with a timeout. Its time runs out, and it takes the id out
of the file. Then everything is closed. -/
def forsakenByTimeout : List (Event Nat) :=
  [.spawn 1 (.get 1 true), .proceed 1, .spawn 2 (.wait 1 none), .proceed 2, .proceed 2, .proceed 2,
    .spawn 3 (.wait 1 (some 10)), .proceed 3, .proceed 3, .proceed 3,
    .advance 10, .expire 3, .proceed 3, .spawn 4 .closeAll, .proceed 4, .proceed 4]

/-- The wait that was left behind sleeps at an open slot when closing everything has returned and no
other task has anything to do, and nothing that is done by ids wakes it afterwards. -/
theorem wait_forsaken_by_timeout :
    callOf 2 forsakenByTimeout = some (.wait 1 none) ∧
      (State.empty.run forsakenByTimeout).outcome? 3 = some (.received (.error .timeout)) ∧
      (State.empty.run forsakenByTimeout).outcome? 4 = some .done ∧
      (State.empty.run forsakenByTimeout).tasks 2 = some (.parked ⟨.wait 1, 0, none⟩) ∧
      ((State.empty.run forsakenByTimeout).slots 0).closed = false ∧
      (State.empty.run forsakenByTimeout).canProceed 2 = false ∧
      (∀ t, t ≠ 2 → (State.empty.run forsakenByTimeout).canProceed t = false) ∧
      ∀ later, (∀ e ∈ later, ¬ e.Mentions 0 ∧ e ≠ .drop 2) →
        (State.empty.run (forsakenByTimeout ++ later)).tasks 2 =
          some (.parked ⟨.wait 1, 0, none⟩) := by
  have hothers : ∀ t x, (State.empty.run forsakenByTimeout).tasks t = some x → t ≠ 2 → x.Ended := by
    intro t x ht hne
    rcases t with _ | _ | _ | _ | _ | n
    case succ.succ.zero => exact absurd rfl hne
    case succ.succ.succ.succ.succ =>
      have hnone : (State.empty.run forsakenByTimeout).tasks (n + 5) = none :=
        State.run_unbegun rfl forsakenByTimeout (by simp [forsakenByTimeout, callOf, Event.asks?])
      cases hnone.symm.trans ht
    all_goals
      cases ht
      try exact trivial
  have hparked : (State.empty.run forsakenByTimeout).tasks 2 =
      some (.parked ⟨.wait 1, 0, none⟩) := rfl
  have hdeserted : (State.empty.run forsakenByTimeout).Deserted 0 := by
    refine ⟨Nat.zero_lt_one, fun id hin => List.not_mem_nil hin, ⟨rfl, rfl⟩, ?_, ?_⟩
    · intro t
      have hwaiters : ((State.empty.run forsakenByTimeout).slots 0).waiters = [⟨2, false⟩] := rfl
      simp [Slot.hasWoken, hwaiters]
    · intro t x ht hx
      by_cases h2 : t = 2
      · subst h2
        cases ht
        exact Option.some_ne_none _
      · have hended := hothers t x ht h2
        cases x <;> first | exact hx.elim | exact hended.elim
  refine ⟨rfl, rfl, rfl, hparked, rfl, rfl, ?_, ?_⟩
  · intro t hne
    cases ht : (State.empty.run forsakenByTimeout).tasks t with
    | none => simp [State.canProceed, ht]
    | some x =>
        have hended := hothers t x ht hne
        cases x <;> first | exact hended.elim | simp [State.canProceed, ht]
  · intro later hlater
    rw [State.run_append]
    exact (hdeserted.run hparked rfl rfl hlater).1

end AmqpDelivery.Rendezvous
