import AmqpDelivery.Proofs.Rendezvous.Spent

/-!
# A run without one of the replies

Two runs go side by side, one with the steps of the task `r` and one without them. As long as `r`
touches nothing but slots that no request waits at, the runs differ in nothing else than `r`, those
slots and what other replies find there (`Shadow`), and no request can tell them apart.
-/

namespace AmqpDelivery.Rendezvous

variable {α : Type} {D E : SlotId → Prop} {r t : TaskId} {a b c : State α} {x y : Stage α}

/-- A reply that is being put into one of the slots of `D`, or that has ended. -/
def Stage.Spare (D : SlotId → Prop) : Stage α → Prop
  | .storing slot _ | .announcing slot => D slot
  | .finished (.pushed _) => True
  | _ => False

/-- The state `b` is the state `a` without the task `r`, but for the slots of `D`. -/
structure Shadow (D : SlotId → Prop) (r : TaskId) (a b : State α) : Prop where
  made : b.made = a.made
  index : b.index = a.index
  closed : b.closed = a.closed
  now : b.now = a.now
  slots : ∀ slot, D slot ∨ b.slots slot = a.slots slot
  tasks : ∀ t, t ≠ r → b.tasks t = a.tasks t ∨
    ∃ x y, a.tasks t = some x ∧ b.tasks t = some y ∧ x.Spare D ∧ y.Spare D
  absent : b.tasks r = none

/-- A step of the task `t` that changes nothing but its stage and the slots of `D`. -/
structure Drift (D : SlotId → Prop) (t : TaskId) (a c : State α) : Prop where
  made : c.made = a.made
  index : c.index = a.index
  closed : c.closed = a.closed
  now : c.now = a.now
  slots : ∀ slot, D slot ∨ c.slots slot = a.slots slot
  tasks : ∀ u, u ≠ t → c.tasks u = a.tasks u

theorem Stage.Spare.mono (hD : ∀ slot, D slot → E slot) (hx : x.Spare D) : x.Spare E := by
  cases x with
  | storing slot value => exact hD slot hx
  | announcing slot => exact hD slot hx
  | finished outcome =>
      cases outcome with
      | pushed result => trivial
      | _ => exact hx.elim
  | _ => exact hx.elim

theorem Shadow.mono (hs : Shadow D r a b) (hD : ∀ slot, D slot → E slot) : Shadow E r a b where
  made := hs.made
  index := hs.index
  closed := hs.closed
  now := hs.now
  slots := fun slot => (hs.slots slot).imp_left (hD slot)
  tasks := by
    intro t ht
    rcases hs.tasks t ht with hsame | ⟨x, y, hx, hy, hsx, hsy⟩
    · exact Or.inl hsame
    · exact Or.inr ⟨x, y, hx, hy, hsx.mono hD, hsy.mono hD⟩
  absent := hs.absent

theorem Drift.refl (D : SlotId → Prop) (t : TaskId) (a : State α) : Drift D t a a :=
  ⟨rfl, rfl, rfl, rfl, fun _ => Or.inr rfl, fun _ _ => rfl⟩

theorem Drift.goto (D : SlotId → Prop) (t : TaskId) (a : State α) (x : Stage α) :
    Drift D t a (a.goto t x) :=
  ⟨rfl, rfl, rfl, rfl, fun _ => Or.inr rfl, fun _ hu => assign_of_ne hu⟩

theorem Drift.modify {slot : SlotId} (hslot : D slot) (t : TaskId) (a : State α)
    (f : Slot α → Slot α) (x : Stage α) : Drift D t a ((a.modify slot f).goto t x) where
  made := rfl
  index := rfl
  closed := rfl
  now := rfl
  slots := by
    intro other
    by_cases h : other = slot
    · exact Or.inl (h ▸ hslot)
    · exact Or.inr (assign_of_ne h)
  tasks := fun _ hu => assign_of_ne hu

/-! ## Steps on one side -/

/-- The task `r` goes on, and only in the run that has it. -/
theorem Shadow.drift_left (hs : Shadow D r a b) (hd : Drift D r a c) : Shadow D r c b where
  made := hs.made.trans hd.made.symm
  index := hs.index.trans hd.index.symm
  closed := hs.closed.trans hd.closed.symm
  now := hs.now.trans hd.now.symm
  slots := by
    intro slot
    rcases hs.slots slot with hD | hb
    · exact Or.inl hD
    · rcases hd.slots slot with hD | hc
      · exact Or.inl hD
      · exact Or.inr (hb.trans hc.symm)
  tasks := by
    intro t ht
    rw [hd.tasks t ht]
    exact hs.tasks t ht
  absent := hs.absent

/-- Another reply goes on in both runs, each time on its own and only at the slots of `D`. -/
theorem Shadow.drift {d : State α} (hs : Shadow D r a b) (ht : t ≠ r) (hc : Drift D t a c)
    (hd : Drift D t b d) (hx : c.tasks t = some x) (hy : d.tasks t = some y) (hsx : x.Spare D)
    (hsy : y.Spare D) : Shadow D r c d where
  made := by rw [hd.made, hs.made, hc.made]
  index := by rw [hd.index, hs.index, hc.index]
  closed := by rw [hd.closed, hs.closed, hc.closed]
  now := by rw [hd.now, hs.now, hc.now]
  slots := by
    intro slot
    rcases hs.slots slot with hD | hb
    · exact Or.inl hD
    rcases hc.slots slot with hD | hc
    · exact Or.inl hD
    rcases hd.slots slot with hD | hd
    · exact Or.inl hD
    exact Or.inr (by rw [hd, hb, hc])
  tasks := by
    intro u hu
    -- only `t` has moved, and it is spare in both runs
    by_cases hut : u = t
    · subst hut
      exact Or.inr ⟨x, y, hx, hy, hsx, hsy⟩
    · rw [hd.tasks u hut, hc.tasks u hut]
      exact hs.tasks u hu
  absent := (hd.tasks r ht.symm).trans hs.absent

/-- A reply that is being put into a slot of `D` touches nothing else, and goes on so. -/
theorem Drift.spare {e : Event α} (ht : a.tasks t = some x) (hx : x.Spare D)
    (he : e.task? = some t) :
    Drift D t a (a.step e) ∧ ∃ y, (a.step e).tasks t = some y ∧ y.Spare D := by
  have hsame : Drift D t a a ∧ ∃ y, a.tasks t = some y ∧ y.Spare D :=
    ⟨.refl D t a, x, ht, hx⟩
  have hgoto : ∀ y : Stage α, y.Spare D →
      Drift D t a (a.goto t y) ∧ ∃ z, (a.goto t y).tasks t = some z ∧ z.Spare D := fun y hy =>
    ⟨.goto D t a y, y, assign_self _ _ _, hy⟩
  cases e with
  | spawn u call =>
      cases he
      simpa [State.step, ht] using hsame
  | proceed u =>
      cases he
      rw [State.step_proceed ht]
      cases x with
      | storing slot value =>
          -- what the slot holds decides how the reply ends, and is none of the others' business
          cases ho : (a.slots slot).offer value with
          | error failure =>
              have hnext : a.proceed t (.storing slot value) =
                  a.goto t (.finished (.pushed (.error failure))) := by
                simp [State.proceed, ho]
              rw [hnext]
              exact hgoto _ trivial
          | ok p =>
              have hnext : a.proceed t (.storing slot value) =
                  (a.modify slot fun _ => p).goto t (.announcing slot) := by
                simp [State.proceed, ho]
              rw [hnext]
              exact ⟨.modify hx t a _ _, _, assign_self _ _ _, hx⟩
      | announcing slot => exact ⟨.modify hx t a _ _, _, assign_self _ _ _, trivial⟩
      | finished outcome => exact hsame
      | _ => exact hx.elim
  | published u result =>
      cases he
      have hstep : a.step (.published t result) = a.published t result x := by
        simp [State.step, State.act, ht]
      rw [hstep]
      cases x <;> first | exact hsame | exact hx.elim
  | expire u =>
      cases he
      have hstep : a.step (.expire t) = a.expire t x := by simp [State.step, State.act, ht]
      rw [hstep]
      cases x <;> first | exact hsame | exact hx.elim
  | drop u =>
      cases he
      have hstep : a.step (.drop t) = a.drop t x := by simp [State.step, State.act, ht]
      rw [hstep]
      cases x <;> first | exact hsame | exact hx.elim
  | advance ms => cases he

/-! ## Steps on both sides -/

/-- A task goes to the same stage in both runs. -/
theorem Shadow.goto (hs : Shadow D r a b) (ht : t ≠ r) (x : Stage α) :
    Shadow D r (a.goto t x) (b.goto t x) where
  made := hs.made
  index := hs.index
  closed := hs.closed
  now := hs.now
  slots := hs.slots
  tasks := by
    intro u hu
    by_cases hut : u = t
    · exact Or.inl (by simp [State.goto, hut])
    · simpa [State.goto, hut] using hs.tasks u hu
  absent := by
    simpa [State.goto, ht.symm] using hs.absent

/-- A slot is changed in the same way in both runs. -/
theorem Shadow.modify (hs : Shadow D r a b) (slot : SlotId) (f : Slot α → Slot α) :
    Shadow D r (a.modify slot f) (b.modify slot f) where
  made := hs.made
  index := hs.index
  closed := hs.closed
  now := hs.now
  slots := by
    intro other
    rcases hs.slots other with hD | hb
    · exact Or.inl hD
    · by_cases h : other = slot
      · subst h
        exact Or.inr (by simp [State.modify, hb])
      · exact Or.inr (by simpa [State.modify, h] using hb)
  tasks := hs.tasks
  absent := hs.absent

theorem Shadow.unfile (hs : Shadow D r a b) (id : UInt64) :
    Shadow D r (a.unfile id) (b.unfile id) where
  made := hs.made
  index := by simp [State.unfile, hs.index]
  closed := hs.closed
  now := hs.now
  slots := hs.slots
  tasks := hs.tasks
  absent := hs.absent

theorem Shadow.find? (hs : Shadow D r a b) (id : UInt64) : b.find? id = a.find? id := by
  simp [State.find?, hs.index]

theorem Shadow.get_false (hs : Shadow D r a b) (id : UInt64) :
    (b.get id false).2 = (a.get id false).2 := by
  rw [State.get_false, State.get_false, hs.closed, hs.find?]

/-- A request sets out in the same way in both runs: its slot has the same identity. -/
theorem Shadow.start_request (hs : Shadow D r a b) (ht : t ≠ r) (id : UInt64) (ms : Nat) :
    Shadow D r (a.start t (.request id ms)) (b.start t (.request id ms)) := by
  have hfind := hs.find? id
  cases hc : a.closed with
  | true =>
      have hc' : b.closed = true := hs.closed.trans hc
      simpa [State.start, State.get, hc, hc'] using
        hs.goto ht (.finished (.received (.error .closed)))
  | false =>
      have hc' : b.closed = false := hs.closed.trans hc
      -- the index is the same, so a slot is made in both runs or in neither
      cases hf : a.find? id with
      | some slot =>
          have hf' : b.find? id = some slot := hfind.trans hf
          simpa [State.start, State.get, hc, hc', hf, hf'] using hs.goto ht (.publishing id ms)
      | none =>
          have hf' : b.find? id = none := hfind.trans hf
          have hmade : Shadow D r
              { a with
                slots := assign a.slots a.made {}
                made := a.made + 1
                index := (id, a.made) :: a.index }
              { b with
                slots := assign b.slots b.made {}
                made := b.made + 1
                index := (id, b.made) :: b.index } := by
            refine ⟨?_, ?_, hs.closed, hs.now, ?_, hs.tasks, hs.absent⟩
            · show b.made + 1 = a.made + 1
              rw [hs.made]
            · show (id, b.made) :: b.index = (id, a.made) :: a.index
              rw [hs.made, hs.index]
            · intro slot
              by_cases hslot : slot = a.made
              · exact Or.inr (by simp [hslot, hs.made])
              · simpa [hslot, hs.made] using hs.slots slot
          have hopened : Shadow D r (a.opened t id ms) (b.opened t id ms) :=
            hmade.goto ht (.publishing id ms)
          simpa [State.start, State.get, State.make, State.opened, hc, hc', hf, hf'] using hopened

theorem Shadow.start (hs : Shadow D r a b) (ht : t ≠ r) {call : Call α}
    (hx : Stage.OnLine (.ready call : Stage α)) :
    Shadow D r (a.start t call) (b.start t call) := by
  cases call with
  | request id ms => exact hs.start_request ht id ms
  | route id? value =>
      cases id? with
      | none => exact hs.goto ht _
      | some id =>
          have hget := hs.get_false id
          simp only [State.start, State.aim, hget]
          cases (a.get id false).2 <;> exact hs.goto ht _
  | decline => exact hs.goto ht _
  | closeAll =>
      have hclosed : Shadow D r { a with index := [], closed := true }
          { b with index := [], closed := true } :=
        ⟨hs.made, rfl, rfl, hs.now, hs.slots, hs.tasks, hs.absent⟩
      simp only [State.start, hs.index]
      exact hclosed.goto ht _
  | _ => exact hx.elim

/-- A task that waits looks at the same slot in both runs. -/
theorem Shadow.same_slot {w : Wait} (hs : Shadow D r a b)
    (hx : ∀ slot, D slot → w.slot ≠ slot) : b.slots w.slot = a.slots w.slot := by
  rcases hs.slots w.slot with hD | hsame
  · exact absurd rfl (hx w.slot hD)
  · exact hsame

/-- A task passes the same section in both runs, unless it is a reply at one of the slots of `D`. -/
theorem Shadow.proceed (hs : Shadow D r a b) (ht : t ≠ r) (hx : x.OnLine)
    (hawaits : ∀ slot, D slot → ¬ a.Awaits slot x) (hspare : ¬ x.Spare D) :
    Shadow D r (a.proceed t x) (b.proceed t x) := by
  cases x with
  | ready call => exact hs.start ht hx
  | storing slot value =>
      have hslot : b.slots slot = a.slots slot := by
        rcases hs.slots slot with hD | hsame
        · exact absurd hD hspare
        · exact hsame
      simp only [State.proceed, hslot]
      cases (a.slots slot).offer value with
      | ok p => exact (hs.modify slot fun _ => p).goto ht _
      | error failure => exact hs.goto ht _
  | announcing slot => exact (hs.modify slot Slot.wakeAll).goto ht _
  | shutting slots =>
      cases slots with
      | nil => exact hs.goto ht _
      | cons slot rest => exact (hs.modify slot Slot.shut).goto ht _
  | rousing slot rest => exact (hs.modify slot Slot.wakeAll).goto ht _
  | seeking id ms =>
      simp only [State.proceed, State.await, hs.get_false id, hs.now]
      cases (a.get id false).2 <;> exact hs.goto ht _
  | listening w => exact (hs.modify w.slot (Slot.register · t)).goto ht _
  -- a request that takes its reply out is not at a slot of `D`
  | checking w =>
      obtain ⟨id, hw⟩ := hx
      simp only [State.proceed, hs.same_slot hawaits, State.conclude, hw]
      cases (a.slots w.slot).take? with
      | some p => exact (hs.modify w.slot fun _ => p.2.forget t).goto ht _
      | none => exact hs.goto ht _
  | parked w =>
      simp only [State.proceed, hs.same_slot hawaits]
      cases (a.slots w.slot).hasWoken t with
      | true => exact (hs.modify w.slot (Slot.forget · t)).goto ht _
      | false => exact hs
  | overdue id caller =>
      obtain rfl : caller = .request id := hx
      exact (hs.unfile id).goto ht _
  | leaving id result => exact (hs.unfile id).goto ht _
  | _ => exact hs

theorem Shadow.published (hs : Shadow D r a b) (ht : t ≠ r) (result : Except Failure Unit) :
    Shadow D r (a.published t result x) (b.published t result x) := by
  cases x with
  | publishing id ms => cases result <;> exact hs.goto ht _
  | _ => exact hs

theorem Shadow.expire (hs : Shadow D r a b) (ht : t ≠ r)
    (hawaits : ∀ slot, D slot → ¬ a.Awaits slot x) :
    Shadow D r (a.expire t x) (b.expire t x) := by
  cases x with
  | parked w =>
      have hslot := hs.same_slot hawaits
      simp only [State.expire, hslot, hs.now]
      cases w.deadline with
      | none => exact hs
      | some deadline =>
          cases w.id? with
          | none => exact hs
          | some id =>
              by_cases hdue : deadline ≤ a.now ∧ (a.slots w.slot).hasWoken t = false
              · simp only [if_pos hdue]
                exact (hs.modify w.slot (Slot.forget · t)).goto ht _
              · simp only [if_neg hdue]
                exact hs
  | _ => exact hs

theorem Shadow.drop (hs : Shadow D r a b) (ht : t ≠ r) :
    Shadow D r (a.drop t x) (b.drop t x) := by
  cases x with
  | ready call => exact hs.goto ht _
  | publishing id ms => exact hs.goto ht _
  | parked w => exact (hs.modify w.slot (Slot.forget · t)).goto ht _
  | _ => exact hs

/-- A task other than `r` makes its step in both runs. -/
theorem Shadow.step (hs : Shadow D r a b) (hline : ∀ t x, a.tasks t = some x → x.OnLine)
    (hidle : ∀ slot, D slot → ∀ t x, a.tasks t = some x → ¬ a.Awaits slot x) {e : Event α}
    (he : e.task? ≠ some r) : Shadow D r (a.step e) (b.step e) := by
  cases htask : e.task? with
  | none =>
      cases e with
      | advance ms =>
          exact ⟨hs.made, hs.index, hs.closed, by simp [State.step, hs.now], hs.slots, hs.tasks,
            hs.absent⟩
      | _ => cases htask
  | some t =>
      have ht : t ≠ r := by
        rintro rfl
        exact he htask
      have hspare : ∀ x y, a.tasks t = some x → b.tasks t = some y → x.Spare D → y.Spare D →
          Shadow D r (a.step e) (b.step e) := by
        intro x y hx hy hsx hsy
        obtain ⟨hc, x', hx', hsx'⟩ := Drift.spare hx hsx htask
        obtain ⟨hd, y', hy', hsy'⟩ := Drift.spare hy hsy htask
        exact hs.drift ht hc hd hx' hy' hsx' hsy'
      rcases hs.tasks t ht with hsame | ⟨x, y, hx, hy, hsx, hsy⟩
      -- the task stands at the same stage in both runs, and sees the same slots unless it is spare
      · cases hx : a.tasks t with
        | none =>
            have hy : b.tasks t = none := hsame.trans hx
            cases e with
            | spawn u call =>
                cases htask
                simpa [State.step, hx, hy] using hs.goto ht (.ready call)
            | advance ms => cases htask
            | _ =>
                cases htask
                simpa [State.step, State.act, hx, hy] using hs
        | some x =>
            have hy : b.tasks t = some x := hsame.trans hx
            by_cases hsx : x.Spare D
            · exact hspare x x hx hy hsx hsx
            · have hawaits : ∀ slot, D slot → ¬ a.Awaits slot x := fun slot hD =>
                hidle slot hD t x hx
              cases e with
              | spawn u call =>
                  cases htask
                  simpa [State.step, hx, hy] using hs
              | proceed u =>
                  cases htask
                  simpa [State.step, State.act, hx, hy] using
                    hs.proceed ht (hline t x hx) hawaits hsx
              | published u result =>
                  cases htask
                  simpa [State.step, State.act, hx, hy] using hs.published ht result
              | expire u =>
                  cases htask
                  simpa [State.step, State.act, hx, hy] using hs.expire ht hawaits
              | drop u =>
                  cases htask
                  simpa [State.step, State.act, hx, hy] using hs.drop ht
              | advance ms => cases htask
      · exact hspare x y hx hy hsx hsy

end AmqpDelivery.Rendezvous
