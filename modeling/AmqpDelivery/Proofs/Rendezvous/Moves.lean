import AmqpDelivery.Proofs.Rendezvous.Acts

/-!
# What the tasks of a connection do to its rendezvous

The tasks of a connection make requests, hand replies over or close everything (`Stage.OnLine`). Of
their acts it matters to the replies only whether they move a value or learn of a slot: an act leaves
the values in the slots and the file of ids alone, or it makes the slot of a request, finds the slot
of an id, puts a reply in, or takes one out (`Act.move`, `State.step_move`).
-/

namespace AmqpDelivery.Rendezvous

variable {α : Type}

/-- The stages of the tasks of a connection. -/
def Stage.OnLine : Stage α → Prop
  | .ready (.request _ _) | .ready (.route _ _) | .ready .decline | .ready .closeAll => True
  | .ready _ => False
  | .listening w | .checking w | .parked w => ∃ id, w.caller = .request id
  | .overdue id caller => caller = .request id
  | _ => True

/-- A stage that says nothing of the ids and the slots: the task goes on without a reply. -/
def Stage.Blank : Stage α → Prop
  | .shutting _ | .rousing _ _ | .dropped | .finished .done | .finished (.pushed _)
  | .finished (.received (.error _)) | .leaving _ (.error _) => True
  | .overdue id caller => caller = .request id
  | _ => False

/-- How a task goes on when it learns of no slot and moves no value. -/
inductive Stage.Follows : Stage α → Stage α → Prop
  | blank {x y : Stage α} (h : y.Blank) : Follows x y
  | published (id : UInt64) (ms : Nat) : Follows (.publishing id ms) (.seeking id ms)
  | registered (w : Wait) : Follows (.listening w) (.checking w)
  | empty (w : Wait) : Follows (.checking w) (.parked w)
  | woken (w : Wait) : Follows (.parked w) (.listening w)
  | left (id : UInt64) (result : Except Failure α) :
      Follows (.leaving id result) (.finished (.received result))

/-- How a task goes on when it finds the slot of an id. -/
inductive Stage.Finds (id : UInt64) (slot : SlotId) : Stage α → Stage α → Prop
  | request (ms : Nat) : Finds id slot (.ready (.request id ms)) (.publishing id ms)
  | reply (value : α) : Finds id slot (.ready (.route (some id) value)) (.storing slot value)
  | wait (ms : Nat) (deadline : Option Nat) :
      Finds id slot (.seeking id ms) (.listening ⟨.request id, slot, deadline⟩)

namespace State

/-- A task has gone to a stage; no value was moved, and nothing was filed. -/
structure Still (s next : State α) (t : TaskId) (stage : Stage α) : Prop where
  tasks : next.tasks = assign s.tasks t (some stage)
  made : next.made = s.made
  value : ∀ slot, (next.slots slot).value = (s.slots slot).value
  closed : ∀ slot, (s.slots slot).closed = true → (next.slots slot).closed = true
  find : ∀ id slot, next.find? id = some slot → s.find? id = some slot

/-- The slot of `id` is made for the request `t`. -/
def opened (s : State α) (t : TaskId) (id : UInt64) (ms : Nat) : State α :=
  { s with
    slots := assign s.slots s.made {}
    made := s.made + 1
    index := (id, s.made) :: s.index }.goto t (.publishing id ms)

/-- The task `t` has put a value into a slot. -/
def filled (s : State α) (t : TaskId) (slot : SlotId) (value : α) : State α :=
  (s.modify slot fun p => { p with value := some value }).goto t (.announcing slot)

/-- The request `t` has taken a value out of its slot. -/
def emptied (s : State α) (t : TaskId) (w : Wait) (id : UInt64) (value : α) : State α :=
  (s.modify w.slot fun p => { p with value := none }.forget t).goto t (.leaving id (.ok value))

end State

/-- What a step of the task `t` does, and the notes on it. -/
inductive Move (s : State α) (t : TaskId) : Stage α → State α → List (Note α) → Prop
  /-- The task goes on by itself. -/
  | quiet {x y : Stage α} {next : State α} (hfollows : x.Follows y) (hstill : s.Still next t y) :
      Move s t x next (y.endNotes t)
  /-- A request makes its slot. -/
  | opens (id : UInt64) (ms : Nat) (hfind : s.find? id = none) :
      Move s t (.ready (.request id ms)) (s.opened t id ms) [.located t id s.made]
  /-- The task finds the slot of an id. -/
  | finds {id : UInt64} {slot : SlotId} {x y : Stage α} (hfind : s.find? id = some slot)
      (hfinds : x.Finds id slot y) : Move s t x (s.goto t y) [.located t id slot]
  /-- A reply is put into a slot. -/
  | stores {slot : SlotId} {value : α} (hclosed : (s.slots slot).closed = false)
      (hvalue : (s.slots slot).value = none) :
      Move s t (.storing slot value) (s.filled t slot value) [.stored t slot value]
  /-- A request takes the reply out of its slot. -/
  | takes {w : Wait} {id : UInt64} {value : α} (hcaller : w.caller = .request id)
      (hvalue : (s.slots w.slot).value = some value) :
      Move s t (.checking w) (s.emptied t w id value) [.taken t w.slot value]

namespace State

variable {s next : State α} {t : TaskId} {x y : Stage α}

theorem find?_of_get {id : UInt64} {slot : SlotId} (h : (s.get id false).2 = some slot) :
    s.find? id = some slot := by
  rw [get_false] at h
  cases hc : s.closed with
  | true => simp [hc] at h
  | false => simpa [hc] using h

theorem goto_still (s : State α) (t : TaskId) (y : Stage α) : s.Still (s.goto t y) t y :=
  ⟨rfl, rfl, fun _ => rfl, fun _ h => h, fun _ _ h => h⟩

/-- A turn to a slot that keeps its value and does not open it again. -/
theorem modify_still {p : SlotId} {q : Slot α} (hvalue : q.value = (s.slots p).value)
    (hclosed : (s.slots p).closed = true → q.closed = true) :
    s.Still ((s.modify p fun _ => q).goto t y) t y where
  tasks := rfl
  made := rfl
  value := by
    intro other
    by_cases h : other = p
    · subst h; simp [modify, goto, hvalue]
    · simp [modify, goto, h]
  closed := by
    intro other ho
    by_cases h : other = p
    · subst h; simpa [modify, goto] using hclosed ho
    · simpa [modify, goto, h] using ho
  find := fun _ _ h => h

theorem lookup_filter_ne (l : List (UInt64 × SlotId)) (id i : UInt64) :
    (l.filter fun e => e.1 ≠ id).lookup i = if i = id then none else l.lookup i := by
  induction l with
  | nil => simp
  | cons e rest ih =>
      by_cases he : e.1 = id
      -- the entry goes, so it answers for no other id
      · rw [List.filter_cons_of_neg (by simpa using he), ih, List.lookup_cons, he]
        by_cases hi : i = id
        · simp [hi]
        · simp [hi, beq_eq_false_iff_ne.mpr hi]
      -- the entry stays, and is not one of `id`
      · rw [List.filter_cons_of_pos (by simpa using he), List.lookup_cons, List.lookup_cons, ih]
        by_cases hi : i = id
        · have hne : id ≠ e.1 := fun h => he h.symm
          simp [hi, beq_eq_false_iff_ne.mpr hne]
        · simp [hi]

theorem find?_unfile (s : State α) (id i : UInt64) :
    (s.unfile id).find? i = if i = id then none else s.find? i :=
  lookup_filter_ne s.index id i

theorem unfile_still (s : State α) (t : TaskId) (id : UInt64) (y : Stage α) :
    s.Still ((s.unfile id).goto t y) t y where
  tasks := rfl
  made := rfl
  value := fun _ => rfl
  closed := fun _ h => h
  find := by
    intro i slot h
    have hf : (s.unfile id).find? i = some slot := h
    rw [find?_unfile] at hf
    split at hf
    · cases hf
    · exact hf

theorem clear_still (s : State α) (t : TaskId) (y : Stage α) :
    s.Still ({ s with index := [], closed := true }.goto t y) t y where
  tasks := rfl
  made := rfl
  value := fun _ => rfl
  closed := fun _ h => h
  find := fun _ _ h => by simp [find?, goto] at h

end State

section Acts

variable {s next : State α} {e : Event α} {t : TaskId} {x y : Stage α} {notes : List (Note α)}

/-- A task that goes on blank. -/
theorem Move.blank (hstill : s.Still next t y) (hy : y.Blank) : Move s t x next (y.endNotes t) :=
  .quiet (.blank hy) hstill

/-- A task that turns to a slot and moves no value. -/
theorem Move.turned {p : SlotId} {q : Slot α} (hfollows : x.Follows y)
    (hvalue : q.value = (s.slots p).value)
    (hclosed : (s.slots p).closed = true → q.closed = true) :
    Move s t x ((s.modify p fun _ => q).goto t y) ([] ++ y.endNotes t) :=
  .quiet hfollows (State.modify_still hvalue hclosed)

/-- A turn of a task of a connection to a slot. -/
theorem Turn.move {p : SlotId} {q : Slot α} (h : Turn p (s.slots p) e t x y q notes)
    (hx : x.OnLine) :
    Move s t x ((s.modify p fun _ => q).goto t y) (notes ++ y.endNotes t) := by
  cases h with
  | store he hclosed hvalue => exact .stores hclosed hvalue
  | full he hclosed hvalue => exact .turned (.blank trivial) rfl fun h => h
  | refuse he hclosed => exact .turned (.blank trivial) rfl fun h => h
  | announce he => exact .turned (.blank trivial) rfl fun h => h
  | shut he => exact .turned (.blank trivial) rfl fun _ => rfl
  | rouse he => exact .turned (.blank trivial) rfl fun h => h
  | register he hw => exact .turned (.registered _) rfl fun h => h
  | @take w value he hw hclosed hvalue =>
      obtain ⟨id, hcaller⟩ := hx
      subst hw
      rw [hcaller]
      exact .takes hcaller hvalue
  | late he hw hclosed =>
      obtain ⟨id, hcaller⟩ := hx
      rw [hcaller]
      exact .turned (.blank trivial) rfl fun h => h
  | park he hw hclosed hvalue => exact .turned (.empty _) rfl fun h => h
  | wake he hw hwoken => exact .turned (.woken _) rfl fun h => h
  | @expire w own he hw hid hwoken =>
      obtain ⟨id, hcaller⟩ := hx
      have hsame : own = id := by simpa [Wait.id?, hcaller] using hid.symm
      rw [hcaller, hsame]
      exact .turned (.blank rfl) rfl fun h => h
  | drop he hw => exact .turned (.blank trivial) rfl fun h => h

/-- An act of a task of a connection. -/
theorem Act.move (h : Act s e t x y next notes) (hx : x.OnLine) : Move s t x next notes := by
  cases h with
  | pass h =>
      cases h with
      | published id ms u he => exact .quiet (.published id ms) (State.goto_still s t _)
      | slotPush p value he => exact hx.elim
      | slotPop p he => exact hx.elim
      | slotClose p he => exact hx.elim
      | _ => exact .blank (State.goto_still s t _) trivial
  | hit he hclosed hfind h =>
      cases h with
      | route value => exact .finds hfind (.reply value)
      | request ms => exact .finds hfind (.request ms)
      | seek ms => exact .finds hfind (.wait ms _)
      | _ => exact hx.elim
  | miss he hfind h =>
      cases h with
      | get create hcreate => exact hx.elim
      | push value => exact hx.elim
      | wait timeoutMs => exact hx.elim
      | _ => exact .blank (State.goto_still s t _) trivial
  | opens he hclosed hfind h =>
      cases h with
      | get => exact hx.elim
      | request ms => exact .opens _ ms hfind
  | makes he => exact hx.elim
  | removes he h =>
      cases h with
      | close => exact hx.elim
      | remove => exact hx.elim
      | overdue caller =>
          obtain rfl : caller = .request _ := hx
          exact .blank (State.unfile_still s t _ _) trivial
      | leave result => exact .quiet (.left _ result) (State.unfile_still s t _ _)
  | clears he => exact .blank (State.clear_still s t _) trivial
  | turns h => exact h.move hx

/-- What one event does when every task is one of a connection: time passes, or one task moves. -/
theorem State.step_move (hline : ∀ t x, s.tasks t = some x → x.OnLine) (e : Event α)
    (hspawn : ∀ t call, e ≠ .spawn t call) :
    (∃ now, s.step e = { s with now } ∧ s.notes e = []) ∨
      ∃ t x, e.task? = some t ∧ s.tasks t = some x ∧ Move s t x (s.step e) (s.notes e) := by
  have hchange := s.step_change e
  generalize s.step e = next, s.notes e = notes at hchange
  cases hchange with
  | rests now hblocked hbegun => exact Or.inl ⟨now, rfl, rfl⟩
  | begins he ht => exact absurd he (hspawn _ _)
  | @acts t x y next notes he ht h => exact Or.inr ⟨t, x, he, ht, h.move (hline t x ht)⟩

end Acts

section Effects

variable {s next : State α} {t : TaskId} {x : Stage α} {notes : List (Note α)} {slot : SlotId}

theorem Move.tasks_of_ne {u : TaskId} (hm : Move s t x next notes) (hu : u ≠ t) :
    next.tasks u = s.tasks u := by
  cases hm with
  | quiet hfollows hstill => rw [hstill.tasks, assign_of_ne hu]
  | _ => exact assign_of_ne hu

theorem Move.made_le (hm : Move s t x next notes) : s.made ≤ next.made := by
  cases hm with
  | quiet hfollows hstill => exact Nat.le_of_eq hstill.made.symm
  | opens id ms hfind => exact Nat.le_succ _
  | _ => exact Nat.le_refl _

/-- A slot that is closed stays closed. -/
theorem Move.closed (hm : Move s t x next notes) (hmade : slot < s.made)
    (hclosed : (s.slots slot).closed = true) : (next.slots slot).closed = true := by
  cases hm with
  | quiet hfollows hstill => exact hstill.closed slot hclosed
  | opens id ms hfind =>
      simpa [State.opened, State.goto, Nat.ne_of_lt hmade] using hclosed
  | finds hfind hfinds => exact hclosed
  | @stores other value hopen hvalue =>
      by_cases hslot : slot = other
      -- nothing goes into a slot that is closed
      · subst hslot
        rw [hopen] at hclosed
        cases hclosed
      · simpa [State.filled, State.modify, State.goto, hslot] using hclosed
  | @takes w id value hcaller hvalue =>
      by_cases hslot : slot = w.slot
      · simpa [State.emptied, State.modify, State.goto, hslot, Slot.forget] using hclosed
      · simpa [State.emptied, State.modify, State.goto, hslot] using hclosed

/-- A slot keeps its value until a task takes it out. -/
theorem Move.value (hm : Move s t x next notes) (hmade : slot < s.made)
    (hvalue : (s.slots slot).value ≠ none) :
    (next.slots slot).value = (s.slots slot).value ∨ ∃ w, x = .checking w ∧ w.slot = slot ∧
      ∃ id value, next = s.emptied t w id value := by
  cases hm with
  | quiet hfollows hstill => exact Or.inl (hstill.value slot)
  | opens id ms hfind =>
      exact Or.inl (by simp [State.opened, State.goto, Nat.ne_of_lt hmade])
  | finds hfind hfinds => exact Or.inl rfl
  | @stores other value hopen hempty =>
      have hslot : slot ≠ other := by
        rintro rfl
        exact hvalue hempty
      exact Or.inl (by simp [State.filled, State.modify, State.goto, hslot])
  | @takes w id value hcaller hv =>
      by_cases hslot : slot = w.slot
      · exact Or.inr ⟨w, rfl, hslot.symm, id, value, rfl⟩
      · exact Or.inl (by simp [State.emptied, State.modify, State.goto, hslot])

end Effects

end AmqpDelivery.Rendezvous
