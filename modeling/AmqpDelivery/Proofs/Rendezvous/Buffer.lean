import AmqpDelivery.Proofs.Rendezvous.Reach

/-!
# A slot is a buffer for one value

`Buffer.Does` says what a buffer for one value does when it is used by one task after the other. The
log of a run at a slot (`State.log`) lists the sections that put a value in, took one out or closed
the slot, in the order in which they were passed. Whatever tasks and steps make up the run, its log
is a run of such a buffer (`State.log_runs`), and every call has its place in the log between its
begin and its end (`State.log_call`).
-/

namespace AmqpDelivery.Rendezvous

variable {α : Type}

/-- What a task does to a buffer, and what it gets. -/
inductive Operation (α : Type) where
  | push (t : TaskId) (value : α) (result : Except Failure Unit)
  | pop (t : TaskId) (result : Except Failure α)
  | close (t : TaskId)

/-- The task of an operation. -/
def Operation.task : Operation α → TaskId
  | .push t _ _ | .pop t _ | .close t => t

/-- The value that an operation puts in. -/
def Operation.pushed? : Operation α → Option α
  | .push _ value (.ok _) => some value
  | _ => none

/-- The value that an operation takes out. -/
def Operation.popped? : Operation α → Option α
  | .pop _ (.ok value) => some value
  | _ => none

/-- The note on an operation at the slot `p`: only a value that was moved is noted. -/
def Operation.note? (p : SlotId) : Operation α → Option (Note α)
  | .push t value (.ok _) => some (.stored t p value)
  | .pop t (.ok value) => some (.taken t p value)
  | _ => none

/-- A buffer for one value. -/
structure Buffer (α : Type) where
  pending : Option α := none
  closed : Bool := false

/-- What the operations do to a buffer. A pop of an open and empty buffer is not one of them: it
waits. -/
inductive Buffer.Does : Buffer α → Operation α → Buffer α → Prop
  | push (t : TaskId) (value : α) : Does ⟨none, false⟩ (.push t value (.ok ())) ⟨some value, false⟩
  | full (t : TaskId) (old value : α) :
      Does ⟨some old, false⟩ (.push t value (.error .full)) ⟨some old, false⟩
  | refuse (t : TaskId) (pending : Option α) (value : α) :
      Does ⟨pending, true⟩ (.push t value (.error .closed)) ⟨pending, true⟩
  | pop (t : TaskId) (value : α) : Does ⟨some value, false⟩ (.pop t (.ok value)) ⟨none, false⟩
  | late (t : TaskId) (pending : Option α) :
      Does ⟨pending, true⟩ (.pop t (.error .closed)) ⟨pending, true⟩
  | close (t : TaskId) (b : Buffer α) : Does b (.close t) { b with closed := true }

/-- What a list of operations does to a buffer, one after the other. -/
inductive Buffer.Runs : Buffer α → List (Operation α) → Buffer α → Prop
  | nil (b : Buffer α) : Runs b [] b
  | cons {b c d : Buffer α} {op : Operation α} {ops : List (Operation α)} (h : b.Does op c)
      (hrest : Runs c ops d) : Runs b (op :: ops) d

/-- The value in a slot, and whether the slot is closed. -/
def Slot.buffer (q : Slot α) : Buffer α := ⟨q.value, q.closed⟩

/-- What the next section of a task does at the slot `p` with the content `q`. -/
def Stage.operation? (p : SlotId) (q : Slot α) (t : TaskId) : Stage α → Option (Operation α)
  | .storing slot value =>
      if slot = p then some (.push t value ((q.offer value).map fun _ => ())) else none
  | .checking w => if w.slot = p then q.take?.map fun taken => .pop t taken.1 else none
  | .shutting (slot :: _) => if slot = p then some (.close t) else none
  | _ => none

namespace State

/-- What an event does at the slot `p`. -/
def operation? (s : State α) (p : SlotId) : Event α → Option (Operation α)
  | .proceed t => (s.tasks t).bind (Stage.operation? p (s.slots p) t)
  | _ => none

/-- What a run does at the slot `p`, in order. -/
def log (s : State α) (p : SlotId) : List (Event α) → List (Operation α)
  | [] => []
  | e :: rest => (s.operation? p e).toList ++ log (s.step e) p rest

end State

/-- A call at the slot `p`, where its task stands, and what the log tells of the task. -/
inductive Call.Logged (p : SlotId) (t : TaskId) : Call α → Stage α → List (Operation α) → Prop
  | pushReady (value : α) : Logged p t (.slotPush p value) (.ready (.slotPush p value)) []
  | storing (value : α) : Logged p t (.slotPush p value) (.storing p value) []
  | announcing (value : α) :
      Logged p t (.slotPush p value) (.announcing p) [.push t value (.ok ())]
  | pushed (value : α) (result : Except Failure Unit) :
      Logged p t (.slotPush p value) (.finished (.pushed result)) [.push t value result]
  | popReady : Logged p t (.slotPop p) (.ready (.slotPop p)) []
  | listening : Logged p t (.slotPop p) (.listening ⟨.pop, p, none⟩) []
  | checking : Logged p t (.slotPop p) (.checking ⟨.pop, p, none⟩) []
  | parked : Logged p t (.slotPop p) (.parked ⟨.pop, p, none⟩) []
  | popped (result : Except Failure α) :
      Logged p t (.slotPop p) (.finished (.received result)) [.pop t result]
  | closeReady : Logged p t (.slotClose p) (.ready (.slotClose p)) []
  | shutting : Logged p t (.slotClose p) (.shutting [p]) []
  | rousing : Logged p t (.slotClose p) (.rousing p []) [.close t]
  | roused : Logged p t (.slotClose p) (.shutting []) [.close t]
  | closed : Logged p t (.slotClose p) (.finished .done) [.close t]
  | dropped (call : Call α) : Logged p t call .dropped []

/-! ## Runs of a buffer -/

namespace Buffer

variable {b c d : Buffer α} {op : Operation α} {ops others : List (Operation α)}

theorem Runs.append (h : b.Runs ops c) (hothers : c.Runs others d) : b.Runs (ops ++ others) d := by
  induction h with
  | nil b => exact hothers
  | cons hdoes hrest ih => exact .cons hdoes (ih hothers)

/-- What is in the buffer and what is put in is taken out or stays, in order. -/
theorem Does.values (h : b.Does op c) :
    b.pending.toList ++ op.pushed?.toList = op.popped?.toList ++ c.pending.toList := by
  cases h <;> simp [Operation.pushed?, Operation.popped?]

theorem Runs.values (h : b.Runs ops c) :
    b.pending.toList ++ ops.filterMap Operation.pushed? =
      ops.filterMap Operation.popped? ++ c.pending.toList := by
  induction h with
  | nil b => simp
  | @cons b c d op ops hdoes hrest ih =>
      have hsplit : ∀ f : Operation α → Option α,
          (op :: ops).filterMap f = (f op).toList ++ ops.filterMap f := by
        intro f
        cases hf : f op <;> simp [hf]
      rw [hsplit, hsplit, ← List.append_assoc, hdoes.values, List.append_assoc, ih,
        List.append_assoc]

theorem Does.closed (h : b.Does op c) (hb : b.closed = true) :
    c.closed = true ∧ op.pushed? = none ∧ op.popped? = none := by
  cases h <;> simp_all [Operation.pushed?, Operation.popped?]

/-- A buffer that is closed stays closed, and nothing goes in or comes out. -/
theorem Runs.closed (h : b.Runs ops c) (hb : b.closed = true) :
    c.closed = true ∧ ∀ op ∈ ops, op.pushed? = none ∧ op.popped? = none := by
  induction h with
  | nil b => exact ⟨hb, by simp⟩
  | cons hdoes hrest ih =>
      obtain ⟨hc, hop⟩ := hdoes.closed hb
      obtain ⟨hd, hops⟩ := ih hc
      refine ⟨hd, ?_⟩
      intro op hmem
      rcases List.mem_cons.mp hmem with rfl | hmem
      · exact hop
      · exact hops op hmem

/-- A buffer is closed by the first close. -/
theorem Runs.closed_of_close {t : TaskId} (h : b.Runs ops c) (hclose : .close t ∈ ops) :
    c.closed = true := by
  induction h with
  | nil b => cases hclose
  | cons hdoes hrest ih =>
      rcases List.mem_cons.mp hclose with rfl | hmem
      · cases hdoes
        exact (hrest.closed rfl).1
      · exact ih hmem

end Buffer

/-! ## Sections at a slot -/

section Sections

variable {s next : State α} {p : SlotId} {e : Event α} {t : TaskId} {x y : Stage α}
  {notes : List (Note α)}

/-- A task that does not face a slot does nothing there. -/
theorem Stage.operation?_of_ne {q : Slot α} (hx : x.faces? ≠ some p) :
    x.operation? p q t = none := by
  unfold operation?
  split <;> simp_all [Stage.faces?]

theorem State.operation?_of_blocked (hblocked : ∀ t, e = .proceed t → s.canProceed t = false) :
    s.operation? p e = none := by
  cases e with
  | proceed t =>
      have hcan := hblocked t rfl
      cases ht : s.tasks t with
      | none => simp [operation?, ht]
      | some x => cases x <;> simp_all [operation?, canProceed, Stage.operation?]
  | _ => rfl

/-- An operation is one of the task that goes on. -/
theorem State.task_of_operation? {op : Operation α} (h : s.operation? p e = some op) :
    e = .proceed op.task := by
  cases e with
  | proceed t =>
      obtain ⟨x, ht, hx⟩ := Option.bind_eq_some_iff.mp h
      have htask : op.task = t := by
        unfold Stage.operation? at hx
        split at hx
        · split at hx <;> cases hx
          rfl
        · split at hx
          · obtain ⟨taken, -, rfl⟩ := Option.map_eq_some_iff.mp hx
            rfl
          · cases hx
        · split at hx <;> cases hx
          rfl
        · cases hx
      rw [htask]
  | _ => cases h

/-- A turn to the slot does nothing to its buffer, or one operation, which is noted. A task that takes
a value out comes to its result with it. -/
theorem Turn.operates {q : Slot α} {own : List (Note α)} (ht : s.tasks t = some x)
    (h : Turn p (s.slots p) e t x y q own) :
    (s.operation? p e = none ∧ q.buffer = (s.slots p).buffer ∧ own = []) ∨
      ∃ op, s.operation? p e = some op ∧ (s.slots p).buffer.Does op q.buffer ∧
        own = (op.note? p).toList ∧
        ∀ value, op.popped? = some value → ∃ caller : Caller, y = caller.resolved (.ok value) := by
  cases h with
  | @store value he hclosed hvalue =>
      refine Or.inr ⟨.push t value (.ok ()), ?_, ?_, rfl, by simp [Operation.popped?]⟩
      · simp [State.operation?, he, ht, Stage.operation?, Slot.offer, hclosed, hvalue, Except.map]
      · simp only [Slot.buffer, hclosed, hvalue]
        exact .push t value
  | @full value old he hclosed hvalue =>
      refine Or.inr ⟨.push t value (.error .full), ?_, ?_, rfl, by simp [Operation.popped?]⟩
      · simp [State.operation?, he, ht, Stage.operation?, Slot.offer, hclosed, hvalue, Except.map]
      · simp only [Slot.buffer, hclosed, hvalue]
        exact .full t old value
  | @refuse value he hclosed =>
      refine Or.inr ⟨.push t value (.error .closed), ?_, ?_, rfl, by simp [Operation.popped?]⟩
      · simp [State.operation?, he, ht, Stage.operation?, Slot.offer, hclosed, Except.map]
      · simp only [Slot.buffer, hclosed]
        exact .refuse t _ value
  | shut he =>
      refine Or.inr ⟨.close t, ?_, .close t _, rfl, by simp [Operation.popped?]⟩
      simp [State.operation?, he, ht, Stage.operation?]
  | @take w value he hw hclosed hvalue =>
      refine Or.inr ⟨.pop t (.ok value), ?_, ?_, rfl, ?_⟩
      · simp [State.operation?, he, ht, Stage.operation?, hw, Slot.take?, hclosed, hvalue]
      · simp only [Slot.buffer, Slot.forget, hclosed, hvalue]
        exact .pop t value
      · rintro other hother
        cases hother
        exact ⟨w.caller, rfl⟩
  | @late w he hw hclosed =>
      refine Or.inr ⟨.pop t (.error .closed), ?_, ?_, rfl, by simp [Operation.popped?]⟩
      · simp [State.operation?, he, ht, Stage.operation?, hw, Slot.take?, hclosed]
      · simp only [Slot.buffer, Slot.forget, hclosed]
        exact .late t _
  | park he hw hclosed hvalue =>
      refine Or.inl ⟨?_, rfl, rfl⟩
      simp [State.operation?, he, ht, Stage.operation?, Slot.take?, hclosed, hvalue]
  | _ he => exact Or.inl ⟨by simp [State.operation?, he, ht, Stage.operation?], rfl, rfl⟩

/-- A task that acts away from the slot does nothing there. -/
theorem State.operation?_away (ht : s.tasks t = some x) (he : e.task? = some t)
    (hx : x.faces? ≠ some p) : s.operation? p e = none := by
  cases e with
  | proceed u =>
      obtain rfl : u = t := Option.some.inj he
      rw [operation?, ht, Option.bind_some, Stage.operation?_of_ne hx]
  | _ => rfl

theorem storedIn_append (p : SlotId) (h k : List (Note α)) :
    storedIn p (h ++ k) = storedIn p h ++ storedIn p k := by
  simp [storedIn]

theorem takenFrom_append (p : SlotId) (h k : List (Note α)) :
    takenFrom p (h ++ k) = takenFrom p h ++ takenFrom p k := by
  simp [takenFrom]

/-- The note on the end of a task tells of no value that was moved. -/
theorem moved_endNotes (p : SlotId) (t : TaskId) (y : Stage α) :
    storedIn p (y.endNotes t) = [] ∧ takenFrom p (y.endNotes t) = [] := by
  cases y <;> simp [Stage.endNotes, storedIn, takenFrom]

/-- The notes on one operation tell of the value that it moved. -/
theorem moved_note (p : SlotId) (op : Operation α) :
    storedIn p (op.note? p).toList = op.pushed?.toList ∧
      takenFrom p (op.note? p).toList = op.popped?.toList := by
  rcases op with ⟨t, value, _ | _⟩ | ⟨t, _ | _⟩ | t <;>
    simp [Operation.note?, Operation.pushed?, Operation.popped?, storedIn, takenFrom]

/-- An act away from the slot moves no value there. -/
theorem Act.moved_away (h : Act s e t x y next notes) (hx : x.faces? ≠ some p) :
    storedIn p notes = [] ∧ takenFrom p notes = [] := by
  have hend := moved_endNotes p t y
  cases h with
  | hit he hclosed hfind h => simpa [storedIn, takenFrom] using hend
  | opens he hclosed hfind h => simpa [storedIn, takenFrom] using hend
  | makes he => simp [storedIn, takenFrom]
  | clears he => simp [storedIn, takenFrom]
  | @turns x y r q own h =>
      have hr : r ≠ p := by
        rintro rfl
        exact hx h.faces
      have hown : storedIn p own = [] ∧ takenFrom p own = [] := by
        cases h <;> simp [storedIn, takenFrom, hr]
      rw [storedIn_append, takenFrom_append, hown.1, hown.2, hend.1, hend.2]
      exact ⟨rfl, rfl⟩
  | _ => exact hend

/-- What one event does at a slot that is made: nothing, or one operation, which is noted. -/
theorem View.operates (h : View s p e next notes) :
    (s.slots p).buffer.Runs (s.operation? p e).toList (next.slots p).buffer ∧
      storedIn p notes = (s.operation? p e).toList.filterMap Operation.pushed? ∧
      takenFrom p notes = (s.operation? p e).toList.filterMap Operation.popped? := by
  have hnone : s.operation? p e = none → next.slots p = s.slots p →
      storedIn p notes = [] ∧ takenFrom p notes = [] →
      (s.slots p).buffer.Runs (s.operation? p e).toList (next.slots p).buffer ∧
        storedIn p notes = (s.operation? p e).toList.filterMap Operation.pushed? ∧
        takenFrom p notes = (s.operation? p e).toList.filterMap Operation.popped? := by
    rintro hop hslot ⟨hstored, htaken⟩
    rw [hop, hslot, hstored, htaken]
    exact ⟨.nil _, rfl, rfl⟩
  cases h with
  | rests hblocked hslot htasks hnotes =>
      rw [hnotes] at hnone ⊢
      exact hnone (State.operation?_of_blocked hblocked) hslot ⟨rfl, rfl⟩
  | begins he ht hslot htasks hnotes =>
      rw [hnotes] at hnone ⊢
      exact hnone (by rw [he]; rfl) hslot ⟨rfl, rfl⟩
  | away he ht hx hact hslot htasks =>
      exact hnone (State.operation?_away ht he hx) hslot (hact.moved_away hx)
  | @turns t x y q own he ht hturn hslot htasks hnotes =>
      obtain ⟨hstored, htaken⟩ := moved_endNotes p t y
      rw [hslot, hnotes, storedIn_append, takenFrom_append, hstored, htaken, List.append_nil,
        List.append_nil]
      rcases hturn.operates ht with ⟨hop, hsame, hown⟩ | ⟨op, hop, hdoes, hown, hpopped⟩
      · rw [hop, hsame, hown]
        exact ⟨.nil _, rfl, rfl⟩
      · obtain ⟨hpush, hpop⟩ := moved_note p op
        rw [hop, hown, hpush, hpop]
        refine ⟨.cons hdoes (.nil _), ?_, ?_⟩
        · cases hv : op.pushed? <;> simp [hv]
        · cases hv : op.popped? <;> simp [hv]

/-- A call at a slot at hand looks at no id. -/
theorem Act.passes {call : Call α} (h : Act s e t (.ready call) y next notes)
    (hslot : call.slot? = some p) : (Stage.ready call).Passes e t y := by
  cases h with
  | pass h => exact h
  | hit he hclosed hfind h => cases h <;> cases hslot
  | miss he hfind h => cases h <;> cases hslot
  | opens he hclosed hfind h => cases h <;> cases hslot
  | makes he => cases hslot
  | removes he h => cases h <;> cases hslot
  | clears he => cases hslot
  | turns h => cases h

theorem Call.Logged.ready {call : Call α} (hslot : call.slot? = some p) :
    call.Logged p t (.ready call) [] := by
  cases call with
  | slotPush r value => cases hslot; exact .pushReady value
  | slotPop r => cases hslot; exact .popReady
  | slotClose r => cases hslot; exact .closeReady
  | _ => cases hslot

/-- A call at the slot goes on away from it without an operation there. -/
theorem Call.Logged.away {call : Call α} {entries : List (Operation α)}
    (hl : call.Logged p t x entries) (h : Act s e t x y next notes) (hx : x.faces? ≠ some p) :
    call.Logged p t y entries := by
  cases hl with
  | pushReady value =>
      cases h.passes (p := p) rfl with
      | slotPush p v he => exact .storing value
      | unbegun call he => exact .dropped _
  | popReady =>
      cases h.passes (p := p) rfl with
      | slotPop p he => exact .listening
      | unbegun call he => exact .dropped _
  | closeReady =>
      cases h.passes (p := p) rfl with
      | slotClose p he => exact .shutting
      | unbegun call he => exact .dropped _
  | roused =>
      cases h with
      | pass h =>
          cases h with
          | allShut he => exact .closed
      | hit he hclosed hfind h => cases h
      | miss he hfind h => cases h
      | opens he hclosed hfind h => cases h
      | removes he h => cases h
      | turns h => cases h
  | pushed value result => exact absurd trivial h.not_ended
  | popped result => exact absurd trivial h.not_ended
  | closed => exact absurd trivial h.not_ended
  | dropped call => exact absurd trivial h.not_ended
  | _ => exact absurd rfl hx

/-- A call at the slot turns to it, with an operation or without. -/
theorem Call.Logged.turn {call : Call α} {entries : List (Operation α)} {q : Slot α}
    {own : List (Note α)} (hl : call.Logged p t x entries) (ht : s.tasks t = some x)
    (h : Turn p (s.slots p) e t x y q own) :
    call.Logged p t y (entries ++ (s.operation? p e).toList) := by
  cases hl with
  | storing value =>
      cases h with
      | store he hclosed hvalue =>
          simpa [State.operation?, he, ht, Stage.operation?, Slot.offer, hclosed, hvalue, Except.map]
            using Call.Logged.announcing value
      | full he hclosed hvalue =>
          simpa [State.operation?, he, ht, Stage.operation?, Slot.offer, hclosed, hvalue, Except.map]
            using Call.Logged.pushed value (.error .full)
      | refuse he hclosed =>
          simpa [State.operation?, he, ht, Stage.operation?, Slot.offer, hclosed, Except.map]
            using Call.Logged.pushed value (.error .closed)
  | announcing value =>
      cases h with
      | announce he =>
          simpa [State.operation?, he, ht, Stage.operation?] using Call.Logged.pushed value (.ok ())
  | listening =>
      cases h with
      | register he hw =>
          simpa [State.operation?, he, ht, Stage.operation?] using Call.Logged.checking
  | checking =>
      cases h with
      | @take w value he hw hclosed hvalue =>
          simpa [State.operation?, he, ht, Stage.operation?, Slot.take?, hclosed, hvalue,
            Caller.resolved] using Call.Logged.popped (.ok value)
      | late he hw hclosed =>
          simpa [State.operation?, he, ht, Stage.operation?, Slot.take?, hclosed, Caller.resolved]
            using Call.Logged.popped (.error .closed)
      | park he hw hclosed hvalue =>
          simpa [State.operation?, he, ht, Stage.operation?, Slot.take?, hclosed, hvalue]
            using Call.Logged.parked
  | parked =>
      cases h with
      | wake he hw hwoken =>
          simpa [State.operation?, he, ht, Stage.operation?] using Call.Logged.listening
      | expire he hw hid hwoken => cases hid
      | drop he hw => simpa [State.operation?, he] using Call.Logged.dropped _
  | shutting =>
      cases h with
      | shut he => simpa [State.operation?, he, ht, Stage.operation?] using Call.Logged.rousing
  | rousing =>
      cases h with
      | rouse he => simpa [State.operation?, he, ht, Stage.operation?] using Call.Logged.roused
  | _ => cases h

end Sections

/-! ## The log of a run -/

namespace State

variable {s : State α} {p : SlotId} {t : TaskId}

/-- When a push fails, and what that leaves behind. -/
theorem push_fails {value : α} (ht : s.tasks t = some (.storing p value)) :
    ((s.step (.proceed t)).outcome? t = some (.pushed (.error .full)) ↔
        (s.slots p).closed = false ∧ (s.slots p).value ≠ none) ∧
      ((s.step (.proceed t)).outcome? t = some (.pushed (.error .closed)) ↔
        (s.slots p).closed = true) ∧
      ((s.step (.proceed t)).outcome? t ≠ none → (s.step (.proceed t)).slots p = s.slots p) := by
  rw [step_proceed ht]
  cases hc : (s.slots p).closed with
  | true => simp [proceed, Slot.offer, hc, goto, outcome?]
  | false =>
      cases hv : (s.slots p).value with
      | none => simp [proceed, Slot.offer, hc, hv, goto, outcome?]
      | some old => simp [proceed, Slot.offer, hc, hv, goto, outcome?]

theorem log_append (s : State α) (p : SlotId) (es fs : List (Event α)) :
    s.log p (es ++ fs) = s.log p es ++ (s.run es).log p fs := by
  induction es generalizing s with
  | nil => rfl
  | cons e es ih =>
      have hrun : s.run (e :: es) = (s.step e).run es := rfl
      rw [List.cons_append, log, log, ih, hrun, List.append_assoc]

theorem log_concat (s : State α) (p : SlotId) (events : List (Event α)) (e : Event α) :
    s.log p (events ++ [e]) = s.log p events ++ ((s.run events).operation? p e).toList := by
  rw [log_append, log, log, List.append_nil]

/-- The log at a slot is a run of a buffer from what was in the slot to what is in it. -/
theorem log_runs (hmade : p < s.made) (events : List (Event α)) :
    (s.slots p).buffer.Runs (s.log p events) ((s.run events).slots p).buffer := by
  induction events generalizing s with
  | nil => exact .nil _
  | cons e events ih =>
      have hstep := (s.step_view e hmade).operates.1
      exact hstep.append (ih (Nat.lt_of_lt_of_le hmade (s.made_le_step e)))

/-- The log tells which values went in and which came out. -/
theorem log_moved (hmade : p < s.made) (events : List (Event α)) :
    storedIn p (s.history events) = (s.log p events).filterMap Operation.pushed? ∧
      takenFrom p (s.history events) = (s.log p events).filterMap Operation.popped? := by
  induction events generalizing s with
  | nil => exact ⟨rfl, rfl⟩
  | cons e events ih =>
      obtain ⟨-, hstored, htaken⟩ := (s.step_view e hmade).operates
      obtain ⟨hrest, hothers⟩ := ih (Nat.lt_of_lt_of_le hmade (s.made_le_step e))
      rw [history, log, storedIn_append, takenFrom_append, List.filterMap_append,
        List.filterMap_append, hstored, htaken, hrest, hothers]
      exact ⟨rfl, rfl⟩

/-- A task that has an operation in the log was begun. -/
theorem begun_of_log (events : List (Event α)) :
    ∀ op ∈ s.log p events, (s.run events).tasks op.task ≠ none := by
  induction events generalizing s with
  | nil => simp [log]
  | cons e events ih =>
      intro op hop
      rcases List.mem_append.mp hop with hnow | hlater
      · have hsome : s.operation? p e = some op := Option.mem_toList.mp hnow
        have he : e = .proceed op.task := task_of_operation? hsome
        subst he
        obtain ⟨x, ht, -⟩ := Option.bind_eq_some_iff.mp hsome
        have hthere : s.tasks op.task ≠ none := by simp [ht]
        exact run_begun hthere (.proceed op.task :: events)
      · exact ih op hlater

/-- A task that has ended has no further operation in the log. -/
theorem log_ended {x : Stage α} (ht : s.tasks t = some x) (hx : x.Ended)
    (events : List (Event α)) : ∀ op ∈ s.log p events, op.task ≠ t := by
  induction events generalizing s with
  | nil => simp [log]
  | cons e events ih =>
      intro op hop
      rcases List.mem_append.mp hop with hnow | hlater
      · have hsome : s.operation? p e = some op := Option.mem_toList.mp hnow
        rintro rfl
        obtain rfl := task_of_operation? hsome
        simp only [operation?, ht, Option.bind_some] at hsome
        cases x <;> first | exact hx.elim | cases hsome
      · exact ih (step_ended ht hx e) op hlater

/-- A task that has taken a value out returns it. -/
theorem log_brings (hmade : p < s.made) {value : α} (events : List (Event α)) :
    .pop t (.ok value) ∈ s.log p events →
      ∃ x, (s.run events).tasks t = some x ∧ x.Brings (.ok value) := by
  induction events using List.reverseRecOn with
  | nil => simp [log]
  | append_singleton events e ih =>
      intro hop
      rw [run_concat]
      rw [log_concat] at hop
      rcases List.mem_append.mp hop with hearlier | hnow
      · obtain ⟨x, ht, hx⟩ := ih hearlier
        rcases step_task ht e with hstay | ⟨y, he, hy, hact⟩
        · exact ⟨x, hstay, hx⟩
        · exact ⟨y, hy, hact.brings hx⟩
      · have hsome := Option.mem_toList.mp hnow
        have he := task_of_operation? hsome
        have hview := (s.run events).step_view e (Nat.lt_of_lt_of_le hmade (s.made_le_run events))
        cases hview with
        | rests hblocked hslot htasks hnotes =>
            rw [operation?_of_blocked hblocked] at hsome
            cases hsome
        | begins hspawn ht hslot htasks hnotes => rw [he] at hspawn; cases hspawn
        | away hown ht hx hact hslot htasks =>
            rw [operation?_away ht hown hx] at hsome
            cases hsome
        | @turns u x y q own hown ht hturn hslot htasks hnotes =>
            have hut : t = u := by
              rw [he] at hown
              exact Option.some.inj hown
            subst hut
            rcases hturn.operates ht with ⟨hop, -⟩ | ⟨op, hop, -, -, hpopped⟩
            · rw [hop] at hsome
              cases hsome
            · obtain rfl := Option.some.inj (hop.symm.trans hsome)
              obtain ⟨caller, hy⟩ := hpopped value rfl
              refine ⟨y, ?_, ?_⟩
              · rw [htasks, assign_self]
              · rw [hy]
                exact caller.brings_resolved (.ok value)

/-- The operations of the other tasks are not those of the task. -/
theorem filter_operation? {u : TaskId} {e : Event α} (he : e.task? = some u) (hu : t ≠ u) :
    (s.operation? p e).toList.filter (fun op => op.task = t) = [] := by
  apply List.filter_eq_nil_iff.mpr
  intro op hop
  rw [task_of_operation? (Option.mem_toList.mp hop)] at he
  have hop : op.task = u := Option.some.inj he
  simpa [hop] using Ne.symm hu

/-- What one event does to a call at the slot. -/
theorem step_logged (hmade : p < s.made) {call : Call α} {x : Stage α}
    {entries : List (Operation α)} (ht : s.tasks t = some x) (hl : call.Logged p t x entries)
    (e : Event α) : ∃ y, (s.step e).tasks t = some y ∧
      call.Logged p t y (entries ++ (s.operation? p e).toList.filter fun op => op.task = t) := by
  have hview := s.step_view e hmade
  generalize s.step e = next, s.notes e = notes at hview ⊢
  cases hview with
  | rests hblocked hslot htasks hnotes =>
      rw [operation?_of_blocked hblocked]
      exact ⟨x, by rw [htasks, ht], by simpa using hl⟩
  | @begins u other he hu hslot htasks hnotes =>
      have hne : t ≠ u := by
        rintro rfl
        rw [ht] at hu
        cases hu
      rw [filter_operation? (by rw [he]; rfl) hne]
      exact ⟨x, by rw [htasks, assign_of_ne hne, ht], by simpa using hl⟩
  | @away u z y he hu hz hact hslot htasks =>
      by_cases hne : t = u
      · subst hne
        obtain rfl : x = z := Option.some.inj (ht.symm.trans hu)
        rw [operation?_away ht he hz]
        exact ⟨y, by rw [htasks, assign_self], by simpa using hl.away hact hz⟩
      · rw [filter_operation? he hne]
        exact ⟨x, by rw [htasks, assign_of_ne hne, ht], by simpa using hl⟩
  | @turns u z y q own he hu hturn hslot htasks hnotes =>
      by_cases hne : t = u
      · subst hne
        obtain rfl : x = z := Option.some.inj (ht.symm.trans hu)
        have hall : (s.operation? p e).toList.filter (fun op => op.task = t) =
            (s.operation? p e).toList := by
          apply List.filter_eq_self.mpr
          intro op hop
          rw [task_of_operation? (Option.mem_toList.mp hop)] at he
          simpa using Option.some.inj he
        rw [hall]
        exact ⟨y, by rw [htasks, assign_self], hl.turn ht hturn⟩
      · rw [filter_operation? he hne]
        exact ⟨x, by rw [htasks, assign_of_ne hne, ht], by simpa using hl⟩

/-- A call at the slot has in the log what it did, and nothing else. -/
theorem log_call (hmade : p < s.made) (hnew : s.tasks t = none) {call : Call α}
    (hslot : call.slot? = some p) (events : List (Event α)) (hcall : callOf t events = some call) :
    ∃ x, (s.run events).tasks t = some x ∧
      call.Logged p t x ((s.log p events).filter fun op => op.task = t) := by
  induction events using List.reverseRecOn with
  | nil => cases hcall
  | append_singleton events e ih =>
      rw [callOf_concat] at hcall
      rw [run_concat, log_concat, List.filter_append]
      cases hbefore : callOf t events with
      | some other =>
          rw [hbefore, Option.some_or] at hcall
          obtain ⟨x, ht, hl⟩ := ih (hbefore.trans hcall)
          exact step_logged (Nat.lt_of_lt_of_le hmade (s.made_le_run events)) ht hl e
      | none =>
          -- the call is begun by this event, and nothing was done for it before
          rw [hbefore, Option.none_or] at hcall
          have hunbegun := run_unbegun hnew events hbefore
          have hlog : (s.log p events).filter (fun op => op.task = t) = [] := by
            apply List.filter_eq_nil_iff.mpr
            intro op hop
            have hne : op.task ≠ t := by
              rintro rfl
              exact begun_of_log events op hop hunbegun
            simpa using hne
          have hop : (s.run events).operation? p e = none := by
            cases e with
            | proceed u => cases hcall
            | _ => rfl
          rw [step_unbegun hunbegun, hcall, hlog, hop]
          exact ⟨.ready call, rfl, .ready hslot⟩

end State

/-- A slot is a linearizable buffer for one value, from the moment at which it is made and whatever
tasks and steps make up the run from there. -/
theorem slot_linearizable {s : State α} {p : SlotId} (hmade : p < s.made) (hnew : s.slots p = {})
    (events : List (Event α)) :
    -- the log is a run of the buffer that ends with what is in the slot
    Buffer.Runs {} (s.log p events) ((s.run events).slots p).buffer ∧
    -- what came out is what went in, in the same order, but for one value at most
    takenFrom p (s.history events) <+: storedIn p (s.history events) ∧
    ((storedIn p (s.history events)).length = (takenFrom p (s.history events)).length ∨
      (storedIn p (s.history events)).length = (takenFrom p (s.history events)).length + 1) ∧
    -- a push fails in exactly these two cases, and leaves the slot as it is
    (∀ t value, (s.run events).tasks t = some (.storing p value) →
      (((s.run events).step (.proceed t)).outcome? t = some (.pushed (.error .full)) ↔
        ((s.run events).slots p).closed = false ∧ ((s.run events).slots p).value ≠ none) ∧
      (((s.run events).step (.proceed t)).outcome? t = some (.pushed (.error .closed)) ↔
        ((s.run events).slots p).closed = true) ∧
      (((s.run events).step (.proceed t)).outcome? t ≠ none →
        ((s.run events).step (.proceed t)).slots p = (s.run events).slots p)) ∧
    -- nothing goes in or comes out after a close
    (∀ t before after, events = before ++ after → .close t ∈ s.log p before →
      ∀ op ∈ (s.run before).log p after, op.pushed? = none ∧ op.popped? = none) ∧
    -- whoever takes a value out returns it, so a pop that was dropped has taken none
    (∀ t value, .pop t (.ok value) ∈ s.log p events →
      ∃ x, (s.run events).tasks t = some x ∧ x.Brings (.ok value)) ∧
    -- every call at the slot has in the log what it did, and nothing else
    (∀ t call, s.tasks t = none → callOf t events = some call → call.slot? = some p →
      ∃ x, (s.run events).tasks t = some x ∧
        call.Logged p t x ((s.log p events).filter fun op => op.task = t)) ∧
    -- between its begin and its end
    (∀ op ∈ s.log p events, (s.run events).tasks op.task ≠ none) ∧
    (∀ t x, (s.run events).tasks t = some x → x.Ended →
      ∀ later, ∀ op ∈ (s.run events).log p later, op.task ≠ t) := by
  have hruns : Buffer.Runs {} (s.log p events) ((s.run events).slots p).buffer := by
    have h := State.log_runs hmade events
    rwa [hnew] at h
  have hvalues : storedIn p (s.history events) =
      takenFrom p (s.history events) ++ ((s.run events).slots p).value.toList := by
    obtain ⟨hstored, htaken⟩ := State.log_moved hmade events
    rw [hstored, htaken]
    exact hruns.values
  refine ⟨hruns, ⟨_, hvalues.symm⟩, ?_, ?_, ?_, ?_, ?_, ?_, ?_⟩
  · rw [hvalues]
    cases ((s.run events).slots p).value with
    | none => left; simp
    | some value => right; simp
  · intro t value ht
    exact State.push_fails ht
  · rintro t before after rfl hclose
    have hbefore := State.log_runs hmade before
    have hafter := State.log_runs (Nat.lt_of_lt_of_le hmade (s.made_le_run before)) after
    exact (hafter.closed (hbefore.closed_of_close hclose)).2
  · intro t value hpop
    exact State.log_brings hmade events hpop
  · intro t call hunbegun hcall hslot
    exact State.log_call hmade hunbegun hslot events hcall
  · exact State.begun_of_log events
  · intro t x ht hx later
    exact State.log_ended ht hx later

/-- A rendezvous with one slot, which is at hand. -/
def withSlot : State Nat := State.empty.make.1

/-- Two pops sleep when a value goes in, and both are woken. The second takes the value. The first
goes to sleep again, is woken by the next value and is dropped before it looks, so that the value is
still there when a further push and a close follow. -/
def contested : List (Event Nat) :=
  [.spawn 1 (.slotPop 0), .proceed 1, .proceed 1, .proceed 1,
    .spawn 2 (.slotPop 0), .proceed 2, .proceed 2, .proceed 2,
    .spawn 3 (.slotPush 0 7), .proceed 3, .proceed 3, .proceed 3,
    .proceed 2, .proceed 2, .proceed 2,
    .proceed 1, .proceed 1, .proceed 1,
    .spawn 4 (.slotPush 0 8), .proceed 4, .proceed 4, .proceed 4, .drop 1,
    .spawn 5 (.slotPush 0 9), .proceed 5, .proceed 5,
    .spawn 6 (.slotClose 0), .proceed 6, .proceed 6,
    .spawn 7 (.slotPop 0), .proceed 7, .proceed 7, .proceed 7]

theorem slot_linearizable_contested :
    withSlot.log 0 contested =
        [.push 3 7 (.ok ()), .pop 2 (.ok 7), .push 4 8 (.ok ()), .push 5 9 (.error .full), .close 6,
          .pop 7 (.error .closed)] ∧
      (withSlot.run contested).tasks 1 = some .dropped ∧
      Buffer.Runs {} (withSlot.log 0 contested) ((withSlot.run contested).slots 0).buffer :=
  ⟨rfl, rfl, (slot_linearizable (by decide) rfl contested).1⟩

end AmqpDelivery.Rendezvous
