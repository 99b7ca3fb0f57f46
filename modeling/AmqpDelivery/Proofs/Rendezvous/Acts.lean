import AmqpDelivery.Rendezvous.History

/-!
# What one step of a rendezvous does

`State.step_act` is the one place where the steps of a rendezvous are opened, whatever its tasks are
asked to do. An event lets nothing move but the clock, begins a task, or is an act of one task
(`Act`): the task goes on by itself, finds or misses the slot of an id, makes a slot, takes an id
out of the file, empties the file, or turns to one slot (`Turn`).
-/

namespace AmqpDelivery.Rendezvous

variable {α : Type}

/-- The task that an event is a step of. -/
def Event.task? : Event α → Option TaskId
  | .spawn t _ | .proceed t | .published t _ | .expire t | .drop t => some t
  | .advance _ => none

/-- The note on a task that comes to a stage. -/
def Stage.endNotes (t : TaskId) : Stage α → List (Note α)
  | .finished outcome => [.ended t outcome]
  | _ => []

/-- The stage of a wait that has come to its result: a request still has to remove its id. -/
def Caller.resolved (caller : Caller) (result : Except Failure α) : Stage α :=
  match caller with
  | .request id => .leaving id result
  | .pop | .wait _ => .finished (.received result)

/-- How a task goes on that looks at no id and at no slot. -/
inductive Stage.Passes (e : Event α) (t : TaskId) : Stage α → Stage α → Prop
  | unanswered (value : α) (he : e = .proceed t) :
      Passes e t (.ready (.route none value)) (.finished .done)
  | declined (he : e = .proceed t) :
      Passes e t (.ready .decline) (.finished (.received (.error .closed)))
  | slotPush (p : SlotId) (value : α) (he : e = .proceed t) :
      Passes e t (.ready (.slotPush p value)) (.storing p value)
  | slotPop (p : SlotId) (he : e = .proceed t) :
      Passes e t (.ready (.slotPop p)) (.listening ⟨.pop, p, none⟩)
  | slotClose (p : SlotId) (he : e = .proceed t) :
      Passes e t (.ready (.slotClose p)) (.shutting [p])
  | allShut (he : e = .proceed t) : Passes e t (.shutting []) (.finished .done)
  | published (id : UInt64) (ms : Nat) (u : Unit) (he : e = .published t (.ok u)) :
      Passes e t (.publishing id ms) (.seeking id ms)
  | unpublished (id : UInt64) (ms : Nat) (f : Failure) (he : e = .published t (.error f)) :
      Passes e t (.publishing id ms) (.leaving id (.error f))
  | unbegun (call : Call α) (he : e = .drop t) : Passes e t (.ready call) .dropped
  | abandoned (id : UInt64) (ms : Nat) (he : e = .drop t) : Passes e t (.publishing id ms) .dropped

/-- How a task goes on that finds the slot of an id at the time `now`. -/
inductive Stage.Hits (now : Nat) (id : UInt64) (slot : SlotId) : Stage α → Stage α → Prop
  | get (create : Bool) : Hits now id slot (.ready (.get id create)) (.finished (.slot (some slot)))
  | push (value : α) : Hits now id slot (.ready (.push id value)) (.storing slot value)
  | route (value : α) : Hits now id slot (.ready (.route (some id) value)) (.storing slot value)
  | wait (timeoutMs : Option Nat) :
      Hits now id slot (.ready (.wait id timeoutMs))
        (.listening ⟨.wait id, slot, timeoutMs.map (now + ·)⟩)
  | request (ms : Nat) : Hits now id slot (.ready (.request id ms)) (.publishing id ms)
  | seek (ms : Nat) :
      Hits now id slot (.seeking id ms) (.listening ⟨.request id, slot, some (now + ms)⟩)

/-- How a task goes on that finds no slot of an id and makes none; `closed` tells whether everything
was closed. -/
inductive Stage.Misses (closed : Bool) (id : UInt64) : Stage α → Stage α → Prop
  | get (create : Bool) (h : create = true → closed = true) :
      Misses closed id (.ready (.get id create)) (.finished (.slot none))
  | push (value : α) :
      Misses closed id (.ready (.push id value)) (.finished (.pushed (.error .closed)))
  | route (value : α) :
      Misses closed id (.ready (.route (some id) value)) (.finished (.pushed (.error .closed)))
  | wait (timeoutMs : Option Nat) :
      Misses closed id (.ready (.wait id timeoutMs)) (.finished (.received (.error .closed)))
  | request (ms : Nat) (h : closed = true) :
      Misses closed id (.ready (.request id ms)) (.finished (.received (.error .closed)))
  | seek (ms : Nat) : Misses closed id (.seeking id ms) (.leaving id (.error .closed))

/-- How a task goes on that makes the slot of an id. -/
inductive Stage.Opens (id : UInt64) (slot : SlotId) : Stage α → Stage α → Prop
  | get : Opens id slot (.ready (.get id true)) (.finished (.slot (some slot)))
  | request (ms : Nat) : Opens id slot (.ready (.request id ms)) (.publishing id ms)

/-- How a task goes on that takes an id, under which `found` was filed, out of the file. -/
inductive Stage.Removes (id : UInt64) (found : Option SlotId) : Stage α → Stage α → Prop
  | close : Removes id found (.ready (.close id)) (.shutting found.toList)
  | remove : Removes id found (.ready (.remove id)) (.finished (.slot found))
  | overdue (caller : Caller) :
      Removes id found (.overdue id caller) (caller.resolved (.error .timeout))
  | leave (result : Except Failure α) :
      Removes id found (.leaving id result) (.finished (.received result))

/-- How a task turns to the slot `p` with the content `q`: its stages, what is in the slot
afterwards, and what there is to note. -/
inductive Turn (p : SlotId) (q : Slot α) (e : Event α) (t : TaskId) :
    Stage α → Stage α → Slot α → List (Note α) → Prop
  | store {value : α} (he : e = .proceed t) (hclosed : q.closed = false) (hvalue : q.value = none) :
      Turn p q e t (.storing p value) (.announcing p) { q with value := some value }
        [.stored t p value]
  | full {value old : α} (he : e = .proceed t) (hclosed : q.closed = false)
      (hvalue : q.value = some old) :
      Turn p q e t (.storing p value) (.finished (.pushed (.error .full))) q []
  | refuse {value : α} (he : e = .proceed t) (hclosed : q.closed = true) :
      Turn p q e t (.storing p value) (.finished (.pushed (.error .closed))) q []
  | announce (he : e = .proceed t) :
      Turn p q e t (.announcing p) (.finished (.pushed (.ok ()))) q.wakeAll []
  | shut {rest : List SlotId} (he : e = .proceed t) :
      Turn p q e t (.shutting (p :: rest)) (.rousing p rest) q.shut []
  | rouse {rest : List SlotId} (he : e = .proceed t) :
      Turn p q e t (.rousing p rest) (.shutting rest) q.wakeAll []
  | register {w : Wait} (he : e = .proceed t) (hw : w.slot = p) :
      Turn p q e t (.listening w) (.checking w) (q.register t) []
  | take {w : Wait} {value : α} (he : e = .proceed t) (hw : w.slot = p) (hclosed : q.closed = false)
      (hvalue : q.value = some value) :
      Turn p q e t (.checking w) (w.caller.resolved (.ok value))
        ({ q with value := none }.forget t) [.taken t p value]
  | late {w : Wait} (he : e = .proceed t) (hw : w.slot = p) (hclosed : q.closed = true) :
      Turn p q e t (.checking w) (w.caller.resolved (.error .closed)) (q.forget t) []
  | park {w : Wait} (he : e = .proceed t) (hw : w.slot = p) (hclosed : q.closed = false)
      (hvalue : q.value = none) : Turn p q e t (.checking w) (.parked w) q []
  | wake {w : Wait} (he : e = .proceed t) (hw : w.slot = p) (hwoken : q.hasWoken t = true) :
      Turn p q e t (.parked w) (.listening w) (q.forget t) []
  | expire {w : Wait} {id : UInt64} (he : e = .expire t) (hw : w.slot = p) (hid : w.id? = some id)
      (hwoken : q.hasWoken t = false) :
      Turn p q e t (.parked w) (.overdue id w.caller) (q.forget t) []
  | drop {w : Wait} (he : e = .drop t) (hw : w.slot = p) :
      Turn p q e t (.parked w) .dropped (q.forget t) []

/-- An act of the task `t` in the event `e`: its stages before and after, the state that it leads to
and the notes on it. -/
inductive Act (s : State α) (e : Event α) (t : TaskId) :
    Stage α → Stage α → State α → List (Note α) → Prop
  | pass {x y : Stage α} (h : x.Passes e t y) : Act s e t x y (s.goto t y) (y.endNotes t)
  | hit {x y : Stage α} {id : UInt64} {slot : SlotId} (he : e = .proceed t)
      (hclosed : s.closed = false) (hfind : s.find? id = some slot) (h : x.Hits s.now id slot y) :
      Act s e t x y (s.goto t y) (.located t id slot :: y.endNotes t)
  | miss {x y : Stage α} {id : UInt64} (he : e = .proceed t)
      (hfind : s.closed = false → s.find? id = none) (h : x.Misses s.closed id y) :
      Act s e t x y (s.goto t y) (y.endNotes t)
  | opens {x y : Stage α} {id : UInt64} (he : e = .proceed t) (hclosed : s.closed = false)
      (hfind : s.find? id = none) (h : x.Opens id s.made y) :
      Act s e t x y
        ({ s with
            slots := assign s.slots s.made {}
            made := s.made + 1
            index := (id, s.made) :: s.index }.goto t y)
        (.located t id s.made :: y.endNotes t)
  | makes (he : e = .proceed t) :
      Act s e t (.ready .slotNew) (.finished (.slot (some s.made)))
        ({ s with slots := assign s.slots s.made {}, made := s.made + 1 }.goto t
          (.finished (.slot (some s.made)))) [.ended t (.slot (some s.made))]
  | removes {x y : Stage α} {id : UInt64} (he : e = .proceed t) (h : x.Removes id (s.find? id) y) :
      Act s e t x y ((s.unfile id).goto t y) (y.endNotes t)
  | clears (he : e = .proceed t) :
      Act s e t (.ready .closeAll) (.shutting (s.index.map Prod.snd))
        ({ s with index := [], closed := true }.goto t (.shutting (s.index.map Prod.snd))) []
  | turns {x y : Stage α} {p : SlotId} {q : Slot α} {notes : List (Note α)}
      (h : Turn p (s.slots p) e t x y q notes) :
      Act s e t x y ((s.modify p fun _ => q).goto t y) (notes ++ y.endNotes t)

/-- What one event does to a state, and the notes on it. -/
inductive Change (s : State α) (e : Event α) : State α → List (Note α) → Prop
  /-- No task moves. -/
  | rests (now : Nat) (hblocked : ∀ t, e = .proceed t → s.canProceed t = false)
      (hbegun : ∀ t call, e = .spawn t call → s.tasks t ≠ none) : Change s e { s with now } []
  /-- A task begins. -/
  | begins {t : TaskId} {call : Call α} (he : e = .spawn t call) (ht : s.tasks t = none) :
      Change s e (s.goto t (.ready call)) []
  /-- A task acts. -/
  | acts {t : TaskId} {x y : Stage α} {next : State α} {notes : List (Note α)}
      (he : e.task? = some t) (ht : s.tasks t = some x) (h : Act s e t x y next notes) :
      Change s e next notes

namespace State

variable {s next : State α} {e : Event α} {t : TaskId} {x y : Stage α}

theorem conclude_eq (s : State α) (t : TaskId) (caller : Caller) (result : Except Failure α) :
    s.conclude t caller result = s.goto t (caller.resolved result) := by
  cases caller <;> rfl

theorem get_false (s : State α) (id : UInt64) :
    s.get id false = (s, if s.closed then none else s.find? id) := by
  unfold get
  split
  · rfl
  · cases s.find? id with
    | none => rfl
    | some slot => rfl

/-- Writing what is there changes nothing. -/
theorem modify_self (s : State α) (p : SlotId) : (s.modify p fun _ => s.slots p) = s := by
  have hslots : assign s.slots p (s.slots p) = s.slots := by
    funext i
    by_cases hi : i = p
    · rw [hi, assign_self]
    · rw [assign_of_ne hi]
  simp [modify, hslots]

/-! ## Notes -/

/-- The notes on the section in front of which a task stands, but for the one on its end. -/
def sectionNotes (s : State α) (t : TaskId) : List (Note α) :=
  (s.locating? t).toList ++ (s.storing? t).toList ++ (s.taking? t).toList

theorem step_proceed (ht : s.tasks t = some x) : s.step (.proceed t) = s.proceed t x := by
  simp [step, act, ht]

/-- A task passes a section with the notes on it, and with the one on its end if it ends there. -/
theorem notes_proceed (ht : s.tasks t = some x) (hx : ∀ o, x ≠ .finished o)
    (hnext : (s.proceed t x).tasks t = some y) :
    s.notes (.proceed t) = s.sectionNotes t ++ y.endNotes t := by
  have hstep : s.step (.proceed t) = s.proceed t x := step_proceed ht
  have hend : (s.ending? (s.step (.proceed t)) t).toList = y.endNotes t := by
    -- the task has no outcome before, so its end is noted if it has one afterwards
    have hs : s.outcome? t = none := by
      cases x <;> simp_all [outcome?]
    unfold ending?
    rw [hstep, hs]
    cases y <;> simp [outcome?, hnext, Stage.endNotes]
  simp [notes, sectionNotes, hend]

/-- A section that only takes the task on is passed with the note on its end. -/
theorem notes_goto (y : Stage α) (ht : s.tasks t = some x) (hx : ∀ o, x ≠ .finished o)
    {m : State α} (hnext : s.proceed t x = m.goto t y) :
    s.notes (.proceed t) = s.sectionNotes t ++ y.endNotes t := by
  apply notes_proceed ht hx
  rw [hnext]
  exact assign_self _ _ _

/-! ## Acts of a task that passes a section -/

theorem proceed_pass (ht : s.tasks t = some x) (h : x.Passes (.proceed t) t y) :
    Act s (.proceed t) t x y (s.proceed t x) (s.notes (.proceed t)) := by
  have hnext : s.proceed t x = s.goto t y := by
    cases h with
    | published id ms u he => cases he
    | unpublished id ms f he => cases he
    | unbegun call he => cases he
    | abandoned id ms he => cases he
    | _ => rfl
  have hsection : s.sectionNotes t = [] := by
    cases h with
    | unbegun call he => cases he
    | _ => simp [sectionNotes, locating?, storing?, taking?, ht]
  rw [notes_goto y ht (by cases h <;> simp) hnext, hsection, hnext]
  exact .pass h

theorem get_of_find? {id : UInt64} {slot : SlotId} (hclosed : s.closed = false)
    (hfind : s.find? id = some slot) (create : Bool) : s.get id create = (s, some slot) := by
  simp [get, hclosed, hfind]

theorem proceed_hit {id : UInt64} {slot : SlotId} (ht : s.tasks t = some x)
    (hclosed : s.closed = false) (hfind : s.find? id = some slot) (h : x.Hits s.now id slot y) :
    Act s (.proceed t) t x y (s.proceed t x) (s.notes (.proceed t)) := by
  have hget := get_of_find? hclosed hfind
  have hnext : s.proceed t x = s.goto t y := by
    cases h <;> simp [proceed, start, await, aim, hget]
  have hsection : s.sectionNotes t = [.located t id slot] := by
    cases h <;> simp [sectionNotes, locating?, storing?, taking?, ht, hget]
  rw [notes_goto y ht (by cases h <;> simp) hnext, hsection, hnext]
  exact .hit rfl hclosed hfind h

theorem proceed_miss {id : UInt64} (ht : s.tasks t = some x)
    (hfind : s.closed = false → s.find? id = none) (h : x.Misses s.closed id y) :
    Act s (.proceed t) t x y (s.proceed t x) (s.notes (.proceed t)) := by
  have hfalse : s.get id false = (s, none) := by
    cases hc : s.closed with
    | true => simp [get, hc]
    | false => simp [get, hc, hfind hc]
  have htrue : s.closed = true → s.get id true = (s, none) := by
    intro hc
    simp [get, hc]
  have hget : ∀ create, (create = true → s.closed = true) → s.get id create = (s, none) := by
    intro create hcreate
    cases create with
    | true => exact htrue (hcreate rfl)
    | false => exact hfalse
  have hnext : s.proceed t x = s.goto t y := by
    cases h with
    | get create hcreate => simp [proceed, start, hget create hcreate]
    | request ms hclosed => simp [proceed, start, htrue hclosed]
    | _ => simp [proceed, start, await, aim, conclude, hfalse]
  have hsection : s.sectionNotes t = [] := by
    cases h with
    | get create hcreate =>
        simp [sectionNotes, locating?, storing?, taking?, ht, hget create hcreate]
    | request ms hclosed => simp [sectionNotes, locating?, storing?, taking?, ht, htrue hclosed]
    | _ => simp [sectionNotes, locating?, storing?, taking?, ht, hfalse]
  rw [notes_goto y ht (by cases h <;> simp) hnext, hsection, hnext]
  exact .miss rfl hfind h

theorem proceed_opens {id : UInt64} (ht : s.tasks t = some x) (hclosed : s.closed = false)
    (hfind : s.find? id = none) (h : x.Opens id s.made y) :
    Act s (.proceed t) t x y (s.proceed t x) (s.notes (.proceed t)) := by
  have hget : s.get id true =
      ({ s with
          slots := assign s.slots s.made {}
          made := s.made + 1
          index := (id, s.made) :: s.index }, some s.made) := by
    simp [get, hclosed, hfind, make]
  have hnext : s.proceed t x =
      { s with
        slots := assign s.slots s.made {}
        made := s.made + 1
        index := (id, s.made) :: s.index }.goto t y := by
    cases h <;> simp [proceed, start, hget]
  have hsection : s.sectionNotes t = [.located t id s.made] := by
    cases h <;> simp [sectionNotes, locating?, storing?, taking?, ht, hget]
  rw [notes_goto y ht (by cases h <;> simp) hnext, hsection, hnext]
  exact .opens rfl hclosed hfind h

theorem proceed_makes (ht : s.tasks t = some (.ready .slotNew)) :
    Act s (.proceed t) t (.ready .slotNew) (.finished (.slot (some s.made)))
      (s.proceed t (.ready .slotNew)) (s.notes (.proceed t)) := by
  have hnext : s.proceed t (.ready .slotNew) =
      { s with slots := assign s.slots s.made {}, made := s.made + 1 }.goto t
        (.finished (.slot (some s.made))) := rfl
  have hsection : s.sectionNotes t = [] := by
    simp [sectionNotes, locating?, storing?, taking?, ht]
  rw [notes_goto _ ht (by simp) hnext, hsection, hnext]
  exact .makes rfl

theorem proceed_removes {id : UInt64} (ht : s.tasks t = some x)
    (h : x.Removes id (s.find? id) y) :
    Act s (.proceed t) t x y (s.proceed t x) (s.notes (.proceed t)) := by
  have hnext : s.proceed t x = (s.unfile id).goto t y := by
    cases h with
    | overdue caller => exact conclude_eq _ _ _ _
    | _ => rfl
  have hsection : s.sectionNotes t = [] := by
    cases h <;> simp [sectionNotes, locating?, storing?, taking?, ht]
  rw [notes_goto y ht (by cases h <;> simp) hnext, hsection, hnext]
  exact .removes rfl h

theorem proceed_clears (ht : s.tasks t = some (.ready .closeAll)) :
    Act s (.proceed t) t (.ready .closeAll) (.shutting (s.index.map Prod.snd))
      (s.proceed t (.ready .closeAll)) (s.notes (.proceed t)) := by
  have hnext : s.proceed t (.ready .closeAll) =
      { s with index := [], closed := true }.goto t (.shutting (s.index.map Prod.snd)) := rfl
  have hsection : s.sectionNotes t = [] := by
    simp [sectionNotes, locating?, storing?, taking?, ht]
  rw [notes_goto _ ht (by simp) hnext, hsection, hnext]
  exact .clears rfl

theorem proceed_turns {p : SlotId} {q : Slot α} {notes : List (Note α)} (ht : s.tasks t = some x)
    (h : Turn p (s.slots p) (.proceed t) t x y q notes) :
    Act s (.proceed t) t x y (s.proceed t x) (s.notes (.proceed t)) := by
  have hnext : s.proceed t x = (s.modify p fun _ => q).goto t y := by
    cases h with
    | store he hclosed hvalue => simp [proceed, Slot.offer, hclosed, hvalue]
    | full he hclosed hvalue => simp [proceed, Slot.offer, hclosed, hvalue, modify_self]
    | refuse he hclosed => simp [proceed, Slot.offer, hclosed, modify_self]
    | announce he => rfl
    | shut he => rfl
    | rouse he => rfl
    | register he hw => rw [← hw]; rfl
    | take he hw hclosed hvalue =>
        subst hw
        simp [proceed, Slot.take?, hclosed, hvalue, conclude_eq]
    | late he hw hclosed =>
        subst hw
        simp [proceed, Slot.take?, hclosed, conclude_eq]
    | park he hw hclosed hvalue =>
        subst hw
        simp [proceed, Slot.take?, hclosed, hvalue, modify_self]
    | wake he hw hwoken =>
        subst hw
        simp only [proceed, hwoken, if_true]
        rfl
    | expire he hw hid hwoken => cases he
    | drop he hw => cases he
  have hsection : s.sectionNotes t = notes := by
    cases h with
    | store he hclosed hvalue =>
        simp [sectionNotes, locating?, storing?, taking?, ht, Slot.offer, hclosed, hvalue]
    | full he hclosed hvalue =>
        simp [sectionNotes, locating?, storing?, taking?, ht, Slot.offer, hclosed, hvalue]
    | refuse he hclosed =>
        simp [sectionNotes, locating?, storing?, taking?, ht, Slot.offer, hclosed]
    | take he hw hclosed hvalue =>
        subst hw
        simp [sectionNotes, locating?, storing?, taking?, ht, Slot.take?, hclosed, hvalue]
    | late he hw hclosed =>
        subst hw
        simp [sectionNotes, locating?, storing?, taking?, ht, Slot.take?, hclosed]
    | park he hw hclosed hvalue =>
        subst hw
        simp [sectionNotes, locating?, storing?, taking?, ht, Slot.take?, hclosed, hvalue]
    | _ => simp [sectionNotes, locating?, storing?, taking?, ht]
  rw [notes_goto y ht (by cases h <;> simp) hnext, hsection, hnext]
  exact .turns h

/-- A task that looks up an id finds its slot or misses it. -/
theorem proceed_look {id : UInt64} {z : Stage α} (ht : s.tasks t = some x)
    (hhit : ∀ slot, ∃ y, x.Hits s.now id slot y) (hmiss : x.Misses s.closed id z) :
    ∃ y, Act s (.proceed t) t x y (s.proceed t x) (s.notes (.proceed t)) := by
  cases hc : s.closed with
  | true => exact ⟨z, proceed_miss ht (by simp [hc]) hmiss⟩
  | false =>
      cases hf : s.find? id with
      | none => exact ⟨z, proceed_miss ht (fun _ => hf) hmiss⟩
      | some slot =>
          obtain ⟨y, hy⟩ := hhit slot
          exact ⟨y, proceed_hit ht hc hf hy⟩

/-- A task that looks up an id and makes its slot if it is missing. -/
theorem proceed_create {id : UInt64} {y z : Stage α} (ht : s.tasks t = some x)
    (hhit : ∀ slot, ∃ y, x.Hits s.now id slot y) (hopen : x.Opens id s.made y)
    (hmiss : s.closed = true → x.Misses s.closed id z) :
    ∃ y, Act s (.proceed t) t x y (s.proceed t x) (s.notes (.proceed t)) := by
  cases hc : s.closed with
  | true => exact ⟨z, proceed_miss ht (by simp [hc]) (hmiss hc)⟩
  | false =>
      cases hf : s.find? id with
      | none => exact ⟨y, proceed_opens ht hc hf hopen⟩
      | some slot =>
          obtain ⟨y, hy⟩ := hhit slot
          exact ⟨y, proceed_hit ht hc hf hy⟩

theorem start_act {call : Call α} (ht : s.tasks t = some (.ready call)) :
    ∃ y, Act s (.proceed t) t (.ready call) y (s.proceed t (.ready call))
      (s.notes (.proceed t)) := by
  cases call with
  | get id create =>
      cases create with
      | true => exact proceed_create ht (fun _ => ⟨_, .get true⟩) .get fun hc => .get true fun _ => hc
      | false => exact proceed_look ht (fun _ => ⟨_, .get false⟩) (.get false (by simp))
  | push id value => exact proceed_look ht (fun _ => ⟨_, .push value⟩) (.push value)
  | route id? value =>
      cases id? with
      | none => exact ⟨_, proceed_pass ht (.unanswered value rfl)⟩
      | some id => exact proceed_look ht (fun _ => ⟨_, .route value⟩) (.route value)
  | wait id timeoutMs => exact proceed_look ht (fun _ => ⟨_, .wait timeoutMs⟩) (.wait timeoutMs)
  | request id ms =>
      exact proceed_create ht (fun _ => ⟨_, .request ms⟩) (.request ms) fun hc => .request ms hc
  | decline => exact ⟨_, proceed_pass ht (.declined rfl)⟩
  | close id => exact ⟨_, proceed_removes ht .close⟩
  | remove id => exact ⟨_, proceed_removes ht .remove⟩
  | closeAll => exact ⟨_, proceed_clears ht⟩
  | slotNew => exact ⟨_, proceed_makes ht⟩
  | slotPush p value => exact ⟨_, proceed_pass ht (.slotPush p value rfl)⟩
  | slotPop p => exact ⟨_, proceed_pass ht (.slotPop p rfl)⟩
  | slotClose p => exact ⟨_, proceed_pass ht (.slotClose p rfl)⟩

/-- A task that can pass its next section does so. -/
theorem proceed_act (ht : s.tasks t = some x) (hcan : s.canProceed t = true) :
    ∃ y, Act s (.proceed t) t x y (s.proceed t x) (s.notes (.proceed t)) := by
  cases x with
  | ready call => exact start_act ht
  | storing p value =>
      cases hc : (s.slots p).closed with
      | true => exact ⟨_, proceed_turns ht (.refuse rfl hc)⟩
      | false =>
          cases hv : (s.slots p).value with
          | none => exact ⟨_, proceed_turns ht (.store rfl hc hv)⟩
          | some old => exact ⟨_, proceed_turns ht (.full rfl hc hv)⟩
  | announcing p => exact ⟨_, proceed_turns ht (.announce rfl)⟩
  | shutting slots =>
      cases slots with
      | nil => exact ⟨_, proceed_pass ht (.allShut rfl)⟩
      | cons p rest => exact ⟨_, proceed_turns ht (.shut rfl)⟩
  | rousing p rest => exact ⟨_, proceed_turns ht (.rouse rfl)⟩
  | seeking id ms => exact proceed_look ht (fun _ => ⟨_, .seek ms⟩) (.seek ms)
  | listening w => exact ⟨_, proceed_turns ht (.register rfl rfl)⟩
  | checking w =>
      cases hc : (s.slots w.slot).closed with
      | true => exact ⟨_, proceed_turns ht (.late rfl rfl hc)⟩
      | false =>
          cases hv : (s.slots w.slot).value with
          | none => exact ⟨_, proceed_turns ht (.park rfl rfl hc hv)⟩
          | some value => exact ⟨_, proceed_turns ht (.take rfl rfl hc hv)⟩
  | parked w =>
      have hwoken : (s.slots w.slot).hasWoken t = true := by simpa [canProceed, ht] using hcan
      exact ⟨_, proceed_turns ht (.wake rfl rfl hwoken)⟩
  | overdue id caller => exact ⟨_, proceed_removes ht (.overdue caller)⟩
  | leaving id result => exact ⟨_, proceed_removes ht (.leave result)⟩
  | publishing id ms => simp [canProceed, ht] at hcan
  | finished outcome => simp [canProceed, ht] at hcan
  | dropped => simp [canProceed, ht] at hcan

/-! ## What an event does -/

/-- Nothing happens to a task that is not there or cannot pass its next section. -/
theorem rests_of_eq (h : s.step e = s) (hnotes : s.notes e = [])
    (hblocked : ∀ t, e = .proceed t → s.canProceed t = false)
    (hbegun : ∀ t call, e = .spawn t call → s.tasks t ≠ none) :
    Change s e (s.step e) (s.notes e) := by
  rw [h, hnotes]
  exact .rests s.now hblocked hbegun

/-- A task that cannot pass its next section stays where it is, without a note. -/
theorem proceed_blocked (hblocked : s.canProceed t = false) :
    s.step (.proceed t) = s ∧ s.notes (.proceed t) = [] := by
  have hboth : s.step (.proceed t) = s ∧ s.sectionNotes t = [] := by
    cases ht : s.tasks t with
    | none => simp [step, act, sectionNotes, locating?, storing?, taking?, ht]
    | some x =>
        cases x with
        | parked w =>
            have hwoken : (s.slots w.slot).hasWoken t = false := by
              simpa [canProceed, ht] using hblocked
            simp [step, act, proceed, hwoken, sectionNotes, locating?, storing?, taking?, ht]
        | publishing id ms =>
            simp [step, act, proceed, sectionNotes, locating?, storing?, taking?, ht]
        | finished outcome =>
            simp [step, act, proceed, sectionNotes, locating?, storing?, taking?, ht]
        | dropped => simp [step, act, proceed, sectionNotes, locating?, storing?, taking?, ht]
        | _ => simp [canProceed, ht] at hblocked
  obtain ⟨hstep, hsection⟩ := hboth
  have hend : s.ending? s t = none := by
    unfold ending?
    cases s.outcome? t <;> rfl
  have hnotes : s.notes (.proceed t) = s.sectionNotes t ++ (s.ending? s t).toList := by
    simp [notes, hstep, sectionNotes]
  exact ⟨hstep, by simp [hnotes, hsection, hend]⟩

theorem change_proceed (s : State α) (t : TaskId) :
    Change s (.proceed t) (s.step (.proceed t)) (s.notes (.proceed t)) := by
  cases hcan : s.canProceed t with
  | false =>
      obtain ⟨hstep, hnotes⟩ := proceed_blocked hcan
      refine rests_of_eq hstep hnotes ?_ (by simp)
      rintro u hu
      cases hu
      exact hcan
  | true =>
      cases ht : s.tasks t with
      | none => simp [canProceed, ht] at hcan
      | some x =>
          obtain ⟨y, hact⟩ := proceed_act ht hcan
          rw [step_proceed ht]
          exact .acts rfl ht hact

theorem change_published (s : State α) (t : TaskId) (result : Except Failure Unit) :
    Change s (.published t result) (s.step (.published t result)) [] := by
  cases ht : s.tasks t with
  | none => exact rests_of_eq (by simp [step, act, ht]) rfl (by simp) (by simp)
  | some x =>
      cases x with
      | publishing id ms =>
          cases result with
          | ok u =>
              have hstep : s.step (.published t (.ok u)) = s.goto t (.seeking id ms) := by
                simp [step, act, ht, published]
              rw [hstep]
              exact .acts rfl ht (.pass (.published id ms u rfl))
          | error f =>
              have hstep : s.step (.published t (.error f)) = s.goto t (.leaving id (.error f)) := by
                simp [step, act, ht, published]
              rw [hstep]
              exact .acts rfl ht (.pass (.unpublished id ms f rfl))
      | _ => exact rests_of_eq (by simp [step, act, ht, published]) rfl (by simp) (by simp)

theorem change_expire (s : State α) (t : TaskId) :
    Change s (.expire t) (s.step (.expire t)) [] := by
  cases ht : s.tasks t with
  | none => exact rests_of_eq (by simp [step, act, ht]) rfl (by simp) (by simp)
  | some x =>
      cases x with
      | parked w =>
          have hstep : s.step (.expire t) = s.expire t (.parked w) := by simp [step, act, ht]
          by_cases hdue : ∃ deadline id, w.deadline = some deadline ∧ w.id? = some id ∧
              deadline ≤ s.now ∧ (s.slots w.slot).hasWoken t = false
          -- the time of a wait that nobody has woken is over
          · obtain ⟨deadline, id, hdeadline, hid, hover⟩ := hdue
            have hnext : s.expire t (.parked w) =
                (s.modify w.slot fun _ => (s.slots w.slot).forget t).goto t
                  (.overdue id w.caller) := by
              simp [expire, hdeadline, hid, hover, modify]
            rw [hstep, hnext]
            exact .acts rfl ht (.turns (.expire rfl rfl hid hover.2))
          · have hnext : s.expire t (.parked w) = s := by
              cases hdeadline : w.deadline with
              | none => simp [expire, hdeadline]
              | some deadline =>
                  cases hid : w.id? with
                  | none => simp [expire, hdeadline, hid]
                  | some id =>
                      have hearly : ¬ (deadline ≤ s.now ∧ (s.slots w.slot).hasWoken t = false) :=
                        fun hover => hdue ⟨deadline, id, hdeadline, hid, hover⟩
                      simp only [expire, hdeadline, hid, if_neg hearly]
            exact rests_of_eq (hstep.trans hnext) rfl (by simp) (by simp)
      | _ => exact rests_of_eq (by simp [step, act, ht, expire]) rfl (by simp) (by simp)

theorem change_drop (s : State α) (t : TaskId) : Change s (.drop t) (s.step (.drop t)) [] := by
  cases ht : s.tasks t with
  | none => exact rests_of_eq (by simp [step, act, ht]) rfl (by simp) (by simp)
  | some x =>
      cases x with
      | ready call =>
          have hstep : s.step (.drop t) = s.goto t .dropped := by simp [step, act, ht, drop]
          rw [hstep]
          exact .acts rfl ht (.pass (.unbegun call rfl))
      | publishing id ms =>
          have hstep : s.step (.drop t) = s.goto t .dropped := by simp [step, act, ht, drop]
          rw [hstep]
          exact .acts rfl ht (.pass (.abandoned id ms rfl))
      | parked w =>
          have hstep : s.step (.drop t) =
              (s.modify w.slot fun _ => (s.slots w.slot).forget t).goto t .dropped := by
            simp [step, act, ht, drop, modify]
          rw [hstep]
          exact .acts rfl ht (.turns (.drop rfl rfl))
      | _ => exact rests_of_eq (by simp [step, act, ht, drop]) rfl (by simp) (by simp)

/-- Every event is one of the three changes. -/
theorem step_change (s : State α) (e : Event α) : Change s e (s.step e) (s.notes e) := by
  cases e with
  | spawn t call =>
      cases ht : s.tasks t with
      | none =>
          have hstep : s.step (.spawn t call) = s.goto t (.ready call) := by simp [step, ht]
          rw [hstep]
          exact .begins rfl ht
      | some x =>
          refine rests_of_eq (by simp [step, ht]) rfl (by simp) ?_
          rintro u other hu
          cases hu
          simp [ht]
  | proceed t => exact change_proceed s t
  | published t result => exact change_published s t result
  | expire t => exact change_expire s t
  | drop t => exact change_drop s t
  | advance ms => exact .rests (s.now + ms) (by simp) (by simp)

end State

end AmqpDelivery.Rendezvous
