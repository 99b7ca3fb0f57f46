import AmqpDelivery.Rendezvous.Basic

/-!
# Histories

A run of a rendezvous leaves a history: which values went into which slots, which task took them
out, which slots were made for which ids, and how tasks ended. The history of a run is read off its
states and steps; it does not influence them.
-/

namespace AmqpDelivery.Rendezvous

variable {α : Type}

/-- Something that a step did. -/
inductive Note (α : Type) where
  /-- A task found or made the slot of an id. -/
  | located (t : TaskId) (id : UInt64) (slot : SlotId)
  /-- A task put a value into a slot. -/
  | stored (t : TaskId) (slot : SlotId) (value : α)
  /-- A task took a value out of a slot. -/
  | taken (t : TaskId) (slot : SlotId) (value : α)
  /-- A task ended. -/
  | ended (t : TaskId) (outcome : Outcome α)

namespace State

/-- The note on a task that puts its value in. -/
def storing? (s : State α) (t : TaskId) : Option (Note α) :=
  match s.tasks t with
  | some (.storing slot value) =>
      match (s.slots slot).offer value with
      | .ok _ => some (.stored t slot value)
      | .error _ => none
  | _ => none

/-- The note on a task that takes a value out. -/
def taking? (s : State α) (t : TaskId) : Option (Note α) :=
  match s.tasks t with
  | some (.checking w) =>
      match (s.slots w.slot).take? with
      | some (.ok value, _) => some (.taken t w.slot value)
      | _ => none
  | _ => none

/-- The note on a task that finds or makes the slot of an id. -/
def locating? (s : State α) (t : TaskId) : Option (Note α) :=
  match s.tasks t with
  | some (.ready (.get id create)) => (s.get id create).2.map (.located t id ·)
  | some (.ready (.request id _)) => (s.get id true).2.map (.located t id ·)
  | some (.ready (.push id _)) | some (.ready (.route (some id) _))
  | some (.ready (.wait id _)) | some (.seeking id _) =>
      (s.get id false).2.map (.located t id ·)
  | _ => none

/-- The note on a task that ends in the step from `s` to `next`. -/
def ending? (s next : State α) (t : TaskId) : Option (Note α) :=
  match s.outcome? t, next.outcome? t with
  | none, some outcome => some (.ended t outcome)
  | _, _ => none

/-- The notes on one step. -/
def notes (s : State α) : Event α → List (Note α)
  | .proceed t =>
      (s.locating? t).toList ++ (s.storing? t).toList ++ (s.taking? t).toList
        ++ (s.ending? (s.step (.proceed t)) t).toList
  | _ => []

/-- The history of a run from `s`. -/
def history (s : State α) : List (Event α) → List (Note α)
  | [] => []
  | e :: rest => s.notes e ++ history (s.step e) rest

theorem history_append (s : State α) (es fs : List (Event α)) :
    s.history (es ++ fs) = s.history es ++ (s.run es).history fs := by
  induction es generalizing s with
  | nil => simp [history, run]
  | cons e es ih => simp [history, run, ih]

end State

/-- The values that went into a slot, in order. -/
def storedIn (slot : SlotId) (notes : List (Note α)) : List α :=
  notes.filterMap fun
    | .stored _ s value => if s = slot then some value else none
    | _ => none

/-- The values that came out of a slot, in order. -/
def takenFrom (slot : SlotId) (notes : List (Note α)) : List α :=
  notes.filterMap fun
    | .taken _ s value => if s = slot then some value else none
    | _ => none

end AmqpDelivery.Rendezvous
