import Mathlib.Data.List.Pairwise
import AmqpDelivery.Rendezvous.History
import AmqpDelivery.Rendezvous.Requests

/-!
# What a connection did for its requests

The history of a connection tells which tasks took which numbers, which replies arrived, and what
happened at the slots. `Answered` says of such a history that a request was answered by a reply.
-/

namespace AmqpDelivery.Rendezvous

variable {α : Type}

/-- Something that a step on a connection did. -/
inductive LineNote (α : Type) where
  /-- A task set out to make the request with this number. -/
  | requested (t : TaskId) (id : UInt64)
  /-- A reply with this id, if its id is a number, arrived; a task was begun to hand it over. -/
  | arrived (t : TaskId) (id : Option UInt64) (value : α)
  /-- Something happened at the rendezvous. -/
  | desk (note : Note α)

/-- The number that a task took. -/
def LineNote.number? : LineNote α → Option UInt64
  | .requested _ id => some id
  | _ => none

/-- The task that was begun. -/
def LineNote.begun? : LineNote α → Option TaskId
  | .requested t _ | .arrived t _ _ => some t
  | .desk _ => none

namespace Line

/-- The notes on one step. -/
def notes (l : Line α) : LineEvent α → List (LineNote α)
  | .call t _ =>
      match l.desk.tasks t, l.live with
      | none, true => [.requested t l.nextId]
      | _, _ => []
  | .reply t properties value =>
      match l.desk.tasks t with
      | none => [.arrived t (correlationId? properties) value]
      | some _ => []
  | .within (.spawn _ _) => []
  | .within e => (l.desk.notes e).map .desk
  | .lose | .closeAll _ => []

/-- The history of a run from `l`. -/
def history (l : Line α) : List (LineEvent α) → List (LineNote α)
  | [] => []
  | e :: rest => l.notes e ++ history (l.step e) rest

/-- The line after a list of steps. -/
def run (l : Line α) (events : List (LineEvent α)) : Line α := events.foldl step l

theorem run_append (l : Line α) (es fs : List (LineEvent α)) :
    l.run (es ++ fs) = (l.run es).run fs :=
  List.foldl_append

theorem history_append (l : Line α) (es fs : List (LineEvent α)) :
    l.history (es ++ fs) = l.history es ++ (l.run es).history fs := by
  induction es generalizing l with
  | nil => rfl
  | cons e es ih =>
      have hrun : l.run (e :: es) = (l.step e).run es := rfl
      rw [List.cons_append, history, history, ih, hrun, List.append_assoc]

end Line

/-- The numbers that were taken, in order. -/
def numbersOf (h : List (LineNote α)) : List UInt64 := h.filterMap LineNote.number?

/-- Fewer numbers were taken than there are. -/
def Few (h : List (LineNote α)) : Prop := (numbersOf h).length < UInt64.size

/-- The replies that went into a slot, in order, each with the task that handed it over. -/
def acceptedAt (slot : SlotId) (h : List (LineNote α)) : List (TaskId × α) :=
  h.filterMap fun
    | .desk (.stored t s value) => if s = slot then some (t, value) else none
    | _ => none

/-- The tasks that found or made a slot, in order, each with the id under which it did. -/
def locatedAt (slot : SlotId) (h : List (LineNote α)) : List (TaskId × UInt64) :=
  h.filterMap fun
    | .desk (.located t id s) => if s = slot then some (t, id) else none
    | _ => none

/-- The request `t` took the number `id` and made the slot: it was the first to come to it. -/
structure Opened (h : List (LineNote α)) (t : TaskId) (id : UInt64) (slot : SlotId) : Prop where
  requested : .requested t id ∈ h
  first : (locatedAt slot h).head? = some (t, id)

/-- A reply with the number `id` arrived, and then its task `r` found the slot of that number. -/
def Aimed (h : List (LineNote α)) (r : TaskId) (id : UInt64) (slot : SlotId) (value : α) : Prop :=
  [.arrived r (some id) value, .desk (.located r id slot)].Sublist h

/-- The task `r` came to the slot of the request `t` with a reply, and then more steps followed. -/
structure Reached (h : List (LineNote α)) (t : TaskId) (id : UInt64) (slot : SlotId) (r : TaskId)
    (value : α) (steps : List (Note α)) : Prop where
  opened : Opened h t id slot
  aimed : Aimed h r id slot value
  order : (([Note.located t id slot, .located r id slot] ++ steps).map LineNote.desk).Sublist h

/-- The request `t` with the number `id` was answered by the reply of the task `r`. The slot was made,
the reply's task found it and put the reply in, and the request took it out, in this order; no other
reply was accepted at the slot before. -/
structure Answered (h : List (LineNote α)) (t : TaskId) (id : UInt64) (slot : SlotId) (r : TaskId)
    (value : α) : Prop where
  reached : Reached h t id slot r value [.stored r slot value, .taken t slot value]
  first : (acceptedAt slot h).head? = some (r, value)

section Append

variable {h : List (LineNote α)} {t r : TaskId} {id : UInt64} {slot : SlotId} {value : α}

theorem numbersOf_append (h k : List (LineNote α)) :
    numbersOf (h ++ k) = numbersOf h ++ numbersOf k := by
  simp [numbersOf]

/-- No number is taken at the rendezvous. -/
theorem numbersOf_desk (notes : List (Note α)) : numbersOf (notes.map LineNote.desk) = [] := by
  rw [numbersOf, List.filterMap_map, List.filterMap_eq_nil_iff]
  intro n hn
  rfl

theorem Few.of_append {k : List (LineNote α)} (hfew : Few (h ++ k)) : Few h := by
  unfold Few at *
  rw [numbersOf_append, List.length_append] at hfew
  omega

theorem acceptedAt_append (slot : SlotId) (h k : List (LineNote α)) :
    acceptedAt slot (h ++ k) = acceptedAt slot h ++ acceptedAt slot k := by
  simp [acceptedAt]

theorem locatedAt_append (slot : SlotId) (h k : List (LineNote α)) :
    locatedAt slot (h ++ k) = locatedAt slot h ++ locatedAt slot k := by
  simp [locatedAt]

theorem mem_locatedAt : (t, id) ∈ locatedAt slot h ↔ .desk (.located t id slot) ∈ h := by
  unfold locatedAt
  rw [List.mem_filterMap]
  constructor
  · rintro ⟨n, hn, hsome⟩
    split at hsome
    · split at hsome
      · cases hsome
        subst slot
        exact hn
      · cases hsome
    · cases hsome
  · intro hn
    exact ⟨_, hn, by simp⟩

/-- Two notes that tell the same of something told at most once are one. -/
theorem eq_of_nodup_filterMap {β γ : Type} {l : List β} {f : β → Option γ} {a b : β} {c : γ}
    (hl : (l.filterMap f).Nodup) (ha : a ∈ l) (hb : b ∈ l) (hfa : f a = some c)
    (hfb : f b = some c) : a = b := by
  by_contra hne
  -- two notes at different places tell different things
  have hpair := List.pairwise_filterMap.mp hl
  have : Std.Symm fun x y => ∀ u, f x = some u → ∀ v, f y = some v → u ≠ v :=
    ⟨fun x y hxy u hu v hv => (hxy v hv u hu).symm⟩
  exact hpair.forall ha hb hne c hfa c hfb rfl

/-- A number is taken once. -/
theorem requested_unique {u : TaskId} (hids : (numbersOf h).Nodup) (ht : .requested t id ∈ h)
    (hu : .requested u id ∈ h) : u = t := by
  have heq : (.requested u id : LineNote α) = .requested t id :=
    eq_of_nodup_filterMap hids hu ht rfl rfl
  cases heq
  rfl

theorem Opened.append (ho : Opened h t id slot) (k : List (LineNote α)) :
    Opened (h ++ k) t id slot where
  requested := List.mem_append_left k ho.requested
  first := by rw [locatedAt_append, List.head?_append, ho.first, Option.some_or]

theorem Opened.located (ho : Opened h t id slot) : .desk (.located t id slot) ∈ h :=
  mem_locatedAt.mp (List.mem_of_head? ho.first)

/-- A slot is made once, by one request and for one number. -/
theorem Opened.unique {u : TaskId} {i : UInt64} (ho : Opened h t id slot)
    (hu : Opened h u i slot) : u = t ∧ i = id := by
  have heq : some (u, i) = some (t, id) := hu.first.symm.trans ho.first
  cases heq
  exact ⟨rfl, rfl⟩

theorem Aimed.append (ha : Aimed h r id slot value) (k : List (LineNote α)) :
    Aimed (h ++ k) r id slot value :=
  ha.trans (List.sublist_append_left h k)

theorem Reached.append {steps : List (Note α)} (hr : Reached h t id slot r value steps)
    (k : List (LineNote α)) : Reached (h ++ k) t id slot r value steps where
  opened := hr.opened.append k
  aimed := hr.aimed.append k
  order := hr.order.trans (List.sublist_append_left h k)

/-- A further step of the way. -/
theorem Reached.next {steps : List (Note α)} (hr : Reached h t id slot r value steps)
    (n : Note α) : Reached (h ++ [.desk n]) t id slot r value (steps ++ [n]) where
  opened := hr.opened.append _
  aimed := hr.aimed.append _
  order := by
    have hlast : ([.desk n] : List (LineNote α)).Sublist [.desk n] := List.Sublist.refl _
    simpa using hr.order.append hlast

theorem Answered.append (ha : Answered h t id slot r value) (k : List (LineNote α)) :
    Answered (h ++ k) t id slot r value where
  reached := ha.reached.append k
  first := by rw [acceptedAt_append, List.head?_append, ha.first, Option.some_or]

end Append

end AmqpDelivery.Rendezvous
