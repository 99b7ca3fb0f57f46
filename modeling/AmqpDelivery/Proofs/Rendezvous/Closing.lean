import AmqpDelivery.Proofs.Rendezvous.Closed
import AmqpDelivery.Proofs.Rendezvous.Wakeup

/-!
# The end of everything resolves the requests

A call that closes everything empties the file of ids at once, and then closes the slots one by one.
Another one that comes meanwhile finds nothing to close and returns before it. From then on no
request that is new publishes, but one that sleeps may have to wait until its slot is closed
(`State.run_closing`).
Once no task is at it any more (`State.Down`), every request that has not returned is about to publish
or can go on, and it falls towards its end: each of its own sections takes it nearer (`Act.falls`).
The result that it comes to is settled by then (`Stage.fate`), unless its publication is still to be
answered.
-/

namespace AmqpDelivery.Rendezvous

variable {α : Type}

/-- The task has a slot to close, or waiters to wake at a slot that it has closed. -/
def Stage.Closes : Stage α → Prop
  | .shutting (_ :: _) | .rousing _ _ => True
  | _ => False

/-- The task will close the slot, or it has closed it and will wake those who wait there. -/
def Stage.Reaches (p : SlotId) (x : Stage α) : Prop :=
  x.ToShut p ∨ ∃ rest, x = .rousing p rest

/-- Everything is closed, and no task is still at it. -/
structure State.Down (s : State α) : Prop where
  closed : s.closed = true
  settled : ∀ t x, s.tasks t = some x → ¬ x.Closes

/-- The result that a request comes to once everything is closed, if its publication does not fail
after that. -/
def Stage.fate : Stage α → Except Failure α
  | .overdue _ _ => .error .timeout
  | .leaving _ result | .finished (.received result) => result
  | _ => .error .closed

/-- How many sections a request that does not publish still passes once everything is closed. -/
def Stage.left : Stage α → Nat
  | .ready _ | .leaving _ _ => 1
  | .seeking _ _ | .checking _ | .overdue _ _ => 2
  | .listening _ => 3
  | .parked _ => 4
  | _ => 0

/-- The publication of the request is under way. -/
def Stage.Publishes : Stage α → Prop
  | .publishing _ _ => True
  | _ => False

/-- The task passes a section. -/
def Event.goesOn (t : TaskId) : Event α → Bool
  | .proceed u => u = t
  | _ => false

/-- In the run the publication of the request `t` was answered with the failure. -/
def PublishFailed (t : TaskId) (failure : Failure) (events : List (Event α)) : Prop :=
  ∃ before id ms, before ++ [.published t (.error failure)] <+: events ∧
    (State.empty.run before).tasks t = some (.publishing id ms)

/-- In the run the timer of the task `t` fired while it slept. -/
def TimedOut (t : TaskId) (events : List (Event α)) : Prop :=
  ∃ before w id, before ++ [.expire t] <+: events ∧
    (State.empty.run before).tasks t = some (.parked w) ∧
    (State.empty.run (before ++ [.expire t])).tasks t = some (.overdue id w.caller)

/-- What a request may return that has not taken its reply by the end of the run `before`: that
everything is closed, that its publication failed in the run `events`, or that its time had run out
by then. -/
def Excused (t : TaskId) (before events : List (Event α)) (result : Except Failure α) : Prop :=
  result = .error .closed ∨ (∃ failure, result = .error failure ∧ PublishFailed t failure events) ∨
    result = .error .timeout ∧ TimedOut t before

section Acts

variable {s next : State α} {p : SlotId} {e : Event α} {t : TaskId} {x y : Stage α}
  {notes : List (Note α)} {call : Call α} {id : UInt64} {ms : Nat}

theorem Stage.ToShut.closes (hx : x.ToShut p) : x.Closes := by
  cases x with
  | shutting slots =>
      cases slots with
      | nil => cases hx
      | cons q rest => trivial
  | rousing q rest => trivial
  | _ => exact hx.elim

theorem Stage.Reaches.closes (hx : x.Reaches p) : x.Closes := by
  rcases hx with hshut | ⟨rest, rfl⟩
  · exact hshut.closes
  · trivial

/-- A task that is closing slots is never blocked. -/
theorem Stage.Closes.canProceed (hx : x.Closes) (ht : s.tasks t = some x) :
    s.canProceed t = true := by
  cases x <;> first | exact hx.elim | simp [State.canProceed, ht]

theorem Caller.not_closes (caller : Caller) (result : Except Failure α) :
    ¬ (caller.resolved result).Closes := by
  cases caller <;> exact not_false

/-- A task comes to close something when it finds something filed. -/
theorem Act.closes (h : Act s e t x y next notes) (hcall : Event.OnDesk (.spawn t call))
    (hx : call.Stands x) (hy : y.Closes) : x.Closes ∨ s.index ≠ [] := by
  cases h with
  | pass h =>
      cases h with
      | slotClose q he => cases hx; exact hcall.elim
      | _ => exact hy.elim
  | hit he hclosed hfind h => cases h <;> exact hy.elim
  | miss he hfind h => cases h <;> exact hy.elim
  | opens he hclosed hmissing h => cases h <;> exact hy.elim
  | makes he => exact hy.elim
  | removes he h =>
      cases h with
      | close => cases hx; exact hcall.elim
      | overdue caller => exact absurd hy (caller.not_closes _)
      | _ => exact hy.elim
  | clears he =>
      right
      intro hindex
      rw [hindex] at hy
      exact hy
  | turns h =>
      cases h with
      | shut he => exact Or.inl trivial
      | rouse he => exact Or.inl trivial
      | take he hw hclosed hvalue => exact absurd hy (Caller.not_closes _ _)
      | late he hw hclosed => exact absurd hy (Caller.not_closes _ _)
      | _ => exact hy.elim

/-- A request at the end of everything: its publication is answered, or it passes a section and is
nearer to the result that awaits it. -/
theorem Act.falls (hclosed : s.closed = true)
    (hshut : ∀ p, x.WaitsFor id p → (s.slots p).closed = true)
    (hawake : ∀ w, x = .parked w → (s.slots w.slot).hasWoken t = true) (he : e.OnDesk)
    (hx : (Call.request id ms).Stands x) (h : Act s e t x y next notes) :
    ¬ y.Publishes ∧
      ((x.Publishes ∧ (y.fate = .error .closed ∨
          ∃ failure, e = .published t (.error failure) ∧ y.fate = .error failure)) ∨
        e = .proceed t ∧ ¬ x.Publishes ∧ y.left < x.left ∧ y.fate = x.fate) := by
  have hopen : s.closed ≠ false := by simp [hclosed]
  cases h with
  | pass h =>
      cases h with
      | published own ms u he' => exact ⟨not_false, Or.inl ⟨trivial, Or.inl rfl⟩⟩
      | unpublished own ms f he' =>
          exact ⟨not_false, Or.inl ⟨trivial, Or.inr ⟨f, he', rfl⟩⟩⟩
      | unbegun other he' => exact absurd he' he.not_drop
      | abandoned own ms he' => exact absurd he' he.not_drop
      | _ => cases hx
  | hit he' hfalse hfind h => exact absurd hfalse hopen
  | miss he' hfind h =>
      cases h with
      | request ms hc => exact ⟨not_false, Or.inr ⟨he', not_false, Nat.zero_lt_one, rfl⟩⟩
      | seek ms => exact ⟨not_false, Or.inr ⟨he', not_false, Nat.one_lt_two, rfl⟩⟩
      | _ => cases hx
  | opens he' hfalse hfind h => exact absurd hfalse hopen
  | makes he' => cases hx
  | removes he' h =>
      cases h with
      | overdue caller =>
          cases hx
          exact ⟨not_false, Or.inr ⟨he', not_false, Nat.one_lt_two, rfl⟩⟩
      | leave result => exact ⟨not_false, Or.inr ⟨he', not_false, Nat.zero_lt_one, rfl⟩⟩
      | _ => cases hx
  | clears he' => cases hx
  | turns h =>
      cases h with
      | register he' hw => exact ⟨not_false, Or.inr ⟨he', not_false, Nat.lt_succ_self 2, rfl⟩⟩
      | take he' hw hfalse hvalue => cases hx with
        | checking hcaller =>
            rw [hshut _ ⟨hcaller, hw⟩] at hfalse
            cases hfalse
      | late he' hw hc => cases hx with
        | checking hcaller =>
            rw [hcaller]
            exact ⟨not_false, Or.inr ⟨he', not_false, Nat.one_lt_two, rfl⟩⟩
      | park he' hw hfalse hvalue => cases hx with
        | checking hcaller =>
            rw [hshut _ ⟨hcaller, hw⟩] at hfalse
            cases hfalse
      | wake he' hw hwoken =>
          exact ⟨not_false, Or.inr ⟨he', not_false, Nat.lt_succ_self 3, rfl⟩⟩
      | expire he' hw hid hasleep =>
          rw [← hw, hawake _ rfl] at hasleep
          cases hasleep
      | drop he' hw => exact absurd he' he.not_drop
      | _ => cases hx

/-- A request goes on by itself to the result that it comes to, or it takes a value, or its
publication fails, or its time runs out. -/
theorem Act.fate (h : Act s e t x y next notes) (he : e.OnDesk)
    (hx : (Call.request id ms).Stands x) :
    y.fate = x.fate ∨ (∃ value, y.Brings (.ok value)) ∨
      (∃ failure own more, e = .published t (.error failure) ∧ x = .publishing own more ∧
        y.Brings (.error failure)) ∨
      ∃ w own, e = .expire t ∧ x = .parked w ∧ y = .overdue own w.caller := by
  cases h with
  | pass h =>
      cases h with
      | unpublished own ms f he' => exact Or.inr (Or.inr (Or.inl ⟨f, own, ms, he', rfl, rfl⟩))
      | unbegun other he' => exact absurd he' he.not_drop
      | abandoned own ms he' => exact absurd he' he.not_drop
      | published own ms u he' => exact Or.inl rfl
      | _ => cases hx
  | hit he' hc hfind h =>
      cases h with
      | request ms => exact Or.inl rfl
      | seek ms => exact Or.inl rfl
      | _ => cases hx
  | miss he' hfind h =>
      cases h with
      | request ms hc => exact Or.inl rfl
      | seek ms => exact Or.inl rfl
      | _ => cases hx
  | opens he' hc hfind h =>
      cases h with
      | request ms => exact Or.inl rfl
      | get => cases hx
  | makes he' => cases hx
  | removes he' h =>
      cases h with
      | overdue caller => cases hx; exact Or.inl rfl
      | leave result => exact Or.inl rfl
      | _ => cases hx
  | clears he' => cases hx
  | turns h =>
      cases h with
      | @take w value he' hw hc hvalue =>
          exact Or.inr (Or.inl ⟨value, w.caller.brings_resolved (.ok value)⟩)
      | late he' hw hc => cases hx with
        | checking hcaller => rw [hcaller]; exact Or.inl rfl
      | @expire w own he' hw hid hasleep =>
          exact Or.inr (Or.inr (Or.inr ⟨w, own, he', rfl, rfl⟩))
      | drop he' hw => exact absurd he' he.not_drop
      | register he' hw => exact Or.inl rfl
      | park he' hw hc hvalue => exact Or.inl rfl
      | wake he' hw hwoken => exact Or.inl rfl
      | _ => cases hx

theorem Stage.fate_of_brings {result : Except Failure α} (hx : x.Brings result) :
    x.fate = result := by
  unfold Brings at hx
  split at hx
  · exact hx
  · exact hx
  · exact hx.elim

end Acts

/-! ## Why a request returns what it returns -/

section Reasons

variable {t : TaskId} {failure : Failure} {events es fs : List (Event α)} {id : UInt64} {ms : Nat}

theorem PublishFailed.append (h : PublishFailed t failure es) (fs : List (Event α)) :
    PublishFailed t failure (es ++ fs) := by
  obtain ⟨before, id, ms, hprefix, ht⟩ := h
  exact ⟨before, id, ms, hprefix.trans (List.prefix_append es fs), ht⟩

theorem TimedOut.append (h : TimedOut t es) (fs : List (Event α)) : TimedOut t (es ++ fs) := by
  obtain ⟨before, w, id, hprefix, ht, hnext⟩ := h
  exact ⟨before, w, id, hprefix.trans (List.prefix_append es fs), ht, hnext⟩

theorem Excused.mono {before : List (Event α)} {result : Except Failure α}
    (h : Excused t es events result) (hes : es <+: before) (hevents : events <+: fs) :
    Excused t before fs result := by
  obtain ⟨more, rfl⟩ := hes
  obtain ⟨rest, rfl⟩ := hevents
  rcases h with hclosed | ⟨f, hf, hfailed⟩ | ⟨hf, htime⟩
  · exact Or.inl hclosed
  · exact Or.inr (Or.inl ⟨f, hf, hfailed.append rest⟩)
  · exact Or.inr (Or.inr ⟨hf, htime.append more⟩)

/-- A request that has not taken a reply has a reason for what it returns. -/
theorem State.run_excused (hdesk : ∀ e ∈ events, e.OnDesk) {x : Stage α}
    (hcall : callOf t events = some (.request id ms))
    (ht : (State.empty.run events).tasks t = some x) :
    (∃ value, x.Brings (.ok value)) ∨ Excused t events events x.fate := by
  induction events using List.reverseRecOn generalizing x with
  | nil => cases ht
  | append_singleton events e ih =>
      have hbefore : ∀ d ∈ events, d.OnDesk := fun d hd => hdesk d (List.mem_append_left _ hd)
      have hgrow : events <+: events ++ [e] := List.prefix_append events [e]
      rcases run_last hbefore hcall ht with rfl | ⟨z, hold, hasked, hz, rfl | hact⟩
      · exact Or.inr (Or.inl rfl)
      · exact (ih hbefore hasked hold).imp_right fun h => h.mono hgrow hgrow
      · rcases hact.fate (hdesk e (by simp)) hz with
          hsame | htaken | ⟨f, own, more, rfl, rfl, hf⟩ | ⟨w, own, rfl, rfl, rfl⟩
        · rcases ih hbefore hasked hold with ⟨value, htaken⟩ | hexcused
          · exact Or.inl ⟨value, hact.brings htaken⟩
          · rw [hsame]
            exact Or.inr (hexcused.mono hgrow hgrow)
        · exact Or.inl htaken
        · rw [Stage.fate_of_brings hf]
          exact Or.inr (Or.inr (Or.inl ⟨f, rfl, events, own, more, List.prefix_rfl, hold⟩))
        · exact Or.inr (Or.inr (Or.inr ⟨rfl, events, w, own, List.prefix_rfl, hold, ht⟩))

/-- A request whose publication failed comes to that failure. -/
theorem State.run_failed (h : PublishFailed t failure events) :
    ∃ x, (State.empty.run events).tasks t = some x ∧ x.Brings (.error failure) := by
  obtain ⟨before, id, ms, ⟨rest, rfl⟩, ht⟩ := h
  have hstart : (State.empty.run (before ++ [.published t (.error failure)])).tasks t =
      some (.leaving id (.error failure)) := by
    rw [run_concat]
    simp [step, act, ht, published, goto]
  induction rest using List.reverseRecOn with
  | nil =>
      rw [List.append_nil]
      exact ⟨_, hstart, rfl⟩
  | append_singleton rest e ih =>
      obtain ⟨x, hx, hbrings⟩ := ih
      rw [← List.append_assoc, run_concat]
      rcases step_task hx e with hstay | ⟨y, -, hy, hact⟩
      · exact ⟨x, hstay, hbrings⟩
      · exact ⟨y, hy, hact.brings hbrings⟩

end Reasons

/-! ## While slots are still being closed -/

section Closing

variable {events later : List (Event α)} {t : TaskId} {x : Stage α} {id : UInt64} {ms : Nat}

/-- Once everything is closed, a request waits at a slot that is closed or will be. -/
theorem State.run_shut (hdesk : ∀ e ∈ events, e.OnDesk) (hids : DistinctIds events)
    (hclosed : (State.empty.run events).closed = true) {p : SlotId}
    (ht : (State.empty.run events).tasks t = some x) (hx : x.WaitsFor id p) :
    ((State.empty.run events).slots p).closed = true ∨
      ∃ u z, (State.empty.run events).tasks u = some z ∧ z.ToShut p := by
  have hd := State.run_desk hdesk hids
  rcases hd.waiting t x id p ht hx with hfind | ⟨-, hshut⟩
  · rw [State.find?, hd.emptied hclosed] at hfind
    cases hfind
  · exact hshut

/-- Once everything is closed, a request that sleeps has been woken or will be. -/
theorem State.run_roused (hdesk : ∀ e ∈ events, e.OnDesk) (hids : DistinctIds events)
    (hclosed : (State.empty.run events).closed = true) {w : Wait}
    (ht : (State.empty.run events).tasks t = some (.parked w)) (hcaller : w.caller = .request id) :
    ((State.empty.run events).slots w.slot).hasWoken t = true ∨
      ∃ u z, (State.empty.run events).tasks u = some z ∧ z.Reaches w.slot := by
  have hreach := State.run_reachable hdesk
  have hmade := hreach.sound.held t (.parked w) w.slot ht rfl
  rcases State.run_shut hdesk hids hclosed ht ⟨hcaller, rfl⟩ with hshut | ⟨u, z, hu, hz⟩
  · rcases (hreach.attended w.slot hmade).closed hshut with ⟨u, rest, hu⟩ | hall
    · exact Or.inr ⟨u, _, hu, Or.inr ⟨rest, rfl⟩⟩
    · exact Or.inl (hall t w ht rfl)
  · exact Or.inr ⟨u, z, hu, Or.inl hz⟩

/-- Once everything is closed, a request that is blocked sleeps until a task that is still closing
comes to its slot. -/
theorem State.run_closing (hdesk : ∀ e ∈ events, e.OnDesk) (hids : DistinctIds events)
    (hclosed : (State.empty.run events).closed = true)
    (ht : (State.empty.run events).tasks t = some x) (hx : (Call.request id ms).Stands x) :
    (State.empty.run events).outcome? t ≠ none ∨ x = .publishing id ms ∨
      (State.empty.run events).canProceed t = true ∨
      ∃ w u z, x = .parked w ∧ (State.empty.run events).tasks u = some z ∧ z.Reaches w.slot := by
  cases hx with
  | publishing id ms => exact Or.inr (Or.inl rfl)
  | returned id ms result => simp [State.outcome?, ht]
  | @parked _ _ w hcaller =>
      right
      right
      rcases State.run_roused hdesk hids hclosed ht hcaller with hwoken | ⟨u, z, hu, hz⟩
      · exact Or.inl (by simpa [State.canProceed, ht] using hwoken)
      · exact Or.inr ⟨w, u, z, rfl, hu, hz⟩
  | _ => simp [State.canProceed, ht]

end Closing

/-! ## The run after the end of everything -/

/-- A run by whose end everything is closed. -/
structure Fallen (events : List (Event α)) : Prop where
  desk : ∀ e ∈ events, e.OnDesk
  ids : DistinctIds events
  down : (State.empty.run events).Down

section Fallen

variable {events later : List (Event α)} {t : TaskId} {x : Stage α} {id : UInt64} {ms : Nat}
  {e : Event α}

theorem Fallen.not_reached (h : Fallen events) {p : SlotId} {u : TaskId}
    (hu : (State.empty.run events).tasks u = some x) : ¬ x.Reaches p :=
  fun hx => h.down.settled u x hu hx.closes

/-- A request that still waits does so at a closed slot. -/
theorem Fallen.shut (h : Fallen events) {p : SlotId}
    (ht : (State.empty.run events).tasks t = some x) (hx : x.WaitsFor id p) :
    ((State.empty.run events).slots p).closed = true := by
  rcases State.run_shut h.desk h.ids h.down.closed ht hx with hshut | ⟨u, z, hu, hz⟩
  · exact hshut
  · exact absurd (Or.inl hz) (h.not_reached hu)

/-- A request that still sleeps has been woken. -/
theorem Fallen.awake (h : Fallen events) {w : Wait}
    (ht : (State.empty.run events).tasks t = some (.parked w)) (hcaller : w.caller = .request id) :
    ((State.empty.run events).slots w.slot).hasWoken t = true := by
  rcases State.run_roused h.desk h.ids h.down.closed ht hcaller with hwoken | ⟨u, z, hu, hz⟩
  · exact hwoken
  · exact absurd hz (h.not_reached hu)

/-- No request is blocked. -/
theorem Fallen.canProceed (h : Fallen events)
    (ht : (State.empty.run events).tasks t = some x) (hx : (Call.request id ms).Stands x) :
    (State.empty.run events).outcome? t ≠ none ∨ x = .publishing id ms ∨
      (State.empty.run events).canProceed t = true := by
  rcases State.run_closing h.desk h.ids h.down.closed ht hx with
    hreturned | hpublishes | hcan | ⟨w, u, z, -, hu, hz⟩
  · exact Or.inl hreturned
  · exact Or.inr (Or.inl hpublishes)
  · exact Or.inr (Or.inr hcan)
  · exact absurd hz (h.not_reached hu)

theorem Fallen.concat (h : Fallen events) (he : e.OnDesk) (hids : DistinctIds (events ++ [e])) :
    Fallen (events ++ [e]) := by
  have hd := State.run_desk h.desk h.ids
  refine ⟨?_, hids, ?_⟩
  · intro d hd
    rcases List.mem_append.mp hd with hold | hnew
    · exact h.desk d hold
    · rw [List.mem_singleton.mp hnew]
      exact he
  · rw [State.run_concat]
    have hchange := (State.empty.run events).step_change e
    generalize (State.empty.run events).step e = next, (State.empty.run events).notes e = notes
      at hchange ⊢
    cases hchange with
    | rests now hblocked hbegun => exact ⟨h.down.closed, h.down.settled⟩
    | @begins u call hspawn hu =>
        refine ⟨h.down.closed, ?_⟩
        intro v z hv
        by_cases hvu : v = u
        · subst hvu
          obtain rfl : .ready call = z := by simpa [State.goto] using hv
          exact not_false
        · exact h.down.settled v z (by simpa [State.goto, hvu] using hv)
    | @acts u z y next notes hown hu hact =>
        refine ⟨hact.stays_closed h.down.closed, ?_⟩
        obtain ⟨call, -, hspawn, hz⟩ := State.run_stands h.desk hu
        intro v k hv hk
        rw [hact.tasks] at hv
        by_cases hvu : v = u
        · subst hvu
          obtain rfl : y = k := by simpa using hv
          rcases hact.closes hspawn hz hk with hold | hfiled
          · exact h.down.settled v z hu hold
          · exact hfiled (hd.emptied h.down.closed)
        · rw [assign_of_ne hvu] at hv
          exact h.down.settled v k hv hk

theorem Fallen.append (h : Fallen events) (hlater : ∀ e ∈ later, e.OnDesk)
    (hids : DistinctIds (events ++ later)) : Fallen (events ++ later) := by
  induction later using List.reverseRecOn with
  | nil =>
      rw [List.append_nil]
      exact h
  | append_singleton later e ih =>
      rw [← List.append_assoc] at hids ⊢
      have hfallen := ih (fun d hd => hlater d (List.mem_append_left _ hd)) hids.of_append
      exact hfallen.concat (hlater e (by simp)) hids

/-- What every event on the desk keeps, once everything is closed, holds ever after. -/
theorem Fallen.induct {P : List (Event α) → Prop} (h : Fallen events)
    (hlater : ∀ e ∈ later, e.OnDesk) (hids : DistinctIds (events ++ later)) (hnil : P [])
    (hconcat : ∀ later e, Fallen (events ++ later) → e.OnDesk → P later → P (later ++ [e])) :
    P later := by
  induction later using List.reverseRecOn with
  | nil => exact hnil
  | append_singleton later e ih =>
      have hbefore : ∀ d ∈ later, d.OnDesk := fun d hd => hlater d (List.mem_append_left _ hd)
      rw [← List.append_assoc] at hids
      have hfallen := h.append hbefore hids.of_append
      exact hconcat later e hfallen (hlater e (by simp)) (ih hbefore hids.of_append)

theorem Fallen.falls {y : Stage α} {next : State α} {notes : List (Note α)} (h : Fallen events)
    (he : e.OnDesk) (ht : (State.empty.run events).tasks t = some x)
    (hx : (Call.request id ms).Stands x) (hact : Act (State.empty.run events) e t x y next notes) :
    ¬ y.Publishes ∧
      ((x.Publishes ∧ (y.fate = .error .closed ∨
          ∃ failure, e = .published t (.error failure) ∧ y.fate = .error failure)) ∨
        e = .proceed t ∧ ¬ x.Publishes ∧ y.left < x.left ∧ y.fate = x.fate) := by
  apply hact.falls h.down.closed (fun p => h.shut ht) _ he hx
  rintro w rfl
  cases hx with
  | parked hcaller => exact h.awake ht hcaller

/-- A section that a request passes takes it nearer to its end, and no event takes it away from
there or changes the result that awaits it. -/
theorem Fallen.nearer (h : Fallen events) (he : e.OnDesk)
    (ht : (State.empty.run events).tasks t = some x) (hx : (Call.request id ms).Stands x)
    (hquiet : ¬ x.Publishes) :
    ∃ y, ((State.empty.run events).step e).tasks t = some y ∧ ¬ y.Publishes ∧ y.fate = x.fate ∧
      y.left ≤ x.left ∧ (e.goesOn t = true → y.left = 0 ∨ y.left < x.left) := by
  have hmoved : ∀ y next notes, Act (State.empty.run events) e t x y next notes →
      ¬ y.Publishes ∧ y.left < x.left ∧ y.fate = x.fate := by
    intro y next notes hact
    obtain ⟨hy, ⟨hpublishes, -⟩ | ⟨-, -, hleft, hfate⟩⟩ := h.falls he ht hx hact
    · exact absurd hpublishes hquiet
    · exact ⟨hy, hleft, hfate⟩
  rcases State.step_task ht e with hstay | ⟨y, -, hy, hact⟩
  · refine ⟨x, hstay, hquiet, rfl, Nat.le_refl _, ?_⟩
    intro hgoes
    obtain rfl : e = .proceed t := by
      cases e <;> simp_all [Event.goesOn]
    rcases h.canProceed ht hx with hreturned | hpublishes | hcan
    · left
      cases x <;> simp_all [State.outcome?, Stage.left]
    · rw [hpublishes] at hquiet
      exact absurd trivial hquiet
    · -- a task that can go on does not stay
      obtain ⟨y, hact⟩ := State.proceed_act ht hcan
      rw [State.step_proceed ht, hact.tasks, assign_self] at hstay
      obtain rfl := Option.some.inj hstay
      exact absurd (hmoved _ _ _ hact).2.1 (Nat.lt_irrefl _)
  · obtain ⟨hquiet', hleft, hfate⟩ := hmoved _ _ _ hact
    exact ⟨y, hy, hquiet', hfate, Nat.le_of_lt hleft, fun _ => Or.inr hleft⟩

/-- The same over a run, counting the sections that the request passes. -/
theorem Fallen.run (h : Fallen events) (hlater : ∀ e ∈ later, e.OnDesk)
    (hids : DistinctIds (events ++ later)) (ht : (State.empty.run events).tasks t = some x)
    (hcall : callOf t events = some (.request id ms)) (hquiet : ¬ x.Publishes) :
    ∃ y, (State.empty.run (events ++ later)).tasks t = some y ∧ ¬ y.Publishes ∧ y.fate = x.fate ∧
      (y.left = 0 ∨ y.left + later.countP (Event.goesOn t) ≤ x.left) := by
  apply h.induct hlater hids
  · rw [List.append_nil]
    exact ⟨x, ht, hquiet, rfl, Or.inr (Nat.le_refl _)⟩
  · rintro later e hfallen he ⟨y, hy, hquiet', hfate, hleft⟩
    obtain ⟨call, hcall', -, hstands⟩ := State.run_stands hfallen.desk hy
    obtain rfl := Option.some.inj (hcall'.symm.trans (callOf_append hcall later))
    obtain ⟨z, hz, hquiet'', hfate', hle, hgoes⟩ := hfallen.nearer he hy hstands hquiet'
    rw [← List.append_assoc, State.run_concat]
    refine ⟨z, hz, hquiet'', hfate'.trans hfate, ?_⟩
    rw [List.countP_append, List.countP_singleton]
    cases hgo : e.goesOn t with
    | false =>
        rw [if_neg (by simp)]
        omega
    | true =>
        rw [if_pos rfl]
        have hdone := hgoes hgo
        omega

/-- A request that had not taken its reply when everything was closed has a reason for what it
returns. -/
theorem Fallen.excused (h : Fallen events) (hlater : ∀ e ∈ later, e.OnDesk)
    (hids : DistinctIds (events ++ later)) (hcall : callOf t (events ++ later) = some (.request id ms))
    (hfirst : ∀ z value, (State.empty.run events).tasks t = some z → ¬ z.Brings (.ok value))
    (ht : (State.empty.run (events ++ later)).tasks t = some x) :
    Excused t events (events ++ later) x.fate := by
  revert x hcall
  apply h.induct hlater hids
  · intro x hcall ht
    rw [List.append_nil] at ht hcall ⊢
    rcases State.run_excused h.desk hcall ht with ⟨value, htaken⟩ | hexcused
    · exact absurd htaken (hfirst x value ht)
    · exact hexcused
  · intro later e hfallen he ih x hcall ht
    rw [← List.append_assoc] at hcall ht ⊢
    have hgrow : events ++ later <+: events ++ later ++ [e] := List.prefix_append _ _
    rcases State.run_last hfallen.desk hcall ht with rfl | ⟨z, hold, hasked, hz, rfl | hact⟩
    · exact Or.inl rfl
    · exact (ih hasked hold).mono List.prefix_rfl hgrow
    · obtain ⟨-, ⟨hpublishes, hclosed | ⟨f, rfl, hf⟩⟩ | ⟨-, -, -, hsame⟩⟩ :=
        hfallen.falls he hold hz hact
      · exact Or.inl hclosed
      · cases z with
        | publishing own more =>
            exact Or.inr (Or.inl ⟨f, hf, events ++ later, own, more, List.prefix_rfl, hold⟩)
        | _ => exact hpublishes.elim
      · rw [hsame]
        exact (ih hasked hold).mono List.prefix_rfl hgrow

end Fallen

/-! ## A call that closes everything has returned -/

/-- In the run a call that closes everything has returned, and so has every other one that set out
to. -/
def HasClosed (events : List (Event α)) : Prop :=
  (∃ t, callOf t events = some .closeAll ∧ (State.empty.run events).outcome? t ≠ none) ∧
    ∀ t, callOf t events = some .closeAll → (State.empty.run events).outcome? t ≠ none ∨
      (State.empty.run events).tasks t = some (.ready .closeAll)

/-- When all that set out to close everything have returned, no task is at it any more. -/
theorem HasClosed.down {events : List (Event α)} (hdesk : ∀ e ∈ events, e.OnDesk)
    (hclosed : HasClosed events) : (State.empty.run events).Down := by
  obtain ⟨⟨t, hcall, hdone⟩, hothers⟩ := hclosed
  obtain ⟨outcome, hout⟩ := Option.ne_none_iff_exists'.mp hdone
  refine ⟨State.run_cleared hcall hout, ?_⟩
  intro u z hu hz
  obtain ⟨call, hasked, -, hstands⟩ := State.run_stands hdesk hu
  have hcloser : call = .closeAll := by
    cases hstands with
    | shutting slots => rfl
    | rousing p rest => rfl
    | _ => exact hz.elim
  subst hcloser
  rcases hothers u hasked with hreturned | hready
  · cases z <;> simp_all [State.outcome?, Stage.Closes]
  · rw [hready] at hu
    cases hu
    exact hz

section Outcomes

variable {s : State α} {t : TaskId} {x : Stage α} {id : UInt64} {ms : Nat}

/-- A request that has returned returns the result that awaited it. -/
theorem Call.Stands.outcome {outcome : Outcome α} (hx : (Call.request id ms).Stands x)
    (ht : s.tasks t = some x) (hout : s.outcome? t = some outcome) :
    outcome = .received x.fate := by
  cases hx with
  | returned id ms result => simpa [State.outcome?, ht, Stage.fate] using hout.symm
  | _ => simp [State.outcome?, ht] at hout

/-- A request with no section left has returned, if it does not publish. -/
theorem Call.Stands.returned_of_left (hx : (Call.request id ms).Stands x) (ht : s.tasks t = some x)
    (hquiet : ¬ x.Publishes) (hleft : x.left = 0) : s.outcome? t ≠ none := by
  cases hx with
  | returned id ms result => simp [State.outcome?, ht]
  | publishing id ms => exact absurd trivial hquiet
  | _ => cases hleft

theorem Stage.left_le (x : Stage α) : x.left ≤ 4 := by
  cases x <;> simp [left]

end Outcomes

/-- On a rendezvous of requests with distinct ids, replies and calls that close everything: a request
cleans up whichever way it returns. Once everything is closed, requests that come later are refused,
and one that is under way is blocked only until its slot is closed as well; when no task is closing any
more, none is blocked, and each comes to its end. -/
theorem requests_resolved {events : List (Event α)} (hdesk : ∀ e ∈ events, e.OnDesk)
    (hids : DistinctIds events) :
    -- a request that has returned has left nothing filed
    (∀ t id ms, callOf t events = some (.request id ms) →
      (State.empty.run events).outcome? t ≠ none → (State.empty.run events).find? id = none) ∧
    ((∀ t id ms, callOf t events = some (.request id ms) →
      (State.empty.run events).outcome? t ≠ none ∨
        (State.empty.run events).tasks t = some (.ready (.request id ms))) →
      (State.empty.run events).size = 0) ∧
    -- one whose publication failed returns that failure
    (∀ t id ms failure outcome, callOf t events = some (.request id ms) →
      PublishFailed t failure events → (State.empty.run events).outcome? t = some outcome →
        outcome = .received (.error failure)) ∧
    -- a call that closes everything has done so when it returns, and when all have that were begun,
    -- no task is closing any more
    (∀ c, callOf c events = some .closeAll → (State.empty.run events).outcome? c ≠ none →
      (State.empty.run events).closed = true) ∧
    (HasClosed events → (State.empty.run events).Down) ∧
    -- once everything is closed
    (∀ before later, events = before ++ later → (State.empty.run before).closed = true →
      ∀ t id ms, callOf t events = some (.request id ms) →
        -- a request that is blocked sleeps until a task that is still closing comes to its slot, and
        -- that task can go on
        ((State.empty.run events).outcome? t ≠ none ∨
          (State.empty.run events).tasks t = some (.publishing id ms) ∨
          (State.empty.run events).canProceed t = true ∨
          ∃ w u x, (State.empty.run events).tasks t = some (.parked w) ∧
            (State.empty.run events).tasks u = some x ∧ x.Reaches w.slot ∧
            (State.empty.run events).canProceed u = true) ∧
        -- it returns a reply, or what it may
        (∀ outcome, (State.empty.run events).outcome? t = some outcome →
          ∃ result, outcome = .received result ∧
            ((∃ value, result = .ok value) ∨ Excused t events events result)) ∧
        -- if it had not started, it does not publish and is refused
        ((∀ x, (State.empty.run before).tasks t = some x → x = .ready (.request id ms)) →
          (∀ x, (State.empty.run events).tasks t = some x → ¬ x.Publishes) ∧
          ∀ outcome, (State.empty.run events).outcome? t = some outcome →
            outcome = .received (.error .closed))) ∧
    -- when no task is closing any more
    (∀ before later, events = before ++ later → (State.empty.run before).Down →
      ∀ t id ms, callOf t events = some (.request id ms) →
        -- no request is blocked: it waits for its publication or goes on
        ((State.empty.run events).outcome? t ≠ none ∨
          (State.empty.run events).tasks t = some (.publishing id ms) ∨
          (State.empty.run events).canProceed t = true) ∧
        -- it returns after four sections of its own, if it did not wait for its publication
        (∀ x, (State.empty.run before).tasks t = some x → ¬ x.Publishes →
          4 ≤ later.countP (Event.goesOn t) → (State.empty.run events).outcome? t ≠ none) ∧
        -- if it had not taken its reply, it returns what it may
        ((∀ x value, (State.empty.run before).tasks t = some x → ¬ x.Brings (.ok value)) →
          ∀ outcome, (State.empty.run events).outcome? t = some outcome →
            ∃ result, outcome = .received result ∧ Excused t before events result)) := by
  have hthere : ∀ t id ms, callOf t events = some (.request id ms) →
      ∃ x, (State.empty.run events).tasks t = some x ∧ (Call.request id ms).Stands x := by
    intro t id ms hcall
    obtain ⟨x, ht⟩ := Option.ne_none_iff_exists'.mp (State.run_asked (s := State.empty) events hcall)
    obtain ⟨call, hasked, -, hx⟩ := State.run_stands hdesk ht
    obtain rfl := Option.some.inj (hasked.symm.trans hcall)
    exact ⟨x, ht, hx⟩
  refine ⟨?_, State.run_idle hdesk hids, ?_, ?_, HasClosed.down hdesk, ?_, ?_⟩
  · intro t id ms hcall hreturned
    exact State.run_returned hdesk hids hcall hreturned
  · intro t id ms failure outcome hcall hfailed hout
    obtain ⟨x, ht, hx⟩ := hthere t id ms hcall
    obtain ⟨z, hz, hbrings⟩ := State.run_failed hfailed
    obtain rfl := Option.some.inj (ht.symm.trans hz)
    rw [hx.outcome ht hout, Stage.fate_of_brings hbrings]
  · intro c hcall hreturned
    obtain ⟨outcome, hout⟩ := Option.ne_none_iff_exists'.mp hreturned
    exact State.run_cleared hcall hout
  -- slots may still be open
  · rintro before later rfl hclosed t id ms hcall
    obtain ⟨x, ht, hx⟩ := hthere t id ms hcall
    have hstill : (State.empty.run (before ++ later)).closed = true := by
      rw [State.run_append]
      exact State.closed_run hclosed later
    refine ⟨?_, ?_, ?_⟩
    · rcases State.run_closing hdesk hids hstill ht hx with
        hreturned | rfl | hcan | ⟨w, u, z, rfl, hu, hz⟩
      · exact Or.inl hreturned
      · exact Or.inr (Or.inl ht)
      · exact Or.inr (Or.inr (Or.inl hcan))
      · exact Or.inr (Or.inr (Or.inr ⟨w, u, z, ht, hu, hz, hz.closes.canProceed hu⟩))
    · intro outcome hout
      refine ⟨x.fate, hx.outcome ht hout, ?_⟩
      rcases State.run_excused hdesk hcall ht with ⟨value, htaken⟩ | hexcused
      · exact Or.inl ⟨value, Stage.fate_of_brings htaken⟩
      · exact Or.inr hexcused
    · intro hfirst
      have hrefused := State.late_refused hclosed rfl hfirst hcall ht
      constructor
      · intro z hz
        obtain rfl := Option.some.inj (ht.symm.trans hz)
        rcases hrefused with rfl | rfl | rfl <;> exact not_false
      · intro outcome hout
        rw [hx.outcome ht hout]
        rcases hrefused with rfl | rfl | rfl <;> rfl
  -- every slot is closed
  · rintro before later rfl hdown t id ms hcall
    have hlater : ∀ e ∈ later, e.OnDesk := fun e he => hdesk e (List.mem_append_right _ he)
    have hfallen : Fallen before :=
      ⟨fun e he => hdesk e (List.mem_append_left _ he), hids.of_append, hdown⟩
    have hend := hfallen.append hlater hids
    obtain ⟨x, ht, hx⟩ := hthere t id ms hcall
    refine ⟨?_, ?_, ?_⟩
    · rcases hend.canProceed ht hx with hreturned | rfl | hcan
      · exact Or.inl hreturned
      · exact Or.inr (Or.inl ht)
      · exact Or.inr (Or.inr hcan)
    · intro z hz hquiet hfour
      have hthere' : (State.empty.run before).tasks t ≠ none := by simp [hz]
      have hasked := State.asked_before (by rfl) hthere' hcall
      obtain ⟨y, hy, hquiet', -, hleft⟩ := hfallen.run hlater hids hz hasked hquiet
      obtain rfl := Option.some.inj (ht.symm.trans hy)
      have hmost := z.left_le
      exact hx.returned_of_left ht hquiet' (by omega)
    · intro hfirst outcome hout
      exact ⟨x.fate, hx.outcome ht hout, hfallen.excused hlater hids hcall hfirst ht⟩

/-- The requests that a run asks for, each with its id. -/
def requestsOf (events : List (Event α)) : List (TaskId × UInt64) :=
  events.filterMap fun
    | .spawn t (.request id _) => some (t, id)
    | _ => none

theorem distinctIds_of_requestsOf {events : List (Event α)}
    (h : ∀ a ∈ requestsOf events, ∀ b ∈ requestsOf events, a.2 = b.2 → a.1 = b.1) :
    DistinctIds events := by
  have hmem : ∀ t id ms, callOf t events = some (.request id ms) →
      (t, id) ∈ requestsOf events := by
    intro t id ms hcall
    obtain ⟨e, he, hasks⟩ := List.exists_of_findSome?_eq_some hcall
    rw [Event.eq_spawn_of_asks hasks] at he
    exact List.mem_filterMap.mpr ⟨_, he, rfl⟩
  intro t u id ms more ht hu
  exact h (t, id) (hmem t id ms ht) (u, id) (hmem u id more hu) rfl

/-- Everything is closed while the first request sleeps with its reply in its slot, two others wait
for their publications, and the time of the fourth has run out. -/
def lostMidway : List (Event Nat) :=
  [.spawn 1 (.request 1 5000), .proceed 1, .published 1 (.ok ()), .proceed 1, .proceed 1, .proceed 1,
    .spawn 2 (.request 2 5000), .proceed 2, .spawn 3 (.request 3 5000), .proceed 3,
    .spawn 4 (.request 4 10), .proceed 4, .published 4 (.ok ()), .proceed 4, .proceed 4, .proceed 4,
    .advance 10, .expire 4,
    .spawn 6 (.route (some 1) 7), .proceed 6, .proceed 6, .proceed 6,
    .spawn 9 .closeAll, .proceed 9, .proceed 9, .proceed 9, .proceed 9, .proceed 9, .proceed 9,
    .proceed 9, .proceed 9, .proceed 9, .proceed 9]

/-- The four requests go on to their ends, and a fifth one starts. -/
def afterLoss : List (Event Nat) :=
  [.proceed 1, .proceed 1, .proceed 1, .proceed 1,
    .published 2 (.ok ()), .proceed 2, .proceed 2, .published 3 (.error .publishing), .proceed 3,
    .proceed 4, .proceed 4, .spawn 5 (.request 5 5000), .proceed 5]

theorem hasClosed_lostMidway : HasClosed lostMidway := by
  have hdone : (State.empty.run lostMidway).outcome? 9 = some .done := rfl
  refine ⟨⟨9, rfl, by simp [hdone]⟩, ?_⟩
  intro t hcall
  obtain ⟨e, he, hasks⟩ := List.exists_of_findSome?_eq_some hcall
  rw [Event.eq_spawn_of_asks hasks] at he
  obtain rfl : t = 9 := by simpa [lostMidway] using he
  left
  simp [hdone]

theorem requests_resolved_midway :
    [1, 2, 3, 4, 5].map (State.empty.run (lostMidway ++ afterLoss)).outcome? =
        [some (.received (.error .closed)), some (.received (.error .closed)),
          some (.received (.error .publishing)), some (.received (.error .timeout)),
          some (.received (.error .closed))] ∧
      (State.empty.run (lostMidway ++ afterLoss)).find? 1 = none ∧
      (State.empty.run lostMidway).Down ∧
      ∃ result, .received (.error .timeout) = (.received result : Outcome Nat) ∧
        Excused 4 lostMidway (lostMidway ++ afterLoss) result := by
  have hdesk : ∀ e ∈ lostMidway ++ afterLoss, e.OnDesk := by
    simp [lostMidway, afterLoss, Event.OnDesk]
  have hids : DistinctIds (lostMidway ++ afterLoss) := distinctIds_of_requestsOf (by decide)
  have hbefore : ∀ e ∈ lostMidway, e.OnDesk := fun e he => hdesk e (List.mem_append_left _ he)
  obtain ⟨-, -, -, -, hdown, -, -⟩ := requests_resolved hbefore hids.of_append
  obtain ⟨hgone, -, -, -, -, -, hclosed⟩ := requests_resolved hdesk hids
  have htaken : ∀ x value, (State.empty.run lostMidway).tasks 4 = some x →
      ¬ x.Brings (.ok value) := by
    rintro x value ht
    cases ht
    exact not_false
  have hreturned : (State.empty.run (lostMidway ++ afterLoss)).outcome? 1 =
      some (.received (.error .closed)) := rfl
  refine ⟨rfl, hgone 1 1 5000 rfl (by simp [hreturned]), hdown hasClosed_lostMidway, ?_⟩
  exact (hclosed lostMidway afterLoss rfl (hdown hasClosed_lostMidway) 4 4 10 rfl).2.2 htaken _ rfl

/-- A reply has found the slot of a request that sleeps. Then two tasks close everything. The first
takes the slot out of the file, the second finds nothing filed and returns. -/
def closedTwice : List (Event Nat) :=
  [.spawn 1 (.request 1 5000), .proceed 1, .published 1 (.ok ()), .proceed 1, .proceed 1, .proceed 1,
    .spawn 6 (.route (some 1) 7), .proceed 6,
    .spawn 8 .closeAll, .proceed 8, .spawn 9 .closeAll, .proceed 9, .proceed 9]

/-- The reply goes in before the slot is closed, and the request takes it. -/
def repliedStill : List (Event Nat) :=
  [.proceed 6, .proceed 6, .proceed 1, .proceed 1, .proceed 1, .proceed 1]

/-- A call that closes everything and overlaps another one may return while a request is blocked at an
open slot, where the request still takes its reply. -/
theorem closing_overtaken :
    (∀ e ∈ closedTwice ++ repliedStill, e.OnDesk) ∧ DistinctIds (closedTwice ++ repliedStill) ∧
      callOf 9 closedTwice = some .closeAll ∧
      (State.empty.run closedTwice).outcome? 9 = some .done ∧
      (State.empty.run closedTwice).tasks 1 = some (.parked ⟨.request 1, 0, some 5000⟩) ∧
      ((State.empty.run closedTwice).slots 0).closed = false ∧
      (State.empty.run closedTwice).canProceed 1 = false ∧
      (State.empty.run (closedTwice ++ repliedStill)).outcome? 1 = some (.received (.ok 7)) := by
  have hdesk : ∀ e ∈ closedTwice ++ repliedStill, e.OnDesk := by
    simp [closedTwice, repliedStill, Event.OnDesk]
  exact ⟨hdesk, distinctIds_of_requestsOf (by decide), rfl, rfl, rfl, rfl, rfl, rfl⟩

end AmqpDelivery.Rendezvous
