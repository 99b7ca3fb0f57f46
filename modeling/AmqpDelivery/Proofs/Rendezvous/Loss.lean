import AmqpDelivery.Proofs.Rendezvous.Generations

/-!
# Waits at the end of everything

Closing everything closes the slots that are filed. A wait by an id is at the slot that is filed
under the id, or the id was taken out of the file since. Whoever closes the id goes on to close its
slot, so that the wait is reached all the same; but a task that takes the id out of the file and
leaves the slot open, as a wait does whose time has run out, forsakes all others who wait there
(`Forsaken`). A wait that is not forsaken fails when everything is closed (`State.Fails`).
-/

namespace AmqpDelivery.Rendezvous

variable {α : Type}

/-- The wait of a task that is at a slot to wait there. -/
def Stage.wait? : Stage α → Option Wait
  | .listening w | .checking w | .parked w => some w
  | _ => none

/-- The task takes the id out of the file and leaves its slot open. -/
def Stage.Forgets (id : UInt64) : Stage α → Prop
  | .ready (.remove own) | .overdue own _ | .leaving own _ => own = id
  | _ => False

/-- The task waits by the id at the slot. -/
def State.WaitsAt (s : State α) (t : TaskId) (id : UInt64) (p : SlotId) : Prop :=
  ∃ x w, s.tasks t = some x ∧ x.wait? = some w ∧ w.id? = some id ∧ w.slot = p

/-- The slot of the id is filed, closed or about to be closed. -/
def State.Guards (s : State α) (id : UInt64) (p : SlotId) : Prop :=
  s.find? id = some p ∨ (s.slots p).closed = true ∨ ∃ u z, s.tasks u = some z ∧ z.ToShut p

/-- While the task `t` waited by the id at its slot, another task took the id out of the file and
left the slot open. -/
def Forsaken (t : TaskId) (id : UInt64) (p : SlotId) (events : List (Event α)) : Prop :=
  ∃ before u x, before ++ [.proceed u] <+: events ∧ u ≠ t ∧
    (State.empty.run before).tasks u = some x ∧ x.Forgets id ∧
    (State.empty.run before).find? id = some p ∧ (State.empty.run before).WaitsAt t id p

/-- Everything is closed, and so is the slot at which the task waits, if it does. If it sleeps
there, it has been woken. -/
structure State.Fails (s : State α) (t : TaskId) (x : Stage α) : Prop where
  closed : s.closed = true
  shut : ∀ w, x.wait? = some w → w.slot < s.made ∧ (s.slots w.slot).closed = true
  awake : ∀ w, x = .parked w → (s.slots w.slot).hasWoken t = true

/-! ## Where waits are -/

section Waits

variable {s next : State α} {p : SlotId} {e : Event α} {t : TaskId} {x y : Stage α} {w : Wait}
  {notes : List (Note α)} {id : UInt64} {es fs : List (Event α)}

theorem Caller.wait?_resolved (caller : Caller) (result : Except Failure α) :
    (caller.resolved result).wait? = none := by
  cases caller <;> rfl

theorem Stage.holds_of_wait (hx : x.wait? = some w) : x.Holds w.slot := by
  cases x <;> first | exact congrArg Wait.slot (Option.some.inj hx) | cases hx

theorem Stage.Forgets.not_wait (hx : x.Forgets id) : x.wait? ≠ some w := by
  cases x <;> first | exact hx.elim | exact (Option.some_ne_none w).symm

/-- A task comes to wait by an id at the slot that it finds under it. -/
theorem Act.comes (h : Act s e t x y next notes) (hy : y.wait? = some w) (hid : w.id? = some id) :
    x.wait? = some w ∨ next.find? id = some w.slot := by
  cases h with
  | pass h =>
      cases h with
      | slotPop q he =>
          cases hy
          cases hid
      | _ => cases hy
  | hit he hclosed hfind h =>
      cases h with
      | wait timeoutMs =>
          cases hy
          cases hid
          exact Or.inr hfind
      | seek ms =>
          cases hy
          cases hid
          exact Or.inr hfind
      | _ => cases hy
  | miss he hfind h => cases h <;> cases hy
  | opens he hclosed hmissing h => cases h <;> cases hy
  | makes he => cases hy
  | removes he h =>
      cases h with
      | overdue caller => cases (caller.wait?_resolved _).symm.trans hy
      | _ => cases hy
  | clears he => cases hy
  | turns h =>
      cases h with
      | register he hw => exact Or.inl hy
      | park he hw hclosed hvalue => exact Or.inl hy
      | wake he hw hwoken => exact Or.inl hy
      | take he hw hclosed hvalue => cases (Caller.wait?_resolved _ _).symm.trans hy
      | late he hw hclosed => cases (Caller.wait?_resolved _ _).symm.trans hy
      | _ => cases hy

/-- An id stays filed until its slot is about to be closed, or a task takes it out of the file that
leaves the slot open. -/
theorem Act.leaves_filed (h : Act s e t x y next notes) (hfind : s.find? id = some p) :
    next.find? id = some p ∨ y.ToShut p ∨ e = .proceed t ∧ x.Forgets id := by
  cases h with
  | @opens x y own he hclosed hmissing h =>
      left
      have hne : id ≠ own := by
        rintro rfl
        cases hmissing.symm.trans hfind
      rw [State.find?_goto, State.find?_cons, if_neg hne, hfind]
  | @removes x y own he h =>
      by_cases hid : id = own
      · subst hid
        cases h with
        | close =>
            right
            left
            rw [hfind]
            exact List.mem_singleton_self p
        | remove => exact Or.inr (Or.inr ⟨he, rfl⟩)
        | overdue caller => exact Or.inr (Or.inr ⟨he, rfl⟩)
        | leave result => exact Or.inr (Or.inr ⟨he, rfl⟩)
      · left
        rw [State.find?_goto, State.find?_unfile, if_neg hid, hfind]
  | clears he => exact Or.inr (Or.inl (List.mem_map.mpr ⟨_, mem_index_of_find? hfind, rfl⟩))
  | _ => exact Or.inl hfind

theorem mem_of_callOf {call : Call α} (h : callOf t es = some call) : .spawn t call ∈ es := by
  obtain ⟨e, he, hasks⟩ := List.exists_of_findSome?_eq_some h
  rwa [Event.eq_spawn_of_asks hasks] at he

theorem TimedOut.mem (h : TimedOut t es) : .expire t ∈ es := by
  obtain ⟨before, w, id, hprefix, -⟩ := h
  exact hprefix.subset (List.mem_append_right _ (List.mem_singleton_self _))

theorem Forsaken.append (h : Forsaken t id p es) (fs : List (Event α)) :
    Forsaken t id p (es ++ fs) := by
  obtain ⟨before, u, x, hprefix, hrest⟩ := h
  exact ⟨before, u, x, hprefix.trans (List.prefix_append es fs), hrest⟩

theorem State.WaitsAt.made (h : s.WaitsAt t id p) (hreach : s.Reachable) : p < s.made := by
  obtain ⟨x, w, ht, hw, -, rfl⟩ := h
  exact hreach.sound.held t x w.slot ht (Stage.holds_of_wait hw)

theorem State.WaitsAt.of_step (h : (s.step e).WaitsAt t id p) :
    s.WaitsAt t id p ∨ (s.step e).find? id = some p := by
  obtain ⟨y, w, hy, hw, hid, rfl⟩ := h
  cases hold : s.tasks t with
  | none =>
      rw [step_unbegun hold] at hy
      obtain ⟨call, hasks, rfl⟩ := Option.map_eq_some_iff.mp hy
      cases hw
  | some x =>
      rcases step_task hold e with hstay | ⟨z, he, hz, hact⟩
      · obtain rfl := Option.some.inj (hstay.symm.trans hy)
        exact Or.inl ⟨x, w, hold, hw, hid, rfl⟩
      · obtain rfl := Option.some.inj (hz.symm.trans hy)
        exact (hact.comes hw hid).imp_left fun hx => ⟨x, w, hold, hx, hid, rfl⟩

/-- The slot of an id stays filed, closed or about to be closed, unless a task forgets it. -/
theorem State.Guards.step (h : s.Guards id p) (hmade : p < s.made) (e : Event α) :
    (s.step e).Guards id p ∨
      ∃ u x, e = .proceed u ∧ s.tasks u = some x ∧ x.Forgets id ∧ s.find? id = some p := by
  -- filed, closed, or held by a task that will close it: each may turn into the next
  rcases h with hfind | hclosed | ⟨u, z, hu, hz⟩
  · have hchange := s.step_change e
    generalize s.step e = next, s.notes e = notes at hchange ⊢
    cases hchange with
    | rests now hblocked hbegun => exact Or.inl (Or.inl hfind)
    | begins he ht => exact Or.inl (Or.inl hfind)
    | @acts t x y next notes he ht hact =>
        rcases hact.leaves_filed hfind with hstill | hwill | ⟨hproceed, hforgets⟩
        · exact Or.inl (Or.inl hstill)
        · exact Or.inl (Or.inr (Or.inr ⟨t, y, by rw [hact.tasks, assign_self], hwill⟩))
        · exact Or.inr ⟨t, x, hproceed, ht, hforgets, hfind⟩
  · exact Or.inl (Or.inr (Or.inl (closed_step hmade hclosed e)))
  · left
    right
    rcases step_task hu e with hstay | ⟨y, he, hy, hact⟩
    · exact Or.inr ⟨u, z, hstay, hz⟩
    · rcases hact.shuts hz with hwill | hdone
      · exact Or.inr ⟨u, y, hy, hwill⟩
      · exact Or.inl hdone

/-- A wait by an id is at the slot that is filed under it, or the slot is closed or about to be, or
the wait is forsaken. -/
theorem State.run_waits (hnames : (State.empty : State α).Names es)
    (hwaits : (State.empty.run es).WaitsAt t id p) :
    (State.empty.run es).Guards id p ∨ Forsaken t id p es := by
  induction es using List.reverseRecOn generalizing t p with
  | nil =>
      obtain ⟨x, w, ht, -⟩ := hwaits
      cases ht
  | append_singleton es e ih =>
      rw [run_concat] at hwaits ⊢
      -- the wait was there before, or it has just found the slot under its id
      rcases hwaits.of_step with hbefore | hfind
      · rcases ih hnames.before hbefore with hguards | hforsaken
        · rcases hguards.step (hbefore.made hnames.before.reachable) e with
            hstill | ⟨u, x, rfl, hu, hx, hfind⟩
          · exact Or.inl hstill
          · -- the task that forgets the id does not wait itself
            have hne : u ≠ t := by
              rintro rfl
              obtain ⟨y, w, hy, hw, -⟩ := hbefore
              obtain rfl := Option.some.inj (hu.symm.trans hy)
              exact hx.not_wait hw
            exact Or.inr ⟨es, u, x, List.prefix_rfl, hne, hu, hx, hfind, hbefore⟩
        · exact Or.inr (hforsaken.append [e])
      · exact Or.inl (Or.inl hfind)

end Waits

/-! ## How waits fail -/

section Fails

variable {s next : State α} {e : Event α} {t : TaskId} {x y : Stage α} {notes : List (Note α)}
  {id : UInt64} {ms : Option Nat} {es later : List (Event α)}

/-- A task that has a section left can pass it, if it sleeps unwoken nowhere. -/
theorem State.Fails.canProceed (hs : s.Fails t x) (ht : s.tasks t = some x) (hleft : x.left ≠ 0) :
    s.canProceed t = true := by
  cases x with
  | parked w => simpa [State.canProceed, ht] using hs.awake w rfl
  | publishing id ms => exact absurd rfl hleft
  | finished outcome => exact absurd rfl hleft
  | dropped => exact absurd rfl hleft
  | _ => simp [State.canProceed, ht]

/-- A wait that returns has received something. -/
theorem Act.receives {outcome : Outcome α} (h : Act s e t x (.finished outcome) next notes)
    (hx : x.Suits (.wait id ms)) : ∃ result, outcome = .received result := by
  generalize hy : Stage.finished outcome = y at h
  cases h with
  | pass h =>
      cases h with
      | allShut he => exact hx.elim
      | unanswered value he => cases hx
      | declined he => cases hx
      | _ => cases hy
  | hit he hclosed hfind h =>
      cases h with
      | get create => cases hx
      | _ => cases hy
  | miss he hfind h =>
      cases h with
      | wait timeoutMs =>
          cases hy
          exact ⟨_, rfl⟩
      | seek ms => cases hy
      | _ => cases hx
  | opens he hclosed hfind h => cases h <;> cases hx
  | makes he => cases hx
  | removes he h =>
      cases h with
      | close => cases hx
      | remove => cases hx
      | overdue caller => exact ⟨_, Caller.finished_resolved hy⟩
      | leave result =>
          cases hy
          exact ⟨_, rfl⟩
  | clears he => cases hy
  | turns h =>
      cases h with
      | full he hclosed hvalue => cases hx
      | refuse he hclosed => cases hx
      | announce he => exact absurd rfl hx
      | take he hw hclosed hvalue => exact ⟨_, Caller.finished_resolved hy⟩
      | late he hw hclosed => exact ⟨_, Caller.finished_resolved hy⟩
      | _ => cases hy

/-- A wait by an id is at a slot for that id. -/
theorem Stage.Suits.id_of_wait {w : Wait} (hx : x.Suits (.wait id ms)) (hw : x.wait? = some w) :
    w.id? = some id := by
  obtain ⟨caller, slot, deadline⟩ := w
  cases x with
  | listening v | checking v | parked v =>
      cases hw
      cases hx
      rfl
  | _ => cases hw

/-- A wait with no section left has ended. -/
theorem Stage.Suits.over (hx : x.Suits (.wait id ms)) (hleft : x.left = 0) :
    (∃ outcome, x = .finished outcome) ∨ x = .dropped := by
  cases x with
  | storing q value => cases hx
  | announcing q => exact absurd rfl hx
  | shutting slots => exact hx.elim
  | rousing q rest => exact hx.elim
  | publishing own more => obtain ⟨more, ⟨⟩⟩ := hx
  | finished outcome => exact Or.inl ⟨outcome, rfl⟩
  | dropped => exact Or.inr rfl
  | _ => cases hleft

/-- A wait that has not returned comes to fail since everything is closed, or its time has run
out. -/
theorem Stage.Suits.fails (hx : x.Suits (.wait id ms)) (hnone : ∀ outcome, x ≠ .finished outcome) :
    x.fate = .error .closed ∨ x.fate = .error .timeout ∧ ∃ caller, x = .overdue id caller := by
  cases x with
  | overdue own caller =>
      cases hx.1
      exact Or.inr ⟨rfl, caller, rfl⟩
  | leaving own result => obtain ⟨more, ⟨⟩⟩ := hx
  | finished outcome => exact absurd rfl (hnone outcome)
  | _ => exact Or.inl rfl

theorem Caller.overdue_ne_resolved (own : Caller) (result : Except Failure α) {caller : Caller} :
    .overdue id caller ≠ own.resolved result := by
  cases own <;> rintro ⟨⟩

/-- A task whose time runs out sleeps until then. -/
theorem Act.expires {caller : Caller} (h : Act s e t x (.overdue id caller) next notes) :
    ∃ w, e = .expire t ∧ x = .parked w ∧ caller = w.caller := by
  generalize hy : Stage.overdue id caller = y at h
  cases h with
  | pass h => cases h <;> cases hy
  | hit he hclosed hfind h => cases h <;> cases hy
  | miss he hfind h => cases h <;> cases hy
  | opens he hclosed hfind h => cases h <;> cases hy
  | makes he => cases hy
  | removes he h =>
      cases h with
      | overdue own => exact absurd hy (own.overdue_ne_resolved _)
      | _ => cases hy
  | clears he => cases hy
  | turns h =>
      cases h with
      | take he hw hclosed hvalue => exact absurd hy (Caller.overdue_ne_resolved _ _)
      | late he hw hclosed => exact absurd hy (Caller.overdue_ne_resolved _ _)
      | @expire w own he hw hid hwoken =>
          cases hy
          exact ⟨w, he, rfl, rfl⟩
      | _ => cases hy

/-- A wait that fails goes on by its own sections, and each takes it nearer to its result. -/
theorem Act.fails (h : Act s e t x y next notes) (hs : s.Fails t x)
    (hx : x.Suits (.wait id ms)) :
    y = .dropped ∨ e = .proceed t ∧ y.left < x.left ∧ y.fate = x.fate ∧
      (∀ w, y.wait? = some w → x.wait? = some w) ∧ ∀ w, y ≠ .parked w := by
  have hopen : s.closed ≠ false := by simp [hs.closed]
  cases h with
  | pass h =>
      cases h with
      | unbegun call he => exact Or.inl rfl
      | allShut he => exact hx.elim
      | published own ms u he => obtain ⟨more, ⟨⟩⟩ := hx
      | unpublished own ms f he => obtain ⟨more, ⟨⟩⟩ := hx
      | abandoned own ms he => exact Or.inl rfl
      | _ => cases hx
  | hit he hfalse hfind h => exact absurd hfalse hopen
  | miss he hfind h =>
      cases h with
      | wait timeoutMs => exact Or.inr ⟨he, Nat.zero_lt_one, rfl, by rintro w ⟨⟩, by rintro w ⟨⟩⟩
      | seek ms => obtain ⟨more, ⟨⟩⟩ := hx
      | _ => cases hx
  | opens he hfalse hfind h => exact absurd hfalse hopen
  | makes he => cases hx
  | removes he h =>
      cases h with
      | overdue caller =>
          cases hx.2
          exact Or.inr ⟨he, Nat.zero_lt_two, rfl, by rintro w ⟨⟩, by rintro w ⟨⟩⟩
      | leave result => obtain ⟨more, ⟨⟩⟩ := hx
      | _ => cases hx
  | clears he => cases hx
  | turns h =>
      cases h with
      | store he hclosed hvalue => cases hx
      | full he hclosed hvalue => cases hx
      | refuse he hclosed => cases hx
      | announce he => exact absurd rfl hx
      | shut he => exact hx.elim
      | rouse he => exact hx.elim
      | register he hw =>
          exact Or.inr ⟨he, Nat.lt_succ_self 2, rfl, fun v hv => hv, by rintro v ⟨⟩⟩
      | take he hw hfalse hvalue =>
          subst hw
          cases (hs.shut _ rfl).2.symm.trans hfalse
      | @late w he hw hclosed =>
          have hcaller : w.caller = .wait id := (Option.some.inj hx).symm
          rw [hcaller]
          exact Or.inr ⟨he, Nat.zero_lt_two, rfl, by rintro v ⟨⟩, by rintro v ⟨⟩⟩
      | park he hw hfalse hvalue =>
          subst hw
          cases (hs.shut _ rfl).2.symm.trans hfalse
      | wake he hw hwoken =>
          exact Or.inr ⟨he, Nat.lt_succ_self 3, rfl, fun v hv => hv, by rintro v ⟨⟩⟩
      | expire he hw hid hasleep =>
          subst hw
          cases (hs.awake _ rfl).symm.trans hasleep
      | drop he hw => exact Or.inl rfl

/-- A wake-up that has reached a task which still sleeps is not taken back. -/
theorem State.hasWoken_step {w : Wait} (hmade : w.slot < s.made)
    (hclosed : (s.slots w.slot).closed = true) (hwoken : (s.slots w.slot).hasWoken t = true)
    (ht : (s.step e).tasks t = some (.parked w)) : ((s.step e).slots w.slot).hasWoken t = true := by
  have hstill := closed_step hmade hclosed e
  have hview := s.step_view e hmade
  generalize s.step e = next, s.notes e = notes at hview hstill ht ⊢
  cases hview with
  | rests hblocked hslot htasks hnotes => rw [hslot, hwoken]
  | begins he hu hslot htasks hnotes => rw [hslot, hwoken]
  | away he hu hx hact hslot htasks => rw [hslot, hwoken]
  | @turns u x y q notes he hu hturn hslot htasks hnotes =>
      rw [hslot] at hstill ⊢
      by_cases hut : t = u
      · -- a task goes to sleep at an open slot only
        subst hut
        rw [htasks, assign_self] at ht
        cases ht
        cases hturn.parked.1.symm.trans hstill
      · exact (hturn.others hut).2 hwoken

/-- A wait that fails comes nearer to its result by each of its sections, and by nothing else that
happens does it come away from there. -/
theorem State.Fails.step (hs : s.Fails t x) (ht : s.tasks t = some x)
    (hx : x.Suits (.wait id ms)) (e : Event α) :
    ∃ y, (s.step e).tasks t = some y ∧ (s.step e).Fails t y ∧ (y = .dropped ∨ y.fate = x.fate) ∧
      y.left ≤ x.left ∧ (e.goesOn t = true → y.left = 0 ∨ y.left < x.left) := by
  have hshut : ∀ w, x.wait? = some w →
      w.slot < (s.step e).made ∧ ((s.step e).slots w.slot).closed = true := by
    intro w hw
    obtain ⟨hmade, hclosed⟩ := hs.shut w hw
    exact ⟨Nat.lt_of_lt_of_le hmade (s.made_le_step e), closed_step hmade hclosed e⟩
  have hmoved : ∀ y, Act s e t x y (s.step e) (s.notes e) → (s.step e).Fails t y ∧
      (y = .dropped ∨ y.fate = x.fate) ∧ y.left ≤ x.left ∧ (y.left = 0 ∨ y.left < x.left) := by
    intro y hact
    have hall := closed_stays hs.closed e
    rcases hact.fails hs hx with rfl | ⟨-, hleft, hfate, hwait, hawake⟩
    · exact ⟨⟨hall, by rintro w ⟨⟩, by rintro w ⟨⟩⟩, Or.inl rfl, Nat.zero_le _, Or.inl rfl⟩
    · exact ⟨⟨hall, fun w hw => hshut w (hwait w hw), fun w hw => absurd hw (hawake w)⟩,
        Or.inr hfate, Nat.le_of_lt hleft, Or.inr hleft⟩
  rcases step_task ht e with hstay | ⟨y, -, hy, hact⟩
  · refine ⟨x, hstay, ⟨closed_stays hs.closed e, hshut, ?_⟩, Or.inr rfl, Nat.le_refl _, ?_⟩
    · rintro w rfl
      obtain ⟨hmade, hclosed⟩ := hs.shut w rfl
      exact hasWoken_step hmade hclosed (hs.awake w rfl) hstay
    · intro hgoes
      obtain rfl := Event.goesOn_iff.mp hgoes
      left
      by_contra hsome
      -- a task with a section left can pass it, and does not stay
      obtain ⟨y, hact⟩ := proceed_act ht (hs.canProceed ht hsome)
      rw [step_proceed ht, hact.tasks, assign_self] at hstay
      obtain rfl := Option.some.inj hstay
      rw [← step_proceed ht] at hact
      rcases (hmoved _ hact).2.2.2 with hnone | hless
      · exact hsome hnone
      · exact Nat.lt_irrefl _ hless
  · obtain ⟨hfails, hfate, hle, hleft⟩ := hmoved y hact
    exact ⟨y, hy, hfails, hfate, hle, fun _ => hleft⟩

/-- The same over a run, counting the sections that the task passes. -/
theorem State.Fails.run (hs : (empty.run es).Fails t x) (ht : (empty.run es).tasks t = some x)
    (hcall : callOf t es = some (.wait id ms)) (later : List (Event α)) :
    ∃ y, (empty.run (es ++ later)).tasks t = some y ∧ (empty.run (es ++ later)).Fails t y ∧
      (y = .dropped ∨ y.fate = x.fate) ∧
      (y.left = 0 ∨ y.left + later.countP (Event.goesOn t) ≤ x.left) := by
  induction later using List.reverseRecOn with
  | nil =>
      rw [List.append_nil]
      exact ⟨x, ht, hs, Or.inr rfl, Or.inr (Nat.le_refl _)⟩
  | append_singleton later e ih =>
      obtain ⟨y, hy, hfails, hfate, hleft⟩ := ih
      have hsuits := run_suits (callOf_append hcall later) hy
      obtain ⟨z, hz, hfails', hfate', hle, hgoes⟩ := hfails.step hy hsuits e
      rw [← List.append_assoc, run_concat]
      refine ⟨z, hz, hfails', ?_, ?_⟩
      · rcases hfate' with rfl | hsame
        · exact Or.inl rfl
        · rcases hfate with rfl | hfate
          · left
            cases (step_ended hy trivial e).symm.trans hz
            rfl
          · exact Or.inr (hsame.trans hfate)
      · rw [List.countP_append, List.countP_singleton]
        cases hgo : e.goesOn t with
        | false =>
            rw [if_neg (by simp)]
            omega
        | true =>
            rw [if_pos rfl]
            have hdone := hgoes hgo
            omega

/-- What a wait that has returned returns is something that it received. -/
theorem State.run_received {outcome : Outcome α} (hcall : callOf t es = some (.wait id ms))
    (ht : (empty.run es).tasks t = some (.finished outcome)) :
    ∃ result, outcome = .received result := by
  induction es using List.reverseRecOn with
  | nil => cases ht
  | append_singleton es e ih =>
      rcases run_moved hcall ht with hready | ⟨z, hold, hasked, rfl | ⟨-, hact⟩⟩
      · cases hready
      · exact ih hasked hold
      · exact hact.receives (run_suits hasked hold)

/-- The time of a task that is about to take its id out of the file ran out while it slept. -/
theorem State.run_timed_out {caller : Caller}
    (ht : (empty.run es).tasks t = some (.overdue id caller)) : TimedOut t es := by
  induction es using List.reverseRecOn with
  | nil => cases ht
  | append_singleton es e ih =>
      have hthere : (empty.run (es ++ [e])).tasks t ≠ none := by simp [ht]
      obtain ⟨call, hcall⟩ := run_called hthere
      rcases run_moved hcall ht with hready | ⟨z, hold, -, rfl | ⟨-, hact⟩⟩
      · cases hready
      · exact (ih hold).append [e]
      · obtain ⟨w, rfl, rfl, rfl⟩ := hact.expires
        exact ⟨es, w, id, List.prefix_rfl, hold, ht⟩

/-- A wait that has not returned when everything is closed and no task is closing any more fails, if
it is not forsaken. -/
theorem State.Down.fails (hdown : (empty.run es).Down) (hnames : (empty : State α).Names es)
    (hcall : callOf t es = some (.wait id ms)) (ht : (empty.run es).tasks t = some x)
    (hkept : ∀ p, ¬ Forsaken t id p es) : (empty.run es).Fails t x := by
  have hreach := hnames.reachable
  have hshut : ∀ w, x.wait? = some w →
      w.slot < (empty.run es).made ∧ ((empty.run es).slots w.slot).closed = true := by
    intro w hw
    have hwaits : (empty.run es).WaitsAt t id w.slot :=
      ⟨x, w, ht, hw, (run_suits hcall ht).id_of_wait hw, rfl⟩
    refine ⟨hwaits.made hreach, ?_⟩
    -- nothing is filed and nobody closes anything, so of all that guards the slot one is left
    rcases run_waits hnames hwaits with (hfind | hclosed | ⟨u, z, hu, hz⟩) | hforsaken
    · rw [find?, run_emptied es hdown.closed] at hfind
      cases hfind
    · exact hclosed
    · exact absurd hz.closes (hdown.settled u z hu)
    · exact absurd hforsaken (hkept w.slot)
  refine ⟨hdown.closed, hshut, ?_⟩
  rintro w rfl
  obtain ⟨hmade, hclosed⟩ := hshut w rfl
  rcases (hreach.attended w.slot hmade).closed hclosed with ⟨u, rest, hu⟩ | hall
  · exact absurd trivial (hdown.settled u _ hu)
  · exact hall t w ht rfl

/-- A task that waits at a closed slot can go on, or is about to be woken. -/
theorem State.WaitsAt.awake {p : SlotId} (h : s.WaitsAt t id p) (hreach : s.Reachable)
    (hclosed : (s.slots p).closed = true) :
    s.canProceed t = true ∨ ∃ u rest, s.tasks u = some (.rousing p rest) := by
  have hattended := hreach.attended p (h.made hreach)
  obtain ⟨x, w, ht, hw, -, rfl⟩ := h
  cases x with
  | parked v =>
      cases hw
      rcases hattended.closed hclosed with hrousing | hall
      · exact Or.inr hrousing
      · left
        simpa [State.canProceed, ht] using hall t w ht rfl
  | listening v => simp [State.canProceed, ht]
  | checking v => simp [State.canProceed, ht]
  | _ => cases hw

/-- Who forsakes a wait removes the id, makes a request with it, or waited for it and timed out. -/
theorem Forsaken.culprit {p : SlotId} (h : Forsaken t id p es) :
    ∃ u call, u ≠ t ∧ callOf u es = some call ∧
      (call = .remove id ∨ (∃ ms, call = .request id ms) ∨
        ∃ ms, call = .wait id ms ∧ TimedOut u es) := by
  obtain ⟨before, u, x, ⟨rest, rfl⟩, hne, hu, hx, -⟩ := h
  have hthere : (State.empty.run before).tasks u ≠ none := by simp [hu]
  obtain ⟨call, hcall⟩ := State.run_called hthere
  rw [List.append_assoc]
  refine ⟨u, call, hne, callOf_append hcall _, ?_⟩
  have hsuits := State.run_suits hcall hu
  cases x with
  | ready own =>
      cases hsuits
      cases call with
      | remove own =>
          cases hx
          exact Or.inl rfl
      | _ => exact hx.elim
  | overdue own caller =>
      cases hx
      obtain ⟨hid, hcaller⟩ := hsuits
      cases call with
      | wait own ms =>
          cases hid
          exact Or.inr (Or.inr ⟨ms, rfl, (State.run_timed_out hu).append _⟩)
      | request own ms =>
          cases hid
          exact Or.inr (Or.inl ⟨ms, rfl⟩)
      | slotPop q => cases hid
      | _ => cases hcaller
  | leaving own result =>
      cases hx
      exact Or.inr (Or.inl hsuits)
  | _ => exact hx.elim

end Fails

/-- Whatever calls make up a run, a wait by an id fails when everything is closed, unless it is
forsaken, and it is forsaken by another caller of its id only. -/
theorem loss_fails_waits {events : List (Event α)} (hnames : (State.empty : State α).Names events) :
    -- a call that closes everything and has returned has closed everything
    (∀ c outcome, callOf c events = some .closeAll →
      (State.empty.run events).outcome? c = some outcome → (State.empty.run events).closed = true) ∧
    -- once everything is closed, a task that waits by an id does so at a closed slot, and goes on
    -- or is about to be woken, or at a slot that is about to be closed, or it is forsaken
    ((State.empty.run events).closed = true →
      ∀ t id p, (State.empty.run events).WaitsAt t id p →
        (((State.empty.run events).slots p).closed = true ∧
          ((State.empty.run events).canProceed t = true ∨
            ∃ u rest, (State.empty.run events).tasks u = some (.rousing p rest))) ∨
        (∃ u x, (State.empty.run events).tasks u = some x ∧ x.ToShut p) ∨
        Forsaken t id p events) ∧
    -- when everything is closed and no task is closing any more, a wait that has not returned
    (∀ before later, events = before ++ later → (State.empty.run before).Down →
      ∀ t id ms, callOf t before = some (.wait id ms) →
        (State.empty.run before).outcome? t = none → (∀ p, ¬ Forsaken t id p before) →
          -- is not left asleep: it returns or goes on, if it is not dropped
          ((State.empty.run events).outcome? t ≠ none ∨
            (State.empty.run events).tasks t = some .dropped ∨
            (State.empty.run events).canProceed t = true) ∧
          -- has ended after four sections of its own
          (4 ≤ later.countP (Event.goesOn t) → (State.empty.run events).outcome? t ≠ none ∨
            (State.empty.run events).tasks t = some .dropped) ∧
          -- fails, as everything is closed or since its time had run out before
          ∀ outcome, (State.empty.run events).outcome? t = some outcome →
            outcome = .received (.error .closed) ∨
              outcome = .received (.error .timeout) ∧ TimedOut t before) ∧
    -- whoever forsakes a wait removes the id, makes a request with it, or waited for it as well and
    -- timed out
    (∀ t id p, Forsaken t id p events → ∃ u call, u ≠ t ∧ callOf u events = some call ∧
      (call = .remove id ∨ (∃ ms, call = .request id ms) ∨
        ∃ ms, call = .wait id ms ∧ TimedOut u events)) := by
  refine ⟨fun c outcome => State.run_cleared, ?_, ?_, fun t id p h => h.culprit⟩
  · intro hclosed t id p hwaits
    rcases State.run_waits hnames hwaits with (hfind | hshut | hwill) | hforsaken
    · rw [State.find?, State.run_emptied events hclosed] at hfind
      cases hfind
    · exact Or.inl ⟨hshut, hwaits.awake hnames.reachable hshut⟩
    · exact Or.inr (Or.inl hwill)
    · exact Or.inr (Or.inr hforsaken)
  · rintro before later rfl hdown t id ms hcall hnone hkept
    obtain ⟨x, ht⟩ := Option.ne_none_iff_exists'.mp (State.run_asked (s := State.empty) _ hcall)
    obtain ⟨y, hy, hfails, hfate, hleft⟩ :=
      (hdown.fails hnames.before hcall ht hkept).run ht hcall later
    have hsuits := State.run_suits (callOf_append hcall later) hy
    have hover : y.left = 0 → (State.empty.run (before ++ later)).outcome? t ≠ none ∨
        (State.empty.run (before ++ later)).tasks t = some .dropped := by
      intro hzero
      rcases hsuits.over hzero with ⟨outcome, rfl⟩ | rfl
      · exact Or.inl (by simp [State.outcome?, hy])
      · exact Or.inr hy
    refine ⟨?_, ?_, ?_⟩
    · by_cases hzero : y.left = 0
      · exact (hover hzero).imp_right Or.inl
      · exact Or.inr (Or.inr (hfails.canProceed hy hzero))
    · intro hfour
      have hmost := x.left_le
      exact hover (by omega)
    · intro outcome hout
      obtain rfl : y = .finished outcome := by
        cases y <;> simp_all [State.outcome?]
      obtain ⟨result, rfl⟩ := State.run_received (callOf_append hcall later) hy
      obtain rfl : result = x.fate := hfate.resolve_left (by rintro ⟨⟩)
      have hunfinished : ∀ o, x ≠ .finished o := by
        rintro o rfl
        simp [State.outcome?, ht] at hnone
      rcases (State.run_suits hcall ht).fails hunfinished with hclosed | ⟨htime, caller, rfl⟩
      · exact Or.inl (by rw [hclosed])
      · exact Or.inr ⟨by rw [htime], State.run_timed_out ht⟩

/-- Two tasks wait by id 1, one of them with a timeout, and the time of a third one that waits by
id 2 runs out. Then everything is closed. -/
def lostTogether : List (Event Nat) :=
  [.spawn 1 (.get 1 true), .proceed 1, .spawn 2 (.wait 1 none), .proceed 2, .proceed 2, .proceed 2,
    .spawn 3 (.wait 1 (some 50)), .proceed 3, .proceed 3, .proceed 3,
    .spawn 4 (.get 2 true), .proceed 4, .spawn 5 (.wait 2 (some 10)), .proceed 5, .proceed 5,
    .proceed 5, .advance 10, .expire 5,
    .spawn 6 .closeAll, .proceed 6, .proceed 6, .proceed 6, .proceed 6, .proceed 6, .proceed 6]

/-- The three go on to their ends. -/
def failTogether : List (Event Nat) :=
  [.proceed 2, .proceed 3, .proceed 5, .proceed 2, .proceed 3, .proceed 2, .proceed 3, .proceed 2]

theorem loss_fails_waits_together :
    [2, 3, 5].map (State.empty.run (lostTogether ++ failTogether)).outcome? =
        [some (.received (.error .closed)), some (.received (.error .closed)),
          some (.received (.error .timeout))] ∧
      (State.empty.run lostTogether).closed = true ∧
      (State.empty.run lostTogether).canProceed 2 = true ∧
      ((State.empty.run (lostTogether ++ failTogether)).outcome? 2 ≠ none ∨
        (State.empty.run (lostTogether ++ failTogether)).tasks 2 = some .dropped) ∧
      TimedOut 5 lostTogether := by
  have hnames : (State.empty : State Nat).Names (lostTogether ++ failTogether) := by
    simp [State.Names, lostTogether, failTogether, Event.Known, Call.slot?]
  obtain ⟨-, -, hfails, hculprit⟩ := loss_fails_waits hnames
  have hdown : (State.empty.run lostTogether).Down := by
    refine ⟨rfl, ?_⟩
    intro u x hu
    rcases u with _ | _ | _ | _ | _ | _ | _ | n
    case succ.succ.succ.succ.succ.succ.succ =>
      have hnone : (State.empty.run lostTogether).tasks (n + 7) = none :=
        State.run_unbegun rfl lostTogether (by simp [lostTogether, callOf, Event.asks?])
      cases hnone.symm.trans hu
    all_goals
      cases hu
      try exact id
  have hkept : ∀ t id p, Forsaken t id p lostTogether → t ≠ 5 ∧ id = 2 := by
    intro t id p hforsaken
    obtain ⟨u, call, hne, hcall, hwhy⟩ := hculprit t id p (hforsaken.append failTogether)
    have hasked := mem_of_callOf hcall
    rcases hwhy with rfl | ⟨ms, rfl⟩ | ⟨ms, rfl, htime⟩
    · simp [lostTogether, failTogether] at hasked
    · simp [lostTogether, failTogether] at hasked
    · obtain rfl : u = 5 := by simpa [lostTogether, failTogether] using htime.mem
      have hid : id = 2 := by
        simp [lostTogether, failTogether] at hasked
        exact hasked.1
      exact ⟨hne.symm, hid⟩
  have hfirst := hfails lostTogether failTogether rfl hdown 2 1 none rfl rfl
    fun p hp => absurd (hkept 2 1 p hp).2 (by decide)
  have htimed := hfails lostTogether failTogether rfl hdown 5 2 (some 10) rfl rfl
    fun p hp => (hkept 5 2 p hp).1 rfl
  have hreason : TimedOut 5 lostTogether :=
    ((htimed.2.2 (.received (.error .timeout)) rfl).resolve_left (by rintro ⟨⟩)).2
  exact ⟨rfl, rfl, rfl, hfirst.2.1 (by decide), hreason⟩

end AmqpDelivery.Rendezvous
