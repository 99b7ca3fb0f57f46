import AmqpDelivery.Proofs.Rendezvous.Reach

/-!
# No wake-up is lost

A waiter registers before it looks, and whoever fills or closes a slot wakes the registered waiters
afterwards. `Attended` says of a slot that whoever is in its midst is registered, and that a waiter
sleeps unwoken at a filled or closed slot only as long as somebody is about to wake it. Every step
keeps this (`Attended.step`), so it holds in every state that can be reached.
-/

namespace AmqpDelivery.Rendezvous

variable {α : Type}

namespace Slot

variable {q : Slot α} {t u : TaskId}

/-- The task is registered at the slot. -/
def Lists (q : Slot α) (t : TaskId) : Prop := ∃ w ∈ q.waiters, w.task = t

theorem lists_register (q : Slot α) (t : TaskId) : (q.register t).Lists t :=
  ⟨⟨t, false⟩, List.mem_append_right _ (List.mem_singleton_self _), rfl⟩

theorem Lists.register (h : q.Lists u) (t : TaskId) : (q.register t).Lists u := by
  obtain ⟨w, hw, rfl⟩ := h
  exact ⟨w, List.mem_append_left _ hw, rfl⟩

theorem Lists.forget (h : q.Lists u) (hne : u ≠ t) : (q.forget t).Lists u := by
  obtain ⟨w, hw, rfl⟩ := h
  exact ⟨w, List.mem_filter.mpr ⟨hw, by simpa using hne⟩, rfl⟩

theorem Lists.wakeAll (h : q.Lists u) : q.wakeAll.Lists u := by
  obtain ⟨w, hw, rfl⟩ := h
  exact ⟨_, List.mem_map_of_mem hw, rfl⟩

/-- Whoever is registered is woken. -/
theorem Lists.woken (h : q.Lists u) : q.wakeAll.hasWoken u = true := by
  obtain ⟨w, hw, rfl⟩ := h
  exact List.any_eq_true.mpr ⟨_, List.mem_map_of_mem hw, by simp⟩

theorem hasWoken_register (h : q.hasWoken u = true) (t : TaskId) :
    (q.register t).hasWoken u = true := by
  obtain ⟨w, hw, hwoken⟩ := List.any_eq_true.mp h
  exact List.any_eq_true.mpr ⟨w, List.mem_append_left _ hw, hwoken⟩

theorem hasWoken_forget (h : q.hasWoken u = true) (hne : u ≠ t) :
    (q.forget t).hasWoken u = true := by
  obtain ⟨w, hw, hwoken⟩ := List.any_eq_true.mp h
  have htask : w.task = u := by simp_all
  exact List.any_eq_true.mpr ⟨w, List.mem_filter.mpr ⟨hw, by simpa [htask] using hne⟩, hwoken⟩

theorem hasWoken_wakeAll (h : q.hasWoken u = true) : q.wakeAll.hasWoken u = true := by
  obtain ⟨w, hw, hwoken⟩ := List.any_eq_true.mp h
  exact List.any_eq_true.mpr ⟨_, List.mem_map_of_mem hw, by simp_all⟩

end Slot

/-- The task has changed the slot and is about to wake its waiters. -/
def Stage.Telling (p : SlotId) : Stage α → Prop
  | .announcing q | .rousing q _ => q = p
  | _ => False

/-- The task waits at the slot and has registered there. -/
def Stage.Enlisted (p : SlotId) : Stage α → Prop
  | .checking w | .parked w => w.slot = p
  | _ => False

/-- Every sleeper at the slot has been woken. -/
def State.AllWoken (s : State α) (p : SlotId) : Prop :=
  ∀ t w, s.tasks t = some (.parked w) → w.slot = p → (s.slots p).hasWoken t = true

/-- Nobody sleeps at the slot whom nobody will wake. -/
structure State.Attended (s : State α) (p : SlotId) : Prop where
  listed : ∀ t x, s.tasks t = some x → x.Enlisted p → (s.slots p).Lists t
  filled : (s.slots p).value ≠ none → (∃ t, s.tasks t = some (.announcing p)) ∨ s.AllWoken p
  closed : (s.slots p).closed = true → (∃ t rest, s.tasks t = some (.rousing p rest)) ∨ s.AllWoken p

section Turns

variable {p : SlotId} {q q' : Slot α} {e : Event α} {t u : TaskId} {x y : Stage α}
  {own : List (Note α)}

/-- A turn takes no other task off the list and no wake-up back. -/
theorem Turn.others (h : Turn p q e t x y q' own) (hu : u ≠ t) :
    (q.Lists u → q'.Lists u) ∧ (q.hasWoken u = true → q'.hasWoken u = true) := by
  cases h with
  | announce he => exact ⟨Slot.Lists.wakeAll, Slot.hasWoken_wakeAll⟩
  | rouse he => exact ⟨Slot.Lists.wakeAll, Slot.hasWoken_wakeAll⟩
  | register he hw => exact ⟨fun h => h.register t, fun h => Slot.hasWoken_register h t⟩
  | take he hw hclosed hvalue => exact ⟨fun h => h.forget hu, fun h => Slot.hasWoken_forget h hu⟩
  | late he hw hclosed => exact ⟨fun h => h.forget hu, fun h => Slot.hasWoken_forget h hu⟩
  | wake he hw hwoken => exact ⟨fun h => h.forget hu, fun h => Slot.hasWoken_forget h hu⟩
  | expire he hw hid hwoken => exact ⟨fun h => h.forget hu, fun h => Slot.hasWoken_forget h hu⟩
  | drop he hw => exact ⟨fun h => h.forget hu, fun h => Slot.hasWoken_forget h hu⟩
  | _ => exact ⟨id, id⟩

theorem Caller.not_enlisted (caller : Caller) (result : Except Failure α) :
    ¬ (caller.resolved result).Enlisted p := by
  cases caller <;> exact id

/-- A task that waits is on the list: it came there when it registered. -/
theorem Turn.enlisted (h : Turn p q e t x y q' own) (hx : x.Enlisted p → q.Lists t)
    (hy : y.Enlisted p) : q'.Lists t := by
  cases h with
  | register he hw => exact q.lists_register t
  | park he hw hclosed hvalue => exact hx hw
  | take he hw hclosed hvalue => exact absurd hy (Caller.not_enlisted _ _)
  | late he hw hclosed => exact absurd hy (Caller.not_enlisted _ _)
  | _ => exact hy.elim

/-- A task goes to sleep at an open and empty slot only. -/
theorem Turn.parked {w : Wait} (h : Turn p q e t x (.parked w) q' own) :
    q'.closed = false ∧ q'.value = none := by
  generalize hy : Stage.parked w = y at h
  cases h with
  | park he hw hclosed hvalue => exact ⟨hclosed, hvalue⟩
  | take he hw hclosed hvalue => unfold Caller.resolved at hy; split at hy <;> cases hy
  | late he hw hclosed => unfold Caller.resolved at hy; split at hy <;> cases hy
  | _ => cases hy

/-- A task that was about to wake the waiters does so, and does not go to sleep. -/
theorem Turn.tells (h : Turn p q e t x y q' own) (hx : x.Telling p) :
    q' = q.wakeAll ∧ ∀ w, y ≠ .parked w := by
  cases h with
  | announce he => exact ⟨rfl, by simp⟩
  | rouse he => exact ⟨rfl, by simp⟩
  | _ => exact hx.elim

/-- Whoever fills a slot is about to wake its waiters. -/
theorem Turn.filled (h : Turn p q e t x y q' own) (hvalue : q'.value ≠ none) :
    q.value ≠ none ∨ y = .announcing p := by
  cases h with
  | store he hclosed hempty => exact Or.inr rfl
  | take he hw hclosed hfull => exact absurd rfl hvalue
  | _ => exact Or.inl hvalue

/-- Whoever closes a slot is about to wake its waiters. -/
theorem Turn.closed (h : Turn p q e t x y q' own) (hclosed : q'.closed = true) :
    q.closed = true ∨ ∃ rest, y = .rousing p rest := by
  cases h with
  | @shut rest he => exact Or.inr ⟨rest, rfl⟩
  | _ => exact Or.inl hclosed

end Turns

namespace State

variable {s next : State α} {p : SlotId} {e : Event α} {t : TaskId} {y : Stage α}

/-- Nobody waits at a slot that is new. -/
theorem Sound.attended_new (hs : s.Sound) (hslot : next.slots s.made = {})
    (htasks : next.tasks = assign s.tasks t (some y)) (hy : y.midst? = none) :
    next.Attended s.made where
  listed := by
    intro u x hu hx
    have hmidst : x.midst? = some s.made := by
      cases x <;> first | exact congrArg some hx | exact hx.elim
    rw [htasks] at hu
    by_cases hut : u = t
    · subst hut
      obtain rfl : y = x := by simpa using hu
      rw [hy] at hmidst
      cases hmidst
    · rw [assign_of_ne hut] at hu
      exact absurd (hs.held u x s.made hu (Stage.holds_of_midst hmidst)) (Nat.lt_irrefl _)
  filled := by
    intro hvalue
    rw [hslot] at hvalue
    exact absurd rfl hvalue
  closed := by
    intro hclosed
    rw [hslot] at hclosed
    cases hclosed

/-- An event that leaves the slot as it is, and a task that comes neither to it nor from it. -/
theorem Attended.keep (ha : s.Attended p) (hslot : next.slots p = s.slots p)
    (htasks : next.tasks = assign s.tasks t (some y)) (hy : y.midst? ≠ some p)
    (hx : ∀ x, s.tasks t = some x → x.midst? ≠ some p) : next.Attended p := by
  have hother : ∀ u x, x.midst? = some p → (next.tasks u = some x ↔ s.tasks u = some x) := by
    intro u x hmidst
    rw [htasks]
    by_cases hut : u = t
    · subst hut
      rw [assign_self]
      constructor
      · intro h
        exact absurd (Option.some.inj h ▸ hmidst) hy
      · intro h
        exact absurd hmidst (hx x h)
    · rw [assign_of_ne hut]
  have hwoken : s.AllWoken p → next.AllWoken p := by
    intro hall u w hu hw
    rw [hslot]
    exact hall u w ((hother u (.parked w) (congrArg some hw)).mp hu) hw
  constructor
  · intro u x hu hx
    have hmidst : x.midst? = some p := by
      cases x <;> first | exact congrArg some hx | exact hx.elim
    rw [hslot]
    exact ha.listed u x ((hother u x hmidst).mp hu) hx
  · intro hvalue
    rw [hslot] at hvalue
    rcases ha.filled hvalue with ⟨u, hu⟩ | hall
    · exact Or.inl ⟨u, (hother u _ rfl).mpr hu⟩
    · exact Or.inr (hwoken hall)
  · intro hclosed
    rw [hslot] at hclosed
    rcases ha.closed hclosed with ⟨u, rest, hu⟩ | hall
    · exact Or.inl ⟨u, rest, (hother u _ rfl).mpr hu⟩
    · exact Or.inr (hwoken hall)

/-- A task that turns to the slot. -/
theorem Attended.turn {x : Stage α} {q : Slot α} {own : List (Note α)} (ha : s.Attended p)
    (ht : s.tasks t = some x) (h : Turn p (s.slots p) e t x y q own) (hslot : next.slots p = q)
    (htasks : next.tasks = assign s.tasks t (some y)) : next.Attended p := by
  have hself : next.tasks t = some y := by rw [htasks, assign_self]
  have hother : ∀ u, u ≠ t → next.tasks u = s.tasks u := by
    intro u hu
    rw [htasks, assign_of_ne hu]
  -- a task that goes to sleep finds the slot open and empty, so it needs no wake-up
  have hwoken : q.closed = true ∨ q.value ≠ none → s.AllWoken p → next.AllWoken p := by
    intro hready hall u w hu hw
    rw [hslot]
    by_cases hut : u = t
    · subst hut
      obtain rfl : y = .parked w := Option.some.inj (hself.symm.trans hu)
      obtain ⟨hopen, hempty⟩ := h.parked
      simp [hopen, hempty] at hready
    · exact (h.others hut).2 (hall u w ((hother u hut).symm.trans hu) hw)
  -- whoever tells the waiters wakes all who are listed, and all who sleep are
  have htold : x.Telling p → next.AllWoken p := by
    intro hx u w hu hw
    obtain ⟨hall, hawake⟩ := h.tells hx
    rw [hslot, hall]
    by_cases hut : u = t
    · subst hut
      exact absurd (Option.some.inj (hself.symm.trans hu)) (hawake w)
    · exact (ha.listed u (.parked w) ((hother u hut).symm.trans hu) hw).woken
  constructor
  · intro u z hu hz
    rw [hslot]
    by_cases hut : u = t
    · subst hut
      obtain rfl : y = z := Option.some.inj (hself.symm.trans hu)
      exact h.enlisted (ha.listed u x ht) hz
    · exact (h.others hut).1 (ha.listed u z ((hother u hut).symm.trans hu) hz)
  · intro hvalue
    rw [hslot] at hvalue
    rcases h.filled hvalue with hfull | rfl
    · rcases ha.filled hfull with ⟨u, hu⟩ | hall
      · by_cases hut : u = t
        · subst hut
          obtain rfl : x = .announcing p := Option.some.inj (ht.symm.trans hu)
          exact Or.inr (htold rfl)
        · exact Or.inl ⟨u, (hother u hut).trans hu⟩
      · exact Or.inr (hwoken (Or.inr hvalue) hall)
    · exact Or.inl ⟨t, hself⟩
  · intro hclosed
    rw [hslot] at hclosed
    rcases h.closed hclosed with hshut | ⟨rest, rfl⟩
    · rcases ha.closed hshut with ⟨u, rest, hu⟩ | hall
      · by_cases hut : u = t
        · subst hut
          obtain rfl : x = .rousing p rest := Option.some.inj (ht.symm.trans hu)
          exact Or.inr (htold rfl)
        · exact Or.inl ⟨u, rest, (hother u hut).trans hu⟩
      · exact Or.inr (hwoken (Or.inl hclosed) hall)
    · exact Or.inl ⟨t, rest, hself⟩

/-- No step leaves a sleeper behind at a slot that is made. -/
theorem Attended.step (ha : s.Attended p) (hmade : p < s.made) (e : Event α) :
    (s.step e).Attended p := by
  have hview := s.step_view e hmade
  generalize s.step e = next, s.notes e = notes at hview ⊢
  cases hview with
  | rests hblocked hslot htasks hnotes =>
      constructor
      · rw [hslot, htasks]
        exact ha.listed
      · rw [hslot, AllWoken, hslot, htasks]
        exact ha.filled
      · rw [hslot, AllWoken, hslot, htasks]
        exact ha.closed
  | begins he ht hslot htasks hnotes =>
      apply ha.keep hslot htasks (by simp [Stage.midst?])
      intro x hx
      rw [ht] at hx
      cases hx
  | @away t x y he ht hx hact hslot htasks =>
      apply ha.keep hslot htasks (hact.midst hx)
      intro z hz
      obtain rfl : x = z := Option.some.inj (ht.symm.trans hz)
      exact fun hmidst => hx (Stage.faces_of_midst hmidst)
  | turns he ht hturn hslot htasks hnotes => exact ha.turn ht hturn hslot htasks

/-- A step that makes a slot leaves nobody behind there. -/
theorem Sound.attended_made (hs : s.Sound) (e : Event α) (hold : ¬ p < s.made)
    (hmade : p < (s.step e).made) : (s.step e).Attended p := by
  have hchange := s.step_change e
  generalize s.step e = next, s.notes e = notes at hchange hmade ⊢
  have hlast : p < s.made + 1 → p = s.made :=
    fun h => Nat.eq_of_lt_succ_of_not_lt h hold
  cases hchange with
  | rests now hblocked hbegun => exact absurd hmade hold
  | begins he ht => exact absurd hmade hold
  | acts he ht h =>
      cases h with
      | opens he' hclosed hfind h =>
          obtain rfl := hlast hmade
          exact hs.attended_new (assign_self _ _ _) rfl (by cases h <;> rfl)
      | makes he' =>
          obtain rfl := hlast hmade
          exact hs.attended_new (assign_self _ _ _) rfl rfl
      | _ => exact absurd hmade hold

/-- In the states that can be reached, nobody sleeps whom nobody will wake. -/
theorem Reachable.attended (h : s.Reachable) : ∀ p < s.made, s.Attended p := by
  induction h with
  | empty => exact fun p hp => absurd hp (Nat.not_lt_zero p)
  | @step s e h he ih =>
      intro p hp
      by_cases hold : p < s.made
      · exact (ih p hold).step hold e
      · exact h.sound.attended_made e hold hp

end State

/-- In a state that can be reached, while no task stands between the change of a slot and the wake-up
for it: if the slot is closed or holds a value, every task that sleeps there has been woken. -/
theorem no_lost_wakeup {s : State α} (h : s.Reachable) {p : SlotId}
    (hquiet : ∀ t x, s.tasks t = some x → ¬ x.Telling p)
    (hready : (s.slots p).closed = true ∨ (s.slots p).value ≠ none) {t : TaskId} {w : Wait}
    (ht : s.tasks t = some (.parked w)) (hw : w.slot = p) :
    (s.slots p).hasWoken t = true ∧ s.canProceed t = true := by
  have hmade : p < s.made := h.sound.held t (.parked w) p ht hw
  have ha := h.attended p hmade
  have hall : s.AllWoken p := by
    rcases hready with hclosed | hvalue
    · rcases ha.closed hclosed with ⟨u, rest, hu⟩ | hall
      · exact absurd rfl (hquiet u _ hu)
      · exact hall
    · rcases ha.filled hvalue with ⟨u, hu⟩ | hall
      · exact absurd rfl (hquiet u _ hu)
      · exact hall
  have hwoken := hall t w ht hw
  refine ⟨hwoken, ?_⟩
  simpa [State.canProceed, ht, hw] using hwoken

/-- Two pops sleep when a value goes in, and both are woken. The second takes the value; the first
finds the slot empty, registers again and sleeps. Then another value goes in. -/
def wokenTwice : List (Event Nat) :=
  [.spawn 1 (.slotPop 0), .proceed 1, .proceed 1, .proceed 1,
    .spawn 2 (.slotPop 0), .proceed 2, .proceed 2, .proceed 2,
    .spawn 3 (.slotPush 0 7), .proceed 3, .proceed 3, .proceed 3,
    .proceed 1, .proceed 2, .proceed 2, .proceed 2, .proceed 1, .proceed 1,
    .spawn 4 (.slotPush 0 8), .proceed 4, .proceed 4, .proceed 4]

/-- The state with one new slot in which that run starts. -/
def oneSlot : State Nat := State.empty.run [.spawn 0 .slotNew, .proceed 0]

theorem reachable_oneSlot : oneSlot.Reachable :=
  State.Reachable.empty.run _ (by simp [Event.Known, Call.slot?])

theorem no_lost_wakeup_twice :
    (oneSlot.run wokenTwice).tasks 1 = some (.parked ⟨.pop, 0, none⟩) ∧
      ((oneSlot.run wokenTwice).slots 0).value = some 8 ∧
      ((oneSlot.run wokenTwice).slots 0).hasWoken 1 = true := by
  have hreach : (oneSlot.run wokenTwice).Reachable := by
    apply reachable_oneSlot.run
    simp [wokenTwice, Event.Known, Call.slot?, oneSlot, State.run, State.step, State.act,
      State.proceed, State.start, State.make, State.goto, State.empty]
  have hquiet : ∀ t x, (oneSlot.run wokenTwice).tasks t = some x → ¬ x.Telling 0 := by
    intro t x ht
    rcases t with _ | _ | _ | _ | _ | n
    case succ.succ.succ.succ.succ =>
      have hnone : (oneSlot.run wokenTwice).tasks (n + 5) = none :=
        State.run_unbegun rfl wokenTwice (by simp [wokenTwice, callOf, Event.asks?])
      cases hnone.symm.trans ht
    all_goals
      cases ht
      exact id
  have hvalue : ((oneSlot.run wokenTwice).slots 0).value = some 8 := rfl
  exact ⟨rfl, hvalue, (no_lost_wakeup hreach hquiet (Or.inr (by simp [hvalue])) rfl rfl).1⟩

end AmqpDelivery.Rendezvous
