import AmqpDelivery.Proofs.Rendezvous.Facing

/-!
# The states that a rendezvous can be in

Whoever names a slot has it at hand, so the slot is made (`Event.Known`). In the states that are
reached by such events the tasks and the file of ids know no slot that is not made
(`State.Reachable.sound`), so that nobody waits at a slot before it is made.
-/

namespace AmqpDelivery.Rendezvous

variable {α : Type}

/-- The slot at hand that a call is about. -/
def Call.slot? : Call α → Option SlotId
  | .slotPush p _ | .slotPop p | .slotClose p => some p
  | _ => none

/-- The event names no slot but one of the first `made`. -/
def Event.Known (made : Nat) : Event α → Prop
  | .spawn _ call => ∀ p, call.slot? = some p → p < made
  | _ => True

/-- A state that is reached from the empty one. -/
inductive State.Reachable : State α → Prop
  | empty : Reachable .empty
  | step {s : State α} {e : Event α} (h : Reachable s) (he : e.Known s.made) : Reachable (s.step e)

/-- The task will come to the slot, or is there. -/
def Stage.Holds (p : SlotId) : Stage α → Prop
  | .ready call => call.slot? = some p
  | .storing q _ | .announcing q => q = p
  | .shutting slots => p ∈ slots
  | .rousing q rest => q = p ∨ p ∈ rest
  | .listening w | .checking w | .parked w => w.slot = p
  | _ => False

/-- All slots that the tasks hold or that are filed are made. -/
structure State.Sound (s : State α) : Prop where
  held : ∀ t x p, s.tasks t = some x → x.Holds p → p < s.made
  filed : ∀ id p, (id, p) ∈ s.index → p < s.made

section Acts

variable {s next : State α} {p : SlotId} {e : Event α} {t : TaskId} {x y : Stage α}
  {notes : List (Note α)}

theorem Stage.holds_of_midst (hx : x.midst? = some p) : x.Holds p := by
  unfold midst? at hx
  split at hx <;> simp_all [Holds]

theorem Caller.not_holds (caller : Caller) (result : Except Failure α) :
    ¬ (caller.resolved result).Holds p := by
  cases caller <;> exact id

theorem Turn.holds {r : SlotId} {q q' : Slot α} (h : Turn r q e t x y q' notes) (hy : y.Holds p) :
    x.Holds p := by
  cases h with
  | store he hclosed hvalue => exact hy
  | shut he => exact List.mem_cons.mpr (hy.imp Eq.symm id)
  | rouse he => exact Or.inr hy
  | register he hw => exact hy
  | take he hw hclosed hvalue => exact absurd hy (Caller.not_holds _ _)
  | late he hw hclosed => exact absurd hy (Caller.not_holds _ _)
  | park he hw hclosed hvalue => exact hy
  | wake he hw hwoken => exact hy
  | _ => exact hy.elim

theorem mem_index_of_find? {id : UInt64} (hfind : s.find? id = some p) : (id, p) ∈ s.index := by
  obtain ⟨l, r, hindex, -⟩ := List.lookup_eq_some_iff.mp hfind
  simp [hindex]

/-- A task learns of a slot from the file of ids only. -/
theorem Act.holds (h : Act s e t x y next notes) (hy : y.Holds p) :
    x.Holds p ∨ ∃ id, (id, p) ∈ s.index := by
  cases h with
  | pass h =>
      cases h with
      | slotPush q value he => exact Or.inl (congrArg some hy)
      | slotPop q he => exact Or.inl (congrArg some hy)
      | slotClose q he => exact Or.inl (congrArg some (List.mem_singleton.mp hy).symm)
      | _ => exact hy.elim
  | @hit x y id slot he hclosed hfind h =>
      have hfiled := mem_index_of_find? hfind
      cases h with
      | push value => exact Or.inr ⟨id, hy ▸ hfiled⟩
      | route value => exact Or.inr ⟨id, hy ▸ hfiled⟩
      | wait timeoutMs => exact Or.inr ⟨id, hy ▸ hfiled⟩
      | seek ms => exact Or.inr ⟨id, hy ▸ hfiled⟩
      | _ => exact hy.elim
  | miss he hfind h => cases h <;> exact hy.elim
  | opens he hclosed hfind h => cases h <;> exact hy.elim
  | makes he => exact hy.elim
  | @removes x y id he h =>
      cases h with
      | close => exact Or.inr ⟨id, mem_index_of_find? (Option.mem_toList.mp hy)⟩
      | overdue caller => exact absurd hy (caller.not_holds _)
      | _ => exact hy.elim
  | clears he =>
      obtain ⟨⟨id, q⟩, hmem, rfl⟩ := List.mem_map.mp hy
      exact Or.inr ⟨id, hmem⟩
  | turns h => exact Or.inl (h.holds hy)

/-- What is filed after an act was filed before, or is the slot that was made. -/
theorem Act.filed {id : UInt64} (h : Act s e t x y next notes) (hfiled : (id, p) ∈ next.index) :
    (id, p) ∈ s.index ∨ p = s.made ∧ next.made = s.made + 1 := by
  cases h with
  | opens he hclosed hfind h =>
      rcases List.mem_cons.mp hfiled with heq | hold
      · cases heq
        exact Or.inr ⟨rfl, rfl⟩
      · exact Or.inl hold
  | removes he h => exact Or.inl (List.mem_filter.mp hfiled).1
  | clears he => cases hfiled
  | _ => exact Or.inl hfiled

end Acts

namespace State

variable {s : State α} {e : Event α}

theorem sound_empty : (empty : State α).Sound where
  held := by
    intro t x p ht
    cases ht
  filed := by
    intro id p hmem
    cases hmem

theorem Sound.step (hs : s.Sound) (he : e.Known s.made) : (s.step e).Sound := by
  have hmade := s.made_le_step e
  have hchange := s.step_change e
  generalize s.step e = next, s.notes e = notes at hchange hmade ⊢
  cases hchange with
  | rests now hblocked hbegun => exact ⟨hs.held, hs.filed⟩
  | @begins t call hspawn ht =>
      subst hspawn
      refine ⟨?_, hs.filed⟩
      intro u x p hu hx
      by_cases hut : u = t
      · subst hut
        obtain rfl : .ready call = x := by simpa [goto] using hu
        exact he p hx
      · exact hs.held u x p (by simpa [goto, hut] using hu) hx
  | @acts t x y next notes hown ht h =>
      constructor
      · intro u z p hu hz
        apply Nat.lt_of_lt_of_le _ hmade
        rw [h.tasks] at hu
        by_cases hut : u = t
        · subst hut
          obtain rfl : y = z := by simpa using hu
          rcases h.holds hz with hx | ⟨id, hmem⟩
          · exact hs.held u x p ht hx
          · exact hs.filed id p hmem
        · rw [assign_of_ne hut] at hu
          exact hs.held u z p hu hz
      · intro id p hmem
        rcases h.filed hmem with hold | ⟨rfl, hnew⟩
        · exact Nat.lt_of_lt_of_le (hs.filed id p hold) hmade
        · exact hnew ▸ Nat.lt_succ_self _

theorem known_mono {made more : Nat} (he : e.Known made) (h : made ≤ more) :
    e.Known more := by
  cases e with
  | spawn t call => exact fun p hp => Nat.lt_of_lt_of_le (he p hp) h
  | _ => trivial

/-- A run that names only slots that were made before it. -/
theorem Reachable.run (h : s.Reachable) (events : List (Event α))
    (hknown : ∀ e ∈ events, e.Known s.made) : (s.run events).Reachable := by
  induction events generalizing s with
  | nil => exact h
  | cons e events ih =>
      apply ih (h.step (hknown e List.mem_cons_self))
      intro d hd
      exact known_mono (hknown d (List.mem_cons_of_mem e hd)) (s.made_le_step e)

theorem Reachable.sound (h : s.Reachable) : s.Sound := by
  induction h with
  | empty => exact sound_empty
  | step h he ih => exact ih.step he

end State

end AmqpDelivery.Rendezvous
