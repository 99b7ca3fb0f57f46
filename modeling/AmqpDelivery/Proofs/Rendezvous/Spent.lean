import AmqpDelivery.Proofs.Rendezvous.Ledger

/-!
# Slots that can answer no request any more

A request waits at a slot from its making until it takes the reply (`State.Awaits`). A slot that is
there and that no request waits at is dead, and stays so (`Ledger.dead_move`). A slot that holds a
reply, is closed or is dead is spent: what is put into it later reaches no request, and that does
not change either (`Ledger.spent_move`).
-/

namespace AmqpDelivery.Rendezvous

variable {α : Type} {s next : State α} {h : List (LineNote α)} {t u : TaskId} {x y : Stage α}
  {slot : SlotId}

/-- A task at the stage may still take a value out of the slot. -/
def State.Awaits (s : State α) (slot : SlotId) : Stage α → Prop
  | .publishing id _ | .seeking id _ => s.find? id = some slot
  | .listening w | .checking w | .parked w => w.slot = slot
  | _ => False

/-- The slot is there, and no task may take a value out of it. -/
structure State.Dead (s : State α) (slot : SlotId) : Prop where
  made : slot < s.made
  idle : ∀ t x, s.tasks t = some x → ¬ s.Awaits slot x

/-- The slot is there, and what is put in from now on is taken out by no task. -/
structure State.Spent (s : State α) (slot : SlotId) : Prop where
  made : slot < s.made
  useless : (s.slots slot).value ≠ none ∨ (s.slots slot).closed = true ∨ s.Dead slot

/-- The number of a request that has made its slot and has not returned. -/
def Stage.pending? : Stage α → Option UInt64
  | .publishing id _ | .seeking id _ | .overdue id _ | .leaving id _ => some id
  | .listening w | .checking w | .parked w => w.id?
  | _ => none

/-- A request with the number is pending. -/
def State.Pending (s : State α) (id : UInt64) : Prop :=
  ∃ t x, s.tasks t = some x ∧ x.pending? = some id

/-- A task waits at no slot but the one that it opened under its number. -/
theorem Ledger.opened_of_awaits (hl : Ledger s h) (ht : s.tasks t = some x)
    (hx : s.Awaits slot x) : ∃ id, x.pending? = some id ∧ Opened h t id slot := by
  have hfits := hl.fits t x ht
  cases x with
  | publishing id ms | seeking id ms =>
      obtain ⟨own, hw⟩ := hfits
      -- what is filed under the number is the slot that the request made
      obtain ⟨v, hv⟩ := hl.filing.filed id slot hx
      obtain rfl : own = slot := hl.filing.unique t v id own slot hw.opened.located hv
      exact ⟨id, rfl, hw.opened⟩
  | listening w | checking w | parked w =>
      obtain ⟨id, hcaller, hw⟩ := hfits
      obtain rfl : w.slot = slot := hx
      exact ⟨id, by simp [Stage.pending?, Wait.id?, hcaller], hw.opened⟩
  | _ => exact hx.elim

/-- One request at most waits at a slot. -/
theorem Ledger.awaits_unique {z : Stage α} (hl : Ledger s h) (ht : s.tasks t = some x)
    (hu : s.tasks u = some z) (hx : s.Awaits slot x) (hz : s.Awaits slot z) : u = t := by
  obtain ⟨id, -, ho⟩ := hl.opened_of_awaits ht hx
  obtain ⟨i, -, ho'⟩ := hl.opened_of_awaits hu hz
  exact (ho.unique ho').1

/-- A slot that was found under a number is dead unless a request with the number is pending. -/
theorem Ledger.dead_of_not_pending {id : UInt64} (hl : Ledger s h)
    (hlocated : .desk (.located u id slot) ∈ h) (hpending : ¬ s.Pending id) : s.Dead slot where
  made := hl.filing.made u id slot hlocated
  idle := by
    intro t x ht hx
    obtain ⟨i, hi, ho⟩ := hl.opened_of_awaits ht hx
    obtain ⟨v, hv⟩ := hl.filing.opened u id slot hlocated
    obtain rfl : id = i := (ho.unique hv).2
    exact hpending ⟨t, x, ht, hi⟩

theorem State.Awaits.mono (hfind : ∀ id, next.find? id = some slot → s.find? id = some slot)
    (hx : next.Awaits slot x) : s.Awaits slot x := by
  cases x with
  | publishing id ms | seeking id ms => exact hfind id hx
  | listening w | checking w | parked w => exact hx
  | _ => exact hx.elim

theorem Stage.Follows.awaits (hf : x.Follows y) (hy : s.Awaits slot y) : s.Awaits slot x := by
  cases hf with
  | blank hblank =>
      -- no stage is blank and waits
      cases y <;> first | exact hy.elim | exact hblank.elim
  | published id ms => exact hy
  | registered w => exact hy
  | empty w => exact hy
  | woken w => exact hy
  | left id result => exact hy.elim

/-- A task that moves waits afterwards at no older slot but the one it waited at before. -/
theorem Ledger.move_awaits {notes : List (Note α)} (hl : Ledger s h) (ht : s.tasks t = some x)
    (hm : Move s t x next notes) (hmade : slot < s.made) :
    next = s ∨ ∃ y, next.tasks = assign s.tasks t (some y) ∧
      (∀ id, next.find? id = some slot → s.find? id = some slot) ∧
      (next.Awaits slot y → s.Awaits slot x) := by
  cases hm with
  | @quiet _ y _ hfollows hstill =>
      have hfind : ∀ id, next.find? id = some slot → s.find? id = some slot :=
        fun id => hstill.find id slot
      exact Or.inr ⟨y, hstill.tasks, hfind, fun hy => hfollows.awaits (hy.mono hfind)⟩
  | opens id ms hfind =>
      have hnew : ∀ i, (s.opened t id ms).find? i = some slot → s.find? i = some slot := by
        intro i hi
        rw [find?_opened] at hi
        split at hi
        · cases hi
          exact absurd hmade (Nat.lt_irrefl _)
        · exact hi
      refine Or.inr ⟨.publishing id ms, rfl, hnew, ?_⟩
      -- the request waits at the new slot, which is not an older one
      intro hy
      have hold : s.find? id = some slot := hnew id hy
      rw [hfind] at hold
      cases hold
  | @finds id found _ y hfind hfinds =>
      refine Or.inr ⟨y, rfl, fun _ hf => hf, ?_⟩
      intro hy
      cases hfinds with
      | request ms =>
          obtain ⟨-, hunopened⟩ := hl.fits t _ ht
          obtain ⟨v, hv⟩ := hl.filing.filed id found hfind
          exact absurd hv (hunopened v found)
      | reply value => exact hy.elim
      | wait ms deadline =>
          obtain rfl : found = slot := hy
          exact hfind
  | stores hclosed hvalue => exact Or.inr ⟨_, rfl, fun _ hf => hf, fun hy => hy.elim⟩
  | takes hcaller hvalue => exact Or.inr ⟨_, rfl, fun _ hf => hf, fun hy => hy.elim⟩

/-- A dead slot stays dead. -/
theorem Ledger.dead_move {notes : List (Note α)} (hl : Ledger s h) (ht : s.tasks t = some x)
    (hm : Move s t x next notes) (hdead : s.Dead slot) : next.Dead slot := by
  refine ⟨Nat.lt_of_lt_of_le hdead.made hm.made_le, ?_⟩
  intro u z hu hz
  rcases hl.move_awaits ht hm hdead.made with rfl | ⟨y, htasks, hfind, hy⟩
  · exact hdead.idle u z hu hz
  · rw [htasks] at hu
    by_cases hut : u = t
    · rw [hut, assign_self] at hu
      cases hu
      exact hdead.idle t x ht (hy hz)
    · rw [assign_of_ne hut] at hu
      exact hdead.idle u z hu (hz.mono hfind)

/-- The request that takes a reply out was the only one that waited at the slot. -/
theorem Ledger.dead_emptied {w : Wait} (hl : Ledger s h) (ht : s.tasks t = some (.checking w))
    (hw : w.slot = slot) (hmade : slot < s.made) (id : UInt64) (value : α) :
    (s.emptied t w id value).Dead slot where
  made := hmade
  idle := by
    intro u z hu hz
    have htasks : (s.emptied t w id value).tasks =
        assign s.tasks t (some (.leaving id (.ok value))) := rfl
    rw [htasks] at hu
    by_cases hut : u = t
    · rw [hut, assign_self] at hu
      cases hu
      exact hz.elim
    · rw [assign_of_ne hut] at hu
      have hz' : s.Awaits slot z := hz.mono fun _ hf => hf
      exact hut (hl.awaits_unique ht hu hw hz')

/-- A spent slot stays spent. A reply that was taken out of it was taken by the only request that
waited there. -/
theorem Ledger.spent_move {notes : List (Note α)} (hl : Ledger s h) (ht : s.tasks t = some x)
    (hm : Move s t x next notes) (hspent : s.Spent slot) : next.Spent slot := by
  refine ⟨Nat.lt_of_lt_of_le hspent.made hm.made_le, ?_⟩
  rcases hspent.useless with hvalue | hclosed | hdead
  · rcases hm.value hspent.made hvalue with hsame | ⟨w, rfl, hw, id, value, rfl⟩
    · exact Or.inl (hsame ▸ hvalue)
    -- the value is gone, and with it the request that could take another
    · exact Or.inr (Or.inr (hl.dead_emptied ht hw hspent.made id value))
  · exact Or.inr (Or.inl (hm.closed hspent.made hclosed))
  · exact Or.inr (Or.inr (hl.dead_move ht hm hdead))

/-- A slot that is not touched stays spent if it stays dead. -/
theorem State.Spent.keep (hspent : s.Spent slot) (hmade : next.made = s.made)
    (hslot : next.slots slot = s.slots slot) (hdead : s.Dead slot → next.Dead slot) :
    next.Spent slot where
  made := hmade ▸ hspent.made
  useless := by
    rw [hslot]
    exact hspent.useless.imp_right fun h => h.imp_right hdead

/-- A task that begins waits at no slot yet. -/
theorem State.Dead.begin (hdead : s.Dead slot) (t : TaskId) (call : Call α) :
    (s.goto t (.ready call)).Dead slot := by
  refine ⟨hdead.made, ?_⟩
  intro u z hu hz
  have htasks : (s.goto t (.ready call)).tasks = assign s.tasks t (some (.ready call)) := rfl
  rw [htasks] at hu
  by_cases hut : u = t
  · rw [hut, assign_self] at hu
    cases hu
    exact hz.elim
  · rw [assign_of_ne hut] at hu
    exact hdead.idle u z hu (hz.mono fun _ hf => hf)

end AmqpDelivery.Rendezvous
