import AmqpDelivery.Proofs.Rendezvous.Answers
import AmqpDelivery.Proofs.Rendezvous.Moves

/-!
# The file of ids and its history

Every slot that a task ever came to was made by one request under its own number, and every number
has one slot (`Filing`). A request waits at its slot as long as nothing but the first reply was put
in there (`Waiting`); when it takes that reply out, it is answered (`Waiting.takes`).
-/

namespace AmqpDelivery.Rendezvous

variable {α : Type} {s next : State α} {h : List (LineNote α)} {t r : TaskId} {id : UInt64}
  {slot : SlotId} {value : α}

/-- No task has come to a slot of the number yet. -/
def Unopened (h : List (LineNote α)) (id : UInt64) : Prop :=
  ∀ u slot, .desk (.located u id slot) ∉ h

theorem unopened_desk {n : Note α} (hn : ∀ u i p, n ≠ .located u i p) (id : UInt64) :
    Unopened [.desk n] id := by
  intro u slot hu
  have heq : LineNote.desk (.located u id slot) = .desk n := List.mem_singleton.mp hu
  exact hn u id slot (LineNote.desk.inj heq).symm

/-- What the history tells of the slots and the file of ids. -/
structure Filing (s : State α) (h : List (LineNote α)) : Prop where
  /-- A slot is filed only if a task has come to it. -/
  filed : ∀ id slot, s.find? id = some slot → ∃ u, .desk (.located u id slot) ∈ h
  made : ∀ u id slot, .desk (.located u id slot) ∈ h → slot < s.made
  opened : ∀ u id slot, .desk (.located u id slot) ∈ h → ∃ t, Opened h t id slot
  unique : ∀ u v id slot other, .desk (.located u id slot) ∈ h →
    .desk (.located v id other) ∈ h → slot = other
  /-- Nothing was put into a slot that is not there. -/
  untouched : ∀ slot, s.made ≤ slot → acceptedAt slot h = []

theorem Filing.goto {stage : Stage α} (hf : Filing s h) : Filing (s.goto t stage) h :=
  ⟨hf.filed, hf.made, hf.opened, hf.unique, hf.untouched⟩

/-- What a step does to the file if no task comes to a slot in it. -/
theorem Filing.quiet (hf : Filing s h) (hmade : next.made = s.made)
    (hfind : ∀ id slot, next.find? id = some slot → s.find? id = some slot)
    {k : List (LineNote α)} (hk : ∀ id, Unopened k id)
    (haccepted : ∀ slot, s.made ≤ slot → acceptedAt slot k = []) : Filing next (h ++ k) := by
  have hmem : ∀ u id slot, .desk (.located u id slot) ∈ h ++ k → .desk (.located u id slot) ∈ h := by
    intro u id slot hu
    rcases List.mem_append.mp hu with hu | hu
    · exact hu
    · exact absurd hu (hk id u slot)
  refine ⟨?_, ?_, ?_, ?_, ?_⟩
  · intro id slot hs
    obtain ⟨u, hu⟩ := hf.filed id slot (hfind id slot hs)
    exact ⟨u, List.mem_append_left k hu⟩
  · intro u id slot hu
    rw [hmade]
    exact hf.made u id slot (hmem u id slot hu)
  · intro u id slot hu
    obtain ⟨t, ht⟩ := hf.opened u id slot (hmem u id slot hu)
    exact ⟨t, ht.append k⟩
  · intro u v id slot other hu hv
    exact hf.unique u v id slot other (hmem u id slot hu) (hmem v id other hv)
  · intro slot hslot
    rw [hmade] at hslot
    rw [acceptedAt_append, hf.untouched slot hslot, haccepted slot hslot, List.nil_append]

theorem acceptedAt_located (p : SlotId) (t : TaskId) (id : UInt64) (slot : SlotId) :
    acceptedAt p [(.desk (.located t id slot) : LineNote α)] = [] := rfl

/-- A task finds a slot that is filed. -/
theorem Filing.finds (hf : Filing s h) (hfind : s.find? id = some slot) (t : TaskId) :
    Filing s (h ++ [.desk (.located t id slot)]) := by
  obtain ⟨w, hw⟩ := hf.filed id slot hfind
  -- the new note tells nothing that an earlier one of the same slot and id does not tell
  have hmem : ∀ u i p, .desk (.located u i p) ∈ h ++ [.desk (.located t id slot)] →
      ∃ v, .desk (.located v i p) ∈ h := by
    intro u i p hu
    rcases List.mem_append.mp hu with hu | hu
    · exact ⟨u, hu⟩
    · cases List.mem_singleton.mp hu
      exact ⟨w, hw⟩
  refine ⟨?_, ?_, ?_, ?_, ?_⟩
  · intro i p hp
    obtain ⟨u, hu⟩ := hf.filed i p hp
    exact ⟨u, List.mem_append_left _ hu⟩
  · intro u i p hu
    obtain ⟨v, hv⟩ := hmem u i p hu
    exact hf.made v i p hv
  · intro u i p hu
    obtain ⟨v, hv⟩ := hmem u i p hu
    obtain ⟨o, ho⟩ := hf.opened v i p hv
    exact ⟨o, ho.append _⟩
  · intro u v i p q hu hv
    obtain ⟨u', hu'⟩ := hmem u i p hu
    obtain ⟨v', hv'⟩ := hmem v i q hv
    exact hf.unique u' v' i p q hu' hv'
  · intro p hp
    rw [acceptedAt_append, hf.untouched p hp, acceptedAt_located, List.nil_append]

theorem find?_opened (s : State α) (t : TaskId) (id i : UInt64) (ms : Nat) :
    (s.opened t id ms).find? i = if i = id then some s.made else s.find? i := by
  show List.lookup i ((id, s.made) :: s.index) = _
  rw [List.lookup_cons]
  by_cases hi : i = id
  · simp [hi]
  · simp [hi, beq_eq_false_iff_ne.mpr hi, State.find?]

/-- The new slot is one that no task has come to. -/
theorem Filing.locatedAt_made (hf : Filing s h) : locatedAt s.made h = [] := by
  rw [List.eq_nil_iff_forall_not_mem]
  rintro ⟨u, i⟩ hu
  have hlt := hf.made u i s.made (mem_locatedAt.mp hu)
  exact Nat.lt_irrefl _ hlt

/-- The slot that a request makes was made by it. -/
theorem Filing.opened_new (hf : Filing s h) (hrequested : .requested t id ∈ h) :
    Opened (h ++ [.desk (.located t id s.made)]) t id s.made where
  requested := List.mem_append_left _ hrequested
  first := by
    rw [locatedAt_append, hf.locatedAt_made]
    simp [locatedAt]

/-- A request makes its slot, and no task has come to a slot of its number before. -/
theorem Filing.opens (hf : Filing s h) (hnew : Unopened h id) (hrequested : .requested t id ∈ h)
    (ms : Nat) : Filing (s.opened t id ms) (h ++ [.desk (.located t id s.made)]) := by
  have hmem : ∀ u i p, .desk (.located u i p) ∈ h ++ [.desk (.located t id s.made)] →
      .desk (.located u i p) ∈ h ∨ (u = t ∧ i = id ∧ p = s.made) := by
    intro u i p hu
    rcases List.mem_append.mp hu with hu | hu
    · exact Or.inl hu
    · cases List.mem_singleton.mp hu
      exact Or.inr ⟨rfl, rfl, rfl⟩
  refine ⟨?_, ?_, ?_, ?_, ?_⟩
  · intro i p hp
    rw [find?_opened] at hp
    split at hp
    -- the number of the request, which is filed with its new slot
    · cases hp
      subst i
      exact ⟨t, List.mem_append_right h (List.mem_singleton.mpr rfl)⟩
    · obtain ⟨u, hu⟩ := hf.filed i p hp
      exact ⟨u, List.mem_append_left _ hu⟩
  · intro u i p hu
    show p < s.made + 1
    rcases hmem u i p hu with hu | ⟨-, -, rfl⟩
    · exact Nat.lt_succ_of_lt (hf.made u i p hu)
    · exact Nat.lt_succ_self _
  · intro u i p hu
    rcases hmem u i p hu with hu | ⟨-, rfl, rfl⟩
    · obtain ⟨o, ho⟩ := hf.opened u i p hu
      exact ⟨o, ho.append _⟩
    · exact ⟨t, hf.opened_new hrequested⟩
  · intro u v i p q hu hv
    rcases hmem u i p hu with hpast | ⟨-, hi, hp⟩
    -- an old slot and a new one cannot both be of the number, since it had none
    · rcases hmem v i q hv with hpast' | ⟨-, hi, -⟩
      · exact hf.unique u v i p q hpast hpast'
      · exact absurd (hi ▸ hpast) (hnew u p)
    · rcases hmem v i q hv with hpast | ⟨-, -, hq⟩
      · exact absurd (hi ▸ hpast) (hnew v q)
      · rw [hp, hq]
  · intro p hp
    have hmade : s.made ≤ p := Nat.le_of_succ_le hp
    rw [acceptedAt_append, hf.untouched p hmade, acceptedAt_located, List.nil_append]

/-- A request waits at its slot: nothing was put in yet, or the first reply is still there. -/
structure Waiting (h : List (LineNote α)) (s : State α) (t : TaskId) (id : UInt64)
    (slot : SlotId) : Prop where
  opened : Opened h t id slot
  fresh : ((s.slots slot).value = none ∧ acceptedAt slot h = []) ∨
    ∃ r value, (s.slots slot).value = some value ∧ acceptedAt slot h = [(r, value)] ∧
      Reached h t id slot r value [.stored r slot value]

theorem Waiting.quiet (hw : Waiting h s t id slot)
    (hvalue : (next.slots slot).value = (s.slots slot).value) {k : List (LineNote α)}
    (hk : acceptedAt slot k = []) : Waiting (h ++ k) next t id slot where
  opened := hw.opened.append k
  fresh := by
    rw [hvalue, acceptedAt_append, hk, List.append_nil]
    rcases hw.fresh with hempty | ⟨r, value, hv, haccepted, hreached⟩
    · exact Or.inl hempty
    · exact Or.inr ⟨r, value, hv, haccepted, hreached.append k⟩

theorem acceptedAt_stored_self (r : TaskId) (slot : SlotId) (value : α) :
    acceptedAt slot [.desk (.stored r slot value)] = [(r, value)] := by
  simp [acceptedAt]

theorem acceptedAt_stored_of_ne {other : SlotId} (hne : slot ≠ other) (r : TaskId) (value : α) :
    acceptedAt slot [.desk (.stored r other value)] = [] := by
  simp [acceptedAt, hne.symm]

/-- A reply is put into some slot. If it is the slot of the request, it is the first one there. -/
theorem Waiting.stores {u : TaskId} {i : UInt64} {other : SlotId} (hw : Waiting h s t id slot)
    (hreached : Reached h u i other r value []) (hempty : (s.slots other).value = none) :
    Waiting (h ++ [.desk (.stored r other value)]) (s.filled r other value) t id slot := by
  by_cases hslot : slot = other
  -- the reply came to the slot of this request, where nothing was accepted so far
  · subst hslot
    obtain ⟨rfl, rfl⟩ := hw.opened.unique hreached.opened
    refine ⟨hw.opened.append _, Or.inr ⟨r, value, ?_, ?_, hreached.next _⟩⟩
    · simp [State.filled, State.modify, State.goto]
    · rcases hw.fresh with ⟨-, haccepted⟩ | ⟨r', value', hv, -⟩
      · rw [acceptedAt_append, haccepted, acceptedAt_stored_self, List.nil_append]
      · rw [hempty] at hv
        cases hv
  · refine hw.quiet ?_ (acceptedAt_stored_of_ne hslot r value)
    simp [State.filled, State.modify, State.goto, hslot]

/-- A request that takes a reply out of its slot is answered by it. -/
theorem Waiting.takes (hw : Waiting h s t id slot) (hvalue : (s.slots slot).value = some value) :
    ∃ r, Answered (h ++ [.desk (.taken t slot value)]) t id slot r value := by
  rcases hw.fresh with ⟨hnone, -⟩ | ⟨r, v, hv, haccepted, hreached⟩
  · rw [hvalue] at hnone
    cases hnone
  · obtain rfl : v = value := Option.some.inj (hv.symm.trans hvalue)
    refine ⟨r, hreached.next _, ?_⟩
    rw [acceptedAt_append, haccepted, List.cons_append, List.head?_cons]

end AmqpDelivery.Rendezvous
