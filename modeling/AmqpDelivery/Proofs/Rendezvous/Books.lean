import AmqpDelivery.Proofs.Rendezvous.Ledger

/-!
# The books of a connection

A connection hands out its numbers in order, so that no two requests have the same one as long as
fewer are taken than there are (`Few`). With that, every step on a connection keeps its books
(`Line.Books.step`), and so does every run (`Line.Books.run`).
-/

namespace AmqpDelivery.Rendezvous

variable {α : Type} {h : List (LineNote α)} {t r : TaskId}

/-- The first numbers that a connection hands out. -/
def numbersUpTo (n : Nat) : List UInt64 := (List.range n).map fun k => UInt64.ofNat (k + 1)

theorem numbersUpTo_succ (n : Nat) :
    numbersUpTo (n + 1) = numbersUpTo n ++ [UInt64.ofNat (n + 1)] := by
  simp [numbersUpTo, List.range_succ]

theorem nodup_numbersUpTo {n : Nat} (hn : n < UInt64.size) : (numbersUpTo n).Nodup := by
  refine List.pairwise_map.mpr ?_
  refine List.Pairwise.imp_of_mem ?_ List.nodup_range
  intro i j hi hj hij heq
  have hi' := List.mem_range.mp hi
  have hj' := List.mem_range.mp hj
  have hnat : (UInt64.ofNat (i + 1)).toNat = (UInt64.ofNat (j + 1)).toNat := by rw [heq]
  rw [UInt64.toNat_ofNat_of_lt' (by omega), UInt64.toNat_ofNat_of_lt' (by omega)] at hnat
  omega

namespace Line

/-- The state of a connection and its history agree. -/
structure Books (l : Line α) (h : List (LineNote α)) : Prop where
  ledger : Ledger l.desk h
  numbers : numbersOf h = numbersUpTo (numbersOf h).length
  next : l.nextId = UInt64.ofNat ((numbersOf h).length + 1)

theorem books_empty : Books ({} : Line α) [] where
  ledger :=
    { fits := by intro t x ht; cases ht
      filing :=
        { filed := by intro id slot hf; cases hf
          made := by simp
          opened := by simp
          unique := by simp
          untouched := by intro slot hslot; rfl }
      begun := by simp
      once := List.nodup_nil
      returned := by intro before t value after heq; simp at heq }
  numbers := rfl
  next := rfl

variable {l : Line α}

theorem Books.nodup (hb : Books l h) (hfew : Few h) :
    (numbersOf h).Nodup := by
  rw [hb.numbers]
  exact nodup_numbersUpTo hfew

/-- A step that hands out no number. -/
theorem Books.keep {k : List (LineNote α)} {next : State α} (hb : Books l h)
    (hk : numbersOf k = []) (hl : Ledger next (h ++ k)) :
    Books { l with desk := next } (h ++ k) := by
  have hnumbers : numbersOf (h ++ k) = numbersOf h := by
    rw [numbersOf_append, hk, List.append_nil]
  refine ⟨hl, ?_, ?_⟩
  · rw [hnumbers]
    exact hb.numbers
  · rw [hnumbers]
    exact hb.next

theorem step_spawn_of_some {s : State α} {x : Stage α} {call : Call α} (ht : s.tasks t = some x) :
    s.step (.spawn t call) = s := by
  simp [State.step, ht]

/-- A request takes the next number, under which no slot was opened. -/
theorem Books.request (hb : Books l h) (ht : l.desk.tasks t = none) (ms : Nat)
    (hfew : Few (h ++ [.requested t l.nextId])) :
    Books { l.apply (.spawn t (.request l.nextId ms)) with nextId := l.nextId + 1 }
      (h ++ [.requested t l.nextId]) := by
  have happend : numbersOf (h ++ [.requested t l.nextId]) = numbersOf h ++ [l.nextId] := by
    rw [numbersOf_append]
    rfl
  have hnumbers : numbersOf (h ++ [.requested t l.nextId]) =
      numbersUpTo ((numbersOf h).length + 1) := by
    rw [happend, numbersUpTo_succ, ← hb.numbers, hb.next]
  have hlength : (numbersOf (h ++ [.requested t l.nextId])).length =
      (numbersOf h).length + 1 := by
    rw [happend, List.length_append, List.length_singleton]
  have hnodup : (numbersOf (h ++ [.requested t l.nextId])).Nodup := by
    rw [hnumbers]
    exact nodup_numbersUpTo (hlength ▸ hfew)
  refine ⟨?_, ?_, ?_⟩
  · refine hb.ledger.begin ht (Or.inr ⟨_, rfl, rfl⟩) ⟨by simp, ?_⟩
    -- whoever opened the number took it before, and then it would be taken twice
    intro u slot hu
    have hold : .desk (.located u l.nextId slot) ∈ h := by simpa using hu
    obtain ⟨o, ho⟩ := hb.ledger.filing.opened u l.nextId slot hold
    have hmem : l.nextId ∈ numbersOf h := List.mem_filterMap.mpr ⟨_, ho.requested, rfl⟩
    rw [happend, List.nodup_append] at hnodup
    exact hnodup.2.2 _ hmem _ (List.mem_singleton.mpr rfl) rfl
  · rw [hlength]
    exact hnumbers
  · show l.nextId + 1 = _
    rw [hlength, hb.next]
    simp [UInt64.ofNat_add]

/-- A task begins that takes no number; if it is there already, nothing happens. -/
theorem Books.spawn (call : Call α) (hb : Books l h) (hcall : (Stage.ready call).Fits h l.desk t) :
    Books (l.apply (.spawn t call)) h := by
  cases ht : l.desk.tasks t with
  | none =>
      have hl := hb.ledger.begin ht (Or.inl rfl) (by simpa using hcall)
      simpa [apply] using hb.keep rfl hl
  | some x =>
      have hsame : l.apply (.spawn t call) = l := by simp [apply, step_spawn_of_some ht]
      rw [hsame]
      exact hb

/-- Something happens at the rendezvous. -/
theorem Books.within (hb : Books l h) (hfew : Few h) (e : Event α)
    (hspawn : ∀ t call, e ≠ .spawn t call) :
    Books (l.apply e) (h ++ (l.desk.notes e).map .desk) := by
  refine hb.keep (numbersOf_desk _) ?_
  have hline : ∀ t x, l.desk.tasks t = some x → x.OnLine := fun t x ht =>
    (hb.ledger.fits t x ht).onLine
  rcases State.step_move hline e hspawn with ⟨now, hstep, hnotes⟩ | ⟨t, x, -, ht, hmove⟩
  · rw [hstep, hnotes, List.map_nil, List.append_nil]
    exact hb.ledger.advance now
  · exact hb.ledger.move (hb.nodup hfew) ht hmove

/-- Every step on a connection keeps its books. -/
theorem Books.step (hb : Books l h) (e : LineEvent α)
    (hfew : Few (h ++ l.notes e)) :
    Books (l.step e) (h ++ l.notes e) := by
  cases e with
  | call t ms =>
      cases ht : l.desk.tasks t with
      | some x => simpa [Line.step, call, notes, ht] using hb
      | none =>
          cases hlive : l.live with
          | false => simpa [Line.step, call, notes, ht, hlive] using hb.spawn .decline trivial
          | true =>
              simp only [notes, ht, hlive] at hfew
              simpa [Line.step, call, notes, ht, hlive] using hb.request ht ms hfew
  | reply t properties value =>
      cases ht : l.desk.tasks t with
      | some x =>
          simpa [Line.step, notes, ht, apply, step_spawn_of_some ht] using hb
      | none =>
          have hcall : (Stage.ready (.route (correlationId? properties) value)).Fits
              (h ++ [.arrived t (correlationId? properties) value]) l.desk t := by
            cases hid : correlationId? properties with
            | none => trivial
            | some id => exact List.mem_append_right h (List.mem_singleton.mpr rfl)
          have hl := hb.ledger.begin ht (Or.inr ⟨_, rfl, rfl⟩) hcall
          simpa [Line.step, notes, ht, apply] using hb.keep rfl hl
  | lose =>
      have hlose : Books { l with live := false } h := ⟨hb.ledger, hb.numbers, hb.next⟩
      simpa [Line.step, notes] using hlose
  | closeAll t => simpa [Line.step, notes] using hb.spawn .closeAll trivial
  | within e =>
      cases e with
      | spawn t call => simpa [Line.step, notes] using hb
      | _ => exact hb.within hfew.of_append _ (by simp)

/-- Every run on a connection keeps its books. -/
theorem Books.run (hb : Books l h) (events : List (LineEvent α))
    (hfew : Few (h ++ l.history events)) :
    Books (l.run events) (h ++ l.history events) := by
  induction events generalizing l h with
  | nil => simpa [Line.run, history] using hb
  | cons e events ih =>
      have hsplit : h ++ l.history (e :: events) =
          (h ++ l.notes e) ++ (l.step e).history events := by
        simp [history]
      rw [hsplit] at hfew ⊢
      exact ih (hb.step e hfew.of_append) hfew

end Line

end AmqpDelivery.Rendezvous
