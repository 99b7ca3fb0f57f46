import AmqpDelivery.Proofs.Numeral
import AmqpDelivery.Proofs.Rendezvous.Traces
import AmqpDelivery.Rendezvous.Requests

/-!
# Correlation ids are exact

The correlation id of a request comes back as its number, and a text is taken for the number of a
request just if it spells a number of 64 bits. A task that hands over a reply comes to a slot by the
number of the reply only, so the replies to two requests are never handed over at one slot
(`correlation_ids_exact`).
-/

namespace AmqpDelivery

/-- The reply carries the correlation id of the request with the number. -/
def Properties.Echoes (p : Properties) (n : UInt64) : Prop :=
  p.correlationId = some (correlationText n)

section Texts

variable {p : Properties} {s : String} {n : UInt64}

theorem Properties.Echoes.read (h : p.Echoes n) : correlationId? p = some n := by
  rw [correlationId?, h, Option.bind_some, correlationText, Decimal.readUInt64?_ofNat]

theorem correlationId?_of_text (h : p.correlationId = some s) :
    correlationId? p = Decimal.readUInt64? s := by
  rw [correlationId?, h, Option.bind_some]

end Texts

namespace Rendezvous

variable {α : Type} {es : List (Event α)} {p q : Properties} {m n : UInt64}

theorem echoes_requestProperties (n : UInt64) (replyQueue : String) :
    (requestProperties n replyQueue).Echoes n := rfl

/-- A task comes to a slot by the id only that its call is about. -/
theorem State.called_of_located {t : TaskId} {id : UInt64} {a : SlotId}
    (h : .located t id a ∈ (empty : State α).history es) :
    ∃ call, callOf t es = some call ∧ call.id? = some id := by
  induction es using List.reverseRecOn with
  | nil => cases h
  | append_singleton es e ih =>
      rcases mem_history_concat.mp h with hpast | hnew
      · obtain ⟨call, hcall, hid⟩ := ih hpast
        exact ⟨call, callOf_append hcall _, hid⟩
      · obtain ⟨u, x, y, call, hcall, -, hsuits, hnoted⟩ := noted_asked hnew
        cases hnoted with
        | found hid => exact ⟨call, callOf_append hcall _, hsuits.looksUp hid⟩
        | opened hid => exact ⟨call, callOf_append hcall _, hsuits.looksUp hid⟩

/-- A task that hands over a reply comes to a slot by the number of the reply. -/
theorem located_by_number {r : TaskId} {value : α} {id : UInt64} {a : SlotId} (hp : p.Echoes n)
    (hr : callOf r es = some (.route (correlationId? p) value))
    (ha : .located r id a ∈ (State.empty : State α).history es) : id = n := by
  obtain ⟨call, hcall, hid⟩ := State.called_of_located ha
  rw [hr, Option.some.injEq] at hcall
  subst hcall
  exact Option.some.inj (hid.symm.trans hp.read)

/-- The replies to two requests come to two slots. -/
theorem located_apart {r u : TaskId} {v w : α} {i j : UInt64} {a b : SlotId} (hne : m ≠ n)
    (hp : p.Echoes m) (hq : q.Echoes n) (hr : callOf r es = some (.route (correlationId? p) v))
    (hu : callOf u es = some (.route (correlationId? q) w))
    (ha : .located r i a ∈ (State.empty : State α).history es)
    (hb : .located u j b ∈ (State.empty : State α).history es) : a ≠ b := by
  rintro rfl
  have hi : i = m := located_by_number hp hr ha
  have hj : j = n := located_by_number hq hu hb
  have hij : i = j := (run_traced es).label r u i j a ha hb
  exact hne (hi.symm.trans (hij.trans hj))

/-- A reply that is put into a slot is put there by a task that came to the slot by its number. -/
theorem located_of_stored {r : TaskId} {v x : α} {a : SlotId} (hp : p.Echoes n)
    (hr : callOf r es = some (.route (correlationId? p) v))
    (ha : .stored r a x ∈ (State.empty : State α).history es) :
    .located r n a ∈ (State.empty : State α).history es := by
  obtain ⟨call, hcall, -, hlocated⟩ := (run_traced es).stored r a x ha
  rw [hr, Option.some.injEq] at hcall
  subst hcall
  exact hlocated n hp.read

/-- The number of a request survives the way to the reply. A correlation id is taken for `n` just if
it is a row of digits with the value `n`, after at most one plus sign, and for none just if it
spells no number below `2 ^ 64`. In every run, the replies to two requests are looked up under their
own numbers, and neither come to one slot nor are put into one. -/
theorem correlation_ids_exact :
    (∀ n replyQueue, correlationId? (requestProperties n replyQueue) = some n) ∧
    (∀ p n, p.Echoes n → correlationId? p = some n) ∧
    (∀ p s, p.correlationId = some s →
      (∀ n, correlationId? p = some n ↔ Decimal.Spells s n.toNat) ∧
      (correlationId? p = none ↔ ¬ ∃ n < UInt64.size, Decimal.Spells s n)) ∧
    (∀ p, p.correlationId = none → correlationId? p = none) ∧
    (∀ (events : List (Event α)) p q m n r u v w, m ≠ n → p.Echoes m → q.Echoes n →
      callOf r events = some (.route (correlationId? p) v) →
      callOf u events = some (.route (correlationId? q) w) →
        (∀ i a, .located r i a ∈ State.empty.history events → i = m) ∧
        (∀ i j a b, .located r i a ∈ State.empty.history events →
          .located u j b ∈ State.empty.history events → a ≠ b) ∧
        (∀ a b x y, .stored r a x ∈ State.empty.history events →
          .stored u b y ∈ State.empty.history events → a ≠ b)) := by
  refine ⟨?_, ?_, ?_, ?_, ?_⟩
  · intro n replyQueue
    exact (echoes_requestProperties n replyQueue).read
  · intro p n h
    exact h.read
  · intro p s hs
    rw [correlationId?_of_text hs]
    exact ⟨fun n => Decimal.readUInt64?_eq_some_iff, Decimal.readUInt64?_eq_none_iff⟩
  · intro p hp
    rw [correlationId?, hp, Option.bind_none]
  · intro events p q m n r u v w hne hp hq hr hu
    refine ⟨?_, ?_, ?_⟩
    · intro i a ha
      exact located_by_number hp hr ha
    · intro i j a b ha hb
      exact located_apart hne hp hq hr hu ha hb
    · intro a b x y ha hb
      exact located_apart hne hp hq hr hu (located_of_stored hp hr ha) (located_of_stored hq hu hb)

/-- Two requests make their slots, and then the replies to both come in. -/
def answeredBoth : List (Event Nat) :=
  [.spawn 0 (.request 1 5000), .spawn 1 (.request 2 5000), .proceed 0, .proceed 1,
    .spawn 2 (.route (some 1) 7), .spawn 3 (.route (some 2) 8), .proceed 3, .proceed 2, .proceed 2,
    .proceed 3]

theorem correlation_ids_exact_both :
    let first := requestProperties 1 "replies"
    let second := requestProperties 2 "replies"
    let padded : Properties := { correlationId := some "+0018446744073709551615" }
    correlationId? padded = some 18446744073709551615 ∧
      first.Echoes 1 ∧ second.Echoes 2 ∧
      callOf 2 answeredBoth = some (.route (correlationId? first) 7) ∧
      callOf 3 answeredBoth = some (.route (correlationId? second) 8) ∧
      .stored 2 0 7 ∈ State.empty.history answeredBoth ∧
      .stored 3 1 8 ∈ State.empty.history answeredBoth ∧ (0 : SlotId) ≠ 1 := by
  intro first second padded
  obtain ⟨hread, -, htext, -, happart⟩ := @correlation_ids_exact Nat
  have hspells : Decimal.Spells "+0018446744073709551615" (18446744073709551615 : UInt64).toNat :=
    ⟨"0018446744073709551615".toList, by decide, List.all_eq_true.mp rfl, Or.inr rfl, by decide⟩
  have hpadded : correlationId? padded = some 18446744073709551615 :=
    ((htext padded _ rfl).1 _).mpr hspells
  have hfirst : callOf 2 answeredBoth = some (.route (correlationId? first) 7) := by
    rw [hread]
    rfl
  have hsecond : callOf 3 answeredBoth = some (.route (correlationId? second) 8) := by
    rw [hread]
    rfl
  have hin : .stored 2 0 7 ∈ State.empty.history answeredBoth :=
    List.mem_of_getElem? (i := 4) rfl
  have hin' : .stored 3 1 8 ∈ State.empty.history answeredBoth :=
    List.mem_of_getElem? (i := 5) rfl
  obtain ⟨-, -, hstored⟩ := happart answeredBoth first second 1 2 2 3 7 8 (by decide) rfl rfl
    hfirst hsecond
  exact ⟨hpadded, rfl, rfl, hfirst, hsecond, hin, hin', hstored 0 1 7 8 hin hin'⟩

end Rendezvous

/-- The first number that is too large. -/
example : correlationId? { correlationId := some "18446744073709551616" } = none := by
  decide +kernel

end AmqpDelivery
