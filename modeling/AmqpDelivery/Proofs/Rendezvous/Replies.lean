import AmqpDelivery.Proofs.Rendezvous.Parted

/-!
# Replies never cross

Over any number of connections and requests, a request that returns a reply returns the first one
that was accepted for its number on its own connection, and no reply is returned by two requests. A
reply without a number, one for which no request is pending and one that meets another reply in the
slot change the outcome of no request: the run without it ends every request in the same way. This
is `replies_never_cross`.
-/

namespace AmqpDelivery.Rendezvous

variable {α : Type} {h : List (LineNote α)} {t r : TaskId} {slot : SlotId} {value : α}

/-- The task `r`, which hands over a reply with the number `id`, is about to look up the slot or to
put the reply in, and no request with the number is pending or there is a reply in the slot. -/
def State.Unwanted (s : State α) (r : TaskId) (id : UInt64) : Prop :=
  (∃ value, s.tasks r = some (.ready (.route (some id) value)) ∧
      (¬ s.Pending id ∨ ∃ slot, s.find? id = some slot ∧ (s.slots slot).value ≠ none)) ∨
    ∃ slot value, s.tasks r = some (.storing slot value) ∧
      (¬ s.Pending id ∨ (s.slots slot).value ≠ none)

namespace Line

variable {l k : Line α}

/-- The reply that the task `r` was just begun for is lost in the steps that follow: it has no
number, or it is unwanted when its task looks up the slot or puts it in. -/
def Lost (l : Line α) (r : TaskId) (properties : Properties) (after : List (LineEvent α)) : Prop :=
  correlationId? properties = none ∨
    ∃ id mid rest, correlationId? properties = some id ∧
      after = mid ++ .within (.proceed r) :: rest ∧ (l.run mid).desk.Unwanted r id

/-- A number that is known from the history is the only one of the task. -/
theorem Books.number_unique {n m : UInt64} (hb : Books l h) (hn : .requested t n ∈ h)
    (hm : .requested t m ∈ h) : m = n := by
  have heq : (.requested t m : LineNote α) = .requested t n :=
    eq_of_nodup_filterMap hb.ledger.once hm hn rfl rfl
  cases heq
  rfl

/-- A reply answers one request. -/
theorem Books.answered_unique {u : TaskId} {n m : UInt64} {other : SlotId} {v : α}
    (hb : Books l h) (hfew : Few h) (ht : Answered h t n slot r value)
    (hu : Answered h u m other r v) : u = t := by
  have harrived : .arrived r (some n) value ∈ h :=
    ht.reached.aimed.subset (List.mem_cons_self ..)
  have harrived' : .arrived r (some m) v ∈ h :=
    hu.reached.aimed.subset (List.mem_cons_self ..)
  have heq : (.arrived r (some m) v : LineNote α) = .arrived r (some n) value :=
    eq_of_nodup_filterMap hb.ledger.once harrived' harrived rfl rfl
  cases heq
  exact requested_unique (hb.nodup hfew) ht.reached.opened.requested
    hu.reached.opened.requested

/-- The lines with and without a reply that has just arrived. -/
theorem alike_arrived (ht : l.desk.tasks r = none) (call : Call α) :
    Alike r (l.apply (.spawn r call)) l where
  live := rfl
  next := rfl
  desk := by
    have hstep : l.desk.step (.spawn r call) = l.desk.goto r (.ready call) := by
      simp [State.step, ht]
    show Shadow _ r (l.desk.step (.spawn r call)) l.desk
    rw [hstep]
    exact
      { made := rfl
        index := rfl
        closed := rfl
        now := rfl
        slots := fun _ => Or.inr rfl
        tasks := fun u hu => Or.inl (assign_of_ne hu).symm
        absent := ht }

/-- A reply that is put into the slot of a number under which no request is pending comes to
nothing. -/
theorem Books.doomed_storing {id : UInt64} {v : α} (hb : Books l h)
    (hx : l.desk.tasks r = some (.storing slot value)) (harrived : .arrived r (some id) v ∈ h)
    (hunwanted : ¬ l.desk.Pending id ∨ (l.desk.slots slot).value ≠ none) :
    (Stage.storing slot value).Doomed l.desk := by
  obtain ⟨u, i, hreached⟩ := hb.ledger.fits r _ hx
  have haimed : .arrived r (some i) value ∈ h := hreached.aimed.subset (List.mem_cons_self ..)
  have hlocated : .desk (.located r i slot) ∈ h :=
    hreached.aimed.subset (List.mem_cons_of_mem _ (List.mem_singleton.mpr rfl))
  have hmade : slot < l.desk.made := hb.ledger.filing.made r i slot hlocated
  rcases hunwanted with hpending | hvalue
  · have heq : (.arrived r (some i) value : LineNote α) = .arrived r (some id) v :=
      eq_of_nodup_filterMap hb.ledger.once haimed harrived rfl rfl
    cases heq
    exact ⟨hmade, Or.inr (Or.inr (hb.ledger.dead_of_not_pending hlocated hpending))⟩
  · exact ⟨hmade, Or.inl hvalue⟩

/-- A reply that looks up the slot of a number under which no request is pending, or that finds
another reply there, comes to nothing. -/
theorem Books.doomed_aim {id : UInt64} (hb : Books l h) (r : TaskId) (value : α)
    (hunwanted : ¬ l.desk.Pending id ∨
      ∃ slot, l.desk.find? id = some slot ∧ (l.desk.slots slot).value ≠ none) :
    ∃ y : Stage α, y.Doomed l.desk ∧ l.desk.aim r id value = l.desk.goto r y := by
  unfold State.aim
  cases hget : (l.desk.get id false).2 with
  | none => exact ⟨.finished (.pushed (.error .closed)), trivial, rfl⟩
  | some slot =>
      have hfind := State.find?_of_get hget
      obtain ⟨u, hlocated⟩ := hb.ledger.filing.filed id slot hfind
      refine ⟨.storing slot value, ⟨hb.ledger.filing.made u id slot hlocated, ?_⟩, rfl⟩
      rcases hunwanted with hpending | ⟨other, hother, hvalue⟩
      · exact Or.inr (Or.inr (hb.ledger.dead_of_not_pending hlocated hpending))
      · rw [hfind] at hother
        cases hother
        exact Or.inl hvalue

/-- A reply that is unwanted when it makes a step is doomed from then on. -/
theorem Before.parted {id : UInt64} {v : α} (hp : Before r l k) (hb : Books l h)
    (harrived : .arrived r (some id) v ∈ h) (hunwanted : l.desk.Unwanted r id) :
    Parted r (l.step (.within (.proceed r))) k := by
  obtain ⟨x, hx, hstage⟩ := hp
  rcases hunwanted with ⟨value, hready, hcond⟩ | ⟨slot, value, hstoring, hcond⟩
  -- the task is about to look up the slot
  · obtain rfl := Option.some.inj (hx.symm.trans hready)
    rcases hstage with hover | ⟨-, halike⟩
    · exact hover.elim
    obtain ⟨y, hdoomed, hgoto⟩ := hb.doomed_aim r value hcond
    have hdesk : (l.step (.within (.proceed r))).desk = l.desk.goto r y := by
      rw [← hgoto]
      show l.desk.step (.proceed r) = _
      simp [State.step, State.act, hready, State.proceed, State.start]
    have hdead := hb.dead_step (.within (.proceed r))
    refine ⟨halike.drift rfl rfl ?_ hdead, y, ?_, hb.doomed_step _ hdoomed⟩
    · rw [hdesk]
      exact .goto _ r _ y
    · rw [hdesk]
      exact assign_self _ _ _
  -- the task has the slot and is about to put the reply in
  · obtain rfl := Option.some.inj (hx.symm.trans hstoring)
    rcases hstage with hover | ⟨-, halike⟩
    · exact hover.elim
    have hparted : Parted r l k := ⟨halike, _, hx, hb.doomed_storing hstoring harrived hcond⟩
    exact hparted.own hb rfl

/-- A reply that is lost makes no difference but its own. -/
theorem Books.lost {properties : Properties} {after : List (LineEvent α)} (hb : Books l h)
    (ht : l.desk.tasks r = none)
    (hlost : Lost (l.step (.reply r properties value)) r properties after)
    (hfew : Few (h ++ l.history (.reply r properties value :: after))) :
    Parted r (l.run (.reply r properties value :: after)) (l.run (without r after)) := by
  have hnotes : l.notes (.reply r properties value) =
      [.arrived r (correlationId? properties) value] := by
    simp [notes, ht]
  have hsplit : h ++ l.history (.reply r properties value :: after) =
      (h ++ [.arrived r (correlationId? properties) value]) ++
        (l.step (.reply r properties value)).history after := by
    simp [history, hnotes]
  rw [hsplit] at hfew
  have hb' : Books (l.step (.reply r properties value))
      (h ++ [.arrived r (correlationId? properties) value]) := by
    rw [← hnotes] at hfew ⊢
    exact hb.step _ hfew.of_append
  have halike : Alike r (l.step (.reply r properties value)) l := alike_arrived ht _
  have htask : (l.step (.reply r properties value)).desk.tasks r =
      some (.ready (.route (correlationId? properties) value)) := by
    show (l.desk.step _).tasks r = _
    simp [State.step, ht, State.goto]
  show Parted r ((l.step (.reply r properties value)).run after) _
  rcases hlost with hnone | ⟨id, mid, rest, hid, rfl, hunwanted⟩
  · have hparted : Parted r (l.step (.reply r properties value)) l := by
      refine ⟨halike, _, htask, ?_⟩
      rw [hnone]
      trivial
    exact hparted.run hb' after hfew
  · generalize l.step (.reply r properties value) = m at *
    have hbefore : Before r m l := ⟨_, htask, Or.inr ⟨trivial, halike⟩⟩
    rw [history_append, ← List.append_assoc] at hfew
    have hbooks := hb'.run mid hfew.of_append
    have harrived : .arrived r (some id) value ∈
        h ++ [.arrived r (correlationId? properties) value] ++ m.history mid := by
      simp [hid]
    have hparted := (hbefore.run hb' mid hfew.of_append).parted hbooks harrived hunwanted
    -- the step of the reply itself is missing on the other side
    rw [history, ← List.append_assoc] at hfew
    have hrest := hparted.run (hbooks.step _ hfew.of_append) rest hfew
    rw [run_append, without_append, without_cons_of_eq rfl, run_append]
    exact hrest

/-- No request can tell two lines apart that differ by a doomed reply. -/
theorem Parted.outcome? (hp : Parted r l k) (t : TaskId) (result : Except Failure α) :
    l.desk.outcome? t = some (.received result) ↔ k.desk.outcome? t = some (.received result) := by
  have hspare : ∀ {s : State α} {x : Stage α} {D : SlotId → Prop}, s.tasks t = some x →
      x.Spare D → s.outcome? t ≠ some (.received result) := by
    intro s x D hx hsx
    cases x with
    | finished outcome => cases outcome <;> simp_all [State.outcome?, Stage.Spare]
    | _ => simp [State.outcome?, hx]
  by_cases ht : t = r
  · subst ht
    obtain ⟨x, hx, hdoomed⟩ := hp.doomed
    have hk : k.desk.outcome? t = none := by simp [State.outcome?, hp.alike.desk.absent]
    have hl : l.desk.outcome? t ≠ some (.received result) := by
      cases x with
      | finished outcome => cases outcome <;> simp_all [State.outcome?, Stage.Doomed]
      | _ => simp [State.outcome?, hx]
    rw [hk]
    exact ⟨fun h => absurd h hl, fun h => by cases h⟩
  · rcases hp.alike.desk.tasks t ht with hsame | ⟨x, y, hx, hy, hsx, hsy⟩
    · unfold State.outcome?
      rw [hsame]
    · exact ⟨fun h => absurd h (hspare hx hsx), fun h => absurd h (hspare hy hsy)⟩

end Line

/-! ## Over all connections -/

/-- Connections that have just been made. -/
def Lines.start : Lines α := fun _ => {}

/-- What happens on the connection `c`. -/
def eventsOn (c : Nat) (events : List (Nat × LineEvent α)) : List (LineEvent α) :=
  events.filterMap fun e => if e.1 = c then some e.2 else none

/-- The history of the connection `c`. -/
def historyOn (c : Nat) (events : List (Nat × LineEvent α)) : List (LineNote α) :=
  ({} : Line α).history (eventsOn c events)

/-- The events that are not steps of the task `r` of the connection `c`. -/
def leaveOut (c : Nat) (r : TaskId) (events : List (Nat × LineEvent α)) :
    List (Nat × LineEvent α) :=
  events.filter fun e => ¬ (e.1 = c ∧ e.2.task? = some r)

/-- The request `t` of the connection `c` has returned `result`. -/
def Lines.Returns (ls : Lines α) (c : Nat) (t : TaskId) (result : Except Failure α) : Prop :=
  (ls c).desk.outcome? t = some (.received result)

theorem Lines.run_apply (ls : Lines α) (events : List (Nat × LineEvent α)) (c : Nat) :
    (ls.run events) c = (ls c).run (eventsOn c events) := by
  induction events generalizing ls with
  | nil => rfl
  | cons e events ih =>
      have hrun : ls.run (e :: events) = (ls.step e).run events := rfl
      rw [hrun, ih]
      by_cases he : e.1 = c
      · subst he
        simp [eventsOn, Lines.step, Line.run]
      · simp [eventsOn, Lines.step, he, assign_of_ne (Ne.symm he)]

theorem eventsOn_append (c : Nat) (es fs : List (Nat × LineEvent α)) :
    eventsOn c (es ++ fs) = eventsOn c es ++ eventsOn c fs :=
  List.filterMap_append

theorem eventsOn_leaveOut (c : Nat) (r : TaskId) (events : List (Nat × LineEvent α)) :
    eventsOn c (leaveOut c r events) = Line.without r (eventsOn c events) := by
  unfold eventsOn leaveOut Line.without
  rw [List.filterMap_filter, List.filter_filterMap]
  congr 1
  funext e
  by_cases he : e.1 = c <;> by_cases ht : e.2.task? = some r <;>
    simp [Option.filter, he, ht]

theorem eventsOn_leaveOut_of_ne {c d : Nat} (hne : d ≠ c) (r : TaskId)
    (events : List (Nat × LineEvent α)) :
    eventsOn d (leaveOut c r events) = eventsOn d events := by
  unfold eventsOn leaveOut
  rw [List.filterMap_filter]
  congr 1
  funext e
  by_cases he : e.1 = d
  · have hc : ¬ e.1 = c := fun h => hne (he.symm.trans h)
    simp [he, hne]
  · simp [he]

theorem length_numbersOf_notes (l : Line α) (e : LineEvent α) :
    (numbersOf (l.notes e)).length ≤ 1 := by
  cases e with
  | call t ms =>
      cases ht : l.desk.tasks t with
      | some x => simp [Line.notes, ht, numbersOf]
      | none =>
          cases hlive : l.live with
          | false => simp [Line.notes, ht, hlive, numbersOf]
          | true =>
              simp only [Line.notes, ht, hlive]
              exact Nat.le_refl 1
  | reply t properties value =>
      cases ht : l.desk.tasks t with
      | some x => simp [Line.notes, ht, numbersOf]
      | none =>
          simp only [Line.notes, ht]
          exact Nat.zero_le 1
  | within e =>
      cases e with
      | spawn t call => exact Nat.zero_le 1
      | _ => simp [Line.notes, numbersOf_desk]
  | _ => exact Nat.zero_le 1

/-- A connection has numbers enough for any run that is shorter. -/
theorem few_historyOn (c : Nat) {events : List (Nat × LineEvent α)}
    (hlength : events.length < UInt64.size) : Few (historyOn c events) := by
  have hnumbers : ∀ (es : List (LineEvent α)) (l : Line α),
      (numbersOf (l.history es)).length ≤ es.length := by
    intro es
    induction es with
    | nil => exact fun l => Nat.le_refl 0
    | cons e es ih =>
        intro l
        rw [Line.history, numbersOf_append, List.length_append, List.length_cons]
        have hstep := length_numbersOf_notes l e
        have hrest := ih (l.step e)
        omega
  have hevents : (eventsOn c events).length ≤ events.length := List.length_filterMap_le ..
  exact Nat.lt_of_le_of_lt (Nat.le_trans (hnumbers _ _) hevents) hlength

/-- Each connection keeps its books over any run. -/
theorem books_historyOn (c : Nat) {events : List (Nat × LineEvent α)}
    (hfew : Few (historyOn c events)) :
    Line.Books ((Lines.start.run events) c) (historyOn c events) := by
  rw [Lines.run_apply]
  exact Line.books_empty.run (eventsOn c events) hfew

/-- The returns of a request are answered. -/
theorem answered_of_ended (c : Nat) {events : List (Nat × LineEvent α)}
    {before after : List (LineNote α)} (hfew : Few (historyOn c events))
    (heq : historyOn c events = before ++ .desk (.ended t (.received (.ok value))) :: after) :
    ∃ n slot r, Answered before t n slot r value ∧
      ∀ m, .requested t m ∈ historyOn c events → m = n := by
  have hb := books_historyOn c hfew
  obtain ⟨n, slot, r, ha⟩ := hb.ledger.returned before t value after heq
  refine ⟨n, slot, r, ha, fun m hm => hb.number_unique ?_ hm⟩
  rw [heq]
  exact List.mem_append_left _ ha.reached.opened.requested

/-- A run without a lost reply ends every request in the same way. -/
theorem returns_leaveOut {c : Nat} {before after : List (Nat × LineEvent α)}
    {properties : Properties}
    (hfew : Few (historyOn c (before ++ (c, .reply r properties value) :: after)))
    (hnew : ((Lines.start.run before) c).desk.tasks r = none)
    (hlost : Line.Lost ((Lines.start.run (before ++ [(c, .reply r properties value)])) c) r
      properties (eventsOn c after)) (d : Nat) (t : TaskId) (result : Except Failure α) :
    (Lines.start.run (before ++ (c, .reply r properties value) :: after)).Returns d t result ↔
      (Lines.start.run (before ++ leaveOut c r after)).Returns d t result := by
  have harrival : ∀ rest, eventsOn c (before ++ (c, .reply r properties value) :: rest) =
      eventsOn c before ++ .reply r properties value :: eventsOn c rest := by
    intro rest
    rw [eventsOn_append]
    simp [eventsOn]
  unfold Lines.Returns
  rw [Lines.run_apply, Lines.run_apply]
  by_cases hd : d = c
  -- on the connection of the reply the two runs are those of two lines without it
  · subst hd
    rw [Lines.run_apply] at hnew
    rw [Lines.run_apply, harrival, Line.run_append] at hlost
    unfold historyOn at hfew
    rw [harrival, Line.history_append] at hfew
    have hbooks := Line.books_empty.run (eventsOn d before) hfew.of_append
    have hparted := hbooks.lost hnew hlost hfew
    rw [harrival, eventsOn_append, eventsOn_leaveOut, Line.run_append, Line.run_append]
    exact hparted.outcome? t result
  -- on the others nothing was left out
  · have hother : eventsOn d (before ++ (c, .reply r properties value) :: after) =
        eventsOn d (before ++ leaveOut c r after) := by
      rw [eventsOn_append, eventsOn_append, eventsOn_leaveOut_of_ne hd]
      simp [eventsOn, Ne.symm hd]
    rw [hother]

/-- For any number of connections and requests, each connection with fewer requests than there are
numbers: a request that returns a reply is answered by it, under the one number it took on its own
connection; a reply answers one request; and a reply without a number, one for which no request is
pending and one that meets a reply in the slot change the outcome of no request. -/
theorem replies_never_cross (events : List (Nat × LineEvent α))
    (hfew : ∀ c, Few (historyOn c events)) :
    (∀ c t value before after,
      historyOn c events = before ++ .desk (.ended t (.received (.ok value))) :: after →
      ∃ n slot r, Answered before t n slot r value ∧
        ∀ m, .requested t m ∈ historyOn c events → m = n) ∧
    (∀ c r t u n m slot other value v earlier later,
      earlier <+: historyOn c events → later <+: historyOn c events →
      Answered earlier t n slot r value → Answered later u m other r v → u = t) ∧
    (∀ before c r properties value after,
      events = before ++ (c, .reply r properties value) :: after →
      ((Lines.start.run before) c).desk.tasks r = none →
      Line.Lost ((Lines.start.run (before ++ [(c, .reply r properties value)])) c) r properties
        (eventsOn c after) →
      ∀ d t result, (Lines.start.run events).Returns d t result ↔
        (Lines.start.run (before ++ leaveOut c r after)).Returns d t result) := by
  refine ⟨?_, ?_, ?_⟩
  · intro c t value before after heq
    exact answered_of_ended c (hfew c) heq
  · rintro c r t u n m slot other value v earlier later ⟨k, hk⟩ ⟨k', hk'⟩ ht hu
    have ht' : Answered (historyOn c events) t n slot r value := hk ▸ ht.append k
    have hu' : Answered (historyOn c events) u m other r v := hk' ▸ hu.append k'
    exact (books_historyOn c (hfew c)).answered_unique (hfew c) ht' hu'
  · rintro before c r properties value after rfl hnew hlost d t result
    exact returns_leaveOut (hfew c) hnew hlost d t result

/-- The properties of a reply to the first request of a connection. -/
def replyToFirst : Properties := { correlationId := some "1" }

/-- Two connections make their first requests, and a reply comes in on one before the wait starts. -/
def answeredEarly : List (Nat × LineEvent Nat) :=
  [(0, .call 0 5000), (1, .call 0 5000), (0, .within (.proceed 0)), (1, .within (.proceed 0)),
    (0, .reply 1 replyToFirst 7), (0, .within (.proceed 1)), (0, .within (.proceed 1))]

/-- The request goes on to its return while the task `2` hands over another reply. -/
def returnedLate : List (Nat × LineEvent Nat) :=
  [(0, .within (.proceed 2)), (0, .within (.published 0 (.ok ()))), (0, .within (.proceed 2)),
    (0, .within (.proceed 0)), (0, .within (.proceed 0)), (0, .within (.proceed 0)),
    (0, .within (.proceed 0))]

theorem replies_never_cross_duplicate :
    let events := answeredEarly ++ (0, .reply 2 replyToFirst 8) :: returnedLate
    (∀ c, Few (historyOn c events)) ∧
      (Lines.start.run events).Returns 0 0 (.ok 7) ∧
      (∃ n slot r, Answered (historyOn 0 events).dropLast 0 n slot r 7 ∧
        ∀ m, .requested 0 m ∈ historyOn 0 events → m = n) ∧
      (Lines.start.run (answeredEarly ++ leaveOut 0 2 returnedLate)).Returns 0 0 (.ok 7) := by
  intro events
  have hfew : ∀ c, Few (historyOn c events) := fun c => few_historyOn c (by decide)
  obtain ⟨hanswered, -, hlost⟩ := replies_never_cross events hfew
  have hreturns : (Lines.start.run events).Returns 0 0 (.ok 7) := rfl
  refine ⟨hfew, hreturns, ?_, ?_⟩
  · exact hanswered 0 0 7 (historyOn 0 events).dropLast [] rfl
  · refine (hlost answeredEarly 0 2 replyToFirst 8 returnedLate rfl rfl ?_ 0 0 (.ok 7)).mp hreturns
    exact Or.inr ⟨1, [], _, rfl, rfl, Or.inl ⟨8, rfl, Or.inr ⟨0, rfl, by decide⟩⟩⟩

end AmqpDelivery.Rendezvous
