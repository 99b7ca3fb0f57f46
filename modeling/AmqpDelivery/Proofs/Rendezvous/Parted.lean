import AmqpDelivery.Proofs.Rendezvous.Books
import AmqpDelivery.Proofs.Rendezvous.Shadow

/-!
# Replies that reach no request

A reply without a number, one that finds no request waiting and one that finds another reply in the
slot come to nothing (`Stage.Doomed`), whatever else happens on the connection. A connection goes on
in the same way with the steps of such a reply and without them (`Parted.run`).
-/

namespace AmqpDelivery.Rendezvous

variable {α : Type} {s next : State α} {h : List (LineNote α)} {r t : TaskId} {x : Stage α}
  {slot : SlotId}

/-- The task that an event on a connection is a step of. -/
def LineEvent.task? : LineEvent α → Option TaskId
  | .call t _ | .reply t _ _ | .closeAll t => some t
  | .lose => none
  | .within e => e.task?

/-- A reply at this stage will be taken out by no request. -/
def Stage.Doomed (s : State α) : Stage α → Prop
  | .storing slot _ => s.Spent slot
  | .announcing slot => s.Dead slot
  | .ready (.route none _) | .finished (.pushed _) | .finished .done | .dropped => True
  | _ => False

/-- The task of a reply has not put it in. -/
def Stage.Fresh : Stage α → Prop
  | .ready (.route _ _) | .storing _ _ => True
  | _ => False

/-- The task of a reply has put it in, failed to, or was dropped. -/
def Stage.Over : Stage α → Prop
  | .announcing _ | .finished _ | .dropped => True
  | _ => False

theorem Stage.Spare.doomed (hx : x.Spare s.Dead) : x.Doomed s := by
  cases x with
  | storing slot value => exact ⟨hx.made, Or.inr (Or.inr hx)⟩
  | announcing slot => exact hx
  | finished outcome => cases outcome <;> trivial
  | _ => exact hx.elim

theorem offer_of_useless {p : Slot α} (value : α) (hp : p.value ≠ none ∨ p.closed = true) :
    ∃ failure, p.offer value = .error failure := by
  cases ho : p.offer value with
  | error failure => exact ⟨failure, rfl⟩
  | ok q =>
      obtain ⟨hopen, hempty, -⟩ := Slot.offer_eq_ok_iff.mp ho
      rcases hp with hvalue | hclosed
      · exact absurd hempty hvalue
      · rw [hopen] at hclosed
        cases hclosed

theorem Stage.Doomed.reply (hx : x.Doomed s) : x.Fresh ∨ x.Over := by
  cases x with
  | ready call =>
      cases call with
      | route id? value => exact Or.inl trivial
      | _ => exact hx.elim
  | storing slot value => exact Or.inl trivial
  | announcing slot => exact Or.inr trivial
  | finished outcome => exact Or.inr trivial
  | dropped => exact Or.inr trivial
  | _ => exact hx.elim

/-- The task of a reply passes its next section, is dropped, or stays. -/
theorem step_reply {d : Event α} (hx : s.tasks r = some x) (hreply : x.Fresh ∨ x.Over)
    (hd : d.task? = some r) :
    s.step d = s ∨ s.step d = s.goto r .dropped ∨ s.step d = s.proceed r x := by
  cases d with
  | spawn t call =>
      cases hd
      exact Or.inl (by simp [State.step, hx])
  | proceed t =>
      cases hd
      exact Or.inr (Or.inr (by simp [State.step, State.act, hx]))
  | published t result =>
      cases hd
      left
      cases x <;> simp_all [State.step, State.act, State.published, Stage.Fresh, Stage.Over]
  | expire t =>
      cases hd
      left
      cases x <;> simp_all [State.step, State.act, State.expire, Stage.Fresh, Stage.Over]
  | drop t =>
      cases hd
      cases x <;> simp_all [State.step, State.act, State.drop, Stage.Fresh, Stage.Over]
  | advance ms => cases hd

/-- A step that takes a task to another stage, or nowhere, touches no slot. -/
theorem Drift.of_goto {P : Stage α → Prop} (hx : s.tasks r = some x) (hP : P x)
    (hstep : next = s ∨ ∃ y, P y ∧ next = s.goto r y) (D : SlotId → Prop) :
    Drift D r s next ∧ ∃ y, next.tasks r = some y ∧ P y := by
  rcases hstep with rfl | ⟨y, hy, rfl⟩
  · exact ⟨.refl D r next, x, hx, hP⟩
  · exact ⟨.goto D r s y, y, assign_self _ _ _, hy⟩

/-- A doomed reply touches nothing but dead slots, and stays doomed. -/
theorem Drift.doomed {d : Event α} (hx : s.tasks r = some x) (hdoomed : x.Doomed s)
    (hd : d.task? = some r) :
    Drift s.Dead r s (s.step d) ∧ ∃ y, (s.step d).tasks r = some y ∧ y.Doomed s := by
  by_cases hspare : x.Spare s.Dead
  · obtain ⟨hdrift, y, hy, hsy⟩ := Drift.spare hx hspare hd
    exact ⟨hdrift, y, hy, hsy.doomed⟩
  -- otherwise the reply is not put in at all, and its task only changes its stage
  · refine Drift.of_goto (P := Stage.Doomed s) hx hdoomed ?_ s.Dead
    rcases step_reply hx hdoomed.reply hd with hsame | hdropped | hproceed
    · exact Or.inl hsame
    · exact Or.inr ⟨.dropped, trivial, hdropped⟩
    · rw [hproceed]
      cases x with
      | storing slot value =>
          have huseless : (s.slots slot).value ≠ none ∨ (s.slots slot).closed = true := by
            rcases hdoomed.useless with hvalue | hclosed | hdead
            · exact Or.inl hvalue
            · exact Or.inr hclosed
            · exact absurd hdead hspare
          obtain ⟨failure, ho⟩ := offer_of_useless value huseless
          exact Or.inr ⟨.finished (.pushed (.error failure)), trivial, by simp [State.proceed, ho]⟩
      | ready call =>
          cases call with
          | route id? value =>
              cases id? with
              | none => exact Or.inr ⟨.finished .done, trivial, rfl⟩
              | some id => exact hdoomed.elim
          | _ => exact hdoomed.elim
      | announcing slot => exact absurd hdoomed hspare
      | finished outcome => exact Or.inl rfl
      | dropped => exact Or.inl rfl
      | _ => exact hdoomed.elim

/-- A reply that is on its way touches no slot until it is put in. -/
theorem Drift.fresh {d : Event α} (hx : s.tasks r = some x) (hfresh : x.Fresh)
    (hd : d.task? = some r) :
    ∃ y, (s.step d).tasks r = some y ∧ (y.Over ∨ y.Fresh ∧ ∀ D, Drift D r s (s.step d)) := by
  rcases step_reply hx (Or.inl hfresh) hd with hsame | hdropped | hproceed
  · rw [hsame]
    exact ⟨x, hx, Or.inr ⟨hfresh, fun D => .refl D r s⟩⟩
  · rw [hdropped]
    exact ⟨.dropped, assign_self _ _ _, Or.inl trivial⟩
  · rw [hproceed]
    cases x with
    | ready call =>
        cases call with
        | route id? value =>
            cases id? with
            | none => exact ⟨.finished .done, assign_self _ _ _, Or.inl trivial⟩
            | some id =>
                simp only [State.proceed, State.start, State.aim]
                cases (s.get id false).2 with
                | none => exact ⟨_, assign_self _ _ _, Or.inl trivial⟩
                -- it found a slot, and has still to put the reply in
                | some slot =>
                    exact ⟨_, assign_self _ _ _, Or.inr ⟨trivial, fun D => .goto D r s _⟩⟩
        | _ => exact hfresh.elim
    | storing slot value =>
        simp only [State.proceed]
        cases (s.slots slot).offer value with
        | ok p => exact ⟨_, assign_self _ _ _, Or.inl trivial⟩
        | error failure => exact ⟨_, assign_self _ _ _, Or.inl trivial⟩
    | _ => exact hfresh.elim

/-- A reply that was put in, or not, is not on its way again. -/
theorem Stage.Over.step {d : Event α} (hx : s.tasks r = some x) (hover : x.Over)
    (hd : d.task? = some r) : ∃ y, (s.step d).tasks r = some y ∧ y.Over := by
  rcases step_reply hx (Or.inr hover) hd with hsame | hdropped | hproceed
  · rw [hsame]
    exact ⟨x, hx, hover⟩
  · rw [hdropped]
    exact ⟨.dropped, assign_self _ _ _, trivial⟩
  · rw [hproceed]
    cases x with
    | announcing slot => exact ⟨_, assign_self _ _ _, trivial⟩
    | finished outcome => exact ⟨_, hx, hover⟩
    | dropped => exact ⟨_, hx, hover⟩
    | _ => exact hover.elim

namespace Line

variable {l k : Line α}

/-- A step on a connection lets time pass, begins a task or moves one. -/
theorem Books.step_desk (hb : Books l h) (e : LineEvent α) :
    (∃ now, (l.step e).desk = { l.desk with now }) ∨
      (∃ t call, e.task? = some t ∧ l.desk.tasks t = none ∧
        (l.step e).desk = l.desk.goto t (.ready call)) ∨
      ∃ t x notes, e.task? = some t ∧ l.desk.tasks t = some x ∧
        Move l.desk t x (l.step e).desk notes := by
  have hspawn : ∀ t call, (l.apply (.spawn t call)).desk = l.desk ∨
      l.desk.tasks t = none ∧ (l.apply (.spawn t call)).desk = l.desk.goto t (.ready call) := by
    intro t call
    cases ht : l.desk.tasks t with
    | none => exact Or.inr ⟨rfl, by simp [apply, State.step, ht]⟩
    | some x => exact Or.inl (by simp [apply, State.step, ht])
  have hsame : ∃ now, l.desk = { l.desk with now } := ⟨l.desk.now, rfl⟩
  cases e with
  | call t ms =>
      cases ht : l.desk.tasks t with
      | some x => exact Or.inl (by simpa [Line.step, call, ht] using hsame)
      | none =>
          refine Or.inr (Or.inl ?_)
          cases hlive : l.live with
          | false =>
              refine ⟨t, .decline, rfl, ht, ?_⟩
              simp [Line.step, call, ht, hlive, apply, State.step]
          | true =>
              refine ⟨t, .request l.nextId ms, rfl, ht, ?_⟩
              simp [Line.step, call, ht, hlive, apply, State.step]
  | reply t properties value =>
      rcases hspawn t (.route (correlationId? properties) value) with hstay | ⟨ht, hbegin⟩
      · exact Or.inl ⟨l.desk.now, hstay⟩
      · exact Or.inr (Or.inl ⟨t, _, rfl, ht, hbegin⟩)
  | lose => exact Or.inl hsame
  | closeAll t =>
      rcases hspawn t .closeAll with hstay | ⟨ht, hbegin⟩
      · exact Or.inl ⟨l.desk.now, hstay⟩
      · exact Or.inr (Or.inl ⟨t, _, rfl, ht, hbegin⟩)
  | within e =>
      have hline : ∀ t x, l.desk.tasks t = some x → x.OnLine := fun t x ht =>
        (hb.ledger.fits t x ht).onLine
      -- tasks begin with a call or a reply, not within the rendezvous
      by_cases hcall : ∃ t call, e = .spawn t call
      · obtain ⟨t, call, rfl⟩ := hcall
        exact Or.inl hsame
      · have hwithin : l.step (.within e) = l.apply e := by
          cases e with
          | spawn t call => exact absurd ⟨t, call, rfl⟩ hcall
          | _ => rfl
        rw [hwithin]
        have hne : ∀ t call, e ≠ .spawn t call := fun t call he => hcall ⟨t, call, he⟩
        rcases State.step_move hline e hne with ⟨now, hstep, -⟩ | ⟨t, x, he, ht, hmove⟩
        · exact Or.inl ⟨now, hstep⟩
        · exact Or.inr (Or.inr ⟨t, x, _, he, ht, hmove⟩)

/-- A step leaves the other tasks where they are. -/
theorem Books.tasks_of_ne (hb : Books l h) {e : LineEvent α} (he : e.task? ≠ some r) :
    (l.step e).desk.tasks r = l.desk.tasks r := by
  have hne : ∀ t, e.task? = some t → r ≠ t := by
    rintro t ht rfl
    exact he ht
  rcases hb.step_desk e with ⟨now, hnext⟩ | ⟨t, call, ht, -, hnext⟩ | ⟨t, x, notes, ht, -, hmove⟩
  · rw [hnext]
  · rw [hnext]
    exact assign_of_ne (hne t ht)
  · exact hmove.tasks_of_ne (hne t ht)

theorem Books.dead_step (hb : Books l h) (e : LineEvent α) (slot : SlotId)
    (hdead : l.desk.Dead slot) : (l.step e).desk.Dead slot := by
  rcases hb.step_desk e with ⟨now, hnext⟩ | ⟨t, call, -, ht, hnext⟩ | ⟨t, x, notes, -, ht, hmove⟩
  · rw [hnext]
    exact ⟨hdead.made, fun u z hu hz => hdead.idle u z hu (hz.mono fun _ hf => hf)⟩
  · rw [hnext]
    exact hdead.begin t call
  · exact hb.ledger.dead_move ht hmove hdead

theorem Books.spent_step (hb : Books l h) (e : LineEvent α) (hspent : l.desk.Spent slot) :
    (l.step e).desk.Spent slot := by
  have hdead := hb.dead_step e slot
  rcases hb.step_desk e with ⟨now, hnext⟩ | ⟨t, call, -, ht, hnext⟩ | ⟨t, x, notes, -, ht, hmove⟩
  · exact hspent.keep (by rw [hnext]) (by rw [hnext]) hdead
  · exact hspent.keep (by rw [hnext]; rfl) (by rw [hnext]; rfl) hdead
  · exact hb.ledger.spent_move ht hmove hspent

theorem Books.doomed_step (hb : Books l h) (e : LineEvent α) (hx : x.Doomed l.desk) :
    x.Doomed (l.step e).desk := by
  cases x with
  | storing slot value => exact hb.spent_step e hx
  | announcing slot => exact hb.dead_step e slot hx
  | ready call =>
      cases call with
      | route id? value => cases id? <;> trivial
      | _ => exact hx.elim
  | finished outcome => cases outcome <;> trivial
  | dropped => trivial
  | _ => exact hx.elim

/-- The line `k` is the line `l` without the task `r`, but for slots that are dead. -/
structure Alike (r : TaskId) (l k : Line α) : Prop where
  live : k.live = l.live
  next : k.nextId = l.nextId
  desk : Shadow l.desk.Dead r l.desk k.desk

/-- The line `k` is the line `l` without the reply of the task `r`, which comes to nothing. -/
structure Parted (r : TaskId) (l k : Line α) : Prop where
  alike : Alike r l k
  doomed : ∃ x, l.desk.tasks r = some x ∧ x.Doomed l.desk

/-- A task other than `r` makes its step on both lines. -/
theorem Alike.step (ha : Alike r l k) (hb : Books l h) {e : LineEvent α} (he : e.task? ≠ some r) :
    Alike r (l.step e) (k.step e) := by
  have hdesk : ∀ d : Event α, d.task? ≠ some r →
      Shadow l.desk.Dead r (l.desk.step d) (k.desk.step d) := fun d hd =>
    ha.desk.step (fun t x ht => (hb.ledger.fits t x ht).onLine) (fun _ hdead => hdead.idle) hd
  -- slots that were dead before the step are dead after it
  suffices hstep : (k.step e).live = (l.step e).live ∧ (k.step e).nextId = (l.step e).nextId ∧
      Shadow l.desk.Dead r (l.step e).desk (k.step e).desk by
    obtain ⟨hlive, hnext, hshadow⟩ := hstep
    exact ⟨hlive, hnext, hshadow.mono (hb.dead_step e)⟩
  cases e with
  | call t ms =>
      have ht : t ≠ r := by
        rintro rfl
        exact he rfl
      -- a task that is there is there on both lines, so both calls are made or neither is
      cases hx : l.desk.tasks t with
      | some x =>
          obtain ⟨y, hy⟩ : ∃ y, k.desk.tasks t = some y := by
            rcases ha.desk.tasks t ht with hsame | ⟨_, y, -, hy, -, -⟩
            · exact ⟨x, hsame.trans hx⟩
            · exact ⟨y, hy⟩
          simpa [Line.step, call, hx, hy] using ⟨ha.live, ha.next, ha.desk⟩
      | none =>
          have hy : k.desk.tasks t = none := by
            rcases ha.desk.tasks t ht with hsame | ⟨x, -, hx', -, -, -⟩
            · exact hsame.trans hx
            · rw [hx] at hx'
              cases hx'
          have hlive := ha.live
          cases hl : l.live with
          | false =>
              rw [hl] at hlive
              simpa [Line.step, call, hx, hy, hl, hlive, apply] using
                ⟨ha.next, hdesk (.spawn t .decline) he⟩
          | true =>
              rw [hl] at hlive
              simpa [Line.step, call, hx, hy, hl, hlive, apply, ha.next] using
                hdesk (.spawn t (.request l.nextId ms)) he
  | reply t properties value => exact ⟨ha.live, ha.next, hdesk (.spawn t _) he⟩
  | lose => exact ⟨rfl, ha.next, ha.desk⟩
  | closeAll t => exact ⟨ha.live, ha.next, hdesk (.spawn t .closeAll) he⟩
  | within d =>
      have hd := hdesk d he
      cases d with
      | spawn t call => exact ⟨ha.live, ha.next, ha.desk⟩
      | _ => exact ⟨ha.live, ha.next, hd⟩

/-- An event of a task that is there is a step at the rendezvous, or nothing happens. -/
theorem step_own {e : LineEvent α} (hx : l.desk.tasks r = some x) (he : e.task? = some r) :
    l.step e = l ∨ ∃ d : Event α, d.task? = some r ∧ l.step e = l.apply d := by
  cases e with
  | call t ms =>
      cases he
      exact Or.inl (by simp [Line.step, call, hx])
  | reply t properties value =>
      cases he
      exact Or.inr ⟨.spawn r _, rfl, rfl⟩
  | lose => cases he
  | closeAll t =>
      cases he
      exact Or.inr ⟨.spawn r .closeAll, rfl, rfl⟩
  | within d =>
      have hd : d.task? = some r := he
      cases d with
      | spawn t call => exact Or.inl rfl
      | _ => exact Or.inr ⟨_, hd, rfl⟩

theorem Alike.drift {m : Line α} (ha : Alike r l k) (hlive : m.live = l.live)
    (hnext : m.nextId = l.nextId) (hd : Drift l.desk.Dead r l.desk m.desk)
    (hdead : ∀ slot, l.desk.Dead slot → m.desk.Dead slot) : Alike r m k where
  live := ha.live.trans hlive.symm
  next := ha.next.trans hnext.symm
  desk := (ha.desk.drift_left hd).mono hdead

/-- A step of the doomed reply itself. -/
theorem Parted.own (hp : Parted r l k) (hb : Books l h) {e : LineEvent α}
    (he : e.task? = some r) : Parted r (l.step e) k := by
  obtain ⟨x, hx, hdoomed⟩ := hp.doomed
  have hdead := hb.dead_step e
  have hkeep := fun y (hy : Stage.Doomed l.desk y) => hb.doomed_step e hy
  rcases step_own hx he with hsame | ⟨d, hd, hstep⟩
  · rw [hsame]
    exact hp
  · obtain ⟨hdrift, y, hy, hydoomed⟩ := Drift.doomed hx hdoomed hd
    rw [hstep] at hdead hkeep ⊢
    exact ⟨hp.alike.drift rfl rfl hdrift hdead, y, hy, hkeep y hydoomed⟩

/-- A step of another task. -/
theorem Parted.other (hp : Parted r l k) (hb : Books l h) {e : LineEvent α}
    (he : e.task? ≠ some r) : Parted r (l.step e) (k.step e) := by
  obtain ⟨x, hx, hdoomed⟩ := hp.doomed
  exact ⟨hp.alike.step hb he, x, (hb.tasks_of_ne he).trans hx, hb.doomed_step e hdoomed⟩

/-- The steps of a run that are not steps of the task `r`. -/
def without (r : TaskId) (events : List (LineEvent α)) : List (LineEvent α) :=
  events.filter fun e => e.task? ≠ some r

theorem without_cons_of_eq {e : LineEvent α} (he : e.task? = some r)
    (events : List (LineEvent α)) : without r (e :: events) = without r events :=
  List.filter_cons_of_neg (by simp [he])

theorem without_cons_of_ne {e : LineEvent α} (he : e.task? ≠ some r)
    (events : List (LineEvent α)) : without r (e :: events) = e :: without r events :=
  List.filter_cons_of_pos (by simp [he])

theorem without_append (r : TaskId) (es fs : List (LineEvent α)) :
    without r (es ++ fs) = without r es ++ without r fs :=
  List.filter_append ..

/-- What the steps of `r` keep on one line, and the other steps on both, a run keeps. -/
theorem run_without {P : Line α → Line α → Prop}
    (hown : ∀ {l k h} {e : LineEvent α}, P l k → Books l h → e.task? = some r → P (l.step e) k)
    (hother : ∀ {l k h} {e : LineEvent α}, P l k → Books l h → e.task? ≠ some r →
      P (l.step e) (k.step e))
    (hp : P l k) (hb : Books l h) (events : List (LineEvent α))
    (hfew : Few (h ++ l.history events)) :
    P (l.run events) (k.run (without r events)) := by
  induction events generalizing l k h with
  | nil => exact hp
  | cons e events ih =>
      have hsplit : h ++ l.history (e :: events) =
          (h ++ l.notes e) ++ (l.step e).history events := by
        simp [history]
      rw [hsplit] at hfew
      have hb' : Books (l.step e) (h ++ l.notes e) := hb.step e hfew.of_append
      -- a step of `r` is made on one line only
      by_cases he : e.task? = some r
      · rw [without_cons_of_eq he]
        exact ih (hown hp hb he) hb' hfew
      · rw [without_cons_of_ne he]
        exact ih (hother hp hb he) hb' hfew

/-- Two lines that differ by a doomed reply go on to do so. -/
theorem Parted.run (hp : Parted r l k) (hb : Books l h) (events : List (LineEvent α))
    (hfew : Few (h ++ l.history events)) :
    Parted r (l.run events) (k.run (without r events)) :=
  run_without (fun hp hb he => hp.own hb he) (fun hp hb he => hp.other hb he) hp hb events hfew

/-- The line `k` is the line `l` without the reply of the task `r`, unless that was put in. -/
def Before (r : TaskId) (l k : Line α) : Prop :=
  ∃ x, l.desk.tasks r = some x ∧ (x.Over ∨ x.Fresh ∧ Alike r l k)

theorem Before.own (hp : Before r l k) (hb : Books l h) {e : LineEvent α}
    (he : e.task? = some r) : Before r (l.step e) k := by
  obtain ⟨x, hx, hstage⟩ := hp
  have hdead := hb.dead_step e
  rcases step_own hx he with hsame | ⟨d, hd, hstep⟩
  · rw [hsame]
    exact ⟨x, hx, hstage⟩
  · rw [hstep] at hdead ⊢
    rcases hstage with hover | ⟨hfresh, halike⟩
    -- what was put in stays put in, whatever became of the other line
    · obtain ⟨y, hy, hover'⟩ := Stage.Over.step hx hover hd
      exact ⟨y, hy, Or.inl hover'⟩
    · obtain ⟨y, hy, hover | ⟨hfresh', hdrift⟩⟩ := Drift.fresh hx hfresh hd
      · exact ⟨y, hy, Or.inl hover⟩
      · exact ⟨y, hy, Or.inr ⟨hfresh', halike.drift rfl rfl (hdrift _) hdead⟩⟩

theorem Before.other (hp : Before r l k) (hb : Books l h) {e : LineEvent α}
    (he : e.task? ≠ some r) : Before r (l.step e) (k.step e) := by
  obtain ⟨x, hx, hstage⟩ := hp
  exact ⟨x, (hb.tasks_of_ne he).trans hx,
    hstage.imp_right fun hfresh => ⟨hfresh.1, hfresh.2.step hb he⟩⟩

theorem Before.run (hp : Before r l k) (hb : Books l h) (events : List (LineEvent α))
    (hfew : Few (h ++ l.history events)) :
    Before r (l.run events) (k.run (without r events)) :=
  run_without (fun hp hb he => hp.own hb he) (fun hp hb he => hp.other hb he) hp hb events hfew

end Line

end AmqpDelivery.Rendezvous
