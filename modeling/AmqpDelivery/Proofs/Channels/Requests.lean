import AmqpDelivery.Proofs.Channels.Standing

/-!
# What becomes of the requests for channels

A request goes through the stages that belong to what it asks for (`ChannelStage.Serves`), and once
it is over it stays as it is (`ChannelTable.requests_step_over`). An entry of the table comes from a
request that has opened its channel, and is gone as soon as a release of its channel has been served
(`ChannelTable.entry_step`).
-/

namespace AmqpDelivery

/-- The stages of a request. -/
inductive ChannelStage.Serves : ChannelRequest → ChannelStage → Prop
  | waits (r : ChannelRequest) : Serves r (.waiting r)
  | opens : Serves .openNew .opening
  | opened (result : Except Failure ChannelRef) : Serves .openNew (.opened result)
  | closes (c : ChannelRef) : Serves (.release c) (.closing c)
  | ends {r : ChannelRequest} (h : r ≠ .openNew) : Serves r .finished

/-- The request is over. -/
def ChannelStage.isOver : ChannelStage → Bool
  | .opened _ | .finished => true
  | _ => false

namespace ChannelTable

/-- The channel that a request has opened. -/
def openedAt? (s : ChannelTable) (t : TaskId) : Option ChannelRef :=
  match s.requests t with
  | some (.opened (.ok c)) => some c
  | _ => none

/-- The request has not been served. -/
def isWaiting (s : ChannelTable) (t : TaskId) : Bool :=
  match s.requests t with
  | some (.waiting _) => true
  | _ => false

section Requests

variable {s s' : ChannelTable} {t u : TaskId} {stage : ChannelStage} {r : ChannelRequest}
  {c : ChannelRef}

theorem openedAt?_eq_some : s.openedAt? t = some c ↔ s.requests t = some (.opened (.ok c)) := by
  unfold openedAt?
  split
  · next d hd =>
    rw [hd]
    constructor <;> (rintro ⟨⟩; rfl)
  · next hnone => exact ⟨nofun, fun h => absurd h (hnone c)⟩

theorem isWaiting_iff : s.isWaiting t = true ↔ ∃ r, s.requests t = some (.waiting r) := by
  unfold isWaiting
  split
  · next r hr => exact iff_of_true rfl ⟨r, hr⟩
  · next hnone => exact iff_of_false nofun fun ⟨r, hr⟩ => hnone r hr

/-- How one event may move a request. -/
theorem Change.request {ev : ChannelEvent} (h : s.Change ev s')
    (hstage : s.requests t = some stage) :
    s'.requests t = some stage ∨ stage.isOver = false ∧ ∃ next, s'.requests t = some next ∧
      ∀ r, stage.Serves r → next.Serves r := by
  have hassign : ∀ {u a b}, s.requests u = some a → s'.requests = assign s.requests u (some b) →
      a.isOver = false → (∀ r, a.Serves r → b.Serves r) →
        s'.requests t = some stage ∨ stage.isOver = false ∧ ∃ next, s'.requests t = some next ∧
          ∀ r, stage.Serves r → next.Serves r := by
    intro u a b hu hrequests hover hserves
    by_cases heq : t = u
    · subst heq
      cases hstage.symm.trans hu
      exact Or.inr ⟨hover, b, by rw [hrequests, assign_self], hserves⟩
    · rw [hrequests, assign_of_ne heq]
      exact Or.inl hstage
  cases h with
  | passes => exact Or.inl hstage
  | @begins u r hfree =>
      have hne : t ≠ u := by
        rintro rfl
        cases hfree.symm.trans hstage
      exact Or.inl ((assign_of_ne hne).trans hstage)
  | enters hu hheld hroom => exact hassign hu rfl rfl (by rintro r ⟨⟩; exact .opens)
  | refuses hu hheld hfull => exact hassign hu rfl rfl (by rintro r ⟨⟩; exact .opened _)
  | closes hu hheld hconnected => exact hassign hu rfl rfl (by rintro r ⟨⟩; exact .closes _)
  | drops hu hheld hdead => exact hassign hu rfl rfl (by rintro r ⟨⟩; exact .ends nofun)
  | clears hu hheld => exact hassign hu rfl rfl (by rintro r ⟨⟩; exact .ends nofun)
  | files hu hunused => exact hassign hu rfl rfl (by rintro r ⟨⟩; exact .opened _)
  | fails hu => exact hassign hu rfl rfl (by rintro r ⟨⟩; exact .opened _)
  | ends hu => exact hassign hu rfl rfl (by rintro r ⟨⟩; exact .ends nofun)
  | loses c => exact Or.inl hstage

/-- A request that is over stays as it is. -/
theorem requests_step_over (ev : ChannelEvent) (hstage : s.requests t = some stage)
    (hover : stage.isOver = true) : (s.step ev).requests t = some stage := by
  rcases (s.step_change ev).request hstage with hsame | ⟨hnot, -⟩
  · exact hsame
  · rw [hover] at hnot
    cases hnot

theorem requests_step_serves (ev : ChannelEvent) (hstage : s.requests t = some stage)
    (hserves : stage.Serves r) : ∃ next, (s.step ev).requests t = some next ∧ next.Serves r := by
  rcases (s.step_change ev).request hstage with hsame | ⟨-, next, hnext, hkept⟩
  · exact ⟨stage, hsame, hserves⟩
  · exact ⟨next, hnext, hkept r hserves⟩

theorem openedAt?_step (ev : ChannelEvent) (h : s.openedAt? t = some c) :
    (s.step ev).openedAt? t = some c :=
  openedAt?_eq_some.2 (requests_step_over ev (openedAt?_eq_some.1 h) rfl)

/-- Only its beginning brings a request in. -/
theorem requests_step_none {ev : ChannelEvent} (hnone : s.requests t = none)
    (hev : ∀ r, ev ≠ .spawn t r) : (s.step ev).requests t = none := by
  have hchange := s.step_change ev
  generalize s.step ev = s' at hchange
  have hassign : ∀ {u a b}, s.requests u = some a →
      assign s.requests u (some b) t = none := by
    intro u a b hu
    have hne : t ≠ u := by
      rintro rfl
      cases hnone.symm.trans hu
    rw [assign_of_ne hne]
    exact hnone
  cases hchange with
  | passes => exact hnone
  | @begins u r hfree =>
      have hne : t ≠ u := by
        rintro rfl
        exact hev r rfl
      exact (assign_of_ne hne).trans hnone
  | enters hu | refuses hu | closes hu | drops hu | clears hu | files hu | fails hu | ends hu =>
      exact hassign hu
  | loses c => exact hnone

/-- A new request waits, and nothing else changes about the requests and the entries. -/
theorem step_spawn (hfree : s.requests t = none) (r : ChannelRequest) :
    (s.step (.spawn t r)).requests = assign s.requests t (some (.waiting r)) ∧
      (s.step (.spawn t r)).entries = s.entries := by
  simp only [step, hfree]
  exact ⟨rfl, rfl⟩

/-- An entry is that of a channel that was just opened, or it was there before and its channel was
not given back. -/
theorem entry_step (hfiled : s.Filed) {ev : ChannelEvent} {e : UInt16 × ChannelRef}
    (he : e ∈ (s.step ev).entries) :
    (∃ t, s.requests t = some .opening ∧ (s.step ev).openedAt? t = some e.2) ∨
      e ∈ s.entries ∧ ∀ t, s.requests t = some (.waiting (.release e.2)) →
        (s.step ev).isWaiting t = true := by
  have hchange := s.step_change ev
  generalize s.step ev = s' at hchange he
  have hsame : s'.requests = s.requests →
      ∀ t, s.requests t = some (.waiting (.release e.2)) → s'.isWaiting t = true := by
    intro hrequests t ht
    exact isWaiting_iff.2 ⟨_, hrequests ▸ ht⟩
  have hother : ∀ {u a b}, s.requests u = some a → a ≠ .waiting (.release e.2) →
      s'.requests = assign s.requests u (some b) →
        ∀ t, s.requests t = some (.waiting (.release e.2)) → s'.isWaiting t = true := by
    intro u a b hu ha hrequests t ht
    have hne : t ≠ u := by
      rintro rfl
      cases hu.symm.trans ht
      exact ha rfl
    exact isWaiting_iff.2 ⟨_, by rw [hrequests, assign_of_ne hne, ht]⟩
  -- a channel that is given back has no other id than the one that is forgotten
  have hreleased : ∀ {c}, e ∈ (s.forget (s.channels c).id).entries →
      e ∈ s.entries ∧ ChannelStage.waiting (.release c) ≠ .waiting (.release e.2) := by
    intro c he
    rw [mem_forget] at he
    refine ⟨he.1, ?_⟩
    rintro ⟨⟩
    exact he.2 (hfiled.placed e he.1).2.symm
  cases hchange with
  | passes => exact Or.inr ⟨he, hsame rfl⟩
  | @begins u r hfree =>
      refine Or.inr ⟨he, fun t ht => isWaiting_iff.2 ⟨.release e.2, ?_⟩⟩
      have hne : t ≠ u := by
        rintro rfl
        cases hfree.symm.trans ht
      exact (assign_of_ne hne).trans ht
  | enters hu | refuses hu => exact Or.inr ⟨((s.mem_prune).1 he).1, hother hu nofun rfl⟩
  | closes hu | drops hu => exact Or.inr ⟨(hreleased he).1, hother hu (hreleased he).2 rfl⟩
  | clears hu hheld => cases he
  | @files u id hu hunused =>
      rcases (s.mem_file id).1 he with rfl | ⟨he, -⟩
      · exact Or.inl ⟨u, hu, openedAt?_eq_some.2 (assign_self ..)⟩
      · exact Or.inr ⟨he, hother hu nofun rfl⟩
  | fails hu | ends hu => exact Or.inr ⟨he, hother hu nofun rfl⟩
  | loses c => exact Or.inr ⟨he, hsame rfl⟩

end Requests

end ChannelTable

end AmqpDelivery
