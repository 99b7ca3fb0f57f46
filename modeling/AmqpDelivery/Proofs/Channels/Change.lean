import AmqpDelivery.Connection.Channels
import AmqpDelivery.Proofs.FairLock

/-!
# What one step of a channel table does

`ChannelTable.step_change` is the one place where the steps of a channel table are opened. A step
begins a request, lets the holder of the lock go on, or is an answer of the broker; what each of
them changes is written out in `ChannelTable.Change`.
-/

namespace AmqpDelivery

/-- The request has the lock and waits for the broker. -/
def ChannelStage.holds : ChannelStage → Bool
  | .opening | .closing _ => true
  | _ => false

namespace ChannelTable

section Fields

variable (s : ChannelTable) (t : TaskId) (stage : ChannelStage) (id : UInt16) (c d : ChannelRef)

@[simp] theorem requests_conclude :
    (s.conclude t stage).requests = assign s.requests t (some stage) := rfl

theorem mem_prune {e : UInt16 × ChannelRef} :
    e ∈ s.prune.entries ↔ e ∈ s.entries ∧ s.isConnected e.2 = true := List.mem_filter

theorem mem_forget {e : UInt16 × ChannelRef} :
    e ∈ (s.forget id).entries ↔ e ∈ s.entries ∧ e.1 ≠ id := by
  simp only [forget, List.mem_filter, decide_eq_true_eq]

/-- Closing a channel leaves the others as they are. -/
theorem isConnected_disconnect :
    (s.disconnect c).isConnected d = true ↔ s.isConnected d = true ∧ d ≠ c := by
  simp only [isConnected, disconnect]
  by_cases h : d = c
  · simp [h]
  · simp [h]

theorem id_disconnect : ((s.disconnect c).channels d).id = (s.channels d).id := by
  simp only [disconnect]
  by_cases h : d = c
  · simp [h]
  · simp [h]

theorem mem_open : d ∈ s.open? ↔ d < s.made ∧ s.isConnected d = true := by
  rw [open?, List.mem_filter, List.mem_range]

theorem nodup_open : s.open?.Nodup := List.nodup_range.filter _

/-- No connected channel has an id that is not in use. -/
theorem not_connected_of_unused (h : s.uses id = false) (hd : d < s.made)
    (hid : (s.channels d).id = id) : s.isConnected d = false := by
  rw [uses, List.any_eq_false] at h
  refine Bool.eq_false_iff.2 fun hconnected => ?_
  exact h d ((s.mem_open d).2 ⟨hd, hconnected⟩) (decide_eq_true hid)

end Fields

/-- What one event can do to a table. -/
inductive Change (s : ChannelTable) : ChannelEvent → ChannelTable → Prop
  /-- Nobody waits for the event. -/
  | passes (ev : ChannelEvent) : Change s ev s
  | begins {t : TaskId} (r : ChannelRequest) (hfree : s.requests t = none) :
      Change s (.spawn t r) { s.goto t (.waiting r) with lock := s.lock.acquire t }
  /-- There is room for one more channel, and the broker is asked for it. -/
  | enters {t : TaskId} (hstage : s.requests t = some (.waiting .openNew))
      (hheld : s.lock.holder = some t) (hroom : s.prune.entries.length < s.bound.toNat) :
      Change s (.proceed t) (s.prune.goto t .opening)
  | refuses {t : TaskId} (hstage : s.requests t = some (.waiting .openNew))
      (hheld : s.lock.holder = some t) (hfull : s.bound.toNat ≤ s.prune.entries.length) :
      Change s (.proceed t) (s.prune.conclude t (.opened (.error (.capacity s.bound))))
  | closes {t : TaskId} {c : ChannelRef} (hstage : s.requests t = some (.waiting (.release c)))
      (hheld : s.lock.holder = some t) (hconnected : s.isConnected c = true) :
      Change s (.proceed t) ((s.forget (s.channels c).id).goto t (.closing c))
  /-- A channel that is closed already is released without the broker. -/
  | drops {t : TaskId} {c : ChannelRef} (hstage : s.requests t = some (.waiting (.release c)))
      (hheld : s.lock.holder = some t) (hdead : s.isConnected c = false) :
      Change s (.proceed t) ((s.forget (s.channels c).id).conclude t .finished)
  | clears {t : TaskId} (hstage : s.requests t = some (.waiting .clear))
      (hheld : s.lock.holder = some t) :
      Change s (.proceed t) ({ s with entries := [] }.conclude t .finished)
  | files {t : TaskId} {id : UInt16} (hstage : s.requests t = some .opening)
      (hunused : s.uses id = false) :
      Change s (.answered t (some id)) ((s.file id).1.conclude t (.opened (.ok s.made)))
  | fails {t : TaskId} (hstage : s.requests t = some .opening) :
      Change s (.answered t none) (s.conclude t (.opened (.error .channelRefused)))
  | ends {t : TaskId} {c : ChannelRef} (hstage : s.requests t = some (.closing c)) :
      Change s (.closed t) ((s.disconnect c).conclude t .finished)
  | loses (c : ChannelRef) : Change s (.lose c) (s.disconnect c)

section Steps

variable {s : ChannelTable} {t : TaskId}

theorem serve_change {r : ChannelRequest} (hstage : s.requests t = some (.waiting r))
    (hheld : s.lock.holder = some t) : s.Change (.proceed t) (s.serve t r) := by
  cases r with
  | openNew =>
      simp only [serve]
      split
      · next hfull => exact .refuses hstage hheld hfull
      · next hroom => exact .enters hstage hheld (Nat.lt_of_not_le hroom)
  | release c =>
      simp only [serve]
      split
      · next hconnected => exact .closes hstage hheld hconnected
      · next hdead => exact .drops hstage hheld (Bool.eq_false_iff.2 hdead)
  | clear => exact .clears hstage hheld

theorem answered_change (s : ChannelTable) (t : TaskId) (id : Option UInt16) :
    s.Change (.answered t id) (s.step (.answered t id)) := by
  simp only [step]
  split
  · next id hstage =>
    split
    · exact .passes _
    · next hunused => exact .files hstage (Bool.eq_false_iff.2 hunused)
  · next hstage => exact .fails hstage
  · exact .passes _

/-- Every step of a table is one of the changes. -/
theorem step_change (s : ChannelTable) (ev : ChannelEvent) : s.Change ev (s.step ev) := by
  cases ev with
  | spawn t r =>
      simp only [step]
      split
      · next hfree => exact .begins r hfree
      · exact .passes _
  | proceed t =>
      simp only [step]
      split
      · next r hstage =>
        split
        · next hheld => exact serve_change hstage (FairLock.isHeldBy_iff.1 hheld)
        · exact .passes _
      · exact .passes _
  | answered t id => exact s.answered_change t id
  | closed t =>
      simp only [step]
      split
      · next c hstage => exact .ends hstage
      · exact .passes _
  | lose c => exact .loses c

end Steps

end ChannelTable

end AmqpDelivery
