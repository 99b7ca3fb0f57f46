import Mathlib.Data.List.Perm.Subperm
import AmqpDelivery.Proofs.Channels.Standing

/-!
# The cap on the channels of a connection

As long as no channel is released after its id was given to another one, the connected channels are
never more than the bound, each of them is kept track of until it is released, and a request for a
channel is refused exactly when there are as many as the bound (`ChannelTable.channels_capped`).

Entries are found by their ids. So the release of a channel that was closed, and whose id was given
out again, takes away the entry of a connected channel, and one channel too many is opened
(`ChannelTable.cap_exceeded_by_late_release`).
-/

namespace AmqpDelivery

namespace ChannelTable

/-- A later channel was given the id of this one. -/
def reused (s : ChannelTable) (c : ChannelRef) : Bool :=
  (List.range s.made).any fun d => decide (c < d) && (s.channels d).id == (s.channels c).id

/-- The event begins nothing but requests for channels and releases of channels that were opened. -/
def isCustomary (s : ChannelTable) : ChannelEvent → Bool
  | .spawn _ (.release c) => decide (c < s.made)
  | .spawn _ .clear => false
  | _ => true

/-- The event does not release a channel whose id was given out again. -/
def isTimely (s : ChannelTable) : ChannelEvent → Bool
  | .proceed t =>
      match s.requests t with
      | some (.waiting (.release c)) => !(s.lock.isHeldBy t && s.reused c)
      | _ => true
  | _ => true

/-- Every event of a run is as `p` says of the table that it finds. -/
def throughout (p : ChannelTable → ChannelEvent → Bool) : ChannelTable → List ChannelEvent → Bool
  | _, [] => true
  | s, ev :: rest => p s ev && throughout p (s.step ev) rest

/-- What holds of a table whose releases are timely. -/
structure Capped (s : ChannelTable) : Prop where
  tracked : ∀ c, s.isConnected c = true →
    ((s.channels c).id, c) ∈ s.entries ∨ ∃ t, s.requests t = some (.closing c)
  bounded : s.entries.length ≤ s.bound.toNat
  /-- While a channel is opened or closed there is room for it. -/
  roomy : ∀ t stage, s.requests t = some stage → stage.holds = true →
    s.entries.length < s.bound.toNat
  /-- Only channels that were opened are released, and the entries are never cleared. -/
  released : ∀ t r, s.requests t = some (.waiting r) → r ≠ .clear ∧ ∀ c, r = .release c → c < s.made

section Entries

variable {s : ChannelTable} {c : ChannelRef} {t : TaskId}

/-- The entry under the id of a channel is the channel's own, unless the id was given out again. -/
theorem Filed.own (h : s.Filed) (hc : c < s.made) (hreused : s.reused c = false)
    {e : UInt16 × ChannelRef} (he : e ∈ s.entries) (hid : e.1 = (s.channels c).id) : e.2 = c := by
  obtain ⟨hmade, hplaced⟩ := h.placed e he
  rcases Nat.lt_trichotomy e.2 c with hlt | heq | hgt
  · exact absurd hid.symm (h.latest e he c hlt hc)
  · exact heq
  · rw [reused, List.any_eq_false] at hreused
    have hlater := hreused e.2 (List.mem_range.2 hmade)
    simp [hgt, hplaced, hid] at hlater

/-- Forgetting the id of a channel forgets the channel's own entry and no other. -/
theorem Filed.forget_own (h : s.Filed) (hc : c < s.made) (hreused : s.reused c = false) :
    (s.forget (s.channels c).id).entries = s.entries.filter fun e => e.2 ≠ c := by
  apply List.filter_congr
  intro e he
  have hiff : e.1 = (s.channels c).id ↔ e.2 = c := by
    constructor
    · exact h.own hc hreused he
    · intro heq
      rw [← heq, (h.placed e he).2]
  simp only [ne_eq, hiff]

/-- Nobody waits for the broker while another request has the lock. -/
theorem Orderly.idle (h : s.Orderly) {r : ChannelRequest}
    (hstage : s.requests t = some (.waiting r)) (hheld : s.lock.holder = some t) (u : TaskId) :
    s.requests u ≠ some (.closing c) := by
  intro hu
  have hholder := h.holder u _ hu rfl
  rw [hheld] at hholder
  cases hholder
  cases hstage.symm.trans hu

/-- While the lock is in the hand of a request that goes on, every connected channel is tracked. -/
theorem Capped.tracked_all (h : s.Capped) (horderly : s.Orderly) {r : ChannelRequest}
    (hstage : s.requests t = some (.waiting r)) (hheld : s.lock.holder = some t)
    (hc : s.isConnected c = true) : ((s.channels c).id, c) ∈ s.entries := by
  rcases h.tracked c hc with hin | ⟨u, hu⟩
  · exact hin
  · exact absurd hu (horderly.idle hstage hheld u)

/-- Once the entries of closed channels are forgotten there are as many as connected channels. -/
theorem Capped.length_prune (h : s.Capped) (hsound : s.Sound) {r : ChannelRequest}
    (hstage : s.requests t = some (.waiting r)) (hheld : s.lock.holder = some t) :
    s.prune.entries.length = s.open?.length := by
  have hnodup : (s.prune.entries.map Prod.snd).Nodup :=
    hsound.filed.once.sublist (List.filter_sublist.map Prod.snd)
  have hsub : s.prune.entries.map Prod.snd ⊆ s.open? := by
    intro c hc
    obtain ⟨e, he, rfl⟩ := List.mem_map.1 hc
    obtain ⟨hin, hconnected⟩ := s.mem_prune.1 he
    exact (s.mem_open _).2 ⟨(hsound.filed.placed e hin).1, hconnected⟩
  have hsup : s.open? ⊆ s.prune.entries.map Prod.snd := by
    intro c hc
    obtain ⟨-, hconnected⟩ := (s.mem_open c).1 hc
    have hin := h.tracked_all hsound.orderly hstage hheld hconnected
    exact List.mem_map.2 ⟨_, s.mem_prune.2 ⟨hin, hconnected⟩, rfl⟩
  -- two lists without duplicates and with the same elements
  have hle := (List.subperm_of_subset hnodup hsub).length_le
  have hge := (List.subperm_of_subset s.nodup_open hsup).length_le
  rw [List.length_map] at hle hge
  omega

/-- The connected channels are tracked, but for one at most, and then there is room for it. -/
theorem Capped.length_open (h : s.Capped) (horderly : s.Orderly) :
    s.open?.length ≤ s.bound.toNat := by
  by_cases hclosing : ∃ t c, s.requests t = some (.closing c)
  · -- the one that is being closed has left its room
    obtain ⟨t, c, ht⟩ := hclosing
    have hsub : s.open? ⊆ c :: s.entries.map Prod.snd := by
      intro d hd
      rcases h.tracked d ((s.mem_open d).1 hd).2 with hin | ⟨u, hu⟩
      · exact List.mem_cons_of_mem _ (List.mem_map.2 ⟨_, hin, rfl⟩)
      · rw [horderly.alone hu rfl ht rfl, ht] at hu
        cases hu
        exact List.mem_cons_self
    have hlength := (List.subperm_of_subset s.nodup_open hsub).length_le
    rw [List.length_cons, List.length_map] at hlength
    have hroom := h.roomy t _ ht rfl
    omega
  · -- all of them are tracked
    have hsub : s.open? ⊆ s.entries.map Prod.snd := by
      intro d hd
      rcases h.tracked d ((s.mem_open d).1 hd).2 with hin | ⟨u, hu⟩
      · exact List.mem_map.2 ⟨_, hin, rfl⟩
      · exact absurd ⟨u, d, hu⟩ hclosing
    have hlength := (List.subperm_of_subset s.nodup_open hsub).length_le
    rw [List.length_map] at hlength
    have hbounded := h.bounded
    omega

end Entries

section Steps

variable {s s' : ChannelTable} {t : TaskId} {stage : ChannelStage}

theorem capped_new (bound : UInt16) : ({ bound } : ChannelTable).Capped where
  tracked c hc := by cases hc
  bounded := Nat.zero_le _
  roomy t stage h := by cases h
  released t r h := by cases h

/-- A request goes on while the channels stay as they are. -/
theorem Capped.goes (h : s.Capped) (hchannels : s'.channels = s.channels)
    (hmade : s'.made = s.made) (hbound : s'.bound = s.bound)
    (hrequests : s'.requests = assign s.requests t (some stage))
    (hlength : s'.entries.length ≤ s.entries.length)
    (htracked : ∀ c, s.isConnected c = true → ((s.channels c).id, c) ∈ s.entries →
      ((s.channels c).id, c) ∈ s'.entries ∨ stage = .closing c)
    (hclosing : ∀ c, s.requests t ≠ some (.closing c))
    (hroomy : stage.holds = true → s'.entries.length < s.bound.toNat)
    (hreleased : ∀ r, stage = .waiting r → r ≠ .clear ∧ ∀ c, r = .release c → c < s.made) :
    s'.Capped := by
  constructor
  · intro c hc
    rw [isConnected, hchannels] at hc
    rw [hchannels, hrequests]
    rcases h.tracked c hc with hin | ⟨u, hu⟩
    · rcases htracked c hc hin with hin' | rfl
      · exact Or.inl hin'
      · exact Or.inr ⟨t, assign_self ..⟩
    · have hne : u ≠ t := fun heq => hclosing c (heq ▸ hu)
      exact Or.inr ⟨u, (assign_of_ne hne).trans hu⟩
  · rw [hbound]
    exact Nat.le_trans hlength h.bounded
  · intro u stage' hu hholds
    rw [hbound]
    rw [hrequests] at hu
    rcases assign_eq_some hu with ⟨-, rfl⟩ | ⟨-, hu⟩
    · exact hroomy hholds
    · exact Nat.lt_of_le_of_lt hlength (h.roomy u stage' hu hholds)
  · intro u r hu
    rw [hmade]
    rw [hrequests] at hu
    rcases assign_eq_some hu with ⟨-, rfl⟩ | ⟨-, hu⟩
    · exact hreleased r rfl
    · exact h.released u r hu

/-- A request for a channel goes on once the entries of closed channels are forgotten. -/
theorem Capped.prunes (h : s.Capped) (hchannels : s'.channels = s.channels)
    (hmade : s'.made = s.made) (hbound : s'.bound = s.bound)
    (hrequests : s'.requests = assign s.requests t (some stage))
    (hentries : s'.entries = s.prune.entries) (hstage : s.requests t = some (.waiting .openNew))
    (hroomy : stage.holds = true → s.prune.entries.length < s.bound.toNat)
    (hwaits : ∀ r, stage ≠ .waiting r) : s'.Capped := by
  refine h.goes hchannels hmade hbound hrequests ?_ ?_ ?_ ?_ ?_
  · rw [hentries]
    exact List.length_filter_le _ _
  · intro c hc hin
    rw [hentries]
    exact Or.inl (s.mem_prune.2 ⟨hin, hc⟩)
  · intro c hclosing
    cases hstage.symm.trans hclosing
  · rw [hentries]
    exact hroomy
  · intro r hr
    exact absurd hr (hwaits r)

/-- A release goes on once the entry of its channel is forgotten. -/
theorem Capped.releases (h : s.Capped) (hfiled : s.Filed) {c : ChannelRef}
    (hchannels : s'.channels = s.channels) (hmade : s'.made = s.made) (hbound : s'.bound = s.bound)
    (hrequests : s'.requests = assign s.requests t (some stage))
    (hentries : s'.entries = (s.forget (s.channels c).id).entries)
    (hstage : s.requests t = some (.waiting (.release c))) (hreused : s.reused c = false)
    (hclosed : s.isConnected c = true → stage = .closing c)
    (hroomy : stage.holds = true → (s.forget (s.channels c).id).entries.length < s.bound.toNat)
    (hwaits : ∀ r, stage ≠ .waiting r) : s'.Capped := by
  have hc : c < s.made := (h.released t _ hstage).2 c rfl
  refine h.goes hchannels hmade hbound hrequests ?_ ?_ ?_ ?_ ?_
  · rw [hentries]
    exact List.length_filter_le _ _
  · intro d hd hin
    by_cases heq : d = c
    · subst heq
      exact Or.inr (hclosed hd)
    · rw [hentries, hfiled.forget_own hc hreused]
      exact Or.inl (List.mem_filter.2 ⟨hin, decide_eq_true heq⟩)
  · intro d hclosing
    cases hstage.symm.trans hclosing
  · rw [hentries]
    exact hroomy
  · intro r hr
    exact absurd hr (hwaits r)

/-- A connected channel leaves room when its entry is forgotten. -/
theorem Capped.room_of_release (h : s.Capped) (horderly : s.Orderly) {c : ChannelRef}
    (hstage : s.requests t = some (.waiting (.release c))) (hheld : s.lock.holder = some t)
    (hc : s.isConnected c = true) :
    (s.forget (s.channels c).id).entries.length < s.bound.toNat := by
  have hin := h.tracked_all horderly hstage hheld hc
  have hlt : (s.forget (s.channels c).id).entries.length < s.entries.length := by
    apply List.length_filter_lt_length_iff_exists.2
    exact ⟨_, hin, by simp⟩
  exact Nat.lt_of_lt_of_le hlt h.bounded

theorem Capped.disconnect (h : s.Capped) (c : ChannelRef) : (s.disconnect c).Capped := by
  constructor
  · intro d hd
    rw [id_disconnect]
    exact h.tracked d ((s.isConnected_disconnect c d).1 hd).1
  · exact h.bounded
  · exact h.roomy
  · exact h.released

/-- A new channel takes the room that was left for it. -/
theorem Capped.files (h : s.Capped) (hsound : s.Sound) {id : UInt16}
    (hstage : s.requests t = some .opening) (hunused : s.uses id = false) :
    ((s.file id).1.conclude t (.opened (.ok s.made))).Capped := by
  have hroom : s.entries.length < s.bound.toNat := h.roomy t _ hstage rfl
  have hlength : ((s.file id).1.conclude t (.opened (.ok s.made))).entries.length ≤
      s.entries.length + 1 :=
    Nat.succ_le_succ (List.length_filter_le _ _)
  constructor
  · intro c hc
    by_cases heq : c = s.made
    · subst heq
      refine Or.inl ((s.mem_file id).2 (Or.inl ?_))
      show (((s.file id).1.channels s.made).id, s.made) = (id, s.made)
      rw [channels_file_self]
    · have hc' : s.isConnected c = true := by
        rw [← s.isConnected_file_of_ne id heq]
        exact hc
      have hid : ((s.file id).1.channels c).id = (s.channels c).id := by
        rw [s.channels_file_of_ne id heq]
      rcases h.tracked c hc' with hin | ⟨u, hu⟩
      · -- its entry is not under the new id, which no connected channel has
        refine Or.inl ((s.mem_file id).2 (Or.inr ⟨?_, ?_⟩))
        · show (((s.file id).1.channels c).id, c) ∈ s.entries
          rw [hid]
          exact hin
        · intro heq
          have hdead := s.not_connected_of_unused id c hunused (hsound.filed.made c hc')
            (hid.symm.trans heq)
          rw [hdead] at hc'
          cases hc'
      · -- nobody else has the lock
        rw [hsound.orderly.alone hu rfl hstage rfl, hstage] at hu
        cases hu
  · exact Nat.le_trans hlength hroom
  · intro u stage' hu hholds
    rw [requests_conclude] at hu
    rcases assign_eq_some hu with ⟨-, rfl⟩ | ⟨hne, hu⟩
    · cases hholds
    · exact absurd (hsound.orderly.alone hu hholds hstage rfl) hne
  · intro u r hu
    rw [requests_conclude] at hu
    rcases assign_eq_some hu with ⟨-, ⟨⟩⟩ | ⟨-, hu⟩
    obtain ⟨hclear, hmade⟩ := h.released u r hu
    exact ⟨hclear, fun c hr => Nat.lt_succ_of_lt (hmade c hr)⟩

/-- Every customary event that is no late release keeps a table capped. -/
theorem Capped.step (h : s.Capped) (hsound : s.Sound) {ev : ChannelEvent}
    (hcustomary : s.isCustomary ev = true) (htimely : s.isTimely ev = true) : (s.step ev).Capped := by
  have hchange := s.step_change ev
  generalize s.step ev = s' at hchange
  -- what it means for a release to be timely
  have hnever : ∀ {t c}, s.requests t = some (.waiting (.release c)) → s.lock.holder = some t →
      ev = .proceed t → s.reused c = false := by
    rintro t c hstage hheld rfl
    simpa [isTimely, hstage, FairLock.isHeldBy_iff.2 hheld] using htimely
  cases hchange with
  | passes => exact h
  | @begins t r hfree =>
      refine h.goes rfl rfl rfl rfl (Nat.le_refl _) (fun c _ hin => Or.inl hin) ?_ ?_ ?_
      · intro c hclosing
        cases hfree.symm.trans hclosing
      · rintro ⟨⟩
      · rintro r' ⟨⟩
        cases r with
        | openNew => exact ⟨by rintro ⟨⟩, by rintro c ⟨⟩⟩
        | release c =>
            refine ⟨by rintro ⟨⟩, ?_⟩
            rintro d ⟨⟩
            exact of_decide_eq_true hcustomary
        | clear => cases hcustomary
  | enters hstage hheld hroom =>
      exact h.prunes rfl rfl rfl rfl rfl hstage (fun _ => hroom) (by rintro r ⟨⟩)
  | refuses hstage hheld hfull =>
      exact h.prunes rfl rfl rfl rfl rfl hstage (by rintro ⟨⟩) (by rintro r ⟨⟩)
  | closes hstage hheld hconnected =>
      refine h.releases hsound.filed rfl rfl rfl rfl rfl hstage (hnever hstage hheld rfl)
        (fun _ => rfl) (fun _ => ?_) (by rintro r ⟨⟩)
      exact h.room_of_release hsound.orderly hstage hheld hconnected
  | drops hstage hheld hdead =>
      refine h.releases hsound.filed rfl rfl rfl rfl rfl hstage (hnever hstage hheld rfl) ?_
        (by rintro ⟨⟩) (by rintro r ⟨⟩)
      intro hconnected
      rw [hdead] at hconnected
      cases hconnected
  | clears hstage hheld => exact absurd rfl (h.released _ _ hstage).1
  | files hstage hunused => exact h.files hsound hstage hunused
  | fails hstage =>
      refine h.goes rfl rfl rfl rfl (Nat.le_refl _) (fun c _ hin => Or.inl hin) ?_ ?_ ?_
      · intro c hclosing
        cases hstage.symm.trans hclosing
      · rintro ⟨⟩
      · rintro r ⟨⟩
  | @ends t c hstage =>
      -- the channel is closed before its release ends
      have hgoes := h.disconnect c
      constructor
      · intro d hd
        rcases hgoes.tracked d hd with hin | ⟨u, hu⟩
        · exact Or.inl hin
        · by_cases heq : u = t
          · subst heq
            cases hstage.symm.trans hu
            exact absurd rfl ((s.isConnected_disconnect c c).1 hd).2
          · exact Or.inr ⟨u, (assign_of_ne heq).trans hu⟩
      · exact h.bounded
      · intro u stage' hu hholds
        rw [requests_conclude] at hu
        rcases assign_eq_some hu with ⟨-, rfl⟩ | ⟨-, hu⟩
        · cases hholds
        · exact h.roomy u stage' hu hholds
      · intro u r hu
        rw [requests_conclude] at hu
        rcases assign_eq_some hu with ⟨-, ⟨⟩⟩ | ⟨-, hu⟩
        exact h.released u r hu
  | loses c => exact h.disconnect c

/-- Along a run of customary events and without late releases a table stays capped. -/
theorem Capped.run {events : List ChannelEvent} (h : s.Capped) (hsound : s.Sound)
    (hcustomary : throughout isCustomary s events = true)
    (htimely : throughout isTimely s events = true) :
    (s.run events).Capped ∧ (s.run events).Sound ∧ (s.run events).bound = s.bound := by
  induction events generalizing s with
  | nil => exact ⟨h, hsound, rfl⟩
  | cons ev rest ih =>
      obtain ⟨hnow, hrest⟩ := Bool.and_eq_true_iff.1 hcustomary
      obtain ⟨hnow', hrest'⟩ := Bool.and_eq_true_iff.1 htimely
      obtain ⟨hcapped, hsound', hbound⟩ := ih (h.step hsound hnow hnow') (hsound.step ev) hrest hrest'
      exact ⟨hcapped, hsound', hbound.trans (bound_step s ev)⟩

end Steps

/-- The table keeps a cap of `bound` channels. -/
structure HoldsCap (s : ChannelTable) (bound : UInt16) : Prop where
  /-- The channels that are connected are never more than the bound. -/
  capped : s.open?.length ≤ bound.toNat
  /-- A connected channel is kept track of, unless a release of it is under way. -/
  tracked : ∀ c ∈ s.open?,
    ((s.channels c).id, c) ∈ s.entries ∨ ∃ t, s.requests t = some (.closing c)
  /-- A release forgets the entry of its own channel and no other, unless the id of the channel was
  given out again. -/
  frees : ∀ t c, s.requests t = some (.waiting (.release c)) → s.lock.isHeldBy t = true →
    s.reused c = false →
      (s.step (.proceed t)).entries = s.entries.filter fun e => e.2 ≠ c
  /-- A request for a channel is refused exactly when it gets on with the lock while as many
  channels as the bound are connected. -/
  refused : ∀ t ev b, s.requests t ≠ some (.opened (.error (.capacity b))) →
    ((s.step ev).requests t = some (.opened (.error (.capacity b))) ↔
      ev = .proceed t ∧ s.requests t = some (.waiting .openNew) ∧ s.lock.isHeldBy t = true ∧
        s.open?.length = bound.toNat ∧ b = bound)

section Cap

variable {s : ChannelTable}

theorem entries_step_release (s : ChannelTable) {t : TaskId} {c : ChannelRef}
    (hstage : s.requests t = some (.waiting (.release c))) (hheld : s.lock.isHeldBy t = true) :
    (s.step (.proceed t)).entries = (s.forget (s.channels c).id).entries := by
  simp only [step, hstage, if_pos hheld, serve]
  split <;> rfl

theorem requests_step_full (s : ChannelTable) {t : TaskId}
    (hstage : s.requests t = some (.waiting .openNew)) (hheld : s.lock.isHeldBy t = true)
    (hfull : s.bound.toNat ≤ s.prune.entries.length) :
    (s.step (.proceed t)).requests t = some (.opened (.error (.capacity s.bound))) := by
  have hfull : s.prune.bound.toNat ≤ s.prune.entries.length := hfull
  simp only [step, hstage, if_pos hheld, serve, if_pos hfull, requests_conclude, assign_self]
  rfl

/-- A refusal comes of a request that found the table full. -/
theorem Change.refusal {s' : ChannelTable} {ev : ChannelEvent} {t : TaskId} {b : UInt16}
    (h : s.Change ev s') (hbefore : s.requests t ≠ some (.opened (.error (.capacity b))))
    (hafter : s'.requests t = some (.opened (.error (.capacity b)))) :
    ev = .proceed t ∧ s.requests t = some (.waiting .openNew) ∧ s.lock.holder = some t ∧
      s.bound.toNat ≤ s.prune.entries.length ∧ b = s.bound := by
  have hassign : ∀ {u : TaskId} {stage : ChannelStage},
      assign s.requests u (some stage) t = some (.opened (.error (.capacity b))) →
      t = u ∧ stage = .opened (.error (.capacity b)) := by
    intro u stage hassigned
    rcases assign_eq_some hassigned with ⟨hsame, heq⟩ | ⟨-, hthen⟩
    · exact ⟨hsame, heq.symm⟩
    · exact absurd hthen hbefore
  cases h with
  | passes | loses => exact absurd hafter hbefore
  | refuses hstage hheld hfull =>
      obtain ⟨rfl, heq⟩ := hassign hafter
      cases heq
      exact ⟨rfl, hstage, hheld, hfull, rfl⟩
  | begins | enters | closes | drops | clears | files | fails | ends => cases (hassign hafter).2

theorem Capped.holdsCap (h : s.Capped) (hsound : s.Sound) : s.HoldsCap s.bound := by
  have hopen := h.length_open hsound.orderly
  constructor
  · exact hopen
  · intro c hc
    exact h.tracked c ((s.mem_open c).1 hc).2
  · intro t c hstage hheld hreused
    rw [s.entries_step_release hstage hheld]
    exact hsound.filed.forget_own ((h.released t _ hstage).2 c rfl) hreused
  · intro t ev b hbefore
    constructor
    · intro hafter
      obtain ⟨hev, hstage, hheld, hfull, hb⟩ := (s.step_change ev).refusal hbefore hafter
      rw [h.length_prune hsound hstage hheld] at hfull
      exact ⟨hev, hstage, FairLock.isHeldBy_iff.2 hheld, Nat.le_antisymm hopen hfull, hb⟩
    · rintro ⟨rfl, hstage, hheld, hfull, rfl⟩
      have hlength := h.length_prune hsound hstage (FairLock.isHeldBy_iff.1 hheld)
      exact s.requests_step_full hstage hheld (Nat.le_of_eq (hfull.symm.trans hlength.symm))

end Cap

/-- A connection keeps its cap on channels as long as no channel is released after its id was given
to another one. -/
theorem channels_capped (bound : UInt16) (events : List ChannelEvent)
    (hcustomary : throughout isCustomary { bound } events = true)
    (htimely : throughout isTimely { bound } events = true) :
    (({ bound } : ChannelTable).run events).HoldsCap bound := by
  obtain ⟨hcapped, hsound, hbound⟩ := (capped_new bound).run (sound_new bound) hcustomary htimely
  have hcap := hcapped.holdsCap hsound
  rw [hbound] at hcap
  exact hcap

/-- Two channels are opened, a third request is refused, the broker closes the first channel and its
id is given out again, and the second channel is on its way out. -/
def reopenedRun : List ChannelEvent :=
  [.spawn 0 .openNew, .spawn 1 .openNew, .spawn 2 .openNew, .proceed 0, .answered 0 (some 1),
    .proceed 1, .answered 1 (some 2), .proceed 2, .lose 0, .spawn 3 .openNew, .proceed 3,
    .answered 3 (some 1), .spawn 4 (.release 1), .spawn 5 (.release 1), .proceed 4]

theorem channels_capped_reopened :
    throughout isCustomary { bound := 2 } reopenedRun = true ∧
      throughout isTimely { bound := 2 } reopenedRun = true ∧
      (({ bound := 2 } : ChannelTable).run reopenedRun).open? = [1, 2] ∧
      (({ bound := 2 } : ChannelTable).run reopenedRun).entries = [(1, 2)] ∧
      (({ bound := 2 } : ChannelTable).run reopenedRun).HoldsCap 2 := by
  have hcustomary : throughout isCustomary { bound := 2 } reopenedRun = true := by decide +kernel
  have htimely : throughout isTimely { bound := 2 } reopenedRun = true := by decide +kernel
  refine ⟨hcustomary, htimely, by decide +kernel, by decide +kernel, ?_⟩
  exact channels_capped 2 reopenedRun hcustomary htimely

/-- The broker closes a channel and gives its id to the next one; then the closed channel is
released, and another one is opened. -/
def lateReleaseRun : List ChannelEvent :=
  [.spawn 0 .openNew, .proceed 0, .answered 0 (some 1), .lose 0, .spawn 1 .openNew, .proceed 1,
    .answered 1 (some 1), .spawn 2 (.release 0), .proceed 2, .spawn 3 .openNew, .proceed 3,
    .answered 3 (some 2)]

/-- A late release lets more channels be connected than the cap allows. -/
theorem cap_exceeded_by_late_release :
    ¬ ∀ (bound : UInt16) (events : List ChannelEvent),
      throughout isCustomary { bound } events = true →
        (({ bound } : ChannelTable).run events).open?.length ≤ bound.toNat := by
  intro h
  have hopen : (({ bound := 1 } : ChannelTable).run lateReleaseRun).open? = [1, 2] := by
    decide +kernel
  have hcapped := h 1 lateReleaseRun (by decide +kernel)
  rw [hopen] at hcapped
  exact absurd hcapped (by decide)

end ChannelTable

end AmqpDelivery
