import Mathlib.Data.List.Nodup
import AmqpDelivery.Proofs.Channels.Change

/-!
# What holds of a channel table at all times

The entries of a table are filed under the ids of their channels, each is the last channel that was
given its id, and a channel whose id was given out again is closed (`ChannelTable.Filed`). A request
that waits for the broker has the lock, so there is one at most, and no two requests have opened the
same channel (`ChannelTable.Orderly`). Every step keeps both (`ChannelTable.Sound.step`), whatever
the broker does with its ids.
-/

namespace AmqpDelivery

namespace ChannelTable

/-- How the entries of a table stand to its channels. -/
structure Filed (s : ChannelTable) : Prop where
  placed : ∀ e ∈ s.entries, e.2 < s.made ∧ (s.channels e.2).id = e.1
  /-- No channel was given the id of an entry after the entry's own. -/
  latest : ∀ e ∈ s.entries, ∀ c, e.2 < c → c < s.made → (s.channels c).id ≠ e.1
  /-- A channel whose id was given out again is closed. -/
  retired : ∀ c d, c < d → d < s.made → (s.channels d).id = (s.channels c).id →
    s.isConnected c = false
  made : ∀ c, s.isConnected c = true → c < s.made
  once : (s.entries.map Prod.snd).Nodup

/-- How the requests of a table stand to its lock and to one another. -/
structure Orderly (s : ChannelTable) : Prop where
  holder : ∀ t stage, s.requests t = some stage → stage.holds = true → s.lock.holder = some t
  opened : ∀ t c, s.requests t = some (.opened (.ok c)) → c < s.made
  distinct : ∀ t u c, s.requests t = some (.opened (.ok c)) → s.requests u = some (.opened (.ok c)) →
    t = u

structure Sound (s : ChannelTable) : Prop where
  filed : s.Filed
  orderly : s.Orderly

section Filed

variable {s s' : ChannelTable}

theorem filed_new (bound : UInt16) : ({ bound } : ChannelTable).Filed where
  placed e he := by cases he
  latest e he := by cases he
  retired c d _ _ _ := rfl
  made c hc := by cases hc
  once := List.Pairwise.nil

/-- Entries may be forgotten. -/
theorem Filed.thin (h : s.Filed) (hchannels : s'.channels = s.channels) (hmade : s'.made = s.made)
    (hentries : s'.entries.Sublist s.entries) : s'.Filed := by
  constructor
  · intro e he
    rw [hmade, hchannels]
    exact h.placed e (hentries.subset he)
  · intro e he c
    rw [hmade, hchannels]
    exact h.latest e (hentries.subset he) c
  · intro c d
    rw [isConnected, hmade, hchannels]
    exact h.retired c d
  · intro c
    rw [isConnected, hmade, hchannels]
    exact h.made c
  · exact h.once.sublist (hentries.map Prod.snd)

theorem Filed.disconnect (h : s.Filed) (c : ChannelRef) : (s.disconnect c).Filed := by
  -- closing a channel connects none
  have hdead : ∀ d, s.isConnected d = false → (s.disconnect c).isConnected d = false := by
    intro d hd
    refine Bool.eq_false_iff.2 fun hconnected => ?_
    rw [((s.isConnected_disconnect c d).1 hconnected).1] at hd
    cases hd
  constructor
  · intro e he
    rw [id_disconnect]
    exact h.placed e he
  · intro e he d
    rw [id_disconnect]
    exact h.latest e he d
  · intro d d' hlt hmade hid
    rw [id_disconnect, id_disconnect] at hid
    exact hdead d (h.retired d d' hlt hmade hid)
  · intro d hd
    exact h.made d ((s.isConnected_disconnect c d).1 hd).1
  · exact h.once

section File

variable (s : ChannelTable) (id : UInt16)

theorem channels_file_self : (s.file id).1.channels s.made = ⟨id, true⟩ := assign_self ..

theorem channels_file_of_ne {c : ChannelRef} (h : c ≠ s.made) :
    (s.file id).1.channels c = s.channels c := assign_of_ne h

theorem isConnected_file_of_ne {c : ChannelRef} (h : c ≠ s.made) :
    (s.file id).1.isConnected c = s.isConnected c := by
  rw [isConnected, channels_file_of_ne s id h, isConnected]

theorem mem_file {e : UInt16 × ChannelRef} :
    e ∈ (s.file id).1.entries ↔ e = (id, s.made) ∨ e ∈ s.entries ∧ e.1 ≠ id := by
  show e ∈ (id, s.made) :: (s.forget id).entries ↔ _
  rw [List.mem_cons, mem_forget]

end File

/-- A new channel takes the place of the closed ones that had its id. -/
theorem Filed.file (h : s.Filed) {id : UInt16} (hunused : s.uses id = false) :
    (s.file id).1.Filed := by
  have hmade : (s.file id).1.made = s.made + 1 := rfl
  have hold : ∀ e ∈ s.entries, e.2 ≠ s.made := fun e he => Nat.ne_of_lt (h.placed e he).1
  constructor
  · intro e he
    rw [mem_file] at he
    rcases he with rfl | ⟨he, -⟩
    · exact ⟨Nat.lt_succ_self _, by rw [channels_file_self]⟩
    · obtain ⟨hlt, hid⟩ := h.placed e he
      rw [channels_file_of_ne s id (hold e he)]
      exact ⟨Nat.lt_succ_of_lt hlt, hid⟩
  · intro e he c hlt hc
    rw [mem_file] at he
    rcases he with rfl | ⟨he, hid⟩
    · -- nothing comes after the new channel
      exact absurd (Nat.lt_of_lt_of_le hlt (Nat.le_of_lt_succ hc)) (Nat.lt_irrefl _)
    · by_cases heq : c = s.made
      · rw [heq, channels_file_self]
        exact fun heq => hid heq.symm
      · rw [channels_file_of_ne s id heq]
        exact h.latest e he c hlt (Nat.lt_of_le_of_ne (Nat.le_of_lt_succ hc) heq)
  · intro c d hlt hd hid
    have hc : c ≠ s.made := Nat.ne_of_lt (Nat.lt_of_lt_of_le hlt (Nat.le_of_lt_succ hd))
    rw [isConnected_file_of_ne s id hc]
    rw [channels_file_of_ne s id hc] at hid
    by_cases heq : d = s.made
    · -- the id of the new channel belonged to no connected one
      rw [heq, channels_file_self] at hid
      rw [heq] at hlt
      exact s.not_connected_of_unused id c hunused hlt hid.symm
    · rw [channels_file_of_ne s id heq] at hid
      exact h.retired c d hlt (Nat.lt_of_le_of_ne (Nat.le_of_lt_succ hd) heq) hid
  · intro c hc
    by_cases heq : c = s.made
    · rw [heq, hmade]
      exact Nat.lt_succ_self _
    · rw [isConnected_file_of_ne s id heq] at hc
      exact Nat.lt_succ_of_lt (h.made c hc)
  · show ((id, s.made) :: (s.forget id).entries |>.map Prod.snd).Nodup
    rw [List.map_cons, List.nodup_cons]
    refine ⟨fun hmem => ?_, h.once.sublist (List.filter_sublist.map Prod.snd)⟩
    obtain ⟨e, he, heq⟩ := List.mem_map.1 hmem
    exact hold e ((s.mem_forget id).1 he).1 heq

/-- Every step keeps the entries filed. -/
theorem Filed.step (h : s.Filed) (ev : ChannelEvent) : (s.step ev).Filed := by
  have hchange := s.step_change ev
  generalize s.step ev = s' at hchange
  cases hchange with
  | passes => exact h
  | begins r hfree => exact h.thin rfl rfl (List.Sublist.refl _)
  | enters | refuses | closes | drops => exact h.thin rfl rfl List.filter_sublist
  | clears hstage hheld => exact h.thin rfl rfl (List.nil_sublist _)
  | files hstage hunused => exact (h.file hunused).thin rfl rfl (List.Sublist.refl _)
  | fails hstage => exact h.thin rfl rfl (List.Sublist.refl _)
  | @ends t c hstage => exact (h.disconnect c).thin rfl rfl (List.Sublist.refl _)
  | loses c => exact h.disconnect c

end Filed

section Orderly

variable {s s' : ChannelTable} {t : TaskId} {stage : ChannelStage}

theorem orderly_new (bound : UInt16) : ({ bound } : ChannelTable).Orderly where
  holder t stage h := by cases h
  opened t c h := by cases h
  distinct t u c h := by cases h

/-- One request goes on: to wait for the broker with the lock in its hand, or without having opened
a channel. -/
theorem Orderly.goes (h : s.Orderly) (hmade : s'.made = s.made)
    (hrequests : s'.requests = assign s.requests t (some stage))
    (hlock : ∀ u, u ≠ t → s.lock.holder = some u → s'.lock.holder = some u)
    (hholds : stage.holds = true → s'.lock.holder = some t)
    (hopened : ∀ c, stage ≠ .opened (.ok c)) : s'.Orderly := by
  have hother : ∀ u c, s'.requests u = some (.opened (.ok c)) →
      s.requests u = some (.opened (.ok c)) := by
    intro u c hu
    rw [hrequests] at hu
    rcases assign_eq_some hu with ⟨-, heq⟩ | ⟨-, hu⟩
    · exact absurd heq.symm (hopened c)
    · exact hu
  constructor
  · intro u stage' hu hstage'
    rw [hrequests] at hu
    rcases assign_eq_some hu with ⟨rfl, rfl⟩ | ⟨hne, hu⟩
    · exact hholds hstage'
    · exact hlock u hne (h.holder u stage' hu hstage')
  · intro u c hu
    rw [hmade]
    exact h.opened u c (hother u c hu)
  · intro u v c hu hv
    exact h.distinct u v c (hother u c hu) (hother v c hv)

/-- The holder of the lock has opened the newest channel, and hands the lock on. -/
theorem Orderly.opens (h : s.Orderly) (hmade : s'.made = s.made + 1)
    (hrequests : s'.requests = assign s.requests t (some (.opened (.ok s.made))))
    (hheld : s.lock.holder = some t) : s'.Orderly := by
  have hcases : ∀ u c, s'.requests u = some (.opened (.ok c)) →
      u = t ∧ c = s.made ∨ s.requests u = some (.opened (.ok c)) ∧ c < s.made := by
    intro u c hu
    rw [hrequests] at hu
    rcases assign_eq_some hu with ⟨heq, ⟨⟩⟩ | ⟨-, hu⟩
    · exact Or.inl ⟨heq, rfl⟩
    · exact Or.inr ⟨hu, h.opened u c hu⟩
  constructor
  · intro u stage' hu hstage'
    rw [hrequests] at hu
    rcases assign_eq_some hu with ⟨-, rfl⟩ | ⟨hne, hu⟩
    · cases hstage'
    · -- nobody else has the lock
      have hu' := h.holder u stage' hu hstage'
      rw [hheld] at hu'
      exact absurd (Option.some.inj hu').symm hne
  · intro u c hu
    rw [hmade]
    rcases hcases u c hu with ⟨-, rfl⟩ | ⟨-, hlt⟩
    · exact Nat.lt_succ_self _
    · exact Nat.lt_succ_of_lt hlt
  · intro u v c hu hv
    rcases hcases u c hu with ⟨rfl, rfl⟩ | ⟨hu, hlt⟩
    · rcases hcases v _ hv with ⟨rfl, -⟩ | ⟨-, hlt⟩
      · rfl
      · exact absurd hlt (Nat.lt_irrefl _)
    · rcases hcases v c hv with ⟨-, rfl⟩ | ⟨hv, -⟩
      · exact absurd hlt (Nat.lt_irrefl _)
      · exact h.distinct u v c hu hv

/-- The holder of the lock is done without having opened a channel, and hands the lock on. -/
theorem Orderly.concludes (h : s.Orderly) (hmade : s'.made = s.made)
    (hrequests : s'.requests = assign s.requests t (some stage))
    (hheld : s.lock.holder = some t) (hholds : stage.holds = false)
    (hopened : ∀ c, stage ≠ .opened (.ok c)) : s'.Orderly := by
  refine h.goes hmade hrequests (fun u hne hu => ?_) (fun hstage => ?_) hopened
  · rw [hheld] at hu
    exact absurd (Option.some.inj hu).symm hne
  · rw [hholds] at hstage
    cases hstage

/-- Every step keeps the requests orderly. -/
theorem Orderly.step (h : s.Orderly) (ev : ChannelEvent) : (s.step ev).Orderly := by
  have hchange := s.step_change ev
  generalize s.step ev = s' at hchange
  cases hchange with
  | passes => exact h
  | begins r hfree =>
      refine h.goes rfl rfl (fun u _ hu => FairLock.holder_acquire hu) ?_ ?_
      · rintro ⟨⟩
      · rintro c ⟨⟩
  | enters hstage hheld | closes hstage hheld =>
      refine h.goes rfl rfl (fun u _ hu => hu) (fun _ => hheld) ?_
      rintro c ⟨⟩
  | refuses hstage hheld | drops hstage hheld | clears hstage hheld =>
      exact h.concludes rfl rfl hheld rfl (by rintro c ⟨⟩)
  | files hstage hunused => exact h.opens rfl rfl (h.holder _ _ hstage rfl)
  | fails hstage | ends hstage =>
      exact h.concludes rfl rfl (h.holder _ _ hstage rfl) rfl (by rintro c ⟨⟩)
  | loses c => exact ⟨h.holder, h.opened, h.distinct⟩

/-- Two requests that wait for the broker are the same. -/
theorem Orderly.alone (h : s.Orderly) {u : TaskId} {stage' : ChannelStage}
    (ht : s.requests t = some stage) (hholds : stage.holds = true)
    (hu : s.requests u = some stage') (hholds' : stage'.holds = true) : t = u :=
  Option.some.inj ((h.holder t stage ht hholds).symm.trans (h.holder u stage' hu hholds'))

end Orderly

section Sound

variable {s : ChannelTable}

theorem sound_new (bound : UInt16) : ({ bound } : ChannelTable).Sound :=
  ⟨filed_new bound, orderly_new bound⟩

/-- Every step keeps a table sound. -/
theorem Sound.step (h : s.Sound) (ev : ChannelEvent) : (s.step ev).Sound :=
  ⟨h.filed.step ev, h.orderly.step ev⟩

theorem bound_step (s : ChannelTable) (ev : ChannelEvent) : (s.step ev).bound = s.bound := by
  have hchange := s.step_change ev
  generalize s.step ev = s' at hchange
  cases hchange <;> rfl

end Sound

end ChannelTable

end AmqpDelivery
