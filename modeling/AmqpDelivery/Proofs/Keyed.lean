import AmqpDelivery.Keyed
import AmqpDelivery.Proofs.Text.Utf8
import Mathlib.Data.List.Nodup

/-!
# Tables after many writes

What a run of writes leaves in a table: a name has what was written last under it, or else what
stood there before (`Keyed.get?_foldl_of_last`, `Keyed.get?_foldl_of_forall_ne`). A table is known
by its look-ups (`Keyed.ext_get?`), and its keys stand in the order of their bytes
(`Keyed.keys_ascend`).
-/

namespace AmqpDelivery

section Writes

variable {α β : Type} {name : β → String} {l before after : List β} {e : β} {key : String}

/-- What is written under other names leaves a name alone. -/
theorem Keyed.get?_foldl_of_forall_ne (h : ∀ e ∈ l, name e ≠ key) (value : β → α) (t : Keyed α) :
    (l.foldl (fun t e => t.insert (name e) (value e)) t).get? key = t.get? key := by
  induction l generalizing t with
  | nil => rfl
  | cons head rest ih =>
      have hhead : key ≠ name head := (h head List.mem_cons_self).symm
      have hrest : ∀ e ∈ rest, name e ≠ key := fun e he => h e (List.mem_cons_of_mem head he)
      rw [List.foldl_cons, ih hrest, Keyed.get?_insert, if_neg hhead]

/-- What is written last under a name stands there. -/
theorem Keyed.get?_foldl_of_last (hl : l = before ++ e :: after) (hkey : name e = key)
    (hlast : ∀ e' ∈ after, name e' ≠ key) (value : β → α) (t : Keyed α) :
    (l.foldl (fun t e => t.insert (name e) (value e)) t).get? key = some (value e) := by
  rw [hl, List.foldl_append, List.foldl_cons, Keyed.get?_foldl_of_forall_ne hlast,
    Keyed.get?_insert, if_pos hkey.symm]

/-- Either no item is as asked, or there is a last one that is. -/
theorem exists_last (P : β → Prop) (l : List β) : (∀ e ∈ l, ¬P e) ∨
    ∃ before e after, l = before ++ e :: after ∧ P e ∧ ∀ e' ∈ after, ¬P e' := by
  induction l with
  | nil => exact Or.inl (List.forall_mem_nil _)
  | cons head rest ih =>
      rcases ih with hnone | ⟨before, e, after, rfl, he, hlast⟩
      · by_cases hhead : P head
        · exact Or.inr ⟨[], head, rest, rfl, hhead, hnone⟩
        · exact Or.inl (List.forall_mem_cons.mpr ⟨hhead, hnone⟩)
      · exact Or.inr ⟨head :: before, e, after, rfl, he, hlast⟩

end Writes

section Keys

variable {α : Type} {t : Keyed α} {key : String}

/-- Tables that give the same under every name are the same. -/
theorem Keyed.ext_get? {s t : Keyed α} (h : ∀ key, s.get? key = t.get? key) : s = t := by
  have hmem : ∀ {s t : Keyed α}, (∀ key, s.get? key = t.get? key) →
      ∀ e ∈ s.entries, e ∈ t.entries := by
    intro s t h e he
    exact t.mem_of_get? ((h e.1).symm.trans (s.get?_of_mem he))
  have hnodup : ∀ t : Keyed α, t.entries.Nodup := by
    intro t
    refine t.ordered.imp ?_
    rintro a b hab rfl
    exact String.lt_irrefl a.1 hab
  have hperm : s.entries.Perm t.entries := by
    refine (List.perm_ext_iff_of_nodup (hnodup s) (hnodup t)).mpr fun e => ⟨?_, ?_⟩
    · exact hmem h e
    · exact hmem (fun key => (h key).symm) e
  -- two keys cannot each stand before the other
  refine Keyed.ext (hperm.eq_of_pairwise ?_ s.ordered t.ordered)
  intro a b _ _ hab hba
  exact absurd (String.lt_trans hab hba) (String.lt_irrefl a.1)

theorem Keyed.mem_keys_iff : key ∈ t.keys ↔ ∃ value, t.get? key = some value := by
  unfold Keyed.keys
  rw [List.mem_map]
  constructor
  · rintro ⟨⟨k, value⟩, he, rfl⟩
    exact ⟨value, t.get?_of_mem he⟩
  · rintro ⟨value, hvalue⟩
    exact ⟨(key, value), t.mem_of_get? hvalue, rfl⟩

theorem Keyed.mem_keys_insert (t : Keyed α) (name : String) (value : α) :
    key ∈ (t.insert name value).keys ↔ key = name ∨ key ∈ t.keys := by
  rw [Keyed.mem_keys_iff, Keyed.mem_keys_iff, Keyed.get?_insert]
  by_cases h : key = name
  · simp [h]
  · simp [h]

/-- Keys stand in the order of their bytes. -/
theorem Keyed.keys_ascend (t : Keyed α) :
    t.keys.Pairwise fun a b => Text.utf8Bytes a < Text.utf8Bytes b := by
  refine List.pairwise_map.mpr (t.ordered.imp ?_)
  intro a b hlt
  exact Text.lt_iff_utf8Bytes_lt.mp hlt

end Keys

end AmqpDelivery
