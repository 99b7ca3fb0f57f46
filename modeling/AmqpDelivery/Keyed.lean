/-!
# Tables ordered by key

Headers, configuration tables and registries are finite maps whose keys appear in the order of
their characters, which for text is also the order of their UTF-8 bytes. `Entries` works on bare
association lists, the form needed inside recursive types; `Keyed` adds the order as an invariant.
The main statements give the look-up after `insert` and `erase` (`get?_insert`, `get?_erase`).
-/

namespace AmqpDelivery

variable {α : Type}

namespace Entries

/-- The first value filed under `key`. -/
def find? (key : String) : List (String × α) → Option α
  | [] => none
  | (k, v) :: rest => if k = key then some v else find? key rest

/-- Files `value` under `key`, in place of an earlier value or before the first greater key. -/
def put (key : String) (value : α) : List (String × α) → List (String × α)
  | [] => [(key, value)]
  | (k, v) :: rest =>
      if k = key then (key, value) :: rest
      else if key < k then (key, value) :: (k, v) :: rest
      else (k, v) :: put key value rest

/-- Forgets every value filed under `key`. -/
def drop (key : String) (entries : List (String × α)) : List (String × α) :=
  entries.filter fun e => e.1 ≠ key

/-- The keys stand in strictly ascending order. -/
def Ordered (entries : List (String × α)) : Prop :=
  entries.Pairwise fun a b => a.1 < b.1

theorem mem_put {key : String} {value : α} {entries : List (String × α)} {e : String × α}
    (h : e ∈ put key value entries) : e = (key, value) ∨ e ∈ entries := by
  induction entries with
  | nil => simpa [put] using h
  | cons head rest ih =>
      obtain ⟨k, v⟩ := head
      unfold put at h
      split at h
      · simp only [List.mem_cons] at h ⊢
        rcases h with h | h
        · exact Or.inl h
        · exact Or.inr (Or.inr h)
      · split at h
        · simpa using h
        · simp only [List.mem_cons] at h ⊢
          rcases h with h | h
          · exact Or.inr (Or.inl h)
          · rcases ih h with h | h
            · exact Or.inl h
            · exact Or.inr (Or.inr h)

theorem ordered_put {key : String} {value : α} {entries : List (String × α)}
    (h : Ordered entries) : Ordered (put key value entries) := by
  induction entries with
  | nil => simp [put, Ordered]
  | cons head rest ih =>
      obtain ⟨k, v⟩ := head
      obtain ⟨hk, hrest⟩ := List.pairwise_cons.1 h
      unfold put
      split
      · rename_i heq
        subst heq
        exact List.pairwise_cons.2 ⟨hk, hrest⟩
      · split
        · rename_i hlt
          refine List.pairwise_cons.2 ⟨?_, h⟩
          intro e he
          rcases List.mem_cons.1 he with rfl | he
          · exact hlt
          · exact String.lt_trans hlt (hk e he)
        · rename_i hne hnlt
          refine List.pairwise_cons.2 ⟨?_, ih hrest⟩
          intro e he
          rcases mem_put he with rfl | he
          · rcases Decidable.em (k < key) with hkk | hkk
            · exact hkk
            · exact absurd (String.le_antisymm (String.not_lt.1 hnlt) (String.not_lt.1 hkk)) hne
          · exact hk e he

theorem ordered_drop {key : String} {entries : List (String × α)} (h : Ordered entries) :
    Ordered (drop key entries) :=
  List.Pairwise.filter _ h

@[simp] theorem find?_put_self (key : String) (value : α) (entries : List (String × α)) :
    find? key (put key value entries) = some value := by
  induction entries with
  | nil => simp [put, find?]
  | cons head rest ih =>
      obtain ⟨k, v⟩ := head
      unfold put
      split
      · simp [find?]
      · split
        · simp [find?]
        · rename_i hne _
          simp [find?, hne, ih]

theorem find?_put_of_ne {key other : String} (value : α) (entries : List (String × α))
    (h : other ≠ key) : find? other (put key value entries) = find? other entries := by
  induction entries with
  | nil => simp [put, find?, h.symm]
  | cons head rest ih =>
      obtain ⟨k, v⟩ := head
      unfold put
      split
      · rename_i heq
        subst heq
        simp [find?, h.symm]
      · split
        · simp [find?, h.symm]
        · simp [find?, ih]

theorem find?_drop (key other : String) (entries : List (String × α)) :
    find? other (drop key entries) = if other = key then none else find? other entries := by
  induction entries with
  | nil => simp [drop, find?]
  | cons head rest ih =>
      obtain ⟨k, v⟩ := head
      unfold drop at ih ⊢
      by_cases hk : k = key
      · subst hk
        simp only [ne_eq, not_true_eq_false, decide_false, Bool.false_eq_true, not_false_eq_true,
          List.filter_cons_of_neg, ih]
        by_cases ho : other = k
        · simp [ho]
        · simp [find?, ho, Ne.symm ho]
      · simp only [ne_eq, hk, not_false_eq_true, decide_true, List.filter_cons_of_pos, find?]
        by_cases hko : k = other
        · subst hko
          simp [hk]
        · simpa [hko] using ih

/-- Every value is found under its key. -/
theorem find?_of_mem {key : String} {value : α} {entries : List (String × α)}
    (h : Ordered entries) (hmem : (key, value) ∈ entries) : find? key entries = some value := by
  induction entries with
  | nil => cases hmem
  | cons head rest ih =>
      obtain ⟨k, v⟩ := head
      obtain ⟨hk, hrest⟩ := List.pairwise_cons.1 h
      rcases List.mem_cons.1 hmem with heq | hmem
      · cases heq
        exact if_pos rfl
      · have hne : k ≠ key := fun heq => String.lt_irrefl key (heq ▸ hk _ hmem)
        simpa [find?, hne] using ih hrest hmem

/-- What is found under a key was filed under it. -/
theorem mem_of_find? {key : String} {value : α} {entries : List (String × α)}
    (h : find? key entries = some value) : (key, value) ∈ entries := by
  induction entries with
  | nil => cases h
  | cons head rest ih =>
      obtain ⟨k, v⟩ := head
      unfold find? at h
      split at h
      · next heq =>
        cases h
        exact heq ▸ List.mem_cons_self
      · exact List.mem_cons_of_mem _ (ih h)

end Entries

/-- A finite map from text, its entries in the order of their keys. -/
structure Keyed (α : Type) where
  entries : List (String × α)
  ordered : Entries.Ordered entries

namespace Keyed

/-- The table without entries. -/
def empty : Keyed α := ⟨[], List.Pairwise.nil⟩

instance : Inhabited (Keyed α) := ⟨empty⟩

/-- The value filed under `key`. -/
def get? (t : Keyed α) (key : String) : Option α := Entries.find? key t.entries

/-- Files `value` under `key`, replacing an earlier value. -/
def insert (t : Keyed α) (key : String) (value : α) : Keyed α :=
  ⟨Entries.put key value t.entries, Entries.ordered_put t.ordered⟩

/-- Forgets `key`. -/
def erase (t : Keyed α) (key : String) : Keyed α :=
  ⟨Entries.drop key t.entries, Entries.ordered_drop t.ordered⟩

/-- Files every pair of the list in turn, so the last of equal keys stays. -/
def ofList (pairs : List (String × α)) : Keyed α :=
  pairs.foldl (fun t e => t.insert e.1 e.2) empty

/-- The keys in ascending order. -/
def keys (t : Keyed α) : List String := t.entries.map Prod.fst

/-- No key is filed. -/
def isEmpty (t : Keyed α) : Bool := t.entries.isEmpty

@[ext] theorem ext {s t : Keyed α} (h : s.entries = t.entries) : s = t := by
  cases s; cases t; cases h; rfl

instance [DecidableEq α] : DecidableEq (Keyed α) := fun s t =>
  if h : s.entries = t.entries then isTrue (ext h) else isFalse fun e => h (e ▸ rfl)

@[simp] theorem get?_empty (key : String) : (empty : Keyed α).get? key = none := rfl

theorem get?_insert (t : Keyed α) (key other : String) (value : α) :
    (t.insert key value).get? other = if other = key then some value else t.get? other := by
  unfold get? insert
  by_cases h : other = key
  · subst h; simp
  · simp [h, Entries.find?_put_of_ne value t.entries h]

theorem get?_of_mem (t : Keyed α) {key : String} {value : α} (h : (key, value) ∈ t.entries) :
    t.get? key = some value :=
  Entries.find?_of_mem t.ordered h

theorem mem_of_get? (t : Keyed α) {key : String} {value : α} (h : t.get? key = some value) :
    (key, value) ∈ t.entries :=
  Entries.mem_of_find? h

/-- No key is filed twice. -/
theorem keys_nodup (t : Keyed α) : t.keys.Nodup := by
  refine List.pairwise_map.2 (t.ordered.imp ?_)
  intro a b hlt heq
  exact String.lt_irrefl b.1 (heq ▸ hlt)

theorem get?_erase (t : Keyed α) (key other : String) :
    (t.erase key).get? other = if other = key then none else t.get? other :=
  Entries.find?_drop key other t.entries

end Keyed

end AmqpDelivery
