import AmqpDelivery.Settings.Path
import AmqpDelivery.Proofs.Text.Lowercase
import Mathlib.Data.List.Basic

/-!
# What filing settings leaves at a place

A place is a list of names that lead through nested tables. A setting that is filed gives what it
has at a place (`at?_filedOver_of_gives`) and leaves alone the places of which it says nothing
(`at?_filedOver_of_apart`), whatever it is filed over. Filed settings are settled: their keys are in
lowercase and in order (`settled_filedOver`). Filing settled settings once more changes nothing
(`filed_of_settled`), and what they have at a place is all that they say of it (`gives_of_at?`).
-/

namespace AmqpDelivery

namespace Entries

variable {α : Type}

/-- A key beyond all others goes to the end. -/
theorem put_last {key : String} {value : α} {entries : List (String × α)}
    (h : ∀ e ∈ entries, e.1 < key) : put key value entries = entries ++ [(key, value)] := by
  induction entries with
  | nil => rfl
  | cons head rest ih =>
      obtain ⟨k, v⟩ := head
      have hlt : k < key := h (k, v) List.mem_cons_self
      have hne : k ≠ key := fun heq => String.lt_irrefl key (heq ▸ hlt)
      rw [put, if_neg hne, if_neg (String.lt_asymm hlt),
        ih fun e he => h e (List.mem_cons_of_mem _ he)]
      rfl

theorem find?_eq_none {key : String} {entries : List (String × α)}
    (h : ∀ e ∈ entries, e.1 ≠ key) : find? key entries = none := by
  induction entries with
  | nil => rfl
  | cons head rest ih =>
      rw [find?, if_neg (h head List.mem_cons_self), ih fun e he => h e (List.mem_cons_of_mem _ he)]

/-- In an ordered table a key stands once. -/
theorem ne_of_ordered {before after : List (String × α)} {key : String} {value : α}
    (h : Ordered (before ++ (key, value) :: after)) : ∀ e ∈ before ++ after, e.1 ≠ key := by
  obtain ⟨-, hafter, hacross⟩ := List.pairwise_append.1 h
  intro e he heq
  rcases List.mem_append.1 he with he | he
  · have hlt := hacross e he (key, value) List.mem_cons_self
    exact String.lt_irrefl key (heq ▸ hlt)
  · have hlt := (List.pairwise_cons.1 hafter).1 e he
    exact String.lt_irrefl key (heq ▸ hlt)

end Entries

namespace RawSetting

/-! ## Filing over what is there -/

/-- What stands under a key after a setting has been filed over `old`: a table is filed entry by
entry into what is there, anything else takes its place. -/
def filedOver (old : Option RawSetting) : RawSetting → RawSetting
  | .table _ incoming => putAll (old.getD emptyTable) incoming
  | s => s

/-- What stands under a free key after a setting has been filed there. -/
def filed (s : RawSetting) : RawSetting := filedOver none s

/-- The setting at a place. -/
def at? : List String → RawSetting → Option RawSetting
  | [], s => some s
  | name :: names, s => (s.entry? name).bind (at? names)

@[simp] theorem at?_singleton (s : RawSetting) (name : String) : s.at? [name] = s.entry? name := by
  rw [at?]
  cases s.entry? name <;> rfl

theorem putKey_eq (s : RawSetting) (key : String) (value : RawSetting) :
    s.putKey key value = s.withEntry key (filedOver (s.entry? key) value) := by
  cases value with
  | table origin incoming => rw [putKey, filedOver]
  | _ => rfl

theorem putAll_append (s : RawSetting) (before after : List (String × RawSetting)) :
    s.putAll (before ++ after) = (s.putAll before).putAll after := by
  induction before generalizing s with
  | nil => rw [List.nil_append, putAll]
  | cons e before ih => rw [List.cons_append, putAll, putAll, ih]

theorem entry?_congr {s : RawSetting} {key name : String}
    (h : Text.lowercase key = Text.lowercase name) : s.entry? key = s.entry? name := by
  rw [ entry?, entry?, h]

theorem entry?_withEntry (s value : RawSetting) (key name : String) :
    entry? (s.withEntry key value) name =
      if Text.lowercase key = Text.lowercase name then some value else s.entry? name := by
  cases s with
  | table origin entries =>
      by_cases h : Text.lowercase key = Text.lowercase name
      · simp [ entry?, withEntry, RawSetting.entries, h]
      · simp [ entry?, withEntry, RawSetting.entries, h,
          Entries.find?_put_of_ne value entries (Ne.symm h)]
  | _ => simp [ entry?, withEntry, RawSetting.entries, Entries.find?]

theorem at?_withEntry (s value : RawSetting) (key name : String) (names : List String) :
    (s.withEntry key value).at? (name :: names) =
      if Text.lowercase key = Text.lowercase name then value.at? names
      else s.at? (name :: names) := by
  rw [at?, entry?_withEntry]
  split <;> rfl

@[simp] theorem at?_emptyTable (name : String) (names : List String) :
    emptyTable.at? (name :: names) = none := rfl

/-! ## Places that a setting speaks of -/

/-- A setting says nothing of a place: it is a table on the way there, and so is all that it has
under the names on the way, until they part. -/
def Apart : List String → RawSetting → Prop
  | name :: names, .table _ entries =>
      ∀ e ∈ entries, Text.lowercase e.1 = Text.lowercase name → Apart names e.2
  | _, _ => False

/-- A setting has `leaf` at a place, up to the case of names, and says nothing else of it. -/
inductive Gives : RawSetting → List String → RawSetting → Prop
  | here (leaf : RawSetting) : Gives leaf [] leaf
  | inside {origin : Option String} {before after : List (String × RawSetting)} {key name : String}
      {s leaf : RawSetting} {names : List String}
      (hkey : Text.lowercase key = Text.lowercase name) (hgives : Gives s names leaf)
      (hapart : ∀ e ∈ before ++ after, Text.lowercase e.1 = Text.lowercase name → e.2.Apart names) :
      Gives (.table origin (before ++ (key, s) :: after)) (name :: names) leaf

/-- Filing a setting leaves the place alone, whatever it is filed over. -/
def Spares (names : List String) (s : RawSetting) : Prop :=
  ∀ old : Option RawSetting, (filedOver old s).at? names = old.bind (at? names)

section Filing

variable {s leaf : RawSetting} {name : String} {names : List String}

theorem at?_putKey_of_spares {key : String} {value : RawSetting}
    (h : Text.lowercase key = Text.lowercase name → value.Spares names) :
    (s.putKey key value).at? (name :: names) = s.at? (name :: names) := by
  rw [putKey_eq, at?_withEntry]
  split
  · next heq => rw [h heq, entry?_congr heq, at?]
  · rfl

theorem at?_putAll_of_spares {incoming : List (String × RawSetting)}
    (h : ∀ e ∈ incoming, Text.lowercase e.1 = Text.lowercase name → e.2.Spares names) :
    (s.putAll incoming).at? (name :: names) = s.at? (name :: names) := by
  induction incoming generalizing s with
  | nil => rw [putAll]
  | cons e rest ih =>
      rw [putAll, ih fun e' he' => h e' (List.mem_cons_of_mem e he'),
        at?_putKey_of_spares (h e List.mem_cons_self)]

theorem at?_getD_emptyTable (old : Option RawSetting) :
    (old.getD emptyTable).at? (name :: names) = old.bind (at? (name :: names)) := by
  cases old <;> rfl

/-- A setting that says nothing of a place leaves it alone. -/
theorem at?_filedOver_of_apart (h : s.Apart names) : s.Spares names := by
  induction names generalizing s with
  | nil => cases s <;> cases h
  | cons name names ih =>
      cases s with
      | table origin entries =>
          intro old
          rw [filedOver, at?_putAll_of_spares fun e he heq => ih (h e he heq), at?_getD_emptyTable]
      | _ => cases h

/-- A setting that is filed gives what it has at a place where nothing was. -/
theorem at?_filedOver_of_gives (h : s.Gives names leaf) {old : Option RawSetting}
    (hold : old.bind (at? names) = none) : (filedOver old s).at? names = some leaf.filed := by
  induction h generalizing old with
  | here leaf =>
      cases old with
      | none => rfl
      | some o => cases hold
  | @inside origin before after key name s leaf names hkey _ hapart ih =>
      have hspares : ∀ e ∈ before ++ after,
          Text.lowercase e.1 = Text.lowercase name → e.2.Spares names :=
        fun e he heq => at?_filedOver_of_apart (hapart e he heq)
      -- the entries after the one that counts leave the place alone, and so do those before it
      rw [filedOver, putAll_append, putAll,
        at?_putAll_of_spares fun e he => hspares e (List.mem_append_right before he), putKey_eq,
        at?_withEntry, if_pos hkey]
      refine ih ?_
      rw [entry?_congr hkey, ← at?,
        at?_putAll_of_spares fun e he => hspares e (List.mem_append_left _ he),
        at?_getD_emptyTable, hold]

/-- The only entry of a table is all that it says. -/
theorem gives_only {origin : Option String} (h : s.Gives names leaf) (key : String) :
    (RawSetting.table origin [(key, s)]).Gives (key :: names) leaf :=
  @Gives.inside origin [] [] key key s leaf names rfl h fun _ he => absurd he List.not_mem_nil

end Filing

/-! ## Settled settings -/

/-- Keys are in lowercase and in order, down to scalars and arrays. -/
inductive Settled : RawSetting → Prop
  | scalar (origin : Option String) (value : Scalar) : Settled (.scalar origin value)
  | array (origin : Option String) (items : List RawSetting) : Settled (.array origin items)
  | table {entries : List (String × RawSetting)} (hordered : Entries.Ordered entries)
      (hlower : ∀ e ∈ entries, Text.lowercase e.1 = e.1) (hbelow : ∀ e ∈ entries, Settled e.2) :
      Settled (.table none entries)

theorem settled_emptyTable : emptyTable.Settled :=
  .table List.Pairwise.nil (fun _ he => absurd he List.not_mem_nil)
    fun _ he => absurd he List.not_mem_nil

theorem settled_null : null.Settled := .scalar none .null

/-- Settled settings with an entry are a table without a source. -/
theorem Settled.eq_table {s value : RawSetting} {key : String} (hs : s.Settled)
    (h : s.entry? key = some value) : s = .table none s.entries := by
  cases hs with
  | table _ _ _ => rfl
  | _ => cases h

theorem putAll_table (origin : Option String) (entries incoming : List (String × RawSetting)) :
    (RawSetting.table origin entries).putAll incoming =
      .table origin ((RawSetting.table origin entries).putAll incoming).entries := by
  induction incoming generalizing entries with
  | nil => rw [putAll]; rfl
  | cons e rest ih =>
      rw [putAll, putKey_eq, withEntry]
      exact ih _

/-- A table that is filed is a table without a source. -/
theorem filed_table (origin : Option String) (entries : List (String × RawSetting)) :
    (RawSetting.table origin entries).filed =
      .table none (RawSetting.table origin entries).filed.entries :=
  putAll_table none [] entries

theorem Settled.ordered {s : RawSetting} (hs : s.Settled) : Entries.Ordered s.entries := by
  cases hs with
  | table hordered _ _ => exact hordered
  | _ => exact List.Pairwise.nil

/-- Under a key that is not in lowercase there is nothing. -/
theorem Settled.find?_eq {s : RawSetting} (hs : s.Settled) (key : String) :
    Entries.find? key s.entries = if Text.lowercase key = key then s.entry? key else none := by
  split
  · next h => rw [ entry?, h]
  · next h =>
    refine Entries.find?_eq_none fun e he heq => h ?_
    cases hs with
    | table _ hlower _ => rw [← heq, hlower e he]
    | _ => cases he

theorem Settled.of_entry {s : RawSetting} {key : String} {value : RawSetting} (hs : s.Settled)
    (h : s.entry? key = some value) : value.Settled := by
  cases hs with
  | table _ _ hbelow => exact hbelow _ (Entries.mem_of_find? h)
  | _ => cases h

theorem settled_withEntry {s value : RawSetting} (hs : s.Settled) (hvalue : value.Settled)
    (key : String) : (s.withEntry key value).Settled := by
  have hsingle : (RawSetting.table none [(Text.lowercase key, value)]).Settled :=
    .table (List.pairwise_singleton _ _)
      (fun e he => by rw [List.mem_singleton.1 he]; exact Text.lowercase_lowercase key)
      (fun e he => by rw [List.mem_singleton.1 he]; exact hvalue)
  cases hs with
  | scalar => exact hsingle
  | array => exact hsingle
  | table hordered hlower hbelow =>
      refine .table (Entries.ordered_put hordered) (fun e he => ?_) fun e he => ?_
      · rcases Entries.mem_put he with rfl | he
        · exact Text.lowercase_lowercase key
        · exact hlower e he
      · rcases Entries.mem_put he with rfl | he
        · exact hvalue
        · exact hbelow e he

mutual

theorem settled_putKey {s : RawSetting} (hs : s.Settled) (key : String) :
    (value : RawSetting) → (s.putKey key value).Settled
  | .table _ incoming => by
      rw [putKey]
      refine settled_withEntry hs (settled_putAll ?_ incoming) key
      cases h : s.entry? key with
      | none => exact settled_emptyTable
      | some o => exact hs.of_entry h
  | .scalar origin value => by
      rw [putKey]
      exact settled_withEntry hs (.scalar origin value) key
  | .array origin items => by
      rw [putKey]
      exact settled_withEntry hs (.array origin items) key

theorem settled_putAll {s : RawSetting} (hs : s.Settled) :
    (incoming : List (String × RawSetting)) → (s.putAll incoming).Settled
  | [] => by
      rw [putAll]
      exact hs
  | (key, value) :: rest => by
      rw [putAll]
      exact settled_putAll (settled_putKey hs key value) rest

end

/-- Whatever is filed over settled settings is settled. -/
theorem settled_filedOver {old : Option RawSetting} (hold : ∀ o ∈ old, o.Settled)
    (value : RawSetting) : (filedOver old value).Settled := by
  cases value with
  | scalar origin value => exact .scalar origin value
  | array origin items => exact .array origin items
  | table origin incoming =>
      refine settled_putAll ?_ incoming
      cases old with
      | none => exact settled_emptyTable
      | some o => exact hold o rfl

theorem settled_filed (value : RawSetting) : value.filed.Settled :=
  settled_filedOver (fun _ ho => absurd ho (Option.not_mem_none _)) value

/-- Filing settled settings once more changes nothing. -/
theorem filed_of_settled {s : RawSetting} (hs : s.Settled) : s.filed = s := by
  induction hs with
  | scalar => rfl
  | array => rfl
  | @table entries hordered hlower _ ih =>
      -- filed one by one in their order, the entries come to stand as they were
      have hall : ∀ rest done, done ++ rest = entries →
          (RawSetting.table none done).putAll rest = .table none entries := by
        intro rest
        induction rest with
        | nil =>
            intro done hsplit
            rw [putAll, ← hsplit, List.append_nil]
        | cons e rest ihrest =>
            intro done hsplit
            have he : e ∈ entries := hsplit ▸ List.mem_append_right done List.mem_cons_self
            have hlast : ∀ d ∈ done, d.1 < e.1 := fun d hd =>
              (List.pairwise_append.1 (hsplit ▸ hordered)).2.2 d hd e List.mem_cons_self
            have hfree : Entries.find? e.1 done = none :=
              Entries.find?_eq_none fun d hd heq => String.lt_irrefl e.1 (heq ▸ hlast d hd)
            rw [putAll, putKey_eq, entry?, RawSetting.entries, hlower e he, hfree, withEntry,
              hlower e he, Entries.put_last hlast]
            have hvalue : filedOver none e.2 = e.2 := ih e he
            rw [hvalue]
            exact ihrest _ (by rw [← hsplit, List.append_assoc, List.singleton_append])
      exact hall entries [] rfl

/-- What settled settings have at a place is all that they say of it. -/
theorem gives_of_at? {s leaf : RawSetting} {names : List String} (hs : s.Settled)
    (h : s.at? names = some leaf) : s.Gives names leaf := by
  induction names generalizing s with
  | nil =>
      cases h
      exact .here _
  | cons name names ih =>
      obtain ⟨below, hentry, hleaf⟩ := Option.bind_eq_some_iff.1 h
      cases hs with
      | table hordered hlower hbelow =>
          have hmem := Entries.mem_of_find? hentry
          obtain ⟨before, after, rfl⟩ := List.append_of_mem hmem
          refine .inside (Text.lowercase_lowercase name) (ih (hbelow _ hmem) hleaf)
            fun e he heq => ?_
          have hin : e ∈ before ++ (Text.lowercase name, below) :: after :=
            ((List.sublist_cons_self _ after).append_left before).mem he
          rw [hlower e hin] at heq
          exact absurd heq (Entries.ne_of_ordered hordered e he)
      | _ => cases hentry

end RawSetting

end AmqpDelivery
