import AmqpDelivery.Proofs.Settings.Filing
import Mathlib.Data.List.TakeDrop
import Mathlib.Data.List.TakeWhile

/-!
# What a source supplies

The keys of a source may spell paths, and a source is the nested table that they spell
(`spread`). All sources are collected, and what has been collected is collected once more, so a key
is read twice as a path: as it was written, and in lowercase. What a source supplies at a place is
there at the end, filed (`at?_collectedTwice`), and the result is settled
(`settled_collectedTwice`).
-/

namespace AmqpDelivery

namespace SettingPath

theorem toNat_of_isNameChar {c : Char} (h : isNameChar c = true) : c.toNat < 0x80 := by
  have hbelow : ∀ {b : Char}, c.val ≤ b.val → b.toNat < 0x80 → c.toNat < 0x80 :=
    fun hle hb => Nat.lt_of_le_of_lt hle hb
  have hupper : c.isUpper = true → c.toNat < 0x80 := fun h =>
    hbelow (of_decide_eq_true h).2 (by decide)
  have hlower : c.isLower = true → c.toNat < 0x80 := fun h =>
    hbelow (of_decide_eq_true (Bool.and_eq_true_iff.1 h).2) (by decide)
  have hdigit : c.isDigit = true → c.toNat < 0x80 := fun h =>
    hbelow (of_decide_eq_true (Bool.and_eq_true_iff.1 h).2) (by decide)
  simp only [isNameChar, Bool.or_eq_true, beq_iff_eq] at h
  rcases h with ((halnum | rfl) | rfl) | rfl
  · rcases Bool.or_eq_true_iff.1 halnum with halpha | hd
    · exact (Bool.or_eq_true_iff.1 halpha).elim hupper hlower
    · exact hdigit hd
  all_goals decide

theorem isNameChar_toLower {c : Char} (h : isNameChar c = true) : isNameChar c.toLower = true := by
  have hall : ∀ code < 0x80, isNameChar (Char.ofNat code) = true →
      isNameChar (Char.ofNat code).toLower = true := by decide
  have hc := hall c.toNat (toNat_of_isNameChar h)
  rw [Char.ofNat_toNat] at hc
  exact hc h

/-- A name on its own. -/
theorem ofText?_of_name {s : String} (hne : s.toList ≠ [])
    (h : ∀ c ∈ s.toList, isNameChar c = true) : ofText? s = some ⟨s, []⟩ := by
  have hspan : s.toList.span isNameChar = (s.toList, []) := by
    rw [List.span_eq_takeWhile_dropWhile, List.takeWhile_eq_self_iff.2 h,
      List.dropWhile_eq_nil_iff.2 h]
  have htake : takeName s.toList = some (s, []) := by
    rw [takeName, hspan]
    cases hs : s.toList with
    | nil => exact absurd hs hne
    | cons c cs => simp [← hs]
  simp [ofText?, htake, takeSteps]

theorem head_of_ofText? {s : String} {p : SettingPath} (h : ofText? s = some p) :
    p.head.toList ≠ [] ∧ ∀ c ∈ p.head.toList, isNameChar c = true := by
  obtain ⟨taken, hname, hsteps⟩ := Option.bind_eq_some_iff.1 h
  obtain ⟨steps, -, hp⟩ := Option.bind_eq_some_iff.1 hsteps
  cases hp
  rw [takeName, List.span_eq_takeWhile_dropWhile] at hname
  cases htaken : s.toList.takeWhile isNameChar with
  | nil =>
      rw [htaken] at hname
      cases hname
  | cons c cs =>
      rw [htaken] at hname
      cases hname
      rw [String.toList_ofList, ← htaken]
      exact ⟨htaken ▸ List.cons_ne_nil c cs, fun d hd => List.mem_takeWhile_imp hd⟩

/-- The first name of a path is a name in lowercase as well. -/
theorem ofText?_lowercase_head {s : String} {p : SettingPath} (h : ofText? s = some p) :
    ofText? (Text.lowercase p.head) = some ⟨Text.lowercase p.head, []⟩ := by
  obtain ⟨hne, hname⟩ := head_of_ofText? h
  have hlower : (Text.lowercase p.head).toList = p.head.toList.map Char.toLower :=
    Text.toList_lowercase_ascii fun c hc => toNat_of_isNameChar (hname c hc)
  refine ofText?_of_name ?_ ?_ <;> rw [hlower]
  · exact fun hnil => hne (List.map_eq_nil_iff.1 hnil)
  · intro c hc
    obtain ⟨c', hc', rfl⟩ := List.mem_map.1 hc
    exact isNameChar_toLower (hname c' hc')

/-- The path that a key means: the one that it spells, or else the key itself. -/
def spelled (key : String) : SettingPath := (ofText? key).getD ⟨key, []⟩

end SettingPath

open SettingPath (spelled)

namespace RawSetting

/-! ## Paths as nested tables -/

/-- The tables that lead through the steps to a setting, and from an index on the array that filing
there makes. -/
def nest (value : RawSetting) : List PathStep → RawSetting
  | [] => value
  | .name key :: rest => .table none [(key, nest value rest)]
  | .index n :: rest => putSteps value (.index n :: rest) null

/-- What stands under the first name of a path after a setting has been filed at its steps. -/
def under (value : RawSetting) (steps : List PathStep) (old : Option RawSetting) : RawSetting :=
  match steps with
  | [] => filedOver old value
  | step :: rest => putSteps value (step :: rest) (old.getD null)

/-- An entry of a source as the entry of a nested table that its key spells. -/
def unfolded (e : String × RawSetting) : String × RawSetting :=
  ((spelled e.1).head, nest e.2 (spelled e.1).steps)

/-- A source as the nested table that its keys spell. -/
def spread (source : List (String × RawSetting)) : RawSetting := .table none (source.map unfolded)

theorem putSteps_name (value s : RawSetting) (key : String) (rest : List PathStep) :
    putSteps value (.name key :: rest) s = s.withEntry key (under value rest (s.entry? key)) := by
  cases rest with
  | nil => rw [putSteps, putKey_eq, under]
  | cons step rest => rw [putSteps, under]; exact List.cons_ne_nil step rest

theorem putSpelled_eq (s : RawSetting) (key : String) (value : RawSetting) :
    s.putSpelled key value =
      s.withEntry (spelled key).head
        (under value (spelled key).steps (s.entry? (spelled key).head)) := by
  unfold putSpelled spelled
  cases SettingPath.ofText? key with
  | none => exact putKey_eq s key value
  | some path =>
      obtain ⟨head, steps⟩ := path
      cases steps with
      | nil => exact putKey_eq s head value
      | cons step rest => rfl

section Steps

variable {value leaf : RawSetting} {names : List String}

theorem nest_index (value : RawSetting) (n : Int) (rest : List PathStep) :
    ∃ origin items, nest value (.index n :: rest) = .array origin items := by
  cases rest <;> exact ⟨none, _, rfl⟩

/-- An index leads into an array, which says something of every place. -/
theorem not_apart_index {n : Int} {rest : List PathStep} :
    ¬(nest value (.index n :: rest)).Apart names := by
  intro h
  obtain ⟨origin, items, harray⟩ := nest_index value n rest
  rw [harray] at h
  cases names <;> cases h

/-- On nothing, the setting is filed as the nested tables would be. -/
theorem under_none (value : RawSetting) (steps : List PathStep) :
    under value steps none = (nest value steps).filed := by
  induction steps with
  | nil => rfl
  | cons step rest ih =>
      cases step with
      | index n =>
        -- arrays are filed as they are
        obtain ⟨origin, items, harray⟩ := nest_index value n rest
        rw [harray]
        exact harray
      | name key =>
        have hentry : null.entry? key = none := rfl
        rw [under, Option.getD_none, putSteps_name, hentry, ih, nest, filed, filed, filedOver,
          putAll, putAll, putKey_eq]
        rfl

/-- Steps to a place of which the nested tables say nothing leave it alone. -/
theorem at?_under_of_apart {steps : List PathStep} (h : (nest value steps).Apart names)
    (old : Option RawSetting) : (under value steps old).at? names = old.bind (at? names) := by
  induction steps generalizing names old with
  | nil => exact at?_filedOver_of_apart h old
  | cons step rest ih =>
      cases step with
      | index n => exact absurd h not_apart_index
      | name key =>
        cases names with
        | nil => cases h
        | cons name names =>
          have hbelow := h (key, nest value rest) List.mem_cons_self
          have hnull : (old.getD null).at? (name :: names) = old.bind (at? (name :: names)) := by
            cases old <;> rfl
          rw [under, putSteps_name, at?_withEntry]
          split
          · next heq => rw [ih (hbelow heq), entry?_congr heq, ← at?, hnull]
          · exact hnull

theorem gives_single {origin : Option String} {key name : String}
    (h : (RawSetting.table origin [(key, value)]).Gives (name :: names) leaf) :
    Text.lowercase key = Text.lowercase name ∧ value.Gives names leaf := by
  generalize hs : RawSetting.table origin [(key, value)] = s at h
  cases h with
  | @inside _ before _ _ _ _ _ _ hkey hgives _ =>
      injection hs with _ hentries
      cases before with
      | nil =>
          cases hentries
          exact ⟨hkey, hgives⟩
      | cons e before => simp at hentries

/-- Steps to a place where nothing was give what the nested tables have there. -/
theorem at?_under_of_gives {steps : List PathStep} (h : (nest value steps).Gives names leaf)
    {old : Option RawSetting} (hold : old.bind (at? names) = none) :
    (under value steps old).at? names = some leaf.filed := by
  induction steps generalizing names old with
  | nil => exact at?_filedOver_of_gives h hold
  | cons step rest ih =>
      cases names with
      | nil =>
        -- the place ends before the steps do, so nothing at all was here
        generalize hs : nest value (step :: rest) = s at h
        cases h
        cases old with
        | none => rw [under_none, hs, at?]
        | some o => cases hold
      | cons name names =>
        cases step with
        | index n =>
          obtain ⟨origin, items, harray⟩ := nest_index value n rest
          rw [harray] at h
          cases h
        | name key =>
          obtain ⟨hkey, hbelow⟩ := gives_single h
          rw [under, putSteps_name, at?_withEntry, if_pos hkey]
          refine ih hbelow ?_
          rw [entry?_congr hkey, ← at?]
          cases old with
          | none => rfl
          | some o => exact hold

end Steps

/-! ## Collecting a source -/

section Collecting

variable {s leaf : RawSetting} {source : List (String × RawSetting)} {name : String}
  {names : List String}

theorem at?_putSpelled_of_apart {e : String × RawSetting}
    (h : Text.lowercase (unfolded e).1 = Text.lowercase name → (unfolded e).2.Apart names) :
    (s.putSpelled e.1 e.2).at? (name :: names) = s.at? (name :: names) := by
  rw [putSpelled_eq, at?_withEntry]
  split
  · next heq => rw [at?_under_of_apart (h heq), entry?_congr heq, at?]
  · rfl

/-- Places of which the entries of a source say nothing stay as they were. -/
theorem at?_collect_of_apart
    (h : ∀ e ∈ source,
      Text.lowercase (unfolded e).1 = Text.lowercase name → (unfolded e).2.Apart names) :
    (s.collect source).at? (name :: names) = s.at? (name :: names) := by
  induction source generalizing s with
  | nil => rfl
  | cons e rest ih =>
      have hrest := ih (s := s.putSpelled e.1 e.2) fun e' he' => h e' (List.mem_cons_of_mem e he')
      rw [collect, List.foldl_cons, ← collect, hrest,
        at?_putSpelled_of_apart (h e List.mem_cons_self)]

theorem collect_append (s : RawSetting) (first rest : List (String × RawSetting)) :
    s.collect (first ++ rest) = (s.collect first).collect rest :=
  List.foldl_append

/-- A source gives what it has at a place where nothing was. -/
theorem at?_collect_of_gives (h : (spread source).Gives (name :: names) leaf)
    (hs : s.at? (name :: names) = none) :
    (s.collect source).at? (name :: names) = some leaf.filed := by
  generalize ht : spread source = t at h
  cases h with
  | @inside _ before after key _ below _ _ hkey hgives hapart =>
      injection ht with _ hentries
      obtain ⟨first, rest, rfl, rfl, hrest⟩ := List.map_eq_append_iff.1 hentries
      obtain ⟨e, last, rfl, he, rfl⟩ := List.map_eq_cons_iff.1 hrest
      have hothers : ∀ e' ∈ first ++ last,
          Text.lowercase (unfolded e').1 = Text.lowercase name → (unfolded e').2.Apart names := by
        intro e' he'
        rw [← List.map_append] at hapart
        exact hapart (unfolded e') (List.mem_map_of_mem he')
      have hfirst : (s.collect first).at? (name :: names) = none := by
        rw [at?_collect_of_apart fun e' he' => hothers e' (List.mem_append_left last he'), hs]
      have hhead : (spelled e.1).head = key := congrArg Prod.fst he
      have hbelow : nest e.2 (spelled e.1).steps = below := congrArg Prod.snd he
      subst hhead hbelow
      rw [collect_append, collect, List.foldl_cons, ← collect,
        at?_collect_of_apart fun e' he' => hothers e' (List.mem_append_right first he'),
        putSpelled_eq, at?_withEntry, if_pos hkey]
      refine at?_under_of_gives hgives ?_
      rw [entry?_congr hkey, ← at?, hfirst]

theorem entries_withEntry (s value : RawSetting) (key : String) :
    (s.withEntry key value).entries = Entries.put (Text.lowercase key) value s.entries := by
  cases s <;> rfl

/-- The keys of what has been collected are first names in lowercase. -/
theorem key_of_mem_collect {e : String × RawSetting} (h : e ∈ (s.collect source).entries) :
    e ∈ s.entries ∨ ∃ e' ∈ source, e.1 = Text.lowercase (spelled e'.1).head := by
  induction source generalizing s with
  | nil => exact Or.inl h
  | cons e' rest ih =>
      rw [collect, List.foldl_cons, ← collect] at h
      rcases ih h with hmem | ⟨e'', he'', heq⟩
      · rw [putSpelled_eq, entries_withEntry] at hmem
        rcases Entries.mem_put hmem with rfl | hmem
        · exact Or.inr ⟨e', List.mem_cons_self, rfl⟩
        · exact Or.inl hmem
      · exact Or.inr ⟨e'', List.mem_cons_of_mem e' he'', heq⟩

theorem settled_under {value : RawSetting} {steps : List PathStep} {old : Option RawSetting}
    (hold : ∀ o ∈ old, o.Settled) : (under value steps old).Settled := by
  induction steps generalizing old with
  | nil => exact settled_filedOver hold value
  | cons step rest ih =>
      have hnull : (old.getD null).Settled := by
        cases old with
        | none => exact settled_null
        | some o => exact hold o rfl
      cases step with
      | index n =>
        cases rest <;> exact .array _ _
      | name key =>
        rw [under, putSteps_name]
        exact settled_withEntry hnull (ih fun o ho => hnull.of_entry ho) key

/-- What has been collected is settled. -/
theorem settled_collect (hs : s.Settled) (source : List (String × RawSetting)) :
    (s.collect source).Settled := by
  induction source generalizing s with
  | nil => exact hs
  | cons e rest ih =>
      rw [collect, List.foldl_cons, ← collect]
      refine ih ?_
      rw [putSpelled_eq]
      exact settled_withEntry hs (settled_under fun o ho => hs.of_entry ho) _

end Collecting

/-! ## Collecting twice -/

/-- What is read in the end from a source that is the only one. -/
def collectedTwice (source : List (String × RawSetting)) : RawSetting :=
  emptyTable.collect (emptyTable.collect source).entries

/-- A source has `leaf` at a place, up to the case of names, and says nothing else of it. Nor does a
key that spells a path only once it is in lowercase lead there. -/
structure Supplies (source : List (String × RawSetting)) (place : List String)
    (leaf : RawSetting) : Prop where
  gives : (spread source).Gives place leaf
  elsewhere : ∀ e ∈ source, SettingPath.ofText? e.1 = none →
    (spread [(Text.lowercase e.1, null)]).Apart place

/-- A source whose keys are names supplies what it has as a table. -/
theorem supplies_of_names {source : List (String × RawSetting)} {place : List String}
    {leaf : RawSetting} (hnames : ∀ e ∈ source, SettingPath.ofText? e.1 = some ⟨e.1, []⟩)
    (h : (RawSetting.table none source).Gives place leaf) : Supplies source place leaf where
  gives := by
    have hself : source.map unfolded = source.map id := by
      refine List.map_congr_left fun e he => ?_
      rw [unfolded, spelled, hnames e he, Option.getD_some]
      rfl
    rwa [spread, hself, List.map_id]
  elsewhere e he hnone := by
    rw [hnames e he] at hnone
    cases hnone

section Twice

variable {source : List (String × RawSetting)} {leaf : RawSetting} {name : String}
  {names : List String}

/-- Steps that part from a place do so with every setting at their end. -/
theorem apart_nest {steps : List PathStep} (h : (nest null steps).Apart names)
    (value : RawSetting) : (nest value steps).Apart names := by
  induction steps generalizing names with
  | nil => cases names <;> cases h
  | cons step rest ih =>
      cases step with
      | index n => exact absurd h not_apart_index
      | name key =>
        cases names with
        | nil => cases h
        | cons name names =>
          intro e he heq
          rw [List.mem_singleton.1 he] at heq ⊢
          exact ih (h (key, nest null rest) List.mem_cons_self heq)

/-- The other entries of what has been collected say nothing of the place when they are collected
once more. -/
theorem Supplies.apart (h : Supplies source (name :: names) leaf) {e : String × RawSetting}
    (he : e ∈ (emptyTable.collect source).entries) (hne : e.1 ≠ Text.lowercase name)
    (heq : Text.lowercase (unfolded e).1 = Text.lowercase name) :
    (unfolded e).2.Apart names := by
  rcases key_of_mem_collect he with hnone | ⟨e', he', hkey⟩
  · cases hnone
  · cases hpath : SettingPath.ofText? e'.1 with
    | some p =>
        -- the first name of a path is read as itself again
        have hhead : (spelled e'.1).head = p.head := by rw [spelled, hpath, Option.getD_some]
        have hspelled : (unfolded e).1 = Text.lowercase p.head := by
          rw [unfolded, hkey, hhead, spelled, SettingPath.ofText?_lowercase_head hpath,
            Option.getD_some]
        rw [hspelled, Text.lowercase_lowercase, ← hhead, ← hkey] at heq
        exact absurd heq hne
    | none =>
        -- in lowercase the key may be a path, but then it leads elsewhere
        have hself : (spelled e'.1).head = e'.1 := by rw [spelled, hpath, Option.getD_none]
        rw [hself] at hkey
        have hparts := h.elsewhere e' he' hpath
        rw [← hkey] at hparts
        exact apart_nest (hparts (unfolded (e.1, null)) List.mem_cons_self heq) e.2

/-- What a source supplies at a place is there in the end, filed. -/
theorem at?_collectedTwice (h : Supplies source (name :: names) leaf)
    (hname : spelled (Text.lowercase name) = ⟨Text.lowercase name, []⟩) :
    (collectedTwice source).at? (name :: names) = some leaf.filed := by
  have honce : (emptyTable.collect source).at? (name :: names) = some leaf.filed :=
    at?_collect_of_gives h.gives (at?_emptyTable name names)
  have hsettled : (emptyTable.collect source).Settled := settled_collect settled_emptyTable source
  obtain ⟨below, hentry, hleaf⟩ := Option.bind_eq_some_iff.1 honce
  have hmem := Entries.mem_of_find? hentry
  obtain ⟨before, after, hsplit⟩ := List.append_of_mem hmem
  -- what has been collected once is the source of the second time
  have hgives : (spread (emptyTable.collect source).entries).Gives (name :: names) leaf.filed := by
    have hown : unfolded (Text.lowercase name, below) = (Text.lowercase name, below) := by
      rw [unfolded, hname, nest]
    rw [spread, hsplit, List.map_append, List.map_cons, hown]
    refine .inside (Text.lowercase_lowercase name)
      (gives_of_at? (hsettled.of_entry hentry) hleaf) fun e he => ?_
    rw [← List.map_append] at he
    obtain ⟨e', he', rfl⟩ := List.mem_map.1 he
    refine h.apart ?_ (Entries.ne_of_ordered (hsplit ▸ hsettled.ordered) e' he')
    rw [hsplit]
    exact ((List.sublist_cons_self _ after).append_left before).mem he'
  rw [collectedTwice, at?_collect_of_gives hgives (at?_emptyTable name names),
    filed_of_settled (settled_filed leaf)]

theorem settled_collectedTwice (source : List (String × RawSetting)) :
    (collectedTwice source).Settled :=
  settled_collect settled_emptyTable _

end Twice

end RawSetting

end AmqpDelivery
