import AmqpDelivery.Trace
import AmqpDelivery.Proofs.Keyed

/-!
# Trace context is read as it was written

Names are put into lowercase when context is written, and taken as they are when it is read. So what
is written under names that differ in case comes together, and an entry that stood in the table
under a name with capital letters stays beside it. `Trace.Reads` says what a look-up then gives, for
any table and any sequence of writes, and `trace_reads_back` that it is what the table gives, and
which names the table has.
-/

namespace AmqpDelivery

/-- Only a long string of valid UTF-8 has a text. -/
theorem FieldValue.text?_eq_some_iff {v : FieldValue} {s : String} :
    v.text? = some s ↔ v = .longString s.toUTF8 := by
  cases v with
  | longString bytes =>
      rw [FieldValue.text?, Text.fromUTF8?_eq_some_iff, FieldValue.longString.injEq]
  | _ => simp [FieldValue.text?]

namespace Trace

section Writes

variable {headers : FieldTable} {context : List (String × String)} {key : String}

theorem inject_eq (context : List (String × String)) (headers : FieldTable) :
    inject context headers =
      context.foldl (fun t e => t.insert (Text.lowercase e.1) (.ofText e.2)) headers := rfl

theorem get?_inject_of_forall_ne (h : ∀ e ∈ context, Text.lowercase e.1 ≠ key)
    (headers : FieldTable) : (inject context headers).get? key = headers.get? key := by
  rw [inject_eq, Keyed.get?_foldl_of_forall_ne h]

theorem get?_inject_of_last {before after : List (String × String)} {name value : String}
    (hcontext : context = before ++ (name, value) :: after) (hname : Text.lowercase name = key)
    (hlast : ∀ e ∈ after, Text.lowercase e.1 ≠ key) (headers : FieldTable) :
    (inject context headers).get? key = some (.ofText value) := by
  rw [inject_eq, Keyed.get?_foldl_of_last hcontext hname hlast]

theorem mem_keys_set (headers : FieldTable) (name value : String) :
    key ∈ (set headers name value).keys ↔ key ∈ headers.keys ∨ Text.lowercase name = key := by
  rw [set, Keyed.mem_keys_insert, or_comm, eq_comm]

/-- The names of the table are those that it had and those that were written, in lowercase. -/
theorem mem_keys_inject (context : List (String × String)) (headers : FieldTable) :
    key ∈ (inject context headers).keys ↔
      key ∈ headers.keys ∨ ∃ e ∈ context, Text.lowercase e.1 = key := by
  induction context generalizing headers with
  | nil => simp [inject]
  | cons e rest ih =>
      calc key ∈ (inject rest (set headers e.1 e.2)).keys
          ↔ key ∈ (set headers e.1 e.2).keys ∨ ∃ e' ∈ rest, Text.lowercase e'.1 = key := ih _
        _ ↔ (key ∈ headers.keys ∨ Text.lowercase e.1 = key) ∨
              ∃ e' ∈ rest, Text.lowercase e'.1 = key := by rw [mem_keys_set]
        _ ↔ key ∈ headers.keys ∨ ∃ e' ∈ e :: rest, Text.lowercase e'.1 = key := by
          rw [or_assoc, List.exists_mem_cons_iff]

end Writes

/-- What is read under a name after a sequence of writes: the value of the last write whose name in
lowercase is this one; without such a write, the text of the entry that was there under exactly this
name, if it is a long string of valid UTF-8; otherwise nothing. -/
inductive Reads (headers : FieldTable) (writes : List (String × String)) (key : String) :
    Option String → Prop
  | written {before after : List (String × String)} {name value : String}
      (hwrites : writes = before ++ (name, value) :: after) (hname : Text.lowercase name = key)
      (hlast : ∀ e ∈ after, Text.lowercase e.1 ≠ key) : Reads headers writes key (some value)
  | kept {text : String} (hwrites : ∀ e ∈ writes, Text.lowercase e.1 ≠ key)
      (hentry : headers.get? key = some (.longString text.toUTF8)) :
      Reads headers writes key (some text)
  | nothing (hwrites : ∀ e ∈ writes, Text.lowercase e.1 ≠ key)
      (hentry : ∀ text : String, headers.get? key ≠ some (.longString text.toUTF8)) :
      Reads headers writes key none

section Reads

variable {headers : FieldTable} {writes : List (String × String)} {key : String}
  {result : Option String}

theorem get?_eq_some_iff {text : String} :
    get? headers key = some text ↔ headers.get? key = some (.longString text.toUTF8) := by
  unfold get?
  rw [Option.bind_eq_some_iff]
  constructor
  · rintro ⟨v, hv, htext⟩
    rw [hv, FieldValue.text?_eq_some_iff.mp htext]
  · intro h
    exact ⟨_, h, FieldValue.text?_eq_some_iff.mpr rfl⟩

theorem get?_eq_none_iff : get? headers key = none ↔
    ∀ text : String, headers.get? key ≠ some (.longString text.toUTF8) := by
  rw [Option.eq_none_iff_forall_ne_some]
  exact forall_congr' fun text => not_congr get?_eq_some_iff

/-- A look-up gives what is read under the name. -/
theorem Reads.get? (h : Reads headers writes key result) :
    Trace.get? (inject writes headers) key = result := by
  cases h with
  | written hwrites hname hlast =>
      exact get?_eq_some_iff.mpr (get?_inject_of_last hwrites hname hlast headers)
  | kept hwrites hentry =>
      rw [get?_eq_some_iff, get?_inject_of_forall_ne hwrites]
      exact hentry
  | nothing hwrites hentry =>
      rw [get?_eq_none_iff, get?_inject_of_forall_ne hwrites]
      exact hentry

/-- Under every name something is read, or nothing. -/
theorem exists_reads (headers : FieldTable) (writes : List (String × String)) (key : String) :
    ∃ result, Reads headers writes key result := by
  rcases exists_last (fun e => Text.lowercase e.1 = key) writes with
    hnone | ⟨before, ⟨name, value⟩, after, hwrites, hname, hlast⟩
  · cases hread : Trace.get? headers key with
    | some text => exact ⟨some text, .kept hnone (get?_eq_some_iff.mp hread)⟩
    | none => exact ⟨none, .nothing hnone (get?_eq_none_iff.mp hread)⟩
  · exact ⟨some value, .written hwrites hname hlast⟩

theorem get?_inject_iff :
    Trace.get? (inject writes headers) key = result ↔ Reads headers writes key result := by
  constructor
  · intro h
    obtain ⟨result', hreads⟩ := exists_reads headers writes key
    rw [hreads.get?] at h
    exact h ▸ hreads
  · intro h
    exact h.get?

end Reads

end Trace

/-- After any sequence of writes to any table: a look-up gives what is read under its name; the
names are those that the table had and those that were written, in lowercase, each once and in the
order of their bytes; and where nothing was written the table is as it was. -/
theorem trace_reads_back (headers : FieldTable) (writes : List (String × String)) :
    let after := Trace.inject writes headers
    (∀ key result, Trace.get? after key = result ↔ Trace.Reads headers writes key result) ∧
    (after.keys.Nodup ∧ (after.keys.Pairwise fun a b => Text.utf8Bytes a < Text.utf8Bytes b) ∧
      ∀ key, key ∈ after.keys ↔
        key ∈ headers.keys ∨ ∃ e ∈ writes, Text.lowercase e.1 = key) ∧
    ∀ key, (∀ e ∈ writes, Text.lowercase e.1 ≠ key) → after.get? key = headers.get? key := by
  intro after
  refine ⟨?_, ⟨?_, ?_, ?_⟩, ?_⟩
  · intro key result
    exact Trace.get?_inject_iff
  · exact after.keys_nodup
  · exact after.keys_ascend
  · intro key
    exact Trace.mem_keys_inject writes headers
  · intro key hkey
    exact Trace.get?_inject_of_forall_ne hkey headers

/-- One name in two cases, bytes that are no text, and a short string. -/
def mixedHeaders : FieldTable :=
  Keyed.ofList [("TraceParent", .ofText "00-1-1-00"), ("traceparent", .longInt 1),
    ("x-bytes", .longString ⟨#[0xFF]⟩), ("x-id", .shortString "7")]

/-- One name in two cases, the second time over an integer, and a new name. -/
def mixedWrites : List (String × String) :=
  [("TraceParent", "00-2-2-00"), ("Baggage", "k=v"), ("TRACEPARENT", "00-3-3-00")]

theorem trace_reads_back_mixed :
    let after := Trace.inject mixedWrites mixedHeaders
    Trace.get? after "traceparent" = some "00-3-3-00" ∧
      Trace.get? after "TraceParent" = some "00-1-1-00" ∧
      Trace.get? after "x-bytes" = none ∧
      Trace.get? after "x-id" = none ∧
      "baggage" ∈ after.keys ∧ "Baggage" ∉ after.keys ∧
      (∀ e ∈ mixedWrites, Text.lowercase e.1 ≠ "x-id") ∧
      after.get? "x-id" = some (.shortString "7") := by
  intro after
  obtain ⟨hget, ⟨-, -, hkeys⟩, hkeep⟩ := trace_reads_back mixedHeaders mixedWrites
  have hid : ∀ e ∈ mixedWrites, Text.lowercase e.1 ≠ "x-id" := by decide +kernel
  refine ⟨(hget _ _).mpr ?_, (hget _ _).mpr ?_, (hget _ _).mpr ?_, (hget _ _).mpr ?_,
    (hkeys _).mpr ?_, ?_, hid, hkeep _ hid⟩
  · have hsplit : mixedWrites = mixedWrites.take 2 ++ [("TRACEPARENT", "00-3-3-00")] := rfl
    exact .written hsplit (by decide +kernel) (List.forall_mem_nil _)
  · exact .kept (by decide +kernel) (by rfl)
  · exact .nothing (by decide +kernel) (Trace.get?_eq_none_iff.mp (by decide +kernel))
  · exact .nothing hid (Trace.get?_eq_none_iff.mp (by decide +kernel))
  · exact Or.inr (by decide +kernel)
  · rw [hkeys]
    decide +kernel

end AmqpDelivery
