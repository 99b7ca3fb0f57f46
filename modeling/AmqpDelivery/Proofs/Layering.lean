import AmqpDelivery.Producer
import AmqpDelivery.Proofs.Propagation
import AmqpDelivery.Proofs.Republication

/-!
# The layers of outgoing headers

Trace context, the headers of the sender and the delay are written into one table, one over the
other. `Outgoing.Carries` says what stands under a name, layer by layer from the top, and it is what
the table gives whatever the order in which the headers of the sender are laid
(`outgoing_headers_layered`).
-/

namespace AmqpDelivery

/-- The value of the sender as it travels: of the same kind, with the same number or text. -/
inductive HeaderValue.Conveys : HeaderValue → FieldValue → Prop
  | shortString (s : String) : Conveys (.shortString s) (.shortString s)
  | longString {s : String} {bytes : ByteArray} (h : String.fromUTF8? bytes = some s) :
      Conveys (.longString s) (.longString bytes)
  | int (n : Int16) : Conveys (.int n) (.shortInt n)
  | longInt (n : Int32) : Conveys (.longInt n) (.longInt n)
  | longLongInt (n : Int64) : Conveys (.longLongInt n) (.longLongInt n)
  | uint (n : UInt32) : Conveys (.uint n) (.longUInt n)

/-- What stands under a name in the headers of the message: the delay, if one is set and this is its
name; otherwise the value of the sender; otherwise the last piece of trace context whose name in
lowercase is this one; otherwise nothing. -/
inductive Outgoing.Carries (m : Outgoing) (context : List (String × String)) (key : String) :
    Option FieldValue → Prop
  | delay {ms : UInt32} {n : Int32} (hkey : key = delayHeader) (hms : m.delayMs = some ms)
      (hn : n.toInt = min (ms.toNat : Int) 0x7FFFFFFF) : Carries m context key (some (.longInt n))
  | own {v : HeaderValue} {w : FieldValue} (hdelay : key = delayHeader → m.delayMs = none)
      (hv : m.headers.get? key = some v) (hw : v.Conveys w) : Carries m context key (some w)
  | trace {before after : List (String × String)} {name value : String}
      (hdelay : key = delayHeader → m.delayMs = none) (hown : m.headers.get? key = none)
      (hcontext : context = before ++ (name, value) :: after) (hname : Text.lowercase name = key)
      (hlast : ∀ e ∈ after, Text.lowercase e.1 ≠ key) :
      Carries m context key (some (.ofText value))
  | nothing (hdelay : key = delayHeader → m.delayMs = none) (hown : m.headers.get? key = none)
      (hcontext : ∀ e ∈ context, Text.lowercase e.1 ≠ key) : Carries m context key none

/-- The headers of the message when those of the sender are laid in the order of the list. -/
def Outgoing.headersInOrder (m : Outgoing) (pairs : List (String × HeaderValue))
    (context : List (String × String)) : FieldTable :=
  let below := layHeaders pairs (Trace.inject context Keyed.empty)
  match m.delayMs with
  | some ms => below.insert delayHeader (delayValue ms)
  | none => below

/-- The properties of the message when its headers are laid in the order of the list. -/
def Outgoing.propertiesInOrder (m : Outgoing) (pairs : List (String × HeaderValue))
    (context : List (String × String)) (messageId : String) : Properties :=
  { m.properties context messageId with headers := some (m.headersInOrder pairs context) }

section Values

variable {v : HeaderValue} {w : FieldValue}

/-- A value of the sender is sent as the one that conveys it. -/
theorem HeaderValue.conveys_iff : v.Conveys w ↔ v.field = w := by
  constructor
  · intro h
    cases h with
    | longString hs => exact congrArg FieldValue.longString (Text.toUTF8_of_fromUTF8? hs)
    | _ => rfl
  · rintro rfl
    cases v with
    | longString s => exact .longString (Text.fromUTF8?_toUTF8 s)
    | _ => constructor

end Values

section Layers

variable {m : Outgoing} {pairs : List (String × HeaderValue)} {context : List (String × String)}
  {key : String} {headers : FieldTable} {v : HeaderValue} {w : Option FieldValue}

namespace Outgoing

theorem keys_nodup_of_perm (hpairs : pairs.Perm m.headers.entries) : (pairs.map Prod.fst).Nodup :=
  (hpairs.map Prod.fst).nodup_iff.mpr m.headers.keys_nodup

/-- A name of the sender has the value of the sender, wherever it stands among the others. -/
theorem get?_layHeaders_of_some (hpairs : pairs.Perm m.headers.entries)
    (hv : m.headers.get? key = some v) (headers : FieldTable) :
    (layHeaders pairs headers).get? key = some v.field := by
  have hmem : (key, v) ∈ pairs := hpairs.mem_iff.mpr (m.headers.mem_of_get? hv)
  obtain ⟨before, after, rfl⟩ := List.append_of_mem hmem
  -- the name does not come again
  have hafter : ∀ e ∈ after, e.1 ≠ key := by
    intro e he heq
    have hnodup := keys_nodup_of_perm hpairs
    rw [List.map_append, List.map_cons, List.nodup_append, List.nodup_cons] at hnodup
    exact hnodup.2.1.1 (List.mem_map.mpr ⟨e, he, heq⟩)
  rw [layHeaders, Keyed.get?_foldl_of_last rfl rfl hafter]

/-- A name that the sender does not set keeps what stood there. -/
theorem get?_layHeaders_of_none (hpairs : pairs.Perm m.headers.entries)
    (hv : m.headers.get? key = none) (headers : FieldTable) :
    (layHeaders pairs headers).get? key = headers.get? key := by
  have hne : ∀ e ∈ pairs, e.1 ≠ key := by
    rintro ⟨k, v⟩ he rfl
    rw [m.headers.get?_of_mem (hpairs.mem_iff.mp he)] at hv
    cases hv
  rw [layHeaders, Keyed.get?_foldl_of_forall_ne hne]

theorem get?_headersInOrder_delay {ms : UInt32} (hms : m.delayMs = some ms) :
    (m.headersInOrder pairs context).get? delayHeader = some (delayValue ms) := by
  simp only [headersInOrder, hms]
  rw [Keyed.get?_insert, if_pos rfl]

/-- A delay lies over its own name only. -/
theorem get?_headersInOrder_of_apart (hdelay : key = delayHeader → m.delayMs = none) :
    (m.headersInOrder pairs context).get? key =
      (layHeaders pairs (Trace.inject context Keyed.empty)).get? key := by
  unfold headersInOrder
  cases hms : m.delayMs with
  | none => rfl
  | some ms =>
      have hkey : key ≠ delayHeader := by
        intro heq
        rw [hdelay heq] at hms
        cases hms
      show (Keyed.insert _ delayHeader _).get? key = _
      rw [Keyed.get?_insert, if_neg hkey]

/-- The table gives what the message carries under the name. -/
theorem Carries.get? (hpairs : pairs.Perm m.headers.entries) (h : m.Carries context key w) :
    (m.headersInOrder pairs context).get? key = w := by
  cases h with
  | @delay ms n hkey hms hn =>
      have hvalue : n = Int32.ofNat (min ms.toNat 0x7FFFFFFF) :=
        Int32.toInt_inj.mp (hn.trans (toInt_delay ms).symm)
      rw [hkey, get?_headersInOrder_delay hms, hvalue, delayValue]
  | own hdelay hv hw =>
      rw [get?_headersInOrder_of_apart hdelay, get?_layHeaders_of_some hpairs hv,
        HeaderValue.conveys_iff.mp hw]
  | trace hdelay hown hcontext hname hlast =>
      rw [get?_headersInOrder_of_apart hdelay, get?_layHeaders_of_none hpairs hown,
        Trace.get?_inject_of_last hcontext hname hlast]
  | nothing hdelay hown hcontext =>
      rw [get?_headersInOrder_of_apart hdelay, get?_layHeaders_of_none hpairs hown,
        Trace.get?_inject_of_forall_ne hcontext, Keyed.get?_empty]

/-- Under every name the message carries something, or nothing. -/
theorem exists_carries (m : Outgoing) (context : List (String × String)) (key : String) :
    ∃ w, m.Carries context key w := by
  by_cases hkey : key = delayHeader ∧ m.delayMs ≠ none
  · obtain ⟨hkey, hms⟩ := hkey
    obtain ⟨ms, hms⟩ := Option.ne_none_iff_exists'.mp hms
    exact ⟨_, .delay hkey hms (toInt_delay ms)⟩
  · have hdelay : key = delayHeader → m.delayMs = none := by
      intro heq
      by_contra hms
      exact hkey ⟨heq, hms⟩
    cases hown : m.headers.get? key with
    | some v => exact ⟨_, .own hdelay hown (HeaderValue.conveys_iff.mpr rfl)⟩
    | none =>
        rcases exists_last (fun e => Text.lowercase e.1 = key) context with
          hnone | ⟨before, ⟨name, value⟩, after, hcontext, hname, hlast⟩
        · exact ⟨none, .nothing hdelay hown hnone⟩
        · exact ⟨_, .trace hdelay hown hcontext hname hlast⟩

theorem get?_headersInOrder_iff (hpairs : pairs.Perm m.headers.entries) :
    (m.headersInOrder pairs context).get? key = w ↔ m.Carries context key w := by
  constructor
  · intro h
    obtain ⟨w', hw⟩ := m.exists_carries context key
    rw [hw.get? hpairs] at h
    exact h ▸ hw
  · intro h
    exact h.get? hpairs

/-- The order in which the headers of the sender are laid does not matter. -/
theorem headersInOrder_eq (hpairs : pairs.Perm m.headers.entries) :
    m.headersInOrder pairs context = m.headerTable context := by
  refine Keyed.ext_get? fun key => ?_
  obtain ⟨w, hw⟩ := m.exists_carries context key
  exact (hw.get? hpairs).trans (hw.get? (List.Perm.refl _)).symm

end Outgoing

end Layers

/-- For any trace context, message and order of its headers: a look-up in the headers of its
properties gives what the message carries under the name, the properties do not depend on the order,
and a delay is written as it is when a message with any properties is published again. -/
theorem outgoing_headers_layered :
    (∀ (m : Outgoing) context messageId pairs, pairs.Perm m.headers.entries →
      m.propertiesInOrder pairs context messageId = m.properties context messageId ∧
      ∀ key w, (m.propertiesInOrder pairs context messageId).headerTable.get? key = w ↔
        m.Carries context key w) ∧
    ∀ (m : Outgoing) context messageId ms, m.delayMs = some ms →
      ∀ (p : Properties) countHeader count,
        (m.properties context messageId).headerTable.get? delayHeader =
          (retryProperties p countHeader count (some ms)).headerTable.get? delayHeader := by
  refine ⟨?_, ?_⟩
  · intro m context messageId pairs hpairs
    refine ⟨?_, ?_⟩
    · rw [Outgoing.propertiesInOrder, Outgoing.headersInOrder_eq hpairs]
      rfl
    · intro key w
      exact Outgoing.get?_headersInOrder_iff hpairs
  · intro m context messageId ms hms p countHeader count
    calc (m.headersInOrder m.headers.entries context).get? delayHeader
        = some (delayValue ms) := Outgoing.get?_headersInOrder_delay hms
      _ = (retryHeaders p.headerTable countHeader count (some ms)).get? delayHeader := by
          rw [get?_retryHeaders_delay, Option.map_some]

/-- Every layer of the message writes under a name of another one. -/
def overlaid : Outgoing :=
  { exchange := "", routingKey := "orders", delayMs := some 3000000000
    headers := Keyed.ofList [("kind", .int 3), (delayHeader, .longString "never")] }

/-- Trace context that names one header twice, and two that the message writes itself. -/
def crowdedContext : List (String × String) :=
  [("TraceParent", "00-1-1-00"), ("Kind", "span"), ("X-Delay", "5"), ("TRACEPARENT", "00-2-2-00")]

theorem outgoing_headers_layered_overlaid :
    let pairs := [(delayHeader, .longString "never"), ("kind", .int 3)]
    let headers := (overlaid.propertiesInOrder pairs crowdedContext "1").headerTable
    let again := retryProperties {} defaultCountHeader 1 (some 3000000000)
    pairs.Perm overlaid.headers.entries ∧ overlaid.delayMs = some 3000000000 ∧
      headers.get? delayHeader = some (.longInt 0x7FFFFFFF) ∧
      headers.get? "kind" = some (.shortInt 3) ∧
      headers.get? "traceparent" = some (.ofText "00-2-2-00") ∧
      headers.get? "baggage" = none ∧
      (overlaid.properties crowdedContext "1").headerTable.get? delayHeader =
        again.headerTable.get? delayHeader := by
  intro pairs headers again
  have hperm : pairs.Perm overlaid.headers.entries := List.Perm.swap _ _ _
  obtain ⟨hlayers, hretry⟩ := outgoing_headers_layered
  obtain ⟨-, hget⟩ := hlayers overlaid crowdedContext "1" pairs hperm
  refine ⟨hperm, rfl, (hget _ _).mpr ?_, (hget _ _).mpr ?_, (hget _ _).mpr ?_, (hget _ _).mpr ?_,
    ?_⟩
  · exact .delay rfl rfl (by decide)
  · exact .own (by decide) (by decide +kernel) (.int 3)
  · have hsplit : crowdedContext = crowdedContext.take 3 ++ [("TRACEPARENT", "00-2-2-00")] := rfl
    exact .trace (by decide) (by decide +kernel) hsplit (by decide +kernel) (List.forall_mem_nil _)
  · exact .nothing (by decide) (by decide +kernel) (by decide +kernel)
  · exact hretry overlaid crowdedContext "1" 3000000000 rfl {} defaultCountHeader 1

end AmqpDelivery
