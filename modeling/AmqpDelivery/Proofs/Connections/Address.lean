import AmqpDelivery.Connection.Uri
import AmqpDelivery.Proofs.Decimal
import Mathlib.Data.List.Basic

/-!
# What an address tells of its broker

The parts of an address are written as they are, one behind the other, so a part that contains the
delimiter behind it can be cut at the wrong place, and a virtual host of the name `%2f` can be taken
for the default one. Main statement: there is nothing else that an address leaves open. Settings
whose parts are free of the delimiters behind them have the same address only if they agree in
everything that an address tells, and the heartbeat can be told in any case
(`uri_determines_settings`). Each of the four ways to be mistaken has an example
(`uri_delimiters_mistaken`).
-/

namespace AmqpDelivery

/-- The virtual host that a name selects. Leading slashes do not count, so the default one is
selected by no name at all. -/
def selectedVhost (vhost : String) : String :=
  String.ofList (vhost.toList.dropWhile (· = '/'))

/-- No part of the address contains the delimiter that ends it, and no other virtual host is written
like the default one. -/
structure BrokerSettings.Delimited (b : BrokerSettings) : Prop where
  user : ':' ∉ b.user.toList
  password : '@' ∉ b.password.toList
  host : '/' ∉ b.host.toList
  vhost : selectedVhost b.vhost ≠ "%2f"

namespace Address

/-- What an address says behind the password: host, port and virtual host. -/
def target (b : BrokerSettings) : List Char :=
  (b.host.toList ++ ':' :: Decimal.digits b.port.toNat) ++ '/' :: (vhostPart b.vhost).toList

/-- What an address says before the heartbeat. -/
def body (b : BrokerSettings) : List Char :=
  b.user.toList ++ ':' :: (b.password.toList ++ '@' :: target b)

theorem toList_uri (b : BrokerSettings) :
    b.uri.toList = ("amqp://".toList ++ body b ++ "?heartbeat".toList) ++
      '=' :: Decimal.digits b.heartbeat.toNat := by
  unfold BrokerSettings.uri body target
  rw [← Decimal.toList_ofNat, ← Decimal.toList_ofNat]
  -- the digits are not to be computed
  generalize Decimal.ofNat b.port.toNat = port, Decimal.ofNat b.heartbeat.toNat = heartbeat
  have hquery : "?heartbeat=".toList = "?heartbeat".toList ++ ['='] := rfl
  have hcolon : ":".toList = [':'] := rfl
  have hat : "@".toList = ['@'] := rfl
  have hslash : "/".toList = ['/'] := rfl
  simp only [String.toList_append, hquery, hcolon, hat, hslash, List.append_assoc,
    List.cons_append, List.nil_append]

section Cuts

variable {α : Type} {x : α} {a b c d : List α}

/-- A list is cut at the first delimiter in one way only. -/
theorem cut_first (ha : x ∉ a) (hc : x ∉ c) (h : a ++ x :: b = c ++ x :: d) : a = c ∧ b = d := by
  induction a generalizing c with
  | nil =>
      cases c with
      | nil => exact ⟨rfl, List.tail_eq_of_cons_eq h⟩
      | cons y rest => exact absurd (List.head_eq_of_cons_eq h ▸ List.mem_cons_self) hc
  | cons y rest ih =>
      cases c with
      | nil => exact absurd (List.head_eq_of_cons_eq h ▸ List.mem_cons_self) ha
      | cons z rest' =>
          obtain ⟨rfl, htail⟩ := List.cons.inj h
          obtain ⟨rfl, hbd⟩ := ih (fun hx => ha (List.mem_cons_of_mem y hx))
            (fun hx => hc (List.mem_cons_of_mem y hx)) htail
          exact ⟨rfl, hbd⟩

/-- A list is cut at the last delimiter in one way only. -/
theorem cut_last (hb : x ∉ b) (hd : x ∉ d) (h : a ++ x :: b = c ++ x :: d) : a = c ∧ b = d := by
  have hrev : b.reverse ++ x :: a.reverse = d.reverse ++ x :: c.reverse := by
    simpa using congrArg List.reverse h
  obtain ⟨hbd, hac⟩ := cut_first (by simpa using hb) (by simpa using hd) hrev
  exact ⟨List.reverse_injective hac, List.reverse_injective hbd⟩

end Cuts

section Parts

variable {a b : BrokerSettings}

theorem port_of_digits (h : Decimal.digits a.port.toNat = Decimal.digits b.port.toNat) :
    a.port = b.port :=
  UInt16.toNat_inj.1 (Decimal.digits_injective h)

/-- The heartbeat stands behind the last equals sign. -/
theorem body_of_uri (h : a.uri = b.uri) : body a = body b ∧ a.heartbeat = b.heartbeat := by
  have hlist := congrArg String.toList h
  rw [toList_uri, toList_uri] at hlist
  obtain ⟨hbody, hbeat⟩ := cut_last (Decimal.not_mem_digits rfl) (Decimal.not_mem_digits rfl) hlist
  refine ⟨List.append_cancel_left (List.append_cancel_right hbody), ?_⟩
  exact UInt16.toNat_inj.1 (Decimal.digits_injective hbeat)

/-- The host ends at the last colon before the first slash. -/
theorem parts_of_target (ha : '/' ∉ a.host.toList) (hb : '/' ∉ b.host.toList)
    (h : target a = target b) :
    a.host = b.host ∧ a.port = b.port ∧ vhostPart a.vhost = vhostPart b.vhost := by
  have hslash : ∀ s : BrokerSettings, '/' ∉ s.host.toList →
      '/' ∉ s.host.toList ++ ':' :: Decimal.digits s.port.toNat := by
    intro s hs
    simp [hs, Decimal.not_mem_digits (show Decimal.digit? '/' = none from rfl)]
  obtain ⟨hserver, hvhost⟩ := cut_first (hslash a ha) (hslash b hb) h
  obtain ⟨hhost, hport⟩ :=
    cut_last (Decimal.not_mem_digits rfl) (Decimal.not_mem_digits rfl) hserver
  exact ⟨String.toList_inj.1 hhost, port_of_digits hport, String.toList_inj.1 hvhost⟩

/-- What stands for a virtual host is the name it selects, except for the default one. -/
theorem vhostPart_eq (vhost : String) :
    vhostPart vhost = selectedVhost vhost ∨ vhostPart vhost = "%2f" ∧ selectedVhost vhost = "" := by
  unfold vhostPart
  split
  · next h =>
    refine Or.inr ⟨rfl, ?_⟩
    rcases h with rfl | rfl <;> rfl
  · exact Or.inl rfl

theorem selectedVhost_of_vhostPart {v w : String} (hv : selectedVhost v ≠ "%2f")
    (hw : selectedVhost w ≠ "%2f") (h : vhostPart v = vhostPart w) :
    selectedVhost v = selectedVhost w := by
  rcases vhostPart_eq v with hv' | ⟨hv', hv''⟩ <;> rcases vhostPart_eq w with hw' | ⟨hw', hw''⟩
  · rw [← hv', h, hw']
  · exact absurd (hv'.symm.trans (h.trans hw')) hv
  · exact absurd (hw'.symm.trans (h.symm.trans hv')) hw
  · rw [hv'', hw'']

end Parts

end Address

open Address

/-- Settings with the same address have the same heartbeat. If none of their parts contains the
delimiter behind it, they agree on user, password, host, port and the selected virtual host. -/
theorem uri_determines_settings (a b : BrokerSettings) (h : a.uri = b.uri) :
    a.heartbeat = b.heartbeat ∧
      (a.Delimited → b.Delimited →
        a.user = b.user ∧ a.password = b.password ∧ a.host = b.host ∧ a.port = b.port ∧
          selectedVhost a.vhost = selectedVhost b.vhost) := by
  obtain ⟨hbody, hbeat⟩ := body_of_uri h
  refine ⟨hbeat, fun ha hb => ?_⟩
  obtain ⟨huser, hrest⟩ := cut_first ha.user hb.user hbody
  obtain ⟨hpassword, htarget⟩ := cut_first ha.password hb.password hrest
  obtain ⟨hhost, hport, hvhost⟩ := parts_of_target ha.host hb.host htarget
  exact ⟨String.toList_inj.1 huser, String.toList_inj.1 hpassword, hhost, hport,
    selectedVhost_of_vhostPart ha.vhost hb.vhost hvhost⟩

/-- Two spellings of one virtual host. -/
theorem uri_determines_settings_spelled :
    let a : BrokerSettings := { user := "shop/", host := "mq@eu", vhost := "//orders?x=1" }
    let b : BrokerSettings := { a with vhost := "orders?x=1", maxChannels := 8 }
    a.uri = b.uri ∧ a.Delimited ∧ b.Delimited ∧ selectedVhost a.vhost = selectedVhost b.vhost := by
  intro a b
  have huri : a.uri = b.uri := by decide +kernel
  have ha : a.Delimited := ⟨by decide, by decide, by decide, by decide⟩
  have hb : b.Delimited := ⟨by decide, by decide, by decide, by decide⟩
  obtain ⟨-, hagree⟩ := uri_determines_settings a b huri
  obtain ⟨-, -, -, -, hvhost⟩ := hagree ha hb
  exact ⟨huri, ha, hb, hvhost⟩

/-- A colon in the user, an at sign in the password, a slash in the host, and a virtual host of the
name `%2f` lead to addresses of other settings. -/
theorem uri_delimiters_mistaken :
    (∃ a b : BrokerSettings, a = { user := "a:b", password := "c" } ∧
      b = { user := "a", password := "b:c" } ∧ a.uri = b.uri ∧ a.user ≠ b.user) ∧
    (∃ a b : BrokerSettings, a = { password := "p@h", host := "x" } ∧
      b = { password := "p", host := "h@x" } ∧ a.uri = b.uri ∧ a.password ≠ b.password) ∧
    (∃ a b : BrokerSettings, a = { host := "h:1/x", port := 2, vhost := "v" } ∧
      b = { host := "h", port := 1, vhost := "x:2/v" } ∧ a.uri = b.uri ∧ a.port ≠ b.port) ∧
    (∃ a b : BrokerSettings, a = { vhost := "%2f" } ∧ b = { vhost := "/" } ∧ a.uri = b.uri ∧
      selectedVhost a.vhost ≠ selectedVhost b.vhost) :=
  ⟨⟨_, _, rfl, rfl, by decide +kernel, by decide⟩, ⟨_, _, rfl, rfl, by decide +kernel, by decide⟩,
    ⟨_, _, rfl, rfl, by decide +kernel, by decide⟩, ⟨_, _, rfl, rfl, by decide +kernel, by decide⟩⟩

end AmqpDelivery
