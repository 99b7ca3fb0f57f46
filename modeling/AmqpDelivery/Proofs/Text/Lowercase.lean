import AmqpDelivery.Text.Lowercase

/-!
# Text in lowercase stays as it is

No lowercase form has a lowercase form of its own: the runs of the case data lead out of all runs
(`leadsOut_lowerRuns`), so a text in lowercase consists of characters that lowercasing leaves alone
(`settled_of_mem_lowerFrom`), and lowercasing it again changes nothing (`lowercase_lowercase`).
Texts of ASCII characters are lowercased one character at a time (`toList_lowercase_ascii`).
-/

namespace AmqpDelivery.Text

/-! ## The case data -/

namespace CaseRun

/-- The lowercase code point that a run gives to one that it lists. -/
def image (r : CaseRun) (code : Nat) : Nat := ((code : Int) + r.shift).toNat

/-- No code point that lies a number of steps above `low`, and not above `high`, is listed. -/
def misses (low high step : Nat) (r : CaseRun) : Bool :=
  Nat.blt high r.first || Nat.blt r.last low ||
    (Nat.beq (step % r.step) 0 && !Nat.beq (low % r.step) (r.first % r.step)) ||
    (Nat.beq low high && (r.lower? low).isNone)

/-- The dotted capital I, whose lowercase form is the only one of two characters. -/
def dottedI : CaseRun := ⟨0x130, 0x130, 1, 0⟩

/-- The lowercase code points of a run are code points of characters that no run lists. -/
def leadsOut (r : CaseRun) : Bool :=
  let low := r.image r.first
  let high := r.image r.last
  Nat.ble r.first r.last && decide (0 ≤ (r.first : Int) + r.shift) &&
    (Nat.blt high 0xD800 || Nat.blt 0xDFFF low && Nat.blt high 0x110000) &&
    misses low high r.step dottedI && lowerRuns.all (misses low high r.step)

end CaseRun

theorem leadsOut_lowerRuns : lowerRuns.all CaseRun.leadsOut = true := by decide +kernel

theorem CaseRun.lower?_eq_some {r : CaseRun} {code out : Nat} (h : r.lower? code = some out) :
    r.first ≤ code ∧ code ≤ r.last ∧ (code - r.first) % r.step = 0 ∧ out = r.image code := by
  unfold CaseRun.lower? at h
  split at h
  · next hlisted => exact ⟨hlisted.1, hlisted.2.1, hlisted.2.2, (Option.some.inj h).symm⟩
  · cases h

theorem CaseRun.lower?_of_misses {low high step code : Nat} {r : CaseRun}
    (h : CaseRun.misses low high step r = true) (hlow : low ≤ code) (hhigh : code ≤ high)
    (hstep : (code - low) % step = 0) : r.lower? code = none := by
  unfold CaseRun.misses at h
  simp only [Bool.or_eq_true, Bool.and_eq_true, Bool.not_eq_true', ← Bool.not_eq_true, Nat.blt_eq,
    Nat.beq_eq] at h
  unfold CaseRun.lower?
  rcases h with ((hbelow | habove) | ⟨hdvd, hparity⟩) | ⟨hsingle, hnone⟩
  · exact if_neg fun hlisted => by omega
  · exact if_neg fun hlisted => by omega
  · refine if_neg fun hlisted => hparity ?_
    obtain ⟨hfirst, -, hlisted⟩ := hlisted
    -- both `low` and the first listed code point agree with `code` up to steps of the run
    obtain ⟨a, ha⟩ := Nat.dvd_of_mod_eq_zero hlisted
    obtain ⟨b, hb⟩ := Nat.dvd_trans (Nat.dvd_of_mod_eq_zero hdvd) (Nat.dvd_of_mod_eq_zero hstep)
    have hfrom : code % r.step = low % r.step := by
      rw [← Nat.add_sub_of_le hlow, hb, Nat.add_mul_mod_self_left]
    have hto : code % r.step = r.first % r.step := by
      rw [← Nat.add_sub_of_le hfirst, ha, Nat.add_mul_mod_self_left]
    exact hfrom.symm.trans hto
  · obtain rfl : code = low := by omega
    simpa [CaseRun.lower?] using hnone

/-- A lowercase form of one character is a character without such a form. -/
theorem lowercase_code {r : CaseRun} (hr : r ∈ lowerRuns) {code out : Nat}
    (h : r.lower? code = some out) :
    out.isValidChar ∧ out ≠ 0x130 ∧ ∀ q ∈ lowerRuns, q.lower? out = none := by
  have hout := List.all_eq_true.1 leadsOut_lowerRuns r hr
  obtain ⟨hfirst, hlast, hstep, rfl⟩ := CaseRun.lower?_eq_some h
  simp only [CaseRun.leadsOut, Bool.and_eq_true, Bool.or_eq_true, Nat.ble_eq, Nat.blt_eq,
    decide_eq_true_eq, List.all_eq_true] at hout
  obtain ⟨⟨⟨⟨-, hsign⟩, hvalid⟩, hdotted⟩, hmiss⟩ := hout
  have himage : ∀ n, r.first ≤ n → r.image n = r.image r.first + (n - r.first) := by
    intro n hn
    unfold CaseRun.image
    omega
  have hcode := himage code hfirst
  have hhigh := himage r.last (Nat.le_trans hfirst hlast)
  have hle : r.image code ≤ r.image r.last := by omega
  have hmod : (r.image code - r.image r.first) % r.step = 0 := by
    rwa [hcode, Nat.add_sub_cancel_left]
  refine ⟨?_, fun heq => ?_, fun q hq => ?_⟩
  · unfold Nat.isValidChar
    omega
  · have hnone := CaseRun.lower?_of_misses hdotted (Nat.le.intro hcode.symm) hle hmod
    rw [heq] at hnone
    exact absurd hnone (by decide)
  · exact CaseRun.lower?_of_misses (hmiss q hq) (Nat.le.intro hcode.symm) hle hmod

/-! ## Characters that stay -/

/-- Lowercasing leaves the character alone wherever it stands. -/
def Settled (c : Char) : Prop := c.toNat ≠ 0x3A3 ∧ lowerChar c = [c]

instance (c : Char) : Decidable (Settled c) :=
  inferInstanceAs (Decidable (c.toNat ≠ 0x3A3 ∧ lowerChar c = [c]))

theorem toNat_ofNat {code : Nat} (h : code.isValidChar) : (Char.ofNat code).toNat = code := by
  unfold Char.ofNat
  rw [dif_pos h]
  rfl

theorem settled_toLower {c : Char} (h : c.toNat < 0x80) : Settled c.toLower := by
  have hall : ∀ code < 0x80, Settled (Char.ofNat code).toLower := by decide
  have hc := hall c.toNat h
  rwa [Char.ofNat_toNat] at hc

/-- A character that no run lists stays. -/
theorem settled_of_unlisted {c : Char} (hdotted : c.toNat ≠ 0x130)
    (h : ∀ r ∈ lowerRuns, r.lower? c.toNat = none) : Settled c := by
  have hnone : lowerRuns.findSome? (·.lower? c.toNat) = none := List.findSome?_eq_none_iff.2 h
  have hsigma : c.toNat ≠ 0x3A3 := by
    intro heq
    rw [heq] at hnone
    exact absurd hnone (by decide)
  refine ⟨hsigma, ?_⟩
  unfold lowerChar
  split
  · next hascii =>
    -- the capital letters are listed
    have hcapital : lowerRuns.head?.bind (·.lower? c.toNat) = none := h _ List.mem_cons_self
    have hall : ∀ code < 0x80, lowerRuns.head?.bind (·.lower? code) = none →
        (Char.ofNat code).toLower = Char.ofNat code := by decide
    have hc := hall c.toNat hascii hcapital
    rw [Char.ofNat_toNat] at hc
    rw [hc]
  · rw [hnone]

/-- Every character of a lowercase form stays. -/
theorem settled_of_mem_lowerChar {c d : Char} (hd : d ∈ lowerChar c) : Settled d := by
  unfold lowerChar at hd
  split at hd
  · next hascii =>
    rw [List.mem_singleton.1 hd]
    exact settled_toLower hascii
  · split at hd
    · simp only [List.mem_cons, List.not_mem_nil, or_false] at hd
      rcases hd with rfl | rfl <;> decide
    · next hdotted =>
      split at hd
      · next code hcode =>
        obtain ⟨r, hr, hlower⟩ := List.exists_of_findSome?_eq_some hcode
        obtain ⟨hvalid, hnotI, hnone⟩ := lowercase_code hr hlower
        rw [List.mem_singleton.1 hd]
        refine settled_of_unlisted ?_ ?_ <;> rwa [toNat_ofNat hvalid]
      · next hnone =>
        rw [List.mem_singleton.1 hd]
        exact settled_of_unlisted hdotted (List.findSome?_eq_none_iff.1 hnone)

/-! ## Texts -/

/-- A text in lowercase consists of characters that stay. -/
theorem settled_of_mem_lowerFrom {before cs : List Char} {d : Char} (h : d ∈ lowerFrom before cs) :
    Settled d := by
  induction cs generalizing before with
  | nil => cases h
  | cons c rest ih =>
      rcases List.mem_append.1 h with hform | hrest
      · split at hform
        · split at hform <;> (rw [List.mem_singleton.1 hform]; decide)
        · exact settled_of_mem_lowerChar hform
      · exact ih hrest

theorem lowerFrom_of_settled {before cs : List Char} (h : ∀ c ∈ cs, Settled c) :
    lowerFrom before cs = cs := by
  induction cs generalizing before with
  | nil => rfl
  | cons c rest ih =>
      obtain ⟨hsigma, hform⟩ := h c List.mem_cons_self
      rw [lowerFrom, if_neg hsigma, hform, ih fun d hd => h d (List.mem_cons_of_mem c hd)]
      rfl

theorem lowercase_ofList {cs : List Char} (h : ∀ c ∈ cs, Settled c) :
    lowercase (String.ofList cs) = String.ofList cs := by
  rw [lowercase, String.toList_ofList, lowerFrom_of_settled h]

/-- Lowercasing again changes nothing. -/
@[simp] theorem lowercase_lowercase (s : String) : lowercase (lowercase s) = lowercase s :=
  lowercase_ofList fun _ hd => settled_of_mem_lowerFrom hd

/-- ASCII characters are lowercased one by one. -/
theorem toList_lowercase_ascii {s : String} (h : ∀ c ∈ s.toList, c.toNat < 0x80) :
    (lowercase s).toList = s.toList.map Char.toLower := by
  have hfrom : ∀ (before cs : List Char), (∀ c ∈ cs, c.toNat < 0x80) →
      lowerFrom before cs = cs.map Char.toLower := by
    intro before cs hcs
    induction cs generalizing before with
    | nil => rfl
    | cons c rest ih =>
        have hc : c.toNat < 0x80 := hcs c List.mem_cons_self
        rw [lowerFrom, if_neg (by omega), lowerChar, if_pos hc,
          ih (c :: before) fun d hd => hcs d (List.mem_cons_of_mem c hd)]
        rfl
  rw [lowercase, String.toList_ofList, hfrom [] s.toList h]

end AmqpDelivery.Text
