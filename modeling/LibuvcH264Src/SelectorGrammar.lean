import LibuvcH264Src.Numerals

/-!
# The selector grammar

* `Documented s sel` : the four forms of the documentation, with their values;
* `Accepted s sel` : the same with `strtol` numerals in place of digits; `parseSelector_iff` : what the parser accepts;
* `Ornamented s` : a number of the selector has blanks, a sign or a mark in front;
* `selector_documented_iff` : the parser keeps to the documentation on all other strings.
-/

namespace LibuvcH264Src
open AnnexB

def serialTag : List Byte := ascii ['s', 'e', 'r', 'i', 'a', 'l', ':']

def busTag : List Byte := ascii ['b', 'u', 's', ':']

/-! ## The languages -/

/-- The documented language and the value of each string. -/
inductive Documented : List Byte → DeviceSelector → Prop where
  | ordinal {s : List Byte} (hs : Digits 10 s) (hle : digitsValue 10 s ≤ gMaxInt) :
    Documented s (.ordinal (digitsValue 10 s))
  | serial {sn : List Byte} (h : sn ≠ []) : Documented (serialTag ++ sn) (.serial sn)
  | busAddr {bus addr : List Byte} (hbus : Digits 10 bus) (haddr : Digits 10 addr) (hb : digitsValue 10 bus ≤ 255)
    (ha : digitsValue 10 addr ≤ 255) :
    Documented (busTag ++ (bus ++ 0x3A :: addr)) (.busAddr (.ofNat (digitsValue 10 bus)) (.ofNat (digitsValue 10 addr)))
  | vidPid {vid pid : List Byte} (hvid : Digits 16 vid) (hpid : Digits 16 pid) (hv : digitsValue 16 vid ≤ 0xFFFF)
    (hp : digitsValue 16 pid ≤ 0xFFFF) :
    Documented (vid ++ 0x3A :: pid) (.vidPid (.ofNat (digitsValue 16 vid)) (.ofNat (digitsValue 16 pid)))

/-- The value lies between 0 and `max`. -/
def Numeral.Within {base : Nat} (n : Numeral base) (max : Int) : Prop := 0 ≤ n.value ∧ n.value ≤ max

/-- The same forms, with numerals for the numbers. -/
inductive Accepted : List Byte → DeviceSelector → Prop where
  | ordinal (n : Numeral 10) (h : n.Within gMaxInt) : Accepted n.bytes (.ordinal n.value)
  | serial {sn : List Byte} (h : sn ≠ []) : Accepted (serialTag ++ sn) (.serial sn)
  | busAddr (bus addr : Numeral 10) (hb : bus.Within 255) (ha : addr.Within 255) :
    Accepted (busTag ++ (bus.bytes ++ 0x3A :: addr.bytes)) (.busAddr (.ofNat bus.value.toNat) (.ofNat addr.value.toNat))
  | vidPid (vid pid : Numeral 16) (hv : vid.Within 0xFFFF) (hp : pid.Within 0xFFFF) :
    Accepted (vid.bytes ++ 0x3A :: pid.bytes) (.vidPid (.ofNat vid.value.toNat) (.ofNat pid.value.toNat))

/-- One of the numbers is a numeral in its range, but not digits alone. -/
inductive Ornamented : List Byte → Prop where
  | ordinal (n : Numeral 10) (h : n.Within gMaxInt) (hn : ¬ Digits 10 n.bytes) : Ornamented n.bytes
  | busAddr (bus addr : Numeral 10) (hb : bus.Within 255) (ha : addr.Within 255)
    (hn : ¬ (Digits 10 bus.bytes ∧ Digits 10 addr.bytes)) : Ornamented (busTag ++ (bus.bytes ++ 0x3A :: addr.bytes))
  | vidPid (vid pid : Numeral 16) (hv : vid.Within 0xFFFF) (hp : pid.Within 0xFFFF)
    (hn : ¬ (Digits 16 vid.bytes ∧ Digits 16 pid.bytes)) : Ornamented (vid.bytes ++ 0x3A :: pid.bytes)

/-! ## Colons and tags -/

theorem splitColon_append {l r : List Byte} (h : 0x3A ∉ l) : splitColon (l ++ 0x3A :: r) = some (l, r) := by
  have hl : ∀ b ∈ l, decide (b ≠ 0x3A) = true := fun b hb => by simpa using fun he : b = 0x3A => h (he ▸ hb)
  rw [splitColon, List.dropWhile_append_of_pos hl, List.takeWhile_append_of_pos hl]
  simp

theorem splitColon_none {s : List Byte} (h : 0x3A ∉ s) : splitColon s = none := by
  have hs : s.dropWhile (fun b => decide (b ≠ 0x3A)) = [] := by
    apply List.dropWhile_eq_nil_iff.mpr
    intro b hb
    simpa using fun he : b = 0x3A => h (he ▸ hb)
  rw [splitColon, hs]

theorem exists_splitColon (s : List Byte) :
    (splitColon s = none ∧ 0x3A ∉ s) ∨ ∃ l r, s = l ++ 0x3A :: r ∧ 0x3A ∉ l ∧ splitColon s = some (l, r) := by
  by_cases h : (0x3A : Byte) ∈ s
  · obtain ⟨l, r, rfl, hl⟩ := List.eq_append_cons_of_mem h
    exact .inr ⟨l, r, rfl, hl, splitColon_append hl⟩
  · exact .inl ⟨splitColon_none h, h⟩

theorem afterTag_append (tag s : List Byte) : afterTag tag (tag ++ s) = some s := by
  simp [afterTag]

theorem afterTag_none {tag s : List Byte} {b : Byte} (hb : b ∈ tag) (hs : b ∉ s) : afterTag tag s = none := by
  apply if_neg
  intro h
  exact hs ((List.isPrefixOf_iff_prefix.mp h).subset hb)

theorem eq_of_afterTag {tag s rest : List Byte} (h : afterTag tag s = some rest) : s = tag ++ rest := by
  unfold afterTag at h
  split at h
  · next hp =>
    obtain ⟨t, rfl⟩ := List.isPrefixOf_iff_prefix.mp hp
    simpa using h
  · exact absurd h (by simp)

/-! ## The parser -/

theorem Numeral.colon_notMem {base : Nat} (n : Numeral base) (hb : base ≤ 16) : (0x3A : Byte) ∉ n.bytes :=
  fun h => absurd (n.isNumeralByte_of_mem hb h) (by decide)

theorem Numeral.s_notMem {base : Nat} (n : Numeral base) (hb : base ≤ 16) : (0x73 : Byte) ∉ n.bytes :=
  fun h => absurd (n.isNumeralByte_of_mem hb h) (by decide)

/-- Both tags hold an `s`, and no other form does. -/
theorem untagged {s : List Byte} (h : (0x73 : Byte) ∉ s) : afterTag serialTag s = none ∧ afterTag busTag s = none :=
  ⟨afterTag_none (by decide) h, afterTag_none (by decide) h⟩

theorem parseUint_numeral {base : Nat} {n : Numeral base} {max : Int} (hb : base ≤ 16) (hmax : max ≤ longMax)
    (h : n.Within max) : parseUint n.bytes base 0 max = some n.value :=
  (parseUint_iff hb hmax).mpr ⟨n, rfl, rfl, h.1, h.2⟩

theorem Accepted.parse {s : List Byte} {sel : DeviceSelector} (h : Accepted s sel) : parseSelector (some s) = .ok sel := by
  cases h with
  | ordinal n hn =>
    obtain ⟨hserial, hbus⟩ := untagged (n.s_notMem (by decide))
    have hcolon := splitColon_none (n.colon_notMem (by decide))
    have hnum := parseUint_numeral (by decide) (by decide) hn
    simp only [serialTag, busTag] at hserial hbus
    simp only [parseSelector, hserial, hbus, hcolon, hnum]
  | @serial sn hne =>
    have hserial := afterTag_append serialTag sn
    simp only [serialTag] at hserial ⊢
    simp only [parseSelector, hserial, if_neg hne]
  | busAddr bus addr hb ha =>
    have hserial : afterTag serialTag (busTag ++ (bus.bytes ++ 0x3A :: addr.bytes)) = none := if_neg (by simp [serialTag, busTag, ascii])
    have hbus := afterTag_append busTag (bus.bytes ++ 0x3A :: addr.bytes)
    have hcolon := splitColon_append (r := addr.bytes) (bus.colon_notMem (by decide))
    have hb := parseUint_numeral (by decide) (by decide) hb
    have ha := parseUint_numeral (by decide) (by decide) ha
    simp only [serialTag, busTag] at hserial hbus ⊢
    simp only [parseSelector, hserial, hbus, hcolon, hb, ha]
  | vidPid vid pid hv hp =>
    have hs : (0x73 : Byte) ∉ vid.bytes ++ 0x3A :: pid.bytes := by
      simp only [List.mem_append, List.mem_cons, not_or]
      exact ⟨vid.s_notMem (by decide), by decide, pid.s_notMem (by decide)⟩
    obtain ⟨hserial, hbus⟩ := untagged hs
    have hcolon := splitColon_append (r := pid.bytes) (vid.colon_notMem (by decide))
    have hv := parseUint_numeral (by decide) (by decide) hv
    have hp := parseUint_numeral (by decide) (by decide) hp
    simp only [serialTag, busTag] at hserial hbus
    simp only [parseSelector, hserial, hbus, hcolon, hv, hp]

theorem exists_numeral_of_parseUint {s : List Byte} {base : Nat} {max v : Int} (hb : base ≤ 16) (hmax : max ≤ longMax)
    (h : parseUint s base 0 max = some v) : ∃ n : Numeral base, s = n.bytes ∧ n.value = v ∧ n.Within max := by
  obtain ⟨n, rfl, rfl, hmin, hle⟩ := (parseUint_iff hb hmax).mp h
  exact ⟨n, rfl, rfl, hmin, hle⟩

theorem accepted_of_parse {s : List Byte} {sel : DeviceSelector} (h : parseSelector (some s) = .ok sel) : Accepted s sel := by
  simp only [parseSelector] at h
  split at h
  · next sn hserial =>
    obtain rfl := eq_of_afterTag hserial
    split at h
    · cases h
    · next hne =>
      cases h
      exact .serial hne
  · split at h
    · next rest hbus =>
      obtain rfl := eq_of_afterTag hbus
      rcases exists_splitColon rest with ⟨hcolon, -⟩ | ⟨bus, addr, rfl, -, hcolon⟩
      · rw [hcolon] at h
        cases h
      · simp only [hcolon] at h
        split at h
        · next b a hb ha =>
          cases h
          obtain ⟨bus, rfl, rfl, hbusV⟩ := exists_numeral_of_parseUint (by decide) (by decide) hb
          obtain ⟨addr, rfl, rfl, haddrV⟩ := exists_numeral_of_parseUint (by decide) (by decide) ha
          exact .busAddr bus addr hbusV haddrV
        · cases h
    · rcases exists_splitColon s with ⟨hcolon, -⟩ | ⟨vid, pid, rfl, -, hcolon⟩
      · simp only [hcolon] at h
        split at h
        · next v hv =>
          cases h
          obtain ⟨n, rfl, rfl, hn⟩ := exists_numeral_of_parseUint (by decide) (by decide) hv
          exact .ordinal n hn
        · cases h
      · simp only [hcolon] at h
        split at h
        · next v p hv hp =>
          cases h
          obtain ⟨vid, rfl, rfl, hvid⟩ := exists_numeral_of_parseUint (by decide) (by decide) hv
          obtain ⟨pid, rfl, rfl, hpid⟩ := exists_numeral_of_parseUint (by decide) (by decide) hp
          exact .vidPid vid pid hvid hpid
        · cases h

/-- **The language of the parser.** -/
theorem parseSelector_iff (s : List Byte) (sel : DeviceSelector) : parseSelector (some s) = .ok sel ↔ Accepted s sel :=
  ⟨accepted_of_parse, Accepted.parse⟩

/-! ## The documentation -/

theorem Documented.accepted {s : List Byte} {sel : DeviceSelector} (h : Documented s sel) : Accepted s sel := by
  cases h with
  | ordinal hs hle =>
    have h := Accepted.ordinal (.ofDigits s hs) ⟨by simp [Numeral.value_ofDigits], by simpa [Numeral.value_ofDigits] using hle⟩
    rwa [Numeral.bytes_ofDigits, Numeral.value_ofDigits] at h
  | serial hne => exact .serial hne
  | busAddr hbus haddr hb ha =>
    have h := Accepted.busAddr (.ofDigits _ hbus) (.ofDigits _ haddr)
      ⟨by simp [Numeral.value_ofDigits], by rw [Numeral.value_ofDigits]; omega⟩
      ⟨by simp [Numeral.value_ofDigits], by rw [Numeral.value_ofDigits]; omega⟩
    simpa only [Numeral.bytes_ofDigits, Numeral.value_ofDigits, Int.toNat_natCast] using h
  | vidPid hvid hpid hv hp =>
    have h := Accepted.vidPid (.ofDigits _ hvid) (.ofDigits _ hpid)
      ⟨by simp [Numeral.value_ofDigits], by rw [Numeral.value_ofDigits]; omega⟩
      ⟨by simp [Numeral.value_ofDigits], by rw [Numeral.value_ofDigits]; omega⟩
    simpa only [Numeral.bytes_ofDigits, Numeral.value_ofDigits, Int.toNat_natCast] using h

theorem Accepted.documented {s : List Byte} {sel : DeviceSelector} (h : Accepted s sel) (ho : ¬ Ornamented s) :
    Documented s sel := by
  cases h with
  | ordinal n hn =>
    have hd : Digits 10 n.bytes := by
      by_contra hd
      exact ho (.ordinal n hn hd)
    have hv := n.value_of_digits (by decide) hd
    rw [hv]
    exact .ordinal hd (by have := hn.2; omega)
  | serial hne => exact .serial hne
  | busAddr bus addr hb ha =>
    have hd : Digits 10 bus.bytes ∧ Digits 10 addr.bytes := by
      by_contra hd
      exact ho (.busAddr bus addr hb ha hd)
    have hbv := bus.value_of_digits (by decide) hd.1
    have hav := addr.value_of_digits (by decide) hd.2
    rw [hbv, hav, Int.toNat_natCast, Int.toNat_natCast]
    exact .busAddr hd.1 hd.2 (by have := hb.2; omega) (by have := ha.2; omega)
  | vidPid vid pid hv hp =>
    have hd : Digits 16 vid.bytes ∧ Digits 16 pid.bytes := by
      by_contra hd
      exact ho (.vidPid vid pid hv hp hd)
    have hvv := vid.value_of_digits (by decide) hd.1
    have hpv := pid.value_of_digits (by decide) hd.2
    rw [hvv, hpv, Int.toNat_natCast, Int.toNat_natCast]
    exact .vidPid hd.1 hd.2 (by have := hv.2; omega) (by have := hp.2; omega)

/-- Two strings of this form with the first colon at its place are equal part by part. -/
theorem colon_inj {l m x y : List Byte} (hl : 0x3A ∉ l) (hm : 0x3A ∉ m) (h : l ++ 0x3A :: x = m ++ 0x3A :: y) :
    l = m ∧ x = y := by
  have hs := splitColon_append (r := x) hl
  rw [h, splitColon_append hm] at hs
  obtain ⟨rfl, rfl⟩ := Prod.mk.inj (Option.some.inj hs)
  exact ⟨rfl, rfl⟩

theorem Digits.colon_notMem {base : Nat} {s : List Byte} (h : Digits base s) (hb : base ≤ 16) : (0x3A : Byte) ∉ s :=
  fun hmem => absurd rfl (digit_ne _ (digitValue_widen hb (h.2 _ hmem))).2.2.2.2.2

theorem Documented.digits {s : List Byte} {sel : DeviceSelector} {n : Int} (h : Documented s sel)
    (hn : sel = .ordinal n) : Digits 10 s := by
  cases h with
  | ordinal hs _ => exact hs
  | serial _ => cases hn
  | busAddr _ _ _ _ => cases hn
  | vidPid _ _ _ _ => cases hn

/-- An ornamented string is accepted with a value, and the documentation gives it none. -/
theorem Ornamented.undocumented {s : List Byte} (h : Ornamented s) : ∃ sel, Accepted s sel ∧ ¬ Documented s sel := by
  cases h with
  | ordinal n hn hd =>
    exact ⟨_, .ordinal n hn, fun h => hd (h.digits rfl)⟩
  | busAddr bus addr hb ha hd =>
    refine ⟨_, .busAddr bus addr hb ha, fun h => ?_⟩
    generalize hs : busTag ++ (bus.bytes ++ 0x3A :: addr.bytes) = s at h
    generalize hv : DeviceSelector.busAddr _ _ = sel at h
    cases h with
    | ordinal _ _ => cases hv
    | serial _ => cases hv
    | busAddr hbus haddr _ _ =>
      obtain ⟨h₁, h₂⟩ := colon_inj (bus.colon_notMem (by decide)) (hbus.colon_notMem (by decide)) (List.append_cancel_left hs)
      exact hd ⟨by rwa [h₁], by rwa [h₂]⟩
    | vidPid _ _ _ _ => cases hv
  | vidPid vid pid hv hp hd =>
    refine ⟨_, .vidPid vid pid hv hp, fun h => ?_⟩
    generalize hs : vid.bytes ++ 0x3A :: pid.bytes = s at h
    generalize hv : DeviceSelector.vidPid _ _ = sel at h
    cases h with
    | ordinal _ _ => cases hv
    | serial _ => cases hv
    | busAddr _ _ _ _ => cases hv
    | vidPid hvid hpid _ _ =>
      obtain ⟨h₁, h₂⟩ := colon_inj (vid.colon_notMem (by decide)) (hvid.colon_notMem (by decide)) hs
      exact hd ⟨by rwa [h₁], by rwa [h₂]⟩

/-- **The grammar.** The parser accepts the documented language with its values, and nothing else, exactly on the strings
none of whose numbers has something in front of its digits. -/
theorem selector_documented_iff (s : List Byte) :
    (∀ sel, parseSelector (some s) = .ok sel ↔ Documented s sel) ↔ ¬ Ornamented s := by
  constructor
  · intro h ho
    obtain ⟨sel, haccepted, hno⟩ := ho.undocumented
    exact hno ((h sel).mp haccepted.parse)
  · intro ho sel
    rw [parseSelector_iff]
    exact ⟨fun h => h.documented ho, Documented.accepted⟩

/-- `+1` selects device 1. -/
theorem not_selector_documented :
    ¬ ∀ s sel, parseSelector (some s) = .ok sel ↔ Documented s sel := by
  intro h
  have hparse : parseSelector (some (ascii ['+', '1'])) = .ok (.ordinal 1) := by rfl
  exact absurd (((h _ _).mp hparse).digits rfl) (by decide)

end LibuvcH264Src
