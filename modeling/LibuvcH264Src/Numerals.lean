import Mathlib.Data.List.TakeWhile
import LibuvcH264Src.DeviceSelector

/-!
# The numerals of `strtol`

* `Digits base s` : `s` is a non-empty string of digits, `digitsValue` their number;
* `Numeral base` : blanks, a sign, for base 16 a `0x`, and digits;
* `strtol_numeral` : what `strtol` makes of a numeral in front of a rest;
* `exists_numeral` : `strtol` converts nothing but numerals.
-/

namespace LibuvcH264Src
open AnnexB

/-! ## Digits -/

/-- A non-empty string of digits. -/
def Digits (base : Nat) (s : List Byte) : Prop := s ≠ [] ∧ ∀ b ∈ s, (digitValue base b).isSome = true

instance (base : Nat) (s : List Byte) : Decidable (Digits base s) := inferInstanceAs (Decidable (_ ∧ _))

def addDigit (base acc : Nat) (b : Byte) : Nat := acc * base + (digitValue base b).getD 0

/-- The number the digits spell. -/
def digitsValue (base : Nat) (s : List Byte) : Nat := s.foldl (addDigit base) 0

/-- The rest does not go on with a digit. -/
def NoDigit (base : Nat) (rest : List Byte) : Prop := ∀ b ∈ rest.head?, digitValue base b = none

theorem noDigit_nil (base : Nat) : NoDigit base [] := by simp [NoDigit]

theorem digitValue_widen {base : Nat} {b : Byte} (hb : base ≤ 16) (h : (digitValue base b).isSome = true) :
    (digitValue 16 b).isSome = true := by
  simp only [digitValue, Option.isSome_filter, Option.any_eq_true, decide_eq_true_eq] at h ⊢
  obtain ⟨v, hv, hlt⟩ := h
  exact ⟨v, hv, by omega⟩

/-- A hexadecimal digit is no blank, no sign, no mark and no colon. -/
theorem digit_ne : ∀ b : Byte, (digitValue 16 b).isSome = true →
    isSpace b = false ∧ b ≠ 0x2B ∧ b ≠ 0x2D ∧ b ≠ 0x78 ∧ b ≠ 0x58 ∧ b ≠ 0x3A :=
  forall_byte (by decide +kernel)

theorem readDigits_append {base acc : Nat} {ds rest : List Byte} (hd : ∀ b ∈ ds, (digitValue base b).isSome = true)
    (hr : NoDigit base rest) : readDigits base acc (ds ++ rest) = (ds.foldl (addDigit base) acc, rest) := by
  induction ds generalizing acc with
  | nil =>
    cases rest with
    | nil => rfl
    | cons b rest =>
      have hb : digitValue base b = none := hr b (by simp)
      rw [List.nil_append, readDigits, hb]
      rfl
  | cons d ds ih =>
    obtain ⟨v, hv⟩ := Option.isSome_iff_exists.mp (hd d List.mem_cons_self)
    rw [List.cons_append, readDigits, hv, List.foldl_cons, addDigit, hv]
    exact ih fun b hb => hd b (List.mem_cons_of_mem d hb)

/-- The digits in front, and what is behind them. -/
theorem exists_digits (base : Nat) (s : List Byte) :
    ∃ ds rest, s = ds ++ rest ∧ (∀ b ∈ ds, (digitValue base b).isSome = true) ∧ NoDigit base rest := by
  refine ⟨s.takeWhile fun b => (digitValue base b).isSome, s.dropWhile fun b => (digitValue base b).isSome,
    (List.takeWhile_append_dropWhile).symm, fun b hb => ?_, fun b hb => ?_⟩
  · exact List.mem_takeWhile_imp (p := fun b => (digitValue base b).isSome) hb
  · have h := List.head?_dropWhile_not (fun b => (digitValue base b).isSome) s
    rw [hb] at h
    simpa using h

/-! ## Numerals -/

inductive Sign where
  | none
  | plus
  | minus
  deriving DecidableEq

def Sign.bytes : Sign → List Byte
  | none => []
  | plus => [0x2B]
  | minus => [0x2D]

/-- `0x` or `0X`. -/
inductive HexMark where
  | none
  | lower
  | upper
  deriving DecidableEq

def HexMark.bytes : HexMark → List Byte
  | none => []
  | lower => [0x30, 0x78]
  | upper => [0x30, 0x58]

/-- What `strtol` reads as one number. -/
structure Numeral (base : Nat) where
  blanks : List Byte
  sign : Sign
  mark : HexMark
  digits : List Byte
  isBlanks : ∀ b ∈ blanks, isSpace b = true
  based : mark ≠ .none → base = 16
  isDigits : Digits base digits

namespace Numeral
variable {base : Nat}

def bytes (n : Numeral base) : List Byte := n.blanks ++ n.sign.bytes ++ n.mark.bytes ++ n.digits

def value (n : Numeral base) : Int :=
  if n.sign = .minus then -(digitsValue base n.digits : Int) else digitsValue base n.digits

end Numeral

/-- The result for a number in front of `rest`, which is cut to the range of `long`. -/
def cutLong (value : Int) (rest : List Byte) : Strtol :=
  if value > longMax then ⟨longMax, some rest, true⟩
  else if value < longMin then ⟨longMin, some rest, true⟩
  else ⟨value, some rest, false⟩

/-! ## `strtol` -/

/-- The conversion behind blanks, sign and mark. -/
def strtolDigits (base : Nat) (negative : Bool) (digits : List Byte) : Strtol :=
  match digits with
  | [] => ⟨0, none, false⟩
  | b :: _ =>
    if (digitValue base b).isNone then ⟨0, none, false⟩
    else
      let r := readDigits base 0 digits
      cutLong (if negative then -(r.1 : Int) else r.1) r.2

def splitSign : List Byte → Bool × List Byte
  | 0x2D :: rest => (true, rest)
  | 0x2B :: rest => (false, rest)
  | rest => (false, rest)

theorem strtol_eq (s : List Byte) (base : Nat) :
    strtol s base = strtolDigits base (splitSign (s.dropWhile isSpace)).1
      (skipHexMark base (splitSign (s.dropWhile isSpace)).2) := by
  rfl

/-- The conversion of digits. -/
theorem strtolDigits_append {base : Nat} {ds rest : List Byte} (negative : Bool) (hd : Digits base ds)
    (hr : NoDigit base rest) :
    strtolDigits base negative (ds ++ rest) =
      cutLong (if negative then -(digitsValue base ds : Int) else digitsValue base ds) rest := by
  have hread : readDigits base 0 (ds ++ rest) = _ := readDigits_append hd.2 hr
  obtain ⟨d, ds, rfl⟩ := List.exists_cons_of_ne_nil hd.1
  have hs : (digitValue base d).isNone = false := by simpa using hd.2 d List.mem_cons_self
  rw [List.cons_append] at hread ⊢
  simp only [strtolDigits, hs, Bool.false_eq_true, if_false, hread]
  rfl

theorem strtolDigits_none {base : Nat} {negative : Bool} {s : List Byte} (h : NoDigit base s) :
    strtolDigits base negative s = ⟨0, none, false⟩ := by
  cases s with
  | nil => rfl
  | cons b rest =>
    have hb : digitValue base b = none := h b (by simp)
    simp [strtolDigits, hb]

theorem splitSign_append (sign : Sign) {rest : List Byte} (h : ∀ b ∈ rest.head?, b ≠ 0x2B ∧ b ≠ 0x2D) :
    splitSign (sign.bytes ++ rest) = (decide (sign = .minus), rest) := by
  cases sign with
  | none =>
    cases rest with
    | nil => rfl
    | cons b rest =>
      obtain ⟨hp, hm⟩ := h b (by simp)
      show splitSign (b :: rest) = _
      unfold splitSign
      split
      · next heq => exact absurd (List.cons.inj heq).1 hm
      · next heq => exact absurd (List.cons.inj heq).1 hp
      · rfl
  | plus => rfl
  | minus => rfl

theorem dropWhile_of_head {p : Byte → Bool} {s : List Byte} (h : ∀ b ∈ s.head?, p b = false) : s.dropWhile p = s := by
  cases s with
  | nil => rfl
  | cons b s => exact List.dropWhile_cons_of_neg (by simp [h b (by simp)])

theorem Sign.not_blank (sign : Sign) {rest : List Byte} (h : ∀ b ∈ rest.head?, isSpace b = false) :
    (sign.bytes ++ rest).dropWhile isSpace = sign.bytes ++ rest := by
  cases sign with
  | none => exact dropWhile_of_head h
  | plus => rfl
  | minus => rfl

theorem exists_sign (s : List Byte) : ∃ (sign : Sign) (rest : List Byte), s = sign.bytes ++ rest ∧
    splitSign s = (decide (sign = .minus), rest) := by
  unfold splitSign
  split
  · exact ⟨.minus, _, rfl, rfl⟩
  · exact ⟨.plus, _, rfl, rfl⟩
  · exact ⟨.none, s, rfl, rfl⟩

/-- Digits without a mark stay: the second byte is no `x`. -/
theorem skipHexMark_digits {base : Nat} {ds rest : List Byte} (hb : base ≤ 16) (hd : Digits base ds)
    (hr : base = 16 → rest = []) : skipHexMark base (ds ++ rest) = ds ++ rest := by
  unfold skipHexMark
  split
  · next x d tail heq =>
    rw [heq]
    apply if_neg
    rintro ⟨rfl, hx, -⟩
    rw [hr rfl, List.append_nil] at heq
    have hmem : x ∈ ds := by simp [heq]
    have hne := digit_ne x (hd.2 x hmem)
    rcases hx with hx | hx
    · exact hne.2.2.2.1 hx
    · exact hne.2.2.2.2.1 hx
  · rfl

theorem skipHexMark_mark {mark : HexMark} {ds : List Byte} (hm : mark ≠ .none) (hd : Digits 16 ds) :
    skipHexMark 16 (mark.bytes ++ ds) = ds := by
  obtain ⟨d, ds, rfl⟩ := List.exists_cons_of_ne_nil hd.1
  have hs := hd.2 d List.mem_cons_self
  cases mark with
  | none => exact absurd rfl hm
  | lower => exact if_pos ⟨rfl, .inl rfl, hs⟩
  | upper => exact if_pos ⟨rfl, .inr rfl, hs⟩

theorem Numeral.skipHexMark_eq {base : Nat} (n : Numeral base) {rest : List Byte} (hb : base ≤ 16)
    (hr : base = 16 → rest = []) : skipHexMark base (n.mark.bytes ++ n.digits ++ rest) = n.digits ++ rest := by
  by_cases hm : n.mark = .none
  · rw [hm]
    exact skipHexMark_digits hb n.isDigits hr
  · obtain rfl := n.based hm
    rw [hr rfl, List.append_nil, List.append_nil]
    exact skipHexMark_mark hm n.isDigits

/-- The first byte behind blanks and sign is a digit. -/
theorem Numeral.head_ne {base : Nat} (n : Numeral base) (rest : List Byte) (hb : base ≤ 16) :
    ∀ b ∈ (n.mark.bytes ++ n.digits ++ rest).head?, isSpace b = false ∧ b ≠ 0x2B ∧ b ≠ 0x2D := by
  obtain ⟨d, ds, hds⟩ := List.exists_cons_of_ne_nil n.isDigits.1
  have hd := digit_ne d (digitValue_widen hb (n.isDigits.2 d (by simp [hds])))
  intro b hmem
  cases hm : n.mark with
  | none =>
    rw [hm, hds] at hmem
    obtain rfl : d = b := by simpa [HexMark.bytes] using hmem
    exact ⟨hd.1, hd.2.1, hd.2.2.1⟩
  | lower =>
    rw [hm] at hmem
    obtain rfl : 0x30 = b := by simpa [HexMark.bytes] using hmem
    decide
  | upper =>
    rw [hm] at hmem
    obtain rfl : 0x30 = b := by simpa [HexMark.bytes] using hmem
    decide

/-- **A numeral in front of a rest** that does not go on with a digit. -/
theorem strtol_numeral {base : Nat} (n : Numeral base) {rest : List Byte} (hb : base ≤ 16) (hr : NoDigit base rest)
    (hhex : base = 16 → rest = []) : strtol (n.bytes ++ rest) base = cutLong n.value rest := by
  have hhead := n.head_ne rest hb
  have htrim : (n.bytes ++ rest).dropWhile isSpace = n.sign.bytes ++ (n.mark.bytes ++ n.digits ++ rest) := by
    have hstart := n.sign.not_blank fun b hmem => (hhead b hmem).1
    rw [Numeral.bytes]
    simp only [List.append_assoc] at hstart ⊢
    rw [List.dropWhile_append_of_pos n.isBlanks, hstart]
  rw [strtol_eq, htrim, splitSign_append n.sign fun b hmem => ⟨(hhead b hmem).2.1, (hhead b hmem).2.2⟩,
    n.skipHexMark_eq hb hhex, strtolDigits_append _ n.isDigits hr]
  simp only [Numeral.value, decide_eq_true_eq]

/-- What the mark is taken off from: nothing, or `0x` in front of a hexadecimal digit. -/
theorem exists_mark (base : Nat) (s : List Byte) :
    ∃ mark : HexMark, s = mark.bytes ++ skipHexMark base s ∧ (mark ≠ .none → base = 16) := by
  unfold skipHexMark
  split
  · next x d rest =>
    split
    · next h =>
      obtain ⟨hbase, rfl | rfl, -⟩ := h
      · exact ⟨.lower, rfl, fun _ => hbase⟩
      · exact ⟨.upper, rfl, fun _ => hbase⟩
    · exact ⟨.none, rfl, fun h => absurd rfl h⟩
  · exact ⟨.none, rfl, fun h => absurd rfl h⟩

/-- **Every number that `strtol` finds is a numeral** with the rest behind it. -/
theorem exists_numeral (s : List Byte) (base : Nat) :
    strtol s base = ⟨0, none, false⟩ ∨
    ∃ (n : Numeral base) (rest : List Byte), s = n.bytes ++ rest ∧ NoDigit base rest ∧
      strtol s base = cutLong n.value rest := by
  obtain ⟨sign, unsigned, hsign, hsplit⟩ := exists_sign (s.dropWhile isSpace)
  obtain ⟨mark, hmark, hbased⟩ := exists_mark base unsigned
  obtain ⟨ds, rest, hds, hd, hr⟩ := exists_digits base (skipHexMark base unsigned)
  have hs : s = s.takeWhile isSpace ++ (sign.bytes ++ (mark.bytes ++ (ds ++ rest))) := by
    rw [← hds, ← hmark, ← hsign, List.takeWhile_append_dropWhile]
  rw [strtol_eq, hsplit, hds]
  by_cases hne : ds = []
  · left
    rw [hne, List.nil_append]
    exact strtolDigits_none hr
  · right
    refine ⟨⟨s.takeWhile isSpace, sign, mark, ds, fun b hb => List.mem_takeWhile_imp hb, hbased, hne, hd⟩, rest, ?_, hr, ?_⟩
    · simpa [Numeral.bytes] using hs
    · rw [strtolDigits_append _ ⟨hne, hd⟩ hr]
      simp only [Numeral.value, decide_eq_true_eq]

/-! ## Plain numbers -/

/-- Digits with nothing in front. -/
def Numeral.ofDigits {base : Nat} (s : List Byte) (h : Digits base s) : Numeral base where
  blanks := []
  sign := .none
  mark := .none
  digits := s
  isBlanks := by simp
  based := fun h => absurd rfl h
  isDigits := h

theorem Numeral.bytes_ofDigits {base : Nat} {s : List Byte} (h : Digits base s) : (ofDigits s h).bytes = s := by
  simp [Numeral.bytes, ofDigits, Sign.bytes, HexMark.bytes]

theorem Numeral.value_ofDigits {base : Nat} {s : List Byte} (h : Digits base s) :
    (ofDigits s h).value = digitsValue base s := by
  simp [Numeral.value, ofDigits]

/-- A numeral that is nothing but digits has no blanks, no sign and no mark. -/
theorem Numeral.value_of_digits {base : Nat} (n : Numeral base) (hb : base ≤ 16) (h : Digits base n.bytes) :
    n.value = digitsValue base n.bytes := by
  have hne : ∀ b ∈ n.bytes, _ := fun b hmem => digit_ne b (digitValue_widen hb (h.2 b hmem))
  have hblanks : n.blanks = [] := by
    apply List.eq_nil_iff_forall_not_mem.mpr
    intro b hmem
    have hdigit := (hne b (by simp [Numeral.bytes, hmem])).1
    rw [n.isBlanks b hmem] at hdigit
    exact absurd hdigit (by simp)
  have hsign : n.sign = .none := by
    cases hs : n.sign with
    | none => rfl
    | plus => exact absurd rfl (hne 0x2B (by simp [Numeral.bytes, hs, Sign.bytes])).2.1
    | minus => exact absurd rfl (hne 0x2D (by simp [Numeral.bytes, hs, Sign.bytes])).2.2.1
  have hmark : n.mark = .none := by
    cases hm : n.mark with
    | none => rfl
    | lower => exact absurd rfl (hne 0x78 (by simp [Numeral.bytes, hm, HexMark.bytes])).2.2.2.1
    | upper => exact absurd rfl (hne 0x58 (by simp [Numeral.bytes, hm, HexMark.bytes])).2.2.2.2.1
  simp [Numeral.value, Numeral.bytes, hblanks, hsign, hmark, Sign.bytes, HexMark.bytes]

/-- The bytes a numeral is made of. -/
def isNumeralByte (b : Byte) : Bool :=
  isSpace b || b = 0x2B || b = 0x2D || b = 0x78 || b = 0x58 || (digitValue 16 b).isSome

theorem Numeral.isNumeralByte_of_mem {base : Nat} (n : Numeral base) (hb : base ≤ 16) {b : Byte} (h : b ∈ n.bytes) :
    isNumeralByte b = true := by
  simp only [Numeral.bytes, List.mem_append] at h
  rcases h with ((h | h) | h) | h
  · simp [isNumeralByte, n.isBlanks b h]
  · cases hs : n.sign <;> rw [hs] at h <;> simp [Sign.bytes] at h <;> subst h <;> decide
  · cases hm : n.mark <;> rw [hm] at h <;> simp [HexMark.bytes] at h <;> rcases h with rfl | rfl <;> decide
  · simp [isNumeralByte, digitValue_widen hb (n.isDigits.2 b h)]

theorem Numeral.bytes_ne_nil {base : Nat} (n : Numeral base) : n.bytes ≠ [] := by
  simp [Numeral.bytes, n.isDigits.1]

/-- **`parse_uint`** accepts the numerals whose value is in the range. -/
theorem parseUint_iff {s : List Byte} {base : Nat} {max v : Int} (hb : base ≤ 16) (hmax : max ≤ longMax) :
    parseUint s base 0 max = some v ↔ ∃ n : Numeral base, s = n.bytes ∧ n.value = v ∧ 0 ≤ v ∧ v ≤ max := by
  constructor
  · intro h
    unfold parseUint at h
    split at h
    · exact absurd h (by simp)
    · rcases exists_numeral s base with hnone | ⟨n, rest, hs, -, hn⟩
      · simp [hnone] at h
      · rw [hn, cutLong] at h
        split at h
        · simp at h
        · split at h
          · simp at h
          · simp only [Option.some.injEq, ne_eq, ite_eq_iff, reduceCtorEq, and_false, false_or, not_or, not_lt,
              not_not] at h
            obtain ⟨⟨rfl, hmin, hle⟩, rfl⟩ := h
            exact ⟨n, by simpa using hs, rfl, hmin, hle⟩
  · rintro ⟨n, rfl, rfl, hmin, hle⟩
    have hn : strtol n.bytes base = ⟨n.value, some [], false⟩ := by
      have h := strtol_numeral n hb (noDigit_nil base) fun _ => rfl
      rw [List.append_nil] at h
      rw [h, cutLong, if_neg (by omega), if_neg (by unfold longMin; omega)]
    rw [parseUint, if_neg n.bytes_ne_nil, hn]
    apply if_neg
    simp
    omega

end LibuvcH264Src
