import LibuvcH264Src.CachePath
import LibuvcH264Src.Numerals

/-!
# Printed numbers

* `printed` : the digits of a number, as they are printed, behind zeros;
* `digitsValue_printed` : they spell the number;
* `Numeral.ofInt` : a printed integer behind blanks is a numeral with its value.
-/

namespace LibuvcH264Src
open AnnexB

theorem digitValue_digitChar {base d : Nat} (hb : base ≤ 16) (hd : d < base) :
    digitValue base (UInt8.ofNat (Nat.digitChar d).toNat) = some d := by
  have hall : ∀ d < 16, ∀ base ≤ 16, d < base → digitValue base (UInt8.ofNat (Nat.digitChar d).toNat) = some d := by
    decide +kernel
  exact hall d (by omega) base hb hd

/-- The digits of `n`, behind `zeros` zeros. -/
def printed (base zeros n : Nat) : List Byte := ascii (List.replicate zeros '0' ++ Nat.toDigits base n)

section Printed
variable {base : Nat} (hpos : 1 < base) (hb : base ≤ 16)
include hpos hb

/-- The last digit comes off the end. -/
theorem toDigits_spelled (n : Nat) :
    (∀ b ∈ ascii (Nat.toDigits base n), (digitValue base b).isSome = true) ∧
      digitsValue base (ascii (Nat.toDigits base n)) = n := by
  induction n using Nat.strongRecOn with
  | ind n ih =>
    by_cases hn : n < base
    · rw [Nat.toDigits_of_lt_base hn]
      have hdigit := digitValue_digitChar hb hn
      refine ⟨fun b hmem => ?_, ?_⟩
      · obtain rfl := List.mem_singleton.mp hmem
        rw [hdigit]
        rfl
      · show 0 * base + (digitValue base _).getD 0 = n
        rw [hdigit, Option.getD_some, Nat.zero_mul, Nat.zero_add]
    · rw [Nat.toDigits_of_base_le hpos (by omega)]
      obtain ⟨hdigits, hvalue⟩ := ih (n / base) (Nat.div_lt_self (by omega) hpos)
      have hlast := digitValue_digitChar hb (Nat.mod_lt n (by omega : 0 < base))
      have hsplit : ascii (Nat.toDigits base (n / base) ++ [(n % base).digitChar]) =
          ascii (Nat.toDigits base (n / base)) ++ [UInt8.ofNat (Nat.digitChar (n % base)).toNat] := List.map_append
      rw [hsplit]
      refine ⟨fun b hmem => ?_, ?_⟩
      · rcases List.mem_append.mp hmem with hmem | hmem
        · exact hdigits b hmem
        · obtain rfl := List.mem_singleton.mp hmem
          rw [hlast]
          rfl
      · rw [digitsValue, List.foldl_append]
        show digitsValue base (ascii (Nat.toDigits base (n / base))) * base + (digitValue base _).getD 0 = n
        rw [hvalue, hlast, Option.getD_some]
        have hdiv := Nat.div_add_mod n base
        rw [Nat.mul_comm] at hdiv
        exact hdiv

theorem printed_digits (zeros n : Nat) : Digits base (printed base zeros n) := by
  have hzero := digitValue_digitChar hb (by omega : 0 < base)
  obtain ⟨hdigits, -⟩ := toDigits_spelled hpos hb n
  refine ⟨fun hnil => ?_, fun b hmem => ?_⟩
  · exact Nat.toDigits_ne_nil (List.append_eq_nil_iff.mp (List.map_eq_nil_iff.mp hnil)).2
  · rw [printed, ascii, List.map_append, List.map_replicate] at hmem
    rcases List.mem_append.mp hmem with hmem | hmem
    · obtain rfl := List.eq_of_mem_replicate hmem
      exact Option.isSome_iff_exists.mpr ⟨0, hzero⟩
    · exact hdigits b hmem

/-- **Printing is read back**, with any number of zeros in front. -/
theorem digitsValue_printed (zeros n : Nat) : digitsValue base (printed base zeros n) = n := by
  have hzero := digitValue_digitChar hb (by omega : 0 < base)
  rw [printed, ascii, List.map_append, List.map_replicate, digitsValue, List.foldl_append]
  have hskip : (List.replicate zeros (UInt8.ofNat '0'.toNat)).foldl (addDigit base) 0 = 0 := by
    induction zeros with
    | zero => rfl
    | succ zeros ih =>
      rw [List.replicate_succ, List.foldl_cons]
      have hstep : addDigit base 0 (UInt8.ofNat '0'.toNat) = 0 := by
        show 0 * base + (digitValue base _).getD 0 = 0
        rw [show digitValue base (UInt8.ofNat '0'.toNat) = some 0 from hzero, Option.getD_some, Nat.zero_mul]
      rw [hstep]
      exact ih
  rw [hskip]
  exact (toDigits_spelled hpos hb n).2

end Printed

/-! ## Integers -/

/-- A printed integer behind blanks. -/
def Numeral.ofInt (blanks : List Byte) (hblanks : ∀ b ∈ blanks, isSpace b = true) (n : Int) : Numeral 10 where
  blanks := blanks
  sign := if n < 0 then .minus else .none
  mark := .none
  digits := printed 10 0 n.natAbs
  isBlanks := hblanks
  based := fun h => absurd rfl h
  isDigits := printed_digits (by decide) (by decide) 0 n.natAbs

section OfInt
variable {blanks : List Byte} (hblanks : ∀ b ∈ blanks, isSpace b = true) (n : Int)

theorem Numeral.ofInt_bytes : (Numeral.ofInt blanks hblanks n).bytes = blanks ++ printInt n := by
  have hprinted : ∀ m, printed 10 0 m = ascii (Nat.toDigits 10 m) := fun m => rfl
  simp only [Numeral.bytes, Numeral.ofInt, HexMark.bytes, List.append_nil, List.append_assoc, hprinted]
  cases n with
  | ofNat m =>
    have hsign : ¬ Int.ofNat m < 0 := not_lt.mpr (Int.natCast_nonneg m)
    rw [if_neg hsign]
    rfl
  | negSucc m =>
    rw [if_pos (Int.negSucc_lt_zero m)]
    rfl

theorem Numeral.ofInt_value : (Numeral.ofInt blanks hblanks n).value = n := by
  have hvalue : digitsValue 10 (Numeral.ofInt blanks hblanks n).digits = n.natAbs :=
    digitsValue_printed (by decide) (by decide) 0 n.natAbs
  rw [Numeral.value, hvalue]
  by_cases hn : n < 0
  · have hsign : (Numeral.ofInt blanks hblanks n).sign = .minus := if_pos hn
    rw [if_pos hsign]
    omega
  · have hsign : (Numeral.ofInt blanks hblanks n).sign = .none := if_neg hn
    have hplus : (Numeral.ofInt blanks hblanks n).sign ≠ .minus := by rw [hsign]; decide
    rw [if_neg hplus]
    omega

end OfInt

end LibuvcH264Src
