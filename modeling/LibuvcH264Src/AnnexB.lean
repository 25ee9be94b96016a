import Mathlib.Data.List.Infix
import Mathlib.Tactic

/-!
# Annex-B byte streams

A byte stream carries NAL units, each behind a start code `00 00 01` or `00 00 00 01`.

* `NoCode l` : no start code inside `l`; `EndsNonzero l` : `l` does not end in a zero byte;
* `Nal` : the bytes of one NAL unit, non-empty, `NoCode` and `EndsNonzero`;
* `wire us` : the byte stream of the coded units `us` (`CodedNal.last_eq` : its last unit is determined);
* `nextCode s` : the first start code of `s` that a header byte follows, with its position
  (`nextCode_append` finds the code behind clean bytes, `nextCode_eq_none` finds none inside them,
  `exists_of_nextCode` is the converse on any bytes).
-/

namespace AnnexB

/-- An `unsigned char`. -/
abbrev Byte := UInt8

/-- The two start codes. -/
inductive StartCode where
  | short
  | long
  deriving DecidableEq, Repr

def StartCode.bytes : StartCode → List Byte
  | short => [0, 0, 1]
  | long => [0, 0, 0, 1]

def StartCode.length (c : StartCode) : Nat := c.bytes.length

theorem StartCode.length_pos (c : StartCode) : 3 ≤ c.length := by
  cases c <;> decide

/-- No start code lies inside `l`. -/
def NoCode (l : List Byte) : Prop := ¬ [0, 0, 1] <:+: l

instance (l : List Byte) : Decidable (NoCode l) := inferInstanceAs (Decidable (¬ _))

/-- `l` does not end in a zero byte. -/
def EndsNonzero (l : List Byte) : Prop := l.getLast? ≠ some 0

instance (l : List Byte) : Decidable (EndsNonzero l) := inferInstanceAs (Decidable (_ ≠ _))

theorem NoCode.of_infix {l m : List Byte} (h : NoCode l) (hm : m <:+: l) : NoCode m :=
  fun hc => h (hc.trans hm)

theorem NoCode.tail {b : Byte} {l : List Byte} (h : NoCode (b :: l)) : NoCode l :=
  h.of_infix (List.suffix_cons b l).isInfix

theorem NoCode.nil : NoCode [] := by decide

theorem EndsNonzero.nil : EndsNonzero [] := by decide

theorem EndsNonzero.tail {b : Byte} {l : List Byte} (h : EndsNonzero (b :: l)) : EndsNonzero l := by
  cases l with
  | nil => exact EndsNonzero.nil
  | cons c l => simpa [EndsNonzero, List.getLast?_cons] using h

/-- Both start codes contain the short one. -/
theorem short_infix_of_code {c : StartCode} {l : List Byte} (h : c.bytes <+: l) :
    [0, 0, 1] <:+: l := by
  refine List.IsInfix.trans ?_ h.isInfix
  cases c with
  | short => exact List.infix_refl _
  | long => exact (List.suffix_cons (0 : Byte) [0, 0, 1]).isInfix

/-- A start code that begins inside clean bytes would lie in them, or they would end in zero. -/
theorem not_prefix_of_clean (c : StartCode) {l : List Byte} (hne : l ≠ []) (hc : NoCode l)
    (he : EndsNonzero l) (t : List Byte) : ¬ c.bytes <+: l ++ t := by
  intro h
  have hlong : c.bytes.length ≤ l.length → False := fun hlen =>
    hc (short_infix_of_code (List.prefix_of_prefix_length_le h (List.prefix_append l t) hlen))
  match l, hne with
  | [a], _ =>
    have ha : (0 : Byte) = a := by
      cases c <;> simp only [StartCode.bytes, List.cons_append, List.cons_prefix_cons] at h
      · exact h.1
      · exact h.1
    exact he (by simp [ha])
  | [a, b], _ =>
    have hb : (0 : Byte) = b := by
      cases c <;> simp only [StartCode.bytes, List.cons_append, List.cons_prefix_cons] at h
      · exact h.2.1
      · exact h.2.1
    exact he (by simp [hb])
  | [a, b, d], _ =>
    cases c with
    | short => exact hlong (by simp [StartCode.bytes])
    | long =>
      simp only [StartCode.bytes, List.cons_append, List.cons_prefix_cons] at h
      exact he (by simp [h.2.2.1])
  | a :: b :: d :: e :: l, _ => exact hlong (by cases c <;> simp [StartCode.bytes])

/-! ## NAL units -/

/-- The bytes of one NAL unit, without its start code. -/
@[ext] structure Nal where
  bytes : List Byte
  nonempty : bytes ≠ []
  noCode : NoCode bytes
  endsNonzero : EndsNonzero bytes
  deriving DecidableEq

/-- The header byte of a unit. -/
def Nal.header (n : Nal) : Byte := n.bytes.head n.nonempty

theorem Nal.bytes_eq (n : Nal) : n.bytes = n.header :: n.bytes.tail :=
  (List.cons_head_tail n.nonempty).symm

/-- A unit with its start code in front. -/
abbrev CodedNal := StartCode × Nal

/-- The bytes of a coded unit on the wire. -/
def CodedNal.bytes (u : CodedNal) : List Byte := u.1.bytes ++ u.2.bytes

/-- The Annex-B byte stream of a list of coded units. -/
def wire (us : List CodedNal) : List Byte := us.flatMap CodedNal.bytes

@[simp] theorem wire_nil : wire [] = [] := rfl

@[simp] theorem wire_cons (u : CodedNal) (us : List CodedNal) :
    wire (u :: us) = u.bytes ++ wire us := rfl

@[simp] theorem wire_append (us vs : List CodedNal) : wire (us ++ vs) = wire us ++ wire vs :=
  List.flatMap_append

theorem CodedNal.bytes_eq (u : CodedNal) :
    CodedNal.bytes u = u.1.bytes ++ u.2.header :: u.2.bytes.tail := by
  rw [CodedNal.bytes, ← Nal.bytes_eq]

/-! ## The last unit -/

theorem eq_of_code_append {a m n : List Byte} (hn : NoCode n)
    (h : [0, 0, 1] ++ n = a ++ ([0, 0, 1] ++ m)) : m = n := by
  match a with
  | [] => simpa using h.symm
  | [_] => simp at h
  | [_, _] => simp at h
  | _ :: _ :: _ :: a =>
    simp only [List.cons_append, List.nil_append, List.cons.injEq] at h
    exact absurd ⟨a, m, by simp [h.2.2.2]⟩ hn

/-- The bytes behind the last start code are determined. -/
theorem eq_of_append_code {x y m n : List Byte} (hm : NoCode m) (hn : NoCode n)
    (h : x ++ ([0, 0, 1] ++ m) = y ++ ([0, 0, 1] ++ n)) : m = n := by
  rcases List.append_eq_append_iff.mp h with ⟨a, -, ha⟩ | ⟨a, -, ha⟩
  · exact (eq_of_code_append hm ha).symm
  · exact eq_of_code_append hn ha

theorem StartCode.bytes_eq (c : StartCode) : ∃ z, c.bytes = z ++ [0, 0, 1] := by
  cases c with
  | short => exact ⟨[], rfl⟩
  | long => exact ⟨[0], rfl⟩

/-- Bytes that end in a coded unit end in no other. -/
theorem CodedNal.last_eq {x y : List Byte} {u v : CodedNal}
    (h : x ++ CodedNal.bytes u = y ++ CodedNal.bytes v) : u.2.bytes = v.2.bytes := by
  obtain ⟨zu, hu⟩ := u.1.bytes_eq
  obtain ⟨zv, hv⟩ := v.1.bytes_eq
  rw [CodedNal.bytes, CodedNal.bytes, hu, hv] at h
  exact eq_of_append_code (x := x ++ zu) (y := y ++ zv) u.2.noCode v.2.noCode (by simpa using h)

/-! ## The next start code -/

/-- The first start code of `s` that a header byte follows, with its position. A long code at the
very end of the bytes stops the search. -/
def nextCode : List Byte → Option (Nat × StartCode)
  | [] => none
  | b :: s =>
    if [0, 0, 0, 1] <+: b :: s then
      if 4 < (b :: s).length then some (0, .long) else none
    else if [0, 0, 1] <+: b :: s ∧ 3 < (b :: s).length then some (0, .short)
    else (nextCode s).map fun p => (p.1 + 1, p.2)

theorem nextCode_at_code (c : StartCode) (h : Byte) (rest : List Byte) :
    nextCode (c.bytes ++ h :: rest) = some (0, c) := by
  cases c with
  | short =>
    simp [StartCode.bytes, nextCode, List.cons_prefix_cons]
  | long =>
    simp [StartCode.bytes, nextCode, List.cons_prefix_cons]

theorem nextCode_cons_clean {b : Byte} {l : List Byte} (hc : NoCode (b :: l))
    (he : EndsNonzero (b :: l)) (t : List Byte) :
    nextCode (b :: l ++ t) = (nextCode (l ++ t)).map fun p => (p.1 + 1, p.2) := by
  have hl := not_prefix_of_clean .long (by simp) hc he t
  have hs := not_prefix_of_clean .short (by simp) hc he t
  simp only [StartCode.bytes, List.cons_append] at hl hs
  rw [List.cons_append, nextCode, if_neg hl, if_neg (fun h => hs h.1)]

/-- The search passes over clean bytes and stops at the code behind them. -/
theorem nextCode_append {l : List Byte} (hc : NoCode l) (he : EndsNonzero l) (c : StartCode)
    (h : Byte) (rest : List Byte) :
    nextCode (l ++ (c.bytes ++ h :: rest)) = some (l.length, c) := by
  induction l with
  | nil => simpa using nextCode_at_code c h rest
  | cons b l ih =>
    rw [nextCode_cons_clean hc he, ih hc.tail he.tail]
    rfl

theorem nextCode_eq_none {l : List Byte} (hc : NoCode l) : nextCode l = none := by
  induction l with
  | nil => rfl
  | cons b l ih =>
    have hl : ¬ [0, 0, 0, 1] <+: b :: l := fun h => hc (short_infix_of_code (c := .long) h)
    have hs : ¬ [0, 0, 1] <+: b :: l := fun h => hc h.isInfix
    rw [nextCode, if_neg hl, if_neg (fun h => hs h.1), ih hc.tail]
    rfl

/-- On any bytes, a code that is found is there, and a header byte follows it. -/
theorem exists_of_nextCode {s : List Byte} {k : Nat} {c : StartCode}
    (h : nextCode s = some (k, c)) :
    ∃ l b rest, s = l ++ (c.bytes ++ b :: rest) ∧ l.length = k := by
  induction s generalizing k with
  | nil => simp [nextCode] at h
  | cons b s ih =>
    rw [nextCode] at h
    split_ifs at h with hl hlen hs
    · obtain ⟨rfl, rfl⟩ : 0 = k ∧ StartCode.long = c := by simpa using h
      obtain ⟨t, ht⟩ := hl
      cases t with
      | nil => rw [← ht] at hlen; simp at hlen
      | cons x t => exact ⟨[], x, t, by rw [← ht]; rfl, rfl⟩
    · obtain ⟨rfl, rfl⟩ : 0 = k ∧ StartCode.short = c := by simpa using h
      obtain ⟨⟨t, ht⟩, hlen⟩ := hs
      cases t with
      | nil => rw [← ht] at hlen; simp at hlen
      | cons x t => exact ⟨[], x, t, by rw [← ht]; rfl, rfl⟩
    · obtain ⟨p, hp, hk⟩ := Option.map_eq_some_iff.mp h
      obtain ⟨rfl, rfl⟩ : p.1 + 1 = k ∧ p.2 = c := by simpa using hk
      obtain ⟨l, x, rest, hs', hlen⟩ := ih hp
      exact ⟨b :: l, x, rest, by rw [hs']; rfl, by simp [hlen]⟩

/-- A code that a header byte follows stops the search, if nothing in front of it does. -/
theorem nextCode_le (x : List Byte) (c : StartCode) (h : Byte) (rest : List Byte) :
    ∃ k c', nextCode (x ++ (c.bytes ++ h :: rest)) = some (k, c') ∧ k ≤ x.length := by
  induction x with
  | nil => exact ⟨0, c, nextCode_at_code c h rest, le_refl _⟩
  | cons b x ih =>
    obtain ⟨k, c', hk, hle⟩ := ih
    have hpos := c.length_pos
    unfold StartCode.length at hpos
    rw [List.cons_append, nextCode]
    split_ifs with hlong hlen hshort
    · exact ⟨0, .long, rfl, Nat.zero_le _⟩
    · simp only [List.length_cons, List.length_append] at hlen
      omega
    · exact ⟨0, .short, rfl, Nat.zero_le _⟩
    · refine ⟨k + 1, c', by rw [hk]; rfl, ?_⟩
      rw [List.length_cons]
      omega

/-- Behind zero bytes the search stops at a long code all the same. -/
theorem nextCode_append_long {l : List Byte} (hc : NoCode l) (h : Byte) (rest : List Byte) :
    nextCode (l ++ (StartCode.long.bytes ++ h :: rest)) = some (l.length, .long) := by
  induction l with
  | nil => exact nextCode_at_code .long h rest
  | cons b l ih =>
    have hnone : ¬ [0, 0, 1] <+: b :: l ++ (StartCode.long.bytes ++ h :: rest) := by
      intro hcode
      match l with
      | [] => simp [StartCode.bytes, List.cons_prefix_cons] at hcode
      | [_] => simp [StartCode.bytes, List.cons_prefix_cons] at hcode
      | x :: y :: l =>
        exact hc (List.prefix_of_prefix_length_le hcode (List.prefix_append _ _) (by simp)).isInfix
    have hlong : ¬ [0, 0, 0, 1] <+: b :: l ++ (StartCode.long.bytes ++ h :: rest) := by
      intro hcode
      match l with
      | [] => simp [StartCode.bytes, List.cons_prefix_cons] at hcode
      | [_] => simp [StartCode.bytes, List.cons_prefix_cons] at hcode
      | [_, _] => simp [StartCode.bytes, List.cons_prefix_cons] at hcode
      | x :: y :: z :: l =>
        have hprefix := List.prefix_of_prefix_length_le hcode (List.prefix_append _ _) (by simp)
        exact hc (short_infix_of_code (c := .long) hprefix)
    rw [List.cons_append] at hnone hlong ⊢
    rw [nextCode, if_neg hlong, if_neg fun h => hnone h.1, ih hc.tail]
    rfl

end AnnexB
