import LibuvcH264Src.CacheFile
import LibuvcH264Src.Calls
import LibuvcH264Src.ParameterSets
import LibuvcH264Src.Tiling

/-!
# The round trip of the cache file

* `cutUnits` : the units of the parser without their positions, as a recursion over the bytes (`parseLoop_cutUnits`);
* `CutUnit` : a start code, a header byte, and what is behind it up to where the parser cuts; every set of a delivery
  is one (`cutUnit_of_parse`);
* `KeptApart a b` : in front of `b` the parser cuts `a` out again;
* `cut_stream_iff` : the kinds of a stream of sets are read back exactly where each keeps its bytes in front of the next;
* `restores_iff` : the file of any session is read back exactly where its sets are such.
-/

namespace LibuvcH264Src
open AnnexB

/-! ## The parser without positions -/

/-- How many bytes of a unit lie behind its start code. -/
def bodyLength (s : List Byte) : Nat :=
  match nextCode s with
  | none => s.length
  | some p => p.1

def cutUnits (c : Codec) : Nat → List Byte → List NalUnit
  | 0, _ => []
  | room + 1, s =>
    match nextCode s with
    | none => []
    | some (k, sc) =>
      let behind := s.drop (k + sc.length)
      ⟨headerUnitType c.format (behind.getD 0 0), 0, sc.bytes ++ behind.take (bodyLength behind)⟩ :: cutUnits c room behind

theorem cutUnits_found {c : Codec} {s : List Byte} {k : Nat} {sc : StartCode} (h : nextCode s = some (k, sc)) (room : Nat) :
    cutUnits c (room + 1) s =
      ⟨headerUnitType c.format ((s.drop (k + sc.length)).getD 0 0), 0,
        sc.bytes ++ (s.drop (k + sc.length)).take (bodyLength (s.drop (k + sc.length)))⟩ ::
        cutUnits c room (s.drop (k + sc.length)) := by
  rw [cutUnits, h]

/-- The unit without its place in the buffer. -/
def NalUnit.unplaced (u : NalUnit) : NalUnit := { u with ptr := 0 }

theorem lastAccepted_unplaced (kind : NalUnitType) (initial : List Byte) (units : List NalUnit) :
    lastAccepted kind initial (units.map NalUnit.unplaced) = lastAccepted kind initial units := by
  unfold lastAccepted
  rw [List.filter_map, List.getLast?_map, Option.map_map]
  rfl

/-- What the loop stores behind a scan. -/
theorem parseLoop_cutUnits (c : Codec) (buf : List Byte) (room start : Nat) :
    (parseLoop c.format buf room (findNalUnit c.format buf start true)).map NalUnit.unplaced =
      cutUnits c room (buf.drop start) := by
  induction room generalizing start with
  | zero => rfl
  | succ room ih =>
    rw [findNalUnit_eq]
    unfold cutUnits
    cases hnext : nextCode (buf.drop start) with
    | none => rfl
    | some p =>
      obtain ⟨k, sc⟩ := p
      obtain ⟨l, hdr, rest, hs, rfl⟩ := exists_of_nextCode hnext
      have hcode : buf.drop (start + l.length) = sc.bytes ++ hdr :: rest := by
        rw [← List.drop_drop, hs, List.drop_left]
      have hbehind : buf.drop (start + l.length + sc.length) = hdr :: rest := by
        rw [← List.drop_drop, hcode]
        exact List.drop_left
      have hbehind' : (buf.drop start).drop (l.length + sc.length) = hdr :: rest := by
        rw [List.drop_drop, ← Nat.add_assoc, hbehind]
      have hih := ih (start + l.length + sc.length)
      have hnextFind := findNalUnit_eq c buf (start + l.length + sc.length)
      rw [hbehind] at hih hnextFind
      simp only [Option.map_some, hbehind']
      unfold parseLoop
      simp only [List.map_cons, hih, List.cons.injEq, and_true]
      unfold NalUnit.unplaced
      simp only [NalUnit.mk.injEq, true_and]
      refine ⟨?_, ?_⟩
      · rw [List.getD_eq_getElem?_getD, getElem?_behind_code hcode]
        rfl
      · rw [hnextFind, hcode]
        unfold bodyLength
        have hlength : sc.bytes.length = sc.length := rfl
        cases nextCode (hdr :: rest) with
        | none =>
          simp only [Option.map_none]
          rw [List.take_of_length_le (le_refl _), ← hcode, List.take_of_length_le]
          rw [List.length_drop]
        | some q =>
          simp only [Option.map_some]
          rw [List.take_append, List.take_of_length_le (by omega)]
          congr 2
          omega

theorem parseNalUnits_cutUnits (c : Codec) (max : Nat) (buf : List Byte) :
    (parseNalUnits c.format max buf).map NalUnit.unplaced = cutUnits c max buf :=
  parseLoop_cutUnits c buf max 0

/-! ## Cut units -/

/-- A start code, a header byte and more bytes, in which the parser finds no further unit. -/
structure CutUnit where
  code : StartCode
  header : Byte
  rest : List Byte
  last : nextCode (header :: rest) = none

instance : Nonempty CutUnit := ⟨⟨.short, 0x09, [], by decide⟩⟩

namespace CutUnit

def body (u : CutUnit) : List Byte := u.header :: u.rest

def bytes (u : CutUnit) : List Byte := u.code.bytes ++ u.body

def type (c : Codec) (u : CutUnit) : NalUnitType := headerUnitType c.format u.header

/-- What `parse_nal_units` stores for it. -/
def unit (c : Codec) (u : CutUnit) : NalUnit := ⟨u.type c, 0, u.bytes⟩

end CutUnit

def setStream (us : List CutUnit) : List Byte := us.flatMap CutUnit.bytes

theorem nextCode_take {s : List Byte} {k : Nat} {sc : StartCode} (h : nextCode s = some (k, sc)) : NoCode (s.take k) := by
  intro ⟨x, y, hcode⟩
  have hprefix : x ++ ([0, 0, 1] ++ y) <+: s := by
    rw [← List.append_assoc, hcode]
    exact List.take_prefix k s
  have hlength := congrArg List.length hcode
  simp only [List.length_append, List.length_cons, List.length_take] at hlength
  apply nextCode_first h x.length (by omega)
  obtain ⟨t, rfl⟩ := hprefix
  rw [List.append_assoc, List.drop_left, List.append_assoc]
  exact List.prefix_append _ _

/-- A unit whose header byte is not zero. -/
theorem exists_cutUnit (c : Codec) (sc : StartCode) (hdr : Byte) (rest : List Byte) (hhdr : hdr ≠ 0) :
    ∃ u : CutUnit, u.bytes = sc.bytes ++ (hdr :: rest).take (bodyLength (hdr :: rest)) ∧
      u.type c = headerUnitType c.format hdr := by
  unfold bodyLength
  cases hnext : nextCode (hdr :: rest) with
  | none =>
    refine ⟨⟨sc, hdr, rest, hnext⟩, ?_, rfl⟩
    rw [List.take_of_length_le (le_refl _)]
    rfl
  | some p =>
    obtain ⟨k, sc'⟩ := p
    have hclean := nextCode_take hnext
    -- the header byte begins no start code
    obtain ⟨k, rfl⟩ : ∃ m, k = m + 1 := by
      refine ⟨k - 1, ?_⟩
      obtain ⟨l, x, more, hs, hl⟩ := exists_of_nextCode hnext
      cases l with
      | nil => cases sc' <;> exact absurd (List.cons.inj hs).1 hhdr
      | cons y l =>
        rw [List.length_cons] at hl
        omega
    rw [List.take_succ_cons] at hclean ⊢
    exact ⟨⟨sc, hdr, rest.take k, nextCode_eq_none hclean⟩, rfl, rfl⟩

theorem headerUnitType_zero (c : Codec) : headerUnitType c.format 0 = .invalid := by
  cases c <;> decide

/-- **Every set that is parsed** is one. -/
theorem cutUnit_of_cutUnits {c : Codec} {u : NalUnit} (hset : nalIsParameterSet u.type = true) {room : Nat}
    {s : List Byte} (hu : u ∈ cutUnits c room s) : ∃ v : CutUnit, v.bytes = u.data ∧ v.type c = u.type := by
  induction room generalizing s with
  | zero => exact absurd hu List.not_mem_nil
  | succ room ih =>
    unfold cutUnits at hu
    cases hnext : nextCode s with
    | none =>
      rw [hnext] at hu
      exact absurd hu List.not_mem_nil
    | some p =>
      obtain ⟨k, sc⟩ := p
      rw [hnext] at hu
      obtain ⟨l, hdr, rest, rfl, rfl⟩ := exists_of_nextCode hnext
      have hbehind : (l ++ (sc.bytes ++ hdr :: rest)).drop (l.length + sc.length) = hdr :: rest := by
        rw [← List.drop_drop, List.drop_left]
        exact List.drop_left
      simp only [hbehind] at hu
      rcases List.mem_cons.mp hu with rfl | hu
      · apply exists_cutUnit
        rintro rfl
        have hinvalid := headerUnitType_zero c
        simp only [List.getD_cons_zero, hinvalid] at hset
        exact absurd hset (by decide)
      · exact ih hu

theorem cutUnit_of_parse {c : Codec} {u : NalUnit} (hset : nalIsParameterSet u.type = true) {max : Nat}
    {buf : List Byte} (hu : u ∈ parseNalUnits c.format max buf) : ∃ v : CutUnit, v.bytes = u.data ∧ v.type c = u.type := by
  have hcut := List.mem_map_of_mem (f := NalUnit.unplaced) hu
  rw [parseNalUnits_cutUnits] at hcut
  exact cutUnit_of_cutUnits (u := u.unplaced) hset hcut

/-! ## Two sets next to each other -/

/-- Behind the start code of `a` no further one comes, and its last byte is not taken for the first of the code of `b`. -/
def KeptApart (a b : CutUnit) : Prop := NoCode a.body ∧ (b.code = .short → EndsNonzero a.body)

section Next
variable {a b : CutUnit}

theorem nextCode_keeps (h : KeptApart a b) (more : List Byte) :
    nextCode (a.body ++ (b.bytes ++ more)) = some (a.body.length, b.code) := by
  have hbytes : b.bytes ++ more = b.code.bytes ++ b.header :: (b.rest ++ more) := by
    unfold CutUnit.bytes CutUnit.body
    rw [List.append_assoc, List.cons_append]
  rw [hbytes]
  cases hcode : b.code with
  | short => exact nextCode_append h.1 (h.2 hcode) .short b.header _
  | long => exact nextCode_append_long h.1 b.header _

/-- Otherwise the parser ends `a` before its end. -/
theorem nextCode_shifted (h : ¬ KeptApart a b) (more : List Byte) :
    ∃ k sc, nextCode (a.body ++ (b.bytes ++ more)) = some (k, sc) ∧ k < a.body.length := by
  by_cases hclean : NoCode a.body
  · have hshort : b.code = .short ∧ ¬ EndsNonzero a.body := by
      constructor
      · cases hcode : b.code with
        | short => rfl
        | long => exact absurd ⟨hclean, fun hs => absurd (hcode.symm.trans hs) (by decide)⟩ h
      · intro hnonzero
        exact h ⟨hclean, fun _ => hnonzero⟩
    obtain ⟨hcode, hzero⟩ := hshort
    unfold EndsNonzero at hzero
    rw [ne_eq, not_not] at hzero
    obtain ⟨x, hx⟩ := List.getLast?_eq_some_iff.mp hzero
    obtain ⟨k, sc, hk, hle⟩ := nextCode_le x .long b.header (b.rest ++ more)
    refine ⟨k, sc, ?_, by rw [hx, List.length_append]; exact Nat.lt_succ_of_le hle⟩
    rw [← hk, hx]
    unfold CutUnit.bytes CutUnit.body
    rw [hcode]
    simp [StartCode.bytes]
  · unfold NoCode at hclean
    rw [not_not] at hclean
    obtain ⟨x, y, hcode⟩ := hclean
    have hsplit : a.body ++ (b.bytes ++ more) = x ++ (StartCode.short.bytes ++ (y ++ (b.bytes ++ more))) := by
      rw [← hcode]
      simp [StartCode.bytes]
    have hne : y ++ (b.bytes ++ more) ≠ [] := by
      unfold CutUnit.bytes CutUnit.body
      simp
    obtain ⟨hdr, rest, hrest⟩ := List.exists_cons_of_ne_nil hne
    obtain ⟨k, sc, hk, hle⟩ := nextCode_le x .short hdr rest
    rw [hsplit, hrest]
    refine ⟨k, sc, hk, ?_⟩
    have hlength := congrArg List.length hcode
    simp only [List.length_append, List.length_cons] at hlength
    omega

end Next

/-! ## The codes of a stream -/

/-- Somewhere in `s` a start code comes, and `hdr` behind it. -/
def Codes (s : List Byte) (hdr : Byte) : Prop := ∃ x y, s = x ++ ([0, 0, 1] ++ hdr :: y)

theorem Codes.cons {s : List Byte} {hdr b : Byte} (h : Codes (b :: s) hdr) :
    Codes s hdr ∨ ∃ y, b :: s = [0, 0, 1] ++ hdr :: y := by
  obtain ⟨x, y, hs⟩ := h
  cases x with
  | nil => exact Or.inr ⟨y, hs⟩
  | cons z x => exact Or.inl ⟨x, y, (List.cons.inj hs).2⟩

/-- Inside a start code no other one begins. -/
theorem Codes.code {sc : StartCode} {s : List Byte} {hdr : Byte} (h : Codes (sc.bytes ++ s) hdr) :
    Codes s hdr ∨ ∃ y, s = hdr :: y := by
  have hshort : Codes ([0, 0, 1] ++ s) hdr → Codes s hdr ∨ ∃ y, s = hdr :: y := by
    intro h
    rcases h.cons with h | ⟨y, hy⟩
    · rcases h.cons with h | ⟨y, hy⟩
      · rcases h.cons with h | ⟨y, hy⟩
        · exact Or.inl h
        · simp at hy
      · simp at hy
    · exact Or.inr ⟨y, by simpa using hy⟩
  cases sc with
  | short => exact hshort h
  | long =>
    rcases Codes.cons h with h | ⟨y, hy⟩
    · exact hshort h
    · simp at hy

theorem not_codes_of_nextCode {s : List Byte} (h : nextCode s = none) (hdr : Byte) : ¬ Codes s hdr := by
  rintro ⟨x, y, rfl⟩
  obtain ⟨k, sc, hk, -⟩ := nextCode_le x .short hdr y
  rw [show [0, 0, 1] = StartCode.short.bytes from rfl, hk] at h
  cases h

/-- Behind bytes without such a code, the zero that begins the next code may be taken for a header byte. -/
theorem Codes.append {l s : List Byte} {hdr : Byte} (hl : ∀ hdr, ¬ Codes l hdr) (hs : s = [] ∨ ∃ t, s = 0 :: 0 :: t)
    (h : Codes (l ++ s) hdr) : Codes s hdr ∨ hdr = 0 := by
  induction l with
  | nil => exact Or.inl h
  | cons b l ih =>
    rcases Codes.cons h with h | ⟨y, hy⟩
    · refine ih (fun hdr' hcode => ?_) h
      obtain ⟨x, y, rfl⟩ := hcode
      exact hl hdr' ⟨b :: x, y, rfl⟩
    · match l with
      | [] => rcases hs with rfl | ⟨t, rfl⟩ <;> simp at hy
      | [_] => rcases hs with rfl | ⟨t, rfl⟩ <;> simp at hy
      | [_, _] =>
        rcases hs with rfl | ⟨t, rfl⟩
        · simp at hy
        · have hhdr := congrArg (fun bytes => bytes.getD 3 1) hy
          exact Or.inr hhdr.symm
      | x :: z :: w :: l =>
        simp only [List.cons_append, List.nil_append, List.cons.injEq] at hy
        obtain ⟨rfl, rfl, rfl, rfl, -⟩ := hy
        exact absurd ⟨[], l, rfl⟩ (hl _)

theorem setStream_cons (u : CutUnit) (us : List CutUnit) : setStream (u :: us) = u.bytes ++ setStream us := rfl

theorem stream_begins (us : List CutUnit) : setStream us = [] ∨ ∃ t, setStream us = 0 :: 0 :: t := by
  cases us with
  | nil => exact Or.inl rfl
  | cons u us =>
    rw [setStream_cons]
    unfold CutUnit.bytes
    cases u.code with
    | short => exact Or.inr ⟨_, rfl⟩
    | long => exact Or.inr ⟨_, rfl⟩

/-- The codes behind the first one of a stream are those of the other units, or a zero follows them. -/
theorem header_of_codes (u : CutUnit) (us : List CutUnit) {hdr : Byte} (h : Codes (u.body ++ setStream us) hdr) :
    hdr = 0 ∨ ∃ v ∈ us, hdr = v.header := by
  induction us generalizing u with
  | nil =>
    rw [setStream, List.flatMap_nil, List.append_nil] at h
    exact absurd h (not_codes_of_nextCode u.last hdr)
  | cons v vs ih =>
    rcases Codes.append (not_codes_of_nextCode u.last) (stream_begins (v :: vs)) h with h | rfl
    · rw [setStream_cons, CutUnit.bytes, List.append_assoc] at h
      rcases h.code with h | ⟨y, hy⟩
      · rcases ih v h with hzero | ⟨w, hw, hhdr⟩
        · exact Or.inl hzero
        · exact Or.inr ⟨w, List.mem_cons_of_mem v hw, hhdr⟩
      · exact Or.inr ⟨v, List.mem_cons_self, (List.cons.inj hy).1.symm⟩
    · exact Or.inl rfl

theorem cutUnits_type {c : Codec} {room : Nat} {s : List Byte} {u : NalUnit} (hu : u ∈ cutUnits c room s) :
    ∃ hdr, Codes s hdr ∧ u.type = headerUnitType c.format hdr := by
  induction room generalizing s with
  | zero => exact absurd hu List.not_mem_nil
  | succ room ih =>
    unfold cutUnits at hu
    cases hnext : nextCode s with
    | none =>
      rw [hnext] at hu
      exact absurd hu List.not_mem_nil
    | some p =>
      obtain ⟨k, sc⟩ := p
      rw [hnext] at hu
      obtain ⟨l, hdr, rest, rfl, rfl⟩ := exists_of_nextCode hnext
      have hbehind : (l ++ (sc.bytes ++ hdr :: rest)).drop (l.length + sc.length) = hdr :: rest := by
        rw [← List.drop_drop, List.drop_left]
        exact List.drop_left
      obtain ⟨z, hz⟩ := sc.bytes_eq
      simp only [hbehind] at hu
      rcases List.mem_cons.mp hu with rfl | hu
      · exact ⟨hdr, ⟨l ++ z, rest, by rw [hz]; simp⟩, rfl⟩
      · obtain ⟨hdr', ⟨x, y, hcode⟩, htype⟩ := ih hu
        exact ⟨hdr', ⟨l ++ sc.bytes ++ x, y, by rw [hcode]; simp⟩, htype⟩

/-! ## A stream of sets -/

theorem cutUnits_stream (c : Codec) (room : Nat) (u : CutUnit) (us : List CutUnit) :
    cutUnits c (room + 1) (setStream (u :: us)) =
      ⟨u.type c, 0, u.code.bytes ++ (u.body ++ setStream us).take (bodyLength (u.body ++ setStream us))⟩ ::
        cutUnits c room (u.body ++ setStream us) := by
  have hbytes : setStream (u :: us) = u.code.bytes ++ u.header :: (u.rest ++ setStream us) := by
    rw [setStream_cons]
    unfold CutUnit.bytes CutUnit.body
    rw [List.append_assoc, List.cons_append]
  have hbehind : (setStream (u :: us)).drop (0 + u.code.length) = u.body ++ setStream us := by
    rw [hbytes, Nat.zero_add]
    exact List.drop_left
  have hfirst : nextCode (setStream (u :: us)) = some (0, u.code) := by
    rw [hbytes]
    exact nextCode_at_code _ _ _
  rw [cutUnits_found hfirst, hbehind]
  rfl

/-- The parser goes on with the next unit. -/
theorem cutUnits_behind {c : Codec} {u v : CutUnit} (h : KeptApart u v) (room : Nat) (us : List CutUnit) :
    cutUnits c room (u.body ++ setStream (v :: us)) = cutUnits c room (setStream (v :: us)) := by
  have hnext := nextCode_keeps h (setStream us)
  have hbehind : (u.body ++ (v.bytes ++ setStream us)).drop (u.body.length + v.code.length) =
      (v.bytes ++ setStream us).drop (0 + v.code.length) := by
    rw [← List.drop_drop, List.drop_left, Nat.zero_add]
  have hfirst : nextCode (v.bytes ++ setStream us) = some (0, v.code) := by
    unfold CutUnit.bytes CutUnit.body
    rw [List.append_assoc, List.cons_append]
    exact nextCode_at_code _ _ _
  cases room with
  | zero => rfl
  | succ room =>
    rw [setStream_cons, cutUnits_found hnext, cutUnits_found hfirst, hbehind]

/-- The units behind the first one of a stream are of other kinds. -/
theorem cutUnits_ne_type {c : Codec} {u : CutUnit} {us : List CutUnit} (hset : nalIsParameterSet (u.type c) = true)
    (hnodup : ((u :: us).map (CutUnit.type c)).Nodup) {room : Nat} {n : NalUnit}
    (hn : n ∈ cutUnits c room (u.body ++ setStream us)) : n.type ≠ u.type c := by
  obtain ⟨hdr, hcode, htype⟩ := cutUnits_type hn
  rw [htype]
  intro heq
  rcases header_of_codes u us hcode with rfl | ⟨v, hv, rfl⟩
  · rw [← heq, headerUnitType_zero] at hset
    exact absurd hset (by decide)
  · rw [List.map_cons, List.nodup_cons] at hnodup
    apply hnodup.1
    rw [← heq]
    exact List.mem_map_of_mem (f := CutUnit.type c) hv

/-- A unit of another kind makes no difference. -/
theorem lastAccepted_cons_ne {kind : NalUnitType} {u : NalUnit} (h : u.type ≠ kind) (initial : List Byte)
    (us : List NalUnit) : lastAccepted kind initial (u :: us) = lastAccepted kind initial us := by
  unfold lastAccepted
  rw [List.filter_cons_of_neg]
  intro hu
  exact h (of_decide_eq_true hu).1

/-- Behind an accepted unit no other one of its kind comes. -/
theorem lastAccepted_cons_last {u : NalUnit} {us : List NalUnit} (hu : acceptsUnit u = true)
    (hne : ∀ n ∈ us, n.type ≠ u.type) (initial : List Byte) : lastAccepted u.type initial (u :: us) = u.data := by
  rcases lastAccepted_cases u.type u.data us with ⟨hsame, -⟩ | ⟨n, hn, htype, -⟩
  · rw [← List.singleton_append, lastAccepted_append, lastAccepted_of_accepts hu, if_pos rfl, hsame]
  · exact absurd htype (hne n hn)

section First
variable {c : Codec} {u : CutUnit} {us : List CutUnit}

/-- The first unit is the last of its kind. -/
theorem lastAccepted_first (hset : nalIsParameterSet (u.type c) = true) (hfit : u.bytes.length ≤ spsppsBufSz)
    (hnodup : ((u :: us).map (CutUnit.type c)).Nodup) {k : Nat} (hk : k ≤ u.body.length)
    (hlength : bodyLength (u.body ++ setStream us) = k) (room : Nat) (initial : List Byte) :
    lastAccepted (u.type c) initial (cutUnits c (room + 1) (setStream (u :: us))) = u.code.bytes ++ u.body.take k := by
  have hdata : (u.body ++ setStream us).take (bodyLength (u.body ++ setStream us)) = u.body.take k := by
    rw [hlength, List.take_append_of_le_length hk]
  rw [cutUnits_stream, hdata]
  apply lastAccepted_cons_last (u := ⟨u.type c, 0, u.code.bytes ++ u.body.take k⟩)
  · have hpos := u.code.length_pos
    unfold CutUnit.bytes at hfit
    unfold StartCode.length at hpos
    rw [acceptsUnit_iff hset]
    unfold NalUnit.len
    simp only [List.length_append, List.length_take] at hfit ⊢
    omega
  · exact fun n hn => cutUnits_ne_type hset hnodup hn

/-- The other kinds are read from what is behind the first start code. -/
theorem lastAccepted_others (hnodup : ((u :: us).map (CutUnit.type c)).Nodup) {v : CutUnit} (hv : v ∈ us) (room : Nat)
    (initial : List Byte) :
    lastAccepted (v.type c) initial (cutUnits c (room + 1) (setStream (u :: us))) =
      lastAccepted (v.type c) initial (cutUnits c room (u.body ++ setStream us)) := by
  rw [cutUnits_stream]
  apply lastAccepted_cons_ne
  rw [List.map_cons, List.nodup_cons] at hnodup
  intro heq
  have hsame : u.type c = v.type c := heq
  apply hnodup.1
  rw [hsame]
  exact List.mem_map_of_mem (f := CutUnit.type c) hv

end First

/-- **A stream of sets** of different kinds is read back exactly where each keeps its bytes in front of the next one. -/
theorem cut_stream_iff {c : Codec} (us : List CutUnit) (hsets : ∀ u ∈ us, nalIsParameterSet (u.type c) = true)
    (hfits : ∀ u ∈ us, u.bytes.length ≤ spsppsBufSz) (hnodup : (us.map (CutUnit.type c)).Nodup) (room : Nat)
    (hroom : us.length ≤ room) (initial : NalUnitType → List Byte) :
    (∀ u ∈ us, lastAccepted (u.type c) (initial (u.type c)) (cutUnits c room (setStream us)) = u.bytes) ↔
      us.IsChain KeptApart := by
  induction us generalizing room with
  | nil => exact ⟨fun _ => List.IsChain.nil, fun _ u hu => absurd hu List.not_mem_nil⟩
  | cons u us ih =>
    obtain ⟨room, rfl⟩ : ∃ m, room = m + 1 := ⟨room - 1, by rw [List.length_cons] at hroom; omega⟩
    have hfirst := fun k hk hlength => lastAccepted_first (hsets u List.mem_cons_self) (hfits u List.mem_cons_self) hnodup
      (k := k) hk hlength room (initial (u.type c))
    rw [List.forall_mem_cons]
    cases us with
    | nil =>
      refine ⟨fun _ => List.IsChain.singleton u, fun _ => ⟨?_, fun v hv => absurd hv List.not_mem_nil⟩⟩
      have hlength : bodyLength (u.body ++ setStream []) = u.body.length := by
        have hnone : nextCode u.body = none := u.last
        unfold bodyLength
        rw [setStream, List.flatMap_nil, List.append_nil, hnone]
      rw [hfirst _ (le_refl _) hlength, List.take_length]
      rfl
    | cons v us =>
      rw [List.isChain_cons_cons]
      by_cases hkept : KeptApart u v
      · have hlength : bodyLength (u.body ++ setStream (v :: us)) = u.body.length := by
          unfold bodyLength
          rw [setStream_cons, nextCode_keeps hkept]
        have hrest := ih (fun w hw => hsets w (List.mem_cons_of_mem u hw)) (fun w hw => hfits w (List.mem_cons_of_mem u hw))
          (List.nodup_cons.mp hnodup).2 room (by rw [List.length_cons] at hroom; omega)
        rw [hfirst _ (le_refl _) hlength, List.take_length, ← hrest]
        refine and_congr (iff_of_true rfl hkept) (forall₂_congr fun w hw => ?_)
        rw [lastAccepted_others hnodup hw, cutUnits_behind hkept]
      · refine iff_of_false (fun h => ?_) fun h => hkept h.1
        obtain ⟨k, sc, hnext, hlt⟩ := nextCode_shifted hkept (setStream us)
        have hlength : bodyLength (u.body ++ setStream (v :: us)) = k := by
          unfold bodyLength
          rw [setStream_cons, hnext]
        have hbytes := (hfirst k (Nat.le_of_lt hlt) hlength).symm.trans h.1
        have hlengths := congrArg List.length hbytes
        unfold CutUnit.bytes at hlengths
        simp only [List.length_append, List.length_take] at hlengths
        omega

/-! ## The file of a session -/

/-- The bytes of a set behind its start code. -/
def setBody (set : List Byte) : List Byte := if [0, 0, 0, 1] <+: set then set.drop 4 else set.drop 3

/-- No start code comes in `a` behind its own, and `a` does not end in a zero byte where `b` begins with the short
code. -/
def KeptBefore (a b : List Byte) : Prop := NoCode (setBody a) ∧ ([0, 0, 0, 1] <+: b ∨ EndsNonzero a)

instance (a b : List Byte) : Decidable (KeptBefore a b) := inferInstanceAs (Decidable (_ ∧ _))

theorem CutUnit.long_prefix (u : CutUnit) : [0, 0, 0, 1] <+: u.bytes ↔ u.code = .long := by
  unfold CutUnit.bytes
  cases u.code with
  | short => simp [StartCode.bytes, List.cons_prefix_cons]
  | long => simp [StartCode.bytes, List.cons_prefix_cons]

theorem CutUnit.setBody_bytes (u : CutUnit) : setBody u.bytes = u.body := by
  have hlong := u.long_prefix
  unfold setBody
  cases hcode : u.code with
  | short =>
    rw [if_neg (by rw [hlong, hcode]; decide), CutUnit.bytes, hcode]
    rfl
  | long =>
    rw [if_pos (hlong.mpr hcode), CutUnit.bytes, hcode]
    rfl

theorem CutUnit.endsNonzero_bytes (u : CutUnit) : EndsNonzero u.bytes ↔ EndsNonzero u.body := by
  unfold EndsNonzero CutUnit.bytes
  have hne : u.body ≠ [] := List.cons_ne_nil _ _
  rw [List.getLast?_append_of_ne_nil _ hne]

theorem keptBefore_iff (a b : CutUnit) : KeptBefore a.bytes b.bytes ↔ KeptApart a b := by
  unfold KeptBefore KeptApart
  rw [a.setBody_bytes, b.long_prefix, a.endsNonzero_bytes]
  cases b.code with
  | short => simp
  | long => simp

theorem sessionStep_frameFormat (self : StreamState) (e : SessionEvent) :
    (sessionStep self e).1.frameFormat = self.frameFormat := by
  cases e with
  | delivery arrival frame => exact congrArg Prod.fst (frameCallback_media self arrival frame)
  | setClock clock => exact congrArg Prod.fst (setClock_media self clock)
  | changeState transition => exact congrArg Prod.fst (changeState_media self transition)

theorem slot_sessionStep (self : StreamState) (e : SessionEvent) (kind : NalUnitType) :
    slot (sessionStep self e).1 kind = lastAccepted kind (slot self kind) (eventAus self e).flatten := by
  cases e with
  | delivery arrival frame => exact slot_frameCallback self arrival frame kind
  | setClock clock => cases clock <;> cases kind <;> rfl
  | changeState transition => cases transition <;> cases kind <;> rfl

theorem slot_runSession (self : StreamState) (events : List SessionEvent) (kind : NalUnitType) :
    slot (runSession self events).1 kind = lastAccepted kind (slot self kind) (sessionAus self events).flatten := by
  induction events generalizing self with
  | nil => rfl
  | cons e events ih =>
    unfold runSession sessionAus
    rw [List.flatten_append, lastAccepted_append, ← slot_sessionStep]
    exact ih (sessionStep self e).1

theorem runSession_frameFormat (self : StreamState) (events : List SessionEvent) :
    (runSession self events).1.frameFormat = self.frameFormat := by
  induction events generalizing self with
  | nil => rfl
  | cons e events ih =>
    unfold runSession
    exact (ih (sessionStep self e).1).trans (sessionStep_frameFormat self e)

/-- The sets of a session are cut units. -/
theorem cutUnit_of_session {c : Codec} {self : StreamState} (hself : self.frameFormat = c.format)
    {events : List SessionEvent} {u : NalUnit} (hu : u ∈ (sessionAus self events).flatten)
    (hset : nalIsParameterSet u.type = true) : ∃ v : CutUnit, v.bytes = u.data ∧ v.type c = u.type := by
  induction events generalizing self with
  | nil => exact absurd hu List.not_mem_nil
  | cons e events ih =>
    unfold sessionAus at hu
    rw [List.flatten_append] at hu
    rcases List.mem_append.mp hu with hu | hu
    · cases e with
      | delivery arrival frame =>
        unfold eventAus at hu
        simp only [] at hu
        split at hu
        · split_ifs at hu
          · rw [flatten_deliveryAccessUnits, hself] at hu
            exact cutUnit_of_parse hset hu
          · exact absurd hu List.not_mem_nil
        · exact absurd hu List.not_mem_nil
      | setClock clock => exact absurd hu List.not_mem_nil
      | changeState transition => exact absurd hu List.not_mem_nil
    · exact ih ((sessionStep_frameFormat self e).trans hself) hu

theorem setKinds_set (format : FrameFormat) : ∀ kind ∈ setKinds format, nalIsParameterSet kind = true := by
  unfold setKinds
  split_ifs <;> decide

theorem setKinds_nodup (format : FrameFormat) : (setKinds format).Nodup := by
  unfold setKinds
  split_ifs <;> decide

/-- What is written are the slots of the kinds of the codec. -/
theorem storeSpspps_slots (self : StreamState) :
    storeSpspps self (spsppsKeySnapshot self) = (setKinds self.frameFormat).flatMap (slot self) := by
  unfold storeSpspps spsppsKeySnapshot setKinds
  by_cases hformat : self.frameFormat = .h265
  · simp [hformat, slot]
  · simp [hformat, slot]

/-- **The round trip.** Behind any session that brought all the sets of its codec, the file is read back into any
instance of this codec exactly where each of its sets but the last is kept in front of the next one. -/
theorem restores_iff (c : Codec) (self target : StreamState) (events : List SessionEvent)
    (hself : self.frameFormat = c.format) (htarget : target.frameFormat = c.format)
    (hbrought : ∀ kind ∈ setKinds c.format, ∃ u ∈ (sessionAus self events).flatten, u.type = kind ∧ acceptsUnit u = true) :
    let s := (runSession self events).1
    (∀ kind ∈ setKinds c.format, slot (loadBytes target (storeSpspps s (spsppsKeySnapshot s))) kind = slot s kind) ↔
      ((setKinds c.format).map (slot s)).IsChain KeptBefore := by
  intro s
  have hformat : s.frameFormat = c.format := (runSession_frameFormat self events).trans hself
  -- every slot holds a set that was cut out of a delivery
  have hcut : ∀ kind ∈ setKinds c.format, ∃ v : CutUnit, v.bytes = slot s kind ∧ v.type c = kind := by
    intro kind hkind
    obtain ⟨u, hu, htype, haccepted⟩ := hbrought kind hkind
    rcases lastAccepted_cases kind (slot self kind) (sessionAus self events).flatten with
      ⟨-, hnone⟩ | ⟨w, hw, hwtype, -, hdata⟩
    · exact absurd ⟨htype, haccepted⟩ (hnone u hu)
    · obtain ⟨v, hv, hvtype⟩ := cutUnit_of_session hself hw (by rw [hwtype]; exact setKinds_set c.format kind hkind)
      exact ⟨v, by rw [hv, hdata, ← slot_runSession], hvtype.trans hwtype⟩
  choose! cut hbytes htype using hcut
  have htypes : ((setKinds c.format).map cut).map (CutUnit.type c) = setKinds c.format := by
    rw [List.map_map]
    exact (List.map_congr_left fun kind hkind => htype kind hkind).trans (List.map_id _)
  have hslots : (setKinds c.format).map (slot s) = ((setKinds c.format).map cut).map CutUnit.bytes := by
    rw [List.map_map]
    exact List.map_congr_left fun kind hkind => (hbytes kind hkind).symm
  have hfile : storeSpspps s (spsppsKeySnapshot s) = setStream ((setKinds c.format).map cut) := by
    rw [storeSpspps_slots, hformat, setStream, List.flatMap_def, List.flatMap_def, hslots]
  have hlength : ((setKinds c.format).map cut).length ≤ 3 := by
    rw [List.length_map]
    cases c <;> decide
  have hloaded : ∀ kind, slot (loadBytes target (storeSpspps s (spsppsKeySnapshot s))) kind =
      lastAccepted kind (slot target kind) (cutUnits c 3 (setStream ((setKinds c.format).map cut))) := by
    intro kind
    unfold loadBytes
    rw [slot_foldl_loadUnit, htarget, List.take_of_length_le (storeSpspps_fits s _), hfile, ← lastAccepted_unplaced,
      parseNalUnits_cutUnits]
  have hread := cut_stream_iff (c := c) ((setKinds c.format).map cut)
    (fun u hu => by
      obtain ⟨kind, hkind, rfl⟩ := List.mem_map.mp hu
      rw [htype kind hkind]
      exact setKinds_set c.format kind hkind)
    (fun u hu => by
      obtain ⟨kind, hkind, rfl⟩ := List.mem_map.mp hu
      rw [hbytes kind hkind]
      exact slot_fits s kind)
    (by rw [htypes]; exact setKinds_nodup c.format) 3 hlength (slot target)
  have hchain : ((setKinds c.format).map (slot s)).IsChain KeptBefore ↔ ((setKinds c.format).map cut).IsChain KeptApart := by
    rw [hslots, List.isChain_map]
    exact ⟨fun h => h.imp fun a b => (keptBefore_iff a b).mp, fun h => h.imp fun a b => (keptBefore_iff a b).mpr⟩
  rw [hchain, ← hread, List.forall_mem_map]
  refine forall₂_congr fun kind hkind => ?_
  rw [hloaded, htype kind hkind, hbytes kind hkind]

/-- An SPS and a PPS from two deliveries; the camera ends the first one in a zero byte. -/
def paddedSets (pps : List Byte) : List SessionEvent :=
  [.setClock true, .delivery ⟨10, 0⟩ (some [0, 0, 0, 1, 0x67, 0x42, 0]), .delivery ⟨20, 0⟩ (some pps)]

/-- What another instance loads from the file behind these deliveries. -/
def reloaded (pps : List Byte) : StreamState :=
  let s := (runSession (openSession .h264 .init) (paddedSets pps)).1
  loadBytes (openSession .h264 .init) (storeSpspps s (spsppsKeySnapshot s))

theorem restores_iff_long :
    slot (reloaded [0, 0, 0, 1, 0x68, 0xCE]) .sps = [0, 0, 0, 1, 0x67, 0x42, 0] ∧
      slot (reloaded [0, 0, 0, 1, 0x68, 0xCE]) .pps = [0, 0, 0, 1, 0x68, 0xCE] := by
  have hrestored := (restores_iff .h264 (openSession .h264 .init) (openSession .h264 .init)
    (paddedSets [0, 0, 0, 1, 0x68, 0xCE]) rfl rfl (by decide +kernel)).mpr (by decide +kernel)
  exact ⟨(hrestored .sps (by decide)).trans (by decide +kernel), (hrestored .pps (by decide)).trans (by decide +kernel)⟩

/-- Behind a short start code the zero byte is read as a part of the PPS. -/
theorem not_restores :
    ¬ ∀ (c : Codec) (self target : StreamState) (events : List SessionEvent),
      self.frameFormat = c.format → target.frameFormat = c.format →
      (∀ kind ∈ setKinds c.format, ∃ u ∈ (sessionAus self events).flatten, u.type = kind ∧ acceptsUnit u = true) →
      let s := (runSession self events).1
      ∀ kind ∈ setKinds c.format, slot (loadBytes target (storeSpspps s (spsppsKeySnapshot s))) kind = slot s kind := by
  intro h
  have hsps := h .h264 (openSession .h264 .init) (openSession .h264 .init) (paddedSets [0, 0, 1, 0x68, 0xCE]) rfl rfl
    (by decide +kernel) .sps (by decide)
  revert hsps
  decide +kernel

end LibuvcH264Src
