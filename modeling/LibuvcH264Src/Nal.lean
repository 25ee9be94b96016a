import LibuvcH264Src.AnnexB

/-!
# The NAL parser (`frame_pipeline.c`)

* `convertUnitType`, `findNalUnit`, `countNalUnits`, `parseNalUnits` : the parser, scan by scan;
* `findNalUnit_eq` : a searching scan is `AnnexB.nextCode` of the bytes from `start` on;
* `findNalUnit_append` : from a position behind which clean bytes run up to a unit, it finds that unit;
* `annexB_round_trip` : what is serialised is counted and parsed back, unit by unit.
-/

namespace LibuvcH264Src
open AnnexB

/-! ## Formats and unit types -/

/-- `enum uvc_frame_format`; `other` is every format the element does not stream. -/
inductive FrameFormat where
  | h264
  | h265
  | other
  deriving DecidableEq, Repr

/-- The two formats the element streams. -/
inductive Codec where
  | h264
  | h265
  deriving DecidableEq, Repr

def Codec.format : Codec → FrameFormat
  | .h264 => .h264
  | .h265 => .h265

/-- `nal_unit_type_t`. -/
inductive NalUnitType where
  | invalid
  | frameIdr
  | frameNonIdr
  | vps
  | sps
  | pps
  | aud
  deriving DecidableEq, Repr

def convertUnitType (format : FrameFormat) (type : Nat) : NalUnitType :=
  match format with
  | .h264 =>
    match type with
    | 1 => .frameNonIdr
    | 5 => .frameIdr
    | 7 => .sps
    | 8 => .pps
    | 9 => .aud
    | _ => .invalid
  | .h265 =>
    match type with
    | 1 => .frameNonIdr
    | 19 => .frameIdr
    | 20 => .frameIdr
    | 32 => .vps
    | 33 => .sps
    | 34 => .pps
    | 35 => .aud
    | _ => .invalid
  | .other => .invalid

/-- The `nal_unit_type` field of a header byte. -/
def nalTypeField (format : FrameFormat) (hdr : Byte) : Nat :=
  if format = .h264 then (hdr &&& 0x1F).toNat else ((hdr >>> 1) &&& 0x3F).toNat

/-- The type of the unit with header byte `hdr`. -/
def headerUnitType (format : FrameFormat) (hdr : Byte) : NalUnitType :=
  convertUnitType format (nalTypeField format hdr)

/-! ## Scanning -/

/-- What `find_nal_unit` returns: the type, `*offset` and `*sc_len`. -/
structure Found where
  type : NalUnitType
  offset : Nat
  scLen : Nat
  deriving DecidableEq, Repr

/-- The scan of `find_nal_unit` over the `n` positions from `i` on. -/
def findNalUnitFrom (format : FrameFormat) (buf : List Byte) (search : Bool) :
    Nat → Nat → Option Found
  | 0, _ => none
  | n + 1, i =>
    if buf.getD i 0 = 0 ∧ buf.getD (i + 1) 0 = 0 ∧ buf.getD (i + 2) 0 = 0 ∧
        buf.getD (i + 3) 0 = 1 then
      if i + 4 ≥ buf.length then none
      else some ⟨headerUnitType format (buf.getD (i + 4) 0), i, 4⟩
    else if buf.getD i 0 = 0 ∧ buf.getD (i + 1) 0 = 0 ∧ buf.getD (i + 2) 0 = 1 then
      if i + 3 ≥ buf.length then none
      else some ⟨headerUnitType format (buf.getD (i + 3) 0), i, 3⟩
    else if !search then none
    else findNalUnitFrom format buf search n (i + 1)

/-- `none` stands for the return value `-1`. -/
def findNalUnit (format : FrameFormat) (buf : List Byte) (start : Nat) (search : Bool) :
    Option Found :=
  if format ≠ .h264 ∧ format ≠ .h265 then none
  else if buf.length < 4 ∨ start > buf.length - 4 then none
  else findNalUnitFrom format buf search (buf.length - 3 - start) start

/-- The loop of `count_nal_units`. A unit takes its start code, and its header where it is the last, so
`n = buf.length` turns never run out. -/
def countLoop (format : FrameFormat) (buf : List Byte) : Nat → Option Found → Nat
  | 0, _ => 0
  | _ + 1, none => 0
  | n + 1, some cur =>
    countLoop format buf n (findNalUnit format buf (cur.offset + cur.scLen) true) + 1

def countNalUnits (format : FrameFormat) (buf : List Byte) : Nat :=
  countLoop format buf buf.length (findNalUnit format buf 0 true)

/-- `nal_unit_t`: `ptr` is the offset of the unit's start code in the delivery and `data` holds the
`len` bytes from there on. -/
structure NalUnit where
  type : NalUnitType
  ptr : Nat
  data : List Byte
  deriving DecidableEq, Repr

def NalUnit.len (u : NalUnit) : Nat := u.data.length

/-- The loop of `parse_nal_units` with `room = max - i` units left in the array. -/
def parseLoop (format : FrameFormat) (buf : List Byte) : Nat → Option Found → List NalUnit
  | 0, _ => []
  | _ + 1, none => []
  | room + 1, some cur =>
    let next := findNalUnit format buf (cur.offset + cur.scLen) true
    let stop := match next with
      | some n => n.offset
      | none => buf.length
    ⟨cur.type, cur.offset, (buf.drop cur.offset).take (stop - cur.offset)⟩ ::
      parseLoop format buf room next

def parseNalUnits (format : FrameFormat) (max : Nat) (buf : List Byte) : List NalUnit :=
  parseLoop format buf max (findNalUnit format buf 0 true)

/-! ## A scan is `nextCode` -/

theorem drop_eq_getD_cons {buf : List Byte} {i : Nat} (h : i < buf.length) :
    buf.drop i = buf.getD i 0 :: buf.drop (i + 1) := by
  rw [List.drop_eq_getElem_cons h, List.getD_eq_getElem?_getD, List.getElem?_eq_getElem h]
  rfl

theorem nextCode_of_length_le {s : List Byte} (h : s.length ≤ 3) : nextCode s = none := by
  cases hn : nextCode s with
  | none => rfl
  | some p =>
    obtain ⟨l, b, rest, rfl, -⟩ := exists_of_nextCode (k := p.1) (c := p.2) hn
    have hc := p.2.length_pos
    simp only [List.length_append, List.length_cons, StartCode.length] at h hc
    omega

theorem findNalUnitFrom_eq (format : FrameFormat) (buf : List Byte) :
    ∀ n i, n = buf.length - 3 - i →
      findNalUnitFrom format buf true n i = (nextCode (buf.drop i)).map fun p =>
        ⟨headerUnitType format (buf.getD (i + p.1 + p.2.length) 0), i + p.1, p.2.length⟩ := by
  intro n
  induction n with
  | zero =>
    intro i hn
    rw [nextCode_of_length_le (by rw [List.length_drop]; omega)]
    rfl
  | succ n ih =>
    intro i hn
    have h3 : i + 3 < buf.length := by omega
    have hdrop : buf.drop i = buf.getD i 0 :: buf.getD (i + 1) 0 :: buf.getD (i + 2) 0 ::
        buf.getD (i + 3) 0 :: buf.drop (i + 4) := by
      rw [drop_eq_getD_cons (by omega), drop_eq_getD_cons (show i + 1 < buf.length by omega),
        drop_eq_getD_cons (show i + 2 < buf.length by omega), drop_eq_getD_cons h3]
    have hlen : (buf.drop i).length = buf.length - i := List.length_drop
    have hstep : nextCode (buf.drop i) =
        if [0, 0, 0, 1] <+: buf.drop i then
          if 4 < (buf.drop i).length then some (0, .long) else none
        else if [0, 0, 1] <+: buf.drop i ∧ 3 < (buf.drop i).length then some (0, .short)
        else (nextCode (buf.drop (i + 1))).map fun p => (p.1 + 1, p.2) := by
      rw [drop_eq_getD_cons (show i < buf.length by omega), nextCode]
    have hlong : [0, 0, 0, 1] <+: buf.drop i ↔ buf.getD i 0 = 0 ∧ buf.getD (i + 1) 0 = 0 ∧
        buf.getD (i + 2) 0 = 0 ∧ buf.getD (i + 3) 0 = 1 := by
      rw [hdrop]
      simp only [List.cons_prefix_cons, List.nil_prefix, and_true, eq_comm]
    have hshort : [0, 0, 1] <+: buf.drop i ↔ buf.getD i 0 = 0 ∧ buf.getD (i + 1) 0 = 0 ∧
        buf.getD (i + 2) 0 = 1 := by
      rw [hdrop]
      simp only [List.cons_prefix_cons, List.nil_prefix, and_true, eq_comm]
    rw [hstep, findNalUnitFrom, hlen]
    by_cases h1 : buf.getD i 0 = 0 ∧ buf.getD (i + 1) 0 = 0 ∧ buf.getD (i + 2) 0 = 0 ∧
        buf.getD (i + 3) 0 = 1
    · rw [if_pos h1, if_pos (hlong.mpr h1)]
      by_cases h4 : i + 4 ≥ buf.length
      · rw [if_pos h4, if_neg (by omega)]
        rfl
      · rw [if_neg h4, if_pos (by omega)]
        rfl
    · rw [if_neg h1, if_neg (fun h => h1 (hlong.mp h))]
      by_cases h2 : buf.getD i 0 = 0 ∧ buf.getD (i + 1) 0 = 0 ∧ buf.getD (i + 2) 0 = 1
      · rw [if_pos h2, if_neg (by omega), if_pos ⟨hshort.mpr h2, by omega⟩]
        rfl
      · rw [if_neg h2, if_neg (by simp), if_neg (fun h => h2 (hshort.mp h.1)), ih (i + 1) (by omega),
          Option.map_map]
        congr 1
        funext p
        simp only [Function.comp, Found.mk.injEq, and_true]
        refine ⟨?_, by omega⟩
        congr 2
        omega

/-- A searching scan from `start` finds the next start code from there on. -/
theorem findNalUnit_eq (c : Codec) (buf : List Byte) (start : Nat) :
    findNalUnit c.format buf start true = (nextCode (buf.drop start)).map fun p =>
      ⟨headerUnitType c.format (buf.getD (start + p.1 + p.2.length) 0), start + p.1, p.2.length⟩ := by
  have hf : ¬ (c.format ≠ .h264 ∧ c.format ≠ .h265) := by cases c <;> decide
  rw [findNalUnit, if_neg hf]
  split_ifs with h
  · rw [nextCode_of_length_le (by rw [List.length_drop]; omega)]
    rfl
  · exact findNalUnitFrom_eq c.format buf _ start rfl

/-- Where a unit is found its start code and its header byte lie in the buffer. -/
structure Found.InBuffer (c : Codec) (buf : List Byte) (f : Found) : Prop where
  scLen : 3 ≤ f.scLen
  header : f.offset + f.scLen < buf.length
  typed : ∃ hdr, f.type = headerUnitType c.format hdr

theorem findNalUnit_inBuffer {c : Codec} {buf : List Byte} {start : Nat} {f : Found}
    (h : findNalUnit c.format buf start true = some f) : f.InBuffer c buf ∧ start ≤ f.offset := by
  rw [findNalUnit_eq] at h
  obtain ⟨⟨k, sc⟩, hk, rfl⟩ := Option.map_eq_some_iff.mp h
  obtain ⟨l, b, rest, hs, hlen⟩ := exists_of_nextCode hk
  have hpos := sc.length_pos
  have hbuf := congrArg List.length hs
  simp only [List.length_drop, List.length_append, List.length_cons, StartCode.length] at hbuf hpos
  exact ⟨⟨hpos, by simp only [StartCode.length]; omega, ⟨_, rfl⟩⟩, Nat.le_add_right _ _⟩

/-- A unit as the parser builds them: not empty, and typed by a header byte. -/
structure NalUnit.FromWire (c : Codec) (u : NalUnit) : Prop where
  nonempty : u.data ≠ []
  typed : ∃ hdr, u.type = headerUnitType c.format hdr

theorem parseLoop_fromWire (c : Codec) (buf : List Byte) (room : Nat) :
    ∀ cur : Option Found, (∀ f ∈ cur, f.InBuffer c buf) →
      ∀ u ∈ parseLoop c.format buf room cur, u.FromWire c := by
  induction room with
  | zero => intro cur _ u hu; simp [parseLoop] at hu
  | succ room ih =>
    intro cur hcur u hu
    cases cur with
    | none => simp [parseLoop] at hu
    | some f =>
      have hf := hcur f rfl
      have := hf.scLen
      have := hf.header
      rw [parseLoop, List.mem_cons] at hu
      rcases hu with rfl | hu
      · refine ⟨?_, hf.typed⟩
        rw [← List.length_pos_iff]
        cases hn : findNalUnit c.format buf (f.offset + f.scLen) true with
        | none => simp; omega
        | some g =>
          have hg := findNalUnit_inBuffer hn
          have := hg.1.header
          simp
          omega
      · exact ih _ (fun g hg => (findNalUnit_inBuffer hg).1) u hu

theorem parseNalUnits_fromWire (c : Codec) (max : Nat) (buf : List Byte) :
    ∀ u ∈ parseNalUnits c.format max buf, u.FromWire c :=
  parseLoop_fromWire c buf max _ fun _ hf => (findNalUnit_inBuffer hf).1

/-- Only H.265 has a VPS. -/
theorem NalUnit.FromWire.type_ne_vps {u : NalUnit} (h : u.FromWire .h264) : u.type ≠ .vps := by
  obtain ⟨hdr, ht⟩ := h.typed
  rw [ht, headerUnitType]
  simp only [Codec.format, convertUnitType]
  split <;> simp

/-! ## Serialised units -/

/-- The unit that `parse_nal_units` stores for the coded unit `u` placed at offset `off`. -/
def unitAt (c : Codec) (off : Nat) (u : CodedNal) : NalUnit :=
  ⟨headerUnitType c.format u.2.header, off, u.bytes⟩

/-- The units that it stores for the coded units `us` placed at offset `off`. -/
def unitsAt (c : Codec) : Nat → List CodedNal → List NalUnit
  | _, [] => []
  | off, u :: us => unitAt c off u :: unitsAt c (off + u.bytes.length) us

/-- The first of the coded units `us` placed at offset `off`, as a scan reports it. -/
def foundAt (c : Codec) (off : Nat) : List CodedNal → Option Found
  | [] => none
  | u :: _ => some ⟨headerUnitType c.format u.2.header, off, u.1.length⟩

@[simp] theorem length_unitsAt (c : Codec) (off : Nat) (us : List CodedNal) :
    (unitsAt c off us).length = us.length := by
  induction us generalizing off with
  | nil => rfl
  | cons u us ih => simp [unitsAt, ih]

theorem length_le_length_wire (us : List CodedNal) : us.length ≤ (wire us).length := by
  induction us with
  | nil => simp
  | cons u us ih =>
    have := u.1.length_pos
    simp only [wire_cons, List.length_cons, List.length_append, CodedNal.bytes, StartCode.length]
      at this ⊢
    omega

/-- A scan that starts in clean bytes finds the unit behind them. -/
theorem findNalUnit_append (c : Codec) (pre l : List Byte) (hc : NoCode l) (he : EndsNonzero l)
    (us : List CodedNal) :
    findNalUnit c.format (pre ++ (l ++ wire us)) pre.length true =
      foundAt c (pre.length + l.length) us := by
  rw [findNalUnit_eq, List.drop_left]
  cases us with
  | nil => rw [wire_nil, List.append_nil, nextCode_eq_none hc]; rfl
  | cons u us =>
    have hbytes : wire (u :: us) =
        u.1.bytes ++ u.2.header :: (u.2.bytes.tail ++ wire us) := by
      rw [wire_cons, CodedNal.bytes_eq]
      simp
    have hhdr : (pre ++ (l ++ wire (u :: us))).getD
        (pre.length + l.length + u.1.length) 0 = u.2.header := by
      rw [hbytes, List.getD_eq_getElem?_getD, List.getElem?_append_right (by omega),
        List.getElem?_append_right (by omega), List.getElem?_append_right
          (by simp only [StartCode.length]; omega)]
      simp [StartCode.length, show pre.length + l.length + u.1.bytes.length - pre.length -
        l.length - u.1.bytes.length = 0 by omega]
    rw [hbytes, nextCode_append hc he, ← hbytes, Option.map_some, foundAt, hhdr]

/-- The scan behind the start code of a unit finds the unit that follows. -/
theorem findNalUnit_next (c : Codec) (pre : List Byte) (u : CodedNal) (us : List CodedNal) :
    findNalUnit c.format (pre ++ wire (u :: us)) (pre.length + u.1.length) true =
      foundAt c (pre ++ u.bytes).length us := by
  have h := findNalUnit_append c (pre ++ u.1.bytes) u.2.bytes u.2.noCode u.2.endsNonzero us
  simp only [List.length_append, List.append_assoc, CodedNal.bytes, wire_cons, StartCode.length]
    at h ⊢
  rw [h, Nat.add_assoc]

theorem countLoop_wire (c : Codec) (us : List CodedNal) :
    ∀ (pre : List Byte) (n : Nat), us.length ≤ n →
      countLoop c.format (pre ++ wire us) n (foundAt c pre.length us) = us.length := by
  induction us with
  | nil => intro pre n _; cases n <;> rfl
  | cons u us ih =>
    intro pre n hn
    obtain ⟨n, rfl⟩ : ∃ m, n = m + 1 := ⟨n - 1, by simp at hn; omega⟩
    have hrest := ih (pre ++ u.bytes) n (by simpa using hn)
    simp only [foundAt, countLoop]
    rw [findNalUnit_next]
    rw [wire_cons, ← List.append_assoc, hrest, List.length_cons]

theorem parseLoop_wire (c : Codec) (us : List CodedNal) :
    ∀ (pre : List Byte) (room : Nat), us.length ≤ room →
      parseLoop c.format (pre ++ wire us) room (foundAt c pre.length us) =
        unitsAt c pre.length us := by
  induction us with
  | nil => intro pre room _; cases room <;> rfl
  | cons u us ih =>
    intro pre room hroom
    obtain ⟨room, rfl⟩ : ∃ m, room = m + 1 := ⟨room - 1, by simp at hroom; omega⟩
    have hrest := ih (pre ++ u.bytes) room (by simpa using hroom)
    -- the unit ends where the next one is found, or at the end of the buffer
    have hstop : (match foundAt c (pre ++ u.bytes).length us with
        | some n => n.offset
        | none => (pre ++ wire (u :: us)).length) = (pre ++ u.bytes).length := by
      cases us with
      | nil => simp [foundAt]
      | cons v us => rfl
    simp only [foundAt, parseLoop]
    rw [findNalUnit_next, hstop, unitsAt]
    congr 1
    · rw [List.drop_left, wire_cons, List.length_append, Nat.add_sub_cancel_left, List.take_left]
      rfl
    · rw [wire_cons, ← List.append_assoc, hrest, List.length_append]

/-- Without bytes in front of the first unit. -/
theorem annexB_round_trip_empty (c : Codec) (us : List CodedNal) :
    countNalUnits c.format (wire us) = us.length ∧
      parseNalUnits c.format us.length (wire us) = unitsAt c 0 us := by
  have hfirst : findNalUnit c.format (wire us) 0 true = foundAt c 0 us := by
    simpa using findNalUnit_append c [] [] NoCode.nil EndsNonzero.nil us
  constructor
  · simpa [countNalUnits, hfirst] using countLoop_wire c us [] _ (length_le_length_wire us)
  · simpa [parseNalUnits, hfirst] using parseLoop_wire c us [] _ (le_refl _)

/-- **Annex-B round trip**: the units of a serialised list are counted and parsed back, each with
its start code, whatever clean bytes lie in front of the first one. -/
theorem annexB_round_trip (c : Codec) (junk : List Byte) (hc : NoCode junk) (he : EndsNonzero junk)
    (us : List CodedNal) (max : Nat) (hmax : us.length ≤ max) :
    countNalUnits c.format (junk ++ wire us) = us.length ∧
      parseNalUnits c.format max (junk ++ wire us) = unitsAt c junk.length us := by
  have hfirst : findNalUnit c.format (junk ++ wire us) 0 true = foundAt c junk.length us := by
    simpa using findNalUnit_append c [] junk hc he us
  constructor
  · have hlen := length_le_length_wire us
    rw [countNalUnits, hfirst, countLoop_wire c us junk _ (by rw [List.length_append]; omega)]
  · rw [parseNalUnits, hfirst, parseLoop_wire c us junk max hmax]

/-- Junk, a one-byte unit behind a short code and a slice behind a long one. -/
theorem annexB_round_trip_two :
    countNalUnits .h264 ([0xFF] ++ wire [(.short, ⟨[0x09], by decide, by decide, by decide⟩),
        (.long, ⟨[0x65, 0x88], by decide, by decide, by decide⟩)]) = 2 ∧
      parseNalUnits .h264 2 ([0xFF] ++ wire [(.short, ⟨[0x09], by decide, by decide, by decide⟩),
        (.long, ⟨[0x65, 0x88], by decide, by decide, by decide⟩)]) =
        [⟨.aud, 1, [0, 0, 1, 0x09]⟩, ⟨.frameIdr, 5, [0, 0, 0, 1, 0x65, 0x88]⟩] :=
  annexB_round_trip .h264 [0xFF] (by decide) (by decide) _ 2 (by decide)

end LibuvcH264Src
