import LibuvcH264Src.Nal

/-!
# The parser on any bytes

* `Reading` : a value with the positions of the buffer that were looked at for it;
* `lookNalUnit`, `lookCount`, `lookParse` : the parser with its reads, `findReads`, `countReads` and `parseReads`;
* `nextFound`, `Ends` : one turn of the loop of `count_nal_units`, and a loop that ends after so many turns;
* `Tiles` : units that lie next to each other, up to the end of the buffer;
* `parser_tiles` : on any bytes the parser stays in the buffer and ends, and its units tile the buffer from the
  first start code on.
-/

namespace LibuvcH264Src
open AnnexB

/-! ## Reads -/

/-- A value, and the positions of the buffer that were looked at for it, in this order. -/
structure Reading (α : Type) where
  value : α
  reads : List Nat

instance : Monad Reading where
  pure a := ⟨a, []⟩
  bind r f := ⟨(f r.value).value, r.reads ++ (f r.value).reads⟩

namespace Reading
variable {α β : Type} {bound : Nat}

@[simp] theorem value_pure (a : α) : (pure a : Reading α).value = a := rfl

@[simp] theorem value_bind (r : Reading α) (f : α → Reading β) : (r >>= f).value = (f r.value).value := rfl

@[simp] theorem value_ite {c : Prop} [Decidable c] (r r' : Reading α) :
    (if c then r else r').value = if c then r.value else r'.value := apply_ite _ _ _ _

/-- All reads are in front of the bound. -/
def Below (bound : Nat) (r : Reading α) : Prop := ∀ i ∈ r.reads, i < bound

theorem below_pure (a : α) : (pure a : Reading α).Below bound := fun _ hi => absurd hi List.not_mem_nil

theorem Below.bind {r : Reading α} {f : α → Reading β} (hr : r.Below bound) (hf : (f r.value).Below bound) :
    (r >>= f).Below bound := by
  intro i hi
  rcases List.mem_append.mp hi with hi | hi
  · exact hr i hi
  · exact hf i hi

theorem below_ite {c : Prop} [Decidable c] {r r' : Reading α} (h : c → r.Below bound) (h' : ¬ c → r'.Below bound) :
    (if c then r else r').Below bound := by
  split
  · next hc => exact h hc
  · next hc => exact h' hc

end Reading

section Reads
variable (format : FrameFormat) (buf : List Byte)

/-- `buf[i]`. -/
def look (i : Nat) : Reading Byte := ⟨buf.getD i 0, [i]⟩

/-- `buf[i] == p[0] && buf[i + 1] == p[1] && ...`. -/
def lookFor : List Byte → Nat → Reading Bool
  | [], _ => return true
  | p :: ps, i => do
    if (← look buf i) = p then lookFor ps (i + 1)
    else return false

/-- The scan with its reads. -/
def lookFrom (search : Bool) : Nat → Nat → Reading (Option Found)
  | 0, _ => return none
  | n + 1, i => do
    if ← lookFor buf [0, 0, 0, 1] i then
      if i + 4 ≥ buf.length then return none
      else return some ⟨headerUnitType format (← look buf (i + 4)), i, 4⟩
    else if ← lookFor buf [0, 0, 1] i then
      if i + 3 ≥ buf.length then return none
      else return some ⟨headerUnitType format (← look buf (i + 3)), i, 3⟩
    else if !search then return none
    else lookFrom search n (i + 1)

def lookNalUnit (start : Nat) (search : Bool) : Reading (Option Found) :=
  if format ≠ .h264 ∧ format ≠ .h265 then return none
  else if buf.length < 4 ∨ start > buf.length - 4 then return none
  else lookFrom format buf search (buf.length - 3 - start) start

def lookCountLoop : Nat → Option Found → Reading Nat
  | 0, _ => return 0
  | _ + 1, none => return 0
  | n + 1, some cur => do
    let next ← lookNalUnit format buf (cur.offset + cur.scLen) true
    return (← lookCountLoop n next) + 1

def lookCount : Reading Nat := do lookCountLoop format buf buf.length (← lookNalUnit format buf 0 true)

def lookParseLoop : Nat → Option Found → Reading (List NalUnit)
  | 0, _ => return []
  | _ + 1, none => return []
  | room + 1, some cur => do
    let next ← lookNalUnit format buf (cur.offset + cur.scLen) true
    let stop := next.elim buf.length Found.offset
    return ⟨cur.type, cur.offset, (buf.drop cur.offset).take (stop - cur.offset)⟩ :: (← lookParseLoop room next)

def lookParse (max : Nat) : Reading (List NalUnit) := do lookParseLoop format buf max (← lookNalUnit format buf 0 true)

/-- The positions that `find_nal_unit` looks at. -/
def findReads (start : Nat) (search : Bool) : List Nat := (lookNalUnit format buf start search).reads

def countReads : List Nat := (lookCount format buf).reads

def parseReads (max : Nat) : List Nat := (lookParse format buf max).reads

/-! ### Without its reads it is the parser -/

variable {format buf}

theorem lookFor_long (i : Nat) : (lookFor buf [0, 0, 0, 1] i).value = true ↔
    buf.getD i 0 = 0 ∧ buf.getD (i + 1) 0 = 0 ∧ buf.getD (i + 2) 0 = 0 ∧ buf.getD (i + 3) 0 = 1 := by
  simp [lookFor, look]

theorem lookFor_short (i : Nat) : (lookFor buf [0, 0, 1] i).value = true ↔
    buf.getD i 0 = 0 ∧ buf.getD (i + 1) 0 = 0 ∧ buf.getD (i + 2) 0 = 1 := by
  simp [lookFor, look]

theorem lookFrom_value (search : Bool) (n i : Nat) :
    (lookFrom format buf search n i).value = findNalUnitFrom format buf search n i := by
  induction n generalizing i with
  | zero => rfl
  | succ n ih =>
    unfold lookFrom findNalUnitFrom
    simp only [Reading.value_bind, Reading.value_ite, Reading.value_pure, lookFor_long, lookFor_short, ih]
    rfl

theorem lookNalUnit_value (start : Nat) (search : Bool) :
    (lookNalUnit format buf start search).value = findNalUnit format buf start search := by
  unfold lookNalUnit findNalUnit
  simp only [Reading.value_ite, Reading.value_pure, lookFrom_value]

theorem lookCount_value : (lookCount format buf).value = countNalUnits format buf := by
  have hloop : ∀ n cur, (lookCountLoop format buf n cur).value = countLoop format buf n cur := by
    intro n
    induction n with
    | zero => exact fun _ => rfl
    | succ n ih =>
      rintro (_ | cur)
      · rfl
      · unfold lookCountLoop countLoop
        simp only [Reading.value_bind, Reading.value_pure, ih, lookNalUnit_value]
  unfold lookCount countNalUnits
  rw [Reading.value_bind, hloop, lookNalUnit_value]

theorem lookParse_value (max : Nat) : (lookParse format buf max).value = parseNalUnits format max buf := by
  have hloop : ∀ room cur, (lookParseLoop format buf room cur).value = parseLoop format buf room cur := by
    intro room
    induction room with
    | zero => exact fun _ => rfl
    | succ room ih =>
      rintro (_ | cur)
      · rfl
      · unfold lookParseLoop parseLoop
        simp only [Reading.value_bind, Reading.value_pure, ih, lookNalUnit_value]
        cases findNalUnit format buf (cur.offset + cur.scLen) true with
        | none => rfl
        | some next => rfl
  unfold lookParse parseNalUnits
  rw [Reading.value_bind, hloop, lookNalUnit_value]

/-! ### The reads are in the buffer -/

theorem lookFor_below {ps : List Byte} {i : Nat} (h : i + ps.length ≤ buf.length) :
    (lookFor buf ps i).Below buf.length := by
  induction ps generalizing i with
  | nil => exact Reading.below_pure true
  | cons p ps ih =>
    rw [List.length_cons] at h
    unfold lookFor
    refine Reading.Below.bind ?_ (Reading.below_ite (fun _ => ih (by omega)) fun _ => Reading.below_pure false)
    intro r hr
    rw [List.mem_singleton.mp hr]
    omega

theorem look_below {i : Nat} (h : i < buf.length) : (look buf i).Below buf.length := by
  intro r hr
  rw [List.mem_singleton.mp hr]
  exact h

theorem lookFrom_below {search : Bool} {n i : Nat} (h : n + i + 3 ≤ buf.length) :
    (lookFrom format buf search n i).Below buf.length := by
  induction n generalizing i with
  | zero => exact Reading.below_pure none
  | succ n ih =>
    have hlong : i + [0, 0, 0, (1 : Byte)].length ≤ buf.length := by
      show i + 4 ≤ buf.length
      omega
    have hshort : i + [0, 0, (1 : Byte)].length ≤ buf.length := by
      show i + 3 ≤ buf.length
      omega
    have hheader : ∀ k, (if i + k ≥ buf.length then (return none : Reading (Option Found))
        else return some ⟨headerUnitType format (← look buf (i + k)), i, k⟩).Below buf.length := by
      intro k
      refine Reading.below_ite (fun _ => Reading.below_pure none) fun hk => ?_
      exact Reading.Below.bind (look_below (by omega)) (Reading.below_pure _)
    unfold lookFrom
    refine (lookFor_below hlong).bind (Reading.below_ite (fun _ => hheader 4) fun _ => ?_)
    refine (lookFor_below hshort).bind (Reading.below_ite (fun _ => hheader 3) fun _ => ?_)
    exact Reading.below_ite (fun _ => Reading.below_pure none) fun _ => ih (by omega)

theorem lookNalUnit_below (start : Nat) (search : Bool) : (lookNalUnit format buf start search).Below buf.length := by
  unfold lookNalUnit
  refine Reading.below_ite (fun _ => Reading.below_pure none) fun _ => ?_
  exact Reading.below_ite (fun _ => Reading.below_pure none) fun _ => lookFrom_below (by omega)

theorem lookCount_below : (lookCount format buf).Below buf.length := by
  have hloop : ∀ n cur, (lookCountLoop format buf n cur).Below buf.length := by
    intro n
    induction n with
    | zero => exact fun _ => Reading.below_pure 0
    | succ n ih =>
      rintro (_ | cur)
      · exact Reading.below_pure 0
      · unfold lookCountLoop
        exact (lookNalUnit_below _ true).bind ((ih _).bind (Reading.below_pure _))
  exact (lookNalUnit_below 0 true).bind (hloop _ _)

theorem lookParse_below (max : Nat) : (lookParse format buf max).Below buf.length := by
  have hloop : ∀ room cur, (lookParseLoop format buf room cur).Below buf.length := by
    intro room
    induction room with
    | zero => exact fun _ => Reading.below_pure []
    | succ room ih =>
      rintro (_ | cur)
      · exact Reading.below_pure []
      · unfold lookParseLoop
        exact (lookNalUnit_below _ true).bind ((ih _).bind (Reading.below_pure _))
  exact (lookNalUnit_below 0 true).bind (hloop _ _)

end Reads

/-! ## Turns -/

/-- One turn of the loop of `count_nal_units`. -/
def nextFound (format : FrameFormat) (buf : List Byte) (cur : Option Found) : Option Found :=
  cur.bind fun f => findNalUnit format buf (f.offset + f.scLen) true

/-- The loop from `cur` on ends behind `k` turns. -/
def Ends (format : FrameFormat) (buf : List Byte) (k : Nat) (cur : Option Found) : Prop :=
  (nextFound format buf)^[k] cur = none ∧ ∀ j < k, ((nextFound format buf)^[j] cur).isSome = true

section Turns
variable {c : Codec} {buf : List Byte}

theorem ends_succ {format : FrameFormat} {k : Nat} {f : Found}
    (h : Ends format buf k (findNalUnit format buf (f.offset + f.scLen) true)) : Ends format buf (k + 1) (some f) := by
  obtain ⟨hnone, hsome⟩ := h
  refine ⟨hnone, fun j hj => ?_⟩
  cases j with
  | zero => rfl
  | succ j => exact hsome j (by omega)

/-- Where a find is in the buffer and as many turns are left as there are bytes behind it, the loop ends. -/
theorem countLoop_ends (n : Nat) (cur : Option Found)
    (hcur : ∀ f ∈ cur, f.InBuffer c buf ∧ buf.length ≤ n + f.offset) :
    countLoop c.format buf n cur ≤ n ∧ Ends c.format buf (countLoop c.format buf n cur) cur := by
  induction n generalizing cur with
  | zero =>
    cases cur with
    | none => exact ⟨le_refl _, rfl, fun j hj => absurd hj (Nat.not_lt_zero j)⟩
    | some f =>
      obtain ⟨hin, hlen⟩ := hcur f rfl
      have hheader := hin.header
      omega
  | succ n ih =>
    cases cur with
    | none => exact ⟨Nat.zero_le _, rfl, fun j hj => absurd hj (Nat.not_lt_zero j)⟩
    | some f =>
      obtain ⟨hin, hlen⟩ := hcur f rfl
      have hcode := hin.scLen
      obtain ⟨hle, hends⟩ := ih (findNalUnit c.format buf (f.offset + f.scLen) true) (fun f' hf' => by
        obtain ⟨hin', hstart⟩ := findNalUnit_inBuffer hf'
        exact ⟨hin', by omega⟩)
      exact ⟨Nat.succ_le_succ hle, ends_succ hends⟩

theorem first_inBuffer : ∀ f ∈ findNalUnit c.format buf 0 true, f.InBuffer c buf ∧ buf.length ≤ buf.length + f.offset :=
  fun _ hf => ⟨(findNalUnit_inBuffer hf).1, Nat.le_add_right _ _⟩

end Turns

/-! ## Tiles -/

/-- A start code begins the unit, and a header byte that gives its type follows it in the buffer. -/
structure NalUnit.CodedIn (c : Codec) (buf : List Byte) (u : NalUnit) : Prop where
  code : ∃ sc : StartCode, sc.bytes <+: u.data ∧
    ∃ hdr, buf[u.ptr + sc.length]? = some hdr ∧ u.type = headerUnitType c.format hdr

/-- The units lie next to each other from `off` on, up to the end of the buffer. -/
def Tiles (c : Codec) (buf : List Byte) : Nat → List NalUnit → Prop
  | off, [] => off = buf.length
  | off, u :: us => u.ptr = off ∧ u.data = (buf.drop off).take u.len ∧ u.CodedIn c buf ∧
      Tiles c buf (off + u.len) us

section Tiles
variable {c : Codec} {buf : List Byte}

/-- The bytes from `off` on are those of the units. -/
theorem Tiles.flatMap {units : List NalUnit} {off : Nat} (h : Tiles c buf off units) :
    units.flatMap (·.data) = buf.drop off := by
  induction units generalizing off with
  | nil =>
    obtain rfl : off = buf.length := h
    rw [List.drop_length]
    rfl
  | cons u us ih =>
    obtain ⟨-, hdata, -, hrest⟩ := h
    calc (u :: us).flatMap (·.data) = (buf.drop off).take u.len ++ (buf.drop off).drop u.len := by
          rw [List.flatMap_cons, ih hrest, ← hdata, List.drop_drop]
      _ = buf.drop off := List.take_append_drop _ _

/-- With less room the loop stores the first units of those that it stores with more. -/
theorem parseLoop_take (format : FrameFormat) (room more : Nat) (cur : Option Found) (h : room ≤ more) :
    parseLoop format buf room cur = (parseLoop format buf more cur).take room := by
  induction room generalizing more cur with
  | zero => rfl
  | succ room ih =>
    obtain ⟨more, rfl⟩ : ∃ m, more = m + 1 := ⟨more - 1, by omega⟩
    cases cur with
    | none => rfl
    | some f =>
      unfold parseLoop
      simp only [List.take_succ_cons]
      rw [← ih more _ (by omega)]

/-- Where a unit is found a start code and a header byte are. -/
def Found.Coded (c : Codec) (buf : List Byte) (f : Found) : Prop :=
  ∃ (sc : StartCode) (hdr : Byte) (rest : List Byte), f.scLen = sc.length ∧
    buf.drop f.offset = sc.bytes ++ hdr :: rest ∧ f.type = headerUnitType c.format hdr

theorem getElem?_behind_code {off : Nat} {sc : StartCode} {hdr : Byte} {rest : List Byte}
    (h : buf.drop off = sc.bytes ++ hdr :: rest) : buf[off + sc.length]? = some hdr := by
  rw [← List.getElem?_drop, h]
  unfold StartCode.length
  rw [List.getElem?_append_right (le_refl _), Nat.sub_self]
  rfl

theorem findNalUnit_coded {start : Nat} {f : Found} (h : findNalUnit c.format buf start true = some f) :
    f.Coded c buf := by
  rw [findNalUnit_eq] at h
  obtain ⟨⟨k, sc⟩, hk, rfl⟩ := Option.map_eq_some_iff.mp h
  obtain ⟨l, hdr, rest, hs, rfl⟩ := exists_of_nextCode hk
  have hdrop : buf.drop (start + l.length) = sc.bytes ++ hdr :: rest := by
    rw [← List.drop_drop, hs, List.drop_left]
  refine ⟨sc, hdr, rest, rfl, hdrop, ?_⟩
  simp only [List.getD_eq_getElem?_getD, getElem?_behind_code hdrop, Option.getD_some]

/-- A unit from a find up to behind its start code. -/
theorem Found.Coded.codedIn {f : Found} (h : f.Coded c buf) {stop : Nat} (hstop : f.offset + f.scLen ≤ stop) :
    NalUnit.CodedIn c buf ⟨f.type, f.offset, (buf.drop f.offset).take (stop - f.offset)⟩ := by
  obtain ⟨sc, hdr, rest, hlen, hdrop, htype⟩ := h
  have hlen' : f.scLen = sc.bytes.length := hlen
  refine ⟨sc, ?_, hdr, getElem?_behind_code hdrop, htype⟩
  apply List.prefix_take_iff.mpr
  refine ⟨?_, by omega⟩
  rw [hdrop]
  exact List.prefix_append _ _

theorem tiles_cons {f : Found} {stop : Nat} {us : List NalUnit} (hf : f.Coded c buf)
    (hstop : f.offset + f.scLen ≤ stop) (hend : stop ≤ buf.length) (hus : Tiles c buf stop us) :
    Tiles c buf f.offset (⟨f.type, f.offset, (buf.drop f.offset).take (stop - f.offset)⟩ :: us) := by
  have hlen : ((buf.drop f.offset).take (stop - f.offset)).length = stop - f.offset := by
    rw [List.length_take, List.length_drop]
    omega
  refine ⟨rfl, ?_, hf.codedIn hstop, ?_⟩
  · unfold NalUnit.len
    rw [hlen]
  · unfold NalUnit.len
    rw [hlen, Nat.add_sub_cancel' (by omega)]
    exact hus

/-- The units from a find on, with room for all of them. -/
theorem parseLoop_tiles (n room : Nat) (f : Found) (hf : f.Coded c buf) (hin : f.InBuffer c buf)
    (hn : buf.length ≤ n + f.offset) (hroom : countLoop c.format buf n (some f) ≤ room) :
    Tiles c buf f.offset (parseLoop c.format buf room (some f)) := by
  have hheader := hin.header
  have hcode := hin.scLen
  induction n generalizing room f with
  | zero => omega
  | succ n ih =>
    unfold countLoop at hroom
    obtain ⟨room, rfl⟩ : ∃ m, room = m + 1 := ⟨room - 1, by omega⟩
    unfold parseLoop
    cases hnext : findNalUnit c.format buf (f.offset + f.scLen) true with
    | none =>
      have hrest : parseLoop c.format buf room none = [] := by cases room <;> rfl
      simp only [hrest]
      exact tiles_cons hf (by omega) (le_refl _) rfl
    | some f' =>
      obtain ⟨hin', hstart⟩ := findNalUnit_inBuffer hnext
      have hheader' := hin'.header
      rw [hnext] at hroom
      simp only []
      exact tiles_cons hf hstart (by omega) (ih room f' (findNalUnit_coded hnext) hin' (by omega) (by omega) hheader'
        hin'.scLen)

theorem parseLoop_length (n room : Nat) (cur : Option Found)
    (hcur : ∀ f ∈ cur, f.InBuffer c buf ∧ buf.length ≤ n + f.offset) :
    (parseLoop c.format buf room cur).length = min room (countLoop c.format buf n cur) := by
  induction n generalizing cur room with
  | zero =>
    cases cur with
    | none => cases room <;> rfl
    | some f =>
      obtain ⟨hin, hlen⟩ := hcur f rfl
      have hheader := hin.header
      omega
  | succ n ih =>
    cases cur with
    | none => cases room <;> rfl
    | some f =>
      obtain ⟨hin, hlen⟩ := hcur f rfl
      have hcode := hin.scLen
      cases room with
      | zero => exact (Nat.zero_min _).symm
      | succ room =>
        unfold parseLoop countLoop
        simp only [List.length_cons]
        rw [ih room _ (fun f' hf' => by
          obtain ⟨hin', hstart⟩ := findNalUnit_inBuffer hf'
          exact ⟨hin', by omega⟩)]
        omega

end Tiles

/-- No start code comes before the first one that is found. -/
theorem nextCode_first {s : List Byte} {k : Nat} {sc : StartCode} (h : nextCode s = some (k, sc)) :
    ∀ j < k, ¬ [0, 0, 1] <+: s.drop j := by
  induction s generalizing k with
  | nil => cases h
  | cons b s ih =>
    intro j hj hcode
    obtain ⟨l, hdr, rest, hs, hlen⟩ := exists_of_nextCode h
    have hlength := congrArg List.length hs
    have hpos := sc.length_pos
    unfold StartCode.length at hpos
    simp only [List.length_append, List.length_cons] at hlength
    unfold nextCode at h
    split_ifs at h with hlong hheader hshort
    · obtain ⟨rfl, -⟩ := Prod.mk.inj (Option.some.inj h)
      exact absurd hj (Nat.not_lt_zero j)
    · obtain ⟨rfl, -⟩ := Prod.mk.inj (Option.some.inj h)
      exact absurd hj (Nat.not_lt_zero j)
    · obtain ⟨p, hp, hk⟩ := Option.map_eq_some_iff.mp h
      obtain ⟨rfl, rfl⟩ := Prod.mk.inj hk
      cases j with
      | zero => exact hshort ⟨hcode, by simp only [List.length_cons]; omega⟩
      | succ j => exact ih hp j (by omega) hcode

/-- The units of a buffer: the first begins at the first start code. -/
def TilesFromFirst (c : Codec) (buf : List Byte) (units : List NalUnit) : Prop :=
  match nextCode buf with
  | none => units = []
  | some (k, _) => units ≠ [] ∧ (∀ j < k, ¬ [0, 0, 1] <+: buf.drop j) ∧ Tiles c buf k units ∧
      units.flatMap (·.data) = buf.drop k

theorem tilesFromFirst {c : Codec} {buf : List Byte} {max : Nat} (hmax : countNalUnits c.format buf ≤ max) :
    TilesFromFirst c buf (parseNalUnits c.format max buf) := by
  have hfirst := findNalUnit_eq c buf 0
  rw [List.drop_zero] at hfirst
  unfold TilesFromFirst
  cases hnext : nextCode buf with
  | none =>
    rw [hnext] at hfirst
    unfold parseNalUnits
    rw [hfirst]
    cases max <;> rfl
  | some p =>
    rw [hnext] at hfirst
    obtain ⟨f, hf, hoffset⟩ : ∃ f, findNalUnit c.format buf 0 true = some f ∧ f.offset = p.1 :=
      ⟨_, hfirst, Nat.zero_add _⟩
    have hcount : countLoop c.format buf buf.length (some f) ≤ max := by
      rw [← hf]
      exact hmax
    have htiles := parseLoop_tiles buf.length max f (findNalUnit_coded hf) (findNalUnit_inBuffer hf).1
      (Nat.le_add_right _ _) hcount
    rw [hoffset] at htiles
    unfold parseNalUnits
    rw [hf]
    refine ⟨?_, nextCode_first hnext, htiles, htiles.flatMap⟩
    intro hnil
    rw [hnil] at htiles
    have hend : p.1 = buf.length := htiles
    have hheader := (findNalUnit_inBuffer hf).1.header
    omega

/-- **The parser on any bytes.** It looks at bytes of the buffer only, and its loops end, behind as many turns as
are counted. With room for that many units they tile the buffer from the first start code on; with less room the
first of them are stored as they are. -/
theorem parser_tiles (c : Codec) (buf : List Byte) :
    ((∀ start search, (lookNalUnit c.format buf start search).value = findNalUnit c.format buf start search ∧
        ∀ r ∈ findReads c.format buf start search, r < buf.length) ∧
      ((lookCount c.format buf).value = countNalUnits c.format buf ∧ ∀ r ∈ countReads c.format buf, r < buf.length) ∧
      ∀ max, (lookParse c.format buf max).value = parseNalUnits c.format max buf ∧
        ∀ r ∈ parseReads c.format buf max, r < buf.length) ∧
    (countNalUnits c.format buf ≤ buf.length ∧
      Ends c.format buf (countNalUnits c.format buf) (findNalUnit c.format buf 0 true)) ∧
    (∀ max, countNalUnits c.format buf ≤ max →
      (parseNalUnits c.format max buf).length = countNalUnits c.format buf ∧
        TilesFromFirst c buf (parseNalUnits c.format max buf)) ∧
    ∀ max ≤ countNalUnits c.format buf, (parseNalUnits c.format max buf).length = max ∧
      parseNalUnits c.format max buf = (parseNalUnits c.format (countNalUnits c.format buf) buf).take max := by
  have hlength := fun max => parseLoop_length buf.length max (findNalUnit c.format buf 0 true) first_inBuffer
  refine ⟨⟨?_, ?_, ?_⟩, ?_, ?_, ?_⟩
  · exact fun start search => ⟨lookNalUnit_value start search, lookNalUnit_below start search⟩
  · exact ⟨lookCount_value, lookCount_below⟩
  · exact fun max => ⟨lookParse_value max, lookParse_below max⟩
  · exact countLoop_ends buf.length _ first_inBuffer
  · intro max hmax
    exact ⟨(hlength max).trans (Nat.min_eq_right hmax), tilesFromFirst hmax⟩
  · intro max hmax
    exact ⟨(hlength max).trans (Nat.min_eq_left hmax), parseLoop_take c.format max _ _ hmax⟩

end LibuvcH264Src
