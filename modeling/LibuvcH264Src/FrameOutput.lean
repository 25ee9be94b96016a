import Mathlib.Data.List.ReduceOption
import LibuvcH264Src.FramePipeline

/-!
# One access unit in closed form

* `latchSets self updated au` : the cache after the sets of `au`; `hasIdr`, `hasSlice`, `forwarded` :
  what the first pass measures (`foldl_measureUnit`);
* `assemble sets au` : the forwarded bytes with `sets` in front of the first IDR slice;
* `Fill.Written f w n` : the first cells hold `w` and `n` cells are left, the invariant of the second
  pass (`foldl_fillUnit`);
* `deliverAu_dropped`, `deliverAu_pushed` : one turn of the walk.
-/

namespace LibuvcH264Src
open AnnexB

/-! ## The first pass -/

def hasIdr (au : List NalUnit) : Bool := au.any fun u => u.type = .frameIdr

def hasSlice (au : List NalUnit) : Bool := au.any fun u => nalIsSlice u.type

/-- The bytes of the units that are not parameter sets. -/
def forwarded (au : List NalUnit) : List Byte :=
  (au.filter fun u => !nalIsParameterSet u.type).flatMap NalUnit.data

/-- The state and the `updated` flag after the parameter sets of `au`. -/
def latchSets (self : StreamState) (updated : Bool) (au : List NalUnit) : StreamState × Bool :=
  au.foldl (fun p u => if nalIsParameterSet u.type then cacheParameterSet p.1 u p.2 else p)
    (self, updated)

theorem not_parameterSet_of_slice {type : NalUnitType} (h : nalIsSlice type = true) :
    nalIsParameterSet type = false := by
  cases type <;> simp_all [nalIsSlice, nalIsParameterSet]

@[simp] theorem forwarded_nil : forwarded [] = [] := rfl

theorem forwarded_cons_set {u : NalUnit} (h : nalIsParameterSet u.type = true) (au : List NalUnit) :
    forwarded (u :: au) = forwarded au := by
  simp [forwarded, h]

theorem forwarded_cons {u : NalUnit} (h : nalIsParameterSet u.type = false) (au : List NalUnit) :
    forwarded (u :: au) = u.data ++ forwarded au := by
  simp [forwarded, h]

/-- The first pass latches the sets and measures the rest. -/
theorem foldl_measureUnit (au : List NalUnit) (m : Measure) :
    au.foldl measureUnit m =
      { self := (latchSets m.self m.updated au).1
        updated := (latchSets m.self m.updated au).2
        hasIdr := m.hasIdr || hasIdr au
        hasSlice := m.hasSlice || hasSlice au
        payloadLen := m.payloadLen + (forwarded au).length } := by
  induction au generalizing m with
  | nil => simp [latchSets, hasIdr, hasSlice]
  | cons u au ih =>
    rw [List.foldl_cons, ih]
    cases hp : nalIsParameterSet u.type with
    | true =>
      have hs : nalIsSlice u.type = false := by
        by_contra hs
        rw [not_parameterSet_of_slice (by simpa using hs)] at hp
        cases hp
      have hi : u.type ≠ .frameIdr := fun h => by simp [h, nalIsSlice] at hs
      simp [measureUnit, hp, latchSets, hasIdr, hasSlice, hs, hi, forwarded_cons_set hp]
    | false =>
      simp [measureUnit, hp, latchSets, hasIdr, hasSlice, forwarded_cons hp, NalUnit.len,
        Bool.or_assoc, Nat.add_assoc]

/-! ## The second pass -/

/-- The forwarded bytes of `au` with `sets` immediately before its first IDR slice. -/
def assemble (sets : List Byte) (au : List NalUnit) : List Byte :=
  forwarded (au.takeWhile fun u => u.type ≠ .frameIdr) ++ sets ++
    forwarded (au.dropWhile fun u => u.type ≠ .frameIdr)

theorem forwarded_append (au bu : List NalUnit) : forwarded (au ++ bu) = forwarded au ++ forwarded bu := by
  simp [forwarded]

theorem assemble_cons_idr (sets : List Byte) {u : NalUnit} (h : u.type = .frameIdr)
    (au : List NalUnit) : assemble sets (u :: au) = sets ++ (u.data ++ forwarded au) := by
  have hset : nalIsParameterSet u.type = false := by rw [h]; rfl
  simp [assemble, h, forwarded_cons hset]

theorem assemble_cons_set (sets : List Byte) {u : NalUnit} (h : nalIsParameterSet u.type = true)
    (au : List NalUnit) : assemble sets (u :: au) = assemble sets au := by
  have hi : u.type ≠ .frameIdr := fun hi => by rw [hi] at h; cases h
  simp [assemble, hi, forwarded_cons_set h]

theorem assemble_cons (sets : List Byte) {u : NalUnit} (h : nalIsParameterSet u.type = false)
    (hi : u.type ≠ .frameIdr) (au : List NalUnit) :
    assemble sets (u :: au) = u.data ++ assemble sets au := by
  simp [assemble, hi, forwarded_cons h]

theorem assemble_empty (au : List NalUnit) : assemble [] au = forwarded au := by
  rw [assemble, List.append_nil, ← forwarded_append, List.takeWhile_append_dropWhile]

theorem length_assemble (sets : List Byte) (au : List NalUnit) :
    (assemble sets au).length = sets.length + (forwarded au).length := by
  have h := congrArg List.length (assemble_empty au)
  simp only [assemble, List.append_nil, List.length_append] at h ⊢
  omega

/-- The cached sets in the order they are inserted. -/
def cachedSets (self : StreamState) : List Byte :=
  (if self.frameFormat = .h265 then self.vps.bytes else []) ++ self.sps.bytes ++ self.pps.bytes

/-- `prefix_len` of the second pass. -/
def cachedSetsLen (self : StreamState) : Nat :=
  self.sps.bytes.length + self.pps.bytes.length +
    if self.frameFormat = .h265 then self.vps.bytes.length else 0

theorem length_cachedSets (self : StreamState) : (cachedSets self).length = cachedSetsLen self := by
  unfold cachedSets cachedSetsLen
  split_ifs <;> simp only [List.length_append, List.nil_append] <;> omega

/-- The cells before the cursor hold `w`, and `n` unwritten cells are left. -/
structure Fill.Written (f : Fill) (w : List Byte) (n : Nat) : Prop where
  mem : f.mem = w.map some ++ List.replicate n none
  pos : f.pos = w.length

theorem Fill.Written.fill {f : Fill} {w : List Byte} {n : Nat} (src : List Byte)
    (h : f.Written w (src.length + n)) : (f.fill src).Written (w ++ src) n where
  mem := by
    have htake : (w.map some ++ List.replicate (src.length + n) (none : Option Byte)).take w.length =
        w.map some := List.take_left' (by simp)
    have hdrop : (w.map some ++ List.replicate (src.length + n) (none : Option Byte)).drop
        (w.length + src.length) = List.replicate n none := by
      rw [List.drop_append, List.drop_of_length_le (by simp)]
      simp
    rw [Fill.fill, h.mem, h.pos, gstBufferFill, htake, hdrop]
    simp
  pos := by simp [Fill.fill, h.pos]

theorem Fill.self_fill (f : Fill) (src : List Byte) : (f.fill src).self = f.self := rfl

theorem Fill.Written.fillSets {f : Fill} {w : List Byte} {n : Nat}
    (h : f.Written w (cachedSetsLen f.self + n)) :
    f.fillSets.Written (w ++ cachedSets f.self) n ∧ f.fillSets.prefixed = true ∧
      f.fillSets.self = { f.self with sendSpsPps := false } := by
  unfold Fill.fillSets cachedSets
  unfold cachedSetsLen at h
  split_ifs at h ⊢ with hf
  · have h1 : (f.fill f.self.vps.bytes).Written (w ++ f.self.vps.bytes)
        (f.self.sps.bytes.length + (f.self.pps.bytes.length + n)) :=
      Fill.Written.fill _ (by rw [show f.self.vps.bytes.length +
        (f.self.sps.bytes.length + (f.self.pps.bytes.length + n)) = f.self.sps.bytes.length +
        f.self.pps.bytes.length + f.self.vps.bytes.length + n by omega]; exact h)
    have h2 := (h1.fill f.self.sps.bytes).fill f.self.pps.bytes
    refine ⟨⟨?_, ?_⟩, rfl, rfl⟩
    · simpa [Fill.self_fill] using h2.mem
    · simpa [Fill.self_fill] using h2.pos
  · have h1 : (f.fill f.self.sps.bytes).Written (w ++ f.self.sps.bytes)
        (f.self.pps.bytes.length + n) :=
      Fill.Written.fill _ (by rw [← Nat.add_assoc]; exact h)
    have h2 := h1.fill f.self.pps.bytes
    refine ⟨⟨?_, ?_⟩, rfl, rfl⟩
    · simpa [Fill.self_fill] using h2.mem
    · simpa [Fill.self_fill] using h2.pos

/-- Once the sets are in, or none are due, the rest is copied. -/
theorem foldl_fillUnit_copy (prefixLen : Nat) (au : List NalUnit) :
    ∀ (f : Fill) (w : List Byte) (n : Nat), (f.prefixed = true ∨ prefixLen = 0) →
      f.Written w ((forwarded au).length + n) →
      (au.foldl (fillUnit prefixLen) f).Written (w ++ forwarded au) n ∧
        (au.foldl (fillUnit prefixLen) f).self = f.self := by
  induction au with
  | nil => intro f w n _ h; exact ⟨by simpa using h, rfl⟩
  | cons u au ih =>
    intro f w n hp h
    rw [List.foldl_cons]
    cases hset : nalIsParameterSet u.type with
    | true =>
      rw [forwarded_cons_set hset] at h ⊢
      rw [show fillUnit prefixLen f u = f by simp [fillUnit, hset]]
      exact ih f w n hp h
    | false =>
      have hfill : fillUnit prefixLen f u = f.fill u.data := by
        have hcond : ¬ (!f.prefixed ∧ prefixLen > 0 ∧ u.type = .frameIdr) := by
          rcases hp with hp | hp <;> simp [hp]
        rw [fillUnit, if_neg (by simp [hset])]
        simp only [if_neg hcond]
      rw [forwarded_cons hset, List.length_append, Nat.add_assoc] at h
      rw [hfill, forwarded_cons hset, ← List.append_assoc]
      exact ih (f.fill u.data) (w ++ u.data) n hp (h.fill _)

/-- With the sets due, they go in front of the first IDR slice. -/
theorem foldl_fillUnit_sets (au : List NalUnit) :
    ∀ (f : Fill) (w : List Byte) (n : Nat), f.prefixed = false → 0 < cachedSetsLen f.self →
      hasIdr au = true → f.Written w ((assemble (cachedSets f.self) au).length + n) →
      (au.foldl (fillUnit (cachedSetsLen f.self)) f).Written (w ++ assemble (cachedSets f.self) au) n ∧
        (au.foldl (fillUnit (cachedSetsLen f.self)) f).self = { f.self with sendSpsPps := false } := by
  induction au with
  | nil => intro f w n _ _ hidr; simp [hasIdr] at hidr
  | cons u au ih =>
    intro f w n hf hpos hidr h
    rw [List.foldl_cons]
    by_cases hi : u.type = .frameIdr
    · have hset : nalIsParameterSet u.type = false := by rw [hi]; rfl
      have hfill : fillUnit (cachedSetsLen f.self) f u = f.fillSets.fill u.data := by
        rw [fillUnit, if_neg (by simp [hset])]
        simp only [if_pos (show !f.prefixed ∧ cachedSetsLen f.self > 0 ∧ u.type = .frameIdr from
          ⟨by simp [hf], hpos, hi⟩)]
      rw [assemble_cons_idr _ hi, List.length_append, length_cachedSets, Nat.add_assoc] at h
      obtain ⟨hw, hpre, hself⟩ := h.fillSets
      rw [List.length_append, Nat.add_assoc] at hw
      obtain ⟨h1, h2⟩ := foldl_fillUnit_copy (cachedSetsLen f.self) au (f.fillSets.fill u.data) _ n
        (Or.inl hpre) (hw.fill _)
      rw [hfill, assemble_cons_idr _ hi, ← List.append_assoc, ← List.append_assoc]
      exact ⟨h1, by rw [h2, Fill.self_fill, hself]⟩
    · have hidr' : hasIdr au = true := by simpa [hasIdr, hi] using hidr
      cases hset : nalIsParameterSet u.type with
      | true =>
        rw [assemble_cons_set _ hset] at h ⊢
        rw [show fillUnit (cachedSetsLen f.self) f u = f by simp [fillUnit, hset]]
        exact ih f w n hf hpos hidr' h
      | false =>
        have hfill : fillUnit (cachedSetsLen f.self) f u = f.fill u.data := by
          simp [fillUnit, hset, hi]
        rw [assemble_cons _ hset hi, List.length_append, Nat.add_assoc] at h
        rw [hfill, assemble_cons _ hset hi, ← List.append_assoc]
        exact ih (f.fill u.data) (w ++ u.data) n hf hpos hidr' (h.fill _)

/-! ## One turn of the walk -/

/-- Whether the cached sets are inserted, in the state after the first pass. -/
def insertsSets (self : StreamState) (au : List NalUnit) : Bool :=
  hasIdr au && (!self.hadIdr || self.sendSpsPps)

/-- The sets that go in front of the first IDR slice. -/
def insertedSets (self : StreamState) (au : List NalUnit) : List Byte :=
  if insertsSets self au then cachedSets self else []

/-- The state after the second pass. -/
def afterFill (self : StreamState) (au : List NalUnit) : StreamState :=
  { self with
    hadIdr := self.hadIdr || hasIdr au
    sendSpsPps := self.sendSpsPps && !(insertsSets self au && 0 < cachedSetsLen self) }

/-- Whether the access unit is dropped. -/
def dropsAu (self : StreamState) (au : List NalUnit) : Bool :=
  (!self.hadIdr && !hasIdr au) || forwarded au = []

/-- The second pass fills the buffer exactly. -/
theorem foldl_fillUnit (self : StreamState) (au : List NalUnit) :
    let f := au.foldl (fillUnit (insertedSets self au).length)
      ⟨self, List.replicate ((insertedSets self au).length + (forwarded au).length) none, 0, false⟩
    f.mem = (assemble (insertedSets self au) au).map some ∧
      (if hasIdr au then { f.self with hadIdr := true } else f.self) = afterFill self au := by
  have hself : (if hasIdr au then { self with hadIdr := true } else self) =
      { self with hadIdr := self.hadIdr || hasIdr au } := by
    cases hasIdr au <;> simp
  by_cases hlen : (insertedSets self au).length = 0
  · have hnil : insertedSets self au = [] := List.length_eq_zero_iff.mp hlen
    have hstart : (⟨self, List.replicate (forwarded au).length none, 0, false⟩ : Fill).Written []
        ((forwarded au).length + 0) := ⟨by simp, rfl⟩
    obtain ⟨hw, hs⟩ := foldl_fillUnit_copy 0 au _ [] 0 (Or.inr rfl) hstart
    have hkeep : (insertsSets self au && decide (0 < cachedSetsLen self)) = false := by
      rw [← length_cachedSets]
      cases hi : insertsSets self au with
      | false => rfl
      | true => simp only [insertedSets, hi, if_true] at hnil; simp [hnil]
    simp only [hnil, List.length_nil, Nat.zero_add, assemble_empty]
    refine ⟨by simpa using hw.mem, ?_⟩
    rw [hs, hself, afterFill, hkeep]
    simp
  · have hi : insertsSets self au = true := by
      by_contra hi
      exact hlen (by simp [insertedSets, hi])
    have hidr : hasIdr au = true := (Bool.and_eq_true_iff.mp hi).1
    have hsets : insertedSets self au = cachedSets self := by simp [insertedSets, hi]
    rw [hsets, length_cachedSets] at hlen ⊢
    have hstart : (⟨self, List.replicate (cachedSetsLen self + (forwarded au).length) none, 0,
        false⟩ : Fill).Written [] ((assemble (cachedSets self) au).length + 0) :=
      ⟨by simp [length_assemble, length_cachedSets], rfl⟩
    obtain ⟨hw, hs⟩ := foldl_fillUnit_sets au _ [] 0 rfl (Nat.pos_of_ne_zero hlen) hidr hstart
    refine ⟨by simpa using hw.mem, ?_⟩
    simp only [hidr, if_true] at hs ⊢
    rw [hs, afterFill, hi, hidr]
    simp [Nat.pos_of_ne_zero hlen]

theorem deliverAu_eq (ts : UInt64) (w : Walk) (au : List NalUnit) :
    deliverAu ts w au =
      let r := latchSets w.self w.updated au
      if dropsAu r.1 au then { w with self := r.1, updated := r.2 }
      else
        let p := pushAu (afterFill r.1 au) ts (hasSlice au)
          ((assemble (insertedSets r.1 au) au).map some)
        ⟨p.1, r.2, w.pushed ++ [p.2]⟩ := by
  simp only [deliverAu, foldl_measureUnit, Bool.false_or, Nat.zero_add]
  generalize latchSets w.self w.updated au = r
  have hlen : (if hasIdr au ∧ (!r.1.hadIdr ∨ r.1.sendSpsPps) then
      r.1.sps.bytes.length + r.1.pps.bytes.length +
        if r.1.frameFormat = .h265 then r.1.vps.bytes.length else 0 else 0) =
      (insertedSets r.1 au).length := by
    rw [insertedSets, apply_ite List.length, length_cachedSets, cachedSetsLen, insertsSets]
    simp
  have hdrop : ((!r.1.hadIdr ∧ !hasIdr au) ∨ (forwarded au).length = 0) ↔
      dropsAu r.1 au = true := by
    simp [dropsAu]
  obtain ⟨hmem, hself⟩ := foldl_fillUnit r.1 au
  by_cases hd : dropsAu r.1 au = true
  · rw [if_pos (hdrop.mpr hd), if_pos hd]
  · rw [if_neg (fun h => hd (hdrop.mp h)), if_neg hd, hlen, hmem, hself]

/-! ## The walk as a run over access units -/

theorem cacheParameterSet_fst (self : StreamState) (u : NalUnit) (updated updated' : Bool) :
    (cacheParameterSet self u updated).1 = (cacheParameterSet self u updated').1 := by
  unfold cacheParameterSet latchSet
  split <;> first | rfl | (split_ifs <;> rfl)

/-- What was updated before says nothing about what is latched now. -/
theorem latchSets_fst (au : List NalUnit) :
    ∀ (self : StreamState) (updated updated' : Bool),
      (latchSets self updated au).1 = (latchSets self updated' au).1 := by
  induction au with
  | nil => intro self updated updated'; rfl
  | cons u au ih =>
    intro self updated updated'
    rw [latchSets, List.foldl_cons, latchSets, List.foldl_cons]
    by_cases hp : nalIsParameterSet u.type = true
    · rw [if_pos hp, if_pos hp, ← Prod.mk.eta (p := cacheParameterSet self u updated),
        ← Prod.mk.eta (p := cacheParameterSet self u updated'),
        cacheParameterSet_fst self u updated updated']
      exact ih _ _ _
    · rw [if_neg hp, if_neg hp]
      exact ih _ _ _

/-- One turn: the state behind it and the buffer, if the access unit is forwarded. -/
def auStep (ts : UInt64) (self : StreamState) (au : List NalUnit) :
    StreamState × Option GstBuffer :=
  let s := (latchSets self false au).1
  if dropsAu s au then (s, none)
  else
    let p := pushAu (afterFill s au) ts (hasSlice au) ((assemble (insertedSets s au) au).map some)
    (p.1, some p.2)

def auRun (ts : UInt64) : StreamState → List (List NalUnit) → List (Option GstBuffer)
  | _, [] => []
  | self, au :: aus => (auStep ts self au).2 :: auRun ts (auStep ts self au).1 aus

theorem deliverAu_step (ts : UInt64) (w : Walk) (au : List NalUnit) :
    (deliverAu ts w au).self = (auStep ts w.self au).1 ∧
      (deliverAu ts w au).pushed = w.pushed ++ (auStep ts w.self au).2.toList := by
  rw [deliverAu_eq, auStep, latchSets_fst au w.self false w.updated]
  by_cases hd : dropsAu (latchSets w.self w.updated au).1 au = true
  · simp [hd]
  · simp [hd]

theorem foldl_deliverAu (ts : UInt64) (aus : List (List NalUnit)) :
    ∀ w : Walk, (aus.foldl (deliverAu ts) w).pushed =
      w.pushed ++ (auRun ts w.self aus).reduceOption := by
  induction aus with
  | nil => intro w; simp [auRun, List.reduceOption]
  | cons au aus ih =>
    intro w
    obtain ⟨hself, hpushed⟩ := deliverAu_step ts w au
    rw [List.foldl_cons, ih, hself, hpushed, auRun, List.append_assoc]
    cases (auStep ts w.self au).2 <;> rfl

@[simp] theorem length_auRun (ts : UInt64) (aus : List (List NalUnit)) :
    ∀ self, (auRun ts self aus).length = aus.length := by
  induction aus with
  | nil => intro self; rfl
  | cons au aus ih => intro self; rw [auRun, List.length_cons, ih, List.length_cons]

/-- The running time of an arrival, over the base time that the callback takes. -/
def runningTime (self : StreamState) (arrival : Arrival) : UInt64 :=
  arrival.now -
    if self.baseTime = clockTimeNone then arrival.elementBaseTime else self.baseTime

/-- A delivery that is not rejected, with a clock set. -/
theorem frameCallback_pushed {self : StreamState} (hclock : self.clock = true) (arrival : Arrival)
    {data : List Byte} (h0 : data ≠ []) (hmax : data.length ≤ gMaxInt) :
    (frameCallback self arrival (some data)).pushed =
      (auRun (runningTime self arrival)
        (latchBaseTime self self.baseTime arrival.elementBaseTime).1
        (deliveryAccessUnits self.frameFormat data)).reduceOption := by
  have haccept : acceptsFrame (some data) = some data := by
    rw [acceptsFrame, if_neg]
    rintro (h | h)
    · exact h0 (List.length_eq_zero_iff.mp h)
    · omega
  have hts : arrival.now - (latchBaseTime self self.baseTime arrival.elementBaseTime).2 =
      runningTime self arrival := by
    unfold latchBaseTime runningTime
    split_ifs <;> rfl
  simp only [frameCallback, haccept, snapshotClock, hclock, if_true]
  rw [foldl_deliverAu, hts, List.nil_append]

end LibuvcH264Src
