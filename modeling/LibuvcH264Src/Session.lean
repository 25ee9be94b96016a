import LibuvcH264Src.FrameOutput

/-!
# The output of a session

* `SessionEvent`, `runSession` : the deliveries of one session among the resets of the time base;
* `sessionAus` : the access units that the session finds, in order;
* `lastAccepted type initial units` : the last accepted set of a kind;
* `SessionInv s0 seen self` : the gate, the flag and the cache after the access units `seen`
  (`SessionInv.deliverAu` is the step);
* `session_output` : every buffer of a session, byte for byte.
-/

namespace LibuvcH264Src
open AnnexB

/-! ## Sessions -/

/-- What reaches the feeder's state between the start of a stream and its end. -/
inductive SessionEvent where
  | delivery (arrival : Arrival) (frame : Option (List Byte))
  | setClock (clock : Bool)
  | changeState (transition : StateChange)

def sessionStep (self : StreamState) : SessionEvent → StreamState × List GstBuffer
  | .delivery arrival frame =>
    let o := frameCallback self arrival frame
    (o.self, o.pushed)
  | .setClock clock => (setClock self clock, [])
  | .changeState transition => (changeState self transition, [])

def runSession (self : StreamState) : List SessionEvent → StreamState × List GstBuffer
  | [] => (self, [])
  | e :: events =>
    let r := sessionStep self e
    let rest := runSession r.1 events
    (rest.1, r.2 ++ rest.2)

/-- The access units that one event brings. -/
def eventAus (self : StreamState) : SessionEvent → List (List NalUnit)
  | .delivery _ frame =>
    match acceptsFrame frame with
    | some data => if self.clock then deliveryAccessUnits self.frameFormat data else []
    | none => []
  | .setClock _ => []
  | .changeState _ => []

/-- The access units found in a session. -/
def sessionAus (self : StreamState) : List SessionEvent → List (List NalUnit)
  | [] => []
  | e :: events => eventAus self e ++ sessionAus (sessionStep self e).1 events

/-- A stream of codec `c` that was just (re)opened, whatever the instance held before. -/
def openSession (c : Codec) (self : StreamState) : StreamState :=
  { rearmStream self with frameFormat := c.format }

/-! ## What the output should be -/

/-- The sets that `cache_parameter_set` does not refuse. -/
def acceptsUnit (u : NalUnit) : Bool :=
  nalIsParameterSet u.type && (u.len ≠ 0 && u.len ≤ spsppsBufSz)

def acceptsSet (au : List NalUnit) : Bool := au.any acceptsUnit

/-- The last accepted set of a kind, or what was cached before. -/
def lastAccepted (type : NalUnitType) (initial : List Byte) (units : List NalUnit) : List Byte :=
  ((units.filter fun u => u.type = type ∧ acceptsUnit u).getLast?.map NalUnit.data).getD initial

/-- The sets to insert after the units `units`, for a cache that held those of `self`. -/
def expectedSets (self : StreamState) (units : List NalUnit) : List Byte :=
  (if self.frameFormat = .h265 then lastAccepted .vps self.vps.bytes units else []) ++
    lastAccepted .sps self.sps.bytes units ++ lastAccepted .pps self.pps.bytes units

/-- Access unit `j` comes before the first IDR slice, or holds nothing but parameter sets. -/
def dropped (aus : List (List NalUnit)) (j : Nat) : Bool :=
  !(aus.take (j + 1)).any hasIdr || (aus.getD j []).all fun u => nalIsParameterSet u.type

/-- Access unit `j` has an IDR slice and is the first such, or a set was accepted since the last
insertion. -/
def InsertionDue (aus : List (List NalUnit)) (inserted : Nat → Bool) (j : Nat) : Prop :=
  hasIdr (aus.getD j []) = true ∧
    ((∀ i < j, hasIdr (aus.getD i []) = false) ∨
      ∃ i ≤ j, acceptsSet (aus.getD i []) = true ∧ ∀ k, i ≤ k → k < j → inserted k = false)

/-- The buffer of access unit `j`, if it is forwarded. -/
def expectedBuffer (self : StreamState) (aus : List (List NalUnit)) (inserted : Nat → Bool)
    (j : Nat) : Option (List Byte) :=
  if dropped aus j then none
  else some (assemble (if inserted j then expectedSets self (aus.take (j + 1)).flatten else [])
    (aus.getD j []))

/-! ## The cache after a list of units -/

theorem lastAccepted_append (type : NalUnitType) (initial : List Byte) (us vs : List NalUnit) :
    lastAccepted type initial (us ++ vs) = lastAccepted type (lastAccepted type initial us) vs := by
  unfold lastAccepted
  rw [List.filter_append, List.getLast?_append]
  cases (vs.filter fun u => u.type = type ∧ acceptsUnit u).getLast? <;> simp

theorem lastAccepted_of_not_accepts {u : NalUnit} (h : acceptsUnit u = false) (type : NalUnitType)
    (initial : List Byte) : lastAccepted type initial [u] = initial := by
  simp [lastAccepted, h]

theorem lastAccepted_of_accepts {u : NalUnit} (h : acceptsUnit u = true) (type : NalUnitType)
    (initial : List Byte) :
    lastAccepted type initial [u] = if u.type = type then u.data else initial := by
  by_cases ht : u.type = type <;> simp [lastAccepted, h, ht]

/-- A slot holds the last accepted unit of its kind, or what it held. -/
theorem lastAccepted_cases (kind : NalUnitType) (initial : List Byte) (units : List NalUnit) :
    (lastAccepted kind initial units = initial ∧ ∀ u ∈ units, ¬ (u.type = kind ∧ acceptsUnit u = true)) ∨
      ∃ u ∈ units, u.type = kind ∧ acceptsUnit u = true ∧ u.data = lastAccepted kind initial units := by
  unfold lastAccepted
  cases hlast : (units.filter fun u => u.type = kind ∧ acceptsUnit u).getLast? with
  | none =>
    refine Or.inl ⟨rfl, fun u hu haccepted => ?_⟩
    rw [List.getLast?_eq_none_iff, List.filter_eq_nil_iff] at hlast
    exact hlast u hu (decide_eq_true haccepted)
  | some u =>
    obtain ⟨hu, haccepted⟩ := List.mem_filter.mp (List.mem_of_getLast? hlast)
    have haccepted := of_decide_eq_true haccepted
    exact Or.inr ⟨u, hu, haccepted.1, haccepted.2, rfl⟩

/-- `s'` is `s` after the accepted sets among `units`; nothing else differs. -/
structure Latched (s : StreamState) (units : List NalUnit) (s' : StreamState) : Prop where
  vps : s'.vps.bytes = lastAccepted .vps s.vps.bytes units
  sps : s'.sps.bytes = lastAccepted .sps s.sps.bytes units
  pps : s'.pps.bytes = lastAccepted .pps s.pps.bytes units
  send : s'.sendSpsPps = (s.sendSpsPps || acceptsSet units)
  rest : s' = { s with vps := s'.vps, sps := s'.sps, pps := s'.pps, sendSpsPps := s'.sendSpsPps }

theorem Latched.refl (self : StreamState) : Latched self [] self where
  vps := rfl
  sps := rfl
  pps := rfl
  send := by simp [acceptsSet]
  rest := rfl

theorem Latched.trans {s s' s'' : StreamState} {us vs : List NalUnit} (h : Latched s us s')
    (h' : Latched s' vs s'') : Latched s (us ++ vs) s'' where
  vps := by rw [h'.vps, h.vps, lastAccepted_append]
  sps := by rw [h'.sps, h.sps, lastAccepted_append]
  pps := by rw [h'.pps, h.pps, lastAccepted_append]
  send := by rw [h'.send, h.send, Bool.or_assoc]; simp [acceptsSet]
  rest := by
    have h2 := h'.rest
    rw [h.rest] at h2
    exact h2

theorem Latched.skip (self : StreamState) {u : NalUnit} (h : acceptsUnit u = false) :
    Latched self [u] self where
  vps := (lastAccepted_of_not_accepts h _ _).symm
  sps := (lastAccepted_of_not_accepts h _ _).symm
  pps := (lastAccepted_of_not_accepts h _ _).symm
  send := by simp [acceptsSet, h]
  rest := rfl

/-- A set that is already cached is not written again, but latches the flag all the same. -/
theorem cacheParameterSet_latched (self : StreamState) (u : NalUnit) (updated : Bool) :
    Latched self [u] (cacheParameterSet self u updated).1 := by
  by_cases hlen : u.len = 0 ∨ u.len > spsppsBufSz
  · have hno : acceptsUnit u = false := by
      rcases hlen with h | h <;> simp [acceptsUnit, h]
    have hsame : (cacheParameterSet self u updated).1 = self := by
      unfold cacheParameterSet
      split <;> first | rfl | rw [latchSet, dif_pos hlen]
    rw [hsame]
    exact Latched.skip self hno
  · have hfit : u.len ≠ 0 ∧ u.len ≤ spsppsBufSz := by omega
    cases ht : u.type with
    | vps =>
      have hacc : acceptsUnit u = true := by simp [acceptsUnit, ht, nalIsParameterSet, hfit]
      simp only [cacheParameterSet, ht, latchSet, dif_neg hlen]
      split_ifs with hne <;>
        constructor <;> simp_all [lastAccepted_of_accepts hacc, acceptsSet]
    | sps =>
      have hacc : acceptsUnit u = true := by simp [acceptsUnit, ht, nalIsParameterSet, hfit]
      simp only [cacheParameterSet, ht, latchSet, dif_neg hlen]
      split_ifs with hne <;>
        constructor <;> simp_all [lastAccepted_of_accepts hacc, acceptsSet]
    | pps =>
      have hacc : acceptsUnit u = true := by simp [acceptsUnit, ht, nalIsParameterSet, hfit]
      simp only [cacheParameterSet, ht, latchSet, dif_neg hlen]
      split_ifs with hne <;>
        constructor <;> simp_all [lastAccepted_of_accepts hacc, acceptsSet]
    | _ =>
      simp only [cacheParameterSet, ht]
      exact Latched.skip self (by simp [acceptsUnit, ht, nalIsParameterSet])

theorem latchSets_latched (au : List NalUnit) :
    ∀ (self : StreamState) (updated : Bool), Latched self au (latchSets self updated au).1 := by
  induction au with
  | nil => intro self updated; exact Latched.refl self
  | cons u au ih =>
    intro self updated
    rw [latchSets, List.foldl_cons]
    by_cases hp : nalIsParameterSet u.type = true
    · rw [if_pos hp]
      exact (cacheParameterSet_latched self u updated).trans (ih _ _)
    · rw [if_neg hp]
      exact (Latched.skip self (by simp [acceptsUnit, hp])).trans (ih _ _)

/-- An accepted set leaves something to insert. -/
theorem expectedSets_ne_nil {c : Codec} {s0 : StreamState} (hc : s0.frameFormat = c.format)
    {units : List NalUnit} (hw : ∀ u ∈ units, u.FromWire c) (h : acceptsSet units = true) :
    expectedSets s0 units ≠ [] := by
  obtain ⟨u, hu, hacc⟩ := List.any_eq_true.mp h
  have hlast : ∀ initial, lastAccepted u.type initial units ≠ [] := by
    intro initial
    have hmem : u ∈ units.filter fun v => v.type = u.type ∧ acceptsUnit v :=
      List.mem_filter.mpr ⟨hu, by simp [hacc]⟩
    have hv := List.getLast?_eq_some_getLast (List.ne_nil_of_mem hmem)
    have hin := (List.mem_filter.mp (List.mem_of_getLast? hv)).1
    rw [lastAccepted, hv]
    exact (hw _ hin).nonempty
  intro hnil
  simp only [expectedSets, List.append_eq_nil_iff] at hnil
  cases ht : u.type with
  | vps =>
    have h265 : s0.frameFormat = .h265 := by
      cases c with
      | h264 => exact absurd ht (hw u hu).type_ne_vps
      | h265 => exact hc
    rw [if_pos h265] at hnil
    exact hlast _ (ht ▸ hnil.1.1)
  | sps => exact hlast _ (ht ▸ hnil.1.2)
  | pps => exact hlast _ (ht ▸ hnil.2)
  | _ => simp [acceptsUnit, ht, nalIsParameterSet] at hacc

/-- `s` holds the cache of `s0` after the units `units`. -/
structure Cached (s0 : StreamState) (units : List NalUnit) (s : StreamState) : Prop where
  format : s.frameFormat = s0.frameFormat
  vps : s.vps.bytes = lastAccepted .vps s0.vps.bytes units
  sps : s.sps.bytes = lastAccepted .sps s0.sps.bytes units
  pps : s.pps.bytes = lastAccepted .pps s0.pps.bytes units

theorem Cached.refl (s0 : StreamState) : Cached s0 [] s0 := ⟨rfl, rfl, rfl, rfl⟩

theorem Cached.latch {s0 s s' : StreamState} {us au : List NalUnit} (h : Cached s0 us s)
    (hl : Latched s au s') : Cached s0 (us ++ au) s' where
  format := by rw [hl.rest]; exact h.format
  vps := by rw [hl.vps, h.vps, lastAccepted_append]
  sps := by rw [hl.sps, h.sps, lastAccepted_append]
  pps := by rw [hl.pps, h.pps, lastAccepted_append]

theorem Cached.cachedSets {s0 s : StreamState} {units : List NalUnit} (h : Cached s0 units s) :
    cachedSets s = expectedSets s0 units := by
  rw [LibuvcH264Src.cachedSets, expectedSets, h.format, h.vps, h.sps, h.pps]

/-! ## The flags after a list of access units -/

/-- Whether the sets go into `au`, when an IDR was or was not seen and sets are or are not due. -/
def insertsAt (flags : Bool × Bool) (au : List NalUnit) : Bool :=
  hasIdr au && (!flags.1 || (flags.2 || acceptsSet au))

def flagsStep (flags : Bool × Bool) (au : List NalUnit) : Bool × Bool :=
  (flags.1 || hasIdr au, (flags.2 || acceptsSet au) && !insertsAt flags au)

/-- `had_idr` and `send_sps_pps` after the access units `seen` of a session. -/
def sessionFlags (seen : List (List NalUnit)) : Bool × Bool := seen.foldl flagsStep (false, false)

theorem sessionFlags_snoc (seen : List (List NalUnit)) (au : List NalUnit) :
    sessionFlags (seen ++ [au]) = flagsStep (sessionFlags seen) au := by
  simp [sessionFlags]

theorem sessionFlags_fst (seen : List (List NalUnit)) :
    (sessionFlags seen).1 = seen.any hasIdr := by
  induction seen using List.reverseRecOn with
  | nil => rfl
  | append_singleton seen au ih => rw [sessionFlags_snoc, flagsStep, ih]; simp

theorem acceptsSet_of_sessionFlags {seen : List (List NalUnit)} (h : (sessionFlags seen).2 = true) :
    acceptsSet seen.flatten = true := by
  induction seen using List.reverseRecOn with
  | nil => cases h
  | append_singleton seen au ih =>
    rw [sessionFlags_snoc, flagsStep] at h
    have hdue := (Bool.and_eq_true_iff.mp h).1
    simp only [acceptsSet, List.flatten_append, List.any_append, List.flatten_singleton]
    rcases Bool.or_eq_true_iff.mp hdue with hp | hp
    · exact Bool.or_eq_true_iff.mpr (Or.inl (ih hp))
    · exact Bool.or_eq_true_iff.mpr (Or.inr hp)

/-! ## The invariant of a session -/

/-- The state after the access units `seen` of a session that began in `s0`. -/
structure SessionInv (c : Codec) (s0 : StreamState) (seen : List (List NalUnit))
    (s : StreamState) : Prop where
  codec : s0.frameFormat = c.format
  cache : Cached s0 seen.flatten s
  hadIdr : s.hadIdr = seen.any hasIdr
  send : s.sendSpsPps = (sessionFlags seen).2
  wire : ∀ u ∈ seen.flatten, u.FromWire c

theorem SessionInv.openSession (c : Codec) (self : StreamState) :
    SessionInv c (openSession c self) [] (openSession c self) where
  codec := rfl
  cache := Cached.refl _
  hadIdr := rfl
  send := rfl
  wire := by simp

/-- Nothing in the invariant is about time. -/
theorem SessionInv.retime {c : Codec} {s0 s : StreamState} {seen : List (List NalUnit)}
    (h : SessionInv c s0 seen s) (clock : Bool) (base prev offset : UInt64) :
    SessionInv c s0 seen
      { s with clock := clock, baseTime := base, prevPts := prev, frameOffset := offset } :=
  ⟨h.codec, ⟨h.cache.format, h.cache.vps, h.cache.sps, h.cache.pps⟩, h.hadIdr, h.send, h.wire⟩

theorem pushAu_self (s : StreamState) (ts : UInt64) (hasSlice : Bool) (mem : List (Option Byte)) :
    ∃ prev offset, (pushAu s ts hasSlice mem).1 =
      { s with clock := s.clock, baseTime := s.baseTime, prevPts := prev, frameOffset := offset } := by
  cases hasSlice with
  | false => exact ⟨s.prevPts, s.frameOffset + 1, rfl⟩
  | true => exact ⟨(stampPts s ts).2, s.frameOffset + 1, rfl⟩

/-- The bytes of the access unit that follows `seen`, if it is forwarded. -/
def nextBuffer (s0 : StreamState) (seen : List (List NalUnit)) (au : List NalUnit) :
    Option (List Byte) :=
  if !(seen ++ [au]).any hasIdr || au.all fun u => nalIsParameterSet u.type then none
  else some (assemble
    (if insertsAt (sessionFlags seen) au then expectedSets s0 (seen ++ [au]).flatten else []) au)

theorem forwarded_eq_nil {c : Codec} {au : List NalUnit} (hw : ∀ u ∈ au, u.FromWire c) :
    forwarded au = [] ↔ (au.all fun u => nalIsParameterSet u.type) = true := by
  simp only [forwarded, List.flatMap_eq_nil_iff, List.mem_filter, List.all_eq_true]
  constructor
  · intro h u hu
    by_contra hp
    exact (hw u hu).nonempty (h u ⟨hu, by simpa using hp⟩)
  · rintro h u ⟨hu, hp⟩
    simp [h u hu] at hp

/-- One turn of the walk pushes `nextBuffer` and keeps the invariant. -/
theorem SessionInv.deliverAu {c : Codec} {s0 : StreamState} {seen : List (List NalUnit)} {w : Walk}
    (h : SessionInv c s0 seen w.self) {au : List NalUnit} (hw : ∀ u ∈ au, u.FromWire c)
    (ts : UInt64) :
    SessionInv c s0 (seen ++ [au]) (deliverAu ts w au).self ∧
      (deliverAu ts w au).pushed.map GstBuffer.data =
        w.pushed.map GstBuffer.data ++ ((nextBuffer s0 seen au).map (List.map some)).toList := by
  have hl := latchSets_latched au w.self w.updated
  rw [deliverAu_eq]
  generalize latchSets w.self w.updated au = r at hl
  have hwire : ∀ u ∈ (seen ++ [au]).flatten, u.FromWire c := by
    intro u hu
    rw [List.flatten_append, List.flatten_singleton] at hu
    exact (List.mem_append.mp hu).elim (h.wire u) (hw u)
  have hflat : (seen ++ [au]).flatten = seen.flatten ++ au := by simp
  have hcache : Cached s0 (seen ++ [au]).flatten r.1 := by rw [hflat]; exact h.cache.latch hl
  have hhad : r.1.hadIdr = (sessionFlags seen).1 := by
    rw [sessionFlags_fst, ← h.hadIdr, hl.rest]
  have hsend : r.1.sendSpsPps = ((sessionFlags seen).2 || acceptsSet au) := by rw [hl.send, h.send]
  have hinserts : insertsSets r.1 au = insertsAt (sessionFlags seen) au := by
    rw [insertsSets, insertsAt, hhad, hsend]
  have hany : (seen ++ [au]).any hasIdr = (r.1.hadIdr || hasIdr au) := by
    rw [hhad, sessionFlags_fst]; simp
  have hdrops : dropsAu r.1 au =
      (!(seen ++ [au]).any hasIdr || au.all fun u => nalIsParameterSet u.type) := by
    rw [hany, dropsAu, Bool.not_or]
    congr 1
    rw [Bool.eq_iff_iff, decide_eq_true_iff]
    exact forwarded_eq_nil hw
  cases hd : dropsAu r.1 au with
  | true =>
    have hidr : hasIdr au = false := by
      rw [hdrops, hany] at hd
      rcases Bool.or_eq_true_iff.mp hd with hd | hd
      · simp at hd; exact hd.2
      · rw [hasIdr, List.any_eq_false]
        intro u hu hi
        have := List.all_eq_true.mp hd u hu
        rw [of_decide_eq_true hi] at this
        cases this
    have hins : insertsAt (sessionFlags seen) au = false := by simp [insertsAt, hidr]
    simp only [hd, if_true]
    refine ⟨⟨h.codec, hcache, ?_, ?_, hwire⟩, ?_⟩
    · rw [hany, hidr, Bool.or_false]
    · rw [sessionFlags_snoc, flagsStep, hins, hsend]; simp
    · rw [nextBuffer, ← hdrops, hd]; simp
  | false =>
    simp only [hd, Bool.false_eq_true, if_false]
    obtain ⟨prev, offset, hpush⟩ := pushAu_self (afterFill r.1 au) ts (hasSlice au)
      ((assemble (insertedSets r.1 au) au).map some)
    have hclear : (r.1.sendSpsPps && !(insertsSets r.1 au && 0 < cachedSetsLen r.1)) =
        (sessionFlags (seen ++ [au])).2 := by
      rw [sessionFlags_snoc, flagsStep, ← hsend, ← hinserts]
      cases hs : r.1.sendSpsPps with
      | false => rfl
      | true =>
        have hacc : acceptsSet (seen ++ [au]).flatten = true := by
          rw [hsend] at hs
          simp only [acceptsSet, hflat, List.any_append]
          rcases Bool.or_eq_true_iff.mp hs with hp | hp
          · exact Bool.or_eq_true_iff.mpr (Or.inl (acceptsSet_of_sessionFlags hp))
          · exact Bool.or_eq_true_iff.mpr (Or.inr hp)
        have hpos : 0 < cachedSetsLen r.1 := by
          rw [← length_cachedSets, hcache.cachedSets, List.length_pos_iff]
          exact expectedSets_ne_nil h.codec hwire hacc
        simp [hpos]
    have hinv : SessionInv c s0 (seen ++ [au]) (afterFill r.1 au) :=
      ⟨h.codec, ⟨hcache.format, hcache.vps, hcache.sps, hcache.pps⟩, hany.symm, hclear, hwire⟩
    constructor
    · rw [hpush]
      exact hinv.retime _ _ _ _
    · have hdata : (pushAu (afterFill r.1 au) ts (hasSlice au)
          ((assemble (insertedSets r.1 au) au).map some)).2.data =
          (assemble (insertedSets r.1 au) au).map some := rfl
      rw [List.map_append, List.map_singleton, hdata, nextBuffer, ← hdrops, hd, insertedSets,
        hinserts, hcache.cachedSets]
      simp

/-! ## Runs -/

/-- The buffers for the access units `aus` that follow `seen`. -/
def nextBuffers (s0 : StreamState) : List (List NalUnit) → List (List NalUnit) → List (List Byte)
  | _, [] => []
  | seen, au :: aus => (nextBuffer s0 seen au).toList ++ nextBuffers s0 (seen ++ [au]) aus

theorem nextBuffers_append (s0 : StreamState) (aus bus : List (List NalUnit)) :
    ∀ seen, nextBuffers s0 seen (aus ++ bus) =
      nextBuffers s0 seen aus ++ nextBuffers s0 (seen ++ aus) bus := by
  induction aus with
  | nil => intro seen; simp [nextBuffers]
  | cons au aus ih => intro seen; simp [nextBuffers, ih]

theorem nextBuffers_eq (s0 : StreamState) (aus : List (List NalUnit)) :
    ∀ seen, nextBuffers s0 seen aus = (List.range aus.length).filterMap fun j =>
      nextBuffer s0 (seen ++ aus.take j) (aus.getD j []) := by
  induction aus with
  | nil => intro seen; rfl
  | cons au aus ih =>
    intro seen
    rw [nextBuffers, ih, List.length_cons, List.range_succ_eq_map, List.filterMap_cons,
      List.filterMap_map]
    have hhead : nextBuffer s0 (seen ++ (au :: aus).take 0) ((au :: aus).getD 0 []) =
        nextBuffer s0 seen au := by simp
    have htail : ((fun j => nextBuffer s0 (seen ++ (au :: aus).take j) ((au :: aus).getD j [])) ∘
        Nat.succ) = fun j => nextBuffer s0 (seen ++ [au] ++ aus.take j) (aus.getD j []) := by
      funext j
      simp
    rw [hhead, htail]
    cases nextBuffer s0 seen au <;> rfl

/-- The walk over the access units of a delivery. -/
theorem SessionInv.foldl_deliverAu {c : Codec} {s0 : StreamState} (ts : UInt64)
    (aus : List (List NalUnit)) (hw : ∀ au ∈ aus, ∀ u ∈ au, u.FromWire c) :
    ∀ (seen : List (List NalUnit)) (w : Walk), SessionInv c s0 seen w.self →
      SessionInv c s0 (seen ++ aus) (aus.foldl (LibuvcH264Src.deliverAu ts) w).self ∧
        (aus.foldl (LibuvcH264Src.deliverAu ts) w).pushed.map GstBuffer.data =
          w.pushed.map GstBuffer.data ++ (nextBuffers s0 seen aus).map (List.map some) := by
  induction aus with
  | nil => intro seen w h; simpa [nextBuffers] using h
  | cons au aus ih =>
    intro seen w h
    obtain ⟨h1, hd1⟩ := h.deliverAu (hw au (by simp)) ts
    obtain ⟨h2, hd2⟩ := ih (fun bu hb => hw bu (by simp [hb])) (seen ++ [au]) _ h1
    rw [List.foldl_cons]
    refine ⟨by simpa using h2, ?_⟩
    rw [hd2, hd1, nextBuffers]
    cases nextBuffer s0 seen au <;> simp

theorem deliveryAccessUnits_fromWire (c : Codec) (data : List Byte) :
    ∀ au ∈ deliveryAccessUnits c.format data, ∀ u ∈ au, u.FromWire c := by
  intro au hau u hu
  refine parseNalUnits_fromWire c (countNalUnits c.format data) data u ?_
  rw [← deliveryUnits, ← flatten_deliveryAccessUnits]
  exact List.mem_flatten.mpr ⟨au, hau, hu⟩

theorem SessionInv.sessionStep {c : Codec} {s0 s : StreamState} {seen : List (List NalUnit)}
    (h : SessionInv c s0 seen s) (e : SessionEvent) :
    SessionInv c s0 (seen ++ eventAus s e) (sessionStep s e).1 ∧
      (sessionStep s e).2.map GstBuffer.data =
        (nextBuffers s0 seen (eventAus s e)).map (List.map some) := by
  cases e with
  | setClock clock =>
    refine ⟨?_, rfl⟩
    rw [eventAus, List.append_nil]
    cases clock
    · exact h.retime false s.baseTime s.prevPts s.frameOffset
    · exact h.retime true clockTimeNone clockTimeNone s.frameOffset
  | changeState transition =>
    refine ⟨?_, rfl⟩
    rw [eventAus, List.append_nil]
    cases transition
    · exact h.retime s.clock clockTimeNone clockTimeNone s.frameOffset
    · exact h
  | delivery arrival frame =>
    simp only [LibuvcH264Src.sessionStep, eventAus, frameCallback]
    cases acceptsFrame frame with
    | none => exact ⟨by simpa using h, rfl⟩
    | some data =>
      cases hclock : s.clock with
      | false =>
        simp only [snapshotClock, hclock]
        exact ⟨by simpa using h, rfl⟩
      | true =>
        simp only [snapshotClock, hclock, if_true]
        have hlatch : (latchBaseTime s s.baseTime arrival.elementBaseTime).1 =
            { s with baseTime := (latchBaseTime s s.baseTime arrival.elementBaseTime).1.baseTime } := by
          unfold latchBaseTime
          split_ifs <;> rfl
        have h1 : SessionInv c s0 seen (latchBaseTime s s.baseTime arrival.elementBaseTime).1 := by
          rw [hlatch]
          exact h.retime s.clock _ s.prevPts s.frameOffset
        have hf : s.frameFormat = c.format := h.cache.format.trans h.codec
        rw [hf]
        simpa using SessionInv.foldl_deliverAu _ _ (deliveryAccessUnits_fromWire c data) seen
          ⟨_, false, []⟩ h1

theorem SessionInv.runSession {c : Codec} {s0 : StreamState} (events : List SessionEvent) :
    ∀ (seen : List (List NalUnit)) (s : StreamState), SessionInv c s0 seen s →
      (runSession s events).2.map GstBuffer.data =
        (nextBuffers s0 seen (sessionAus s events)).map (List.map some) := by
  induction events with
  | nil => intro seen s _; rfl
  | cons e events ih =>
    intro seen s h
    obtain ⟨h1, hd⟩ := h.sessionStep e
    rw [LibuvcH264Src.runSession, List.map_append, hd, ih _ _ h1, sessionAus, nextBuffers_append,
      List.map_append]

/-! ## The insertions -/

theorem sessionFlags_take_succ (aus : List (List NalUnit)) (j : Nat) :
    sessionFlags (aus.take (j + 1)) = flagsStep (sessionFlags (aus.take j)) (aus.getD j []) := by
  by_cases hj : j < aus.length
  · rw [List.take_succ_eq_append_getElem hj, sessionFlags_snoc, List.getD_eq_getElem?_getD,
      List.getElem?_eq_getElem hj]
    rfl
  · rw [List.take_of_length_le (by omega), List.take_of_length_le (by omega),
      List.getD_eq_getElem?_getD, List.getElem?_eq_none (by omega)]
    simp [flagsStep, insertsAt, hasIdr, acceptsSet]

/-- Whether the sets go into access unit `j`. -/
def insertedAt (aus : List (List NalUnit)) (j : Nat) : Bool :=
  insertsAt (sessionFlags (aus.take j)) (aus.getD j [])

/-- Sets are due when one was accepted and not followed by an insertion. -/
theorem sessionFlags_snd_iff (aus : List (List NalUnit)) (j : Nat) :
    (sessionFlags (aus.take j)).2 = true ↔
      ∃ i < j, acceptsSet (aus.getD i []) = true ∧
        ∀ k, i ≤ k → k < j → insertedAt aus k = false := by
  induction j with
  | zero => simp [sessionFlags]
  | succ j ih =>
    rw [sessionFlags_take_succ, flagsStep, Bool.and_eq_true, Bool.or_eq_true, Bool.not_eq_true',
      ih, ← insertedAt]
    constructor
    · rintro ⟨⟨i, hi, hacc, hno⟩ | hacc, hj⟩
      · refine ⟨i, by omega, hacc, fun k hik hk => ?_⟩
        rcases Nat.lt_succ_iff_lt_or_eq.mp hk with hk | rfl
        · exact hno k hik hk
        · exact hj
      · refine ⟨j, by omega, hacc, fun k hjk hk => ?_⟩
        rwa [show k = j by omega]
    · rintro ⟨i, hi, hacc, hno⟩
      refine ⟨?_, hno j (by omega) (by omega)⟩
      rcases Nat.lt_succ_iff_lt_or_eq.mp hi with hi | rfl
      · exact Or.inl ⟨i, hi, hacc, fun k hik hk => hno k hik (by omega)⟩
      · exact Or.inr hacc

theorem any_hasIdr_take (aus : List (List NalUnit)) (j : Nat) :
    (aus.take j).any hasIdr = false ↔ ∀ i < j, hasIdr (aus.getD i []) = false := by
  induction j with
  | zero => simp
  | succ j ih =>
    rw [← sessionFlags_fst, sessionFlags_take_succ, flagsStep, Bool.or_eq_false_iff,
      sessionFlags_fst, ih]
    constructor
    · rintro ⟨h, hj⟩ i hi
      rcases Nat.lt_succ_iff_lt_or_eq.mp hi with hi | rfl
      · exact h i hi
      · exact hj
    · intro h
      exact ⟨fun i hi => h i (by omega), h j (by omega)⟩

theorem insertedAt_iff (aus : List (List NalUnit)) (j : Nat) :
    insertedAt aus j = true ↔ InsertionDue aus (insertedAt aus) j := by
  rw [insertedAt, insertsAt, Bool.and_eq_true, Bool.or_eq_true, Bool.or_eq_true, Bool.not_eq_true',
    sessionFlags_fst, any_hasIdr_take, sessionFlags_snd_iff, InsertionDue]
  refine and_congr_right fun _ => or_congr_right ?_
  constructor
  · rintro (⟨i, hi, hacc, hno⟩ | hacc)
    · exact ⟨i, by omega, hacc, hno⟩
    · exact ⟨j, le_refl j, hacc, fun k hjk hk => by omega⟩
  · rintro ⟨i, hi, hacc, hno⟩
    rcases Nat.lt_or_eq_of_le hi with hi | rfl
    · exact Or.inl ⟨i, hi, hacc, hno⟩
    · exact Or.inr hacc

theorem nextBuffer_take (s0 : StreamState) (aus : List (List NalUnit)) {j : Nat}
    (hj : j < aus.length) :
    nextBuffer s0 (aus.take j) (aus.getD j []) = expectedBuffer s0 aus (insertedAt aus) j := by
  have htake : aus.take j ++ [aus.getD j []] = aus.take (j + 1) := by
    rw [List.take_succ_eq_append_getElem hj, List.getD_eq_getElem?_getD, List.getElem?_eq_getElem hj]
    rfl
  rw [nextBuffer, expectedBuffer, dropped, insertedAt, htake]

/-- The buffers of a session, access unit by access unit. -/
theorem session_buffers (c : Codec) (self : StreamState) (events : List SessionEvent) :
    (runSession (openSession c self) events).2.map GstBuffer.data =
      ((List.range (sessionAus (openSession c self) events).length).filterMap
        (expectedBuffer (openSession c self) (sessionAus (openSession c self) events)
          (insertedAt (sessionAus (openSession c self) events)))).map (List.map some) := by
  rw [SessionInv.runSession events [] _ (SessionInv.openSession c self), nextBuffers_eq]
  congr 1
  refine List.filterMap_congr fun j hj => ?_
  rw [List.nil_append, nextBuffer_take _ _ (List.mem_range.mp hj)]

/-- **Output of a session**: the buffers pushed since the stream was opened are those of the access
units that are not dropped, in order, each with every byte written, and with the sets inserted
exactly where an insertion is due. -/
theorem session_output (c : Codec) (self : StreamState) (events : List SessionEvent) :
    let s0 := openSession c self
    let aus := sessionAus s0 events
    ∃ inserted : Nat → Bool, (∀ j, inserted j = true ↔ InsertionDue aus inserted j) ∧
      (runSession s0 events).2.map GstBuffer.data =
        ((List.range aus.length).filterMap (expectedBuffer s0 aus inserted)).map
          (List.map some) := by
  intro s0 aus
  exact ⟨insertedAt aus, insertedAt_iff aus, session_buffers c self events⟩

end LibuvcH264Src
