import LibuvcH264Src.Negotiate
import LibuvcH264Src.Session

/-!
# The cache and its file

* `CacheFile`, `CacheFile.step` : an instance with the cache file of its key, where files are loaded and deliveries come
  in;
* `moments` : every call of `cache_parameter_set` in a delivery, with the state it finds;
* `Differs` : the set is accepted and is not the one that is cached;
* `frameCallback_stored` : the file is written exactly where some set differs;
* `slot_frameCallback`, `slot_foldl_loadUnit` : what a slot holds behind a delivery and behind a load;
* `cache_law` : what holds behind any run of loads and deliveries.
-/

namespace LibuvcH264Src
open AnnexB

/-! ## The system -/

/-- An instance and the file of its key. -/
structure CacheFile where
  self : StreamState
  file : List Byte

inductive CacheEvent where
  /-- `load_spspps` from a file with these bytes. -/
  | load (bytes : List Byte)
  /-- `frame_callback`, whose writes succeed. -/
  | deliver (arrival : Arrival) (frame : Option (List Byte))

/-- What `loadSpspps` does with the bytes of the file. -/
def loadBytes (self : StreamState) (bytes : List Byte) : StreamState :=
  (parseNalUnits self.frameFormat 3 (bytes.take (spsppsBufSz * 3))).foldl loadSpspps.loadUnit self

def CacheFile.step (c : CacheFile) : CacheEvent → CacheFile
  | .load bytes => { c with self := loadBytes c.self bytes }
  | .deliver arrival frame =>
    let o := frameCallback c.self arrival frame
    ⟨o.self, (o.stored.map Prod.snd).getD c.file⟩

/-- The file holds the cached sets. -/
def CacheFile.Coherent (c : CacheFile) : Prop := c.file = storeSpspps c.self (spsppsKeySnapshot c.self)

/-! ## The sets of a delivery -/

/-- The slot of a kind of set. -/
def slot (self : StreamState) (type : NalUnitType) : List Byte :=
  match type with
  | .vps => self.vps.bytes
  | .sps => self.sps.bytes
  | .pps => self.pps.bytes
  | _ => []

/-- The unit is accepted, and its kind is cached with other bytes. -/
def Differs (m : StreamState × NalUnit) : Prop := acceptsUnit m.2 = true ∧ slot m.1 m.2.type ≠ m.2.data

instance : DecidablePred Differs := fun _ => inferInstanceAs (Decidable (_ ∧ _))

/-- The calls of `cache_parameter_set` in one access unit. -/
def auMoments : StreamState → List NalUnit → List (StreamState × NalUnit)
  | _, [] => []
  | self, u :: us =>
    if nalIsParameterSet u.type then (self, u) :: auMoments (cacheParameterSet self u false).1 us
    else auMoments self us

/-- Those in the access units of one delivery. -/
def moments (ts : UInt64) : StreamState → List (List NalUnit) → List (StreamState × NalUnit)
  | _, [] => []
  | self, au :: aus => auMoments self au ++ moments ts (deliverAu ts ⟨self, false, []⟩ au).self aus

def deliveryMoments (self : StreamState) (arrival : Arrival) (frame : Option (List Byte)) :
    List (StreamState × NalUnit) :=
  match acceptsFrame frame, snapshotClock self with
  | some data, some snapshot =>
    let latched := latchBaseTime self snapshot arrival.elementBaseTime
    moments (arrival.now - latched.2) latched.1 (deliveryAccessUnits self.frameFormat data)
  | _, _ => []

/-! ## One set -/

section Set
variable {self : StreamState} {u : NalUnit}

/-- A refused set changes nothing. -/
theorem cacheParameterSet_refused (h : u.len = 0 ∨ u.len > spsppsBufSz) (updated : Bool) :
    cacheParameterSet self u updated = (self, updated) := by
  unfold cacheParameterSet latchSet
  split <;> first | rfl | exact dif_pos h

theorem loadUnit_refused (h : u.len = 0 ∨ u.len > spsppsBufSz) : loadSpspps.loadUnit self u = self := by
  unfold loadSpspps.loadUnit
  exact dif_pos h

theorem acceptsUnit_iff (hset : nalIsParameterSet u.type = true) :
    acceptsUnit u = true ↔ ¬ (u.len = 0 ∨ u.len > spsppsBufSz) := by
  unfold acceptsUnit
  rw [hset]
  simp only [Bool.true_and, Bool.and_eq_true, decide_eq_true_eq, ne_eq, not_or, not_lt]

/-- What is kept of the cache and of its key. -/
structure SameCache (s s' : StreamState) : Prop where
  vps : s'.vps = s.vps
  sps : s'.sps = s.sps
  pps : s'.pps = s.pps
  key : spsppsKeySnapshot s' = spsppsKeySnapshot s

theorem SameCache.refl (s : StreamState) : SameCache s s := ⟨rfl, rfl, rfl, rfl⟩

theorem SameCache.trans {s s' s'' : StreamState} (h : SameCache s s') (h' : SameCache s' s'') : SameCache s s'' where
  vps := h'.vps.trans h.vps
  sps := h'.sps.trans h.sps
  pps := h'.pps.trans h.pps
  key := h'.key.trans h.key

theorem SameCache.stored {s s' : StreamState} (h : SameCache s s') :
    storeSpspps s' (spsppsKeySnapshot s') = storeSpspps s (spsppsKeySnapshot s) := by
  rw [h.key]
  unfold storeSpspps
  rw [h.vps, h.sps, h.pps]

section Latch
variable {updated : Bool} {dst : CachedSet} {write : CachedSet → StreamState}

theorem latchSet_updated : (latchSet self u updated dst write).2 =
    (updated || decide (¬ (u.len = 0 ∨ u.len > spsppsBufSz) ∧ dst.bytes ≠ u.data)) := by
  unfold latchSet
  split_ifs with hrefused hdiffers
  · rw [decide_eq_false fun h => h.1 hrefused, Bool.or_false]
  · rw [decide_eq_true ⟨hrefused, hdiffers⟩, Bool.or_true]
  · rw [decide_eq_false fun h => hdiffers h.2, Bool.or_false]

theorem latchSet_same (h : ¬ (¬ (u.len = 0 ∨ u.len > spsppsBufSz) ∧ dst.bytes ≠ u.data)) :
    SameCache self (latchSet self u updated dst write).1 := by
  unfold latchSet
  split_ifs with hrefused hdiffers
  · exact SameCache.refl self
  · exact absurd ⟨hrefused, hdiffers⟩ h
  · exact ⟨rfl, rfl, rfl, rfl⟩

/-- The key is kept, if the store into the slot keeps it. -/
theorem latchSet_key (hwrite : ∀ set, spsppsKeySnapshot (write set) = spsppsKeySnapshot self) :
    spsppsKeySnapshot (latchSet self u updated dst write).1 = spsppsKeySnapshot self := by
  unfold latchSet
  split_ifs
  · rfl
  · exact hwrite _
  · rfl

end Latch

/-- The call for a set works on the slot of its kind. -/
theorem cacheParameterSet_slot (self : StreamState) (hset : nalIsParameterSet u.type = true) :
    ∃ dst write, (∀ updated, cacheParameterSet self u updated = latchSet self u updated dst write) ∧
      dst.bytes = slot self u.type := by
  unfold cacheParameterSet slot
  cases htype : u.type with
  | vps => exact ⟨self.vps, _, fun _ => rfl, rfl⟩
  | sps => exact ⟨self.sps, _, fun _ => rfl, rfl⟩
  | pps => exact ⟨self.pps, _, fun _ => rfl, rfl⟩
  | invalid | frameIdr | frameNonIdr | aud =>
    rw [htype] at hset
    exact absurd hset (by decide)

/-- The flag of one call. -/
theorem cacheParameterSet_updated (hset : nalIsParameterSet u.type = true) (updated : Bool) :
    (cacheParameterSet self u updated).2 = (updated || decide (Differs (self, u))) := by
  obtain ⟨dst, write, heq, hslot⟩ := cacheParameterSet_slot self hset
  rw [heq, latchSet_updated]
  congr 1
  apply decide_eq_decide.mpr
  unfold Differs
  rw [acceptsUnit_iff hset, ← hslot]

theorem cacheParameterSet_same (hset : nalIsParameterSet u.type = true) (updated : Bool)
    (h : ¬ Differs (self, u)) : SameCache self (cacheParameterSet self u updated).1 := by
  obtain ⟨dst, write, heq, hslot⟩ := cacheParameterSet_slot self hset
  unfold Differs at h
  rw [acceptsUnit_iff hset, ← hslot] at h
  rw [heq]
  exact latchSet_same h

theorem cacheParameterSet_key (updated : Bool) :
    spsppsKeySnapshot (cacheParameterSet self u updated).1 = spsppsKeySnapshot self := by
  unfold cacheParameterSet
  cases u.type with
  | vps | sps | pps => exact latchSet_key fun _ => rfl
  | invalid | frameIdr | frameNonIdr | aud => rfl

end Set

/-! ## One delivery -/

theorem latchSets_cons_set {u : NalUnit} (hset : nalIsParameterSet u.type = true) (self : StreamState)
    (updated : Bool) (us : List NalUnit) :
    latchSets self updated (u :: us) =
      latchSets (cacheParameterSet self u false).1 (updated || decide (Differs (self, u))) us := by
  unfold latchSets
  rw [List.foldl_cons, if_pos hset, ← cacheParameterSet_updated hset, ← cacheParameterSet_fst self u updated false]

theorem latchSets_cons {u : NalUnit} (hset : ¬ nalIsParameterSet u.type = true) (self : StreamState)
    (updated : Bool) (us : List NalUnit) : latchSets self updated (u :: us) = latchSets self updated us := by
  unfold latchSets
  rw [List.foldl_cons, if_neg hset]

/-- What the calls of one access unit leave. -/
theorem latchSets_moments (au : List NalUnit) (self : StreamState) (updated : Bool) :
    (latchSets self updated au).2 = (updated || (auMoments self au).any fun m => Differs m) ∧
      ((∀ m ∈ auMoments self au, ¬ Differs m) → SameCache self (latchSets self updated au).1) ∧
      spsppsKeySnapshot (latchSets self updated au).1 = spsppsKeySnapshot self := by
  induction au generalizing self updated with
  | nil => exact ⟨(Bool.or_false _).symm, fun _ => SameCache.refl self, rfl⟩
  | cons u us ih =>
    unfold auMoments
    by_cases hset : nalIsParameterSet u.type = true
    · obtain ⟨hflag, hsame, hkey⟩ := ih (cacheParameterSet self u false).1 (updated || decide (Differs (self, u)))
      rw [latchSets_cons_set hset, if_pos hset, List.any_cons]
      refine ⟨?_, fun hnone => ?_, hkey.trans (cacheParameterSet_key false)⟩
      · rw [hflag, Bool.or_assoc]
      · rw [List.forall_mem_cons] at hnone
        exact (cacheParameterSet_same hset false hnone.1).trans (hsame hnone.2)
    · rw [latchSets_cons hset, if_neg hset]
      exact ih self updated

/-- The second pass and the push keep the cache. -/
theorem auStep_same (ts : UInt64) (self : StreamState) (au : List NalUnit) :
    SameCache (latchSets self false au).1 (auStep ts self au).1 := by
  unfold auStep
  simp only []
  split_ifs
  · exact SameCache.refl _
  · unfold pushAu afterFill stampPts
    cases hasSlice au <;> exact ⟨rfl, rfl, rfl, rfl⟩

theorem deliverAu_updated (ts : UInt64) (w : Walk) (au : List NalUnit) :
    (deliverAu ts w au).updated = (latchSets w.self w.updated au).2 := by
  rw [deliverAu_eq]
  simp only []
  split_ifs <;> rfl

/-- What the calls of one delivery leave. -/
theorem foldl_deliverAu_moments (ts : UInt64) (aus : List (List NalUnit)) (w : Walk) :
    (aus.foldl (deliverAu ts) w).updated = (w.updated || (moments ts w.self aus).any fun m => Differs m) ∧
      ((∀ m ∈ moments ts w.self aus, ¬ Differs m) → SameCache w.self (aus.foldl (deliverAu ts) w).self) ∧
      spsppsKeySnapshot (aus.foldl (deliverAu ts) w).self = spsppsKeySnapshot w.self := by
  induction aus generalizing w with
  | nil => exact ⟨(Bool.or_false _).symm, fun _ => SameCache.refl w.self, rfl⟩
  | cons au aus ih =>
    obtain ⟨hflag, hsame, hkey⟩ := latchSets_moments au w.self w.updated
    obtain ⟨hrest, hrestSame, hrestKey⟩ := ih (deliverAu ts w au)
    have hself : (deliverAu ts w au).self = (deliverAu ts ⟨w.self, false, []⟩ au).self := by
      rw [(deliverAu_step ts w au).1, (deliverAu_step ts ⟨w.self, false, []⟩ au).1]
    have hstep : SameCache (latchSets w.self w.updated au).1 (deliverAu ts w au).self := by
      rw [(deliverAu_step ts w au).1, latchSets_fst au w.self w.updated false]
      exact auStep_same ts w.self au
    unfold moments
    rw [List.foldl_cons, List.any_append, ← hself]
    refine ⟨?_, fun hnone => ?_, ?_⟩
    · rw [hrest, deliverAu_updated, hflag, Bool.or_assoc]
    · rw [List.forall_mem_append] at hnone
      exact ((hsame hnone.1).trans hstep).trans (hrestSame hnone.2)
    · exact hrestKey.trans (hstep.key.trans hkey)

theorem latchBaseTime_same (self : StreamState) (snapshot elementBaseTime : UInt64) :
    SameCache self (latchBaseTime self snapshot elementBaseTime).1 := by
  unfold latchBaseTime
  split_ifs <;> exact ⟨rfl, rfl, rfl, rfl⟩

/-- **The file is written** exactly where some set of the delivery differs from what is cached at that moment,
under the key of the instance and with the sets that are cached in the end; otherwise the cache is as it was. -/
theorem frameCallback_stored (self : StreamState) (arrival : Arrival) (frame : Option (List Byte)) :
    let o := frameCallback self arrival frame
    ((∃ m ∈ deliveryMoments self arrival frame, Differs m) →
        o.stored = some (spsppsKeySnapshot self, storeSpspps o.self (spsppsKeySnapshot o.self))) ∧
      ((∀ m ∈ deliveryMoments self arrival frame, ¬ Differs m) → o.stored = none ∧ SameCache self o.self) := by
  have hnone : (∃ m ∈ ([] : List (StreamState × NalUnit)), Differs m) → False := by
    intro ⟨m, hm, _⟩
    exact List.not_mem_nil hm
  unfold frameCallback deliveryMoments
  cases acceptsFrame frame with
  | none => exact ⟨fun h => (hnone h).elim, fun _ => ⟨rfl, SameCache.refl self⟩⟩
  | some data =>
    cases snapshotClock self with
    | none => exact ⟨fun h => (hnone h).elim, fun _ => ⟨rfl, SameCache.refl self⟩⟩
    | some snapshot =>
      simp only []
      generalize hlatched : latchBaseTime self snapshot arrival.elementBaseTime = latched
      have hlatch : SameCache self latched.1 := by
        rw [← hlatched]
        exact latchBaseTime_same self snapshot arrival.elementBaseTime
      obtain ⟨hflag, hsame, hkey⟩ := foldl_deliverAu_moments (arrival.now - latched.2)
        (deliveryAccessUnits self.frameFormat data) ⟨latched.1, false, []⟩
      rw [Bool.false_or] at hflag
      refine ⟨fun ⟨m, hm, hdiffers⟩ => ?_, fun hall => ⟨?_, hlatch.trans (hsame hall)⟩⟩
      · rw [if_pos (hflag.trans (List.any_eq_true.mpr ⟨m, hm, decide_eq_true hdiffers⟩)), hkey, hlatch.key]
      · rw [if_neg]
        rw [hflag, List.any_eq_true]
        intro ⟨m, hm, hdiffers⟩
        exact hall m hm (of_decide_eq_true hdiffers)

/-! ## What the slots hold -/

/-- The units that a delivery hands to the walk. -/
def deliveredUnits (self : StreamState) (arrival : Arrival) (data : Option (List Byte)) : List NalUnit :=
  (eventAus self (.delivery arrival data)).flatten

theorem slot_fits (self : StreamState) (kind : NalUnitType) : (slot self kind).length ≤ spsppsBufSz := by
  cases kind with
  | vps => exact self.vps.fits
  | sps => exact self.sps.fits
  | pps => exact self.pps.fits
  | invalid | frameIdr | frameNonIdr | aud => exact Nat.zero_le _

/-- A file holds no more than the buffer of `load_spspps`. -/
theorem storeSpspps_fits (self : StreamState) (key : SpsppsKey) : (storeSpspps self key).length ≤ spsppsBufSz * 3 := by
  have hvps := self.vps.fits
  have hsps := self.sps.fits
  have hpps := self.pps.fits
  unfold storeSpspps
  split_ifs
  · simp only [List.length_append]
    omega
  · simp only [List.length_append, List.length_nil]
    omega

/-- Other kinds have no slot. -/
theorem lastAccepted_of_not_set {kind : NalUnitType} (h : nalIsParameterSet kind = false) (initial : List Byte)
    (units : List NalUnit) : lastAccepted kind initial units = initial := by
  rcases lastAccepted_cases kind initial units with hsame | ⟨u, -, rfl, haccepted, -⟩
  · exact hsame.1
  · unfold acceptsUnit at haccepted
    rw [h, Bool.false_and] at haccepted
    cases haccepted

theorem Latched.slot {s s' : StreamState} {units : List NalUnit} (h : Latched s units s') (kind : NalUnitType) :
    slot s' kind = lastAccepted kind (slot s kind) units := by
  cases kind with
  | vps => exact h.vps
  | sps => exact h.sps
  | pps => exact h.pps
  | invalid | frameIdr | frameNonIdr | aud => exact (lastAccepted_of_not_set rfl _ _).symm

theorem SameCache.slot {s s' : StreamState} (h : SameCache s s') (kind : NalUnitType) : slot s' kind = slot s kind := by
  unfold LibuvcH264Src.slot
  rw [h.vps, h.sps, h.pps]

theorem slot_deliverAu (ts : UInt64) (w : Walk) (au : List NalUnit) (kind : NalUnitType) :
    slot (deliverAu ts w au).self kind = lastAccepted kind (slot w.self kind) au := by
  rw [(deliverAu_step ts w au).1, (auStep_same ts w.self au).slot kind]
  exact (latchSets_latched au w.self false).slot kind

theorem slot_foldl_deliverAu (ts : UInt64) (aus : List (List NalUnit)) (w : Walk) (kind : NalUnitType) :
    slot (aus.foldl (deliverAu ts) w).self kind = lastAccepted kind (slot w.self kind) aus.flatten := by
  induction aus generalizing w with
  | nil => rfl
  | cons au aus ih => rw [List.foldl_cons, ih, slot_deliverAu, List.flatten_cons, lastAccepted_append]

/-- **Behind a delivery** a slot holds the last set of its kind in there that is accepted, or what it held. -/
theorem slot_frameCallback (self : StreamState) (arrival : Arrival) (data : Option (List Byte)) (kind : NalUnitType) :
    slot (frameCallback self arrival data).self kind =
      lastAccepted kind (slot self kind) (deliveredUnits self arrival data) := by
  unfold frameCallback deliveredUnits eventAus
  simp only []
  cases acceptsFrame data with
  | none => rfl
  | some bytes =>
    unfold snapshotClock
    cases self.clock with
    | false => rfl
    | true =>
      simp only [if_true]
      rw [slot_foldl_deliverAu, (latchBaseTime_same self _ arrival.elementBaseTime).slot kind]

theorem slot_loadUnit (self : StreamState) (u : NalUnit) (kind : NalUnitType) :
    slot (loadSpspps.loadUnit self u) kind = lastAccepted kind (slot self kind) [u] := by
  by_cases hrefused : u.len = 0 ∨ u.len > spsppsBufSz
  · rw [loadUnit_refused hrefused, lastAccepted_of_not_accepts]
    unfold acceptsUnit
    rcases hrefused with h | h
    · rw [h]
      exact Bool.and_false _
    · rw [decide_eq_false (Nat.not_le_of_gt h), Bool.and_false, Bool.and_false]
  · by_cases hset : nalIsParameterSet u.type = true
    · rw [lastAccepted_of_accepts ((acceptsUnit_iff hset).mpr hrefused)]
      unfold loadSpspps.loadUnit
      rw [dif_neg hrefused]
      cases htype : u.type <;> cases kind <;> first | rfl | (rw [htype] at hset; exact absurd hset (by decide))
    · rw [lastAccepted_of_not_accepts]
      · unfold loadSpspps.loadUnit
        rw [dif_neg hrefused]
        cases htype : u.type <;> first | rfl | (rw [htype] at hset; exact absurd rfl hset)
      · unfold acceptsUnit
        rw [Bool.eq_false_iff.mpr hset, Bool.false_and]

theorem slot_foldl_loadUnit (units : List NalUnit) (self : StreamState) (kind : NalUnitType) :
    slot (units.foldl loadSpspps.loadUnit self) kind = lastAccepted kind (slot self kind) units := by
  induction units generalizing self with
  | nil => rfl
  | cons u units ih =>
    rw [List.foldl_cons, ih, slot_loadUnit, ← lastAccepted_append]
    rfl

/-! ## The law -/

/-- What holds of an instance and its file. -/
structure CacheLaw (c : CacheFile) : Prop where
  vps : c.self.vps.bytes.length ≤ spsppsBufSz
  sps : c.self.sps.bytes.length ≤ spsppsBufSz
  pps : c.self.pps.bytes.length ≤ spsppsBufSz
  /-- A refused set in a file changes nothing where it comes up. -/
  loaded : ∀ self u, u.len = 0 ∨ u.len > spsppsBufSz → loadSpspps.loadUnit self u = self
  /-- A refused set in a delivery changes nothing where it comes up. -/
  refused : ∀ arrival frame, ∀ m ∈ deliveryMoments c.self arrival frame,
    m.2.len = 0 ∨ m.2.len > spsppsBufSz → ∀ updated, cacheParameterSet m.1 m.2 updated = (m.1, updated)
  coherent : ∀ arrival frame, c.Coherent → (c.step (.deliver arrival frame)).Coherent
  rewritten : ∀ arrival frame, (frameCallback c.self arrival frame).stored.isSome = true ↔
    ∃ m ∈ deliveryMoments c.self arrival frame, Differs m
  key : ∀ arrival frame key bytes, (frameCallback c.self arrival frame).stored = some (key, bytes) →
    key = spsppsKeySnapshot c.self

theorem CacheFile.coherent_deliver {c : CacheFile} (h : c.Coherent) (arrival : Arrival) (frame : Option (List Byte)) :
    (c.step (.deliver arrival frame)).Coherent := by
  obtain ⟨hwritten, hkept⟩ := frameCallback_stored c.self arrival frame
  unfold CacheFile.Coherent CacheFile.step
  by_cases hdiffers : ∃ m ∈ deliveryMoments c.self arrival frame, Differs m
  · simp only [hwritten hdiffers]
    rfl
  · push Not at hdiffers
    obtain ⟨hnone, hsame⟩ := hkept hdiffers
    simp only [hnone]
    exact h.trans hsame.stored.symm

/-- **The cache behind any run** of loads and deliveries: the lengths are bounded, refused sets change nothing, and
a file that holds the cached sets in front of a delivery does so behind it, and is rewritten exactly where a set of
the delivery differs from what is cached at that moment. -/
theorem cache_law (c : CacheFile) (events : List CacheEvent) : CacheLaw (events.foldl CacheFile.step c) := by
  generalize events.foldl CacheFile.step c = c
  refine ⟨c.self.vps.fits, c.self.sps.fits, c.self.pps.fits, fun _ _ h => loadUnit_refused h,
    fun _ _ m _ h updated => cacheParameterSet_refused h updated, fun arrival frame h => CacheFile.coherent_deliver h arrival frame,
    fun arrival frame => ?_, fun arrival frame key bytes hstored => ?_⟩
  · obtain ⟨hwritten, hkept⟩ := frameCallback_stored c.self arrival frame
    refine ⟨fun hsome => ?_, fun hdiffers => by rw [hwritten hdiffers]; rfl⟩
    by_contra hnone
    push Not at hnone
    rw [(hkept hnone).1] at hsome
    exact absurd hsome Bool.false_ne_true
  · obtain ⟨hwritten, hkept⟩ := frameCallback_stored c.self arrival frame
    by_cases hdiffers : ∃ m ∈ deliveryMoments c.self arrival frame, Differs m
    · rw [hwritten hdiffers] at hstored
      exact (Prod.mk.inj (Option.some.inj hstored)).1.symm
    · push Not at hdiffers
      rw [(hkept hdiffers).1] at hstored
      cases hstored

end LibuvcH264Src
