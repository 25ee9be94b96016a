import LibuvcH264Src.CacheRoundTrip
import LibuvcH264Src.Runs

/-!
# Whose mode the inserted sets belong to

* `deliveryInsertions` : the sets that `frame_callback` puts into its buffers (`insertedSets_eq`);
* `heldKinds` : the kinds of which a delivery has sets go in before it has brought one;
* `Sourced`, `Sourced.step` : an instance with what came in since `start`, what was loaded under which key, and the
  starts, deliveries and loads so far;
* `ModeMatched` : the sets of the last delivery came in since `start`, or were loaded under the key of the mode, or are
  the defaults of H.264;
* `Refreshed`, `mode_matched` : the deliveries in front of which each kind that is held was brought last in this session
  or under the key of the mode, and what holds where all of them are such.
-/

namespace LibuvcH264Src
open AnnexB Runs

/-! ## What a delivery inserts -/

/-- The sets that the second pass over an access unit puts in front of its IDR slice. -/
def auInsertions (self : StreamState) (au : List NalUnit) : List (NalUnitType × List Byte) :=
  let s := (latchSets self false au).1
  if !dropsAu s au && insertsSets s au then (setKinds s.frameFormat).map fun kind => (kind, slot s kind) else []

/-- The sets of one delivery in order. -/
def insertions (ts : UInt64) : StreamState → List (List NalUnit) → List (NalUnitType × List Byte)
  | _, [] => []
  | self, au :: aus => auInsertions self au ++ insertions ts (auStep ts self au).1 aus

/-- The state and the running time that the walk over a delivery begins with. -/
def walkStart (self : StreamState) (arrival : Arrival) : StreamState × UInt64 :=
  let latched := latchBaseTime self self.baseTime arrival.elementBaseTime
  (latched.1, arrival.now - latched.2)

def deliveryInsertions (self : StreamState) (arrival : Arrival) (data : Option (List Byte)) :
    List (NalUnitType × List Byte) :=
  let start := walkStart self arrival
  insertions start.2 start.1 (eventAus self (.delivery arrival data))

/-- A set of the kind is among the units, and is not refused. -/
def bringsKind (kind : NalUnitType) (units : List NalUnit) : Bool := units.any fun u => u.type = kind && acceptsUnit u

/-- Access unit `j` of a delivery has an IDR slice, and sets are due: it is the first of its stream, or one was accepted
that did not go in. -/
def setsDue (self : StreamState) (aus : List (List NalUnit)) (j : Nat) : Bool :=
  hasIdr (aus.getD j []) && (!self.hadIdr || self.sendSpsPps || (aus.take (j + 1)).any acceptsSet)

/-- The kinds of which the delivery has brought no set where they go in. -/
def heldKinds (self : StreamState) (aus : List (List NalUnit)) : List NalUnitType :=
  (setKinds self.frameFormat).filter fun kind =>
    (List.range aus.length).any fun j => setsDue self aus j && !bringsKind kind (aus.take (j + 1)).flatten

theorem cachedSets_slots (self : StreamState) : cachedSets self = (setKinds self.frameFormat).flatMap (slot self) := by
  unfold cachedSets setKinds
  split_ifs <;> simp [slot]

/-- What goes into the buffer of an access unit that is not dropped are these sets. -/
theorem insertedSets_eq {self : StreamState} {au : List NalUnit} (h : dropsAu (latchSets self false au).1 au = false) :
    insertedSets (latchSets self false au).1 au = (auInsertions self au).flatMap Prod.snd := by
  unfold insertedSets auInsertions
  simp only [h, Bool.not_false, Bool.true_and]
  split_ifs with hinserts
  · rw [List.flatMap_map]
    exact cachedSets_slots _
  · rfl

theorem auStep_buffer {ts : UInt64} {self : StreamState} {au : List NalUnit} {buf : GstBuffer}
    (h : (auStep ts self au).2 = some buf) :
    buf.data = (assemble ((auInsertions self au).flatMap Prod.snd) au).map some := by
  unfold auStep at h
  simp only [] at h
  by_cases hdrops : dropsAu (latchSets self false au).1 au = true
  · rw [if_pos hdrops] at h
    cases h
  · rw [if_neg hdrops] at h
    rw [← insertedSets_eq (Bool.eq_false_iff.mpr hdrops), ← Option.some.inj h]
    rfl

theorem auRun_buffer {ts : UInt64} {aus : List (List NalUnit)} {self : StreamState} {buf : GstBuffer}
    (h : some buf ∈ auRun ts self aus) :
    ∃ au ∈ aus, ∃ sets, sets ⊆ insertions ts self aus ∧ buf.data = (assemble (sets.flatMap Prod.snd) au).map some := by
  induction aus generalizing self with
  | nil => exact absurd h List.not_mem_nil
  | cons au aus ih =>
    unfold insertions
    rcases List.mem_cons.mp h with hfirst | hrest
    · exact ⟨au, List.mem_cons_self, auInsertions self au, List.subset_append_left _ _, auStep_buffer hfirst.symm⟩
    · obtain ⟨au', hau', sets, hsets, hdata⟩ := ih hrest
      exact ⟨au', List.mem_cons_of_mem _ hau', sets, fun _ hset => List.mem_append_right _ (hsets hset), hdata⟩

/-- **Every buffer** of a delivery is an access unit with some of these sets in front of its IDR slice. -/
theorem frameCallback_buffer {self : StreamState} {arrival : Arrival} {data : Option (List Byte)} {buf : GstBuffer}
    (h : buf ∈ (frameCallback self arrival data).pushed) :
    ∃ au ∈ eventAus self (.delivery arrival data), ∃ sets, sets ⊆ deliveryInsertions self arrival data ∧
      buf.data = (assemble (sets.flatMap Prod.snd) au).map some := by
  unfold frameCallback snapshotClock at h
  unfold deliveryInsertions walkStart eventAus
  simp only []
  cases hframe : acceptsFrame data with
  | none =>
    rw [hframe] at h
    exact absurd h List.not_mem_nil
  | some bytes =>
    cases hclock : self.clock with
    | false =>
      rw [hframe, hclock] at h
      exact absurd h List.not_mem_nil
    | true =>
      rw [hframe, hclock] at h
      simp only [if_true] at h ⊢
      rw [foldl_deliverAu, List.nil_append, List.reduceOption_mem_iff] at h
      exact auRun_buffer h

/-! ## Where the inserted sets come from -/

section Insertions
variable {self : StreamState} {au : List NalUnit} {set : NalUnitType × List Byte}

theorem slot_latchSets (self : StreamState) (au : List NalUnit) (kind : NalUnitType) :
    slot (latchSets self false au).1 kind = lastAccepted kind (slot self kind) au :=
  (latchSets_latched au self false).slot kind

theorem mem_auInsertions (h : set ∈ auInsertions self au) : set.2 = lastAccepted set.1 (slot self set.1) au := by
  unfold auInsertions at h
  simp only [] at h
  split_ifs at h
  · obtain ⟨kind, -, rfl⟩ := List.mem_map.mp h
    exact slot_latchSets self au kind
  · exact absurd h List.not_mem_nil

theorem auInsertions_due (h : set ∈ auInsertions self au) :
    set.1 ∈ setKinds self.frameFormat ∧ hasIdr au = true ∧
      (self.hadIdr = false ∨ self.sendSpsPps = true ∨ acceptsSet au = true) := by
  have hlatched := latchSets_latched au self false
  unfold auInsertions at h
  simp only [] at h
  split_ifs at h with hinserts
  · obtain ⟨kind, hkind, rfl⟩ := List.mem_map.mp h
    rw [Bool.and_eq_true] at hinserts
    obtain ⟨hidr, hdue⟩ := Bool.and_eq_true_iff.mp hinserts.2
    rw [Bool.or_eq_true, Bool.not_eq_true', hlatched.send, Bool.or_eq_true] at hdue
    rw [hlatched.rest] at hkind hdue
    exact ⟨hkind, hidr, hdue⟩
  · exact absurd h List.not_mem_nil

/-- What the walk over one access unit leaves of the gate and of the sets that are due. -/
theorem auStep_gate (ts : UInt64) (self : StreamState) (au : List NalUnit) :
    (self.hadIdr = true → (auStep ts self au).1.hadIdr = true) ∧
      ((auStep ts self au).1.sendSpsPps = true → self.sendSpsPps = true ∨ acceptsSet au = true) ∧
      (auStep ts self au).1.frameFormat = self.frameFormat := by
  have hlatched := latchSets_latched au self false
  have hhad : (latchSets self false au).1.hadIdr = self.hadIdr := by rw [hlatched.rest]
  have hformat : (latchSets self false au).1.frameFormat = self.frameFormat := by rw [hlatched.rest]
  have hsend := hlatched.send
  unfold auStep
  by_cases hdrops : dropsAu (latchSets self false au).1 au = true
  · simp only [if_pos hdrops]
    rw [hhad, hsend, hformat, Bool.or_eq_true]
    exact ⟨id, id, rfl⟩
  · simp only [if_neg hdrops]
    have hpush : ∀ (s : StreamState) (slice : Bool) (mem : List (Option Byte)), (pushAu s ts slice mem).1.hadIdr = s.hadIdr ∧
        (pushAu s ts slice mem).1.sendSpsPps = s.sendSpsPps ∧ (pushAu s ts slice mem).1.frameFormat = s.frameFormat := by
      intro s slice mem
      cases slice <;> exact ⟨rfl, rfl, rfl⟩
    obtain ⟨hhad', hsend', hformat'⟩ := hpush (afterFill (latchSets self false au).1 au) (hasSlice au)
      ((assemble (insertedSets (latchSets self false au).1 au) au).map some)
    rw [hhad', hsend', hformat']
    unfold afterFill
    rw [hhad, hsend]
    refine ⟨fun h => ?_, fun h => ?_, hformat⟩
    · rw [h, Bool.true_or]
    · exact Bool.or_eq_true_iff.mp (Bool.and_eq_true_iff.mp h).1

/-- What is known in front of an access unit; `seen` are those of the delivery that are done. -/
structure InWalk (s : StreamState) (seen : List (List NalUnit)) (s' : StreamState) : Prop where
  slots : ∀ kind, slot s' kind = lastAccepted kind (slot s kind) seen.flatten
  had : s.hadIdr = true → s'.hadIdr = true
  send : s'.sendSpsPps = true → s.sendSpsPps = true ∨ seen.any acceptsSet = true
  format : s'.frameFormat = s.frameFormat

theorem InWalk.step {s : StreamState} {seen : List (List NalUnit)} (h : InWalk s seen self) (ts : UInt64)
    (au : List NalUnit) : InWalk s (seen ++ [au]) (auStep ts self au).1 := by
  obtain ⟨hhad, hsend, hformat⟩ := auStep_gate ts self au
  refine ⟨fun kind => ?_, fun hs => hhad (h.had hs), fun hs => ?_, hformat.trans h.format⟩
  · rw [(auStep_same ts self au).slot kind, slot_latchSets, h.slots, List.flatten_append, List.flatten_singleton,
      lastAccepted_append]
  · rw [List.any_append, List.any_cons, List.any_nil, Bool.or_false, Bool.or_eq_true, ← or_assoc]
    rcases hsend hs with hself | haccepts
    · exact Or.inl (h.send hself)
    · exact Or.inr haccepts

/-- A set that goes in is one that the delivery has brought, or the one that was cached in front of it. -/
theorem mem_insertions {ts : UInt64} {s : StreamState} {seen aus : List (List NalUnit)} (hwalk : InWalk s seen self)
    (h : set ∈ insertions ts self aus) :
    (∃ u ∈ (seen ++ aus).flatten, u.type = set.1 ∧ acceptsUnit u = true ∧ u.data = set.2) ∨
      set.1 ∈ heldKinds s (seen ++ aus) ∧ set.2 = slot s set.1 := by
  induction aus generalizing self seen with
  | nil => exact absurd h List.not_mem_nil
  | cons au aus ih =>
    unfold insertions at h
    rcases List.mem_append.mp h with hfirst | hrest
    · have hset := mem_auInsertions hfirst
      obtain ⟨hkind, hidr, hdue⟩ := auInsertions_due hfirst
      rw [hwalk.slots, ← lastAccepted_append] at hset
      have hprefix : (seen ++ au :: aus).take (seen.length + 1) = seen ++ [au] := by
        rw [List.take_append, List.take_of_length_le (by omega), Nat.add_sub_cancel_left]
        rfl
      rcases lastAccepted_cases set.1 (slot s set.1) (seen.flatten ++ au) with
        ⟨hsame, hnone⟩ | ⟨u, hu, htype, haccepted, hdata⟩
      · refine Or.inr ⟨List.mem_filter.mpr ⟨hwalk.format ▸ hkind, ?_⟩, hset.trans hsame⟩
        refine List.any_eq_true.mpr ⟨seen.length, List.mem_range.mpr (by simp), ?_⟩
        rw [Bool.and_eq_true, Bool.not_eq_true', hprefix, List.flatten_append, List.flatten_singleton]
        constructor
        · have hau : (seen ++ au :: aus).getD seen.length [] = au := by simp
          unfold setsDue
          rw [hau, hprefix, hidr, Bool.true_and, List.any_append, List.any_cons, List.any_nil, Bool.or_false,
            Bool.or_eq_true, Bool.or_eq_true, Bool.or_eq_true, Bool.not_eq_true']
          rcases hdue with hhad | hsend | haccepts
          · refine Or.inl (Or.inl (Bool.eq_false_of_not_eq_true fun hs => ?_))
            rw [hwalk.had hs] at hhad
            cases hhad
          · rcases hwalk.send hsend with hs | hseen
            · exact Or.inl (Or.inr hs)
            · exact Or.inr (Or.inl hseen)
          · exact Or.inr (Or.inr haccepts)
        · unfold bringsKind
          rw [Bool.eq_false_iff, Ne, List.any_eq_true]
          intro ⟨u, hu, haccepted⟩
          rw [Bool.and_eq_true] at haccepted
          exact hnone u hu ⟨of_decide_eq_true haccepted.1, haccepted.2⟩
      · refine Or.inl ⟨u, ?_, htype, haccepted, hdata.trans hset.symm⟩
        rw [List.flatten_append, List.flatten_cons, ← List.append_assoc]
        exact List.mem_append_left _ hu
    · have hlater := ih (hwalk.step ts au) hrest
      rw [List.append_assoc] at hlater
      exact hlater

theorem mem_deliveryInsertions {arrival : Arrival} {data : Option (List Byte)}
    (h : set ∈ deliveryInsertions self arrival data) :
    (∃ u ∈ deliveredUnits self arrival data, u.type = set.1 ∧ acceptsUnit u = true ∧ u.data = set.2) ∨
      set.1 ∈ heldKinds self (eventAus self (.delivery arrival data)) ∧ set.2 = slot self set.1 := by
  have hwalk : InWalk self [] (walkStart self arrival).1 := by
    unfold walkStart latchBaseTime
    split_ifs <;> exact ⟨fun kind => by cases kind <;> rfl, id, Or.inl, rfl⟩
  exact mem_insertions hwalk h

end Insertions

/-! ## The system -/

/-- What has an effect on the sets: a `start`, the units of a delivery, and those of a file that was loaded under a
key. -/
inductive Arrived where
  | start
  | delivered (units : List NalUnit)
  | loaded (key : SpsppsKey) (units : List NalUnit)

def Arrived.units : Arrived → List NalUnit
  | .start => []
  | .delivered units | .loaded _ units => units

def Arrived.isStart : Arrived → Bool
  | .start => true
  | _ => false

/-- An instance with what is known of its sets. `past` has the newest entry first, `negotiated` is the key of the last
negotiation, `received` is since the last `start`, and `inserted` is of the last step. -/
structure Sourced where
  self : StreamState
  streaming : Bool
  past : List Arrived
  negotiated : Option SpsppsKey
  received : List (NalUnitType × List Byte)
  loaded : List (SpsppsKey × NalUnitType × List Byte)
  inserted : List (NalUnitType × List Byte)

def Sourced.init : Sourced := ⟨.init, false, [], none, [], [], []⟩

inductive SourcedEvent where
  | setIndex (value : Option (List Byte))
  | setClock (clock : Bool)
  | changeState (transition : StateChange)
  /-- `stop`, or the end of streaming in front of a reconnect. -/
  | halt
  | start
  /-- `uvc_start_streaming`. -/
  | stream
  /-- The resets of `reopen_once`. -/
  | rearm
  /-- `negotiate` writes `frame_format`. -/
  | mode (format : FrameFormat)
  /-- `negotiate` writes the resolution and the interval. -/
  | resolution (width height interval : Int)
  /-- `load_spspps` at the end of `negotiate`, from a file with these bytes. -/
  | load (file : Option (List Byte))
  /-- `frame_callback`. -/
  | frame (arrival : Arrival) (data : Option (List Byte))

def acceptedSets (units : List NalUnit) : List (NalUnitType × List Byte) :=
  (units.filter acceptsUnit).map fun u => (u.type, u.data)

/-- `self` without deliveries or loads. -/
def Sourced.quiet (t : Sourced) (self : StreamState) : Sourced := { t with self := self, inserted := [] }

def Sourced.load (t : Sourced) (key : SpsppsKey) (bytes : List Byte) : Sourced :=
  let units := parseNalUnits t.self.frameFormat 3 (bytes.take (spsppsBufSz * 3))
  { t with
    self := loadBytes t.self bytes
    past := .loaded key units :: t.past
    negotiated := some key
    loaded := (acceptedSets units).map (fun set => (key, set)) ++ t.loaded
    inserted := [] }

def Sourced.deliver (t : Sourced) (arrival : Arrival) (data : Option (List Byte)) : Sourced :=
  let units := deliveredUnits t.self arrival data
  { t with
    self := (frameCallback t.self arrival data).self
    past := .delivered units :: t.past
    received := acceptedSets units ++ t.received
    inserted := deliveryInsertions t.self arrival data }

def Sourced.step (t : Sourced) : SourcedEvent → Option Sourced
  | .setIndex value => some (t.quiet { t.self with index := value })
  | .setClock clock => some (t.quiet (setClock t.self clock))
  | .changeState transition => some (t.quiet (changeState t.self transition))
  | .halt => some { t.quiet t.self with streaming := false }
  | .start =>
    if t.streaming then none
    else some { t.quiet (resetStream t.self) with past := .start :: t.past, received := [] }
  | .stream => some { t.quiet t.self with streaming := true }
  | .rearm => if t.streaming then none else some (t.quiet (rearmStream t.self))
  | .mode format => some (t.quiet { t.self with frameFormat := format })
  | .resolution width height interval =>
    some (t.quiet { t.self with negotiatedWidth := width, negotiatedHeight := height, frameInterval := interval })
  | .load file => some (t.load (spsppsKeySnapshot t.self) (file.getD []))
  | .frame arrival data => if t.streaming then some (t.deliver arrival data) else none

/-! ## The property -/

/-- A set that goes into a buffer came from the device since the last `start`, or from the file of the negotiated
index, codec and resolution, or is the default of `init`, with H.264. -/
def Matches (t : Sourced) (set : NalUnitType × List Byte) : Prop :=
  set ∈ t.received ∨ (∃ key, t.negotiated = some key ∧ (key, set) ∈ t.loaded) ∨
    t.self.frameFormat = .h264 ∧ set.2 = slot .init set.1

def ModeMatched (t : Sourced) : Prop := ∀ set ∈ t.inserted, set.2 ≠ [] → Matches t set

/-- The last entry that brought a set of the kind, and whether the element was started since. -/
def lastBringing (kind : NalUnitType) : List Arrived → Option (Arrived × Bool)
  | [] => none
  | e :: past =>
    if bringsKind kind e.units then some (e, false)
    else (lastBringing kind past).map fun r => (r.1, r.2 || e.isStart)

/-- The kind was brought last by a delivery since the last `start`, or by a file that was loaded under the key of the last
negotiation, or never, where `init` has H.264 sets and no VPS. -/
def BroughtFor (t : Sourced) (kind : NalUnitType) : Prop :=
  match lastBringing kind t.past with
  | none => t.self.frameFormat = .h264 ∨ kind = .vps
  | some (.loaded key _, _) => t.negotiated = some key
  | some (_, restarted) => restarted = false

/-- Each kind of which a delivery has sets go in before it has brought one was brought for its session or mode. -/
def Refreshed (t : Sourced) : SourcedEvent → Prop
  | .frame arrival data => ∀ kind ∈ heldKinds t.self (eventAus t.self (.delivery arrival data)), BroughtFor t kind
  | _ => True

instance (t : Sourced) (kind : NalUnitType) : Decidable (BroughtFor t kind) := by
  unfold BroughtFor
  split <;> infer_instance

instance (t : Sourced) (e : SourcedEvent) : Decidable (Refreshed t e) :=
  match e with
  | .frame _ _ => inferInstanceAs (Decidable (∀ _ ∈ _, _))
  | .setIndex _ | .setClock _ | .changeState _ | .halt | .start | .stream | .rearm | .mode _ | .resolution _ _ _
  | .load _ => isTrue trivial

/-! ## One step -/

/-- The set in a slot is one of the last entry that brought its kind. -/
def Backs (t : Sourced) (kind : NalUnitType) : Prop :=
  match lastBringing kind t.past with
  | none => slot t.self kind = slot .init kind
  | some (.loaded key _, _) => (key, kind, slot t.self kind) ∈ t.loaded
  | some (_, restarted) => restarted = false → (kind, slot t.self kind) ∈ t.received

theorem mem_acceptedSets {units : List NalUnit} {u : NalUnit} (hu : u ∈ units) (haccepted : acceptsUnit u = true) :
    (u.type, u.data) ∈ acceptedSets units := List.mem_map.mpr ⟨u, List.mem_filter.mpr ⟨hu, haccepted⟩, rfl⟩

/-- A slot behind units: with one of them, or as it was. -/
theorem slot_cases {units : List NalUnit} {self self' : StreamState} {kind : NalUnitType}
    (hslot : slot self' kind = lastAccepted kind (slot self kind) units) :
    (bringsKind kind units = true ∧ (kind, slot self' kind) ∈ acceptedSets units) ∨
      bringsKind kind units = false ∧ slot self' kind = slot self kind := by
  unfold bringsKind
  rw [hslot]
  rcases lastAccepted_cases kind (slot self kind) units with ⟨hsame, hnone⟩ | ⟨u, hu, rfl, haccepted, hdata⟩
  · refine Or.inr ⟨Bool.eq_false_of_not_eq_true fun hany => ?_, hsame⟩
    obtain ⟨u, hu, hboth⟩ := List.any_eq_true.mp hany
    rw [Bool.and_eq_true] at hboth
    exact hnone u hu ⟨of_decide_eq_true hboth.1, hboth.2⟩
  · refine Or.inl ⟨List.any_eq_true.mpr ⟨u, hu, ?_⟩, ?_⟩
    · rw [haccepted, decide_eq_true rfl, Bool.and_true]
    · rw [← hdata]
      exact mem_acceptedSets hu haccepted

/-- An entry that brings none of the kind. -/
theorem Backs.kept {t t' : Sourced} {kind : NalUnitType} (h : Backs t kind) {e : Arrived} (hpast : t'.past = e :: t.past)
    (hbrings : bringsKind kind e.units = false) (hslot : slot t'.self kind = slot t.self kind)
    (hreceived : e.isStart = false → t.received ⊆ t'.received) (hloaded : t.loaded ⊆ t'.loaded) : Backs t' kind := by
  unfold Backs at h ⊢
  rw [hpast, lastBringing, hbrings, if_neg (by decide), hslot]
  cases hlast : lastBringing kind t.past with
  | none =>
    rw [hlast] at h
    exact h
  | some r =>
    obtain ⟨entry, restarted⟩ := r
    rw [hlast] at h
    cases entry with
    | loaded key units => exact hloaded h
    | start | delivered =>
      intro hsince
      obtain ⟨hrestarted, hstart⟩ := Bool.or_eq_false_iff.mp hsince
      exact hreceived hstart (h hrestarted)

def Backed (t : Sourced) : Prop := ∀ kind, Backs t kind

theorem Backed.load {t : Sourced} (h : Backed t) (key : SpsppsKey) (bytes : List Byte) : Backed (t.load key bytes) := by
  intro kind
  have hslot := slot_foldl_loadUnit (parseNalUnits t.self.frameFormat 3 (bytes.take (spsppsBufSz * 3))) t.self kind
  rcases slot_cases hslot with ⟨hbrings, hset⟩ | ⟨hnone, hsame⟩
  · have hlast : lastBringing kind (t.load key bytes).past = some (.loaded key _, false) := if_pos hbrings
    unfold Backs
    rw [hlast]
    exact List.mem_append_left _ (List.mem_map_of_mem hset)
  · exact (h kind).kept rfl hnone hsame (fun _ _ hset => hset) fun _ hset => List.mem_append_right _ hset

theorem Backed.deliver {t : Sourced} (h : Backed t) (arrival : Arrival) (data : Option (List Byte)) :
    Backed (t.deliver arrival data) := by
  intro kind
  have hslot := slot_frameCallback t.self arrival data kind
  rcases slot_cases hslot with ⟨hbrings, hset⟩ | ⟨hnone, hsame⟩
  · have hlast : lastBringing kind (t.deliver arrival data).past = some (.delivered _, false) := if_pos hbrings
    unfold Backs
    rw [hlast]
    exact fun _ => List.mem_append_left _ hset
  · exact (h kind).kept rfl hnone hsame (fun _ _ hset => List.mem_append_right _ hset) fun _ hset => hset

/-- What is set from outside leaves the slots. -/
theorem Backed.quiet {t t' : Sourced} (h : Backed t) (hslot : ∀ kind, slot t'.self kind = slot t.self kind)
    (hpast : t'.past = t.past) (hreceived : t'.received = t.received) (hloaded : t'.loaded = t.loaded) : Backed t' := by
  intro kind
  have hkind := h kind
  unfold Backs at hkind ⊢
  rw [hpast, hslot, hreceived, hloaded]
  exact hkind

/-- What a step can do: nothing to the sets, a new session, a load, or a delivery. -/
theorem Sourced.step_cases {t t' : Sourced} {e : SourcedEvent} (h : t.step e = some t') :
    (t'.inserted = [] ∧ (∀ kind, slot t'.self kind = slot t.self kind) ∧ t'.loaded = t.loaded ∧
        (t'.past = t.past ∧ t'.received = t.received ∨ t'.past = .start :: t.past)) ∨
      (∃ key bytes, t' = t.load key bytes) ∨
      ∃ arrival data, e = .frame arrival data ∧ t' = t.deliver arrival data := by
  cases e with
  | setIndex | halt | stream | mode | resolution =>
    obtain rfl := Option.some.inj h
    exact Or.inl ⟨rfl, fun kind => by cases kind <;> rfl, rfl, Or.inl ⟨rfl, rfl⟩⟩
  | setClock clock =>
    obtain rfl := Option.some.inj h
    exact Or.inl ⟨rfl, fun kind => by cases clock <;> cases kind <;> rfl, rfl, Or.inl ⟨rfl, rfl⟩⟩
  | changeState transition =>
    obtain rfl := Option.some.inj h
    exact Or.inl ⟨rfl, fun kind => by cases transition <;> cases kind <;> rfl, rfl, Or.inl ⟨rfl, rfl⟩⟩
  | start =>
    simp only [Sourced.step] at h
    split_ifs at h
    obtain rfl := Option.some.inj h
    exact Or.inl ⟨rfl, fun kind => by cases kind <;> rfl, rfl, Or.inr rfl⟩
  | rearm =>
    simp only [Sourced.step] at h
    split_ifs at h
    obtain rfl := Option.some.inj h
    exact Or.inl ⟨rfl, fun kind => by cases kind <;> rfl, rfl, Or.inl ⟨rfl, rfl⟩⟩
  | load file =>
    obtain rfl := Option.some.inj h
    exact Or.inr (Or.inl ⟨spsppsKeySnapshot t.self, file.getD [], rfl⟩)
  | frame arrival data =>
    simp only [Sourced.step] at h
    split_ifs at h
    obtain rfl := Option.some.inj h
    exact Or.inr (Or.inr ⟨arrival, data, rfl, rfl⟩)

/-- What was brought for the session or the mode matches. -/
theorem BroughtFor.matches {t : Sourced} {kind : NalUnitType} (h : BroughtFor t kind) (hbacked : Backed t)
    (hne : slot t.self kind ≠ []) : Matches t (kind, slot t.self kind) := by
  have hkind := hbacked kind
  unfold BroughtFor at h
  unfold Backs at hkind
  cases hlast : lastBringing kind t.past with
  | none =>
    rw [hlast] at h hkind
    rcases h with hformat | rfl
    · exact Or.inr (Or.inr ⟨hformat, hkind⟩)
    · exact absurd hkind hne
  | some r =>
    obtain ⟨entry, restarted⟩ := r
    rw [hlast] at h hkind
    cases entry with
    | loaded key units => exact Or.inr (Or.inl ⟨key, h, hkind⟩)
    | start | delivered => exact Or.inl (hkind h)

theorem Matches.deliver {t : Sourced} {set : NalUnitType × List Byte} (h : Matches t set) (arrival : Arrival)
    (data : Option (List Byte)) : Matches (t.deliver arrival data) set := by
  rcases h with hreceived | hloaded | ⟨hformat, hdefault⟩
  · exact Or.inl (List.mem_append_right _ hreceived)
  · exact Or.inr (Or.inl hloaded)
  · have hkept : (frameCallback t.self arrival data).self.frameFormat = t.self.frameFormat :=
      congrArg Prod.fst (frameCallback_media t.self arrival data)
    exact Or.inr (Or.inr ⟨hkept.trans hformat, hdefault⟩)

/-- What is known of a state: the slots are backed, and the sets of the last delivery match. -/
structure MatchedState (t : Sourced) : Prop where
  backed : Backed t
  matched : ModeMatched t

theorem MatchedState.step {t t' : Sourced} {e : SourcedEvent} (h : MatchedState t) (hrefreshed : Refreshed t e)
    (hstep : t.step e = some t') : MatchedState t' := by
  rcases Sourced.step_cases hstep with
    ⟨hinserted, hslot, hloaded, hpast⟩ | ⟨key, bytes, rfl⟩ | ⟨arrival, data, rfl, rfl⟩
  · refine ⟨?_, fun set hset => ?_⟩
    · rcases hpast with ⟨hpast, hreceived⟩ | hpast
      · exact h.backed.quiet hslot hpast hreceived hloaded
      · intro kind
        exact (h.backed kind).kept hpast rfl (hslot kind) nofun (by rw [hloaded]; exact fun _ hset => hset)
    · rw [hinserted] at hset
      exact absurd hset List.not_mem_nil
  · exact ⟨h.backed.load key bytes, fun set hset => absurd hset List.not_mem_nil⟩
  · refine ⟨h.backed.deliver arrival data, fun set hset hne => ?_⟩
    rcases mem_deliveryInsertions hset with ⟨u, hu, htype, haccepted, hdata⟩ | ⟨hheld, hsame⟩
    · have hset := mem_acceptedSets hu haccepted
      rw [htype, hdata] at hset
      exact Or.inl (List.mem_append_left _ hset)
    · rw [hsame] at hne
      have hmatches := (hrefreshed set.1 hheld).matches h.backed hne
      rw [← hsame] at hmatches
      exact hmatches.deliver arrival data

/-! ## Every run -/

theorem MatchedState.init : MatchedState .init where
  backed := fun _ => rfl
  matched := fun _ hset => absurd hset List.not_mem_nil

/-- **The sets match the mode** in a run whose deliveries insert what they brought themselves, and otherwise only kinds
that were brought last in the session, or under the key of the negotiated mode, or, with H.264, never. -/
theorem mode_matched (events : List SourcedEvent) (t : Sourced) (hrefreshed : Along Sourced.step Refreshed .init events)
    (hrun : run Sourced.step .init events = some t) : ModeMatched t :=
  (run_invariant Sourced.step (fun _ _ _ hI hP hstep => MatchedState.step hI hP hstep) MatchedState.init hrefreshed
    hrun).matched

/-- A session with a mode whose file is not there, up to the start of streaming. -/
def sessionOf (format : FrameFormat) (width height : Int) : List SourcedEvent :=
  [.start, .mode format, .resolution width height 33333333, .load none, .stream]

/-- H.264 without sets of its own, as the defaults serve. -/
def defaultSession : List SourcedEvent :=
  .setClock true :: sessionOf .h264 1920 1080 ++ [.frame ⟨10, 0⟩ (some [0, 0, 0, 1, 0x65, 0x88])]

/-- A session in one resolution, and one in another that begins with a keyframe of which the sets are still to come. -/
def resolutionChanged : List SourcedEvent :=
  .setClock true :: sessionOf .h264 1920 1080 ++
    [.frame ⟨10, 0⟩ (some [0, 0, 0, 1, 0x67, 0x42, 0, 0, 0, 1, 0x68, 0xCE, 0, 0, 0, 1, 0x65, 0x88]), .halt] ++
    sessionOf .h264 1280 720 ++ [.frame ⟨20, 0⟩ (some [0, 0, 0, 1, 0x65, 0x88])]

theorem mode_matched_default : ∃ t, run Sourced.step .init defaultSession = some t ∧ t.inserted.length = 2 ∧
    ModeMatched t := by
  have hinserted : (run Sourced.step .init defaultSession).map (fun t => t.inserted.length) = some 2 := by
    decide +kernel
  obtain ⟨t, hrun, hlength⟩ := Option.map_eq_some_iff.mp hinserted
  exact ⟨t, hrun, hlength, mode_matched defaultSession t (by decide +kernel) hrun⟩

theorem not_mode_matched : ¬ ∀ (events : List SourcedEvent) (t : Sourced),
    run Sourced.step .init events = some t → ModeMatched t := by
  intro h
  have hseen : (run Sourced.step .init resolutionChanged).map (fun t =>
      (t.inserted.head?, t.received.isEmpty, t.loaded.isEmpty)) =
      some (some (NalUnitType.sps, [0, 0, 0, 1, 0x67, 0x42]), true, true) := by decide +kernel
  obtain ⟨t, hrun, hseen⟩ := Option.map_eq_some_iff.mp hseen
  obtain ⟨hinserted, hrest⟩ := Prod.mk.inj hseen
  obtain ⟨hreceived, hloaded⟩ := Prod.mk.inj hrest
  rcases h resolutionChanged t hrun _ (List.mem_of_mem_head? hinserted) (List.cons_ne_nil _ _) with hset | ⟨key, -, hset⟩ |
    ⟨-, hdefault⟩
  · rw [List.isEmpty_iff.mp hreceived] at hset
    exact List.not_mem_nil hset
  · rw [List.isEmpty_iff.mp hloaded] at hset
    exact List.not_mem_nil hset
  · exact absurd hdefault (by decide)

end LibuvcH264Src
