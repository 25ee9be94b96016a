import LibuvcH264Src.Session

/-!
# Timestamps and offsets over a session

* `Tagged` : a buffer with the arrival of its delivery and whether its access unit has a slice;
* `sessionTagged` : the buffers of a list of deliveries, which are those that are pushed (`map_buf_sessionTagged`);
* `Stamps prev offset l end` : the buffers `l` continue the stamps and the offsets (`sessionTagged_stamps`);
* `dueStamp` : the recurrence of the stamps, as numbers;
* `session_stamps` : what all buffers behind a start carry.
-/

namespace LibuvcH264Src
open AnnexB

/-! ## The buffers and where they come from -/

structure Delivery where
  arrival : Arrival
  data : Option (List Byte)
  deriving DecidableEq

def Delivery.event (d : Delivery) : SessionEvent := .delivery d.arrival d.data

/-- A buffer, the arrival of its delivery, and whether it is timed: its access unit has a slice. -/
structure Tagged where
  arrival : Arrival
  timed : Bool
  buf : GstBuffer
  deriving DecidableEq

/-- The running time at which the delivery arrived. -/
def Tagged.runningTime (t : Tagged) : Nat := t.arrival.now.toNat - t.arrival.elementBaseTime.toNat

def tagAus (arrival : Arrival) (ts : UInt64) : StreamState → List (List NalUnit) → List Tagged
  | _, [] => []
  | self, au :: aus =>
    ((auStep ts self au).2.map fun buf => ⟨arrival, hasSlice au, buf⟩).toList ++
      tagAus arrival ts (auStep ts self au).1 aus

/-- The buffers of one delivery. -/
def deliveryTagged (self : StreamState) (d : Delivery) : List Tagged :=
  match acceptsFrame d.data, snapshotClock self with
  | some data, some snapshot =>
    let latched := latchBaseTime self snapshot d.arrival.elementBaseTime
    tagAus d.arrival (d.arrival.now - latched.2) latched.1 (deliveryAccessUnits self.frameFormat data)
  | _, _ => []

def sessionTagged : StreamState → List Delivery → List Tagged
  | _, [] => []
  | self, d :: ds => deliveryTagged self d ++ sessionTagged (frameCallback self d.arrival d.data).self ds

theorem map_buf_tagAus (arrival : Arrival) (ts : UInt64) (aus : List (List NalUnit)) (self : StreamState) :
    (tagAus arrival ts self aus).map Tagged.buf = (auRun ts self aus).reduceOption := by
  induction aus generalizing self with
  | nil => rfl
  | cons au aus ih =>
    unfold tagAus auRun
    rw [List.map_append, ih]
    cases (auStep ts self au).2 <;> rfl

/-- They are what the callback pushes. -/
theorem map_buf_deliveryTagged (self : StreamState) (d : Delivery) :
    (deliveryTagged self d).map Tagged.buf = (frameCallback self d.arrival d.data).pushed := by
  unfold deliveryTagged frameCallback
  cases acceptsFrame d.data with
  | none => rfl
  | some data =>
    cases snapshotClock self with
    | none => rfl
    | some snapshot =>
      simp only []
      rw [map_buf_tagAus, foldl_deliverAu, List.nil_append]

theorem map_buf_sessionTagged (self : StreamState) (ds : List Delivery) :
    (sessionTagged self ds).map Tagged.buf = (runSession self (ds.map Delivery.event)).2 := by
  induction ds generalizing self with
  | nil => rfl
  | cons d ds ih =>
    unfold sessionTagged
    rw [List.map_append, ih, map_buf_deliveryTagged]
    rfl

theorem mem_tagAus {arrival : Arrival} {ts : UInt64} {aus : List (List NalUnit)} {self : StreamState} {t : Tagged}
    (h : t ∈ tagAus arrival ts self aus) : t.arrival = arrival := by
  induction aus generalizing self with
  | nil => exact absurd h List.not_mem_nil
  | cons au aus ih =>
    unfold tagAus at h
    rcases List.mem_append.mp h with h | h
    · obtain ⟨buf, -, rfl⟩ := Option.map_eq_some_iff.mp (Option.mem_toList.mp h)
      rfl
    · exact ih h

theorem mem_sessionTagged {self : StreamState} {ds : List Delivery} {t : Tagged} (h : t ∈ sessionTagged self ds) :
    ∃ d ∈ ds, d.arrival = t.arrival := by
  induction ds generalizing self with
  | nil => exact absurd h List.not_mem_nil
  | cons d ds ih =>
    unfold sessionTagged at h
    rcases List.mem_append.mp h with h | h
    · unfold deliveryTagged at h
      split at h
      · exact ⟨d, List.mem_cons_self, (mem_tagAus h).symm⟩
      · exact absurd h List.not_mem_nil
    · obtain ⟨d', hd', harrival⟩ := ih h
      exact ⟨d', List.mem_cons_of_mem d hd', harrival⟩

/-! ## Stamps and offsets -/

/-- The buffer carries the stamp behind `prev`, if it is timed, and the offset `next`. -/
structure Stamped (prev next : UInt64) (t : Tagged) : Prop where
  pts : t.buf.pts = if t.timed then nextPts prev (t.arrival.now - t.arrival.elementBaseTime) else clockTimeNone
  dts : t.buf.dts = t.buf.pts
  offset : t.buf.offset = next
  offsetEnd : t.buf.offsetEnd = next + 1

/-- The buffers continue the stamps behind `prev` and the offsets from `next` on, up to those of `stop`. -/
def Stamps (prev next : UInt64) : List Tagged → UInt64 × UInt64 → Prop
  | [], stop => stop = (prev, next)
  | t :: l, stop => Stamped prev next t ∧ Stamps (if t.timed then t.buf.pts else prev) (next + 1) l stop

theorem Stamps.append {prev next : UInt64} {l l' : List Tagged} {mid stop : UInt64 × UInt64}
    (h : Stamps prev next l mid) (h' : Stamps mid.1 mid.2 l' stop) : Stamps prev next (l ++ l') stop := by
  induction l generalizing prev next with
  | nil =>
    obtain rfl : mid = (prev, next) := h
    exact h'
  | cons t l ih => exact ⟨h.1, ih h.2⟩

/-- What the stamps and the offsets go on from. -/
def StreamState.counters (self : StreamState) : UInt64 × UInt64 := (self.prevPts, self.frameOffset)

theorem Latched.counters {s s' : StreamState} {units : List NalUnit} (h : Latched s units s') :
    s'.counters = s.counters := by
  rw [h.rest]
  rfl

theorem auStep_stamps (arrival : Arrival) (self : StreamState) (au : List NalUnit) :
    Stamps self.prevPts self.frameOffset
      ((auStep (arrival.now - arrival.elementBaseTime) self au).2.map fun buf => ⟨arrival, hasSlice au, buf⟩).toList
      (auStep (arrival.now - arrival.elementBaseTime) self au).1.counters := by
  have hlatched := (latchSets_latched au self false).counters
  obtain ⟨hprev, hoffset⟩ := Prod.mk.inj hlatched
  unfold auStep
  simp only []
  split_ifs
  · exact hlatched
  · cases hasSlice au with
    | false => exact ⟨⟨rfl, rfl, hoffset, congrArg (· + 1) hoffset⟩, Prod.ext hprev (congrArg (· + 1) hoffset)⟩
    | true =>
      refine ⟨⟨?_, rfl, hoffset, congrArg (· + 1) hoffset⟩, Prod.ext rfl (congrArg (· + 1) hoffset)⟩
      show nextPts (latchSets self false au).1.prevPts _ = nextPts self.prevPts _
      rw [hprev]

theorem tagAus_stamps (arrival : Arrival) (aus : List (List NalUnit)) (w : Walk) :
    Stamps w.self.prevPts w.self.frameOffset (tagAus arrival (arrival.now - arrival.elementBaseTime) w.self aus)
      (aus.foldl (deliverAu (arrival.now - arrival.elementBaseTime)) w).self.counters := by
  induction aus generalizing w with
  | nil => rfl
  | cons au aus ih =>
    have hself := (deliverAu_step (arrival.now - arrival.elementBaseTime) w au).1
    have hrest := ih (deliverAu (arrival.now - arrival.elementBaseTime) w au)
    unfold tagAus
    rw [List.foldl_cons]
    refine (auStep_stamps arrival w.self au).append ?_
    rw [← hself]
    exact hrest

/-- The base time is the element's, or is about to be taken from it. -/
def BasedOn (base : UInt64) (self : StreamState) : Prop := self.baseTime = clockTimeNone ∨ self.baseTime = base

theorem deliverAu_baseTime (ts : UInt64) (w : Walk) (au : List NalUnit) :
    (deliverAu ts w au).self.baseTime = w.self.baseTime := by
  have hlatched : (latchSets w.self w.updated au).1.baseTime = w.self.baseTime := by
    rw [(latchSets_latched au w.self w.updated).rest]
  rw [deliverAu_eq]
  simp only []
  split_ifs
  · exact hlatched
  · cases hasSlice au with
    | false => exact hlatched
    | true => exact hlatched

theorem foldl_deliverAu_baseTime (ts : UInt64) (aus : List (List NalUnit)) (w : Walk) :
    (aus.foldl (deliverAu ts) w).self.baseTime = w.self.baseTime := by
  induction aus generalizing w with
  | nil => rfl
  | cons au aus ih => rw [List.foldl_cons, ih, deliverAu_baseTime]

theorem BasedOn.latch {base : UInt64} {self : StreamState} (h : BasedOn base self) :
    (latchBaseTime self self.baseTime base).1.baseTime = base ∧ (latchBaseTime self self.baseTime base).2 = base ∧
      (latchBaseTime self self.baseTime base).1.counters = self.counters := by
  unfold latchBaseTime
  split_ifs with hnone
  · exact ⟨rfl, rfl, rfl⟩
  · have hbase := h.resolve_left hnone
    exact ⟨hbase, hbase, rfl⟩

/-- A delivery continues the stamps and the offsets, and stays with the base time. -/
theorem deliveryTagged_stamps {self : StreamState} {d : Delivery} (h : BasedOn d.arrival.elementBaseTime self) :
    Stamps self.prevPts self.frameOffset (deliveryTagged self d) (frameCallback self d.arrival d.data).self.counters ∧
      BasedOn d.arrival.elementBaseTime (frameCallback self d.arrival d.data).self := by
  unfold deliveryTagged frameCallback
  cases acceptsFrame d.data with
  | none => exact ⟨rfl, h⟩
  | some data =>
    unfold snapshotClock
    cases self.clock with
    | false => exact ⟨rfl, h⟩
    | true =>
      simp only [if_true]
      obtain ⟨hbase, hlatched, hcounters⟩ := h.latch
      obtain ⟨hprev, hoffset⟩ := Prod.mk.inj hcounters
      generalize hwalk : (⟨(latchBaseTime self self.baseTime d.arrival.elementBaseTime).1, false, []⟩ : Walk) = w
      have hself : (latchBaseTime self self.baseTime d.arrival.elementBaseTime).1 = w.self := by rw [← hwalk]
      rw [hself] at hbase hprev hoffset
      rw [hlatched, hself, ← hprev, ← hoffset]
      refine ⟨tagAus_stamps d.arrival _ w, Or.inr ?_⟩
      rw [foldl_deliverAu_baseTime]
      exact hbase

/-- **A session** continues the stamps and the offsets, as long as nothing assigns the base time. -/
theorem sessionTagged_stamps {base : UInt64} {ds : List Delivery} (hds : ∀ d ∈ ds, d.arrival.elementBaseTime = base)
    {self : StreamState} (h : BasedOn base self) :
    ∃ stop, Stamps self.prevPts self.frameOffset (sessionTagged self ds) stop := by
  induction ds generalizing self with
  | nil => exact ⟨_, rfl⟩
  | cons d ds ih =>
    rw [List.forall_mem_cons] at hds
    obtain ⟨hd, hds⟩ := hds
    rw [← hd] at h hds ih
    obtain ⟨hstamps, hbased⟩ := deliveryTagged_stamps h
    obtain ⟨stop, hrest⟩ := ih hds hbased
    exact ⟨stop, hstamps.append hrest⟩

/-! ## The recurrence -/

/-- The stamp at running time `ts` behind the stamp `prev`, if there is one. -/
def dueStamp (prev : Option Nat) (ts : Nat) : Nat :=
  match prev with
  | none => ts
  | some p => if p < ts then ts else p + 1

/-- The offsets are consecutive. -/
theorem Stamps.offset {prev next : UInt64} {l : List Tagged} {stop : UInt64 × UInt64} (h : Stamps prev next l stop)
    {i : Nat} {t : Tagged} (ht : l[i]? = some t) :
    t.buf.offset = next + UInt64.ofNat i ∧ t.buf.offsetEnd = t.buf.offset + 1 := by
  induction l generalizing prev next i with
  | nil => cases ht
  | cons u l ih =>
    cases i with
    | zero =>
      obtain rfl := Option.some.inj ht
      refine ⟨?_, by rw [h.1.offset]; exact h.1.offsetEnd⟩
      rw [h.1.offset]
      exact (UInt64.add_zero next).symm
    | succ i =>
      obtain ⟨hoffset, hend⟩ := ih h.2 ht
      refine ⟨?_, hend⟩
      rw [hoffset, UInt64.ofNat_add, UInt64.add_comm (UInt64.ofNat i), ← UInt64.add_assoc]
      rfl

theorem Stamps.buffers {prev next : UInt64} {l : List Tagged} {stop : UInt64 × UInt64} (h : Stamps prev next l stop) :
    ∀ t ∈ l, t.buf.dts = t.buf.pts ∧ (t.timed = false → t.buf.pts = clockTimeNone) := by
  induction l generalizing prev next with
  | nil => exact fun t ht => absurd ht List.not_mem_nil
  | cons u l ih =>
    rw [List.forall_mem_cons]
    refine ⟨⟨h.1.dts, fun huntimed => ?_⟩, ih h.2⟩
    rw [h.1.pts, huntimed]
    rfl

/-- A timed buffer carries the stamp behind the timed one in front of it. -/
theorem Stamps.pts {prev next : UInt64} {l : List Tagged} {stop : UInt64 × UInt64} (h : Stamps prev next l stop)
    {n : Nat} {t : Tagged} (ht : (l.filter Tagged.timed)[n]? = some t) :
    t.buf.pts = nextPts ((((l.filter Tagged.timed).take n).getLast?.map fun s => s.buf.pts).getD prev)
      (t.arrival.now - t.arrival.elementBaseTime) := by
  induction l generalizing prev next n with
  | nil => cases ht
  | cons u l ih =>
    cases htimed : u.timed with
    | false =>
      rw [List.filter_cons_of_neg (by rw [htimed]; decide)] at ht ⊢
      have hrest := h.2
      rw [htimed] at hrest
      exact ih hrest ht
    | true =>
      rw [List.filter_cons_of_pos htimed] at ht ⊢
      cases n with
      | zero =>
        obtain rfl := Option.some.inj ht
        have hpts := h.1.pts
        rw [htimed] at hpts
        exact hpts
      | succ n =>
        have hrest := h.2
        rw [htimed] at hrest
        have hpts := ih hrest ht
        rw [hpts, List.take_succ_cons, List.getLast?_cons]
        cases ((l.filter Tagged.timed).take n).getLast? <;> rfl

/-- As numbers, as long as the stamp in front is not the sentinel. -/
theorem toNat_nextPts {prev : UInt64} (h : prev ≠ clockTimeNone) (ts : UInt64) :
    (nextPts prev ts).toNat = dueStamp (some prev.toNat) ts.toNat := by
  unfold nextPts dueStamp
  by_cases hle : ts ≤ prev
  · have hlt : prev.toNat < clockTimeNone.toNat := by
      have hne : prev.toNat ≠ clockTimeNone.toNat := fun heq => h (UInt64.toNat_inj.mp heq)
      have hmax := prev.toNat_lt
      have hnone : clockTimeNone.toNat = 2 ^ 64 - 1 := rfl
      omega
    have hnone : clockTimeNone.toNat = 2 ^ 64 - 1 := rfl
    have hle' := UInt64.le_iff_toNat_le.mp hle
    rw [if_pos ⟨h, hle⟩]
    simp only []
    rw [if_neg (by omega), UInt64.toNat_add, UInt64.toNat_one]
    omega
  · have hlt : prev.toNat < ts.toNat := Nat.lt_of_not_le fun hnat => hle (UInt64.le_iff_toNat_le.mpr hnat)
    rw [if_neg fun hboth => hle hboth.2]
    simp only []
    rw [if_pos hlt]

theorem le_dueStamp (prev : Option Nat) (ts : Nat) : ts ≤ dueStamp prev ts := by
  cases prev with
  | none => exact le_refl ts
  | some p =>
    unfold dueStamp
    simp only []
    split_ifs <;> omega

theorem lt_dueStamp (p ts : Nat) : p < dueStamp (some p) ts := by
  unfold dueStamp
  simp only []
  split_ifs <;> omega

/-- Without overflow the running time of the callback is that of the buffer. -/
theorem toNat_runningTime {t : Tagged} (h : t.arrival.elementBaseTime ≤ t.arrival.now) :
    (t.arrival.now - t.arrival.elementBaseTime).toNat = t.runningTime := UInt64.toNat_sub_of_le _ _ h

section Timed
variable {l : List Tagged} {next : UInt64} {stop : UInt64 × UInt64}

theorem Stamps.recurrence (h : Stamps clockTimeNone next l stop)
    (harrivals : ∀ t ∈ l, t.arrival.elementBaseTime ≤ t.arrival.now) {n : Nat} {t : Tagged}
    (ht : (l.filter Tagged.timed)[n]? = some t)
    (hbefore : ∀ s ∈ (l.filter Tagged.timed).take n, s.buf.pts ≠ clockTimeNone) :
    t.buf.pts.toNat =
      dueStamp (((l.filter Tagged.timed).take n).getLast?.map fun s => s.buf.pts.toNat) t.runningTime := by
  have htime := toNat_runningTime (harrivals t (List.mem_filter.mp (List.mem_of_getElem? ht)).1)
  rw [h.pts ht]
  cases hlast : ((l.filter Tagged.timed).take n).getLast? with
  | none => exact htime
  | some s =>
    have hstamp := toNat_nextPts (hbefore s (List.mem_of_getLast? hlast))
      (t.arrival.now - t.arrival.elementBaseTime)
    rw [htime] at hstamp
    exact hstamp

/-- Up to the sentinel the stamps increase. -/
theorem Stamps.increasing (h : Stamps clockTimeNone next l stop)
    (harrivals : ∀ t ∈ l, t.arrival.elementBaseTime ≤ t.arrival.now) {n : Nat} {t : Tagged}
    (ht : (l.filter Tagged.timed)[n]? = some t)
    (hbefore : ∀ s ∈ (l.filter Tagged.timed).take n, s.buf.pts ≠ clockTimeNone) :
    ∀ s ∈ (l.filter Tagged.timed).take n, s.buf.pts < t.buf.pts := by
  induction n generalizing t with
  | zero => exact fun s hs => absurd hs List.not_mem_nil
  | succ n ih =>
    obtain ⟨u, hu⟩ : ∃ u, (l.filter Tagged.timed)[n]? = some u := by
      obtain ⟨hlt, -⟩ := List.getElem?_eq_some_iff.mp ht
      exact ⟨_, List.getElem?_eq_getElem (by omega)⟩
    have htake : (l.filter Tagged.timed).take (n + 1) = (l.filter Tagged.timed).take n ++ [u] := by
      rw [List.take_add_one, hu]
      rfl
    have hstamp := h.recurrence harrivals ht hbefore
    rw [htake, List.getLast?_concat] at hstamp
    have hlt : u.buf.pts < t.buf.pts := by
      rw [UInt64.lt_iff_toNat_lt, hstamp]
      exact lt_dueStamp _ _
    rw [htake] at hbefore ⊢
    intro s hs
    rcases List.mem_append.mp hs with hs | hs
    · exact UInt64.lt_trans (ih hu (fun r hr => hbefore r (List.mem_append_left _ hr)) s hs) hlt
    · rw [List.mem_singleton.mp hs]
      exact hlt

end Timed

/-- **Timestamps and offsets behind a start**: the buffers are those that the callback pushes; DTS is PTS, untimed
buffers have none, the offsets count all buffers from 0 on; and up to the first stamp that is `GST_CLOCK_TIME_NONE` the
stamps follow the recurrence, increase and are not early. -/
theorem session_stamps (self : StreamState) (base : UInt64) (ds : List Delivery)
    (hds : ∀ d ∈ ds, d.arrival.elementBaseTime = base ∧ base ≤ d.arrival.now) :
    let l := sessionTagged (resetStream self) ds
    let timed := l.filter Tagged.timed
    l.map Tagged.buf = (runSession (resetStream self) (ds.map Delivery.event)).2 ∧
      (∀ t ∈ l, t.buf.dts = t.buf.pts ∧ (t.timed = false → t.buf.pts = clockTimeNone)) ∧
      (∀ i t, l[i]? = some t → t.buf.offset = UInt64.ofNat i ∧ t.buf.offsetEnd = t.buf.offset + 1) ∧
      ∀ n t, timed[n]? = some t → (∀ s ∈ timed.take n, s.buf.pts ≠ clockTimeNone) →
        t.buf.pts.toNat = dueStamp ((timed.take n).getLast?.map fun s => s.buf.pts.toNat) t.runningTime ∧
          (∀ s ∈ timed.take n, s.buf.pts < t.buf.pts) ∧ t.runningTime ≤ t.buf.pts.toNat := by
  intro l timed
  obtain ⟨stop, hstamps⟩ := sessionTagged_stamps (fun d hd => (hds d hd).1)
    (show BasedOn base (resetStream self) from Or.inl rfl)
  have harrivals : ∀ t ∈ l, t.arrival.elementBaseTime ≤ t.arrival.now := by
    intro t ht
    obtain ⟨d, hd, harrival⟩ := mem_sessionTagged ht
    obtain ⟨hbase, hnow⟩ := hds d hd
    rw [← harrival, hbase]
    exact hnow
  refine ⟨map_buf_sessionTagged _ ds, hstamps.buffers, fun i t ht => ?_, fun n t ht hbefore => ?_⟩
  · obtain ⟨hoffset, hend⟩ := hstamps.offset ht
    exact ⟨hoffset.trans (UInt64.zero_add _), hend⟩
  · have hstamp := Stamps.recurrence hstamps harrivals ht hbefore
    refine ⟨hstamp, Stamps.increasing hstamps harrivals ht hbefore, ?_⟩
    rw [hstamp]
    exact le_dueStamp _ _

/-- A keyframe with its sets and two more pictures in one delivery. -/
def threePictures : List Byte :=
  [0, 0, 0, 1, 0x67, 0x42, 0, 0, 0, 1, 0x68, 0xCE, 0, 0, 0, 1, 0x65, 0x88, 0, 0, 0, 1, 0x09, 0xF0, 0, 0, 0, 1, 0x41, 0x9A,
    0, 0, 0, 1, 0x09, 0xF0, 0, 0, 0, 1, 0x41, 0x9A]

def h264Session : StreamState := { StreamState.init with frameFormat := .h264, clock := true }

/-- Two such deliveries, one tick after the other. -/
def twoDeliveries : List Delivery := [⟨⟨150, 100⟩, some threePictures⟩, ⟨⟨151, 100⟩, some threePictures⟩]

theorem session_stamps_two :
    ∃ t, ((sessionTagged (resetStream h264Session) twoDeliveries).filter Tagged.timed)[3]? = some t ∧
      t.runningTime = 51 ∧ t.buf.pts.toNat = dueStamp (some 52) 51 := by
  obtain ⟨-, -, -, hstamps⟩ := session_stamps h264Session 100 twoDeliveries (by decide)
  have hbuffer : (((sessionTagged (resetStream h264Session) twoDeliveries).filter Tagged.timed)[3]?).map
      Tagged.runningTime = some 51 := by decide +kernel
  have hlast : (((sessionTagged (resetStream h264Session) twoDeliveries).filter Tagged.timed).take 3).getLast?.map
      (fun s => s.buf.pts.toNat) = some 52 := by decide +kernel
  obtain ⟨t, ht, htime⟩ := Option.map_eq_some_iff.mp hbuffer
  have hdue := (hstamps 3 t ht (by decide +kernel)).1
  rw [hlast, htime] at hdue
  exact ⟨t, ht, htime, hdue⟩

/-- A clamped stamp becomes the sentinel, and the next one goes back to the running time. -/
theorem not_stamped :
    ¬ ∀ (self : StreamState) (base : UInt64) (ds : List Delivery),
      (∀ d ∈ ds, d.arrival.elementBaseTime = base ∧ base ≤ d.arrival.now ∧ d.arrival.now < clockTimeNone) →
      let timed := (sessionTagged (resetStream self) ds).filter Tagged.timed
      ∀ n t, timed[n]? = some t →
        t.buf.pts.toNat = dueStamp ((timed.take n).getLast?.map fun s => s.buf.pts.toNat) t.runningTime := by
  intro h
  have hstamps := h h264Session 0 [⟨⟨0xFFFFFFFFFFFFFFFE, 0⟩, some threePictures⟩] (by decide) 2
  have hbuffer : (((sessionTagged (resetStream h264Session) [⟨⟨0xFFFFFFFFFFFFFFFE, 0⟩, some threePictures⟩]).filter
      Tagged.timed)[2]?).map (fun t => (t.runningTime, t.buf.pts.toNat)) =
      some (18446744073709551614, 18446744073709551614) := by decide +kernel
  have hlast : ((((sessionTagged (resetStream h264Session) [⟨⟨0xFFFFFFFFFFFFFFFE, 0⟩, some threePictures⟩]).filter
      Tagged.timed).take 2).getLast?).map (fun s => s.buf.pts.toNat) = some 18446744073709551615 := by decide +kernel
  obtain ⟨t, ht, heq⟩ := Option.map_eq_some_iff.mp hbuffer
  obtain ⟨htime, hpts⟩ := Prod.mk.inj heq
  have hdue := hstamps t ht
  simp only [hlast] at hdue
  rw [hpts, htime] at hdue
  exact absurd hdue (by decide)

end LibuvcH264Src
