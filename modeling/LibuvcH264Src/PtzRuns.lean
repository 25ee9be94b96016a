import LibuvcH264Src.PtzControl
import LibuvcH264Src.Runs

/-!
# Runs of probe, reopen and PTZ sets

* `PtzSystem.step` : the probe in its two parts, the handle closed and reopened, calls that pass or fail the check in front of
  the lock, and their transfers in any order;
* `Consistent` : the cached half of a pan and tilt transfer is where the device stands;
* `Faithful` : the probe reads the position of an axis that it leaves to be re-sent, a reopened device stands where it stood,
  and no set is between its check and its transfer when a probe starts;
* `ptz_axes_law` : what the sets of a run do, `not_ptz_axes_law` : a probe without a position.
-/

namespace LibuvcH264Src
open Runs

/-! ## The probe -/

/-- What the reads of a probe return. A read of the current position returns it, or fails. -/
structure ProbeReads where
  panTiltMin : Option (Int × Int)
  panTiltMax : Option (Int × Int)
  panTiltRes : Bool
  panTiltCur : Bool
  zoomMin : Option UInt16
  zoomMax : Option UInt16
  zoomRes : Bool
  zoomCur : Bool

/-- The ranges of pan and tilt, if all of their reads succeed. -/
def ProbeReads.panTilt (r : ProbeReads) : Option ((Int × Int) × (Int × Int)) :=
  match r.panTiltMin, r.panTiltMax, r.panTiltRes with
  | some min, some max, true => some (min, max)
  | _, _, _ => none

def ProbeReads.zoom (r : ProbeReads) : Option (UInt16 × UInt16) :=
  match r.zoomMin, r.zoomMax, r.zoomRes with
  | some min, some max, true => some (min, max)
  | _, _, _ => none

def AxisState.off : AxisState := ⟨false, 0, 0, 0⟩

/-- The reset in front of the lock. -/
def Ptz.probeReset (s : Ptz) : Ptz := { s with pan := .off, tilt := .off, zoom := .off }

def Ptz.probePanTilt (s : Ptz) (r : ProbeReads) : Ptz :=
  match r.panTilt with
  | none => s
  | some ((panMin, tiltMin), (panMax, tiltMax)) =>
    let s := if panMin < panMax then { s with pan := { s.pan with supported := true, min := panMin, max := panMax } } else s
    let s := if tiltMin < tiltMax then { s with tilt := { s.tilt with supported := true, min := tiltMin, max := tiltMax } } else s
    if r.panTiltCur then
      { s with pan := { s.pan with cur := s.device.pan }, tilt := { s.tilt with cur := s.device.tilt } }
    else s

def Ptz.probeZoom (s : Ptz) (r : ProbeReads) : Ptz :=
  match r.zoom with
  | none => s
  | some (min, max) =>
    if min < max then
      let s := { s with zoom := { s.zoom with supported := true, min := min.toNat, max := max.toNat } }
      if r.zoomCur then { s with zoom := { s.zoom with cur := s.device.zoom } } else s
    else s

/-- What the probe does under `control_mutex`. -/
def Ptz.probeLocked (s : Ptz) (r : ProbeReads) : Ptz := (s.probePanTilt r).probeZoom r

/-! ## The system -/

/-- The element with its sets between check and transfer, and those that succeeded since the last probe, newest first. -/
structure PtzSystem where
  ptz : Ptz
  probing : Bool
  pending : List (Axis × Int)
  done : List (Axis × Int)

inductive PtzEvent where
  | probe
  | probeReads (r : ProbeReads)
  | close
  /-- The device stands at `pos` when it is open again. -/
  | reopen (pos : Position)
  | call (axis : Axis) (value : Int)
  /-- The locked part of a set that is pending. -/
  | transfer (k : Nat) (ok : Bool)

namespace PtzSystem

def clamped (s : PtzSystem) (axis : Axis) (value : Int) : Int :=
  ptzClamp value (s.ptz.axis axis).min (s.ptz.axis axis).max

def step (s : PtzSystem) : PtzEvent → Option PtzSystem
  | .probe => if s.probing then none else some { s with ptz := s.ptz.probeReset, probing := true, done := [] }
  | .probeReads r =>
    if !s.probing then none
    else some { s with ptz := if s.ptz.handle then s.ptz.probeLocked r else s.ptz, probing := false }
  | .close => some { s with ptz := { s.ptz with handle := false } }
  | .reopen pos => if s.ptz.handle then none else some { s with ptz := { s.ptz with handle := true, device := pos } }
  | .call axis value => some (if s.ptz.gate axis then { s with pending := s.pending ++ [(axis, value)] } else s)
  | .transfer k ok =>
    match s.pending[k]? with
    | none => none
    | some (axis, value) =>
      if !s.ptz.handle then none
      else some { s with
        ptz := (s.ptz.setLocked axis value ok).2
        pending := s.pending.eraseIdx k
        done := if ok then (axis, s.clamped axis value) :: s.done else s.done }

/-- Before the first probe. -/
structure Fresh (s : PtzSystem) : Prop where
  off : ∀ axis, (s.ptz.axis axis).supported = false
  probing : s.probing = false
  pending : s.pending = []
  done : s.done = []

end PtzSystem

def Position.axis (d : Position) : Axis → Int
  | .pan => d.pan
  | .tilt => d.tilt
  | .zoom => d.zoom

/-- The value that a transfer has for an axis. -/
def Transfer.component : Transfer → Axis → Option Int
  | .panTilt p _, .pan => some p
  | .panTilt _ t, .tilt => some t
  | .zoom z, .zoom => some z
  | _, _ => none

/-- The last successful set of an axis. -/
def lastSet (done : List (Axis × Int)) (axis : Axis) : Option Int := (done.find? fun c => c.1 = axis).map Prod.snd

theorem lastSet_cons (axis : Axis) (value : Int) (done : List (Axis × Int)) (other : Axis) :
    lastSet ((axis, value) :: done) other = if axis = other then some value else lastSet done other := by
  by_cases h : axis = other <;> simp [lastSet, h]

/-! ## The law -/

/-- A gated set changes nothing. A transfer has a value in the range of its axis; it leaves the other axes of the device alone,
and where it fails it leaves all of the device and of the cached positions. -/
def AxisLaw (s : PtzSystem) (e : PtzEvent) (s' : PtzSystem) : Prop :=
  match e with
  | .call axis _ => s.ptz.gate axis = false → s' = s
  | .transfer k ok => ∀ axis value, s.pending[k]? = some (axis, value) →
      (∃ t v, s'.ptz.sent = s.ptz.sent ++ [(t, ok)] ∧ t.component axis = some v ∧ (s.ptz.axis axis).min ≤ v ∧
        v ≤ (s.ptz.axis axis).max) ∧
      (∀ other, other ≠ axis → s'.ptz.device.axis other = s.ptz.device.axis other) ∧
      (ok = false → s'.ptz.device = s.ptz.device ∧ ∀ other, (s'.ptz.axis other).cur = (s.ptz.axis other).cur)
  | _ => True

/-- The device holds the last pan and the last tilt since the last probe. Nothing is said of those before it. -/
def HoldsLast (s : PtzSystem) : Prop :=
  (∀ v, lastSet s.done .pan = some v → s.ptz.device.pan = v) ∧ ∀ v, lastSet s.done .tilt = some v → s.ptz.device.tilt = v

/-- The probe enables pan. -/
def ProbeReads.EnablesPan (r : ProbeReads) : Prop := ∃ min max, r.panTilt = some (min, max) ∧ min.1 < max.1

def ProbeReads.EnablesTilt (r : ProbeReads) : Prop := ∃ min max, r.panTilt = some (min, max) ∧ min.2 < max.2

/-- What keeps the cached positions true: a probe starts when no set is behind its check; it reads the position of the axis that
the sets of the other one re-send, or finds that axis at 0; a reopened device stands where it stood. -/
def Faithful (s : PtzSystem) : PtzEvent → Prop
  | .probe => s.pending = []
  | .probeReads r => s.ptz.handle = true →
      (r.EnablesPan → r.panTiltCur = true ∨ s.ptz.device.tilt = 0) ∧
      (r.EnablesTilt → r.panTiltCur = true ∨ s.ptz.device.pan = 0)
  | .reopen pos => s.ptz.pan.supported = true ∨ s.ptz.tilt.supported = true →
      pos.pan = s.ptz.device.pan ∧ pos.tilt = s.ptz.device.tilt
  | _ => True

/-! ## The invariant -/

structure Consistent (s : PtzSystem) : Prop where
  tilt : s.ptz.pan.supported = true → s.ptz.tilt.cur = s.ptz.device.tilt
  pan : s.ptz.tilt.supported = true → s.ptz.pan.cur = s.ptz.device.pan
  range : ∀ axis, (s.ptz.axis axis).supported = true → (s.ptz.axis axis).min ≤ (s.ptz.axis axis).max
  zoom : s.ptz.zoom.supported = true → 0 ≤ s.ptz.zoom.min ∧ s.ptz.zoom.max < 65536
  pending : ∀ c ∈ s.pending, (s.ptz.axis c.1).supported = true
  done : ∀ c ∈ s.done, (s.ptz.axis c.1).supported = true
  probing : s.probing = true → (∀ axis, s.ptz.axis axis = .off) ∧ s.pending = [] ∧ s.done = []
  last : HoldsLast s

theorem PtzSystem.Fresh.consistent {s : PtzSystem} (h : s.Fresh) : Consistent s where
  tilt hp := absurd hp (by simpa using h.off .pan)
  pan ht := absurd ht (by simpa using h.off .tilt)
  range axis hs := absurd hs (by simp [h.off axis])
  zoom hz := absurd hz (by simpa using h.off .zoom)
  pending := by simp [h.pending]
  done := by simp [h.done]
  probing hp := absurd hp (by simp [h.probing])
  last := by simp [HoldsLast, h.done, lastSet]

/-! ## Steps -/

section Steps
variable {s s' : PtzSystem}

theorem consistent_probe (hp : s.pending = []) (hs : s.step .probe = some s') : Consistent s' := by
  simp only [PtzSystem.step] at hs
  split at hs
  · cases hs
  · obtain rfl := Option.some.inj hs
    have hoff : ∀ axis, s.ptz.probeReset.axis axis = .off := fun axis => by cases axis <;> rfl
    exact {
      tilt := fun h => by cases h
      pan := fun h => by cases h
      range := fun axis h => by rw [hoff]; exact le_rfl
      zoom := fun h => by cases h
      pending := fun c hc => by simp [hp] at hc
      done := fun c hc => by cases hc
      probing := fun _ => ⟨hoff, hp, rfl⟩
      last := by simp [HoldsLast, lastSet] }

/-- A step that leaves the axes, and the device where they are supported; a set may become pending for an axis that is. -/
theorem Consistent.around (h : Consistent s) (haxis : ∀ axis, s'.ptz.axis axis = s.ptz.axis axis)
    (hdevice : s.ptz.pan.supported = true ∨ s.ptz.tilt.supported = true →
      s'.ptz.device.pan = s.ptz.device.pan ∧ s'.ptz.device.tilt = s.ptz.device.tilt)
    (hpending : ∀ c ∈ s'.pending, c ∈ s.pending ∨ (s.ptz.axis c.1).supported = true)
    (hprobing : s'.probing = s.probing) (hdone : s'.done = s.done) : Consistent s' := by
  have hpan : s'.ptz.pan = s.ptz.pan := haxis .pan
  have htilt : s'.ptz.tilt = s.ptz.tilt := haxis .tilt
  have hzoom : s'.ptz.zoom = s.ptz.zoom := haxis .zoom
  have hmoved : ∀ axis v, lastSet s.done axis = some v → (s.ptz.axis axis).supported = true := by
    intro axis v hv
    obtain ⟨c, hc, -⟩ := Option.map_eq_some_iff.mp hv
    have haxis : c.1 = axis := by simpa using List.find?_some hc
    rw [← haxis]
    exact h.done c (List.mem_of_find?_eq_some hc)
  constructor
  · rw [hpan, htilt]
    exact fun hs => (h.tilt hs).trans (hdevice (.inl hs)).2.symm
  · rw [hpan, htilt]
    exact fun hs => (h.pan hs).trans (hdevice (.inr hs)).1.symm
  · intro axis
    rw [haxis]
    exact h.range axis
  · rw [hzoom]
    exact h.zoom
  · intro c hc
    rw [haxis]
    rcases hpending c hc with hold | hnew
    · exact h.pending c hold
    · exact hnew
  · intro c hc
    rw [haxis]
    exact h.done c (hdone ▸ hc)
  · intro hp
    obtain ⟨hoff, hnone, hdone'⟩ := h.probing (hprobing ▸ hp)
    refine ⟨fun axis => (haxis axis).trans (hoff axis), ?_, hdone.trans hdone'⟩
    apply List.eq_nil_iff_forall_not_mem.mpr
    intro c hc
    rcases hpending c hc with hold | hnew
    · rw [hnone] at hold
      cases hold
    · rw [hoff] at hnew
      cases hnew
  · refine ⟨fun v hv => ?_, fun v hv => ?_⟩
    · rw [hdone] at hv
      rw [(hdevice (.inl (hmoved .pan v hv))).1]
      exact h.last.1 v hv
    · rw [hdone] at hv
      rw [(hdevice (.inr (hmoved .tilt v hv))).2]
      exact h.last.2 v hv

theorem Consistent.close (h : Consistent s) (hs : s.step .close = some s') : Consistent s' := by
  obtain rfl := Option.some.inj hs
  exact h.around (fun axis => by cases axis <;> rfl) (fun _ => ⟨rfl, rfl⟩) (fun _ hc => .inl hc) rfl rfl

theorem Consistent.reopen {pos : Position} (h : Consistent s) (hf : Faithful s (.reopen pos))
    (hs : s.step (.reopen pos) = some s') : Consistent s' := by
  simp only [PtzSystem.step] at hs
  split at hs
  · cases hs
  · obtain rfl := Option.some.inj hs
    exact h.around (fun axis => by cases axis <;> rfl) hf (fun _ hc => .inl hc) rfl rfl

theorem Consistent.call {axis : Axis} {value : Int} (h : Consistent s) (hs : s.step (.call axis value) = some s') :
    Consistent s' := by
  obtain rfl := Option.some.inj hs
  split
  · next hgate =>
    have hsupported : (s.ptz.axis axis).supported = true := (Bool.and_eq_true_iff.mp hgate).2
    refine h.around (fun _ => rfl) (fun _ => ⟨rfl, rfl⟩) (fun c hc => ?_) rfl rfl
    rcases List.mem_append.mp hc with hold | hnew
    · exact .inl hold
    · obtain rfl := List.mem_singleton.mp hnew
      exact .inr hsupported
  · exact h

/-- What the probe of pan and tilt finds, if both are off. -/
theorem Ptz.probePanTilt_spec {p : Ptz} (r : ProbeReads) (hp : p.pan = .off) (ht : p.tilt = .off) :
    let q := p.probePanTilt r
    q.device = p.device ∧ q.zoom = p.zoom ∧
    (q.pan.supported = true → r.EnablesPan ∧ q.pan.min ≤ q.pan.max) ∧
    (q.tilt.supported = true → r.EnablesTilt ∧ q.tilt.min ≤ q.tilt.max) ∧
    (q.pan.supported = true ∨ q.tilt.supported = true →
      q.pan.cur = (if r.panTiltCur then p.device.pan else 0) ∧ q.tilt.cur = (if r.panTiltCur then p.device.tilt else 0)) := by
  intro q
  cases hr : r.panTilt with
  | none =>
    have hq : q = p := by simp only [q, Ptz.probePanTilt, hr]
    rw [hq, hp, ht]
    simp [AxisState.off]
  | some ranges =>
    obtain ⟨⟨panMin, tiltMin⟩, panMax, tiltMax⟩ := ranges
    by_cases h₁ : panMin < panMax <;> by_cases h₂ : tiltMin < tiltMax <;> cases hc : r.panTiltCur <;>
      simp [q, Ptz.probePanTilt, hr, h₁, h₂, hc, hp, ht, AxisState.off, ProbeReads.EnablesPan, ProbeReads.EnablesTilt,
        le_of_lt]

theorem Ptz.probeZoom_spec {p : Ptz} (r : ProbeReads) (hz : p.zoom = .off) :
    let q := p.probeZoom r
    q.device = p.device ∧ q.pan = p.pan ∧ q.tilt = p.tilt ∧
    (q.zoom.supported = true → 0 ≤ q.zoom.min ∧ q.zoom.min ≤ q.zoom.max ∧ q.zoom.max < 65536) := by
  intro q
  cases hr : r.zoom with
  | none =>
    have hq : q = p := by simp only [q, Ptz.probeZoom, hr]
    rw [hq, hz]
    exact ⟨rfl, rfl, rfl, fun h => by cases h⟩
  | some range =>
    obtain ⟨min, max⟩ := range
    by_cases h : min < max
    · have hle : min.toNat ≤ max.toNat := (UInt16.lt_iff_toNat_lt.mp h).le
      have hmax := max.toNat_lt
      cases hc : r.zoomCur <;> simp [q, Ptz.probeZoom, hr, h, hc] <;> omega
    · have hq : q = p := by simp only [q, Ptz.probeZoom, hr, if_neg h]
      rw [hq, hz]
      exact ⟨rfl, rfl, rfl, fun h => by cases h⟩

theorem Consistent.probeReads {r : ProbeReads} (h : Consistent s) (hf : Faithful s (.probeReads r))
    (hs : s.step (.probeReads r) = some s') : Consistent s' := by
  simp only [PtzSystem.step] at hs
  split at hs
  · cases hs
  · next hprobing =>
    obtain rfl := Option.some.inj hs
    obtain ⟨hoff, hpending, hdone⟩ := h.probing (by simpa using hprobing)
    set q := if s.ptz.handle then s.ptz.probeLocked r else s.ptz with hq
    have hfound : (q.pan.supported = true → q.tilt.cur = q.device.tilt ∧ q.pan.min ≤ q.pan.max) ∧
        (q.tilt.supported = true → q.pan.cur = q.device.pan ∧ q.tilt.min ≤ q.tilt.max) ∧
        (q.zoom.supported = true → 0 ≤ q.zoom.min ∧ q.zoom.min ≤ q.zoom.max ∧ q.zoom.max < 65536) := by
      cases hh : s.ptz.handle with
      | false =>
        have hsame : q = s.ptz := by rw [hq, hh]; rfl
        have hp : q.pan = .off := hsame ▸ hoff .pan
        have ht : q.tilt = .off := hsame ▸ hoff .tilt
        have hz : q.zoom = .off := hsame ▸ hoff .zoom
        rw [hp, ht, hz]
        simp [AxisState.off]
      | true =>
        have hsame : q = (s.ptz.probePanTilt r).probeZoom r := by rw [hq, hh]; rfl
        obtain ⟨hdev, hzoom, hpan, htilt, hcur⟩ := Ptz.probePanTilt_spec r (hoff .pan) (hoff .tilt)
        obtain ⟨hdev', hpan', htilt', hz⟩ := Ptz.probeZoom_spec (p := s.ptz.probePanTilt r) r (hzoom.trans (hoff .zoom))
        obtain ⟨hfp, hft⟩ := hf hh
        rw [hsame]
        refine ⟨fun hs => ?_, fun hs => ?_, hz⟩
        · rw [hpan'] at hs ⊢
          rw [htilt', hdev', hdev, (hcur (.inl hs)).2]
          refine ⟨?_, (hpan hs).2⟩
          rcases hfp (hpan hs).1 with hread | hzero
          · rw [if_pos hread]
          · rw [hzero, ite_self]
        · rw [htilt'] at hs ⊢
          rw [hpan', hdev', hdev, (hcur (.inr hs)).1]
          refine ⟨?_, (htilt hs).2⟩
          rcases hft (htilt hs).1 with hread | hzero
          · rw [if_pos hread]
          · rw [hzero, ite_self]
    exact {
      tilt := fun hs => (hfound.1 hs).1
      pan := fun hs => (hfound.2.1 hs).1
      range := fun axis hs => by
        cases axis with
        | pan => exact (hfound.1 hs).2
        | tilt => exact (hfound.2.1 hs).2
        | zoom => exact (hfound.2.2 hs).2.1
      zoom := fun hs => ⟨(hfound.2.2 hs).1, (hfound.2.2 hs).2.2⟩
      pending := fun c hc => by simp [hpending] at hc
      done := fun c hc => by simp [hdone] at hc
      probing := fun hp => by cases hp
      last := by simp [HoldsLast, hdone, lastSet] }

/-! ### Transfers -/

theorem ptzClamp_mem {value lo hi : Int} (h : lo ≤ hi) : lo ≤ ptzClamp value lo hi ∧ ptzClamp value lo hi ≤ hi := by
  unfold ptzClamp
  split
  · omega
  · split <;> omega

theorem Consistent.clamped_mem {axis : Axis} (h : Consistent s) (hs : (s.ptz.axis axis).supported = true) (value : Int) :
    (s.ptz.axis axis).min ≤ s.clamped axis value ∧ s.clamped axis value ≤ (s.ptz.axis axis).max :=
  ptzClamp_mem (h.range axis hs)

/-- What a set sends has the clamped value on its own axis, and on the other one where the device stands. -/
theorem Consistent.apply_transfer {axis : Axis} (h : Consistent s) (hs : (s.ptz.axis axis).supported = true) (value : Int) :
    (s.ptz.transfer (s.clamped axis value) axis).component axis = some (s.clamped axis value) ∧
    ∀ other, (s.ptz.device.apply (s.ptz.transfer (s.clamped axis value) axis)).axis other =
      if other = axis then s.clamped axis value else s.ptz.device.axis other := by
  cases axis with
  | pan =>
    refine ⟨rfl, fun other => ?_⟩
    cases other with
    | pan => rfl
    | tilt => exact h.tilt hs
    | zoom => rfl
  | tilt =>
    refine ⟨rfl, fun other => ?_⟩
    cases other with
    | pan => exact h.pan hs
    | tilt => rfl
    | zoom => rfl
  | zoom =>
    have hmem := h.clamped_mem hs value
    have hzoom := h.zoom hs
    have hmod : s.clamped .zoom value % 65536 = s.clamped .zoom value := by
      simp only [Ptz.axis_zoom] at hmem
      apply Int.emod_eq_of_lt <;> omega
    refine ⟨congrArg some hmod, fun other => ?_⟩
    cases other with
    | pan => rfl
    | tilt => rfl
    | zoom => exact hmod


/-- The locked part of a set, for the clamped value. -/
theorem PtzSystem.step_transfer {k : Nat} {ok : Bool} (hs : s.step (.transfer k ok) = some s') :
    ∃ axis value, s.pending[k]? = some (axis, value) ∧
      s'.ptz = (s.ptz.setLocked axis value ok).2 ∧ s'.probing = s.probing ∧ s'.pending = s.pending.eraseIdx k ∧
      s'.done = if ok then (axis, s.clamped axis value) :: s.done else s.done := by
  simp only [PtzSystem.step] at hs
  split at hs
  · cases hs
  · next axis value hk =>
    split at hs
    · cases hs
    · obtain rfl := Option.some.inj hs
      exact ⟨axis, value, hk, rfl, rfl, rfl, rfl⟩

theorem Ptz.setLocked_failed (p : Ptz) (axis : Axis) (value : Int) :
    (p.setLocked axis value false).2.device = p.device ∧ ∀ other, (p.setLocked axis value false).2.axis other = p.axis other :=
  ⟨rfl, fun other => by cases other <;> rfl⟩

theorem PtzSystem.setLocked_applied (s : PtzSystem) (axis : Axis) (value : Int) :
    (s.ptz.setLocked axis value true).2.device = s.ptz.device.apply (s.ptz.transfer (s.clamped axis value) axis) ∧
    ∀ other, (s.ptz.setLocked axis value true).2.axis other =
      if other = axis then { s.ptz.axis other with cur := s.clamped axis value } else s.ptz.axis other :=
  ⟨by cases axis <;> rfl, fun other => by cases axis <;> cases other <;> rfl⟩

theorem Consistent.transfer {k : Nat} {ok : Bool} (h : Consistent s) (hs : s.step (.transfer k ok) = some s') :
    Consistent s' := by
  obtain ⟨axis, value, hk, hptz, hprobing, hpending, hdone⟩ := PtzSystem.step_transfer hs
  have hmem : (axis, value) ∈ s.pending := List.mem_of_getElem? hk
  have hsupported : (s.ptz.axis axis).supported = true := h.pending _ hmem
  have hkept : ∀ c ∈ s'.pending, c ∈ s.pending := fun c hc => List.mem_of_mem_eraseIdx (hpending ▸ hc)
  cases ok with
  | false =>
    obtain ⟨hdevice, haxis⟩ := s.ptz.setLocked_failed axis value
    refine h.around (fun other => ?_) (fun _ => ?_) (fun c hc => .inl (hkept c hc)) hprobing hdone
    · rw [hptz, haxis]
    · rw [hptz, hdevice]
      exact ⟨rfl, rfl⟩
  | true =>
    obtain ⟨hdevice, haxis⟩ := s.setLocked_applied axis value
    obtain ⟨-, happly⟩ := h.apply_transfer hsupported value
    rw [← hptz] at hdevice haxis
    have hmoved : ∀ other, s'.ptz.device.axis other = if other = axis then s.clamped axis value else s.ptz.device.axis other := by
      intro other
      rw [hdevice]
      exact happly other
    have hrest : ∀ other, (s'.ptz.axis other).supported = (s.ptz.axis other).supported ∧
        (s'.ptz.axis other).min = (s.ptz.axis other).min ∧ (s'.ptz.axis other).max = (s.ptz.axis other).max ∧
        (s'.ptz.axis other).cur = if other = axis then s.clamped axis value else (s.ptz.axis other).cur := by
      intro other
      rw [haxis]
      split <;> exact ⟨rfl, rfl, rfl, rfl⟩
    have hidle : ¬ s.probing = true := fun hp => by
      have hnone := (h.probing hp).2.1
      rw [hnone] at hmem
      cases hmem
    constructor
    · intro hs'
      have hpan : s.ptz.pan.supported = true := (hrest .pan).1.symm.trans hs'
      show (s'.ptz.axis .tilt).cur = s'.ptz.device.axis .tilt
      rw [(hrest .tilt).2.2.2, hmoved]
      split
      · rfl
      · exact h.tilt hpan
    · intro hs'
      have htilt : s.ptz.tilt.supported = true := (hrest .tilt).1.symm.trans hs'
      show (s'.ptz.axis .pan).cur = s'.ptz.device.axis .pan
      rw [(hrest .pan).2.2.2, hmoved]
      split
      · rfl
      · exact h.pan htilt
    · intro other hs'
      rw [(hrest other).1] at hs'
      rw [(hrest other).2.1, (hrest other).2.2.1]
      exact h.range other hs'
    · intro hs'
      have hz := hrest .zoom
      simp only [Ptz.axis_zoom] at hz
      rw [hz.1] at hs'
      rw [hz.2.1, hz.2.2.1]
      exact h.zoom hs'
    · intro c hc
      rw [(hrest c.1).1]
      exact h.pending c (hkept c hc)
    · intro c hc
      rw [(hrest c.1).1]
      rw [hdone] at hc
      rcases List.mem_cons.mp hc with rfl | hold
      · exact hsupported
      · exact h.done c hold
    · intro hp
      exact absurd (hprobing ▸ hp) hidle
    · have hlast : ∀ other v, (∀ v, lastSet s.done other = some v → s.ptz.device.axis other = v) →
          lastSet s'.done other = some v → s'.ptz.device.axis other = v := by
        intro other v hold hv
        rw [hdone, if_pos rfl, lastSet_cons] at hv
        rw [hmoved]
        split at hv
        · next heq =>
          rw [if_pos heq.symm]
          exact Option.some.inj hv
        · next hne =>
          rw [if_neg fun heq => hne heq.symm]
          exact hold v hv
      exact ⟨fun v => hlast .pan v h.last.1, fun v => hlast .tilt v h.last.2⟩

theorem Consistent.step {e : PtzEvent} (h : Consistent s) (hf : Faithful s e) (hs : s.step e = some s') : Consistent s' := by
  cases e with
  | probe => exact consistent_probe hf hs
  | probeReads r => exact h.probeReads hf hs
  | close => exact h.close hs
  | reopen pos => exact h.reopen hf hs
  | call axis value => exact h.call hs
  | transfer k ok => exact h.transfer hs

theorem Consistent.axisLaw {e : PtzEvent} (h : Consistent s) (hs : s.step e = some s') : AxisLaw s e s' := by
  cases e with
  | call axis value =>
    intro hgate
    obtain rfl := Option.some.inj hs
    rw [if_neg (by simp [hgate])]
  | transfer k ok =>
    intro axis value hk
    obtain ⟨axis', value', hk', hptz, -, -, -⟩ := PtzSystem.step_transfer hs
    obtain ⟨rfl, rfl⟩ := Prod.mk.inj (Option.some.inj (hk.symm.trans hk'))
    have hsupported : (s.ptz.axis axis).supported = true := h.pending _ (List.mem_of_getElem? hk)
    obtain ⟨hcomponent, happly⟩ := h.apply_transfer hsupported value
    have hmem := h.clamped_mem hsupported value
    refine ⟨⟨_, _, ?_, hcomponent, hmem.1, hmem.2⟩, fun other hne => ?_, fun hfailed => ?_⟩
    · rw [hptz]
      exact s.ptz.setLocked_sent axis value ok
    · cases ok with
      | false => rw [hptz, (s.ptz.setLocked_failed axis value).1]
      | true => rw [hptz, (s.setLocked_applied axis value).1, happly, if_neg hne]
    · subst hfailed
      obtain ⟨hdevice, haxis⟩ := s.ptz.setLocked_failed axis value
      rw [hptz]
      exact ⟨hdevice, fun other => by rw [haxis]⟩
  | probe => trivial
  | probeReads r => trivial
  | close => trivial
  | reopen pos => trivial

end Steps

/-- A setter that nothing comes between is its check and its transfer. -/
theorem run_set (s : PtzSystem) {axis : Axis} {value : Int} {ok : Bool} (hgate : s.ptz.gate axis = true) :
    ∃ s', run PtzSystem.step s [.call axis value, .transfer s.pending.length ok] = some s' ∧
      s'.ptz = (s.ptz.set (fun _ => ok) axis value).2 ∧ s'.pending = s.pending := by
  have hcall : s.step (.call axis value) = some { s with pending := s.pending ++ [(axis, value)] } := by
    simp [PtzSystem.step, hgate]
  have hopen : s.ptz.handle = true := (Bool.and_eq_true_iff.mp hgate).1
  obtain ⟨s', htransfer⟩ : ∃ s', PtzSystem.step { s with pending := s.pending ++ [(axis, value)] }
      (.transfer s.pending.length ok) = some s' := by
    simp [PtzSystem.step, hopen]
  obtain ⟨axis', value', hk, hptz, -, hpending, -⟩ := PtzSystem.step_transfer htransfer
  obtain ⟨rfl, rfl⟩ : axis = axis' ∧ value = value' := by simpa using hk
  refine ⟨s', (run_cons_eq_some PtzSystem.step).mpr ⟨_, hcall, (run_cons_eq_some PtzSystem.step).mpr ⟨s', htransfer, rfl⟩⟩, ?_, ?_⟩
  · rw [hptz, Ptz.set_open hgate]
  · rw [hpending]
    simp [List.eraseIdx_append_of_length_le]

/-- **Independence of the axes.** In a run whose steps are faithful every set obeys the law of the axes, and the device holds the
last pan and the last tilt in every state. -/
theorem ptz_axes_law {s₀ s s' : PtzSystem} {es : List PtzEvent} {e : PtzEvent} (hfresh : s₀.Fresh)
    (hfaithful : Along PtzSystem.step Faithful s₀ es) (hrun : run PtzSystem.step s₀ es = some s) (he : Faithful s e)
    (hstep : s.step e = some s') : AxisLaw s e s' ∧ HoldsLast s ∧ HoldsLast s' := by
  have hs : Consistent s := run_invariant PtzSystem.step (fun _ _ _ h hf hs => Consistent.step h hf hs) hfresh.consistent
    hfaithful hrun
  exact ⟨hs.axisLaw hstep, hs.last, (hs.step he hstep).last⟩

/-- A camera that stands at a tilt of 50, before its probe. -/
def tiltedCamera : PtzSystem := ⟨⟨true, .off, .off, .off, ⟨0, 50, 0⟩, []⟩, false, [], []⟩

theorem tiltedCamera_fresh : tiltedCamera.Fresh where
  off axis := by cases axis <;> rfl
  probing := rfl
  pending := rfl
  done := rfl

/-- Pan and tilt of 0 to 100 each, with or without the position. -/
def panTiltReads (cur : Bool) : ProbeReads := ⟨some (0, 0), some (100, 100), true, cur, none, none, false, false⟩

/-- A pan and a tilt at once, with a position that was read: the later transfer keeps the pan. -/
theorem ptz_axes_law_concurrent :
    ∃ s', run PtzSystem.step tiltedCamera
        [.probe, .probeReads (panTiltReads true), .call .pan 10, .call .tilt 300, .transfer 1 true, .transfer 0 true] = some s' ∧
      s'.ptz.device.pan = 10 ∧ s'.ptz.device.tilt = 100 := by
  have hfaithful : Along PtzSystem.step Faithful tiltedCamera
      [.probe, .probeReads (panTiltReads true), .call .pan 10, .call .tilt 300, .transfer 1 true] := by
    refine ⟨rfl, fun _ hs => ?_⟩
    obtain rfl := Option.some.inj hs
    refine ⟨fun _ => ⟨fun _ => .inl rfl, fun _ => .inl rfl⟩, fun _ _ => ⟨trivial, fun _ _ => ⟨trivial, fun _ _ => ?_⟩⟩⟩
    exact ⟨trivial, fun _ _ => trivial⟩
  obtain ⟨-, -, hpan, htilt⟩ := ptz_axes_law (e := .transfer 0 true) tiltedCamera_fresh hfaithful rfl trivial rfl
  exact ⟨_, rfl, hpan 10 (by decide), htilt 100 (by decide)⟩

/-- The position is not read: panning to 10 tilts the camera to 0. -/
theorem not_ptz_axes_law :
    ¬ ∀ (s₀ s s' : PtzSystem) (es : List PtzEvent) (e : PtzEvent), s₀.Fresh → run PtzSystem.step s₀ es = some s →
      s.step e = some s' → AxisLaw s e s' := by
  intro h
  have hlaw := h tiltedCamera _ _ [.probe, .probeReads (panTiltReads false), .call .pan 10] (.transfer 0 true)
    tiltedCamera_fresh rfl rfl
  have htilt := (hlaw .pan 10 rfl).2.1 .tilt (by decide)
  revert htilt
  decide

end LibuvcH264Src
