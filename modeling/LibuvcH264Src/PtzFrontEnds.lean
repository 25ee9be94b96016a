import LibuvcH264Src.Printed
import LibuvcH264Src.PtzControl

/-!
# The front ends of PTZ

* `setPtz` : the action; `setPosition` : the three properties, one behind the other, each within its bounds;
* `moveTo` : the setters of the three axes, which all of them come down to;
* `panTiltCommand`, `zoomCommand` : what a client of the control socket sends for a position;
* `FrontEnd.drive` : a position by any of the three;
* `ptz_front_ends_agree` : they drive the device alike, over any run of positions, and say so alike;
* `scanPosition` : what a client reads in a position, `get_position_read` : it is the one that the properties return.
-/

namespace LibuvcH264Src
open AnnexB

/-! ## The action and the properties -/

/-- `gst_libuvc_h264_src_set_ptz`. -/
def setPtz (results : Transfers) (p : Position) (s : Ptz) : Bool × Ptz :=
  let pan := if s.pan.supported then setPan results p.pan s else (true, s)
  let tilt := if pan.2.tilt.supported then setTilt results p.tilt pan.2 else (true, pan.2)
  let zoom := if tilt.2.zoom.supported then setZoom results p.zoom tilt.2 else (true, tilt.2)
  let any := s.pan.supported || pan.2.tilt.supported || tilt.2.zoom.supported
  (any && (zoom.1 && (tilt.1 && pan.1)), zoom.2)

/-- The bounds of a `GParamSpecInt`. -/
structure ParamSpecInt where
  minimum : Int
  maximum : Int

def ParamSpecInt.Admits (spec : ParamSpecInt) (v : Int) : Prop := spec.minimum ≤ v ∧ v ≤ spec.maximum

instance (spec : ParamSpecInt) (v : Int) : Decidable (spec.Admits v) := inferInstanceAs (Decidable (_ ∧ _))

/-- The properties that the class installs: arcseconds, and a focal length. -/
def panSpec : ParamSpecInt := ⟨-648000, 648000⟩

def tiltSpec : ParamSpecInt := ⟨-648000, 648000⟩

def zoomSpec : ParamSpecInt := ⟨0, 65535⟩

/-- `g_object_set_property`. The specs allow no lax validation, so a value out of the bounds does not get to
`gst_libuvc_h264_src_set_property`, whose success nobody is told. -/
def setWithin (spec : ParamSpecInt) (set : Int → Ptz → Bool × Ptz) (v : Int) (s : Ptz) : Ptz :=
  if spec.Admits v then (set v s).2 else s

/-- The properties `pan`, `tilt` and `zoom`. -/
def setPosition (results : Transfers) (p : Position) (s : Ptz) : Ptz :=
  setWithin zoomSpec (setZoom results) p.zoom
    (setWithin tiltSpec (setTilt results) p.tilt (setWithin panSpec (setPan results) p.pan s))

/-- The three setters, one behind the other. -/
def moveTo (results : Transfers) (p : Position) (s : Ptz) : Ptz :=
  (setZoom results p.zoom (setTilt results p.tilt (setPan results p.pan s).2).2).2

/-- The properties take the position. -/
structure Position.Admitted (p : Position) : Prop where
  pan : panSpec.Admits p.pan
  tilt : tiltSpec.Admits p.tilt
  zoom : zoomSpec.Admits p.zoom

theorem setPosition_eq {p : Position} (hp : p.Admitted) (results : Transfers) (s : Ptz) :
    setPosition results p s = moveTo results p s := by
  unfold setPosition setWithin
  rw [if_pos hp.pan, if_pos hp.tilt, if_pos hp.zoom]
  rfl

/-- `gst_libuvc_h264_src_get_property` of the three. -/
def getPosition (s : Ptz) : Position := ⟨s.pan.cur, s.tilt.cur, s.zoom.cur⟩

/-- The values are `int`s. -/
def IsInt (v : Int) : Prop := -2 ^ 31 ≤ v ∧ v < 2 ^ 31

instance (v : Int) : Decidable (IsInt v) := inferInstanceAs (Decidable (_ ∧ _))

structure Position.AreInts (p : Position) : Prop where
  pan : IsInt p.pan
  tilt : IsInt p.tilt
  zoom : IsInt p.zoom

/-- The fields of an axis are `gint`s. -/
structure AxisState.AreInts (a : AxisState) : Prop where
  min : IsInt a.min
  max : IsInt a.max
  cur : IsInt a.cur

def Ptz.AreInts (s : Ptz) : Prop := ∀ axis, (s.axis axis).AreInts

section Set
variable {results : Transfers} {s : Ptz}

theorem Ptz.set_supported (axis other : Axis) (value : Int) :
    ((s.set results axis value).2.axis other).supported = (s.axis other).supported := by
  unfold Ptz.set
  split
  · cases axis <;> cases other <;> cases results s.sent <;> rfl
  · rfl

/-- A set that its own check refuses is as good as none. -/
theorem Ptz.set_of_unsupported {axis : Axis} (h : (s.axis axis).supported = false) (value : Int) :
    s.set results axis value = (false, s) :=
  Ptz.set_closed (by rw [Ptz.gate, h, Bool.and_false])

/-- What the front ends do with an axis. -/
theorem Ptz.set_if (axis : Axis) {supported : Bool} (h : (s.axis axis).supported = supported) (value : Int) :
    (if supported then s.set results axis value else (true, s)) =
      (!supported || (s.set results axis value).1, (s.set results axis value).2) := by
  cases supported with
  | false =>
    rw [Ptz.set_of_unsupported h]
    rfl
  | true => rfl

/-- A locked set is of one cached position. -/
theorem Ptz.setLocked_axis (axis other : Axis) (value : Int) (ok : Bool) :
    (s.setLocked axis value ok).2.axis other =
      if ok = true ∧ axis = other then
        { s.axis other with cur := ptzClamp value (s.axis axis).min (s.axis axis).max }
      else s.axis other := by
  cases ok <;> cases axis <;> cases other <;> rfl

theorem Ptz.set_areInts (hs : s.AreInts) (axis : Axis) (value : Int) : (s.set results axis value).2.AreInts := by
  have hclamped : ∀ lo hi, IsInt lo → IsInt hi → IsInt (ptzClamp value lo hi) := by
    intro lo hi hlo hhi
    unfold ptzClamp
    split_ifs
    · exact hlo
    · exact hhi
    · unfold IsInt at *
      omega
  unfold Ptz.set
  split
  · intro other
    rw [Ptz.setLocked_axis]
    split_ifs
    · exact ⟨(hs other).min, (hs other).max, hclamped _ _ (hs axis).min (hs axis).max⟩
    · exact hs other
  · exact hs

/-- The sets in front change no support. -/
theorem sets_supported (results : Transfers) (s : Ptz) (pan tilt : Int) :
    (setPan results pan s).2.tilt.supported = s.tilt.supported ∧
    (setTilt results tilt (setPan results pan s).2).2.zoom.supported = s.zoom.supported :=
  ⟨Ptz.set_supported .pan .tilt pan, (Ptz.set_supported .tilt .zoom tilt).trans (Ptz.set_supported .pan .zoom pan)⟩

theorem setPan_if (pan : Int) :
    (if s.pan.supported then setPan results pan s else (true, s)) =
      (!s.pan.supported || (setPan results pan s).1, (setPan results pan s).2) :=
  Ptz.set_if .pan rfl pan

theorem setTilt_if (pan tilt : Int) :
    (if s.tilt.supported then setTilt results tilt (setPan results pan s).2 else (true, (setPan results pan s).2)) =
    (!s.tilt.supported || (setTilt results tilt (setPan results pan s).2).1,
      (setTilt results tilt (setPan results pan s).2).2) :=
  Ptz.set_if .tilt (sets_supported results s pan tilt).1 tilt

theorem setZoom_if (pan tilt zoom : Int) :
    (if s.zoom.supported then setZoom results zoom (setTilt results tilt (setPan results pan s).2).2
      else (true, (setTilt results tilt (setPan results pan s).2).2)) =
    (!s.zoom.supported || (setZoom results zoom (setTilt results tilt (setPan results pan s).2).2).1,
      (setZoom results zoom (setTilt results tilt (setPan results pan s).2).2).2) :=
  Ptz.set_if .zoom (sets_supported results s pan tilt).2 zoom

theorem moveTo_areInts (hs : s.AreInts) (p : Position) : (moveTo results p s).AreInts :=
  Ptz.set_areInts (Ptz.set_areInts (Ptz.set_areInts hs _ _) _ _) _ _

end Set

/-! ## The commands of a position -/

def blank : List Byte := [0x20]

def panTiltCommand (p : Position) : List Byte := panTiltWord ++ ((blank ++ printInt p.pan) ++ (blank ++ printInt p.tilt))

def zoomCommand (p : Position) : List Byte := zoomWord ++ (blank ++ printInt p.zoom)

section Commands
variable {p : Position}

theorem isSpace_of_mem_blank : ∀ b ∈ blank, isSpace b = true := by decide +kernel

/-- A printed number behind a blank is one of the grammar. -/
theorem printInt_numeral {v : Int} (hv : IsInt v) :
    ∃ n : Numeral 10, n.bytes = blank ++ printInt v ∧ n.value = v ∧ n.blanks ≠ [] ∧ n.FitsInt := by
  refine ⟨.ofInt blank isSpace_of_mem_blank v, Numeral.ofInt_bytes _ _, Numeral.ofInt_value _ _,
    List.cons_ne_nil 0x20 [], ?_⟩
  rw [Numeral.FitsInt, Numeral.ofInt_value]
  exact hv

theorem scanPanTilt_command (hp : p.AreInts) : scanPanTilt (panTiltCommand p) = some (p.pan, p.tilt) := by
  obtain ⟨n, hn, hnv, hnb, hni⟩ := printInt_numeral hp.pan
  obtain ⟨m, hm, hmv, hmb, hmi⟩ := printInt_numeral hp.tilt
  have hlast : scanInt m.bytes = some (m.value, []) := by
    have h := scanInt_numeral m (noDigit_nil 10)
    rwa [List.append_nil, hmi.scan] at h
  have hnext : NoDigit 10 m.bytes := by simpa using m.noDigit_of_blank [] hmb
  rw [panTiltCommand, ← hn, ← hm, ← hnv, ← hmv]
  simp only [scanPanTilt, afterTag_append, scanInt_dropWhile, scanInt_numeral n hnext, hni.scan, hlast]

theorem scanZoom_command (hp : p.AreInts) :
    scanPanTilt (zoomCommand p) = none ∧ scanZoom (zoomCommand p) = some p.zoom := by
  obtain ⟨n, hn, hnv, -, hni⟩ := printInt_numeral hp.zoom
  have hlast : scanInt n.bytes = some (n.value, []) := by
    have h := scanInt_numeral n (noDigit_nil 10)
    rwa [List.append_nil, hni.scan] at h
  have hword : afterTag panTiltWord (zoomCommand p) = none := if_neg (by simp [panTiltWord, zoomCommand, zoomWord, ascii])
  refine ⟨by rw [scanPanTilt, hword], ?_⟩
  rw [zoomCommand, ← hn, ← hnv]
  simp only [scanZoom, afterTag_append, scanInt_dropWhile, hlast]

theorem printInt_length {v : Int} (hv : IsInt v) : (printInt v).length ≤ 11 := by
  have hdigits : ∀ n : Nat, n < 10 ^ 10 → (ascii (Nat.toDigits 10 n)).length ≤ 10 := by
    intro n hn
    rw [ascii, List.length_map]
    exact (Nat.length_toDigits_le_iff (by decide) (by decide)).mpr hn
  obtain ⟨hlo, hhi⟩ := hv
  cases v with
  | ofNat n =>
    have hn : (n : Int) < 2 ^ 31 := hhi
    have h := hdigits n (by omega)
    show (ascii (Nat.toDigits 10 n)).length ≤ 11
    omega
  | negSucc n =>
    have h := hdigits (n + 1) (by omega)
    show (0x2D :: ascii (Nat.toDigits 10 (n + 1))).length ≤ 11
    rw [List.length_cons]
    omega

theorem printInt_unterminated {v : Int} {b : Byte} (h : b ∈ printInt v) : isTerminator b = false := by
  have hall : ∀ b : Byte, b = 0x2D ∨ 0x30 ≤ b ∧ b ≤ 0x39 → isTerminator b = false := forall_byte (by decide +kernel)
  exact hall b (mem_printInt h)

/-- A command of a few numbers behind a word. -/
theorem commandIn_line {command : List Byte} (h : ∀ b ∈ command, isTerminator b = false) :
    commandIn (command ++ [0x0A]) = command := by
  unfold commandIn
  rw [List.takeWhile_append_of_pos fun b hb => by rw [h b hb]; rfl]
  exact List.append_nil command

theorem panTiltCommand_fits (hp : p.AreInts) :
    (∀ b ∈ panTiltCommand p, isTerminator b = false) ∧ (panTiltCommand p ++ [0x0A]).length ≤ 254 := by
  have hpan := printInt_length hp.pan
  have htilt := printInt_length hp.tilt
  have hword : ∀ b ∈ panTiltWord, isTerminator b = false := by decide +kernel
  have hblank : ∀ b ∈ blank, isTerminator b = false := by decide +kernel
  refine ⟨fun b hb => ?_, ?_⟩
  · simp only [panTiltCommand, List.mem_append] at hb
    rcases hb with hb | (hb | hb) | (hb | hb)
    · exact hword b hb
    · exact hblank b hb
    · exact printInt_unterminated hb
    · exact hblank b hb
    · exact printInt_unterminated hb
  · have hsizes : panTiltWord.length = 8 ∧ blank.length = 1 := by decide
    simp only [panTiltCommand, List.length_append, List.length_singleton]
    omega

theorem zoomCommand_fits (hp : p.AreInts) :
    (∀ b ∈ zoomCommand p, isTerminator b = false) ∧ (zoomCommand p ++ [0x0A]).length ≤ 254 := by
  have hzoom := printInt_length hp.zoom
  have hword : ∀ b ∈ zoomWord, isTerminator b = false := by decide +kernel
  have hblank : ∀ b ∈ blank, isTerminator b = false := by decide +kernel
  refine ⟨fun b hb => ?_, ?_⟩
  · simp only [zoomCommand, List.mem_append] at hb
    rcases hb with hb | hb | hb
    · exact hword b hb
    · exact hblank b hb
    · exact printInt_unterminated hb
  · have hsizes : zoomWord.length = 4 ∧ blank.length = 1 := by decide
    simp only [zoomCommand, List.length_append, List.length_singleton]
    omega

end Commands

/-! ## One request -/

/-- A line of the client arrives in pieces, the first of which holds the command. -/
structure Delivers (pieces : List (List Byte)) (command : List Byte) : Prop where
  line : pieces.flatten = command ++ [0x0A]
  first : command.length ≤ (pieces.headD []).length

section Request
variable {results : Transfers} {p : Position} {s : Ptz}

theorem controlConnection_line {pieces : List (List Byte)} {command : List Byte} (h : Delivers pieces command)
    (hne : command ≠ []) (hterm : ∀ b ∈ command, isTerminator b = false) (hlen : (command ++ [0x0A]).length ≤ 254) :
    controlConnection results pieces s =
      (some (processControlCommand results command s).1, (processControlCommand results command s).2) := by
  obtain ⟨hline, hfirst⟩ := h
  apply controlConnection_executed
  cases pieces with
  | nil => simp at hline
  | cons piece rest =>
    rw [List.headD_cons] at hfirst
    have hpiece : piece = (command ++ [0x0A]).take piece.length := by simp [← hline]
    have hshort : piece.length ≤ (command ++ [0x0A]).length := by
      rw [← hline]
      simp
    have hwhole : commandIn piece = command := by
      rw [hpiece, commandIn_take, commandIn_line hterm, List.take_of_length_le hfirst]
    have hpos : 0 < command.length := List.length_pos_of_ne_nil hne
    have hsome : piece ≠ [] := List.ne_nil_of_length_pos (by omega)
    have hfits : piece.length < readSize := by
      unfold readSize
      omega
    rw [executedCommand_short hsome hfits, hwhole]

/-- **The action**: it sets all axes, and succeeds if all of the supported ones do. -/
theorem setPtz_eq : setPtz results p s =
    ((s.pan.supported || s.tilt.supported || s.zoom.supported) &&
        ((!s.zoom.supported || (setZoom results p.zoom (setTilt results p.tilt (setPan results p.pan s).2).2).1) &&
          ((!s.tilt.supported || (setTilt results p.tilt (setPan results p.pan s).2).1) &&
            (!s.pan.supported || (setPan results p.pan s).1))),
      moveTo results p s) := by
  obtain ⟨htilt, hzoom⟩ := sets_supported results s p.pan p.tilt
  unfold setPtz moveTo
  simp only [setPan_if, setTilt_if, setZoom_if, htilt, hzoom]

/-- The reply and the state behind the command for pan and tilt. -/
theorem process_panTilt (results : Transfers) (s : Ptz) (hp : p.AreInts) :
    let pan := setPan results p.pan s
    let tilt := setTilt results p.tilt pan.2
    (¬ IsError (processControlCommand results (panTiltCommand p) s).1 ↔
      (s.pan.supported || s.tilt.supported) = true ∧
        ((!s.tilt.supported || tilt.1) && (!s.pan.supported || pan.1)) = true) ∧
    (processControlCommand results (panTiltCommand p) s).2 = tilt.2 := by
  intro pan tilt
  obtain ⟨htilt, -⟩ := sets_supported results s p.pan p.tilt
  simp only [processControlCommand, scanPanTilt_command hp, setPan_if, setTilt_if, htilt]
  cases s.pan.supported || s.tilt.supported with
  | false => exact ⟨by simp [IsError, text, ascii], rfl⟩
  | true =>
    cases (!s.tilt.supported || tilt.1) && (!s.pan.supported || pan.1) with
    | false => exact ⟨by simp [IsError, text, ascii], rfl⟩
    | true => exact ⟨⟨fun _ => ⟨rfl, rfl⟩, fun _ => not_isError_cons (by decide)⟩, rfl⟩

/-- The reply and the state behind the command for zoom. -/
theorem process_zoom (results : Transfers) (s : Ptz) (hp : p.AreInts) :
    (¬ IsError (processControlCommand results (zoomCommand p) s).1 ↔
      s.zoom.supported = true ∧ (setZoom results p.zoom s).1 = true) ∧
    (processControlCommand results (zoomCommand p) s).2 = (setZoom results p.zoom s).2 := by
  obtain ⟨hpanTilt, hzoom⟩ := scanZoom_command hp
  simp only [processControlCommand, hpanTilt, hzoom]
  cases hs : s.zoom.supported with
  | false =>
    have hoff : (s.axis .zoom).supported = false := hs
    have hclosed : setZoom results p.zoom s = (false, s) := Ptz.set_of_unsupported hoff p.zoom
    rw [hclosed]
    exact ⟨by simp [IsError, text, ascii], rfl⟩
  | true =>
    cases (setZoom results p.zoom s).1 with
    | false => exact ⟨by simp [IsError, text, ascii], rfl⟩
    | true => exact ⟨⟨fun _ => ⟨rfl, rfl⟩, fun _ => not_isError_cons (by decide)⟩, rfl⟩

/-- All of the supported axes are set, as one answer and as two. -/
theorem succeeds_iff : ∀ pan tilt zoom p t z : Bool,
    ((pan || tilt || zoom) && ((!zoom || z) && ((!tilt || t) && (!pan || p)))) = true ↔
      (pan = true ∨ tilt = true ∨ zoom = true) ∧
      (pan = true ∨ tilt = true → (pan || tilt) = true ∧ ((!tilt || t) && (!pan || p)) = true) ∧
      (zoom = true → zoom = true ∧ z = true) := by
  decide

/-- What the two connections of a position reply and leave. -/
theorem connections_position {panTilt zoom : List (List Byte)} (hp : p.AreInts) (hpanTilt : Delivers panTilt (panTiltCommand p))
    (hzoom : Delivers zoom (zoomCommand p)) :
    let first := controlConnection results panTilt s
    let second := controlConnection results zoom first.2
    second.2 = moveTo results p s ∧
    ((setPtz results p s).1 = true ↔ (∃ axis, (s.axis axis).supported = true) ∧
      (s.pan.supported = true ∨ s.tilt.supported = true → ∃ reply, first.1 = some reply ∧ ¬ IsError reply) ∧
      (s.zoom.supported = true → ∃ reply, second.1 = some reply ∧ ¬ IsError reply)) := by
  intro first second
  obtain ⟨hterm, hlen⟩ := panTiltCommand_fits hp
  obtain ⟨hterm', hlen'⟩ := zoomCommand_fits hp
  have hfirst : first = _ := controlConnection_line hpanTilt (by simp [panTiltCommand, panTiltWord, ascii]) hterm hlen
  have hsecond : second = _ := controlConnection_line hzoom (by simp [zoomCommand, zoomWord, ascii]) hterm' hlen'
  obtain ⟨hreply, hstate⟩ := process_panTilt results s hp
  obtain ⟨hreply', hstate'⟩ := process_zoom results first.2 hp
  have hbehind : first.2 = (setTilt results p.tilt (setPan results p.pan s).2).2 := by
    rw [hfirst]
    exact hstate
  have hsupported : first.2.zoom.supported = s.zoom.supported := by
    rw [hbehind]
    exact (sets_supported results s p.pan p.tilt).2
  have htold : ∀ reply : List Byte, (∃ r, some reply = some r ∧ ¬ IsError r) ↔ ¬ IsError reply := by
    intro reply
    constructor
    · rintro ⟨r, hr, h⟩
      obtain rfl := Option.some.inj hr
      exact h
    · intro h
      exact ⟨reply, rfl, h⟩
  have haxes : (∃ axis, (s.axis axis).supported = true) ↔
      s.pan.supported = true ∨ s.tilt.supported = true ∨ s.zoom.supported = true := by
    constructor
    · rintro ⟨axis, h⟩
      cases axis with
      | pan => exact .inl h
      | tilt => exact .inr (.inl h)
      | zoom => exact .inr (.inr h)
    · rintro (h | h | h)
      · exact ⟨.pan, h⟩
      · exact ⟨.tilt, h⟩
      · exact ⟨.zoom, h⟩
  refine ⟨?_, ?_⟩
  · rw [hsecond, hstate', hbehind]
    rfl
  · rw [hsecond, htold, hreply', hsupported, hbehind, hfirst, htold, hreply, setPtz_eq, haxes]
    exact succeeds_iff _ _ _ _ _ _

end Request

/-! ## Reading the position -/

/-- What a client makes of the reply to `GET_POSITION`. -/
def scanPosition (reply : List Byte) : Option Position := do
  let rest ← afterTag (text "OK pan=") reply
  let (pan, rest) ← scanInt rest
  let rest ← afterTag (text " tilt=") rest
  let (tilt, rest) ← scanInt rest
  let rest ← afterTag (text " zoom=") rest
  let (zoom, _) ← scanInt rest
  return ⟨pan, tilt, zoom⟩

theorem scanInt_printInt {v : Int} (hv : IsInt v) {rest : List Byte} (hr : NoDigit 10 rest) :
    scanInt (printInt v ++ rest) = some (v, rest) := by
  have hnone : ∀ b ∈ ([] : List Byte), isSpace b = true := fun b hb => absurd hb List.not_mem_nil
  have hbytes : (Numeral.ofInt [] hnone v).bytes = printInt v := Numeral.ofInt_bytes hnone v
  have hvalue : (Numeral.ofInt [] hnone v).value = v := Numeral.ofInt_value hnone v
  have hfits : (Numeral.ofInt [] hnone v).FitsInt := by
    rw [Numeral.FitsInt, hvalue]
    exact hv
  rw [← hbytes, scanInt_numeral _ hr, hfits.scan, hvalue]

/-- **The position is read back**: the reply to `GET_POSITION` tells a client what the properties return. -/
theorem get_position_read {results : Transfers} {s : Ptz} (hs : s.AreInts) {pieces : List (List Byte)}
    (h : Delivers pieces (text "GET_POSITION")) :
    ∃ reply, controlConnection results pieces s = (some reply, s) ∧ scanPosition reply = some (getPosition s) := by
  have hprocess : processControlCommand results (text "GET_POSITION") s =
      (text "OK pan=" ++ printInt s.pan.cur ++ text " tilt=" ++ printInt s.tilt.cur ++ text " zoom=" ++
        printInt s.zoom.cur, s) := by
    obtain ⟨hp, hz⟩ : scanPanTilt (text "GET_POSITION") = none ∧ scanZoom (text "GET_POSITION") = none :=
      query_unscanned (.inl rfl)
    simp only [processControlCommand, hp, hz]
    rfl
  refine ⟨_, (controlConnection_line h (by decide) (by decide +kernel) (by decide)).trans (by rw [hprocess]), ?_⟩
  have hnext : ∀ rest, NoDigit 10 (text " tilt=" ++ rest) ∧ NoDigit 10 (text " zoom=" ++ rest) := by
    intro rest
    constructor <;> (intro b hb; obtain rfl := Option.some.inj hb; decide)
  have hlast : scanInt (printInt s.zoom.cur) = some (s.zoom.cur, []) := by
    have hscan := scanInt_printInt (hs .zoom).cur (noDigit_nil 10)
    rwa [List.append_nil] at hscan
  have hpan := fun rest => scanInt_printInt (hs .pan).cur (hnext rest).1
  have htilt := fun rest => scanInt_printInt (hs .tilt).cur (hnext rest).2
  simp only [Ptz.axis_pan] at hpan
  simp only [Ptz.axis_tilt] at htilt
  simp only [scanPosition, List.append_assoc, afterTag_append, hpan, htilt, hlast, Option.bind_eq_bind, Option.bind_some,
    Option.pure_def]
  rfl

/-! ## Runs -/

/-- How a client sets a position. -/
inductive FrontEnd where
  | properties
  | action
  /-- One connection for pan and tilt and one for zoom, whose bytes arrive in these pieces. -/
  | socket (panTilt zoom : List (List Byte))

/-- The properties take the position, the socket is sent it. -/
def FrontEnd.Carries : FrontEnd → Position → Prop
  | properties, p => p.Admitted
  | action, _ => True
  | socket panTilt zoom, p => Delivers panTilt (panTiltCommand p) ∧ Delivers zoom (zoomCommand p)

def FrontEnd.drive (results : Transfers) : FrontEnd → Position → Ptz → Ptz
  | properties, p, s => setPosition results p s
  | action, p, s => (setPtz results p s).2
  | socket panTilt zoom, _, s => (controlConnection results zoom (controlConnection results panTilt s).2).2

theorem FrontEnd.drive_eq {results : Transfers} {f : FrontEnd} {p : Position} (hp : p.AreInts) (hf : f.Carries p) (s : Ptz) :
    f.drive results p s = moveTo results p s := by
  cases f with
  | properties => exact setPosition_eq hf results s
  | action =>
    show (setPtz results p s).2 = _
    rw [setPtz_eq]
  | socket panTilt zoom => exact (connections_position hp hf.1 hf.2).1

/-- **The front ends agree.** Over any run of positions, each of them set by any of the three front ends, and by the
properties within their bounds, the transfers to the device, their outcomes and the cached positions are those of the
action. Behind it, the action reports success where some axis is supported and no line for a supported axis is answered
with an error, and the socket reports the position that the properties return. -/
theorem ptz_front_ends_agree (results : Transfers) (requests : List (FrontEnd × Position)) (s : Ptz) (hs : s.AreInts)
    (hrequests : ∀ r ∈ requests, r.1.Carries r.2 ∧ r.2.AreInts) :
    let s' := requests.foldl (fun s r => r.1.drive results r.2 s) s
    s' = requests.foldl (fun s r => (setPtz results r.2 s).2) s ∧
    (∀ p panTilt zoom, p.AreInts → Delivers panTilt (panTiltCommand p) → Delivers zoom (zoomCommand p) →
      let first := controlConnection results panTilt s'
      let second := controlConnection results zoom first.2
      ((setPtz results p s').1 = true ↔ (∃ axis, (s'.axis axis).supported = true) ∧
        (s'.pan.supported = true ∨ s'.tilt.supported = true → ∃ reply, first.1 = some reply ∧ ¬ IsError reply) ∧
        (s'.zoom.supported = true → ∃ reply, second.1 = some reply ∧ ¬ IsError reply))) ∧
    ∀ pieces, Delivers pieces (text "GET_POSITION") →
      ∃ reply, controlConnection results pieces s' = (some reply, s') ∧ scanPosition reply = some (getPosition s') := by
  have hrun : ∀ s : Ptz, s.AreInts →
      requests.foldl (fun s r => r.1.drive results r.2 s) s = requests.foldl (fun s r => (setPtz results r.2 s).2) s ∧
      (requests.foldl (fun s r => (setPtz results r.2 s).2) s).AreInts := by
    induction requests with
    | nil => exact fun s hs => ⟨rfl, hs⟩
    | cons r rest ih =>
      intro s hs
      obtain ⟨hcarries, hints⟩ := hrequests r List.mem_cons_self
      have hmoved : (setPtz results r.2 s).2 = moveTo results r.2 s := by rw [setPtz_eq]
      rw [List.foldl_cons, List.foldl_cons, FrontEnd.drive_eq hints hcarries, hmoved]
      exact ih (fun r hr => hrequests r (List.mem_cons_of_mem _ hr)) _ (moveTo_areInts hs _)
  intro s'
  obtain ⟨hsame, hints⟩ := hrun s hs
  have hsame : s' = _ := hsame
  refine ⟨hsame, fun p panTilt zoom hp hpanTilt hzoom => (connections_position hp hpanTilt hzoom).2, fun pieces h => ?_⟩
  exact get_position_read (hsame ▸ hints) h

/-- A zoom to 40 by the socket, in two pieces, to 70000 by the action, which clamps it, and back to 10 by the property. -/
theorem ptz_front_ends_agree_zoom :
    let requests : List (FrontEnd × Position) :=
      [(.socket [text "PAN_TILT 0 0\n"] [text "ZOOM 40", text "\n"], ⟨0, 0, 40⟩), (.action, ⟨0, 0, 70000⟩),
        (.properties, ⟨0, 0, 10⟩)]
    requests.foldl (fun s r => r.1.drive (fun _ => true) r.2 s) zoomCamera =
      requests.foldl (fun s r => (setPtz (fun _ => true) r.2 s).2) zoomCamera := by
  have hs : zoomCamera.AreInts := by
    intro axis
    cases axis <;> exact ⟨by decide, by decide, by decide⟩
  refine (ptz_front_ends_agree (fun _ => true) _ zoomCamera hs fun r hr => ?_).1
  rcases List.mem_cons.mp hr with rfl | hr
  · exact ⟨⟨⟨by decide, by decide⟩, ⟨by decide, by decide⟩⟩, ⟨by decide, by decide, by decide⟩⟩
  rcases List.mem_cons.mp hr with rfl | hr
  · exact ⟨trivial, by decide, by decide, by decide⟩
  · obtain rfl := List.mem_singleton.mp hr
    exact ⟨⟨by decide, by decide, by decide⟩, by decide, by decide, by decide⟩

/-- A property refuses what the action clamps. -/
example : setPosition (fun _ => true) ⟨0, 0, 70000⟩ zoomCamera = zoomCamera ∧
    (setPtz (fun _ => true) ⟨0, 0, 70000⟩ zoomCamera).2 ≠ zoomCamera := by
  decide +kernel

end LibuvcH264Src
