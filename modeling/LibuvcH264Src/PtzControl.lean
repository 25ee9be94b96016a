import Mathlib.Data.List.DropRight
import LibuvcH264Src.CachePath
import LibuvcH264Src.SelectorGrammar

/-!
# PTZ and the control socket

* `Ptz` : the axes, the device behind them and what was sent to it; `setPan`, `setTilt`, `setZoom`;
* `scanPanTilt`, `scanZoom` : `sscanf`; `processControlCommand` : one command;
* `CommandGrammar` : the intended commands, `LooseCommand` : what `sscanf` takes for one;
* `control_grammar_iff` : the commands that are answered as intended;
* `controlConnection` : one connection, `control_framing` : how its first read decides what is executed.
-/

namespace LibuvcH264Src
open AnnexB

/-! ## Axes and device -/

inductive Axis where
  | pan
  | tilt
  | zoom
  deriving DecidableEq

/-- `*_supported`, `*_min`, `*_max` and `*_cur` of an axis. -/
structure AxisState where
  supported : Bool
  min : Int
  max : Int
  cur : Int
  deriving DecidableEq

/-- Where the device stands. -/
structure Position where
  pan : Int
  tilt : Int
  zoom : Int
  deriving DecidableEq

/-- `uvc_set_pantilt_abs` and `uvc_set_zoom_abs`. -/
inductive Transfer where
  | panTilt (pan tilt : Int)
  | zoom (zoom : Int)
  deriving DecidableEq

def Position.apply (d : Position) : Transfer → Position
  | .panTilt pan tilt => { d with pan := pan, tilt := tilt }
  | .zoom zoom => { d with zoom := zoom }

/-- The fields of the element that the PTZ code reads, the device, and the transfers with their success, oldest first. -/
structure Ptz where
  handle : Bool
  pan : AxisState
  tilt : AxisState
  zoom : AxisState
  device : Position
  sent : List (Transfer × Bool)
  deriving DecidableEq

def Ptz.axis (s : Ptz) : Axis → AxisState
  | .pan => s.pan
  | .tilt => s.tilt
  | .zoom => s.zoom

@[simp] theorem Ptz.axis_pan (s : Ptz) : s.axis .pan = s.pan := rfl

@[simp] theorem Ptz.axis_tilt (s : Ptz) : s.axis .tilt = s.tilt := rfl

@[simp] theorem Ptz.axis_zoom (s : Ptz) : s.axis .zoom = s.zoom := rfl

/-- The cached position of an axis. -/
def Ptz.setCur (s : Ptz) (value : Int) : Axis → Ptz
  | .pan => { s with pan := { s.pan with cur := value } }
  | .tilt => { s with tilt := { s.tilt with cur := value } }
  | .zoom => { s with zoom := { s.zoom with cur := value } }

/-! ## The setters -/

/-- `ptz_clamp`. -/
def ptzClamp (value lo hi : Int) : Int :=
  if value < lo then lo else if value > hi then hi else value

/-- What a setter sends for a clamped value: the other half of pan and tilt is the cached one, zoom is 16 bits wide. -/
def Ptz.transfer (s : Ptz) (value : Int) : Axis → Transfer
  | .pan => .panTilt value s.tilt.cur
  | .tilt => .panTilt s.pan.cur value
  | .zoom => .zoom (value % 65536)

/-- The check in front of the lock. -/
def Ptz.gate (s : Ptz) (axis : Axis) : Bool := s.handle && (s.axis axis).supported

/-- A transfer, which is applied in full or has no effect. -/
def Ptz.send (s : Ptz) (t : Transfer) (ok : Bool) : Ptz :=
  { s with device := if ok then s.device.apply t else s.device, sent := s.sent ++ [(t, ok)] }

/-- What a setter does under `control_mutex`. -/
def Ptz.setLocked (s : Ptz) (axis : Axis) (value : Int) (ok : Bool) : Bool × Ptz :=
  let clamped := ptzClamp value (s.axis axis).min (s.axis axis).max
  let sent := s.send (s.transfer clamped axis) ok
  (ok, if ok then sent.setCur clamped axis else sent)

/-- The success of the next transfer, behind the earlier ones. -/
abbrev Transfers := List (Transfer × Bool) → Bool

def Ptz.set (results : Transfers) (axis : Axis) (value : Int) (s : Ptz) : Bool × Ptz :=
  if s.gate axis then s.setLocked axis value (results s.sent) else (false, s)

def setPan (results : Transfers) (value : Int) (s : Ptz) : Bool × Ptz := s.set results .pan value

def setTilt (results : Transfers) (value : Int) (s : Ptz) : Bool × Ptz := s.set results .tilt value

def setZoom (results : Transfers) (value : Int) (s : Ptz) : Bool × Ptz := s.set results .zoom value

/-! ## Commands -/

/-- `%d`: `strtol`, whose value is stored in an `int`. -/
def scanInt (s : List Byte) : Option (Int × List Byte) :=
  let r := strtol s 10
  match r.stop with
  | none => none
  | some rest => some (r.value.bmod (2 ^ 32), rest)

def panTiltWord : List Byte := ascii ['P', 'A', 'N', '_', 'T', 'I', 'L', 'T']

def zoomWord : List Byte := ascii ['Z', 'O', 'O', 'M']

/-- `sscanf(command, "PAN_TILT %d %d", ..) == 2`; a blank of the format is any number of them. -/
def scanPanTilt (command : List Byte) : Option (Int × Int) :=
  match afterTag panTiltWord command with
  | none => none
  | some rest =>
    match scanInt (rest.dropWhile isSpace) with
    | none => none
    | some (pan, rest) =>
      match scanInt (rest.dropWhile isSpace) with
      | none => none
      | some (tilt, _) => some (pan, tilt)

/-- `sscanf(command, "ZOOM %d", ..) == 1`. -/
def scanZoom (command : List Byte) : Option Int :=
  match afterTag zoomWord command with
  | none => none
  | some rest =>
    match scanInt (rest.dropWhile isSpace) with
    | none => none
    | some (zoom, _) => some zoom

/-- A text of the source. -/
def text (cs : String) : List Byte := ascii cs.toList

def printRange (name : String) (axis : AxisState) : List Byte :=
  text " " ++ text name ++ text "=[" ++ printInt axis.min ++ text "," ++ printInt axis.max ++ text "]"

/-- `process_control_command`: the reply and the state behind it. -/
def processControlCommand (results : Transfers) (command : List Byte) (s : Ptz) : List Byte × Ptz :=
  match scanPanTilt command with
  | some (pan, tilt) =>
    let p := if s.pan.supported then setPan results pan s else (true, s)
    let t := if p.2.tilt.supported then setTilt results tilt p.2 else (true, p.2)
    if !(s.pan.supported || p.2.tilt.supported) then (text "ERROR: pan/tilt not supported", t.2)
    else if !(t.1 && p.1) then (text "ERROR: pan/tilt transfer failed", t.2)
    else (text "OK pan=" ++ printInt t.2.pan.cur ++ text " tilt=" ++ printInt t.2.tilt.cur, t.2)
  | none =>
    match scanZoom command with
    | some zoom =>
      if !s.zoom.supported then (text "ERROR: zoom not supported", s)
      else
        let z := setZoom results zoom s
        if !z.1 then (text "ERROR: zoom transfer failed", z.2)
        else (text "OK zoom=" ++ printInt z.2.zoom.cur, z.2)
    | none =>
      if command = text "GET_POSITION" then
        (text "OK pan=" ++ printInt s.pan.cur ++ text " tilt=" ++ printInt s.tilt.cur ++ text " zoom=" ++
          printInt s.zoom.cur, s)
      else if command = text "GET_CAPABILITIES" then
        (text "CAPABILITIES:" ++ (if s.pan.supported then printRange "pan" s.pan else []) ++
          (if s.tilt.supported then printRange "tilt" s.tilt else []) ++
          (if s.zoom.supported then printRange "zoom" s.zoom else []), s)
      else (text "ERROR: Unknown command", s)

/-! ## The socket -/

/-- What ends a command. -/
def isTerminator (b : Byte) : Bool := b = 0x0A || b = 0x0D || b = 0

/-- `sizeof(buffer) - 1`. -/
def readSize : Nat := 255

/-- What the control thread does with the bytes of a read; `none` for no reply. -/
def handleRead (results : Transfers) (buffer : List Byte) (s : Ptz) : Option (List Byte) × Ptz :=
  if buffer = [] then (none, s)
  else
    let command := buffer.takeWhile fun b => !isTerminator b
    let terminated := decide (command.length < buffer.length)
    if !terminated && buffer.length = readSize then (some (text "ERROR: command too long"), s)
    else
      let r := processControlCommand results command s
      (some r.1, r.2)

/-- One connection, whose bytes arrive in these pieces. There is one read. -/
def controlConnection (results : Transfers) (pieces : List (List Byte)) (s : Ptz) : Option (List Byte) × Ptz :=
  handleRead results ((pieces.headD []).take readSize) s

/-! ## One setter -/

theorem Ptz.set_closed {results : Transfers} {axis : Axis} {value : Int} {s : Ptz} (h : s.gate axis = false) :
    s.set results axis value = (false, s) := by
  simp [Ptz.set, h]

theorem Ptz.set_open {results : Transfers} {axis : Axis} {value : Int} {s : Ptz} (h : s.gate axis = true) :
    s.set results axis value = s.setLocked axis value (results s.sent) := by
  simp [Ptz.set, h]

theorem Ptz.setLocked_sent (s : Ptz) (axis : Axis) (value : Int) (ok : Bool) :
    (s.setLocked axis value ok).2.sent =
      s.sent ++ [(s.transfer (ptzClamp value (s.axis axis).min (s.axis axis).max) axis, ok)] := by
  cases ok <;> cases axis <;> rfl

theorem Ptz.set_sent_le (results : Transfers) (axis : Axis) (value : Int) (s : Ptz) :
    s.sent.length ≤ (s.set results axis value).2.sent.length := by
  cases h : s.gate axis with
  | false => rw [Ptz.set_closed h]
  | true => simp [Ptz.set_open h, Ptz.setLocked_sent]

theorem Ptz.set_sent_lt {results : Transfers} {axis : Axis} {value : Int} {s : Ptz} (h : s.gate axis = true) :
    s.sent.length < (s.set results axis value).2.sent.length := by
  simp [Ptz.set_open h, Ptz.setLocked_sent]

/-! ## What `sscanf` takes -/

theorem strtol_dropWhile (s : List Byte) (base : Nat) : strtol (s.dropWhile isSpace) base = strtol s base := by
  rw [strtol_eq, strtol_eq, List.dropWhile_idempotent]

theorem scanInt_dropWhile (s : List Byte) : scanInt (s.dropWhile isSpace) = scanInt s := by
  rw [scanInt, scanInt, strtol_dropWhile]

theorem scanInt_numeral (n : Numeral 10) {rest : List Byte} (hr : NoDigit 10 rest) :
    scanInt (n.bytes ++ rest) = some ((cutLong n.value rest).value.bmod (2 ^ 32), rest) := by
  have hstop : (cutLong n.value rest).stop = some rest := by
    unfold cutLong
    split
    · rfl
    · split <;> rfl
  rw [scanInt, strtol_numeral n (by decide) hr fun h => absurd h (by decide)]
  simp only [hstop]

theorem exists_of_scanInt {s rest : List Byte} {v : Int} (h : scanInt s = some (v, rest)) :
    ∃ n : Numeral 10, s = n.bytes ++ rest ∧ NoDigit 10 rest := by
  rcases exists_numeral s 10 with hnone | ⟨n, rest', rfl, hr, -⟩
  · rw [scanInt, hnone] at h
    cases h
  · rw [scanInt_numeral n hr] at h
    obtain rfl := (Prod.mk.inj (Option.some.inj h)).2
    exact ⟨n, rfl, hr⟩

/-- `PAN_TILT`, two numbers one behind the other, and anything behind them. -/
def LoosePanTilt (command : List Byte) : Prop :=
  ∃ (n m : Numeral 10) (rest : List Byte), command = panTiltWord ++ (n.bytes ++ (m.bytes ++ rest)) ∧
    NoDigit 10 (m.bytes ++ rest) ∧ NoDigit 10 rest

/-- `ZOOM`, a number, and anything behind it. -/
def LooseZoom (command : List Byte) : Prop :=
  ∃ (n : Numeral 10) (rest : List Byte), command = zoomWord ++ (n.bytes ++ rest) ∧ NoDigit 10 rest

theorem scanPanTilt_iff (command : List Byte) : (scanPanTilt command).isSome = true ↔ LoosePanTilt command := by
  constructor
  · intro h
    unfold scanPanTilt at h
    split at h
    · cases h
    · next rest₁ htag =>
      rw [scanInt_dropWhile] at h
      split at h
      · cases h
      · next pan rest₂ hpan =>
        rw [scanInt_dropWhile] at h
        split at h
        · cases h
        · next tilt rest₃ htilt =>
          obtain ⟨n, rfl, hn⟩ := exists_of_scanInt hpan
          obtain ⟨m, rfl, hm⟩ := exists_of_scanInt htilt
          exact ⟨n, m, rest₃, eq_of_afterTag htag, hn, hm⟩
  · rintro ⟨n, m, rest, rfl, hn, hm⟩
    simp only [scanPanTilt, afterTag_append, scanInt_dropWhile, scanInt_numeral n hn, scanInt_numeral m hm,
      Option.isSome_some]

theorem scanZoom_iff (command : List Byte) : (scanZoom command).isSome = true ↔ LooseZoom command := by
  constructor
  · intro h
    unfold scanZoom at h
    split at h
    · cases h
    · next rest₁ htag =>
      rw [scanInt_dropWhile] at h
      split at h
      · cases h
      · next zoom rest₂ hzoom =>
        obtain ⟨n, rfl, hn⟩ := exists_of_scanInt hzoom
        exact ⟨n, rest₂, eq_of_afterTag htag, hn⟩
  · rintro ⟨n, rest, rfl, hn⟩
    simp only [scanZoom, afterTag_append, scanInt_dropWhile, scanInt_numeral n hn, Option.isSome_some]

/-! ## The grammar -/

/-- The value is an `int`. -/
def Numeral.FitsInt (n : Numeral 10) : Prop := -2 ^ 31 ≤ n.value ∧ n.value < 2 ^ 31

/-- The intended commands that move the device: a word, and numbers, each of them behind blanks. -/
inductive CommandGrammar : List Byte → Prop where
  | panTilt (n m : Numeral 10) (hn : n.blanks ≠ []) (hm : m.blanks ≠ []) (hni : n.FitsInt) (hmi : m.FitsInt) :
    CommandGrammar (panTiltWord ++ (n.bytes ++ m.bytes))
  | zoom (n : Numeral 10) (hn : n.blanks ≠ []) (hni : n.FitsInt) : CommandGrammar (zoomWord ++ n.bytes)

theorem Numeral.FitsInt.scan {n : Numeral 10} (h : n.FitsInt) (rest : List Byte) :
    (cutLong n.value rest).value.bmod (2 ^ 32) = n.value := by
  obtain ⟨hlo, hhi⟩ := h
  rw [cutLong, if_neg (by unfold longMax; omega), if_neg (by unfold longMin; omega)]
  apply Int.bmod_eq_of_le_mul_two <;> norm_num <;> omega

theorem Numeral.noDigit_of_blank (n : Numeral 10) (rest : List Byte) (h : n.blanks ≠ []) : NoDigit 10 (n.bytes ++ rest) := by
  obtain ⟨b, bs, hbs⟩ := List.exists_cons_of_ne_nil h
  have hblank := n.isBlanks b (by simp [hbs])
  intro c hc
  obtain rfl : b = c := by simpa [Numeral.bytes, hbs] using hc
  by_contra hd
  have hdigit := digit_ne b (digitValue_widen (by decide) (Option.isSome_iff_ne_none.mpr hd))
  rw [hblank] at hdigit
  exact absurd hdigit.1 (by simp)

/-- A command of the grammar is read with its own numbers. -/
theorem CommandGrammar.scan {command : List Byte} (h : CommandGrammar command) :
    (∃ n m : Numeral 10, command = panTiltWord ++ (n.bytes ++ m.bytes) ∧ scanPanTilt command = some (n.value, m.value)) ∨
    (∃ n : Numeral 10, command = zoomWord ++ n.bytes ∧ scanPanTilt command = none ∧ scanZoom command = some n.value) := by
  cases h with
  | panTilt n m hn hm hni hmi =>
    have hlast : scanInt m.bytes = some (m.value, []) := by
      have h := scanInt_numeral m (noDigit_nil 10)
      rwa [List.append_nil, hmi.scan] at h
    have hnext : NoDigit 10 m.bytes := by simpa using m.noDigit_of_blank [] hm
    refine .inl ⟨n, m, rfl, ?_⟩
    simp only [scanPanTilt, afterTag_append, scanInt_dropWhile, scanInt_numeral n hnext, hni.scan, hlast]
  | zoom n hn hni =>
    have hlast : scanInt n.bytes = some (n.value, []) := by
      have h := scanInt_numeral n (noDigit_nil 10)
      rwa [List.append_nil, hni.scan] at h
    have hword : afterTag panTiltWord (zoomWord ++ n.bytes) = none := if_neg (by simp [panTiltWord, zoomWord, ascii])
    refine .inr ⟨n, rfl, ?_, ?_⟩
    · simp only [scanPanTilt, hword]
    · simp only [scanZoom, afterTag_append, scanInt_dropWhile, hlast]

def IsError (reply : List Byte) : Prop := text "ERROR" <+: reply

instance (reply : List Byte) : Decidable (IsError reply) := inferInstanceAs (Decidable (_ <+: _))

theorem not_isError_cons {b : Byte} {reply : List Byte} (h : b ≠ 0x45) : ¬ IsError (b :: reply) := by
  intro he
  exact h (List.cons_prefix_cons.mp he).1.symm

/-- The device is driven by commands of the grammar only, the two queries are answered, and all else is an error without
an effect. -/
structure AnsweredAsIntended (results : Transfers) (command : List Byte) (s : Ptz) : Prop where
  driven : (processControlCommand results command s).2.sent ≠ s.sent → CommandGrammar command
  queries : command = text "GET_POSITION" ∨ command = text "GET_CAPABILITIES" →
    (processControlCommand results command s).2 = s ∧ ¬ IsError (processControlCommand results command s).1
  others : ¬ CommandGrammar command → command ≠ text "GET_POSITION" → command ≠ text "GET_CAPABILITIES" →
    IsError (processControlCommand results command s).1 ∧ (processControlCommand results command s).2 = s

/-- `sscanf` takes the command, and there is an axis to be moved. -/
def LooseCommand (command : List Byte) (s : Ptz) : Prop :=
  s.handle = true ∧ (LoosePanTilt command ∧ (s.pan.supported = true ∨ s.tilt.supported = true) ∨
    LooseZoom command ∧ s.zoom.supported = true)

/-! ## One command -/

section Command
variable {results : Transfers} {command : List Byte} {s : Ptz}

theorem pan_tilt_driven {p : Int × Int} (hscan : scanPanTilt command = some p) (hh : s.handle = true)
    (hs : s.pan.supported = true ∨ s.tilt.supported = true) :
    s.sent.length < (processControlCommand results command s).2.sent.length := by
  obtain ⟨pan, tilt⟩ := p
  set p := if s.pan.supported then setPan results pan s else (true, s) with hpdef
  set t := if p.2.tilt.supported then setTilt results tilt p.2 else (true, p.2) with htdef
  have hend : (processControlCommand results command s).2 = t.2 := by
    rw [processControlCommand, hscan]
    show (if !(s.pan.supported || p.2.tilt.supported) then (text "ERROR: pan/tilt not supported", t.2)
      else if !(t.1 && p.1) then (text "ERROR: pan/tilt transfer failed", t.2) else (_, t.2)).2 = t.2
    split
    · rfl
    · split <;> rfl
  have hpt : p.2.sent.length ≤ t.2.sent.length := by
    rw [htdef]
    split
    · exact Ptz.set_sent_le results .tilt tilt p.2
    · exact le_rfl
  rw [hend]
  by_cases hpan : s.pan.supported = true
  · have hsp : s.sent.length < p.2.sent.length := by
      rw [hpdef, if_pos hpan]
      exact Ptz.set_sent_lt (by simp [Ptz.gate, Ptz.axis, hh, hpan])
    omega
  · have htilt : s.tilt.supported = true := hs.resolve_left hpan
    have hps : p.2 = s := by rw [hpdef, if_neg hpan]
    rw [htdef, hps, if_pos htilt]
    exact Ptz.set_sent_lt (by simp [Ptz.gate, Ptz.axis, hh, htilt])

theorem pan_tilt_idle {p : Int × Int} (hscan : scanPanTilt command = some p)
    (hno : ¬ (s.handle = true ∧ (s.pan.supported = true ∨ s.tilt.supported = true))) :
    IsError (processControlCommand results command s).1 ∧ (processControlCommand results command s).2 = s := by
  cases hh : s.handle with
  | false =>
    have hclosed : ∀ axis value, s.set results axis value = (false, s) := fun axis value =>
      Ptz.set_closed (by simp [Ptz.gate, hh])
    cases hp : s.pan.supported <;> cases ht : s.tilt.supported <;>
      simp [processControlCommand, hscan, hp, ht, setPan, setTilt, hclosed] <;> decide
  | true =>
    obtain ⟨hp, ht⟩ : s.pan.supported = false ∧ s.tilt.supported = false := by simpa [hh] using hno
    simp [processControlCommand, hscan, hp, ht]
    decide

theorem zoom_driven {z : Int} (hp : scanPanTilt command = none) (hscan : scanZoom command = some z) (hh : s.handle = true)
    (hs : s.zoom.supported = true) : s.sent.length < (processControlCommand results command s).2.sent.length := by
  have hend : (processControlCommand results command s).2 = (setZoom results z s).2 := by
    simp only [processControlCommand, hp, hscan, hs]
    simp only [Bool.not_true, Bool.false_eq_true, if_false]
    split <;> rfl
  rw [hend]
  exact Ptz.set_sent_lt (by simp [Ptz.gate, Ptz.axis, hh, hs])

theorem zoom_idle {z : Int} (hp : scanPanTilt command = none) (hscan : scanZoom command = some z)
    (hno : ¬ (s.handle = true ∧ s.zoom.supported = true)) :
    IsError (processControlCommand results command s).1 ∧ (processControlCommand results command s).2 = s := by
  cases hs : s.zoom.supported with
  | false =>
    simp [processControlCommand, hp, hscan, hs]
    decide
  | true =>
    have hh : s.handle = false := by simpa [hs] using hno
    have hclosed : setZoom results z s = (false, s) := Ptz.set_closed (by simp [Ptz.gate, hh])
    simp [processControlCommand, hp, hscan, hs, hclosed]
    decide

/-- Nothing else is driven. -/
theorem unscanned (results : Transfers) (s : Ptz) (hp : scanPanTilt command = none) (hz : scanZoom command = none) :
    (processControlCommand results command s).2 = s ∧
    (command = text "GET_POSITION" ∨ command = text "GET_CAPABILITIES" →
      ¬ IsError (processControlCommand results command s).1) ∧
    (command ≠ text "GET_POSITION" → command ≠ text "GET_CAPABILITIES" →
      IsError (processControlCommand results command s).1) := by
  simp only [processControlCommand, hp, hz]
  split
  · next hget =>
    exact ⟨rfl, fun _ => not_isError_cons (by decide), fun h => absurd hget h⟩
  · split
    · next hget =>
      exact ⟨rfl, fun _ => not_isError_cons (by decide), fun _ h => absurd hget h⟩
    · next h₁ h₂ =>
      have herror : IsError (text "ERROR: Unknown command") := by decide
      refine ⟨rfl, fun h => ?_, fun _ _ => herror⟩
      rcases h with h | h
      · exact absurd h h₁
      · exact absurd h h₂

end Command

/-- The queries are no commands of the grammar, and `sscanf` does not take them. -/
theorem query_unscanned {command : List Byte} (h : command = text "GET_POSITION" ∨ command = text "GET_CAPABILITIES") :
    scanPanTilt command = none ∧ scanZoom command = none := by
  rcases h with rfl | rfl <;> decide +kernel

theorem not_looseZoom {command : List Byte} (h : LoosePanTilt command) : ¬ LooseZoom command := by
  rintro ⟨n, rest, heq, -⟩
  obtain ⟨n', m', rest', rfl, -⟩ := h
  exact absurd (List.cons.inj heq).1 (by decide)

/-- **The grammar of the socket.** A command is answered as intended unless it is none of the grammar, `sscanf` takes it, and
there is an axis to be moved. -/
theorem control_grammar_iff (results : Transfers) (command : List Byte) (s : Ptz) :
    AnsweredAsIntended results command s ↔ ¬ (¬ CommandGrammar command ∧ LooseCommand command s) := by
  have hquery : (scanPanTilt command).isSome = true ∨ (scanZoom command).isSome = true →
      ¬ (command = text "GET_POSITION" ∨ command = text "GET_CAPABILITIES") := by
    intro h hq
    obtain ⟨hp, hz⟩ := query_unscanned hq
    simp [hp, hz] at h
  -- a command that is taken and moves nothing is an error without an effect
  have hidle : (scanPanTilt command).isSome = true ∨ (scanZoom command).isSome = true →
      IsError (processControlCommand results command s).1 ∧ (processControlCommand results command s).2 = s →
      AnsweredAsIntended results command s := fun hscan ⟨herror, hsame⟩ =>
    ⟨fun h => absurd (congrArg Ptz.sent hsame) h, fun h => absurd h (hquery hscan), fun _ _ _ => ⟨herror, hsame⟩⟩
  -- and one that moves something is as it should be exactly if it is in the grammar
  have hdriven : (scanPanTilt command).isSome = true ∨ (scanZoom command).isSome = true →
      s.sent.length < (processControlCommand results command s).2.sent.length →
      (AnsweredAsIntended results command s ↔ CommandGrammar command) := by
    intro hscan hlt
    have hne : (processControlCommand results command s).2.sent ≠ s.sent := by
      intro h
      rw [h] at hlt
      omega
    exact ⟨fun h => h.driven hne, fun h => ⟨fun _ => h, fun hq => absurd hq (hquery hscan), fun hno => absurd h hno⟩⟩
  cases hp : scanPanTilt command with
  | some p =>
    have hsome : (scanPanTilt command).isSome = true := by rw [hp]; rfl
    have hloose := (scanPanTilt_iff command).mp hsome
    have hzoom : ¬ LooseZoom command := not_looseZoom hloose
    by_cases hmove : s.handle = true ∧ (s.pan.supported = true ∨ s.tilt.supported = true)
    · rw [hdriven (.inl hsome) (pan_tilt_driven hp hmove.1 hmove.2)]
      have : LooseCommand command s := ⟨hmove.1, .inl ⟨hloose, hmove.2⟩⟩
      tauto
    · have hno : ¬ LooseCommand command s := by
        rintro ⟨hh, ⟨-, hs⟩ | ⟨hz, -⟩⟩
        · exact hmove ⟨hh, hs⟩
        · exact hzoom hz
      exact ⟨fun _ h => hno h.2, fun _ => hidle (.inl hsome) (pan_tilt_idle hp hmove)⟩
  | none =>
    have hnone : ¬ LoosePanTilt command := by
      rw [← scanPanTilt_iff, hp]
      simp
    cases hz : scanZoom command with
    | some z =>
      have hsome : (scanZoom command).isSome = true := by rw [hz]; rfl
      have hloose := (scanZoom_iff command).mp hsome
      by_cases hmove : s.handle = true ∧ s.zoom.supported = true
      · rw [hdriven (.inr hsome) (zoom_driven hp hz hmove.1 hmove.2)]
        have : LooseCommand command s := ⟨hmove.1, .inr ⟨hloose, hmove.2⟩⟩
        tauto
      · have hno : ¬ LooseCommand command s := by
          rintro ⟨hh, ⟨hl, -⟩ | ⟨-, hs⟩⟩
          · exact hnone hl
          · exact hmove ⟨hh, hs⟩
        exact ⟨fun _ h => hno h.2, fun _ => hidle (.inr hsome) (zoom_idle hp hz hmove)⟩
    | none =>
      have hnoZoom : ¬ LooseZoom command := by
        rw [← scanZoom_iff, hz]
        simp
      obtain ⟨hsame, hquery', hother⟩ := unscanned results s hp hz
      have hno : ¬ LooseCommand command s := by
        rintro ⟨-, ⟨hl, -⟩ | ⟨hl, -⟩⟩
        · exact hnone hl
        · exact hnoZoom hl
      refine ⟨fun _ h => hno h.2, fun _ => ⟨fun h => absurd (congrArg Ptz.sent hsame) h, fun hq => ⟨hsame, hquery' hq⟩, ?_⟩⟩
      exact fun _ h₁ h₂ => ⟨hother h₁ h₂, hsame⟩

/-- An open device with a zoom of 0 to 100. -/
def zoomCamera : Ptz := ⟨true, ⟨false, 0, 0, 0⟩, ⟨false, 0, 0, 0⟩, ⟨true, 0, 100, 0⟩, ⟨0, 0, 0⟩, []⟩

theorem Numeral.ends_digit (n : Numeral 10) (front : List Byte) :
    ∃ b ∈ (front ++ n.bytes).getLast?, (digitValue 10 b).isSome = true := by
  have hne := n.isDigits.1
  refine ⟨n.digits.getLast hne, ?_, n.isDigits.2 _ (List.getLast_mem hne)⟩
  rw [Numeral.bytes, ← List.append_assoc, List.getLast?_append_of_ne_nil _ hne, List.getLast?_eq_some_getLast hne]
  rfl

theorem CommandGrammar.ends_digit {command : List Byte} (h : CommandGrammar command) :
    ∃ b ∈ command.getLast?, (digitValue 10 b).isSome = true := by
  cases h with
  | panTilt n m _ _ _ _ =>
    rw [← List.append_assoc]
    exact m.ends_digit _
  | zoom n _ _ => exact n.ends_digit _

/-- `ZOOM 10x` zooms to 10. -/
theorem not_control_grammar :
    ¬ ∀ (results : Transfers) (command : List Byte) (s : Ptz), AnsweredAsIntended results command s := by
  intro h
  have hdriven : (processControlCommand (fun _ => true) (text "ZOOM 10x") zoomCamera).2.sent ≠ zoomCamera.sent := by
    decide +kernel
  obtain ⟨b, hb, hd⟩ := ((h _ _ _).driven hdriven).ends_digit
  obtain rfl : 0x78 = b := by simpa [text, ascii] using hb
  exact absurd hd (by decide)

/-! ## One connection -/

/-- The command in the bytes of a read. -/
def commandIn (buffer : List Byte) : List Byte := buffer.takeWhile fun b => !isTerminator b

/-- What a connection hands to the processing of commands, if anything. -/
def executedCommand (pieces : List (List Byte)) : Option (List Byte) :=
  let buffer := (pieces.headD []).take readSize
  if buffer = [] ∨ ((commandIn buffer).length = buffer.length ∧ buffer.length = readSize) then none
  else some (commandIn buffer)

/-- A first read that does not fill the buffer. -/
theorem executedCommand_short {piece : List Byte} {pieces : List (List Byte)} (hne : piece ≠ [])
    (hlen : piece.length < readSize) : executedCommand (piece :: pieces) = some (commandIn piece) := by
  have htake : ((piece :: pieces).headD []).take readSize = piece := List.take_of_length_le (by simpa using hlen.le)
  rw [executedCommand, htake]
  apply if_neg
  rintro (h | ⟨-, h⟩)
  · exact hne h
  · omega

/-- What is executed is all that a connection does. -/
theorem controlConnection_executed {results : Transfers} {pieces : List (List Byte)} {s : Ptz} {command : List Byte}
    (h : executedCommand pieces = some command) : controlConnection results pieces s =
      (some (processControlCommand results command s).1, (processControlCommand results command s).2) := by
  unfold executedCommand at h
  simp only at h
  split at h
  · cases h
  · next hno =>
    obtain rfl := Option.some.inj h
    set buffer := (pieces.headD []).take readSize with hbuffer
    have hle : (commandIn buffer).length ≤ buffer.length := (List.takeWhile_prefix _).length_le
    have hshort : (!decide ((commandIn buffer).length < buffer.length) && decide (buffer.length = readSize)) = false := by
      by_contra hc
      simp only [Bool.not_eq_false, Bool.and_eq_true, Bool.not_eq_true', decide_eq_false_iff_not, not_lt,
        decide_eq_true_eq] at hc
      exact hno (.inr ⟨by omega, hc.2⟩)
    show handleRead results buffer s = _
    rw [handleRead, if_neg fun h => hno (.inl h)]
    show (if (!decide ((commandIn buffer).length < buffer.length) && decide (buffer.length = readSize)) = true then _
      else (some (processControlCommand results (commandIn buffer) s).1,
        (processControlCommand results (commandIn buffer) s).2)) = _
    rw [hshort]
    rfl

theorem commandIn_take (line : List Byte) (k : Nat) : commandIn (line.take k) = (commandIn line).take k :=
  List.take_takeWhile.symm

/-- **Framing.** A line that comes in pieces is executed as in one piece exactly if the first piece holds all of its command,
and then to the same effect and with the same reply; else the first piece is executed. -/
theorem control_framing (results : Transfers) (body : List Byte) (pieces : List (List Byte)) (s : Ptz)
    (hlen : (body ++ [0x0A]).length ≤ 254) (hpieces : pieces.flatten = body ++ [0x0A]) (hne : ∀ piece ∈ pieces, piece ≠ []) :
    (executedCommand pieces = executedCommand [body ++ [0x0A]] ↔
      (commandIn (body ++ [0x0A])).length ≤ (pieces.headD []).length) ∧
    ((commandIn (body ++ [0x0A])).length ≤ (pieces.headD []).length →
      controlConnection results pieces s = controlConnection results [body ++ [0x0A]] s) ∧
    ((pieces.headD []).length < (commandIn (body ++ [0x0A])).length →
      executedCommand pieces = some (pieces.headD []) ∧ controlConnection results pieces s =
        (some (processControlCommand results (pieces.headD []) s).1,
          (processControlCommand results (pieces.headD []) s).2)) := by
  set line := body ++ [0x0A] with hline
  have hlast : executedCommand [line] = some (commandIn line) := executedCommand_short (by simp [hline]) (by
    unfold readSize
    omega)
  cases pieces with
  | nil => simp [hline] at hpieces
  | cons piece rest =>
    have hpiece : piece = line.take piece.length := by simp [← hpieces]
    have hshort : piece.length ≤ line.length := by
      rw [← hpieces]
      simp
    have hfirst : executedCommand (piece :: rest) = some (commandIn piece) :=
      executedCommand_short (hne piece List.mem_cons_self) (by unfold readSize; omega)
    have hcommand : commandIn piece = (commandIn line).take piece.length := by
      rw [← commandIn_take, ← hpiece]
    have hsame : (commandIn line).length ≤ piece.length → commandIn piece = commandIn line := fun h => by
      rw [hcommand, List.take_of_length_le h]
    have hall : piece.length < (commandIn line).length → commandIn piece = piece := by
      intro h
      obtain ⟨behind, hbehind⟩ : commandIn line <+: line := List.takeWhile_prefix _
      have htake : line.take piece.length = (commandIn line).take piece.length := by
        calc line.take piece.length = (commandIn line ++ behind).take piece.length := by rw [hbehind]
          _ = (commandIn line).take piece.length := List.take_append_of_le_length h.le
      rw [hcommand, ← htake, ← hpiece]
    rw [List.headD_cons]
    refine ⟨⟨fun h => ?_, fun h => ?_⟩, fun h => ?_, fun h => ?_⟩
    · by_contra hlt
      rw [hfirst, hlast, hall (by omega)] at h
      have hlength := congrArg List.length (Option.some.inj h)
      omega
    · rw [hfirst, hlast, hsame h]
    · rw [controlConnection_executed hfirst, controlConnection_executed hlast, hsame h]
    · rw [hall h] at hfirst
      exact ⟨hfirst, controlConnection_executed hfirst⟩

/-- `ZOOM 10` with its newline in a second piece. -/
theorem control_framing_newline :
    controlConnection (fun _ => true) [text "ZOOM 10", text "\n"] zoomCamera =
      controlConnection (fun _ => true) [text "ZOOM 10" ++ [0x0A]] zoomCamera :=
  (control_framing (fun _ => true) (text "ZOOM 10") [text "ZOOM 10", text "\n"] zoomCamera (by decide) (by decide)
    (by decide)).2.1 (by decide)

/-- `ZOOM 1` and `0` behind it: the device zooms to 1. -/
theorem not_control_framing :
    ¬ ∀ (results : Transfers) (body : List Byte) (pieces : List (List Byte)) (s : Ptz),
      (body ++ [0x0A]).length ≤ 254 → pieces.flatten = body ++ [0x0A] → (∀ piece ∈ pieces, piece ≠ []) →
      controlConnection results pieces s = controlConnection results [body ++ [0x0A]] s := by
  intro h
  have heq := h (fun _ => true) (text "ZOOM 10") [text "ZOOM 1", text "0\n"] zoomCamera (by decide) (by decide) (by decide)
  revert heq
  decide +kernel

end LibuvcH264Src
