import Mathlib.Data.List.DropRight
import LibuvcH264Src.Element
import LibuvcH264Src.Numerals

/-!
# Deep USB recovery

* `Sysfs` : what the file system answers about a path; `Store` : the attributes while a recovery writes them;
* `Sysfs.usbRecoveryTargetCapture`, `Sysfs.usbDeepRecoveryRun` : the two calls of the module;
* `writePair_spec`, `writePair_restores_iff` : one rung, its attempts and its outcome, and what it leaves of its attribute;
* `usb_deep_recovery_confined` : what is written, and to which object;
* `usb_deep_recovery_restores_iff` : when the two attributes are left as they were.
-/

namespace LibuvcH264Src
open AnnexB

/-! ## Paths -/

def slash : Byte := 0x2F

/-- `g_build_filename` of two parts. -/
def buildFilename (dir name : List Byte) : List Byte :=
  let core := dir.rdropWhile (· = slash)
  if core = [] then dir ++ name else core ++ slash :: name

/-- `g_path_get_basename`. -/
def pathBasename (path : List Byte) : List Byte :=
  if path = [] then ascii ['.']
  else
    let core := path.rdropWhile (· = slash)
    if core = [] then [slash] else core.rtakeWhile (· ≠ slash)

/-- `g_path_get_dirname`. -/
def pathDirname (path : List Byte) : List Byte :=
  if slash ∉ path then ascii ['.']
  else
    let core := (path.rdropWhile (· ≠ slash)).rdropWhile (· = slash)
    if core = [] then [slash] else core

/-! ## The tree -/

/-- What the calls on a tree return. -/
structure Sysfs where
  /-- `G_FILE_TEST_EXISTS`. -/
  present : List Byte → Bool
  /-- `G_FILE_TEST_IS_DIR`. -/
  isDir : List Byte → Bool
  /-- `g_dir_open` and `g_dir_read_name`. -/
  listing : List Byte → Option (List (List Byte))
  /-- `open` and one long `read`. -/
  content : List Byte → Option (List Byte)
  realpath : List Byte → Option (List Byte)

/-- `g_ascii_isspace`. -/
def gAsciiIsspace (b : Byte) : Bool := b = 0x20 || b = 0x09 || b = 0x0A || b = 0x0C || b = 0x0D

/-- `read_attr`: the trimmed value, if there is one. -/
def readAttr (fs : Sysfs) (dir attr : List Byte) (len : Nat) : Option (List Byte) :=
  match fs.content (buildFilename dir attr) with
  | none => none
  | some bytes =>
    let read := bytes.take (len - 1)
    if read = [] then none
    else
      let buf := (read.takeWhile (· ≠ 0)).rdropWhile gAsciiIsspace
      if buf = [] then none else some buf

/-- `g_ascii_strtoull`, as far as a conversion that takes the whole string. -/
def wholeStrtoull (s : List Byte) (base : Nat) : Option Nat :=
  let signed := splitSign (s.dropWhile isSpace)
  let digits := skipHexMark base signed.2
  let r := readDigits base 0 digits
  if digits = r.2 ∨ r.2 ≠ [] ∨ r.1 ≥ 2 ^ 64 then none
  else some (if signed.1 then (2 ^ 64 - r.1) % 2 ^ 64 else r.1)

/-- `read_attr_uint`. -/
def readAttrUint (fs : Sysfs) (dir attr : List Byte) (base : Nat) : Option Nat :=
  match readAttr fs dir attr 64 with
  | none => none
  | some buf => wholeStrtoull buf base

def idVendor : List Byte := ascii ['i', 'd', 'V', 'e', 'n', 'd', 'o', 'r']
def idProduct : List Byte := ascii ['i', 'd', 'P', 'r', 'o', 'd', 'u', 'c', 't']
def busnum : List Byte := ascii ['b', 'u', 's', 'n', 'u', 'm']
def devnum : List Byte := ascii ['d', 'e', 'v', 'n', 'u', 'm']
def authorized : List Byte := ascii ['a', 'u', 't', 'h', 'o', 'r', 'i', 'z', 'e', 'd']
def disable : List Byte := ascii ['d', 'i', 's', 'a', 'b', 'l', 'e']
def deviceName : List Byte := ascii ['d', 'e', 'v', 'i', 'c', 'e']

/-- `identity_matches`. -/
def identityMatches (fs : Sysfs) (devicePath : List Byte) (vendorId productId : UInt16) : Bool :=
  match readAttrUint fs devicePath idVendor 16, readAttrUint fs devicePath idProduct 16 with
  | some vid, some pid => vid = vendorId.toNat && pid = productId.toNat
  | _, _ => false

/-- One directory entry of `usb_recovery_target_capture`. -/
def captureEntry (fs : Sysfs) (devices : List Byte) (bus address : UInt8) (name : List Byte) : Option UsbRecoveryTarget :=
  if 0x3A ∈ name then none
  else
    let devicePath := buildFilename devices name
    if readAttrUint fs devicePath busnum 10 = some bus.toNat ∧ readAttrUint fs devicePath devnum 10 = some address.toNat then
      match readAttrUint fs devicePath idVendor 16, readAttrUint fs devicePath idProduct 16 with
      | some vid, some pid =>
        match fs.realpath (buildFilename devicePath (ascii ['p', 'o', 'r', 't'])) with
        | some portPath => some ⟨devicePath, portPath, .ofNat vid, .ofNat pid⟩
        | none => none
      | _, _ => none
    else none

/-- `usb_recovery_target_capture`. -/
def Sysfs.usbRecoveryTargetCapture (fs : Sysfs) (root : List Byte) (bus address : UInt8) : Option UsbRecoveryTarget :=
  let devices := buildFilename (buildFilename (buildFilename root (ascii ['b', 'u', 's'])) (ascii ['u', 's', 'b']))
    (ascii ['d', 'e', 'v', 'i', 'c', 'e', 's'])
  match fs.listing devices with
  | none => none
  | some names => names.findSome? (captureEntry fs devices bus address)

/-- `strstr(name, "-port")`. -/
def isPortName (name : List Byte) : Bool := decide (ascii ['-', 'p', 'o', 'r', 't'] <:+: name)

/-- `hub_carries_other_devices`. -/
def hubCarriesOtherDevices (fs : Sysfs) (portPath : List Byte) : Bool :=
  match fs.listing (pathDirname portPath) with
  | none => true
  | some names => names.any fun name =>
      isPortName name && name ≠ pathBasename portPath &&
        fs.present (buildFilename (buildFilename (pathDirname portPath) name) deviceName)

/-! ## Writing -/

/-- The values of `errno` that are told apart. -/
inductive Errno where
  | eacces
  | eperm
  | enoent
  | other
  deriving DecidableEq

/-- How one attempt to write an attribute ends. The attribute may be changed and the write be reported as failed. -/
inductive WriteResult where
  | written
  | openError (e : Errno)
  | writeError (e : Errno) (changed : Bool)
  deriving DecidableEq

/-- The attribute has the new value behind the attempt. -/
def WriteResult.changes : WriteResult → Bool
  | written => true
  | openError _ => false
  | writeError _ changed => changed

/-- One attempt of `write_attr`. -/
structure Attempt where
  path : List Byte
  value : List Byte
  result : WriteResult
  deriving DecidableEq

/-- The attributes, and the attempts in their order. -/
structure Store where
  content : List Byte → Option (List Byte)
  attempts : List Attempt

/-- What comes of the next attempt, behind the earlier ones. -/
abbrev Results := List Attempt → List Byte → List Byte → WriteResult

def Store.attempt (s : Store) (a : Attempt) : Store where
  content := if a.result.changes then Function.update s.content a.path (some a.value) else s.content
  attempts := s.attempts ++ [a]

/-- `*error` behind a failure. -/
def WriteResult.error : WriteResult → Option UsbDeepRecoveryOutcome
  | written => none
  | openError e => some (if e = .eacces ∨ e = .eperm then .denied else if e = .enoent then .unavailable else .failed)
  | writeError e _ => some (if e = .eacces ∨ e = .eperm then .denied else .failed)

/-- `write_attr`: what is left of `*error`, `none` for `TRUE`. -/
def writeAttr (results : Results) (dir attr value : List Byte) (s : Store) : Option UsbDeepRecoveryOutcome × Store :=
  let path := buildFilename dir attr
  let result := results s.attempts path value
  (result.error, s.attempt ⟨path, value, result⟩)

/-- The two writes of a rung. -/
def writePair (results : Results) (dir attr first second : List Byte) (done : UsbDeepRecoveryOutcome) (s : Store) :
    UsbDeepRecoveryOutcome × Store :=
  match writeAttr results dir attr first s with
  | (some error, s) => (error, s)
  | (none, s) =>
    match writeAttr results dir attr second s with
    | (some error, s) => (error, s)
    | (none, s) => (done, s)

/-- `usb_deep_recovery_run`, but for the time the port is held. A target without its paths is `none`. -/
def Sysfs.usbDeepRecoveryRun (fs : Sysfs) (results : Results) (target : Option UsbRecoveryTarget) :
    UsbDeepRecoveryOutcome × Store :=
  let s : Store := ⟨fs.content, []⟩
  match target with
  | none => (.noTarget, s)
  | some target =>
    let occupant := buildFilename target.portPath deviceName
    let portOccupied := fs.present occupant
    let occupantIsOurs := portOccupied && identityMatches fs occupant target.vendorId target.productId
    if portOccupied && !occupantIsOurs then (.refusedIdentity, s)
    else if fs.isDir target.devicePath then
      if !identityMatches fs target.devicePath target.vendorId target.productId then (.refusedIdentity, s)
      else writePair results target.devicePath authorized (ascii ['0']) (ascii ['1']) .deviceReprobed s
    else if hubCarriesOtherDevices fs target.portPath then (.refusedSharedHub, s)
    else writePair results target.portPath disable (ascii ['1']) (ascii ['0']) .portCycled s

/-! ## The target -/

/-- The device directory `devicePath` is the one at this bus and address, with the identity and the port of `target`. -/
structure CapturedFrom (fs : Sysfs) (bus address : UInt8) (target : UsbRecoveryTarget) : Prop where
  busnum : readAttrUint fs target.devicePath busnum 10 = some bus.toNat
  devnum : readAttrUint fs target.devicePath devnum 10 = some address.toNat
  port : fs.realpath (buildFilename target.devicePath (ascii ['p', 'o', 'r', 't'])) = some target.portPath
  vendor : ∃ vid, readAttrUint fs target.devicePath idVendor 16 = some vid ∧ target.vendorId = .ofNat vid
  product : ∃ pid, readAttrUint fs target.devicePath idProduct 16 = some pid ∧ target.productId = .ofNat pid

theorem captureEntry_spec {fs : Sysfs} {devices name : List Byte} {bus address : UInt8} {target : UsbRecoveryTarget}
    (h : captureEntry fs devices bus address name = some target) : CapturedFrom fs bus address target := by
  unfold captureEntry at h
  generalize buildFilename devices name = devicePath at h
  split at h
  · exact absurd h (by simp)
  · simp only at h
    split at h
    · next hdev =>
      split at h
      · next vid pid hvid hpid =>
        split at h
        · next port hport =>
          obtain rfl := Option.some.inj h
          exact ⟨hdev.1, hdev.2, hport, ⟨vid, hvid, rfl⟩, ⟨pid, hpid, rfl⟩⟩
        · exact absurd h (by simp)
      · exact absurd h (by simp)
    · exact absurd h (by simp)

/-- **The capture.** The target is read from one device directory, whose bus and address are the ones asked for. -/
theorem Sysfs.usbRecoveryTargetCapture_spec {fs : Sysfs} {root : List Byte} {bus address : UInt8}
    {target : UsbRecoveryTarget} (h : fs.usbRecoveryTargetCapture root bus address = some target) :
    CapturedFrom fs bus address target := by
  unfold usbRecoveryTargetCapture at h
  simp only at h
  split at h
  · exact absurd h (by simp)
  · obtain ⟨name, -, hname⟩ := List.exists_of_findSome?_eq_some h
    exact captureEntry_spec hname

/-! ## One rung -/

theorem WriteResult.error_eq_none {r : WriteResult} : r.error = none ↔ r = .written := by
  cases r <;> simp [WriteResult.error]

/-- A failure is none of the refusals and none of the successes. -/
theorem WriteResult.error_cases {r : WriteResult} {o : UsbDeepRecoveryOutcome} (h : r.error = some o) :
    o = .denied ∨ o = .unavailable ∨ o = .failed := by
  cases r with
  | written => exact absurd h (by simp [WriteResult.error])
  | openError e => cases e <;> simp [WriteResult.error] at h <;> simp [← h]
  | writeError e changed => cases e <;> simp [WriteResult.error] at h <;> simp [← h]

section Pair
variable {results : Results} {dir attr first second : List Byte} {done : UsbDeepRecoveryOutcome} {s : Store}

/-- The attempt that comes next. -/
def nextAttempt (results : Results) (dir attr value : List Byte) (s : Store) : Attempt :=
  ⟨buildFilename dir attr, value, results s.attempts (buildFilename dir attr) value⟩

theorem writeAttr_eq (value : List Byte) (s : Store) : writeAttr results dir attr value s =
    ((nextAttempt results dir attr value s).result.error, s.attempt (nextAttempt results dir attr value s)) := by rfl

/-- A rung whose first write fails is over. -/
theorem writePair_failed {o : UsbDeepRecoveryOutcome} (h : (nextAttempt results dir attr first s).result.error = some o) :
    writePair results dir attr first second done s = (o, s.attempt (nextAttempt results dir attr first s)) := by
  rw [writePair, writeAttr_eq, h]

/-- Otherwise its outcome is that of the second one. -/
theorem writePair_written (h : (nextAttempt results dir attr first s).result = .written) :
    let s₁ := s.attempt (nextAttempt results dir attr first s)
    let a := nextAttempt results dir attr second s₁
    writePair results dir attr first second done s = (a.result.error.getD done, s₁.attempt a) := by
  intro s₁ a
  rw [writePair, writeAttr_eq, WriteResult.error_eq_none.mpr h]
  show (match writeAttr results dir attr second s₁ with
    | (some error, s) => (error, s)
    | (none, s) => (done, s)) = _
  rw [writeAttr_eq]
  cases a.result.error <;> rfl

/-- **One rung.** All of its attempts are at one path; it succeeds with two writes that both do, and is refused never. -/
theorem writePair_spec (results : Results) (dir attr first second : List Byte) (hs : s.attempts = []) (hdone : done = .deviceReprobed ∨ done = .portCycled) :
    let r := writePair results dir attr first second done s
    r.2.attempts ≠ [] ∧ (∀ a ∈ r.2.attempts, a.path = buildFilename dir attr) ∧
    (r.1 = done ↔ r.2.attempts = [⟨buildFilename dir attr, first, .written⟩, ⟨buildFilename dir attr, second, .written⟩]) ∧
    (r.1 ≠ done → r.1 = .denied ∨ r.1 = .unavailable ∨ r.1 = .failed) := by
  intro r
  cases h : (nextAttempt results dir attr first s).result.error with
  | some o =>
    have hr : r = _ := writePair_failed h
    have ho := WriteResult.error_cases h
    rw [hr]
    refine ⟨by simp [Store.attempt], ?_, ?_, fun _ => ho⟩
    · simp [Store.attempt, hs, nextAttempt]
    · constructor
      · rintro rfl
        rcases hdone with rfl | rfl <;> simp at ho
      · simp [Store.attempt, hs]
  | none =>
    have hfirst := WriteResult.error_eq_none.mp h
    have hr : r = _ := writePair_written hfirst
    have ha : nextAttempt results dir attr first s = ⟨buildFilename dir attr, first, .written⟩ := by
      rw [← hfirst]
      rfl
    set s₁ := s.attempt (nextAttempt results dir attr first s) with hs₁
    set a := nextAttempt results dir attr second s₁ with hadef
    have hpath : a.path = buildFilename dir attr := by rfl
    have hlog : (s₁.attempt a).attempts = [⟨buildFilename dir attr, first, .written⟩, a] := by
      simp [Store.attempt, hs₁, hs, ha]
    rw [hr, hlog]
    refine ⟨by simp, by simp [hpath], ?_, fun hne => ?_⟩
    · constructor
      · intro hdone'
        have hw : a.result = .written := by
          cases he : a.result.error with
          | none => exact WriteResult.error_eq_none.mp he
          | some o =>
            have ho := WriteResult.error_cases he
            simp only [he, Option.getD_some] at hdone'
            subst hdone'
            rcases hdone with rfl | rfl <;> simp at ho
        rw [← hw]
        rfl
      · intro heq
        have hw : a.result = .written := by
          have heq : a = ⟨buildFilename dir attr, second, .written⟩ := by simpa using heq
          rw [heq]
        rw [WriteResult.error_eq_none.mpr hw]
        rfl
    · cases he : a.result.error with
      | none => exact absurd (by simp [he]) hne
      | some o => exact WriteResult.error_cases he

/-- Nothing but its attribute is changed. -/
theorem Store.attempt_content (s : Store) {a : Attempt} {path : List Byte} (h : path ≠ a.path) :
    (s.attempt a).content path = s.content path := by
  simp only [Store.attempt]
  split
  · exact Function.update_of_ne h _ _
  · rfl

theorem Store.attempt_changed (s : Store) {a : Attempt} (h : a.result.changes = true) :
    (s.attempt a).content a.path = some a.value := by
  simp [Store.attempt, h]

theorem Store.attempt_kept (s : Store) {a : Attempt} (h : a.result.changes = false) : (s.attempt a).content = s.content := by
  simp [Store.attempt, h]

theorem writePair_content {path : List Byte} (second : List Byte) (h : path ≠ buildFilename dir attr) :
    (writePair results dir attr first second done s).2.content path = s.content path := by
  cases he : (nextAttempt results dir attr first s).result.error with
  | some o =>
    rw [writePair_failed he]
    exact s.attempt_content h
  | none =>
    rw [writePair_written (WriteResult.error_eq_none.mp he)]
    exact (Store.attempt_content _ h).trans (s.attempt_content h)

/-- The attribute reads as `v`. -/
def AttrIs (content : Option (List Byte)) (v : List Byte) : Prop := content.map (·.rdropWhile gAsciiIsspace) = some v

instance (content : Option (List Byte)) (v : List Byte) : Decidable (AttrIs content v) :=
  inferInstanceAs (Decidable (_ = _))

/-- **The restore.** A rung whose second write takes effect leaves the attribute restored, unless its first write is
reported as failed behind the change of a good value. -/
theorem writePair_restores_iff (hsecond : ∀ log, (results log (buildFilename dir attr) second).changes = true)
    (hs : AttrIs (some second) second) (hf : ¬ AttrIs (some first) second) :
    (AttrIs (s.content (buildFilename dir attr)) second →
      AttrIs ((writePair results dir attr first second done s).2.content (buildFilename dir attr)) second) ↔
    ¬ (AttrIs (s.content (buildFilename dir attr)) second ∧
      ∃ e, results s.attempts (buildFilename dir attr) first = .writeError e true) := by
  set path := buildFilename dir attr with hpath
  set a := nextAttempt results dir attr first s with ha
  have hresult : results s.attempts path first = a.result := by rfl
  rw [hresult]
  cases hr : a.result with
  | written =>
    rw [writePair_written hr]
    refine ⟨fun _ hbad => ?_, fun _ _ => ?_⟩
    · obtain ⟨_, e, he⟩ := hbad
      cases he
    · have hsome := (s.attempt a).attempt_changed (a := nextAttempt results dir attr second (s.attempt a)) (hsecond _)
      show AttrIs (((s.attempt a).attempt (nextAttempt results dir attr second (s.attempt a))).content path) second
      rw [show path = (nextAttempt results dir attr second (s.attempt a)).path from rfl, hsome]
      exact hs
  | openError e =>
    obtain ⟨o, hfail⟩ : ∃ o, a.result.error = some o := by
      rw [hr]
      exact ⟨_, rfl⟩
    rw [writePair_failed hfail]
    refine ⟨fun _ hbad => ?_, fun _ h => ?_⟩
    · obtain ⟨_, e, he⟩ := hbad
      cases he
    · show AttrIs ((s.attempt a).content path) second
      rwa [s.attempt_kept (by rw [hr]; rfl)]
  | writeError e changed =>
    obtain ⟨o, hfail⟩ : ∃ o, a.result.error = some o := by
      rw [hr]
      exact ⟨_, rfl⟩
    rw [writePair_failed hfail]
    cases changed with
    | false =>
      refine ⟨fun _ hbad => ?_, fun _ h => ?_⟩
      · obtain ⟨_, e, he⟩ := hbad
        cases he
      · show AttrIs ((s.attempt a).content path) second
        rwa [s.attempt_kept (by rw [hr]; rfl)]
    | true =>
      have hcontent : (s.attempt a).content path = some first := s.attempt_changed (by rw [hr]; rfl)
      simp only [← ha, hcontent]
      constructor
      · intro h hbad
        exact hf (h hbad.1)
      · intro h hgood
        exact absurd ⟨hgood, e, rfl⟩ h

end Pair

/-! ## The call -/

/-- The device below `dir` reports the captured vendor and product. -/
def Reports (fs : Sysfs) (dir : List Byte) (target : UsbRecoveryTarget) : Prop :=
  readAttrUint fs dir idVendor 16 = some target.vendorId.toNat ∧ readAttrUint fs dir idProduct 16 = some target.productId.toNat

theorem identityMatches_iff {fs : Sysfs} {dir : List Byte} {target : UsbRecoveryTarget} :
    identityMatches fs dir target.vendorId target.productId = true ↔ Reports fs dir target := by
  unfold identityMatches Reports
  split
  · next vid pid hv hp => simp [hv, hp]
  · next hno =>
    refine ⟨fun h => absurd h (by simp), fun ⟨hv, hp⟩ => ?_⟩
    exact absurd hp (hno _ _ hv)

/-- Where something is on the port, it is the captured device. -/
def OccupantIsOurs (fs : Sysfs) (target : UsbRecoveryTarget) : Prop :=
  fs.present (buildFilename target.portPath deviceName) = true →
    Reports fs (buildFilename target.portPath deviceName) target

/-- No other port of the hub has a child. -/
def HubUnshared (fs : Sysfs) (target : UsbRecoveryTarget) : Prop :=
  ∃ names, fs.listing (pathDirname target.portPath) = some names ∧
    ∀ name ∈ names, isPortName name = true → name ≠ pathBasename target.portPath →
      fs.present (buildFilename (buildFilename (pathDirname target.portPath) name) deviceName) = false

theorem hubCarriesOtherDevices_eq_false {fs : Sysfs} {target : UsbRecoveryTarget} :
    hubCarriesOtherDevices fs target.portPath = false ↔ HubUnshared fs target := by
  unfold hubCarriesOtherDevices HubUnshared
  split
  · next h => simp [h]
  · next names h => simp [h]

/-- The device rung is taken. -/
def TakesDevice (fs : Sysfs) (target : UsbRecoveryTarget) : Prop :=
  OccupantIsOurs fs target ∧ fs.isDir target.devicePath = true ∧ Reports fs target.devicePath target

/-- The port rung is taken. -/
def TakesPort (fs : Sysfs) (target : UsbRecoveryTarget) : Prop :=
  OccupantIsOurs fs target ∧ fs.isDir target.devicePath = false ∧ HubUnshared fs target

def zeroText : List Byte := ascii ['0']

def oneText : List Byte := ascii ['1']

def authorizedPath (target : UsbRecoveryTarget) : List Byte := buildFilename target.devicePath authorized

def disablePath (target : UsbRecoveryTarget) : List Byte := buildFilename target.portPath disable

/-- **What a call does.** -/
theorem Sysfs.usbDeepRecoveryRun_cases (fs : Sysfs) (results : Results) (target : UsbRecoveryTarget) :
    (TakesDevice fs target ∧ fs.usbDeepRecoveryRun results (some target) =
      writePair results target.devicePath authorized zeroText oneText .deviceReprobed ⟨fs.content, []⟩) ∨
    (TakesPort fs target ∧ fs.usbDeepRecoveryRun results (some target) =
      writePair results target.portPath disable oneText zeroText .portCycled ⟨fs.content, []⟩) ∨
    (¬ TakesDevice fs target ∧ ¬ TakesPort fs target ∧ ∃ o, (o = .refusedIdentity ∨ o = .refusedSharedHub) ∧
      fs.usbDeepRecoveryRun results (some target) = (o, ⟨fs.content, []⟩)) := by
  have hours : (fs.present (buildFilename target.portPath deviceName) &&
      !(fs.present (buildFilename target.portPath deviceName) &&
        identityMatches fs (buildFilename target.portPath deviceName) target.vendorId target.productId)) = false ↔
      OccupantIsOurs fs target := by
    rw [OccupantIsOurs, ← identityMatches_iff]
    cases fs.present (buildFilename target.portPath deviceName) <;> simp
  simp only [Sysfs.usbDeepRecoveryRun]
  split
  · next hother =>
    have hno : ¬ OccupantIsOurs fs target := by
      intro h
      rw [hours.mpr h] at hother
      cases hother
    exact .inr (.inr ⟨fun h => hno h.1, fun h => hno h.1, _, .inl rfl, rfl⟩)
  · next hother =>
    have hocc : OccupantIsOurs fs target := hours.mp (by simpa using hother)
    cases hdir : fs.isDir target.devicePath with
    | true =>
      rw [if_pos rfl]
      cases hid : identityMatches fs target.devicePath target.vendorId target.productId with
      | true => exact .inl ⟨⟨hocc, hdir, identityMatches_iff.mp hid⟩, rfl⟩
      | false =>
        refine .inr (.inr ⟨fun h => ?_, fun h => ?_, _, .inl rfl, rfl⟩)
        · rw [identityMatches_iff.mpr h.2.2] at hid
          cases hid
        · rw [h.2.1] at hdir
          cases hdir
    | false =>
      rw [if_neg (by simp)]
      cases hhub : hubCarriesOtherDevices fs target.portPath with
      | true =>
        refine .inr (.inr ⟨fun h => ?_, fun h => ?_, _, .inr rfl, rfl⟩)
        · rw [h.2.1] at hdir
          cases hdir
        · rw [hubCarriesOtherDevices_eq_false.mpr h.2.2] at hhub
          cases hhub
      | false => exact .inr (.inl ⟨⟨hocc, hdir, hubCarriesOtherDevices_eq_false.mp hhub⟩, rfl⟩)

theorem getLast?_buildFilename (dir : List Byte) {name : List Byte} (h : name ≠ []) :
    (buildFilename dir name).getLast? = name.getLast? := by
  unfold buildFilename
  simp only
  split
  · rw [List.getLast?_append_of_ne_nil _ h]
  · rw [List.getLast?_append_of_ne_nil _ (by simp), List.getLast?_cons_of_ne_nil h]

/-- The two attributes are two files. -/
theorem disablePath_ne_authorizedPath (target : UsbRecoveryTarget) : disablePath target ≠ authorizedPath target := by
  intro h
  have hlast := congrArg List.getLast? h
  rw [disablePath, authorizedPath, getLast?_buildFilename _ (by decide), getLast?_buildFilename _ (by decide)] at hlast
  exact absurd hlast (by decide)

/-- **Confinement.** All writes go to one attribute: `authorized` of the captured device, which reports the captured
identity, or `disable` of the captured port, where the device is gone and no other port of the hub has a child; what is on
the port is the captured device; a refusal has written nothing, and no other attribute changes. -/
theorem usb_deep_recovery_confined (fs : Sysfs) (results : Results) (target : Option UsbRecoveryTarget) :
    let r := fs.usbDeepRecoveryRun results target
    (r.2.attempts = [] ∨ ∃ t, target = some t ∧ OccupantIsOurs fs t ∧
      ((fs.isDir t.devicePath = true ∧ Reports fs t.devicePath t ∧ ∀ a ∈ r.2.attempts, a.path = authorizedPath t) ∨
        (fs.isDir t.devicePath = false ∧ HubUnshared fs t ∧ ∀ a ∈ r.2.attempts, a.path = disablePath t))) ∧
    (r.1 = .noTarget ∨ r.1 = .refusedIdentity ∨ r.1 = .refusedSharedHub → r.2.attempts = []) ∧
    (∀ path, (∀ a ∈ r.2.attempts, a.path ≠ path) → r.2.content path = fs.content path) := by
  intro r
  cases target with
  | none => exact ⟨.inl rfl, fun _ => rfl, fun _ _ => rfl⟩
  | some t =>
    have hquiet : ∀ {dir attr first second done}, done = .deviceReprobed ∨ done = .portCycled →
        r = writePair results dir attr first second done ⟨fs.content, []⟩ →
        (∀ a ∈ r.2.attempts, a.path = buildFilename dir attr) ∧
        (r.1 = .noTarget ∨ r.1 = .refusedIdentity ∨ r.1 = .refusedSharedHub → r.2.attempts = []) ∧
        (∀ path, (∀ a ∈ r.2.attempts, a.path ≠ path) → r.2.content path = fs.content path) := by
      intro dir attr first second done hdone hr
      have hs : (⟨fs.content, []⟩ : Store).attempts = [] := rfl
      obtain ⟨hne, hpath, -, hother⟩ := writePair_spec results dir attr first second hs hdone
      rw [← hr] at hne hpath hother
      refine ⟨hpath, fun href => ?_, fun path hmiss => ?_⟩
      · by_cases hd : r.1 = done
        · rw [hd] at href
          rcases hdone with rfl | rfl <;> simp at href
        · rcases hother hd with h | h | h <;> rw [h] at href <;> simp at href
      · obtain ⟨a, ha⟩ := List.exists_mem_of_ne_nil _ hne
        rw [hr]
        apply writePair_content
        rw [← hpath a ha]
        exact (hmiss a ha).symm
    rcases fs.usbDeepRecoveryRun_cases results t with ⟨hd, hr⟩ | ⟨hp, hr⟩ | ⟨-, -, o, -, hr⟩
    · obtain ⟨hpath, href, hcontent⟩ := hquiet (.inl rfl) hr
      exact ⟨.inr ⟨t, rfl, hd.1, .inl ⟨hd.2.1, hd.2.2, hpath⟩⟩, href, hcontent⟩
    · obtain ⟨hpath, href, hcontent⟩ := hquiet (.inr rfl) hr
      exact ⟨.inr ⟨t, rfl, hp.1, .inr ⟨hp.2.1, hp.2.2, hpath⟩⟩, href, hcontent⟩
    · have hr : r = (o, ⟨fs.content, []⟩) := hr
      rw [hr]
      exact ⟨.inl rfl, fun _ => rfl, fun _ _ => rfl⟩

/-- Restoring writes take effect. -/
def Restoring (results : Results) (target : UsbRecoveryTarget) : Prop :=
  ∀ log, (results log (disablePath target) zeroText).changes = true ∧
    (results log (authorizedPath target) oneText).changes = true

/-- The first write of the rung is reported as failed, and has changed an attribute that held the value of the restore. -/
def LeftChanged (fs : Sysfs) (results : Results) (target : UsbRecoveryTarget) : Prop :=
  (TakesDevice fs target ∧ AttrIs (fs.content (authorizedPath target)) oneText ∧
    ∃ e, results [] (authorizedPath target) zeroText = .writeError e true) ∨
  (TakesPort fs target ∧ AttrIs (fs.content (disablePath target)) zeroText ∧
    ∃ e, results [] (disablePath target) oneText = .writeError e true)

/-- The outcome of a rung is its success where both writes were made and succeeded, and no other success. -/
theorem writePair_outcome {results : Results} {dir attr first second : List Byte} {done other : UsbDeepRecoveryOutcome}
    {s : Store} {path first' second' : List Byte} (hs : s.attempts = [])
    (hdone : done = .deviceReprobed ∨ done = .portCycled) (hother : other = .deviceReprobed ∨ other = .portCycled)
    (hne : done ≠ other) (hpath : buildFilename dir attr ≠ path) :
    let r := writePair results dir attr first second done s
    (r.1 = done ↔ r.2.attempts = [⟨buildFilename dir attr, first, .written⟩, ⟨buildFilename dir attr, second, .written⟩]) ∧
    (r.1 = other ↔ r.2.attempts = [⟨path, first', .written⟩, ⟨path, second', .written⟩]) := by
  intro r
  obtain ⟨-, hall, hsucc, hfail⟩ := writePair_spec results dir attr first second hs hdone
  refine ⟨hsucc, fun h => ?_, fun h => ?_⟩
  · have hnd : r.1 ≠ done := fun hd => hne (hd.symm.trans h)
    rcases hfail hnd with hf | hf | hf <;> rw [h] at hf <;> rcases hother with rfl | rfl <;> cases hf
  · have hmem : (⟨path, first', .written⟩ : Attempt) ∈ r.2.attempts := by
      rw [h]
      exact List.mem_cons_self
    exact absurd (hall _ hmem).symm hpath

/-- What a rung does to its attribute, to another one and to the two successes. -/
theorem writePair_law (results : Results) (dir attr first second : List Byte) {done other : UsbDeepRecoveryOutcome} (s : Store)
    {path : List Byte} (first' second' good : List Byte) (hs : s.attempts = [])
    (hdone : done = .deviceReprobed ∨ done = .portCycled) (hother : other = .deviceReprobed ∨ other = .portCycled)
    (hne : done ≠ other) (hpath : buildFilename dir attr ≠ path)
    (hsecond : ∀ log, (results log (buildFilename dir attr) second).changes = true)
    (hgood : AttrIs (some second) second) (hbad : ¬ AttrIs (some first) second) :
    let r := writePair results dir attr first second done s
    ((AttrIs (s.content (buildFilename dir attr)) second → AttrIs (r.2.content (buildFilename dir attr)) second) ↔
      ¬ (AttrIs (s.content (buildFilename dir attr)) second ∧
        ∃ e, results [] (buildFilename dir attr) first = .writeError e true)) ∧
    (AttrIs (s.content path) good → AttrIs (r.2.content path) good) ∧
    (r.1 = done ↔ r.2.attempts = [⟨buildFilename dir attr, first, .written⟩, ⟨buildFilename dir attr, second, .written⟩]) ∧
    (r.1 = other ↔ r.2.attempts = [⟨path, first', .written⟩, ⟨path, second', .written⟩]) := by
  intro r
  have hkeep : r.2.content path = s.content path := writePair_content second hpath.symm
  have hrestore : (AttrIs (s.content (buildFilename dir attr)) second →
      AttrIs (r.2.content (buildFilename dir attr)) second) ↔ _ := writePair_restores_iff hsecond hgood hbad
  rw [hs] at hrestore
  refine ⟨hrestore, ?_, writePair_outcome hs hdone hother hne hpath⟩
  rw [hkeep]
  exact id

/-- **The restore of a call.** Where restoring writes take effect, `disable` and `authorized` keep their good values and the
successes are reported for two successful writes, exactly where no first write fails behind the change of a good value. -/
theorem usb_deep_recovery_restores_iff (fs : Sysfs) (results : Results) (target : UsbRecoveryTarget)
    (hres : Restoring results target) :
    let r := fs.usbDeepRecoveryRun results (some target)
    ((AttrIs (fs.content (disablePath target)) zeroText → AttrIs (r.2.content (disablePath target)) zeroText) ∧
      (AttrIs (fs.content (authorizedPath target)) oneText → AttrIs (r.2.content (authorizedPath target)) oneText) ∧
      (r.1 = .portCycled ↔
        r.2.attempts = [⟨disablePath target, oneText, .written⟩, ⟨disablePath target, zeroText, .written⟩]) ∧
      (r.1 = .deviceReprobed ↔
        r.2.attempts = [⟨authorizedPath target, zeroText, .written⟩, ⟨authorizedPath target, oneText, .written⟩])) ↔
    ¬ LeftChanged fs results target := by
  intro r
  have hpaths := disablePath_ne_authorizedPath target
  rcases fs.usbDeepRecoveryRun_cases results target with ⟨hd, hr⟩ | ⟨hp, hr⟩ | ⟨hnd, hnp, o, ho, hr⟩
  · have hleft : LeftChanged fs results target ↔ AttrIs (fs.content (authorizedPath target)) oneText ∧
        ∃ e, results [] (authorizedPath target) zeroText = .writeError e true := by
      constructor
      · rintro (⟨-, h⟩ | ⟨h, -⟩)
        · exact h
        · exact absurd (h.2.1.symm.trans hd.2.1) (by simp)
      · exact fun h => .inl ⟨hd, h⟩
    have hr : r = _ := hr
    obtain ⟨hrestore, hkeep, hdone, hother⟩ := writePair_law results target.devicePath authorized zeroText oneText
      ⟨fs.content, []⟩ oneText zeroText zeroText rfl (.inl rfl) (.inr rfl) (by decide) hpaths.symm (fun log => (hres log).2)
      (by decide) (by decide)
    rw [← hr] at hrestore hkeep hdone hother
    rw [hleft]
    exact ⟨fun h => hrestore.mp h.2.1, fun h => ⟨hkeep, hrestore.mpr h, hother, hdone⟩⟩
  · have hleft : LeftChanged fs results target ↔ AttrIs (fs.content (disablePath target)) zeroText ∧
        ∃ e, results [] (disablePath target) oneText = .writeError e true := by
      constructor
      · rintro (⟨h, -⟩ | ⟨-, h⟩)
        · exact absurd (h.2.1.symm.trans hp.2.1) (by simp)
        · exact h
      · exact fun h => .inr ⟨hp, h⟩
    have hr : r = _ := hr
    obtain ⟨hrestore, hkeep, hdone, hother⟩ := writePair_law results target.portPath disable oneText zeroText
      ⟨fs.content, []⟩ zeroText oneText oneText rfl (.inr rfl) (.inl rfl) (by decide) hpaths (fun log => (hres log).1)
      (by decide) (by decide)
    rw [← hr] at hrestore hkeep hdone hother
    rw [hleft]
    exact ⟨fun h => hrestore.mp h.1, fun h => ⟨hrestore.mpr h, hkeep, hdone, hother⟩⟩
  · have hr : r = (o, ⟨fs.content, []⟩) := hr
    rw [hr]
    have hno : ¬ LeftChanged fs results target := by
      rintro (⟨h, -⟩ | ⟨h, -⟩)
      · exact hnd h
      · exact hnp h
    refine ⟨fun _ => hno, fun _ => ⟨id, id, ?_, ?_⟩⟩
    · rcases ho with rfl | rfl <;> simp
    · rcases ho with rfl | rfl <;> simp

/-- A hub without children, one of whose ports is enabled. -/
def emptyHub : Sysfs where
  present _ := false
  isDir _ := false
  listing _ := some []
  content path := if path = ascii ['/', 'h', '/', 'p', '/', 'd', 'i', 's', 'a', 'b', 'l', 'e'] then some (ascii ['0', '\n']) else none
  realpath _ := none

def goneDevice : UsbRecoveryTarget := ⟨ascii ['/', 'd'], ascii ['/', 'h', '/', 'p'], 1, 2⟩

/-- The port is cycled, and enabled behind it. -/
theorem usb_deep_recovery_restores_port :
    (emptyHub.usbDeepRecoveryRun (fun _ _ _ => .written) (some goneDevice)).1 = .portCycled ∧
    AttrIs ((emptyHub.usbDeepRecoveryRun (fun _ _ _ => .written) (some goneDevice)).2.content (disablePath goneDevice))
      zeroText := by
  have hno : ¬ LeftChanged emptyHub (fun _ _ _ => .written) goneDevice := by
    rintro (⟨-, -, e, h⟩ | ⟨-, -, e, h⟩) <;> cases h
  have h := (usb_deep_recovery_restores_iff emptyHub (fun _ _ _ => .written) goneDevice fun _ => ⟨rfl, rfl⟩).mpr hno
  exact ⟨by decide +kernel, h.1 (by decide +kernel)⟩

/-- The write of 1 disables the port and is reported as failed: the port stays disabled. -/
theorem not_usb_deep_recovery_restores :
    ¬ ∀ (fs : Sysfs) (results : Results) (target : UsbRecoveryTarget), Restoring results target →
      AttrIs (fs.content (disablePath target)) zeroText →
      AttrIs ((fs.usbDeepRecoveryRun results (some target)).2.content (disablePath target)) zeroText := by
  intro h
  have hleft := h emptyHub (fun _ path value =>
      if path = disablePath goneDevice ∧ value = oneText then .writeError .other true else .written) goneDevice
    (fun _ => ⟨rfl, rfl⟩) (by decide +kernel)
  revert hleft
  decide +kernel

end LibuvcH264Src
