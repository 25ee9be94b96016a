import LibuvcH264Src.Printed
import LibuvcH264Src.UsbPortRecovery

/-!
# The USB devices behind sysfs

* `Port`, `UsbDevice`, `UsbTree` : what is plugged in where, with the names that the kernel gives;
* `Shows` : the file system shows a tree;
* `UsbTree.locate`, `UsbTree.verdict` : the target of a recovery and what becomes of it, on trees;
* `readAttrUint_number` : the attributes are read as the numbers that the kernel prints;
* `capture_refines` : the capture finds the target, in whatever order the directory is read;
* `usb_recovery_refines` : a capture and a deep recovery later on, on whatever the tree has become.
-/

namespace LibuvcH264Src
open AnnexB

/-! ## Trees -/

/-- A port of a hub: the directory of the hub's interface, and the name of the port in it. -/
structure Port where
  hub : List Byte
  name : List Byte
  rooted : hub ≠ [] ∧ hub.getLast? ≠ some slash
  marked : isPortName name = true
  plain : slash ∉ name
  deriving DecidableEq

def Port.path (p : Port) : List Byte := p.hub ++ slash :: p.name

/-- Where the kernel keeps ports, and how it names the device on each of them. -/
structure Kernel where
  isPort : Port → Prop
  deviceName : Port → List Byte
  injective : ∀ p p', isPort p → isPort p' → deviceName p = deviceName p' → p = p'

structure UsbDevice where
  name : List Byte
  bus : UInt8
  address : UInt8
  vendorId : UInt16
  productId : UInt16
  /-- None for a root hub. -/
  port : Option Port
  deriving DecidableEq

/-- The enumerated devices and the ports of their hubs. -/
structure UsbTree (k : Kernel) where
  devices : List UsbDevice
  ports : List Port
  known : ∀ p ∈ ports, k.isPort p
  attached : ∀ d ∈ devices, ∀ p, d.port = some p → p ∈ ports
  named : ∀ d ∈ devices, ∀ p, k.isPort p → (d.port = some p ↔ d.name = k.deviceName p)
  plain : ∀ d ∈ devices, 0x3A ∉ d.name
  distinct : ∀ d ∈ devices, ∀ d' ∈ devices, d.name = d'.name → d = d'
  addressed : ∀ d ∈ devices, ∀ d' ∈ devices, d.bus = d'.bus → d.address = d'.address → d = d'

namespace UsbTree
variable {k : Kernel}

/-- The device on a port. -/
def occupant (tree : UsbTree k) (p : Port) : Option UsbDevice := tree.devices.find? fun d => d.port = some p

/-- The device at an address and its port, if it has one. -/
def locate (tree : UsbTree k) (bus address : UInt8) : Option (UsbDevice × Port) :=
  (tree.devices.find? fun d => d.bus = bus ∧ d.address = address).bind fun d => d.port.map fun p => (d, p)

/-- What a recovery may do for a device that was on a port. -/
inductive Verdict where
  | refusedIdentity
  | refusedSharedHub
  | reprobe
  | cyclePort
  deriving DecidableEq

/-- Another device on the port is left alone, the device itself is probed again, and a port that lost its device is
cycled if its hub is there and has no other device. -/
def verdict (tree : UsbTree k) (d : UsbDevice) (p : Port) : Verdict :=
  match tree.occupant p with
  | some d' => if d'.vendorId = d.vendorId ∧ d'.productId = d.productId then .reprobe else .refusedIdentity
  | none =>
    if (∃ p' ∈ tree.ports, p'.hub = p.hub) ∧ ∀ p' ∈ tree.ports, p'.hub = p.hub → p' ≠ p → tree.occupant p' = none then
      .cyclePort
    else .refusedSharedHub

theorem occupant_eq_some {tree : UsbTree k} {p : Port} {d : UsbDevice} :
    tree.occupant p = some d ↔ d ∈ tree.devices ∧ d.port = some p := by
  constructor
  · intro h
    exact ⟨List.mem_of_find?_eq_some h, by simpa using List.find?_some h⟩
  · rintro ⟨hd, hp⟩
    obtain ⟨d', h'⟩ : ∃ d', tree.occupant p = some d' :=
      Option.isSome_iff_exists.mp (List.find?_isSome.mpr ⟨d, hd, by simpa using hp⟩)
    have hd' := List.mem_of_find?_eq_some h'
    have hp' : d'.port = some p := by simpa using List.find?_some h'
    have hport := tree.known p (tree.attached d hd p hp)
    have hname : d'.name = d.name := ((tree.named d' hd' p hport).mp hp').trans ((tree.named d hd p hport).mp hp).symm
    rw [h', tree.distinct d' hd' d hd hname]

end UsbTree

/-! ## What sysfs shows -/

/-- `%d` or `%04x` and a newline. -/
def busText (n : UInt8) : List Byte := printed 10 0 n.toNat ++ [0x0A]

def idText (n : UInt16) : List Byte := printed 16 (4 - (Nat.toDigits 16 n.toNat).length) n.toNat ++ [0x0A]

/-- The attributes of a device, in its directory. -/
structure ShowsDevice (fs : Sysfs) (dir : List Byte) (d : UsbDevice) : Prop where
  busnum : fs.content (buildFilename dir busnum) = some (busText d.bus)
  devnum : fs.content (buildFilename dir devnum) = some (busText d.address)
  idVendor : fs.content (buildFilename dir idVendor) = some (idText d.vendorId)
  idProduct : fs.content (buildFilename dir idProduct) = some (idText d.productId)

/-- `bus/usb/devices` below the root. -/
def devicesDir (root : List Byte) : List Byte :=
  buildFilename (buildFilename (buildFilename root (ascii ['b', 'u', 's'])) (ascii ['u', 's', 'b']))
    (ascii ['d', 'e', 'v', 'i', 'c', 'e', 's'])

def devicePath (root name : List Byte) : List Byte := buildFilename (devicesDir root) name

/-- The file system shows the tree. The directories are read in any order, and interfaces, whose names have a colon, stand
between the devices. -/
structure Shows {k : Kernel} (root : List Byte) (tree : UsbTree k) (fs : Sysfs) : Prop where
  listing : ∃ names, fs.listing (devicesDir root) = some names ∧
    ∀ name, 0x3A ∉ name → (name ∈ names ↔ ∃ d ∈ tree.devices, d.name = name)
  device : ∀ d ∈ tree.devices, ShowsDevice fs (devicePath root d.name) d
  directory : ∀ name, 0x3A ∉ name → (fs.isDir (devicePath root name) = true ↔ ∃ d ∈ tree.devices, d.name = name)
  portLink : ∀ d ∈ tree.devices,
    fs.realpath (buildFilename (devicePath root d.name) (ascii ['p', 'o', 'r', 't'])) = d.port.map Port.path
  /-- `device` of a port is there for its device, and has its attributes. -/
  child : ∀ p, k.isPort p → fs.present (buildFilename p.path deviceName) = (tree.occupant p).isSome
  occupant : ∀ p d, tree.occupant p = some d → ShowsDevice fs (buildFilename p.path deviceName) d
  hub : ∀ p ∈ tree.ports, ∃ names, fs.listing p.hub = some names ∧
    ∀ name, isPortName name = true → (name ∈ names ↔ ∃ p' ∈ tree.ports, p'.hub = p.hub ∧ p'.name = name)
  unplugged : ∀ p, k.isPort p → (∀ p' ∈ tree.ports, p'.hub ≠ p.hub) → fs.listing p.hub = none

/-! ## Paths -/

theorem buildFilename_eq {dir : List Byte} (hne : dir ≠ []) (hlast : dir.getLast? ≠ some slash) (name : List Byte) :
    buildFilename dir name = dir ++ slash :: name := by
  have hcore : dir.rdropWhile (· = slash) = dir := by
    rw [List.rdropWhile_eq_self_iff]
    intro h
    rw [List.getLast?_eq_some_getLast h] at hlast
    simpa using hlast
  rw [buildFilename, hcore, if_neg hne]

namespace Port
variable (p : Port)

theorem name_ne_nil : p.name ≠ [] := by
  intro h
  have hmarked := p.marked
  rw [h] at hmarked
  exact absurd hmarked (by decide)

theorem name_last : p.name.getLast? ≠ some slash := by
  intro h
  exact p.plain (List.mem_of_getLast? h)

theorem path_ne : p.path ≠ [] ∧ p.path.getLast? ≠ some slash := by
  refine ⟨by simp [path], ?_⟩
  rw [path, List.getLast?_append_of_ne_nil _ (by simp), List.getLast?_cons_of_ne_nil p.name_ne_nil]
  exact p.name_last

theorem rdropWhile_name {q : Byte → Bool} (h : ∀ b ∈ p.name, q b = true) (front : List Byte) :
    (front ++ p.name).rdropWhile q = front.rdropWhile q := by
  rw [List.rdropWhile, List.reverse_append, List.dropWhile_append_of_pos (by simpa using h), ← List.rdropWhile]

theorem dirname : pathDirname p.path = p.hub := by
  have hplain : ∀ b ∈ p.name, decide (b ≠ slash) = true := by
    intro b hb
    exact decide_eq_true fun h => p.plain (h ▸ hb)
  have hfront : p.path = (p.hub ++ [slash]) ++ p.name := by simp [path]
  have hname : p.path.rdropWhile (· ≠ slash) = p.hub ++ [slash] := by
    rw [hfront, p.rdropWhile_name hplain, List.rdropWhile_concat_neg _ _ _ (by simp)]
  have hhub : (p.hub ++ [slash]).rdropWhile (· = slash) = p.hub := by
    rw [List.rdropWhile_concat_pos _ _ _ (by simp), List.rdropWhile_eq_self_iff]
    intro h hl
    refine p.rooted.2 ?_
    rw [List.getLast?_eq_some_getLast h, of_decide_eq_true hl]
  rw [pathDirname, if_neg (by simp [path]), hname, hhub]
  exact if_neg p.rooted.1

theorem basename : pathBasename p.path = p.name := by
  have hcore : p.path.rdropWhile (· = slash) = p.path := by
    rw [List.rdropWhile_eq_self_iff]
    intro h hl
    refine p.path_ne.2 ?_
    rw [List.getLast?_eq_some_getLast h, of_decide_eq_true hl]
  have hplain : ∀ b ∈ p.name, decide (b ≠ slash) = true := by
    intro b hb
    exact decide_eq_true fun h => p.plain (h ▸ hb)
  rw [pathBasename, if_neg p.path_ne.1, hcore]
  simp only [if_neg p.path_ne.1]
  rw [path, List.rtakeWhile, List.reverse_append, List.reverse_cons, List.append_assoc,
    List.takeWhile_append_of_pos (by simpa using hplain)]
  simp

end Port

/-! ## Numbers -/

section Numbers
variable {fs : Sysfs} {dir attr : List Byte}

/-- Digits and a newline are read as their number. -/
theorem readAttrUint_digits {base : Nat} {digits : List Byte} (hb : base ≤ 16) (hd : Digits base digits)
    (hlen : digits.length ≤ 62) (hvalue : digitsValue base digits < 2 ^ 64)
    (hc : fs.content (buildFilename dir attr) = some (digits ++ [0x0A])) :
    readAttrUint fs dir attr base = some (digitsValue base digits) := by
  have hne : ∀ b ∈ digits, _ := fun b hmem => digit_ne b (digitValue_widen hb (hd.2 b hmem))
  have hplain : ∀ b : Byte, (digitValue 16 b).isSome = true → b ≠ 0 ∧ gAsciiIsspace b = false :=
    forall_byte (by decide +kernel)
  have hdigit : ∀ b ∈ digits, b ≠ 0 ∧ gAsciiIsspace b = false := fun b hmem =>
    hplain b (digitValue_widen hb (hd.2 b hmem))
  have hread : readAttr fs dir attr 64 = some digits := by
    have htake : (digits ++ [0x0A]).take 63 = digits ++ [0x0A] := by
      apply List.take_of_length_le
      rw [List.length_append, List.length_singleton]
      omega
    have hnul : (digits ++ [0x0A]).takeWhile (· ≠ 0) = digits ++ [0x0A] := by
      rw [List.takeWhile_append_of_pos fun b hmem => decide_eq_true (hdigit b hmem).1]
      rfl
    have hchomp : (digits ++ [0x0A]).rdropWhile gAsciiIsspace = digits := by
      rw [List.rdropWhile_concat_pos _ _ _ (by decide), List.rdropWhile_eq_self_iff]
      intro h
      rw [(hdigit _ (List.getLast_mem h)).2]
      decide
    simp only [readAttr, hc]
    rw [htake, if_neg (by simp), hnul, hchomp, if_neg hd.1]
  obtain ⟨b, rest, hcons⟩ := List.exists_cons_of_ne_nil hd.1
  have hhead : ∀ c ∈ digits.head?, isSpace c = false ∧ c ≠ 0x2B ∧ c ≠ 0x2D := by
    intro c hmem
    have h := hne c (List.mem_of_mem_head? hmem)
    exact ⟨h.1, h.2.1, h.2.2.1⟩
  have hsigned : splitSign (digits.dropWhile isSpace) = (false, digits) := by
    rw [dropWhile_of_head fun c hmem => (hhead c hmem).1]
    exact splitSign_append .none fun c hmem => (hhead c hmem).2
  have hmark : skipHexMark base digits = digits := by
    have h : skipHexMark base (digits ++ []) = digits ++ [] := skipHexMark_digits hb hd fun _ => rfl
    rwa [List.append_nil] at h
  have hdigits : readDigits base 0 digits = (digitsValue base digits, []) := by
    have h : readDigits base 0 (digits ++ []) = _ := readDigits_append hd.2 (noDigit_nil base)
    rwa [List.append_nil] at h
  simp only [readAttrUint, hread, wholeStrtoull, hsigned, hmark, hdigits]
  rw [if_neg (by simp [hd.1]; omega)]
  rfl

theorem printed_length {base width n : Nat} (hbase : 1 < base) (hwidth : 0 < width) (hn : n < base ^ width) (zeros : Nat) :
    (printed base zeros n).length ≤ zeros + width := by
  have h := (Nat.length_toDigits_le_iff hbase hwidth).mpr hn
  rw [printed, ascii, List.length_map, List.length_append, List.length_replicate]
  omega

theorem readAttrUint_bus {n : UInt8} (h : fs.content (buildFilename dir attr) = some (busText n)) :
    readAttrUint fs dir attr 10 = some n.toNat := by
  have hn := n.toNat_lt
  have hvalue := digitsValue_printed (by decide : 1 < 10) (by decide) 0 n.toNat
  have hlen := printed_length (by decide : 1 < 10) (by decide : 0 < 3) (by omega : n.toNat < 10 ^ 3) 0
  have hread := readAttrUint_digits (by decide) (printed_digits (by decide) (by decide) 0 n.toNat) (by omega) (by omega) h
  rwa [hvalue] at hread

theorem readAttrUint_id {n : UInt16} (h : fs.content (buildFilename dir attr) = some (idText n)) :
    readAttrUint fs dir attr 16 = some n.toNat := by
  have hn := n.toNat_lt
  have hvalue := digitsValue_printed (by decide : 1 < 16) (by decide) (4 - (Nat.toDigits 16 n.toNat).length) n.toNat
  have hlen := printed_length (by decide : 1 < 16) (by decide : 0 < 4) (by omega : n.toNat < 16 ^ 4)
    (4 - (Nat.toDigits 16 n.toNat).length)
  have hread := readAttrUint_digits (by decide) (printed_digits (by decide) (by decide) _ n.toNat) (by omega) (by omega) h
  rwa [hvalue] at hread

end Numbers

/-! ## The capture -/

/-- The target of a recovery of a device on a port. -/
def recoveryTarget (root : List Byte) (d : UsbDevice) (p : Port) : UsbRecoveryTarget :=
  ⟨devicePath root d.name, p.path, d.vendorId, d.productId⟩

section Capture
variable {k : Kernel} {root : List Byte} {tree : UsbTree k} {fs : Sysfs}

/-- An entry is the target if it is the device at the address. -/
theorem captureEntry_device (h : Shows root tree fs) {d : UsbDevice} (hd : d ∈ tree.devices) (bus address : UInt8) :
    captureEntry fs (devicesDir root) bus address d.name =
      if d.bus = bus ∧ d.address = address then d.port.map (recoveryTarget root d) else none := by
  obtain ⟨hbus, haddress, hvendor, hproduct⟩ := h.device d hd
  have hlink := h.portLink d hd
  unfold devicePath at *
  have haddressed : (some d.bus.toNat = some bus.toNat ∧ some d.address.toNat = some address.toNat) ↔
      d.bus = bus ∧ d.address = address := by
    rw [Option.some_inj, Option.some_inj, UInt8.toNat_inj, UInt8.toNat_inj]
  simp only [captureEntry, if_neg (tree.plain d hd), readAttrUint_bus hbus, readAttrUint_bus haddress, haddressed]
  split_ifs
  · simp only [readAttrUint_id hvendor, readAttrUint_id hproduct, hlink]
    cases d.port with
    | none => rfl
    | some p =>
      simp only [Option.map_some, UInt16.ofNat_toNat]
      rfl
  · rfl

/-- **The capture**, in whatever order the directory is read. -/
theorem capture_refines (h : Shows root tree fs) (bus address : UInt8) :
    fs.usbRecoveryTargetCapture root bus address =
      (tree.locate bus address).map fun at' => recoveryTarget root at'.1 at'.2 := by
  obtain ⟨names, hnames, hdevices⟩ := h.listing
  have hcapture : fs.usbRecoveryTargetCapture root bus address =
      names.findSome? (captureEntry fs (devicesDir root) bus address) := by
    unfold devicesDir at *
    simp only [Sysfs.usbRecoveryTargetCapture, hnames]
  rw [hcapture]
  -- what any entry gives is the target of the device at the address
  have hentry : ∀ name ∈ names, ∀ t, captureEntry fs (devicesDir root) bus address name = some t →
      ∃ d ∈ tree.devices, d.bus = bus ∧ d.address = address ∧ d.port.map (recoveryTarget root d) = some t := by
    intro name hname t ht
    by_cases hcolon : 0x3A ∈ name
    · rw [captureEntry, if_pos hcolon] at ht
      exact absurd ht nofun
    · obtain ⟨d, hd, rfl⟩ := (hdevices name hcolon).mp hname
      rw [captureEntry_device h hd] at ht
      split_ifs at ht with haddressed
      exact ⟨d, hd, haddressed.1, haddressed.2, ht⟩
  cases hfind : tree.devices.find? fun d => d.bus = bus ∧ d.address = address with
  | none =>
    have hnone : ∀ d ∈ tree.devices, ¬ (d.bus = bus ∧ d.address = address) := by
      intro d hd
      have hd := List.find?_eq_none.mp hfind d hd
      simpa using hd
    have hlocate : tree.locate bus address = none := by
      rw [UsbTree.locate, hfind]
      rfl
    rw [hlocate, Option.map_none, List.findSome?_eq_none_iff]
    intro name hname
    by_contra hsome
    obtain ⟨t, ht⟩ := Option.ne_none_iff_exists'.mp hsome
    obtain ⟨d, hd, hbus, haddress, -⟩ := hentry name hname t ht
    exact hnone d hd ⟨hbus, haddress⟩
  | some d =>
    have hd := List.mem_of_find?_eq_some hfind
    have haddressed : d.bus = bus ∧ d.address = address := by simpa using List.find?_some hfind
    have hlocate : (tree.locate bus address).map (fun at' => recoveryTarget root at'.1 at'.2) =
        d.port.map (recoveryTarget root d) := by
      rw [UsbTree.locate, hfind, Option.bind_some, Option.map_map]
      rfl
    have honly : ∀ name ∈ names, ∀ t, captureEntry fs (devicesDir root) bus address name = some t →
        d.port.map (recoveryTarget root d) = some t := by
      intro name hname t ht
      obtain ⟨d', hd', hbus, haddress, ht'⟩ := hentry name hname t ht
      rw [tree.addressed d hd d' hd' (haddressed.1.trans hbus.symm) (haddressed.2.trans haddress.symm)]
      exact ht'
    rw [hlocate]
    cases hfound : names.findSome? (captureEntry fs (devicesDir root) bus address) with
    | none =>
      have hmem : d.name ∈ names := (hdevices d.name (tree.plain d hd)).mpr ⟨d, hd, rfl⟩
      have hgone := List.findSome?_eq_none_iff.mp hfound d.name hmem
      rw [captureEntry_device h hd, if_pos haddressed] at hgone
      exact hgone.symm
    | some t =>
      obtain ⟨name, hname, ht⟩ := List.exists_of_findSome?_eq_some hfound
      exact (honly name hname t ht).symm

end Capture

/-! ## The recovery -/

/-- What a verdict comes to: the writes of a rung, or none. -/
def UsbTree.Verdict.perform (results : Results) (target : UsbRecoveryTarget) (s : Store) :
    UsbTree.Verdict → UsbDeepRecoveryOutcome × Store
  | refusedIdentity => (.refusedIdentity, s)
  | refusedSharedHub => (.refusedSharedHub, s)
  | reprobe => writePair results target.devicePath authorized zeroText oneText .deviceReprobed s
  | cyclePort => writePair results target.portPath disable oneText zeroText .portCycled s

section Recovery
variable {k : Kernel} {root : List Byte} {tree tree' : UsbTree k} {fs fs' : Sysfs}

theorem identityMatches_shown {dir : List Byte} {d : UsbDevice} (h : ShowsDevice fs dir d) (vendorId productId : UInt16) :
    identityMatches fs dir vendorId productId = decide (d.vendorId = vendorId ∧ d.productId = productId) := by
  unfold identityMatches
  simp only [readAttrUint_id h.idVendor, readAttrUint_id h.idProduct, UInt16.toNat_inj]
  rw [Bool.decide_and]

/-- The siblings of a port, as its hub's directory shows them. -/
theorem hubCarriesOtherDevices_shown (h : Shows root tree fs) {p : Port} (hp : k.isPort p) :
    hubCarriesOtherDevices fs p.path = false ↔
      (∃ p' ∈ tree.ports, p'.hub = p.hub) ∧ ∀ p' ∈ tree.ports, p'.hub = p.hub → p' ≠ p → tree.occupant p' = none := by
  have hsibling : ∀ p' ∈ tree.ports, p'.hub = p.hub → buildFilename (buildFilename p.hub p'.name) deviceName =
      buildFilename p'.path deviceName := by
    intro p' _ hhub
    rw [buildFilename_eq p.rooted.1 p.rooted.2 p'.name, ← hhub]
    rfl
  unfold hubCarriesOtherDevices
  rw [p.dirname, p.basename]
  by_cases hthere : ∃ p' ∈ tree.ports, p'.hub = p.hub
  · obtain ⟨q, hq, hqhub⟩ := hthere
    obtain ⟨names, hnames, hports⟩ := h.hub q hq
    rw [hqhub] at hnames hports
    simp only [hnames, List.any_eq_false, Bool.and_eq_true, not_and, Bool.not_eq_true]
    constructor
    · intro hall
      refine ⟨⟨q, hq, hqhub⟩, fun p' hp' hhub hne => ?_⟩
      have hname : p'.name ≠ p.name := by
        intro hname
        apply hne
        cases p'
        cases p
        simp only at hhub hname
        subst hhub hname
        rfl
      have hpresent := hall p'.name ((hports p'.name p'.marked).mpr ⟨p', hp', hhub, rfl⟩) ⟨p'.marked, decide_eq_true hname⟩
      rw [hsibling p' hp' hhub, h.child p' (tree.known p' hp')] at hpresent
      exact Option.isNone_iff_eq_none.mp (by rw [← Option.not_isSome, hpresent]; rfl)
    · rintro ⟨-, hfree⟩ name hname ⟨hmarked, hne⟩
      obtain ⟨p', hp', hhub, rfl⟩ := (hports name hmarked).mp hname
      have hother : p' ≠ p := by
        rintro rfl
        exact absurd rfl (of_decide_eq_true hne)
      rw [hsibling p' hp' hhub, h.child p' (tree.known p' hp'), hfree p' hp' hhub hother]
      rfl
  · have hgone : fs.listing p.hub = none := h.unplugged p hp fun p' hp' hhub => hthere ⟨p', hp', hhub⟩
    simp only [hgone]
    exact ⟨nofun, fun hfree => absurd hfree.1 hthere⟩

/-- **The recovery**, on whatever the tree is then. -/
theorem recovery_refines (h : Shows root tree fs) {d : UsbDevice} {p : Port} (hp : k.isPort p) (hcolon : 0x3A ∉ d.name)
    (hname : d.name = k.deviceName p) (results : Results) :
    fs.usbDeepRecoveryRun results (some (recoveryTarget root d p)) =
      (tree.verdict d p).perform results (recoveryTarget root d p) ⟨fs.content, []⟩ := by
  have hpresent := h.child p hp
  -- the device on the port is the one at the device path
  have hdirectory : fs.isDir (devicePath root d.name) = (tree.occupant p).isSome := by
    apply Bool.eq_iff_iff.mpr
    rw [h.directory d.name hcolon, Option.isSome_iff_exists]
    constructor
    · rintro ⟨d', hd', hsame⟩
      exact ⟨d', UsbTree.occupant_eq_some.mpr ⟨hd', (tree.named d' hd' p hp).mpr (hsame.trans hname)⟩⟩
    · rintro ⟨d', hd'⟩
      obtain ⟨hmem, hport⟩ := UsbTree.occupant_eq_some.mp hd'
      exact ⟨d', hmem, ((tree.named d' hmem p hp).mp hport).trans hname.symm⟩
  simp only [Sysfs.usbDeepRecoveryRun, recoveryTarget, hpresent, hdirectory, UsbTree.verdict]
  cases hoccupant : tree.occupant p with
  | some d' =>
    obtain ⟨hmem, hport⟩ := UsbTree.occupant_eq_some.mp hoccupant
    have hsame : d'.name = d.name := ((tree.named d' hmem p hp).mp hport).trans hname.symm
    have hpath := h.device d' hmem
    rw [hsame] at hpath
    simp only [identityMatches_shown (h.occupant p d' hoccupant), identityMatches_shown hpath, Option.isSome_some,
      Bool.true_and]
    by_cases hid : d'.vendorId = d.vendorId ∧ d'.productId = d.productId
    · simp only [if_pos hid, decide_eq_true hid, Bool.not_true, Bool.false_eq_true, if_false, if_true]
      rfl
    · simp only [if_neg hid, decide_eq_false hid, Bool.not_false, if_true]
      rfl
  | none =>
    have hshared := hubCarriesOtherDevices_shown h hp
    by_cases hfree : (∃ p' ∈ tree.ports, p'.hub = p.hub) ∧
        ∀ p' ∈ tree.ports, p'.hub = p.hub → p' ≠ p → tree.occupant p' = none
    · simp only [if_pos hfree, hshared.mpr hfree, Option.isSome_none, Bool.false_and, Bool.false_eq_true, if_false]
      rfl
    · have hcarries : hubCarriesOtherDevices fs p.path = true := by
        rw [← Bool.not_eq_false, hshared]
        exact hfree
      simp only [if_neg hfree, hcarries, Option.isSome_none, Bool.false_and, Bool.false_eq_true, if_false, if_true]
      rfl

/-- **Capture and recovery on the tree.** A target that is captured while sysfs shows one tree is the device at the address
and its port, if there is one; and the deep recovery for it, while sysfs shows whatever the tree has become, probes the
device again if it still is on its port, leaves another device alone, and cycles the port if it is empty and no other
port of its hub, which is there, has a device. -/
theorem usb_recovery_refines (h : Shows root tree fs) (h' : Shows root tree' fs') (bus address : UInt8) (results : Results) :
    let target := fs.usbRecoveryTargetCapture root bus address
    target = (tree.locate bus address).map (fun at' => recoveryTarget root at'.1 at'.2) ∧
    fs'.usbDeepRecoveryRun results target =
      match tree.locate bus address with
      | none => (.noTarget, ⟨fs'.content, []⟩)
      | some (d, p) => (tree'.verdict d p).perform results (recoveryTarget root d p) ⟨fs'.content, []⟩ := by
  intro target
  have htarget : target = _ := capture_refines h bus address
  refine ⟨htarget, ?_⟩
  rw [htarget]
  cases hlocate : tree.locate bus address with
  | none => rfl
  | some found =>
    obtain ⟨d, p⟩ := found
    obtain ⟨d', hfind, hport⟩ := Option.bind_eq_some_iff.mp hlocate
    obtain ⟨p', hp, heq⟩ := Option.map_eq_some_iff.mp hport
    obtain ⟨rfl, rfl⟩ := Prod.mk.inj heq
    have hd := List.mem_of_find?_eq_some hfind
    have hisPort := tree.known p' (tree.attached d' hd p' hp)
    exact recovery_refines h' hisPort (tree.plain d' hd) ((tree.named d' hd p' hisPort).mp hp) results

end Recovery

/-! ## A camera that is lost -/

def cameraPort : Port := ⟨ascii ['/', 'h'], ascii ['1', '-', 'p', 'o', 'r', 't', '1'], by decide, by decide, by decide⟩

def pluggedCamera : UsbDevice := ⟨ascii ['1', '-', '1'], 1, 2, 0x2CA3, 0x0023, some cameraPort⟩

/-- One port. -/
def onePort : Kernel where
  isPort p := p = cameraPort
  deviceName _ := pluggedCamera.name
  injective _ _ hp hp' _ := hp.trans hp'.symm

/-- The camera is plugged in, or it is not. -/
def cameraTree (plugged : Bool) : UsbTree onePort where
  devices := if plugged then [pluggedCamera] else []
  ports := [cameraPort]
  known p hp := List.mem_singleton.mp hp
  attached d hd p hp := by
    cases plugged with
    | false => exact absurd hd List.not_mem_nil
    | true =>
      obtain rfl := List.mem_singleton.mp hd
      exact List.mem_singleton.mpr (Option.some.inj hp).symm
  named d hd p hp := by
    cases plugged with
    | false => exact absurd hd List.not_mem_nil
    | true =>
      obtain rfl := List.mem_singleton.mp hd
      obtain rfl : p = cameraPort := hp
      exact ⟨fun _ => rfl, fun _ => rfl⟩
  plain d hd := by
    cases plugged with
    | false => exact absurd hd List.not_mem_nil
    | true =>
      obtain rfl := List.mem_singleton.mp hd
      decide
  distinct d hd d' hd' _ := by
    cases plugged with
    | false => exact absurd hd List.not_mem_nil
    | true => exact (List.mem_singleton.mp hd).trans (List.mem_singleton.mp hd').symm
  addressed d hd d' hd' _ _ := by
    cases plugged with
    | false => exact absurd hd List.not_mem_nil
    | true => exact (List.mem_singleton.mp hd).trans (List.mem_singleton.mp hd').symm

def sysRoot : List Byte := ascii ['/', 's']

/-- The attributes of the camera, in one of its directories. -/
def cameraAttributes (dir : List Byte) : List (List Byte × List Byte) :=
  [(buildFilename dir busnum, busText pluggedCamera.bus), (buildFilename dir devnum, busText pluggedCamera.address),
    (buildFilename dir idVendor, idText pluggedCamera.vendorId), (buildFilename dir idProduct, idText pluggedCamera.productId)]

def cameraSysfs (plugged : Bool) : Sysfs where
  present path := plugged && path = buildFilename cameraPort.path deviceName
  isDir path := plugged && path = devicePath sysRoot pluggedCamera.name
  listing path :=
    if path = devicesDir sysRoot then some (if plugged then [ascii ['1', '-', '1', ':', '0'], pluggedCamera.name] else [])
    else if path = cameraPort.hub then some [cameraPort.name]
    else none
  content path :=
    if plugged then
      (cameraAttributes (devicePath sysRoot pluggedCamera.name) ++
        cameraAttributes (buildFilename cameraPort.path deviceName)).lookup path
    else none
  realpath path :=
    if path = buildFilename (devicePath sysRoot pluggedCamera.name) (ascii ['p', 'o', 'r', 't']) then some cameraPort.path
    else none

theorem cameraSysfs_shows (plugged : Bool) : Shows sysRoot (cameraTree plugged) (cameraSysfs plugged) where
  listing := by
    refine ⟨if plugged then [ascii ['1', '-', '1', ':', '0'], pluggedCamera.name] else [],
      by cases plugged <;> decide +kernel, fun name hcolon => ?_⟩
    cases plugged with
    | false => simp [cameraTree]
    | true =>
      have hinterface : name ≠ ascii ['1', '-', '1', ':', '0'] := by
        rintro rfl
        exact hcolon (by decide)
      simp [cameraTree, hinterface, eq_comm]
  device d hd := by
    cases plugged with
    | false => exact absurd hd List.not_mem_nil
    | true =>
      obtain rfl := List.mem_singleton.mp hd
      exact ⟨by decide +kernel, by decide +kernel, by decide +kernel, by decide +kernel⟩
  directory name _ := by
    have hdir : devicesDir sysRoot ≠ [] ∧ (devicesDir sysRoot).getLast? ≠ some slash := by decide +kernel
    have hinj : devicePath sysRoot name = devicePath sysRoot pluggedCamera.name ↔ name = pluggedCamera.name := by
      unfold devicePath
      rw [buildFilename_eq hdir.1 hdir.2, buildFilename_eq hdir.1 hdir.2, List.append_cancel_left_eq, List.cons.injEq]
      exact ⟨fun h => h.2, fun h => ⟨rfl, h⟩⟩
    cases plugged with
    | false => simp [cameraTree, cameraSysfs]
    | true => simp [cameraTree, cameraSysfs, hinj, eq_comm]
  portLink d hd := by
    cases plugged with
    | false => exact absurd hd List.not_mem_nil
    | true =>
      obtain rfl := List.mem_singleton.mp hd
      decide +kernel
  child p hp := by
    obtain rfl : p = cameraPort := hp
    cases plugged <;> decide +kernel
  occupant p d hd := by
    obtain ⟨hmem, hport⟩ := UsbTree.occupant_eq_some.mp hd
    cases plugged with
    | false => exact absurd hmem List.not_mem_nil
    | true =>
      obtain rfl := List.mem_singleton.mp hmem
      obtain rfl := Option.some.inj hport
      exact ⟨by decide +kernel, by decide +kernel, by decide +kernel, by decide +kernel⟩
  hub p hp := by
    obtain rfl := List.mem_singleton.mp hp
    refine ⟨[cameraPort.name], by cases plugged <;> decide +kernel, fun name _ => ?_⟩
    simp [cameraTree, eq_comm]
  unplugged p hp hgone := by
    obtain rfl : p = cameraPort := hp
    exact absurd rfl (hgone cameraPort (List.mem_singleton_self cameraPort))

/-- The camera is captured while it is there, and its port is cycled when it is gone. -/
theorem usb_recovery_refines_lost :
    ((cameraSysfs false).usbDeepRecoveryRun (fun _ _ _ => .written)
      ((cameraSysfs true).usbRecoveryTargetCapture sysRoot 1 2)).1 = .portCycled := by
  have h := (usb_recovery_refines (cameraSysfs_shows true) (cameraSysfs_shows false) 1 2 fun _ _ _ => .written).2
  rw [h]
  decide +kernel

end LibuvcH264Src
