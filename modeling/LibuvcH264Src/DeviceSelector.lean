import LibuvcH264Src.FramePipeline

/-!
# The device selector

* `strtol` : the C library's conversion, for 64-bit `long`;
* `parseUint`, `parseSelector` : the `index` property, `selectorMatches` : the devices it selects;
* `findMatching` : the first of the enumerated devices that it selects.
-/

namespace LibuvcH264Src
open AnnexB

/-- The bytes of an ASCII string. -/
def ascii (cs : List Char) : List Byte := cs.map fun c => UInt8.ofNat c.toNat

theorem forall_byte {p : Byte → Prop} (h : ∀ n < 256, p (UInt8.ofNat n)) (b : Byte) : p b := by
  have hb := h b.toNat b.toNat_lt
  rwa [UInt8.ofNat_toNat] at hb

/-! ## `strtol` -/

/-- `isspace` of the C locale. -/
def isSpace (b : Byte) : Bool := b = 0x20 || (0x09 ≤ b && b ≤ 0x0D)

/-- The value of a digit, if it is one in `base`. -/
def digitValue (base : Nat) (b : Byte) : Option Nat :=
  let v :=
    if 0x30 ≤ b ∧ b ≤ 0x39 then some (b.toNat - 0x30)
    else if 0x41 ≤ b ∧ b ≤ 0x5A then some (b.toNat - 0x41 + 10)
    else if 0x61 ≤ b ∧ b ≤ 0x7A then some (b.toNat - 0x61 + 10)
    else none
  v.filter (· < base)

def longMax : Int := 2 ^ 63 - 1

def longMin : Int := -2 ^ 63

/-- What `strtol` returns: the value, `*end` and whether `errno` is `ERANGE`; `stop` is `none` where
nothing was converted and `*end` is the string itself. -/
structure Strtol where
  value : Int
  stop : Option (List Byte)
  erange : Bool
  deriving DecidableEq

/-- The leading digits in `base`, as a number, and what is behind them. -/
def readDigits (base : Nat) : Nat → List Byte → Nat × List Byte
  | acc, [] => (acc, [])
  | acc, b :: rest =>
    match digitValue base b with
    | some d => readDigits base (acc * base + d) rest
    | none => (acc, b :: rest)

/-- A `0x` in front of a hexadecimal digit. -/
def skipHexMark (base : Nat) : List Byte → List Byte
  | 0x30 :: x :: d :: rest =>
    if base = 16 ∧ (x = 0x78 ∨ x = 0x58) ∧ (digitValue 16 d).isSome then d :: rest
    else 0x30 :: x :: d :: rest
  | s => s

def strtol (s : List Byte) (base : Nat) : Strtol :=
  let trimmed := s.dropWhile isSpace
  let signed : Bool × List Byte := match trimmed with
    | 0x2D :: rest => (true, rest)
    | 0x2B :: rest => (false, rest)
    | rest => (false, rest)
  let digits := skipHexMark base signed.2
  match digits with
  | [] => ⟨0, none, false⟩
  | b :: _ =>
    if (digitValue base b).isNone then ⟨0, none, false⟩
    else
      let r := readDigits base 0 digits
      let value : Int := if signed.1 then -(r.1 : Int) else r.1
      if value > longMax then ⟨longMax, some r.2, true⟩
      else if value < longMin then ⟨longMin, some r.2, true⟩
      else ⟨value, some r.2, false⟩

/-! ## The selector -/

/-- One number that is the whole string. -/
def parseUint (s : List Byte) (base : Nat) (min max : Int) : Option Int :=
  if s = [] then none
  else
    let r := strtol s base
    if r.stop ≠ some [] ∨ r.erange ∨ r.value < min ∨ r.value > max then none else some r.value

/-- `GstLibuvcDeviceSelector`. -/
inductive DeviceSelector where
  | ordinal (n : Int)
  | vidPid (vid pid : UInt16)
  | serial (sn : List Byte)
  | busAddr (bus addr : UInt8)
  deriving DecidableEq

/-- The two sides of the first colon. -/
def splitColon (s : List Byte) : Option (List Byte × List Byte) :=
  match s.dropWhile (· ≠ 0x3A) with
  | [] => none
  | _ :: rest => some (s.takeWhile (· ≠ 0x3A), rest)

/-- `g_str_has_prefix`, with what is behind the tag. -/
def afterTag (tag s : List Byte) : Option (List Byte) :=
  if tag.isPrefixOf s then some (s.drop tag.length) else none

def parseSelector (index : Option (List Byte)) : Except String DeviceSelector :=
  match index with
  | none => .error "index is NULL"
  | some index =>
    match afterTag (ascii ['s', 'e', 'r', 'i', 'a', 'l', ':']) index with
    | some sn =>
      if sn = [] then .error "serial selector requires a non-empty serial number"
      else .ok (.serial sn)
    | none =>
      match afterTag (ascii ['b', 'u', 's', ':']) index with
      | some rest =>
        match splitColon rest with
        | none => .error "bus selector requires \"bus:<bus>:<addr>\""
        | some (bus, addr) =>
          match parseUint bus 10 0 255, parseUint addr 10 0 255 with
          | some busV, some addrV => .ok (.busAddr (.ofNat busV.toNat) (.ofNat addrV.toNat))
          | _, _ => .error "bus selector requires \"bus:<bus>:<addr>\" (decimal 0..255 each)"
      | none =>
        match splitColon index with
        | some (vid, pid) =>
          match parseUint vid 16 0 0xFFFF, parseUint pid 16 0 0xFFFF with
          | some vidV, some pidV => .ok (.vidPid (.ofNat vidV.toNat) (.ofNat pidV.toNat))
          | _, _ => .error "vid:pid selector requires hex \"<vid>:<pid>\" (0000..ffff each)"
        | none =>
          match parseUint index 10 0 gMaxInt with
          | some n => .ok (.ordinal n)
          | none => .error ("index must be a non-negative integer ordinal, \"vid:pid\", " ++
              "\"serial:<sn>\", or \"bus:<bus>:<addr>\"")

/-! ## The devices -/

structure DeviceDescriptor where
  idVendor : UInt16
  idProduct : UInt16
  serialNumber : Option (List Byte)
  deriving DecidableEq

/-- One enumerated device. `ref` tells devices apart; a descriptor that cannot be read is `none`. -/
structure Device where
  ref : Nat
  bus : UInt8
  addr : UInt8
  descriptor : Option DeviceDescriptor
  deriving DecidableEq

def selectorMatches (sel : DeviceSelector) (dev : Device) (ordinal : Nat) : Bool :=
  match sel with
  | .ordinal n => decide ((ordinal : Int) = n)
  | .vidPid vid pid =>
    match dev.descriptor with
    | none => false
    | some desc => desc.idVendor = vid && desc.idProduct = pid
  | .serial sn =>
    match dev.descriptor with
    | none => false
    | some desc => desc.serialNumber = some sn
  | .busAddr bus addr => dev.bus = bus && dev.addr = addr

/-- The first of the devices from position `i` on that the selector matches. -/
def findMatching (sel : DeviceSelector) : Nat → List Device → Option (Device × Nat)
  | _, [] => none
  | i, dev :: rest =>
    if selectorMatches sel dev i then some (dev, i) else findMatching sel (i + 1) rest

theorem findMatching_mem {sel : DeviceSelector} {devs : List Device} {i k : Nat} {dev : Device}
    (h : findMatching sel i devs = some (dev, k)) : dev ∈ devs ∧ selectorMatches sel dev k := by
  induction devs generalizing i with
  | nil => exact absurd h (by simp [findMatching])
  | cons d rest ih =>
    unfold findMatching at h
    split at h
    · next hm =>
      obtain ⟨rfl, rfl⟩ := Prod.mk.inj (Option.some.inj h)
      exact ⟨List.mem_cons_self, hm⟩
    · obtain ⟨hmem, hm⟩ := ih h
      exact ⟨List.mem_cons_of_mem _ hmem, hm⟩

example : parseSelector (some (ascii ['0', '8', ':', '0', 'x', 'f'])) = .ok (.vidPid 8 15) := by rfl

end LibuvcH264Src
