import LibuvcH264Src.AccessUnit

/-!
# `frame_callback` (`frame_pipeline.c`)

* `StreamState` : the fields of the instance that the feeder reads or writes;
* `cacheParameterSet`, `deliverAu`, `frameCallback` : the two passes over an access unit, the stamping
  and the walk over one delivery;
* `rearmStream`, `resetStream`, `setClock`, `changeState` : the resets.
-/

namespace LibuvcH264Src
open AnnexB

/-- `G_MAXUINT64`, which is also `GST_CLOCK_TIME_NONE`. -/
def clockTimeNone : UInt64 := 0xFFFFFFFFFFFFFFFF

def gMaxInt : Nat := 2147483647

/-- `SPSPPSBUFSZ`. -/
def spsppsBufSz : Nat := 1024

/-- A cached parameter set: the first `*_length` bytes of its fixed array. -/
structure CachedSet where
  bytes : List Byte
  fits : bytes.length ≤ spsppsBufSz
  deriving DecidableEq

def CachedSet.empty : CachedSet := ⟨[], by decide⟩

/-- The fields of the instance that `frame_callback` works on. Byte strings stand for C strings;
`clock` says whether `self->clock` is set. -/
structure StreamState where
  index : Option (List Byte)
  frameFormat : FrameFormat
  negotiatedWidth : Int
  negotiatedHeight : Int
  clock : Bool
  baseTime : UInt64
  prevPts : UInt64
  frameInterval : Int
  frameOffset : UInt64
  hadIdr : Bool
  sendSpsPps : Bool
  vps : CachedSet
  sps : CachedSet
  pps : CachedSet
  deriving DecidableEq

/-- The stream state of a new instance, as `init` leaves it. -/
def StreamState.init : StreamState where
  index := some [0x30]
  frameFormat := .other
  negotiatedWidth := 0
  negotiatedHeight := 0
  clock := false
  baseTime := clockTimeNone
  prevPts := clockTimeNone
  frameInterval := 0
  frameOffset := 0
  hadIdr := false
  sendSpsPps := false
  vps := .empty
  sps := ⟨[0x00, 0x00, 0x00, 0x01, 0x67, 0x64, 0x00, 0x34, 0xAC, 0x4D, 0x00, 0xF0, 0x04, 0x4F, 0xCB,
    0x35, 0x01, 0x01, 0x01, 0x40, 0x00, 0x00, 0xFA, 0x00, 0x00, 0x3A, 0x98, 0x03, 0xC7, 0x0C, 0xA8],
    by decide⟩
  pps := ⟨[0x00, 0x00, 0x00, 0x01, 0x68, 0xEE, 0x3C, 0xB0], by decide⟩

/-! ## The parameter-set cache -/

/-- `SPSPPS_INDEX_MAX`. -/
def spsppsIndexMax : Nat := 256

/-- `spspps_key_t`. -/
structure SpsppsKey where
  index : List Byte
  haveIndex : Bool
  isH265 : Bool
  width : Int
  height : Int
  deriving DecidableEq, Repr

/-- `spspps_key_snapshot`; `g_strlcpy` keeps the bytes that fit before the terminator. -/
def spsppsKeySnapshot (self : StreamState) : SpsppsKey where
  index := match self.index with
    | some index => index.take (spsppsIndexMax - 1)
    | none => []
  haveIndex := self.index.isSome
  isH265 := self.frameFormat = .h265
  width := self.negotiatedWidth
  height := self.negotiatedHeight

/-- The bytes `store_spspps` writes under `key`. -/
def storeSpspps (self : StreamState) (key : SpsppsKey) : List Byte :=
  (if key.isH265 then self.vps.bytes else []) ++ self.sps.bytes ++ self.pps.bytes

/-- The common part of `cache_parameter_set`: `dst` is the slot of the unit's kind and `write` the
store into it. The flag is `*updated`. -/
def latchSet (self : StreamState) (unit : NalUnit) (updated : Bool) (dst : CachedSet)
    (write : CachedSet → StreamState) : StreamState × Bool :=
  if h : unit.len = 0 ∨ unit.len > spsppsBufSz then (self, updated)
  else if dst.bytes ≠ unit.data then
    ({ write ⟨unit.data, Nat.le_of_not_lt fun hlt => h (Or.inr hlt)⟩ with sendSpsPps := true }, true)
  else ({ self with sendSpsPps := true }, updated)

def cacheParameterSet (self : StreamState) (unit : NalUnit) (updated : Bool) : StreamState × Bool :=
  match unit.type with
  | .vps => latchSet self unit updated self.vps fun set => { self with vps := set }
  | .sps => latchSet self unit updated self.sps fun set => { self with sps := set }
  | .pps => latchSet self unit updated self.pps fun set => { self with pps := set }
  | _ => (self, updated)

/-! ## The first pass: consume the parameter sets and measure the rest -/

structure Measure where
  self : StreamState
  updated : Bool
  hasIdr : Bool
  hasSlice : Bool
  payloadLen : Nat

def measureUnit (m : Measure) (unit : NalUnit) : Measure :=
  if nalIsParameterSet unit.type then
    let r := cacheParameterSet m.self unit m.updated
    { m with self := r.1, updated := r.2 }
  else
    { m with
      hasIdr := m.hasIdr || unit.type = .frameIdr
      hasSlice := m.hasSlice || nalIsSlice unit.type
      payloadLen := m.payloadLen + unit.len }

/-! ## The second pass: fill the buffer -/

/-- `gst_buffer_fill`; a cell that was never written is `none`. -/
def gstBufferFill (mem : List (Option Byte)) (pos : Nat) (src : List Byte) : List (Option Byte) :=
  mem.take pos ++ (src.map some).take (mem.length - pos) ++ mem.drop (pos + src.length)

structure Fill where
  self : StreamState
  mem : List (Option Byte)
  pos : Nat
  prefixed : Bool

def Fill.fill (f : Fill) (src : List Byte) : Fill :=
  { f with mem := gstBufferFill f.mem f.pos src, pos := f.pos + src.length }

/-- The cached sets, in front of the first IDR slice. -/
def Fill.fillSets (f : Fill) : Fill :=
  let f := if f.self.frameFormat = .h265 then f.fill f.self.vps.bytes else f
  let f := f.fill f.self.sps.bytes
  let f := f.fill f.self.pps.bytes
  { f with prefixed := true, self := { f.self with sendSpsPps := false } }

def fillUnit (prefixLen : Nat) (f : Fill) (unit : NalUnit) : Fill :=
  if nalIsParameterSet unit.type then f
  else
    let f := if !f.prefixed ∧ prefixLen > 0 ∧ unit.type = .frameIdr then f.fillSets else f
    f.fill unit.data

/-! ## Stamping -/

/-- A pushed buffer: its memory and the fields `frame_callback` sets. -/
structure GstBuffer where
  data : List (Option Byte)
  pts : UInt64
  dts : UInt64
  duration : UInt64
  offset : UInt64
  offsetEnd : UInt64
  deriving DecidableEq

/-- The stamp at running time `ts` behind the stamp `prev`. -/
def nextPts (prev ts : UInt64) : UInt64 :=
  if prev ≠ clockTimeNone ∧ ts ≤ prev then prev + 1 else ts

/-- The locked read-modify-write of `prev_pts`. -/
def stampPts (self : StreamState) (ts : UInt64) : StreamState × UInt64 :=
  let timestamp := nextPts self.prevPts ts
  ({ self with prevPts := timestamp }, timestamp)

def frameDuration (self : StreamState) : UInt64 :=
  if self.frameInterval > 0 then UInt64.ofInt self.frameInterval else clockTimeNone

/-- The push of one access unit with memory `mem`: an access unit with a slice is stamped, with
`DTS = PTS`. -/
def pushAu (self : StreamState) (ts : UInt64) (hasSlice : Bool) (mem : List (Option Byte)) :
    StreamState × GstBuffer :=
  let stamped := if hasSlice then stampPts self ts else (self, clockTimeNone)
  let self := stamped.1
  ({ self with frameOffset := self.frameOffset + 1 },
    { data := mem
      pts := stamped.2
      dts := stamped.2
      duration := if hasSlice then frameDuration self else clockTimeNone
      offset := self.frameOffset
      offsetEnd := self.frameOffset + 1 })

/-! ## The walk over the access units of a delivery -/

structure Walk where
  self : StreamState
  updated : Bool
  pushed : List GstBuffer

def deliverAu (ts : UInt64) (w : Walk) (au : List NalUnit) : Walk :=
  let m := au.foldl measureUnit ⟨w.self, w.updated, false, false, 0⟩
  let self := m.self
  if (!self.hadIdr ∧ !m.hasIdr) ∨ m.payloadLen = 0 then { w with self := self, updated := m.updated }
  else
    let prefixLen := if m.hasIdr ∧ (!self.hadIdr ∨ self.sendSpsPps) then
        self.sps.bytes.length + self.pps.bytes.length +
          if self.frameFormat = .h265 then self.vps.bytes.length else 0
      else 0
    let f := au.foldl (fillUnit prefixLen)
      ⟨self, List.replicate (prefixLen + m.payloadLen) none, 0, false⟩
    let self := if m.hasIdr then { f.self with hadIdr := true } else f.self
    let r := pushAu self ts m.hasSlice f.mem
    { self := r.1, updated := m.updated, pushed := w.pushed ++ [r.2] }

/-! ## The callback -/

/-- What the callback reads from outside: the clock and the base time of the element. -/
structure Arrival where
  now : UInt64
  elementBaseTime : UInt64
  deriving DecidableEq, Repr

/-- What one call does: the new state, the buffers pushed to `frame_queue` and the file written. -/
structure Outcome where
  self : StreamState
  pushed : List GstBuffer
  stored : Option (SpsppsKey × List Byte)

/-- The locked snapshot of the clock and the cached base time. -/
def snapshotClock (self : StreamState) : Option UInt64 :=
  if self.clock then some self.baseTime else none

/-- The first frame after a reset takes the element's base time and stores it. -/
def latchBaseTime (self : StreamState) (snapshot elementBaseTime : UInt64) : StreamState × UInt64 :=
  if snapshot = clockTimeNone then ({ self with baseTime := elementBaseTime }, elementBaseTime)
  else (self, snapshot)

/-- The frames the callback does not reject up front. -/
def acceptsFrame (frame : Option (List Byte)) : Option (List Byte) :=
  match frame with
  | none => none
  | some data => if data.length = 0 ∨ data.length > gMaxInt then none else some data

def frameCallback (self : StreamState) (arrival : Arrival) (frame : Option (List Byte)) : Outcome :=
  match acceptsFrame frame with
  | none => ⟨self, [], none⟩
  | some data =>
    match snapshotClock self with
    | none => ⟨self, [], none⟩
    | some snapshot =>
      let latched := latchBaseTime self snapshot arrival.elementBaseTime
      let ts := arrival.now - latched.2
      let aus := deliveryAccessUnits self.frameFormat data
      let w := aus.foldl (deliverAu ts) ⟨latched.1, false, []⟩
      let stored := if w.updated then
          let key := spsppsKeySnapshot w.self
          some (key, storeSpspps w.self key)
        else none
      ⟨w.self, w.pushed, stored⟩

/-! ## The resets -/

/-- The stream state that `reopen_once` re-arms in front of `uvc_start_streaming`. -/
def rearmStream (self : StreamState) : StreamState :=
  { self with
    hadIdr := false
    sendSpsPps := false
    baseTime := clockTimeNone
    prevPts := clockTimeNone }

/-- The stream state that `start` resets. -/
def resetStream (self : StreamState) : StreamState :=
  { rearmStream self with frameOffset := 0 }

/-- `set_clock` with a clock (`true`) or with `NULL`. -/
def setClock (self : StreamState) (clock : Bool) : StreamState :=
  if clock then { self with clock := true, baseTime := clockTimeNone, prevPts := clockTimeNone }
  else { self with clock := false }

/-- `GstStateChange`, as far as `change_state` tells transitions apart. -/
inductive StateChange where
  | pausedToPlaying
  | other
  deriving DecidableEq, Repr

def changeState (self : StreamState) (transition : StateChange) : StreamState :=
  if transition = .pausedToPlaying then
    { self with baseTime := clockTimeNone, prevPts := clockTimeNone }
  else self

end LibuvcH264Src
