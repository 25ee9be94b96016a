import LibuvcH264Src.Element

/-!
# Negotiation

* `Gst` : what GStreamer makes of a range that is written to a field and of a field that is fixated;
* `scanFormats` : the walk over the descriptors, as the selection behind each frame descriptor;
* `probeStreamCtrl`, `applyMaxPayload`, `applyTransferBuffers` : what is asked of the device for the
  selected mode;
* `negotiate` : all of it.
-/

namespace LibuvcH264Src
open AnnexB Caps Prog

/-- GStreamer's caps functions: `fixate` is `gst_structure_fixate_field_nearest_fraction` with a target
of so many frames a second. -/
structure Gst extends RangeSetter where
  fixate : Rates → Int → Option Fraction
  fixate_offers : ∀ rates fps f, fixate rates fps = some f → rates.Offers (some f.value)
  fixate_nearest : ∀ rates (fps : Int) (q : ℚ), rates.Offers (some q) →
    ∃ f, fixate rates fps = some f ∧ |f.value - fps| ≤ |q - fps|

/-- One that keeps what it refuses, and fixates to the nearest rate. -/
def plainGst : Gst where
  toRangeSetter := keepingSetter
  fixate := Rates.nearest
  fixate_offers _ _ _ h := Rates.nearest_offers h
  fixate_nearest _ _ _ h := Rates.nearest_le h

/-! ## The selection -/

/-- `(gint)(1e7 / interval)`: the quotient of two such numbers, rounded to a double, never rounds up to
the next integer. -/
def intervalFps (interval : UInt32) : Fraction :=
  .whole (10000000 / interval.toNat) (by
    have := Nat.div_le_self 10000000 interval.toNat
    omega)

/-- The product of two `gint`s. -/
@[irreducible] def gintMul (a b : Int) : Int := Int.bmod (a * b) (2 ^ 32)

/-- `gst_libuvc_h264_src_top_rate`. -/
def topRate (rates : Rates) : Int :=
  match rates with
  | .list fs => fs.foldl (fun top f => if f.den > 0 ∧ f.num.tdiv f.den > top then f.num.tdiv f.den else top) (-1)
  | _ => -1

/-- The format that a descriptor stands for. -/
def codecOf (format : FormatDesc) : Option Codec :=
  if format.fourccFormat = ascii ['H', '2', '6', '4'] then some .h264
  else if format.fourccFormat = ascii ['H', '2', '6', '5'] then some .h265
  else none

/-- The caps of the template for one codec. -/
def templateStructure (codec : Codec) : Structure Codec := ⟨codec, none, none, .absent⟩

/-- The locals of the selection loop; `frameFormat` is what it wrote to the instance so far. -/
structure Selection where
  width : Int
  height : Int
  framerate : Int
  bestCaps : Option (List (Structure Codec))
  frameFormat : Option FrameFormat
  ladder : List (Structure Codec)

def Selection.init : Selection := ⟨-1, -1, -1, none, none, []⟩

section Selection
variable (g : Gst) (peer : Peer) (limits : QuirkLimits) (uninitialised : Int × Int)

/-- The working structure with the geometry and the rates of a frame descriptor. `false` stands for the
`continue` of a zero frame interval. -/
def describeFrame (tmp : Structure Codec) (frame : FrameDesc) : Structure Codec × Bool :=
  let tmp := { tmp with width := some frame.wWidth.toNat, height := some frame.wHeight.toNat }
  match frame.intervals with
  | some intervals =>
    ({ tmp with framerate := .list ((intervals.takeWhile (· ≠ 0)).map intervalFps) }, true)
  | none =>
    if frame.dwMinFrameInterval = 0 ∨ frame.dwMaxFrameInterval = 0 then (tmp, false)
    else
      let fpsMin := intervalFps frame.dwMaxFrameInterval
      let fpsMax := intervalFps frame.dwMinFrameInterval
      ({ tmp with framerate := g.set tmp.framerate fpsMin.num fpsMin.den fpsMax.num fpsMax.den }, true)

/-- The first structure, its framerate fixated. -/
def fixateFirst (caps : List (Structure Codec)) (fps : Int) : List (Structure Codec) :=
  match caps with
  | [] => []
  | s :: rest =>
    match g.fixate s.framerate fps with
    | some f => { s with framerate := .fraction f } :: rest
    | none => s :: rest

/-- `gst_structure_get_fraction` of the framerate of the first structure, as a quotient. -/
def fixatedFramerate (caps : List (Structure Codec)) : Int :=
  match caps with
  | ⟨_, _, _, .fraction f⟩ :: _ => f.num.tdiv f.den
  | _ => uninitialised.1.tdiv uninitialised.2

/-- What the loop does with the deliverable part of one descriptor. -/
def considerFrame (codec : Codec) (frame : FrameDesc) (deliverable : List (Structure Codec))
    (sel : Selection) : Selection :=
  match deliverable with
  | [] => sel
  | d :: _ =>
    let sel := { sel with ladder := sel.ladder ++ deliverable }
    let fps := topRate d.framerate
    let resolution := gintMul frame.wWidth.toNat frame.wHeight.toNat
    let area := gintMul sel.width sel.height
    if peer.intersect d ≠ [] ∧ (resolution > area ∨ resolution = area ∧ fps > sel.framerate) then
      let best := fixateFirst g (peer.intersect d) fps
      { sel with
        width := frame.wWidth.toNat
        height := frame.wHeight.toNat
        framerate := fixatedFramerate uninitialised best
        bestCaps := some best
        frameFormat := some codec.format }
    else sel

/-- The selection behind each frame descriptor of a format. -/
def scanFrames (codec : Codec) : Structure Codec → List FrameDesc → Selection → List Selection
  | _, [], _ => []
  | tmp, frame :: rest, sel =>
    let described := describeFrame g tmp frame
    if described.2 then
      let deliverable := uvcQuirksFilterCaps g.toRangeSetter (some limits) [described.1]
      let sel := considerFrame g peer uninitialised codec frame deliverable sel
      sel :: scanFrames codec described.1 rest sel
    else sel :: scanFrames codec described.1 rest sel

def scanFormats : List FormatDesc → Selection → List Selection
  | [], _ => []
  | format :: rest, sel =>
    match codecOf format with
    | none => scanFormats rest sel
    | some codec =>
      let here := scanFrames g peer limits uninitialised codec (templateStructure codec)
        format.frameDescs sel
      here ++ scanFormats rest (here.getLastD sel)

/-- The selection behind the last descriptor. -/
def selectMode (formats : List FormatDesc) : Selection :=
  (scanFormats g peer limits uninitialised formats .init).getLastD .init

end Selection

/-- The caps of a selection that the failure exits behind the loop let through. -/
def Selection.accepted (sel : Selection) : Option (List (Structure Codec)) :=
  if sel.width < 0 ∨ sel.height < 0 ∨ sel.framerate ≤ 0 then none else sel.bestCaps

/-- `gst_caps_is_fixed`, for caps of one structure with a geometry. -/
def capsFixed (caps : List (Structure Codec)) : Bool :=
  match caps with
  | [⟨_, some _, some _, .fraction _⟩] => true
  | _ => false

/-! ## What is asked of the device -/

section Device
variable (env : Env)

/-- `GstLibuvcProbePolicy`. -/
inductive ProbePolicy where
  | single
  | double
  | retry
  deriving DecidableEq

def probeStreamCtrl (width height framerate : Int) (policy : ProbePolicy) : Prog World Int := do
  when (policy = .double) do
    let _ ← getStreamCtrlFormatSize env width height framerate
  let res ← getStreamCtrlFormatSize env width height framerate
  if policy = .retry ∧ res = uvcErrorInvalidMode then
    getStreamCtrlFormatSize env width height framerate
  else return res

def negotiateCleanPayload (width height fps : Int) : Prog World Bool := do
  let res ← getStreamCtrlFormatSize env width height fps
  let w ← get
  if res < 0 then
    record (.cleanRefused ⟨w.stream.frameFormat, width, height, fps⟩ w.own.uvcCtrl)
    return false
  else
    modifyOwn fun self =>
      { self with maxPayloadEffective := self.uvcCtrl.dwMaxPayloadTransferSize }
    return true

/-- `MAX_PAYLOAD_MIN_LEGAL` and `MAX_PAYLOAD_MAX`. -/
def clampMaxPayload (requested : UInt32) : UInt32 := min (max requested 512) (4 * 1024 * 1024)

def applyMaxPayload (width height fps : Int) : Prog World Unit := do
  let requested := (← readProps env).maxPayload
  if requested = 0 then
    modifyOwn fun self =>
      { self with maxPayloadEffective := self.uvcCtrl.dwMaxPayloadTransferSize }
  else
    let clamped := clampMaxPayload requested
    modifyOwn fun self =>
      { self with uvcCtrl := { self.uvcCtrl with dwMaxPayloadTransferSize := clamped } }
    let res ← uvcProbeStreamCtrl env
    let committed := (← get).own.uvcCtrl.dwMaxPayloadTransferSize
    if res < 0 ∨ committed ≠ clamped then
      let _ ← negotiateCleanPayload env width height fps
      return ()
    else modifyOwn fun self => { self with maxPayloadEffective := committed }

/-- `TRANSFER_BUFFERS_MIN` and `TRANSFER_BUFFERS_MAX`. -/
def clampTransferBuffers (requested : UInt32) : UInt32 := min (max requested 2) 100

/-- As built against the fork, which has `uvc_set_transfer_buffers`. -/
def applyTransferBuffers : Prog World Unit := do
  let requested := (← readProps env).transferBuffers
  when (requested ≠ 0) do
    let clamped := clampTransferBuffers requested
    let reply ← request env (.transferBuffers clamped.toUInt8)
    when (¬ reply.res < 0) do
      modifyOwn fun self => { self with transferBuffersEffective := clamped }

/-! ## The vmethod -/

theorem NalUnit.fits (unit : NalUnit) (h : ¬ (unit.len = 0 ∨ unit.len > spsppsBufSz)) : unit.data.length ≤ spsppsBufSz := by
  unfold NalUnit.len at h
  omega

/-- `SPSPPSBUFSZ * 3` bytes of the cache file, cut into at most three units. -/
def loadSpspps (key : SpsppsKey) : Prog World Unit := do
  turn env
  let file ← ask fun log => env.readFile log key
  record (.load key file)
  match file with
  | none => return ()
  | some bytes => modifyStream fun self =>
      (parseNalUnits self.frameFormat 3 (bytes.take (spsppsBufSz * 3))).foldl loadUnit self
where
  loadUnit (self : StreamState) (unit : NalUnit) : StreamState :=
    if h : unit.len = 0 ∨ unit.len > spsppsBufSz then self
    else
      let set : CachedSet := ⟨unit.data, unit.fits h⟩
      match unit.type with
      | .vps => { self with vps := set }
      | .sps => { self with sps := set }
      | .pps => { self with pps := set }
      | _ => self

/-- The writes of the selection loop to `frame_format`, with a turn of the feeder behind each frame. -/
def writeFormats : List Selection → Prog World Unit
  | [] => return ()
  | sel :: rest => do
    modifyStream fun self => { self with frameFormat := sel.frameFormat.getD self.frameFormat }
    turn env
    writeFormats rest

/-- `gst_base_src_set_caps`, which only takes fixed caps. -/
def baseSrcSetCaps (caps : List (Structure Codec)) : Prog World Unit := do
  turn env
  when (capsFixed caps) (record (.setCaps caps))

def publishLadder (ladder : List (Structure Codec)) : Prog World Unit := do
  turn env
  modifyOwn fun self => { self with deliverableCaps := some ladder }

/-- From the selected mode on. -/
def negotiateMode (sel : Selection) (caps : List (Structure Codec)) : Prog World Bool := do
  let res ← probeStreamCtrl env sel.width sel.height sel.framerate .retry
  if res < 0 then return false
  else
    applyMaxPayload env sel.width sel.height sel.framerate
    modifyStream fun self =>
      { self with
        frameInterval := Int.tdiv 1000000000 sel.framerate
        negotiatedWidth := sel.width
        negotiatedHeight := sel.height }
    modifyOwn fun self => { self with negotiatedFramerate := sel.framerate }
    baseSrcSetCaps env caps
    let w ← get
    loadSpspps env (spsppsKeySnapshot w.stream)
    return true

variable (g : Gst)

def negotiate : Prog World Bool := do
  turn env
  let peer ← ask env.peer
  let ids ← ask env.deviceIds
  let limits := match ids with
    | some (vid, pid) => uvcQuirksLimits vid pid
    | none => ⟨0, 0⟩
  let formats ← uvcGetFormatDescs env
  let uninitialised ← ask env.uninitialised
  record (.selecting peer limits formats uninitialised)
  writeFormats env (scanFormats g peer limits uninitialised formats .init)
  let sel := selectMode g peer limits uninitialised formats
  let result ← (do
    if formats.all fun format => (codecOf format).isNone then
      -- the inventory of what the device does advertise, for the log
      let _ ← uvcGetFormatDescs env
      record (.error (.uvc uvcErrorNotSupported
        "negotiating caps: device exposes no H264/H265 format"))
      return false
    else
      match sel.accepted with
      | none => return false
      | some caps => negotiateMode env sel caps)
  publishLadder env sel.ladder
  return result

end Device

end LibuvcH264Src
