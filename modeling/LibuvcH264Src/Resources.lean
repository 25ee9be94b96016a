import LibuvcH264Src.Latches
import LibuvcH264Src.Ledger

/-!
# What is held of libuvc

* `connected`, `Settled`, `Handled` : whether a handle is open, whether one is where a call needs it, and
  whether every call was made with one;
* `handles_open` : no call without an open handle, in a run whose calls are settled;
* `handleUse`, `referenceUse`, `listUse`, `contextUse`, `streamUse` : the resources of libuvc, as ledgers;
* `resources_balanced` : all of them are released once and in order, and none is left behind a stop.
-/

namespace LibuvcH264Src
open AnnexB Caps Prog Ledger

/-! ## Calls on the handle -/

/-- The last handle was not closed since. -/
def connected : List Event → Bool
  | [] => false
  | .openDevice _ _ res :: log => if res < 0 then connected log else true
  | .close _ :: _ => false
  | _ :: log => connected log

/-- `negotiate` and `create` were called with the device open. -/
def settled : List Event → Bool
  | [] => true
  | .called .negotiate :: log => connected log && settled log
  | .called .create :: log => connected log && settled log
  | _ :: log => settled log

/-- A handle that is open. -/
def Opened (handle : Option Nat) (log : List Event) : Prop := ∃ h, handle = some h ∧ h ∈ openHandles log

/-- Every call that takes the device handle was made with an open one. -/
def Handled : List Event → Prop
  | [] => True
  | .request handle _ _ :: log => Opened handle log ∧ Handled log
  | .formatDescs handle :: log => Opened handle log ∧ Handled log
  | _ :: log => Handled log

theorem connected_idle {e : Event} (log : List Event) (he : e.Idle) : connected (e :: log) = connected log := by
  cases e <;> first | rfl | exact he.elim

theorem settled_idle {e : Event} (log : List Event) (he : e.Idle) : settled (e :: log) = settled log := by
  cases e <;> first | rfl | exact he.elim

theorem handled_idle {e : Event} (log : List Event) (he : e.Idle) : Handled (e :: log) = Handled log := by
  cases e <;> first | rfl | exact he.elim

/-- The call that runs has a handle if it needs one. -/
def Grip.Tied : Grip → Prop
  | .stray => False
  | _ => True

/-- The grip and what the log says. -/
structure Secured (isOpen : Bool) (tied : Prop) (link calls : Bool) (uses : Prop) : Prop where
  linked : link = isOpen
  tied : calls = true → tied
  handled : calls = true → uses

def Stage.Secured (s : Stage) (w : World) : Prop :=
  LibuvcH264Src.Secured s.grip.isOpen s.grip.Tied (connected w.log) (settled w.log) (Handled w.log)

theorem Grip.Holds.opened {grip : Grip} {w : World} (h : grip.Holds w) (hopen : grip.isOpen = true) :
    Opened w.own.uvcDevh w.log := by
  obtain ⟨k, hk⟩ := Option.isSome_iff_exists.mp (h.devh.trans hopen)
  exact ⟨k, hk, h.valid k hk⟩

/-- A call on the open handle. -/
theorem Secured.use {isOpen link calls : Bool} {tied uses opened : Prop} (h : Secured isOpen tied link calls uses)
    (hopened : opened) : Secured isOpen tied link calls (opened ∧ uses) :=
  ⟨h.linked, h.tied, fun hsettled => ⟨hopened, h.handled hsettled⟩⟩

theorem called_secured {s : Stage} {w : World} {call : VCall} (htakes : s.Takes call) (h : s.Secured w) :
    (s.called call).Secured (w.note (.called call)) := by
  -- without a handle the call is not settled
  have hstray : s.grip.isOpen = false → call = .negotiate ∨ call = .create →
      ∀ n, Stage.Secured ⟨.stray, n⟩ (w.note (.called call)) := by
    intro hgrip hcall n
    have hclosed : connected w.log = false := h.linked.trans hgrip
    have hunsettled : settled (.called call :: w.log) = false := by
      rcases hcall with rfl | rfl <;> exact Bool.and_eq_false_imp.mpr fun hc => absurd (hclosed.symm.trans hc) nofun
    exact ⟨hclosed, fun hs => absurd (hunsettled.symm.trans hs) nofun,
      fun hs => absurd (hunsettled.symm.trans hs) nofun⟩
  have hkept : s.grip.isOpen = true → ∀ grip n, grip.isOpen = true → grip.Tied →
      Stage.Secured ⟨grip, n⟩ (w.note (.called call)) := by
    intro hgrip grip n hopen hnot
    have hsettled : settled (.called call :: w.log) = true → settled w.log = true := by
      cases call
      case negotiate | create => exact fun hs => (Bool.and_eq_true_iff.mp hs).2
      all_goals exact id
    exact ⟨h.linked.trans (hgrip.trans hopen.symm), fun _ => hnot, fun hs => h.handled (hsettled hs)⟩
  obtain ⟨grip, progress⟩ := s
  cases call
  case negotiate =>
    cases grip
    case opened | ready | running => exact hkept rfl _ _ rfl trivial
    case bare | vacant => exact hstray rfl (Or.inl rfl) _
    all_goals exact htakes.1.elim
  case create =>
    cases grip
    case ready | running => exact hkept rfl _ _ rfl trivial
    case bare | vacant => exact hstray rfl (Or.inr rfl) _
    case opened => exact absurd rfl htakes.2.1
    all_goals exact htakes.1.1.elim
  all_goals exact h

theorem Step.secured {g : Gst} {s s' : Stage} {w w' : World} (hs : Step g s w s' w') (hg : s.grip.Holds w)
    (h : s.Secured w) : s'.Secured w' := by
  cases hs
  case others others budget =>
    unfold Stage.Secured
    rw [log_others (fun e log he => connected_idle log he), log_others (fun e log he => settled_idle log he),
      log_others (fun e log he => handled_idle log he)]
    exact h
  case plain e he => cases e <;> first | exact h | exact he.elim
  case call call htakes => exact called_secured htakes h
  case init n res =>
    by_cases hres : res < 0
    · simp only [if_pos hres]
      exact h
    · simp only [if_neg hres]
      exact h
  case lookFor n devs => cases devs <;> exact h
  case refused n dev grip res hres hgrip =>
    have hlink : connected (.openDevice dev (nextHandle w.log) res :: w.log) = connected w.log := if_pos hres
    exact ⟨hlink.trans h.linked, h.tied, h.handled⟩
  case openHeld n dev res hres hdev => exact ⟨if_neg hres, fun _ => trivial, h.handled⟩
  case openFound n dev res hres => exact ⟨if_neg hres, fun _ => trivial, h.handled⟩
  case close n grip k hgrip hdevh => exact ⟨rfl, fun _ => trivial, h.handled⟩
  case transfer requested reply hgrip =>
    refine h.use (hg.opened ?_)
    rcases hgrip with hgrip | hgrip <;> rw [hgrip] <;> rfl
  case begin n grip hgrip => rcases hgrip with rfl | rfl <;> exact h
  case start n grip hgrip hn reply hres => rcases hgrip with rfl | rfl <;> exact h.use (hg.opened rfl)
  case startRefused reply hres hgrip =>
    refine h.use (hg.opened ?_)
    rcases hgrip with hgrip | hgrip <;> rw [hgrip] <;> rfl
  case probe mode reply hgrip => exact h.use (hg.opened hgrip.isOpen)
  case payload reply hgrip => exact h.use (hg.opened hgrip.isOpen)
  case clean mode reply hleft hgrip =>
    refine h.use (hg.opened ?_)
    rcases hgrip with hgrip | ⟨hgrip, -⟩
    · exact hgrip.isOpen
    · rw [hgrip]
      rfl
  case cleanRefused mode reply hres hgrip =>
    refine h.use (hg.opened ?_)
    rcases hgrip with hgrip | ⟨hgrip, -⟩
    · exact hgrip.isOpen
    · rw [hgrip]
      rfl
  case formatDescs hopen => exact h.use (hg.opened hopen)
  case strayRequest n req reply => exact ⟨h.linked, h.tied, fun hs => (h.tied hs).elim⟩
  case strayFormatDescs n => exact ⟨h.linked, h.tied, fun hs => (h.tied hs).elim⟩
  case settle grip hgrip caps hcaps hmode hformat hpad hagrees => rcases hgrip with rfl | rfl <;> exact h
  all_goals exact h

theorem Staged.secured {g : Gst} {budget : Nat} {s : Stage} {w : World} (h : Staged g budget s w) : s.Secured w := by
  induction h with
  | init => exact ⟨rfl, fun _ => trivial, fun _ => trivial⟩
  | step hw hs ih => exact hs.secured hw.holds ih

/-- **No call without an open handle**, in every run whose calls of `negotiate` and `create` find the device
open. -/
theorem handles_open (env : Env) (g : Gst) (budget : Nat) (es : List HostEvent) (h : Host)
    (hr : Reaches env g budget es h) (hsettled : settled h.world.log = true) : Handled h.world.log := by
  obtain ⟨s, -, hs⟩ := reaches_staged hr
  exact hs.secured.handled hsettled

/-- The camera goes silent, and a flush begins behind the teardown. -/
def flushedCamera : Env :=
  { oneCamera with
    meanwhile := fun log =>
      match log with
      | .unrefDevice _ :: .close _ :: _ => [.unlock]
      | _ => [] }

def silentSession : List HostEvent :=
  [.other (.setProperty (.reconnect true)), .call .start, .call .negotiate, .call .create]

/-- The silence is long enough for the reconnect, which brings the camera back. -/
theorem handles_open_reconnect :
    ∃ h, Reaches oneCamera plainGst 100 silentSession h ∧ Handled h.world.log := by
  have hrun : ∃ h ∈ Runs.run (hostStep oneCamera plainGst) (.init 100) silentSession,
      settled h.world.log = true := by
    decide +kernel
  obtain ⟨h, hr, hsettled⟩ := hrun
  exact ⟨h, hr, handles_open oneCamera plainGst 100 silentSession h hr hsettled⟩

/-- Whether the last call was a start of the stream without a handle. -/
def startsNothing : List Event → Bool
  | .request none (.start _) _ :: _ => true
  | _ => false

/-- A flush leaves the ladder behind the teardown; the next `create` starts a stream on no device. -/
theorem not_handles_open :
    ¬ ∀ (env : Env) (g : Gst) (budget : Nat) (es : List HostEvent) (h : Host), Reaches env g budget es h →
      Handled h.world.log := by
  have hrun : ∃ h ∈ Runs.run (hostStep flushedCamera plainGst) (.init 100)
      (silentSession ++ [.other .unlockStop, .call .create]), startsNothing h.world.log = true := by
    decide +kernel
  obtain ⟨h, hr, hstarts⟩ := hrun
  intro hall
  have hhandled := hall flushedCamera plainGst 100 _ h hr
  unfold startsNothing at hstarts
  split at hstarts
  · next hlog =>
    rw [hlog] at hhandled
    obtain ⟨k, hk, -⟩ := hhandled.1
    exact absurd hk nofun
  · exact absurd hstarts nofun

/-! ## The resources as ledgers -/

def handleUse : Event → Use Nat
  | .openDevice _ h res => if res < 0 then .neither else .takes h
  | .close h => .drops h
  | _ => .neither

def referenceUse : Event → Use Device
  | .refDevice dev => .takes dev
  | .unrefDevice dev => .drops dev
  | _ => .neither

def listUse : Event → Use Unit
  | .findDevices (some _) => .takes ()
  | .freeDeviceList => .drops ()
  | _ => .neither

def contextUse : Event → Use Unit
  | .init res => if res < 0 then .neither else .takes ()
  | .exit => .drops ()
  | _ => .neither

/-- The streams, by their handles. -/
def streamUse : Event → Use Nat
  | .request handle (.start _) reply =>
    if reply.res < 0 then .neither
    else
      match handle with
      | some h => .takes h
      | none => .neither
  | .stopStreaming h => .drops h
  | _ => .neither

/-- A handle is closed behind its stream, and a context is left behind its handles and references. -/
def Ordered : List Event → Prop
  | [] => True
  | .close h :: log => h ∉ outstanding streamUse log ∧ Ordered log
  | .exit :: log => (outstanding handleUse log = [] ∧ outstanding referenceUse log = []) ∧ Ordered log
  | _ :: log => Ordered log

structure Balanced (log : List Event) : Prop where
  handles : Sound handleUse log
  references : Sound referenceUse log
  lists : Sound listUse log
  contexts : Sound contextUse log
  streams : Sound streamUse log
  ordered : Ordered log

/-- Nothing of libuvc is held. -/
structure Released (log : List Event) : Prop where
  handles : outstanding handleUse log = []
  references : outstanding referenceUse log = []
  lists : outstanding listUse log = []
  contexts : outstanding contextUse log = []
  streams : outstanding streamUse log = []

/-- The reference that no field holds. -/
def Grip.loose : Grip → List Device
  | .found dev => [dev]
  | _ => []

def Grip.contexts : Grip → List Unit
  | .bare => []
  | _ => [()]

def Grip.streams (uvcDevh : Option Nat) : Grip → List Nat
  | .running => uvcDevh.toList
  | _ => []

/-- What is held where a grip has `loose` references, `ctx` contexts and `running` streams. -/
structure Inventory (uvcDev : Option Device) (uvcDevh : Option Nat) (tied : Prop) (loose : List Device)
    (ctx : List Unit) (running : List Nat) (log : List Event) : Prop where
  handles : outstanding handleUse log = uvcDevh.toList
  references : outstanding referenceUse log = loose ++ uvcDev.toList
  lists : outstanding listUse log = []
  contexts : tied → outstanding contextUse log = ctx
  streams : outstanding streamUse log = running
  balanced : Balanced log

def Stage.Inventory (s : Stage) (w : World) : Prop :=
  LibuvcH264Src.Inventory w.own.uvcDev w.own.uvcDevh s.grip.Tied s.grip.loose s.grip.contexts
    (s.grip.streams w.own.uvcDevh) w.log

/-- An entry that moves nothing. -/
structure Event.Neutral (e : Event) : Prop where
  handles : handleUse e = .neither
  references : referenceUse e = .neither
  lists : listUse e = .neither
  contexts : contextUse e = .neither
  streams : streamUse e = .neither

theorem Event.Neutral.ordered {e : Event} (he : e.Neutral) (log : List Event) : Ordered (e :: log) = Ordered log := by
  have hhandles := he.handles
  have hcontexts := he.contexts
  cases e
  case close => exact absurd hhandles nofun
  case exit => exact absurd hcontexts nofun
  all_goals rfl

theorem Event.Neutral.balanced {e : Event} (he : e.Neutral) (log : List Event) :
    Balanced (e :: log) ↔ Balanced log := by
  have hordered := he.ordered log
  refine ⟨fun ⟨h₁, h₂, h₃, h₄, h₅, h₆⟩ => ?_, fun ⟨h₁, h₂, h₃, h₄, h₅, h₆⟩ => ?_⟩
  · rw [hordered] at h₆
    exact ⟨(sound_neither he.handles).mp h₁, (sound_neither he.references).mp h₂, (sound_neither he.lists).mp h₃,
      (sound_neither he.contexts).mp h₄, (sound_neither he.streams).mp h₅, h₆⟩
  · rw [← hordered] at h₆
    exact ⟨(sound_neither he.handles).mpr h₁, (sound_neither he.references).mpr h₂, (sound_neither he.lists).mpr h₃,
      (sound_neither he.contexts).mpr h₄, (sound_neither he.streams).mpr h₅, h₆⟩

section Inventory
variable {uvcDev : Option Device} {uvcDevh : Option Nat} {tied : Prop} {loose : List Device} {ctx : List Unit}
  {running : List Nat} {log : List Event}

theorem Inventory.neutral_iff {e : Event} (he : e.Neutral) :
    Inventory uvcDev uvcDevh tied loose ctx running (e :: log) ↔
      Inventory uvcDev uvcDevh tied loose ctx running log := by
  have hhandles : outstanding handleUse (e :: log) = outstanding handleUse log := outstanding_neither he.handles
  have hreferences : outstanding referenceUse (e :: log) = outstanding referenceUse log := outstanding_neither he.references
  have hlists : outstanding listUse (e :: log) = outstanding listUse log := outstanding_neither he.lists
  have hcontexts : outstanding contextUse (e :: log) = outstanding contextUse log := outstanding_neither he.contexts
  have hstreams : outstanding streamUse (e :: log) = outstanding streamUse log := outstanding_neither he.streams
  refine ⟨fun ⟨h₁, h₂, h₃, h₄, h₅, h₆⟩ => ?_, fun ⟨h₁, h₂, h₃, h₄, h₅, h₆⟩ => ?_⟩
  · rw [hhandles] at h₁
    rw [hreferences] at h₂
    rw [hlists] at h₃
    rw [hcontexts] at h₄
    rw [hstreams] at h₅
    exact ⟨h₁, h₂, h₃, h₄, h₅, (he.balanced log).mp h₆⟩
  · rw [← hhandles] at h₁
    rw [← hreferences] at h₂
    rw [← hlists] at h₃
    rw [← hcontexts] at h₄
    rw [← hstreams] at h₅
    exact ⟨h₁, h₂, h₃, h₄, h₅, (he.balanced log).mpr h₆⟩

theorem Inventory.neutral {e : Event} (h : Inventory uvcDev uvcDevh tied loose ctx running log) (he : e.Neutral) :
    Inventory uvcDev uvcDevh tied loose ctx running (e :: log) :=
  (Inventory.neutral_iff he).mpr h

/-! ### What is acquired, and what is released -/

theorem Inventory.init (h : Inventory uvcDev uvcDevh tied loose [] running log) (htied : tied) {res : Int}
    (hres : ¬ res < 0) : Inventory uvcDev uvcDevh tied loose [()] running (.init res :: log) := by
  have huse : contextUse (.init res) = .takes () := if_neg hres
  exact ⟨h.handles, h.references, h.lists, fun _ => outstanding_takes_first huse (h.contexts htied), h.streams,
    { h.balanced with contexts := (sound_takes huse).mpr h.balanced.contexts }⟩

theorem Inventory.exit (h : Inventory uvcDev uvcDevh tied [] [()] running log) (htied : tied) (hdev : uvcDev = none)
    (hdevh : uvcDevh = none) : Inventory uvcDev uvcDevh tied [] [] running (.exit :: log) := by
  have hhandles : outstanding handleUse log = [] := h.handles.trans (by rw [hdevh]; rfl)
  have hreferences : outstanding referenceUse log = [] := h.references.trans (by rw [hdev]; rfl)
  have hcontexts := h.contexts htied
  exact ⟨h.handles, h.references, h.lists, fun _ => outstanding_drops_last rfl hcontexts, h.streams,
    { h.balanced with
      contexts := sound_drops_last rfl hcontexts h.balanced.contexts
      ordered := ⟨⟨hhandles, hreferences⟩, h.balanced.ordered⟩ }⟩

/-- A list of devices is asked for and given back. -/
theorem Inventory.listed (h : Inventory uvcDev uvcDevh tied loose ctx running log) (devs : List Device) :
    Inventory uvcDev uvcDevh tied loose ctx running (.freeDeviceList :: .findDevices (some devs) :: log) := by
  have hlists : outstanding listUse (.findDevices (some devs) :: log) = [()] := outstanding_takes_first rfl h.lists
  exact ⟨h.handles, h.references, outstanding_drops_last rfl hlists, h.contexts, h.streams,
    { h.balanced with lists := sound_drops_last rfl hlists h.balanced.lists }⟩

/-- A device of the list is referenced in between. -/
theorem Inventory.found (h : Inventory uvcDev uvcDevh tied [] ctx running log) (devs : List Device) (dev : Device) :
    Inventory uvcDev uvcDevh tied [dev] ctx running
      (.freeDeviceList :: .refDevice dev :: .findDevices (some devs) :: log) := by
  have hlisted := h.listed devs
  have hreferences : outstanding referenceUse (.refDevice dev :: log) = [dev] ++ uvcDev.toList := by
    show dev :: outstanding referenceUse log = _
    rw [h.references]
    rfl
  exact ⟨h.handles, hreferences, hlisted.lists, h.contexts, h.streams,
    { h.balanced with lists := hlisted.balanced.lists }⟩

/-- The only reference is given back. -/
theorem Inventory.unrefDevice (h : Inventory uvcDev uvcDevh tied loose ctx running log) {dev : Device}
    (hheld : loose ++ uvcDev.toList = [dev]) :
    Inventory none uvcDevh tied [] ctx running (.unrefDevice dev :: log) := by
  have hreferences := h.references.trans hheld
  exact ⟨h.handles, outstanding_drops_last rfl hreferences, h.lists, h.contexts, h.streams,
    { h.balanced with references := sound_drops_last rfl hreferences h.balanced.references }⟩

theorem Inventory.openDevice (h : Inventory uvcDev uvcDevh tied loose ctx running log) (hdevh : uvcDevh = none)
    (dev : Device) (k : Nat) {res : Int} (hres : ¬ res < 0) :
    Inventory uvcDev (some k) tied loose ctx running (.openDevice dev k res :: log) := by
  have huse : handleUse (.openDevice dev k res) = .takes k := if_neg hres
  have hnone : outstanding handleUse log = [] := h.handles.trans (by rw [hdevh]; rfl)
  exact ⟨outstanding_takes_first huse hnone, h.references, h.lists, h.contexts, h.streams,
    { h.balanced with handles := (sound_takes huse).mpr h.balanced.handles }⟩

theorem Inventory.close (h : Inventory uvcDev uvcDevh tied loose ctx [] log) {k : Nat} (hdevh : uvcDevh = some k) :
    Inventory uvcDev none tied loose ctx [] (.close k :: log) := by
  have hhandles : outstanding handleUse log = [k] := h.handles.trans (by rw [hdevh]; rfl)
  have hidle : k ∉ outstanding streamUse log := by
    rw [h.streams]
    exact List.not_mem_nil
  exact ⟨outstanding_drops_last rfl hhandles, h.references, h.lists, h.contexts, h.streams,
    { h.balanced with
      handles := sound_drops_last rfl hhandles h.balanced.handles
      ordered := ⟨hidle, h.balanced.ordered⟩ }⟩

theorem Inventory.started (h : Inventory uvcDev uvcDevh tied loose ctx [] log) {k : Nat} (hdevh : uvcDevh = some k)
    (ctrl : StreamCtrl) {reply : Reply} (hres : ¬ reply.res < 0) :
    Inventory uvcDev uvcDevh tied loose ctx uvcDevh.toList (.request uvcDevh (.start ctrl) reply :: log) := by
  have huse : streamUse (.request uvcDevh (.start ctrl) reply) = .takes k := by
    rw [hdevh]
    exact if_neg hres
  have hstreams : outstanding streamUse (.request uvcDevh (.start ctrl) reply :: log) = uvcDevh.toList := by
    rw [outstanding_takes_first huse h.streams, hdevh]
    rfl
  exact ⟨h.handles, h.references, h.lists, h.contexts, hstreams,
    { h.balanced with streams := (sound_takes huse).mpr h.balanced.streams }⟩

theorem Inventory.stopStreaming (h : Inventory uvcDev uvcDevh tied loose ctx uvcDevh.toList log) {k : Nat}
    (hdevh : uvcDevh = some k) : Inventory uvcDev uvcDevh tied loose ctx [] (.stopStreaming k :: log) := by
  have hstreams : outstanding streamUse log = [k] := h.streams.trans (by rw [hdevh]; rfl)
  exact ⟨h.handles, h.references, h.lists, h.contexts, outstanding_drops_last rfl hstreams,
    { h.balanced with streams := sound_drops_last rfl hstreams h.balanced.streams }⟩

end Inventory

theorem Event.Idle.neutral {e : Event} (he : e.Idle) : e.Neutral := by
  cases e <;> first | exact ⟨rfl, rfl, rfl, rfl, rfl⟩ | exact he.elim

theorem called_inventory {s : Stage} {w : World} {call : VCall} (htakes : s.Takes call) (h : s.Inventory w) :
    (s.called call).Inventory (w.note (.called call)) := by
  have hcalled : s.Inventory (w.note (.called call)) := h.neutral ⟨rfl, rfl, rfl, rfl, rfl⟩
  have hstray : s.grip.loose = [] → s.grip.streams w.own.uvcDevh = [] → ∀ n,
      Stage.Inventory ⟨.stray, n⟩ (w.note (.called call)) := by
    intro hloose hstreams n
    have hreferences := hcalled.references
    rw [hloose] at hreferences
    exact ⟨hcalled.handles, hreferences, hcalled.lists, False.elim, hcalled.streams.trans hstreams, hcalled.balanced⟩
  obtain ⟨grip, progress⟩ := s
  cases call
  case negotiate =>
    cases grip
    case opened | ready | running => exact hcalled
    case bare | vacant => exact hstray rfl rfl _
    all_goals exact htakes.1.elim
  case create =>
    cases grip
    case ready | running => exact hcalled
    case bare | vacant => exact hstray rfl rfl _
    case opened => exact absurd rfl htakes.2.1
    all_goals exact htakes.1.1.elim
  all_goals exact hcalled

theorem Grip.Holds.noHandle {grip : Grip} {w : World} (h : grip.Holds w) (hopen : grip.isOpen = false) :
    w.own.uvcDevh = none := Option.isNone_iff_eq_none.mp (by rw [← Option.not_isSome, h.devh, hopen]; rfl)

theorem Grip.Holds.noDev {grip : Grip} {w : World} (h : grip.Holds w) (hheld : grip.isHeld = false) :
    w.own.uvcDev = none := Option.isNone_iff_eq_none.mp (by rw [← Option.not_isSome, h.dev, hheld]; rfl)

theorem Step.inventory {g : Gst} {s s' : Stage} {w w' : World} (hs : Step g s w s' w') (hg : s.grip.Holds w)
    (h : s.Inventory w) : s'.Inventory w' := by
  cases hs
  case others others budget =>
    unfold Stage.Inventory
    rw [others_own, log_others (f := Inventory _ _ _ _ _ _) fun e log he => propext (Inventory.neutral_iff he.neutral)]
    exact h
  case plain e he => cases e <;> first | exact h.neutral ⟨rfl, rfl, rfl, rfl, rfl⟩ | exact he.elim
  case call call htakes => exact called_inventory htakes h
  case init n res =>
    by_cases hres : res < 0
    · simp only [if_pos hres]
      exact h.neutral ⟨rfl, rfl, rfl, if_pos hres, rfl⟩
    · simp only [if_neg hres]
      exact Inventory.init h trivial hres
  case exit n => exact Inventory.exit h trivial (hg.noDev rfl) (hg.noHandle rfl)
  case lookFor n devs =>
    cases devs
    case none => exact h.neutral ⟨rfl, rfl, rfl, rfl, rfl⟩
    case some devs => exact h.listed devs
  case find n devs dev hdevs =>
    obtain ⟨list, rfl, -⟩ := hdevs
    exact Inventory.found h list dev
  case hold n dev =>
    have hreferences : outstanding referenceUse w.log = [dev] := by
      rw [h.references, hg.noDev rfl]
      rfl
    exact ⟨h.handles, hreferences, h.lists, h.contexts, h.streams, h.balanced⟩
  case release n dev =>
    have hdev := hg.noDev rfl
    have hheld : [dev] ++ w.own.uvcDev.toList = [dev] := by rw [hdev]; rfl
    have hleft := h.unrefDevice hheld
    unfold Stage.Inventory
    rw [show (w.note (.unrefDevice dev)).own.uvcDev = none from hdev]
    exact hleft
  case unref n dev hdev => exact h.unrefDevice (by rw [hdev]; rfl)
  case refused n dev grip res hres hgrip => exact h.neutral ⟨if_pos hres, rfl, rfl, rfl, rfl⟩
  case openHeld n dev res hres hdev => exact h.openDevice (hg.noHandle rfl) dev _ hres
  case openFound n dev res hres =>
    have hreferences : outstanding referenceUse w.log = [dev] := by
      rw [h.references, hg.noDev rfl]
      rfl
    have hopened := h.openDevice (hg.noHandle rfl) dev (nextHandle w.log) hres
    exact ⟨hopened.handles, hreferences, hopened.lists, hopened.contexts, hopened.streams, hopened.balanced⟩
  case close n grip hgrip k hdevh => rcases hgrip with rfl | rfl <;> exact Inventory.close h hdevh
  case begin n grip hgrip => rcases hgrip with rfl | rfl <;> exact h
  case startRefused reply hres hgrip => exact h.neutral ⟨rfl, rfl, rfl, rfl, if_pos hres⟩
  case start n grip hgrip hn reply hres =>
    obtain ⟨k, hdevh, -⟩ : Opened w.own.uvcDevh w.log := by
      rcases hgrip with rfl | rfl <;> exact hg.opened rfl
    rcases hgrip with rfl | rfl <;> exact Inventory.started h hdevh w.own.uvcCtrl hres
  case stopStream n k hdevh => exact Inventory.stopStreaming h hdevh
  case strayRequest n req reply =>
    have huse : streamUse (.request w.own.uvcDevh req reply) = .neither := by
      rw [hg.noHandle rfl]
      cases req
      case start ctrl =>
        show (if reply.res < 0 then Use.neither else Use.neither) = Use.neither
        rw [ite_self]
      all_goals rfl
    exact h.neutral ⟨rfl, rfl, rfl, rfl, huse⟩
  case settle grip hgrip caps hcaps hmode hformat hpad hagrees => rcases hgrip with rfl | rfl <;> exact h
  all_goals first
    | exact h
    | exact h.neutral ⟨rfl, rfl, rfl, rfl, rfl⟩
    | exact (h.neutral ⟨rfl, rfl, rfl, rfl, rfl⟩).neutral ⟨rfl, rfl, rfl, rfl, rfl⟩

theorem Staged.inventory {g : Gst} {budget : Nat} {s : Stage} {w : World} (h : Staged g budget s w) :
    s.Inventory w := by
  induction h with
  | init => exact ⟨rfl, rfl, rfl, fun _ => rfl, rfl, ⟨trivial, trivial, trivial, trivial, trivial, trivial⟩⟩
  | step hw hs ih => exact hs.inventory hw.holds ih

/-- No handle was opened twice, and the next one not at all. -/
def FreshHandles (log : List Event) : Prop :=
  ∀ k, taken handleUse k log ≤ 1 ∧ (nextHandle log ≤ k → taken handleUse k log = 0)

theorem freshHandles_idle {e : Event} (log : List Event) (he : e.Idle) : FreshHandles (e :: log) = FreshHandles log := by
  cases e <;> first | rfl | exact he.elim

theorem FreshHandles.openDevice {log : List Event} (h : FreshHandles log) (dev : Device) (res : Int) :
    FreshHandles (.openDevice dev (nextHandle log) res :: log) := by
  intro k
  obtain ⟨hle, hnew⟩ := h k
  show taken handleUse k (_ :: log) ≤ 1 ∧ (nextHandle log + 1 ≤ k → taken handleUse k (_ :: log) = 0)
  by_cases hres : res < 0
  · have huse : handleUse (.openDevice dev (nextHandle log) res) = .neither := if_pos hres
    rw [taken, huse]
    exact ⟨hle, fun hk => hnew (Nat.le_of_succ_le hk)⟩
  · have huse : handleUse (.openDevice dev (nextHandle log) res) = .takes (nextHandle log) := if_neg hres
    rw [taken, huse]
    by_cases hk : nextHandle log = k
    · simp only [if_pos hk]
      omega
    · simp only [if_neg hk]
      exact ⟨hle, fun hk' => hnew (Nat.le_of_succ_le hk')⟩

theorem Step.freshHandles {g : Gst} {s s' : Stage} {w w' : World} (hs : Step g s w s' w')
    (h : FreshHandles w.log) : FreshHandles w'.log := by
  cases hs
  case others others budget =>
    rw [log_others (f := FreshHandles) fun e log he => freshHandles_idle log he]
    exact h
  case plain e he => cases e <;> first | exact h | exact he.elim
  case lookFor n devs => cases devs <;> exact h
  case refused | openHeld | openFound => exact h.openDevice _ _
  all_goals exact h

theorem Staged.freshHandles {g : Gst} {budget : Nat} {s : Stage} {w : World} (h : Staged g budget s w) :
    FreshHandles w.log := by
  induction h with
  | init => exact fun k => ⟨Nat.zero_le 1, fun _ => rfl⟩
  | step _ hs ih => exact hs.freshHandles ih

/-- Everything was released as often as it was acquired. -/
structure Even (log : List Event) : Prop where
  handles : ∀ k, released handleUse k log = taken handleUse k log
  references : ∀ dev, released referenceUse dev log = taken referenceUse dev log
  lists : released listUse () log = taken listUse () log
  contexts : released contextUse () log = taken contextUse () log
  streams : ∀ k, released streamUse k log = taken streamUse k log

theorem Balanced.even {log : List Event} (h : Balanced log) (hreleased : Released log) : Even log where
  handles k := (taken_eq_released h.handles hreleased.handles k).symm
  references dev := (taken_eq_released h.references hreleased.references dev).symm
  lists := (taken_eq_released h.lists hreleased.lists ()).symm
  contexts := (taken_eq_released h.contexts hreleased.contexts ()).symm
  streams k := (taken_eq_released h.streams hreleased.streams k).symm

/-- Without a context nothing is held. -/
theorem Staged.released {g : Gst} {budget : Nat} {n : Progress} {w : World} (h : Staged g budget ⟨.bare, n⟩ w) :
    Released w.log where
  handles := h.inventory.handles.trans (by rw [h.holds.noHandle rfl]; rfl)
  references := h.inventory.references.trans (by rw [h.holds.noDev rfl]; rfl)
  lists := h.inventory.lists
  contexts := h.inventory.contexts trivial
  streams := h.inventory.streams

/-- **Resources are balanced.** In every run each release is of something that is held, a handle is closed
behind its stream, and a context is left behind its handles and references; no handle is opened twice. In a
stopped element, and behind `finalize` from wherever it is called, nothing is held, and all was released as often
as it was acquired. -/
theorem resources_balanced (env : Env) (g : Gst) (budget : Nat) (es : List HostEvent) (h : Host)
    (hr : Reaches env g budget es h) :
    Balanced h.world.log ∧ (∀ k, taken handleUse k h.world.log ≤ 1) ∧
      (h.phase = .stopped → Released h.world.log ∧ Even h.world.log) ∧
      (h.phase ≠ .ended → ∀ w', finalize env (h.world.note (.called .finalize)) = (some (), w') →
        Balanced w'.log ∧ Released w'.log ∧ Even w'.log) := by
  obtain ⟨s, hfits, hs⟩ := reaches_staged hr
  refine ⟨hs.inventory.balanced, fun k => (hs.freshHandles k).1, fun hstopped => ?_, fun hended w' hw' => ?_⟩
  · rw [hstopped] at hfits
    obtain ⟨grip, progress⟩ := s
    obtain ⟨rfl, -⟩ := hfits
    exact ⟨hs.released, hs.inventory.balanced.even hs.released⟩
  · have hrest := hfits.atRest hended
    have hcalled := hs.step (.call .finalize hrest)
    have hstop : wp (Anywhere g budget) (stop env) (fun _ w' => Staged g budget ⟨.bare, s.progress⟩ w') _ :=
      stop_staged hcalled hrest.1
    unfold finalize at hw'
    unfold wp at hstop
    rw [hw'] at hstop
    have hw : Staged g budget ⟨.bare, s.progress⟩ w' := hstop
    exact ⟨hw.inventory.balanced, hw.released, hw.inventory.balanced.even hw.released⟩

/-- The camera is silent until it is opened again. -/
def flakyCamera : Env := { oneCamera with meanwhile := deliverOnce fun log => decide (1 < nextHandle log) }

/-- Behind a reconnect the element is started again without a stop: the camera is opened three times. -/
theorem resources_balanced_reconnect :
    ∃ h, Reaches flakyCamera plainGst 80 (.other (.setClock true) :: silentSession ++ [.call .start]) h ∧
      taken handleUse 1 h.world.log = 1 ∧ taken handleUse 2 h.world.log = 1 ∧ outstanding handleUse h.world.log = [2] ∧
      Balanced h.world.log ∧ ∃ w', finalize flakyCamera (h.world.note (.called .finalize)) = (some (), w') ∧
        Released w'.log ∧ Even w'.log := by
  have hrun : ∃ h ∈ Runs.run (hostStep flakyCamera plainGst) (.init 80)
      (.other (.setClock true) :: silentSession ++ [.call .start]),
      h.phase ≠ .ended ∧ taken handleUse 1 h.world.log = 1 ∧ taken handleUse 2 h.world.log = 1 ∧
      outstanding handleUse h.world.log = [2] ∧
      (finalize flakyCamera (h.world.note (.called .finalize))).1.isSome = true := by
    decide +kernel
  obtain ⟨h, hr, hended, htaken, htaken', hheld, hsome⟩ := hrun
  obtain ⟨hbalanced, -, -, hfinal⟩ := resources_balanced flakyCamera plainGst 80 _ h hr
  obtain ⟨_, hunit⟩ := Option.isSome_iff_exists.mp hsome
  have hend := hfinal hended _ (Prod.ext hunit rfl)
  exact ⟨h, hr, htaken, htaken', hheld, hbalanced, _, Prod.ext hunit rfl, hend.2⟩

end LibuvcH264Src
