import LibuvcH264Src.Resources

/-!
# The caps and the stream

* `negotiatedCaps`, `Suited`, `steady` : the caps of the last selection, a selection that suits the running
  stream, and a run that starts no stream on stale or unfixed terms and re-negotiates none into another mode;
* `Announced` : what ties the control block, the mode and the pad to the stream;
* `caps_describe_stream` : the caps and the format are those of the running stream, in a steady run.
-/

namespace LibuvcH264Src
open AnnexB Caps Prog

/-! ## Steady runs -/

abbrev Inputs := Peer × QuirkLimits × List FormatDesc × (Int × Int)

section Steady
variable (g : Gst)

/-- The caps that the last negotiation selected. -/
def negotiatedCaps : List Event → Option (List (Structure Codec))
  | [] => none
  | .selecting peer limits formats uninitialised :: _ => (selectMode g peer limits uninitialised formats).accepted
  | _ :: log => negotiatedCaps log

/-- Wherever the selection changes, it takes the format of the stream. -/
def Suited (inputs : Inputs) (ctrl : StreamCtrl) : Prop :=
  ∀ sel ∈ scanFormats g inputs.1 inputs.2.1 inputs.2.2.2 inputs.2.2.1 .init, ∀ format ∈ sel.frameFormat,
    ∃ mode ∈ ctrl.mode, mode.format = format

instance Suited.decidable (inputs : Inputs) (ctrl : StreamCtrl) : Decidable (Suited g inputs ctrl) := by
  unfold Suited
  infer_instance

/-- The selection has the geometry and the rate of the stream. -/
def Selection.Repeats (sel : Selection) (ctrl : StreamCtrl) : Prop :=
  ∃ mode ∈ ctrl.mode, sel.width = mode.width ∧ sel.height = mode.height ∧ sel.framerate = mode.fps

instance Selection.Repeats.decidable (sel : Selection) (ctrl : StreamCtrl) : Decidable (sel.Repeats ctrl) := by
  unfold Selection.Repeats
  infer_instance

/-- Streams are started behind a negotiation of whole rates whose control block stands, and a negotiation
beside a stream is one of its own mode. -/
def steady : List Event → Bool
  | [] => true
  | .request _ (.start _) reply :: log =>
    decide (reply.res < 0 ∨ stale log = false ∧ ∃ caps ∈ negotiatedCaps g log, WholeRate caps) && steady log
  | .selecting peer limits formats uninitialised :: log =>
    decide (∀ s ∈ runningStream log, Suited g (peer, limits, formats, uninitialised) s.2) && steady log
  | .setCaps caps :: log =>
    decide (∀ s ∈ runningStream log, (selected g log).Repeats s.2 ∧ WholeRate caps) && steady log
  | _ :: log => steady log

theorem of_decide_and {p : Prop} [Decidable p] {b : Bool} (h : (decide p && b) = true) : p ∧ b = true := by
  obtain ⟨hp, hb⟩ := Bool.and_eq_true_iff.mp h
  exact ⟨of_decide_eq_true hp, hb⟩

/-! ## The invariant -/

def Grip.isAgreed : Grip → Bool
  | .ready | .starting | .running => true
  | _ => false

def Grip.isRunning : Grip → Bool
  | .running => true
  | _ => false

def Progress.isFresh : Progress → Bool
  | .fresh => true
  | _ => false

/-- The stream has the format, and the pad its caps. -/
def Fits (format : FrameFormat) (pad : Option (List (Structure Codec))) (ctrl : StreamCtrl) : Prop :=
  ∃ mode, ctrl.mode = some mode ∧ format = mode.format ∧ ∃ caps, pad = some caps ∧ Describes mode caps

/-- The stage, the fields and what the log says about the stream and the caps. -/
structure Announced (running agreed fresh : Bool) (mode : StreamMode) (uvcDevh : Option Nat)
    (ctrl : Option StreamMode) (stream : Option (Nat × StreamCtrl)) (pad : Option (List (Structure Codec)))
    (isStale : Bool) (inputs : Option Inputs) (negotiated : Option (List (Structure Codec))) (steady : Bool) :
    Prop where
  held : ∀ k c, stream = some (k, c) → running = true ∧ uvcDevh = some k
  agrees : agreed = true → fresh = false → ctrl = some mode ∨ isStale = true
  described : fresh = false → ∀ caps, negotiated = some caps → WholeRate caps →
    ∃ caps', pad = some caps' ∧ Describes mode caps'
  suited : steady = true → fresh = true → ∀ i, inputs = some i → ∀ k c, stream = some (k, c) → Suited g i c
  fits : steady = true → ∀ k c, stream = some (k, c) → Fits mode.format pad c

def Stage.Announced (s : Stage) (w : World) : Prop :=
  LibuvcH264Src.Announced g s.grip.isRunning s.grip.isAgreed s.progress.isFresh w.mode w.own.uvcDevh
    w.own.uvcCtrl.mode (runningStream w.log) (padCaps w.log) (stale w.log) (lastSelecting w.log)
    (negotiatedCaps g w.log) (steady g w.log)

end Steady

variable {g : Gst}

/-- The selected caps describe the selected mode. -/
theorem selected_describes {log : List Event} {caps : List (Structure Codec)} {format : FrameFormat}
    (hcaps : (selected g log).accepted = some caps) (hformat : some format = (selected g log).frameFormat)
    (hwhole : WholeRate caps) :
    Describes ⟨format, (selected g log).width, (selected g log).height, (selected g log).framerate⟩ caps := by
  obtain ⟨s, rest, hs, hfields, hwidth, hheight, hrate⟩ := selected_matches log caps (Selection.accepted_eq hcaps)
  obtain ⟨codec, width, height, f, hone, hvalue⟩ := hwhole.elim
  obtain ⟨rfl, rfl⟩ := List.cons.inj (hs.symm.trans hone)
  refine ⟨codec, f, ?_, ?_, ?_⟩
  · rw [hone, ← hwidth, ← hheight]
  · exact (Option.some.inj (hformat.trans hfields)).symm
  · rw [hvalue]
    exact congrArg _ (hrate f rfl).symm

theorem wholeRate_fixed {caps : List (Structure Codec)} (h : WholeRate caps) : capsFixed caps = true := by
  obtain ⟨codec, width, height, f, rfl, -⟩ := h.elim
  rfl

theorem negotiatedCaps_of_lastSelecting {log : List Event} {i : Inputs} (hi : lastSelecting log = some i) :
    negotiatedCaps g log = (selectMode g i.1 i.2.1 i.2.2.2 i.2.2.1).accepted := by
  induction log with
  | nil => exact absurd hi nofun
  | cons e log ih =>
    cases e
    case called => exact absurd hi nofun
    case selecting peer limits formats uninitialised =>
      obtain rfl := Option.some.inj hi
      rfl
    all_goals exact ih hi

/-- What is selected was selected from something, among the selections it went through. -/
theorem selected_scanned {log : List Event} {caps : List (Structure Codec)}
    (hcaps : (selected g log).accepted = some caps) :
    ∃ i, lastSelecting log = some i ∧ negotiatedCaps g log = some caps ∧
      selected g log ∈ scanFormats g i.1 i.2.1 i.2.2.2 i.2.2.1 .init := by
  have hsome : (scanned g log).getLast? = some (selected g log) := by
    unfold selected at hcaps ⊢
    rw [List.getLastD_eq_getLast?] at hcaps ⊢
    cases hlast : (scanned g log).getLast? with
    | none =>
      rw [hlast] at hcaps
      exact absurd hcaps nofun
    | some sel => rfl
  have hmem : selected g log ∈ scanned g log := List.mem_of_getLast? hsome
  cases hi : lastSelecting log with
  | none =>
    unfold scanned at hmem
    rw [hi] at hmem
    exact absurd hmem List.not_mem_nil
  | some i =>
    have hscanned : scanned g log = scanFormats g i.1 i.2.1 i.2.2.2 i.2.2.1 .init := by
      unfold scanned
      rw [hi]
    refine ⟨i, rfl, ?_, hscanned ▸ hmem⟩
    rw [negotiatedCaps_of_lastSelecting hi, ← hcaps]
    unfold selected
    rw [hscanned]
    rfl

/-! ## Steps -/

theorem runningStream_request (log : List Event) (handle : Option Nat) (req : Request) (reply : Reply)
    (hreq : ∀ ctrl, req ≠ .start ctrl) :
    runningStream (.request handle req reply :: log) = runningStream log := by
  cases handle
  · rfl
  · cases req
    case start ctrl => exact absurd rfl (hreq ctrl)
    all_goals rfl

/-- What the log says that idle entries do not change. -/
theorem announced_idle {e : Event} (log : List Event) (he : e.Idle) :
    (runningStream (e :: log) = runningStream log ∧ padCaps (e :: log) = padCaps log ∧
      stale (e :: log) = stale log) ∧ lastSelecting (e :: log) = lastSelecting log ∧
      negotiatedCaps g (e :: log) = negotiatedCaps g log ∧ steady g (e :: log) = steady g log := by
  cases e <;> first | exact ⟨⟨rfl, rfl, rfl⟩, rfl, rfl, rfl⟩ | exact he.elim

theorem called_announced {s : Stage} {w : World} {call : VCall} (htakes : s.Takes call) (h : s.Announced g w) :
    (s.called call).Announced g (w.note (.called call)) := by
  obtain ⟨grip, progress⟩ := s
  have hnext : ∀ (grip' : Grip) (n : Progress), grip'.isRunning = grip.isRunning →
      (grip'.isAgreed = true → n.isFresh = false → grip.isAgreed = true) →
      (n.isFresh = false → progress.isFresh = false) →
      Stage.Announced g ⟨grip', n⟩ (w.note (.called call)) := by
    intro grip' n hrunning hagreed hfresh
    refine ⟨fun k c hkc => ?_, fun ha hf => h.agrees (hagreed ha hf) (hfresh hf), fun hf => h.described (hfresh hf),
      fun _ _ i hi => absurd hi nofun, h.fits⟩
    obtain ⟨hr, hdevh⟩ := h.held k c hkc
    exact ⟨hrunning.trans hr, hdevh⟩
  cases call
  case negotiate =>
    cases grip
    case opened | ready | running => exact hnext _ _ rfl (fun _ hf => absurd hf nofun) fun hf => absurd hf nofun
    case bare | vacant => exact hnext _ _ rfl nofun fun hf => absurd hf nofun
    all_goals exact htakes.1.elim
  case create =>
    cases grip
    case ready | running => exact hnext _ _ rfl (fun ha _ => ha) id
    case bare | vacant => exact hnext _ _ rfl nofun id
    case opened => exact absurd rfl htakes.2.1
    all_goals exact htakes.1.1.elim
  all_goals exact hnext _ _ rfl (fun ha _ => ha) id

/-- Where a negotiation may talk to the device, nothing is agreed on yet. -/
theorem Stage.Open.unsettled {s : Stage} (h : s.Open) (ha : s.grip.isAgreed = true) (hf : s.progress.isFresh = false) :
    False := by
  rcases h with h | ⟨-, h⟩
  · rw [h] at ha
    exact absurd ha nofun
  · rw [h] at hf
    exact absurd hf nofun

theorem Stage.Negotiating.isFresh {s : Stage} (h : s.Negotiating) : s.progress.isFresh = true := by
  rw [h.2]
  rfl

theorem load_mode (w : World) (key : SpsppsKey) (file : Option (List Byte)) :
    ({ w with
        stream := match file with
          | none => w.stream
          | some bytes =>
            (parseNalUnits w.stream.frameFormat 3 (bytes.take (spsppsBufSz * 3))).foldl
              loadSpspps.loadUnit w.stream }.note (.load key file)).mode = w.mode := by
  cases file with
  | none => rfl
  | some bytes =>
    have hcore : ({ w with
        stream := (parseNalUnits w.stream.frameFormat 3 (bytes.take (spsppsBufSz * 3))).foldl
          loadSpspps.loadUnit w.stream } : World).core = w.core := core_eq_of rfl (foldl_loadUnit_media _ w.stream)
    exact congrArg Core.mode hcore

/-! ## What an entry of the log leaves -/

section Entries
variable {running agreed fresh isStale isSteady : Bool} {mode : StreamMode} {devh : Option Nat}
  {ctrl : Option StreamMode} {stream : Option (Nat × StreamCtrl)} {pad : Option (List (Structure Codec))}
  {inputs : Option Inputs} {negotiated : Option (List (Structure Codec))}

/-- No stream runs. -/
theorem Announced.streamless (hnone : stream = none)
    (hagrees : agreed = true → fresh = false → ctrl = some mode ∨ isStale = true)
    (hdescribed : fresh = false → ∀ caps, negotiated = some caps → WholeRate caps →
      ∃ caps', pad = some caps' ∧ Describes mode caps') :
    Announced g running agreed fresh mode devh ctrl stream pad isStale inputs negotiated isSteady where
  held _ _ hkc := absurd (hnone.symm.trans hkc) nofun
  agrees := hagrees
  described := hdescribed
  suited _ _ _ _ _ _ hkc := absurd (hnone.symm.trans hkc) nofun
  fits _ _ _ hkc := absurd (hnone.symm.trans hkc) nofun

/-- Nothing was agreed on or described since the session or the negotiation began. -/
theorem Announced.negotiating (hfresh : fresh = true)
    (hheld : ∀ k c, stream = some (k, c) → running = true ∧ devh = some k)
    (hsuited : isSteady = true → ∀ i, inputs = some i → ∀ k c, stream = some (k, c) → Suited g i c)
    (hfits : isSteady = true → ∀ k c, stream = some (k, c) → Fits mode.format pad c) :
    Announced g running agreed fresh mode devh ctrl stream pad isStale inputs negotiated isSteady where
  held := hheld
  agrees _ hf := absurd (hfresh.symm.trans hf) nofun
  described hf := absurd (hfresh.symm.trans hf) nofun
  suited hs _ := hsuited hs
  fits := hfits

end Entries

section Entry
variable {s : Stage} {w : World}

theorem Stage.Announced.noStream (h : s.Announced g w) (hgrip : s.grip.isRunning = false) :
    runningStream w.log = none := by
  rcases hstream : runningStream w.log with _ | ⟨k, c⟩
  · rfl
  · exact absurd (hgrip.symm.trans (h.held k c hstream).1) nofun

theorem steady_request {handle : Option Nat} {req : Request} {reply : Reply} {log : List Event}
    (h : steady g (.request handle req reply :: log) = true) : steady g log = true := by
  cases req
  case start ctrl => exact (of_decide_and h).2
  all_goals exact h

/-- A request behind which the same stream runs touches only what was agreed on. -/
theorem Stage.Announced.requested (h : s.Announced g w) {handle : Option Nat} {req : Request} {reply : Reply}
    (hrun : runningStream (.request handle req reply :: w.log) = runningStream w.log)
    {ctrl : Option StreamMode} {isStale : Bool}
    (hagrees : s.grip.isAgreed = true → s.progress.isFresh = false → ctrl = some w.mode ∨ isStale = true) :
    LibuvcH264Src.Announced g s.grip.isRunning s.grip.isAgreed s.progress.isFresh w.mode w.own.uvcDevh ctrl
      (runningStream (.request handle req reply :: w.log)) (padCaps w.log) isStale (lastSelecting w.log)
      (negotiatedCaps g w.log) (steady g (.request handle req reply :: w.log)) := by
  rw [hrun]
  exact ⟨h.held, hagrees, h.described, fun hs => h.suited (steady_request hs), fun hs => h.fits (steady_request hs)⟩

/-- A probe outside of `create` settles nothing; there, it asks for the mode that was agreed on. -/
theorem Stage.Announced.probed (h : s.Announced g w) {mode : StreamMode} {reply : Reply}
    (hgrip : s.Open ∨ s.grip = .starting ∧ mode = w.mode) {isStale : Bool}
    (hleft : reply.ctrl.mode = some mode ∨ isStale = true) :
    LibuvcH264Src.Announced g s.grip.isRunning s.grip.isAgreed s.progress.isFresh w.mode w.own.uvcDevh reply.ctrl.mode
      (runningStream (.request w.own.uvcDevh (.probe mode) reply :: w.log)) (padCaps w.log) isStale
      (lastSelecting w.log) (negotiatedCaps g w.log)
      (steady g (.request w.own.uvcDevh (.probe mode) reply :: w.log)) := by
  apply h.requested (runningStream_request w.log w.own.uvcDevh (.probe mode) reply nofun)
  intro ha hf
  rcases hgrip with hgrip | ⟨-, rfl⟩
  · exact (hgrip.unsettled ha hf).elim
  · exact hleft

/-- The stream that starts has the mode that was agreed on, where the control block stands. -/
theorem Stage.Announced.started (h : s.Announced g w) (ha : s.grip.isAgreed = true) (hf : s.progress.isFresh = false)
    {k : Nat} (hdevh : w.own.uvcDevh = some k) {reply : Reply} (hres : ¬ reply.res < 0) :
    LibuvcH264Src.Announced g true true s.progress.isFresh w.mode w.own.uvcDevh w.own.uvcCtrl.mode
      (runningStream (.request w.own.uvcDevh (.start w.own.uvcCtrl) reply :: w.log)) (padCaps w.log) (stale w.log)
      (lastSelecting w.log) (negotiatedCaps g w.log)
      (steady g (.request w.own.uvcDevh (.start w.own.uvcCtrl) reply :: w.log)) := by
  have hrun : runningStream (.request w.own.uvcDevh (.start w.own.uvcCtrl) reply :: w.log) =
      some (k, w.own.uvcCtrl) := by
    rw [hdevh]
    exact if_neg hres
  have hagreed := h.agrees ha hf
  refine ⟨fun k' c hkc => ?_, fun _ _ => hagreed, h.described, fun _ hf' => absurd (hf.symm.trans hf') nofun,
    fun hs k' c hkc => ?_⟩
  · obtain ⟨rfl, rfl⟩ := Prod.mk.inj (Option.some.inj (hrun.symm.trans hkc))
    exact ⟨rfl, hdevh⟩
  · obtain ⟨rfl, rfl⟩ := Prod.mk.inj (Option.some.inj (hrun.symm.trans hkc))
    obtain ⟨hstale, caps, hcaps, hwhole⟩ := (of_decide_and hs).1.resolve_left hres
    have hmode := hagreed.resolve_right fun hst => absurd (hstale.symm.trans hst) nofun
    exact ⟨w.mode, hmode, rfl, h.described hf caps hcaps hwhole⟩

/-- A format that a suited selection writes is the stream's. -/
theorem Stage.Announced.fits_written (h : s.Announced g w) (hfresh : s.progress.isFresh = true) {sel : Selection}
    (hsel : sel ∈ scanned g w.log) (hs : steady g w.log = true) {k : Nat} {c : StreamCtrl}
    (hkc : runningStream w.log = some (k, c)) :
    Fits (sel.frameFormat.getD w.stream.frameFormat) (padCaps w.log) c := by
  obtain ⟨m, hm, hformat, hpad⟩ := h.fits hs k c hkc
  refine ⟨m, hm, ?_, hpad⟩
  unfold scanned at hsel
  split at hsel
  · next peer limits formats uninitialised hlast =>
    cases hwritten : sel.frameFormat with
    | none => exact hformat
    | some format =>
      obtain ⟨m', hm', hformat'⟩ := h.suited hs hfresh _ hlast k c hkc sel hsel format hwritten
      obtain rfl := Option.some.inj (hm.symm.trans hm')
      exact hformat'.symm
  · exact absurd hsel List.not_mem_nil

/-- Caps that repeat the stream's geometry and rate describe it. -/
theorem Stage.Announced.fits_set (h : s.Announced g w) (hfresh : s.progress.isFresh = true)
    {caps : List (Structure Codec)} (hcaps : (selected g w.log).accepted = some caps)
    (hs : steady g (.setCaps caps :: w.log) = true) {k : Nat} {c : StreamCtrl}
    (hkc : runningStream w.log = some (k, c)) : Fits w.mode.format (some caps) c := by
  obtain ⟨hnow, hs⟩ := of_decide_and hs
  obtain ⟨⟨m, hm, hwidth, hheight, hfps⟩, hwhole⟩ := hnow (k, c) hkc
  obtain ⟨m', hm', hformat, -⟩ := h.fits hs k c hkc
  obtain rfl := Option.some.inj (hm.symm.trans hm')
  obtain ⟨i, hi, -, hscanned⟩ := selected_scanned hcaps
  obtain ⟨format, hwritten⟩ := Option.isSome_iff_exists.mp (selected_format hcaps)
  obtain ⟨m', hm', rfl⟩ := h.suited hs hfresh i hi k c hkc _ hscanned format hwritten
  obtain rfl := Option.some.inj (hm.symm.trans hm')
  have hdescribes := selected_describes hcaps hwritten.symm hwhole
  rw [hwidth, hheight, hfps] at hdescribes
  exact ⟨m, hm, hformat, caps, rfl, hdescribes⟩

end Entry

theorem Step.announced {s s' : Stage} {w w' : World} (hs : Step g s w s' w') (hg : s.grip.Holds w)
    (h : s.Announced g w) : s'.Announced g w' := by
  cases hs
  case others others budget =>
    unfold Stage.Announced
    have hcore := (others_calm w others budget).core
    have hmode : (w.others others budget).mode = w.mode := congrArg Core.mode hcore
    rw [hmode, others_own, log_others (f := runningStream) fun e log he => (announced_idle (g := g) log he).1.1,
      log_others (f := padCaps) fun e log he => (announced_idle (g := g) log he).1.2.1,
      log_others (f := stale) fun e log he => (announced_idle (g := g) log he).1.2.2,
      log_others (f := lastSelecting) fun e log he => (announced_idle (g := g) log he).2.1,
      log_others (f := negotiatedCaps g) fun e log he => (announced_idle log he).2.2.1,
      log_others (f := steady g) fun e log he => (announced_idle log he).2.2.2]
    exact h
  case plain e he => cases e <;> first | exact h | exact he.elim
  case call call htakes => exact called_announced htakes h
  case pop grip recovery => cases recovery <;> exact h
  case drop grip recovery items hitems => cases recovery <;> exact h
  case calmed grip n hn => rcases hn with ⟨reset, rfl⟩ | ⟨rfl, -⟩ | rfl <;> exact h
  case session n => exact Announced.streamless (h.noStream rfl) nofun nofun
  case init n res =>
    by_cases hres : res < 0
    · simp only [if_pos hres]
      exact h
    · simp only [if_neg hres]
      exact h
  case lookFor n devs => cases devs <;> exact h
  case openHeld n dev res hres hdev => exact Announced.streamless (h.noStream rfl) nofun h.described
  case openFound n dev res hres => exact Announced.streamless (h.noStream rfl) nofun h.described
  case close n grip hgrip k hdevh =>
    have hnone := h.noStream (by rcases hgrip with rfl | rfl <;> rfl)
    refine Announced.streamless ?_ nofun h.described
    show (runningStream w.log).filter _ = none
    rw [hnone]
    rfl
  case transfer requested reply hgrip =>
    exact h.requested (runningStream_request w.log w.own.uvcDevh (.transferBuffers _) reply nofun) h.agrees
  case probe mode reply hgrip =>
    have hrun := runningStream_request w.log w.own.uvcDevh (.probe mode) reply nofun
    exact h.requested hrun fun ha hf => (hgrip.unsettled ha hf).elim
  case payload reply hgrip =>
    have hrun := runningStream_request w.log w.own.uvcDevh (.payload w.own.uvcCtrl) reply nofun
    exact h.requested hrun fun ha hf => (hgrip.unsettled ha hf).elim
  case clean mode reply hleft hgrip => exact h.probed hgrip (Or.inl hleft)
  case cleanRefused mode reply hres hgrip =>
    apply h.probed hgrip
    by_cases hleft : reply.ctrl.mode = some mode
    · exact Or.inl hleft
    · exact Or.inr (decide_eq_true hleft)
  case agree n hagrees => exact ⟨h.held, fun _ _ => hagrees, h.described, h.suited, h.fits⟩
  case begin n grip hgrip => rcases hgrip with rfl | rfl <;> exact h
  case startRefused reply hres hgrip =>
    refine h.requested ?_ h.agrees
    cases w.own.uvcDevh
    · rfl
    · exact if_pos hres
  case start n grip hgrip hn reply hres =>
    obtain ⟨k, hdevh, -⟩ : Opened w.own.uvcDevh w.log := by
      rcases hgrip with rfl | rfl <;> exact hg.opened rfl
    have hfresh : n.isFresh = false := by
      cases n <;> first | rfl | exact absurd rfl hn
    exact h.started (by rcases hgrip with rfl | rfl <;> rfl) hfresh hdevh hres
  case stopStream n k hdevh =>
    refine Announced.streamless ?_ h.agrees h.described
    show (runningStream w.log).filter _ = none
    rcases hstream : runningStream w.log with _ | ⟨k', c⟩
    · rfl
    · obtain rfl := Option.some.inj ((h.held k' c hstream).2.symm.trans hdevh)
      simp
  case strayRequest n req reply =>
    refine h.requested ?_ nofun
    rw [show w.own.uvcDevh = none from hg.noHandle rfl]
    rfl
  case selecting peer limits formats uninitialised hgrip =>
    refine Announced.negotiating hgrip.isFresh h.held (fun hs i hi k c hkc => ?_) fun hs => h.fits (of_decide_and hs).2
    obtain rfl := Option.some.inj hi
    exact (of_decide_and hs).1 (k, c) hkc
  case writeFormat sel hgrip hsel =>
    exact Announced.negotiating hgrip.isFresh h.held (fun hs => h.suited hs hgrip.isFresh) fun hs _ _ hkc =>
      h.fits_written hgrip.isFresh hsel hs hkc
  case writeMode sel haccepted hgrip hsel =>
    exact Announced.negotiating hgrip.isFresh h.held (fun hs => h.suited hs hgrip.isFresh) h.fits
  case setCaps caps hfixed hgrip hcaps =>
    exact Announced.negotiating hgrip.isFresh h.held (fun hs => h.suited (of_decide_and hs).2 hgrip.isFresh) fun hs _ _ hkc =>
      h.fits_set hgrip.isFresh hcaps hs hkc
  case load key file hgrip =>
    unfold Stage.Announced at h
    rw [← load_mode w key file] at h
    exact h
  case settle grip hgrip caps hcaps hmode hformat hpad hagrees =>
    refine ⟨?_, fun _ _ => hagrees, fun _ caps' hcaps' hwhole => ?_, fun _ hf => absurd hf nofun, h.fits⟩
    · rcases hgrip with rfl | rfl <;> exact h.held
    · obtain ⟨i, hi, hnegotiated, -⟩ := selected_scanned hcaps
      obtain rfl := Option.some.inj (hnegotiated.symm.trans hcaps')
      have hdescribes := selected_describes hcaps hformat hwhole
      rw [← hmode] at hdescribes
      exact ⟨caps, hpad (wholeRate_fixed hwhole), hdescribes⟩
  all_goals exact h

theorem Staged.announced {budget : Nat} {s : Stage} {w : World} (h : Staged g budget s w) : s.Announced g w := by
  induction h with
  | init => exact ⟨nofun, nofun, nofun, fun _ _ _ hi => absurd hi nofun, fun _ _ _ hkc => absurd hkc nofun⟩
  | step hw hs ih => exact hs.announced hw.holds ih

/-- **The caps describe the stream.** In every steady run, whenever a stream runs, it was started with a mode
whose format parses the deliveries and whose codec, geometry and rate are those of the caps last set. -/
theorem caps_describe_stream (env : Env) (g : Gst) (budget : Nat) (es : List HostEvent) (h : Host)
    (hr : Reaches env g budget es h) (hsteady : steady g h.world.log = true) (k : Nat) (ctrl : StreamCtrl)
    (hstream : runningStream h.world.log = some (k, ctrl)) :
    ∃ mode, ctrl.mode = some mode ∧ h.world.stream.frameFormat = mode.format ∧
      ∃ caps, padCaps h.world.log = some caps ∧ Describes mode caps := by
  obtain ⟨s, -, hs⟩ := reaches_staged hr
  exact hs.announced.fits hsteady k ctrl hstream

/-- A session that negotiates again beside its stream, and then loses the device. -/
def renegotiatedSession : List HostEvent :=
  [.other (.setClock true), .other (.setProperty (.reconnect true)), .call .start, .call .negotiate, .other .unlock,
    .call .create, .other .unlockStop, .call .negotiate, .call .create]

/-- The stream of the second handle has the mode of the first, and of the caps. -/
theorem caps_describe_stream_session :
    ∃ h ctrl mode caps, Reaches flakyCamera plainGst 60 renegotiatedSession h ∧
      runningStream h.world.log = some (1, ctrl) ∧ ctrl.mode = some mode ∧
      padCaps h.world.log = some caps ∧ Describes mode caps := by
  have hrun : ∃ h ∈ Runs.run (hostStep flakyCamera plainGst) (.init 60) renegotiatedSession,
      steady plainGst h.world.log = true ∧ (runningStream h.world.log).map Prod.fst = some 1 := by
    decide +kernel
  obtain ⟨h, hr, hsteady, hstream⟩ := hrun
  obtain ⟨⟨_, ctrl⟩, hstream, rfl⟩ := Option.map_eq_some_iff.mp hstream
  obtain ⟨mode, hmode, -, caps, hpad, hdescribes⟩ :=
    caps_describe_stream flakyCamera plainGst 60 _ h hr hsteady 1 ctrl hstream
  exact ⟨h, ctrl, mode, caps, hr, hstream, hmode, hpad, hdescribes⟩

/-- A peer that takes what is 1280 pixels wide. -/
def narrowPeer : Peer where
  intersect d := if d.width = some 1280 then [d] else []
  sound d s hs _ _ := by
    obtain rfl : s = d := by
      split_ifs at hs
      · exact List.mem_singleton.mp hs
      · exact absurd hs List.not_mem_nil
    exact ⟨rfl, rfl, rfl⟩
  rates d s hs _ r hr := by
    obtain rfl : s = d := by
      split_ifs at hs
      · exact List.mem_singleton.mp hs
      · exact absurd hs List.not_mem_nil
    exact hr

/-- The camera has two modes, and its peer takes only the smaller one once caps were set. -/
def renegotiatedCamera : Env :=
  { oneCamera with
    formatDescs := fun _ => [⟨ascii ['H', '2', '6', '4'],
      [⟨1920, 1080, some [333333], 333333, 333333⟩, ⟨1280, 720, some [333333], 333333, 333333⟩]⟩]
    peer := fun log => if (padCaps log).isSome then narrowPeer else anyPeer }

/-- A negotiation beside a running stream leaves it as it is. -/
theorem not_caps_describe_stream :
    ¬ ∀ (env : Env) (g : Gst) (budget : Nat) (es : List HostEvent) (h : Host), Reaches env g budget es h →
      h.world.own.streaming = true → ∀ k ctrl, runningStream h.world.log = some (k, ctrl) →
      ∃ mode, ctrl.mode = some mode ∧ h.world.stream.frameFormat = mode.format ∧
        ∃ caps, padCaps h.world.log = some caps ∧ Describes mode caps := by
  intro hall
  have hrun : ∃ h ∈ Runs.run (hostStep renegotiatedCamera plainGst) (.init 30)
      [.call .start, .call .negotiate, .other .unlock, .call .create, .other .unlockStop, .call .negotiate],
      h.world.own.streaming = true ∧
      (∃ s ∈ runningStream h.world.log, s.2.mode = some ⟨.h264, 1920, 1080, 30⟩) ∧
      ∃ caps ∈ padCaps h.world.log, caps.map Structure.width = [some 1280] := by
    decide +kernel
  obtain ⟨h, hr, hstreaming, ⟨⟨k, ctrl⟩, hstream, hctrl⟩, caps, hcaps, hwidth⟩ := hrun
  obtain ⟨mode, hmode, -, caps', hcaps', codec, f, hdescribes, -⟩ :=
    hall renegotiatedCamera plainGst 30 _ h hr hstreaming k ctrl hstream
  obtain rfl := Option.some.inj (hcaps.symm.trans hcaps')
  obtain rfl := Option.some.inj (hctrl.symm.trans hmode)
  rw [hdescribes] at hwidth
  exact absurd hwidth nofun

end LibuvcH264Src
