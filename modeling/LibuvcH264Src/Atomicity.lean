import LibuvcH264Src.BestMode
import LibuvcH264Src.PayloadFallback
import LibuvcH264Src.Simulation

/-!
# Failed negotiations

* `Listened` : the parameter sets changed as the feeder changes them, and not otherwise;
* `NegotiationAnswers` : what a negotiation is told, by the peer and by the device;
* `NegotiationAnswers.taken` : the descriptor that the selection takes last, in the contest of what it was told;
* `Beside`, `Probed` : a negotiation went on without a write to the instance, or with that of a refused probe;
* `Failed` : what a failed negotiation leaves, as a function of what it was told;
* `Atomic`, `atomic_iff` : it leaves everything but the ladder as it was, and where it does.
-/

namespace LibuvcH264Src
open AnnexB Caps Prog Contest

variable {env : Env} {g : Gst} {w w' w'' : World}

/-! ## What the feeder does beside it -/

/-- The cached parameter sets. -/
def StreamState.sets (self : StreamState) : CachedSet × CachedSet × CachedSet := (self.vps, self.sps, self.pps)

/-- The fields of the stream state that a negotiation settles. -/
def StreamState.negotiated (self : StreamState) : FrameFormat × Int × Int × Int :=
  (self.frameFormat, self.negotiatedWidth, self.negotiatedHeight, self.frameInterval)

/-- What a frame that a running stream delivered in a part of the log makes of the parameter sets. -/
def Feeds (stream : Option (Nat × StreamCtrl)) (since : List Event) (sets sets' : CachedSet × CachedSet × CachedSet) :
    Prop :=
  stream.isSome ∧ ∃ others arrival data self, .meanwhile others ∈ since ∧ .frame arrival data ∈ others ∧
    StreamState.sets self = sets ∧ (frameCallback self arrival data).self.sets = sets'

/-- Nothing but delivered frames changed the parameter sets. -/
def Listened (w w' : World) : Prop :=
  runningStream w'.log = runningStream w.log ∧ ∃ since, w'.log = since ++ w.log ∧
    Relation.ReflTransGen (Feeds (runningStream w.log) since) w.stream.sets w'.stream.sets

theorem Feeds.mono {stream : Option (Nat × StreamCtrl)} {since since' : List Event}
    {sets sets' : CachedSet × CachedSet × CachedSet} (hsub : ∀ e ∈ since, e ∈ since')
    (h : Feeds stream since sets sets') : Feeds stream since' sets sets' := by
  obtain ⟨hstream, others, arrival, data, self, hothers, hframe, hsets, hsets'⟩ := h
  exact ⟨hstream, others, arrival, data, self, hsub _ hothers, hframe, hsets, hsets'⟩

theorem Listened.refl (w : World) : Listened w w := ⟨rfl, [], rfl, .refl⟩

theorem Listened.trans (h : Listened w w') (h' : Listened w' w'') : Listened w w'' := by
  obtain ⟨hstream, since, hlog, hsets⟩ := h
  obtain ⟨hstream', since', hlog', hsets'⟩ := h'
  refine ⟨hstream'.trans hstream, since' ++ since, by rw [hlog', hlog, List.append_assoc], ?_⟩
  rw [hstream] at hsets'
  have hold := Relation.ReflTransGen.mono (fun _ _ => Feeds.mono fun e he => List.mem_append_right since' he) _ _ hsets
  have hnew := Relation.ReflTransGen.mono (fun _ _ => Feeds.mono fun e he => List.mem_append_left since he) _ _ hsets'
  exact hold.trans hnew

/-- Where no stream runs, or nothing is delivered, the sets are what they were. -/
theorem Listened.sets_eq (h : Listened w w')
    (hquiet : runningStream w.log = none ∨ ∀ since, w'.log = since ++ w.log →
      ∀ others, .meanwhile others ∈ since → ∀ arrival data, .frame arrival data ∉ others) :
    w'.stream.sets = w.stream.sets := by
  obtain ⟨-, since, hlog, hsets⟩ := h
  rcases hsets.cases_tail with hsame | ⟨sets, -, hstream, others, arrival, data, self, hothers, hframe, -, -⟩
  · exact hsame
  · rcases hquiet with hnone | hquiet
    · rw [hnone] at hstream
      exact absurd hstream nofun
    · exact absurd hframe (hquiet since hlog others hothers arrival data)

theorem interfere_negotiated (w : World) (i : Interference) :
    (interfere w i).stream.negotiated = w.stream.negotiated := by
  match i with
  | .frame arrival data =>
    show (feed w arrival data).stream.negotiated = _
    unfold feed
    split
    · rfl
    · have hsettings := congrArg StreamState.negotiated (frameCallback_settings w.stream arrival data)
      exact hsettings
  | .unlock | .unlockStop => rfl
  | .setClock clock =>
    show (setClock w.stream clock).negotiated = _
    unfold setClock
    split <;> rfl
  | .changeState transition =>
    show (changeState w.stream transition).negotiated = _
    unfold changeState
    split <;> rfl
  | .setProperty property => cases property <;> rfl

theorem interfere_sets (w : World) (i : Interference) :
    (interfere w i).stream.sets = w.stream.sets ∨ ∃ arrival data, i = .frame arrival data ∧
      (runningStream w.log).isSome ∧ (interfere w i).stream.sets = (frameCallback w.stream arrival data).self.sets := by
  match i with
  | .frame arrival data =>
    by_cases hstream : (runningStream w.log).isNone
    · left
      show (feed w arrival data).stream.sets = _
      unfold feed
      rw [if_pos hstream]
    · right
      refine ⟨arrival, data, rfl, by simpa [Option.isSome_iff_ne_none] using hstream, ?_⟩
      show (feed w arrival data).stream.sets = _
      unfold feed
      rw [if_neg hstream]
  | .unlock | .unlockStop => exact Or.inl rfl
  | .setClock clock =>
    left
    show (setClock w.stream clock).sets = _
    unfold setClock
    split <;> rfl
  | .changeState transition =>
    left
    show (changeState w.stream transition).sets = _
    unfold changeState
    split <;> rfl
  | .setProperty property => cases property <;> exact Or.inl rfl

theorem runningStream_calm {w w' : World} (h : Calm w w') : runningStream w'.log = runningStream w.log :=
  h.eq (f := fun _ log => runningStream log) fun _ e _ he => by
    cases e <;> first | rfl | exact he.elim

theorem foldl_interfere_negotiated (others : List Interference) (w : World) :
    (others.foldl interfere w).stream.negotiated = w.stream.negotiated := by
  induction others generalizing w with
  | nil => rfl
  | cons i rest ih => rw [List.foldl_cons, ih, interfere_negotiated]

/-- The frames among what the others do are all that changes the sets. -/
theorem foldl_interfere_sets {all : List Interference} {since : List Event} (hall : .meanwhile all ∈ since)
    (others : List Interference) (hothers : ∀ i ∈ others, i ∈ all) (w : World) :
    Relation.ReflTransGen (Feeds (runningStream w.log) since) w.stream.sets (others.foldl interfere w).stream.sets := by
  induction others generalizing w with
  | nil => exact .refl
  | cons i rest ih =>
    have hrest := ih (fun i' hi' => hothers i' (List.mem_cons_of_mem i hi')) (interfere w i)
    rw [runningStream_calm (interfere_calm w i)] at hrest
    rw [List.foldl_cons]
    rcases interfere_sets w i with hsame | ⟨arrival, data, rfl, hstream, hsets⟩
    · rwa [hsame] at hrest
    · apply Relation.ReflTransGen.head _ hrest
      exact ⟨hstream, all, arrival, data, w.stream, hall, hothers _ List.mem_cons_self, rfl, hsets.symm⟩

theorem others_listened (w : World) (others : List Interference) (budget : Nat) :
    Listened w (w.others others budget) := by
  have hcalm := foldl_interfere_calm others (w.note (.meanwhile others))
  obtain ⟨-, idle, -, hlog⟩ := hcalm
  refine ⟨runningStream_calm (others_calm w others budget), idle ++ [.meanwhile others], ?_, ?_⟩
  · show (others.foldl interfere (w.note (.meanwhile others))).log = _
    rw [hlog, List.append_assoc]
    rfl
  · exact foldl_interfere_sets (List.mem_append_right idle List.mem_cons_self) others (fun i hi => hi)
      (w.note (.meanwhile others))

/-! ## What a negotiation is told -/

/-- The answers to what is asked in front of the selection, and those to a first probe of a mode and to a second. -/
structure NegotiationAnswers where
  peer : Peer
  limits : QuirkLimits
  formats : List FormatDesc
  uninitialised : Int × Int
  first : StreamMode → Reply
  second : StreamMode → Reply

/-- Each is given behind a turn of the others. The writes of the selection loop are turns of theirs, too. -/
def negotiationAnswers (env : Env) (g : Gst) (w : World) : NegotiationAnswers :=
  let asked := afterTurn env w
  let peer := env.peer asked.log
  let limits := deviceLimits (env.deviceIds asked.log)
  let listed := afterTurn env asked
  let formats := env.formatDescs listed.log
  let noted := listed.note (.formatDescs w.own.uvcDevh)
  let uninitialised := env.uninitialised noted.log
  let looped := (writeFormats env (scanFormats g peer limits uninitialised formats .init)
    (noted.note (.selecting peer limits formats uninitialised))).2
  let probing := afterTurn env looped
  let first mode := env.reply probing.log (.probe mode)
  { peer := peer
    limits := limits
    formats := formats
    uninitialised := uninitialised
    first := first
    second := fun mode =>
      env.reply (afterTurn env (probing.note (.request w.own.uvcDevh (.probe mode) (first mode)))).log (.probe mode) }

namespace NegotiationAnswers
variable (g : Gst) (told : NegotiationAnswers)

/-- The candidate that wins the contest of those that the peer takes something of. -/
def taken : Option Candidate :=
  (contest (worth g told.peer told.uninitialised) noneHeld (compatible g told.limits told.peer told.formats)).winner

/-- The mode that a candidate stands for. -/
def mode (c : Candidate) : StreamMode :=
  ⟨c.codec.format, c.frame.wWidth.toNat, c.frame.wHeight.toNat, (worth g told.peer told.uninitialised).yield c⟩

/-- The answer to the last probe of a mode: there is a second one behind an `INVALID_MODE`. -/
def last (mode : StreamMode) : Reply :=
  if (told.first mode).res = uvcErrorInvalidMode then told.second mode else told.first mode

/-- The format that the selection loop leaves. -/
def leftFormat (format : FrameFormat) : FrameFormat := ((told.taken g).map fun c => c.codec.format).getD format

/-- The control block that refused probes leave. A mode without a whole frame a second is not probed. -/
def leftCtrl (ctrl : StreamCtrl) : StreamCtrl :=
  match told.taken g with
  | none => ctrl
  | some c => if 0 < (told.mode g c).fps then (told.last (told.mode g c)).ctrl else ctrl

def selection : Selection := selectMode g told.peer told.limits told.uninitialised told.formats

variable {g told}

theorem selection_none (h : told.taken g = none) :
    (told.selection g).frameFormat = none ∧ (told.selection g).accepted = none := by
  have hholds := selectMode_holds g told.peer told.limits told.uninitialised told.formats
  obtain ⟨hwidth, -, -, hformat⟩ := hholds.nothing h
  refine ⟨hformat, ?_⟩
  unfold Selection.accepted selection
  rw [hwidth]
  rfl

theorem selection_some {c : Candidate} (h : told.taken g = some c) :
    (told.selection g).frameFormat = some c.codec.format ∧
      ⟨c.codec.format, (told.selection g).width, (told.selection g).height, (told.selection g).framerate⟩ =
        told.mode g c ∧
      ((told.selection g).accepted.isSome ↔ 0 < (told.mode g c).fps) := by
  have hholds := selectMode_holds g told.peer told.limits told.uninitialised told.formats
  rw [contest_winner rfl h] at hholds
  obtain ⟨hframerate, hwidth, hheight, hformat, haccepted⟩ := hholds.selected (w := c) rfl
  refine ⟨hformat, ?_, haccepted⟩
  unfold mode selection
  rw [hframerate, hwidth, hheight]
  rfl

theorem leftFormat_eq (format : FrameFormat) : told.leftFormat g format = (told.selection g).frameFormat.getD format := by
  unfold leftFormat
  cases h : told.taken g with
  | none => rw [(selection_none h).1]; rfl
  | some c => rw [(selection_some h).1]; rfl

/-- Where no mode is probed, the control block stays. -/
theorem leftCtrl_of_none (h : (told.selection g).accepted = none) (ctrl : StreamCtrl) : told.leftCtrl g ctrl = ctrl := by
  unfold leftCtrl
  split
  · rfl
  · next c hc =>
    refine if_neg fun hpos => ?_
    have hsome := (selection_some hc).2.2.mpr hpos
    rw [h] at hsome
    exact absurd hsome nofun

/-- A mode that is probed is the one of the candidate that is taken last. -/
theorem accepted_mode {caps : List (Structure Codec)} (h : (told.selection g).accepted = some caps) :
    ∃ mode : StreamMode, (told.selection g).frameFormat = some mode.format ∧
      ⟨mode.format, (told.selection g).width, (told.selection g).height, (told.selection g).framerate⟩ = mode ∧
      ∀ ctrl, told.leftCtrl g ctrl = (told.last mode).ctrl := by
  cases hc : told.taken g with
  | none =>
    rw [(selection_none hc).2] at h
    exact absurd h nofun
  | some c =>
    obtain ⟨hformat, hmode, haccepted⟩ := selection_some hc
    refine ⟨told.mode g c, hformat, hmode, fun ctrl => ?_⟩
    have hpos := haccepted.mp (by rw [h]; rfl)
    unfold leftCtrl
    rw [hc]
    exact if_pos hpos

end NegotiationAnswers

/-! ## A negotiation that writes nothing -/

/-- The instance is as it was. -/
structure Beside (w w' : World) : Prop where
  own : w'.own = w.own
  negotiated : w'.stream.negotiated = w.stream.negotiated
  listened : Listened w w'

theorem Beside.refl (w : World) : Beside w w := ⟨rfl, rfl, Listened.refl w⟩

theorem Beside.trans (h : Beside w w') (h' : Beside w' w'') : Beside w w'' where
  own := h'.own.trans h.own
  negotiated := h'.negotiated.trans h.negotiated
  listened := h.listened.trans h'.listened

theorem Beside.afterTurn (env : Env) (w : World) : Beside w (afterTurn env w) where
  own := afterTurn_own
  negotiated := foldl_interfere_negotiated _ _
  listened := others_listened w _ _

/-- An entry that says nothing about the stream. -/
theorem Listened.note {e : Event} (he : runningStream (e :: w.log) = runningStream w.log) : Listened w (w.note e) :=
  ⟨he, [e], rfl, .refl⟩

theorem Beside.note {e : Event} (he : runningStream (e :: w.log) = runningStream w.log) : Beside w (w.note e) :=
  ⟨rfl, rfl, Listened.note he⟩

theorem wp_turn_beside {Q : Unit → World → Prop} (hQ : ∀ w', Beside w w' → Q () w') :
    wp (fun _ => True) (turn env) Q w := by
  apply wp_afterTurn
  rintro w' - rfl
  exact hQ _ (Beside.afterTurn env w)

/-- With another frame format. -/
def World.withFormat (w : World) (format : FrameFormat) : World :=
  { w with stream := { w.stream with frameFormat := format } }

theorem Beside.withFormat (h : Beside w w') (format : FrameFormat) :
    Beside (w.withFormat format) (w'.withFormat format) where
  own := h.own
  negotiated := by
    have hrest := congrArg Prod.snd h.negotiated
    exact congrArg (Prod.mk format) hrest
  listened := h.listened

/-- What the writes of the selection loop make of the frame format. -/
def writtenFormat (sels : List Selection) (format : FrameFormat) : FrameFormat :=
  sels.foldl (fun format sel => sel.frameFormat.getD format) format

theorem writeFormats_beside (sels : List Selection) (w : World) :
    wp (fun _ => True) (writeFormats env sels)
      (fun _ w' => Beside (w.withFormat (writtenFormat sels w.stream.frameFormat)) w') w := by
  induction sels generalizing w with
  | nil => exact Beside.refl w
  | cons sel rest ih =>
    rw [writeFormats, wp_bind, wp_modifyStream, wp_bind]
    apply wp_turn_beside
    intro w' hturn
    refine wp_mono (ih w') fun _ w'' hrest => ?_
    have hformat : w'.stream.frameFormat = sel.frameFormat.getD w.stream.frameFormat :=
      congrArg Prod.fst hturn.negotiated
    rw [hformat] at hrest
    exact (hturn.withFormat _).trans hrest

/-! ## Probes -/

/-- A probe writes to the control block, and to nothing else. -/
structure Probed (reply : Reply) (w w' : World) : Prop where
  own : w'.own = { w.own with uvcCtrl := reply.ctrl }
  negotiated : w'.stream.negotiated = w.stream.negotiated
  listened : Listened w w'

theorem Probed.trans {reply reply' : Reply} (h : Probed reply w w') (h' : Probed reply' w' w'') :
    Probed reply' w w'' where
  own := by rw [h'.own, h.own]
  negotiated := h'.negotiated.trans h.negotiated
  listened := h.listened.trans h'.listened

theorem getStreamCtrlFormatSize_probed {width height fps : Int} (mode : StreamMode) (reply : Reply)
    (hmode : ⟨w.stream.frameFormat, width, height, fps⟩ = mode)
    (hreply : reply = env.reply (afterTurn env w).log (.probe mode)) :
    wp (fun _ => True) (getStreamCtrlFormatSize env width height fps) (fun res w' =>
      res = reply.res ∧ Probed reply w w' ∧
        w'.around = ((afterTurn env w).note (.request w.own.uvcDevh (.probe mode) reply)).around) w := by
  unfold getStreamCtrlFormatSize
  rw [wp_bind, wp_get, wp_bind, hmode]
  apply wp_answered hreply
  rintro w' hown rfl
  rw [wp_bind, wp_modifyOwn, wp_pure]
  have hturn := Beside.afterTurn env w
  refine ⟨rfl, ⟨?_, hturn.negotiated, hturn.listened.trans (Listened.note ?_)⟩, rfl⟩
  · rw [hown]
  · cases w.own.uvcDevh <;> rfl

/-- The mode is probed once, or twice. -/
theorem probeStreamCtrl_probed {width height fps : Int} {told : NegotiationAnswers} (mode : StreamMode)
    (hmode : ⟨w.stream.frameFormat, width, height, fps⟩ = mode)
    (hfirst : told.first mode = env.reply (afterTurn env w).log (.probe mode))
    (hsecond : told.second mode = env.reply (afterTurn env ((afterTurn env w).note
      (.request w.own.uvcDevh (.probe mode) (told.first mode)))).log (.probe mode)) :
    wp (fun _ => True) (probeStreamCtrl env width height fps .retry)
      (fun res w' => res = (told.last mode).res ∧ Probed (told.last mode) w w') w := by
  unfold probeStreamCtrl
  rw [wp_bind, wp_when]
  refine ⟨fun hdouble => absurd hdouble nofun, fun _ => ?_⟩
  rw [wp_bind]
  refine wp_mono (getStreamCtrlFormatSize_probed mode _ hmode hfirst) fun res w' ⟨hres, hprobed, haround⟩ => ?_
  rw [wp_ite]
  constructor
  · rintro ⟨-, hinvalid⟩
    rw [hres] at hinvalid
    have hlast : told.last mode = told.second mode := if_pos hinvalid
    have hmode' : ⟨w'.stream.frameFormat, width, height, fps⟩ = mode := by
      rw [← hmode, show w'.stream.frameFormat = w.stream.frameFormat from congrArg Prod.fst hprobed.negotiated]
    rw [hlast]
    refine wp_mono (getStreamCtrlFormatSize_probed mode (told.second mode) hmode' ?_)
      fun res' w'' ⟨hres', hagain, _⟩ => ?_
    · rw [hsecond, around_log (afterTurn_congr haround)]
    · exact ⟨hres', hprobed.trans hagain⟩
  · intro honce
    have hlast : told.last mode = told.first mode := if_neg fun hinvalid => honce ⟨rfl, hres.trans hinvalid⟩
    rw [wp_pure, hlast]
    exact ⟨hres, hprobed⟩

/-- A mode is refused by its last probe, if it is. -/
theorem negotiateMode_probed {told : NegotiationAnswers} {sel : Selection} (mode : StreamMode)
    (caps : List (Structure Codec))
    (hmode : ⟨w.stream.frameFormat, sel.width, sel.height, sel.framerate⟩ = mode)
    (hfirst : told.first mode = env.reply (afterTurn env w).log (.probe mode))
    (hsecond : told.second mode = env.reply (afterTurn env ((afterTurn env w).note
      (.request w.own.uvcDevh (.probe mode) (told.first mode)))).log (.probe mode)) :
    wp (fun _ => True) (negotiateMode env sel caps)
      (fun ok w' => ok = false → (told.last mode).res < 0 ∧ Probed (told.last mode) w w') w := by
  unfold negotiateMode
  rw [wp_bind]
  refine wp_mono (probeStreamCtrl_probed mode hmode hfirst hsecond) fun res w' ⟨hres, hprobed⟩ => ?_
  rw [wp_ite]
  constructor
  · intro hrefused _
    exact ⟨by rw [← hres]; exact hrefused, hprobed⟩
  · intro _
    rw [wp_bind]
    refine wp_true (fun _ => trivial) fun _ w' => ?_
    rw [wp_bind, wp_modifyStream, wp_bind, wp_modifyOwn, wp_bind]
    refine wp_true (fun _ => trivial) fun _ w' => ?_
    rw [wp_bind, wp_get, wp_bind]
    refine wp_true (fun _ => trivial) fun _ w' => ?_
    rw [wp_pure]
    exact fun hfalse => absurd hfalse nofun

/-! ## The selection and the format -/

theorem considerFrame_format {peer : Peer} {uninitialised : Int × Int} (codec : Codec) (frame : FrameDesc)
    (deliverable : List (Structure Codec)) (sel : Selection)
    (h : (considerFrame g peer uninitialised codec frame deliverable sel).frameFormat = none) :
    sel.frameFormat = none := by
  unfold considerFrame at h
  split at h
  · exact h
  · simp only [] at h
    split_ifs at h
    · exact h

/-- A selection without a format is behind none with one. -/
theorem scanFrames_format {peer : Peer} {limits : QuirkLimits} {uninitialised : Int × Int} (codec : Codec)
    (frames : List FrameDesc) (tmp : Structure Codec) (sel : Selection)
    (h : ((scanFrames g peer limits uninitialised codec tmp frames sel).getLastD sel).frameFormat = none) :
    ∀ sel' ∈ sel :: scanFrames g peer limits uninitialised codec tmp frames sel, sel'.frameFormat = none := by
  induction frames generalizing tmp sel with
  | nil =>
    rintro sel' (_ | ⟨_, ⟨⟩⟩)
    exact h
  | cons frame rest ih =>
    unfold scanFrames at h ⊢
    simp only [] at h ⊢
    split_ifs at h ⊢ with hdescribed
    · rw [List.getLastD_cons] at h
      have hrest := ih _ _ h
      intro sel' hsel'
      rcases List.mem_cons.mp hsel' with rfl | hmem
      · exact considerFrame_format _ _ _ _ (hrest _ List.mem_cons_self)
      · exact hrest sel' hmem
    · rw [List.getLastD_cons] at h
      have hrest := ih _ _ h
      intro sel' hsel'
      rcases List.mem_cons.mp hsel' with rfl | hmem
      · exact hrest _ List.mem_cons_self
      · exact hrest sel' hmem

theorem scanFormats_format {peer : Peer} {limits : QuirkLimits} {uninitialised : Int × Int} (formats : List FormatDesc)
    (sel : Selection)
    (h : ((scanFormats g peer limits uninitialised formats sel).getLastD sel).frameFormat = none) :
    ∀ sel' ∈ sel :: scanFormats g peer limits uninitialised formats sel, sel'.frameFormat = none := by
  induction formats generalizing sel with
  | nil =>
    rintro sel' (_ | ⟨_, ⟨⟩⟩)
    exact h
  | cons format rest ih =>
    unfold scanFormats at h ⊢
    split at h
    · exact ih sel h
    · next codec hcodec =>
      simp only [] at h ⊢
      rw [getLastD_append] at h
      have hrest := ih _ h
      have hhere := scanFrames_format codec format.frameDescs (templateStructure codec) sel (hrest _ List.mem_cons_self)
      intro sel' hsel'
      rcases List.mem_cons.mp hsel' with rfl | hmem
      · exact hhere _ List.mem_cons_self
      · rcases List.mem_append.mp hmem with hmem | hmem
        · exact hhere sel' (List.mem_cons_of_mem _ hmem)
        · exact hrest sel' (List.mem_cons_of_mem _ hmem)

theorem writtenFormat_none {sels : List Selection} {format : FrameFormat} (h : ∀ sel ∈ sels, sel.frameFormat = none) :
    writtenFormat sels format = format := by
  unfold writtenFormat
  induction sels with
  | nil => rfl
  | cons sel rest ih =>
    rw [List.foldl_cons, h sel List.mem_cons_self]
    exact ih fun sel' hsel' => h sel' (List.mem_cons_of_mem sel hsel')

/-- The format of the last selection stays, if there is one. -/
theorem writtenFormat_scanFormats {peer : Peer} {limits : QuirkLimits} {uninitialised : Int × Int}
    (formats : List FormatDesc) (format : FrameFormat) :
    writtenFormat (scanFormats g peer limits uninitialised formats .init) format =
      (selectMode g peer limits uninitialised formats).frameFormat.getD format := by
  cases hlast : (selectMode g peer limits uninitialised formats).frameFormat with
  | some last => exact foldl_format _ format hlast
  | none =>
    have hnone := scanFormats_format formats .init hlast
    exact writtenFormat_none fun sel hsel => hnone sel (List.mem_cons_of_mem _ hsel)

/-! ## What a failed negotiation leaves -/

structure Failed (g : Gst) (told : NegotiationAnswers) (w w' : World) : Prop where
  own : w'.own = { w.own with
    uvcCtrl := told.leftCtrl g w.own.uvcCtrl
    deliverableCaps := w'.own.deliverableCaps }
  negotiated : w'.stream.negotiated = (w.withFormat (told.leftFormat g w.stream.frameFormat)).stream.negotiated
  listened : Listened w w'

theorem wp_uvcGetFormatDescs_told {Q : List FormatDesc → World → Prop}
    (hQ : Q (env.formatDescs (afterTurn env w).log) ((afterTurn env w).note (.formatDescs w.own.uvcDevh))) :
    wp (fun _ => True) (uvcGetFormatDescs env) Q w := by
  unfold uvcGetFormatDescs
  rw [wp_bind]
  apply wp_afterTurn
  rintro w' hown rfl
  rw [← hown] at hQ
  rw [wp_bind, wp_ask, wp_bind]
  unfold withHandle
  rw [wp_bind, wp_get, wp_bind, wp_record]
  split
  · rw [wp_cut]
    trivial
  · split
    · exact hQ
    · rw [wp_cut]
      trivial

/-- Behind the selection loop a mode was selected, and none probed. -/
structure Selected (g : Gst) (told : NegotiationAnswers) (w w' : World) : Prop where
  own : w'.own = w.own
  negotiated : w'.stream.negotiated = (w.withFormat (told.leftFormat g w.stream.frameFormat)).stream.negotiated
  listened : Listened w w'

theorem Selected.beside {told : NegotiationAnswers} (h : Selected g told w w') (h' : Beside w' w'') :
    Selected g told w w'' where
  own := h'.own.trans h.own
  negotiated := h'.negotiated.trans h.negotiated
  listened := h.listened.trans h'.listened

/-- Nothing was probed, or the last probe was refused. -/
structure Refused (g : Gst) (told : NegotiationAnswers) (w w' : World) : Prop where
  own : w'.own = { w.own with uvcCtrl := told.leftCtrl g w.own.uvcCtrl }
  negotiated : w'.stream.negotiated = (w.withFormat (told.leftFormat g w.stream.frameFormat)).stream.negotiated
  listened : Listened w w'

theorem Selected.refused {told : NegotiationAnswers} (h : Selected g told w w')
    (hnone : (told.selection g).accepted = none) : Refused g told w w' where
  own := by
    rw [told.leftCtrl_of_none hnone, h.own]
  negotiated := h.negotiated
  listened := h.listened

theorem Selected.probed {told : NegotiationAnswers} {reply : Reply} (h : Selected g told w w')
    (hleft : told.leftCtrl g w.own.uvcCtrl = reply.ctrl) (h' : Probed reply w' w'') : Refused g told w w'' where
  own := by
    rw [h'.own, h.own, hleft]
  negotiated := h'.negotiated.trans h.negotiated
  listened := h.listened.trans h'.listened

theorem writeFormats_selected (told : NegotiationAnswers) (h : Beside w w') :
    wp (fun _ => True) (writeFormats env (scanFormats g told.peer told.limits told.uninitialised told.formats .init))
      (fun _ w'' => Selected g told w w'') w' := by
  refine wp_mono (writeFormats_beside _ _) fun _ w'' hwritten => ?_
  constructor
  case own => exact hwritten.own.trans h.own
  case negotiated =>
    rw [hwritten.negotiated, writtenFormat_scanFormats, told.leftFormat_eq]
    have hformat : w'.stream.frameFormat = w.stream.frameFormat := congrArg Prod.fst h.negotiated
    have hrest := congrArg Prod.snd h.negotiated
    show (Option.getD _ w'.stream.frameFormat, _) = _
    rw [hformat]
    exact congrArg (Prod.mk _) hrest
  case listened => exact h.listened.trans hwritten.listened

/-- The exits in front of the probe, and the one behind it. -/
theorem Selected.exits {told : NegotiationAnswers} (h : Selected g told w w')
    (hfirst : ∀ mode, told.first mode = env.reply (afterTurn env w').log (.probe mode))
    (hsecond : ∀ mode, told.second mode = env.reply (afterTurn env ((afterTurn env w').note
      (.request w'.own.uvcDevh (.probe mode) (told.first mode)))).log (.probe mode)) :
    wp (fun _ => True) (negotiateSelection env told.formats (told.selection g))
      (fun ok w'' => ok = false → Refused g told w w'') w' := by
  unfold negotiateSelection
  rw [wp_ite]
  constructor
  · intro hall
    rw [wp_bind]
    apply wp_uvcGetFormatDescs_told
    rw [wp_bind, wp_record, wp_pure]
    intro _
    have hasked : Beside w' ((afterTurn env w').note (.formatDescs w'.own.uvcDevh)) :=
      (Beside.afterTurn env w').trans (.note rfl)
    have hposted : ∀ error, Beside w' (((afterTurn env w').note (.formatDescs w'.own.uvcDevh)).note (.error error)) :=
      fun error => hasked.trans (.note rfl)
    exact (h.beside (hposted _)).refused (selectMode_none hall)
  · intro _
    split
    · next hnone => exact fun _ => h.refused hnone
    · next caps hcaps =>
      obtain ⟨mode, hformat, hmode, hleft⟩ := told.accepted_mode hcaps
      have hkept : w'.stream.frameFormat = mode.format := by
        have hwritten := congrArg Prod.fst h.negotiated
        refine hwritten.trans ?_
        show told.leftFormat g w.stream.frameFormat = _
        rw [told.leftFormat_eq, hformat]
        rfl
      refine wp_mono (negotiateMode_probed mode caps (by rw [hkept]; exact hmode) (hfirst mode) (hsecond mode))
        fun ok w'' hprobed hfalse => ?_
      obtain ⟨hrefused, hprobed⟩ := hprobed hfalse
      exact h.probed (hleft _) hprobed

theorem publishLadder_failed {told : NegotiationAnswers} (h : Refused g told w w') (ladder : List (Structure Codec)) :
    wp (fun _ => True) (publishLadder env ladder) (fun _ w'' => Failed g told w w'') w' := by
  unfold publishLadder
  rw [wp_bind]
  apply wp_turn_beside
  intro w₁ hturn
  rw [wp_modifyOwn]
  constructor
  case own =>
    show Own.mk .. = _
    rw [hturn.own, h.own]
  case negotiated => exact hturn.negotiated.trans h.negotiated
  case listened => exact h.listened.trans hturn.listened

theorem negotiate_failed (w : World) :
    wp (fun _ => True) (negotiate env g) (fun ok w' => ok = false → Failed g (negotiationAnswers env g w) w w') w := by
  unfold negotiate
  rw [wp_bind]
  apply wp_afterTurn
  rintro _ hown₁ rfl
  rw [wp_bind, wp_ask, wp_bind, wp_ask, wp_bind]
  apply wp_uvcGetFormatDescs_told
  rw [hown₁, wp_bind, wp_ask, wp_bind, wp_record, wp_bind]
  have hbeside := (((Beside.afterTurn env w).trans (Beside.afterTurn env _)).trans
    (.note (e := .formatDescs w.own.uvcDevh) rfl)).trans
    (.note (e := .selecting (negotiationAnswers env g w).peer (negotiationAnswers env g w).limits
      (negotiationAnswers env g w).formats (negotiationAnswers env g w).uninitialised) rfl)
  refine wp_mono (wp_with_run (writeFormats_selected (negotiationAnswers env g w) hbeside))
    fun _ w₃ ⟨hselected, hrun⟩ => ?_
  have hlooped : _ = w₃ := congrArg Prod.snd hrun
  have hdevh : w₃.own.uvcDevh = w.own.uvcDevh := congrArg Own.uvcDevh hselected.own
  have hfirst : ∀ mode, (negotiationAnswers env g w).first mode = env.reply (afterTurn env w₃).log (.probe mode) := by
    rw [← hlooped]
    exact fun _ => rfl
  have hsecond : ∀ mode, (negotiationAnswers env g w).second mode = env.reply (afterTurn env ((afterTurn env w₃).note
      (.request w₃.own.uvcDevh (.probe mode) ((negotiationAnswers env g w).first mode)))).log (.probe mode) := by
    rw [hdevh, ← hlooped]
    exact fun _ => rfl
  rw [wp_bind]
  refine wp_mono (hselected.exits hfirst hsecond) fun ok w₄ hrefused => ?_
  rw [wp_bind]
  by_cases hfalse : ok = false
  · refine wp_mono (publishLadder_failed (hrefused hfalse) _) fun _ w₅ hfailed => ?_
    rw [wp_pure]
    exact fun _ => hfailed
  · refine wp_true (fun _ => trivial) fun _ w₅ => ?_
    rw [wp_pure]
    exact fun h => absurd h hfalse

/-! ## Atomicity -/

/-- All that the ladder and the feeder do not account for is as it was. -/
structure Atomic (w w' : World) : Prop where
  own : w'.own = { w.own with deliverableCaps := w'.own.deliverableCaps }
  negotiated : w'.stream.negotiated = w.stream.negotiated
  listened : Listened w w'

/-- No descriptor is taken, or the last one that is has the format that was there; and if its mode has a whole frame a
second, the device answers the last probe with the control block that was there. -/
def LeavesNothing (g : Gst) (told : NegotiationAnswers) (w : World) : Prop :=
  ∀ c ∈ told.taken g, c.codec.format = w.stream.frameFormat ∧
    (0 < (told.mode g c).fps → (told.last (told.mode g c)).ctrl = w.own.uvcCtrl)

instance (g : Gst) (told : NegotiationAnswers) (w : World) : Decidable (LeavesNothing g told w) :=
  inferInstanceAs (Decidable (∀ _ ∈ told.taken g, _))

theorem leavesNothing_iff {told : NegotiationAnswers} : LeavesNothing g told w ↔
    told.leftFormat g w.stream.frameFormat = w.stream.frameFormat ∧ told.leftCtrl g w.own.uvcCtrl = w.own.uvcCtrl := by
  unfold LeavesNothing NegotiationAnswers.leftFormat NegotiationAnswers.leftCtrl
  cases told.taken g with
  | none => exact iff_of_true (fun c hc => absurd hc (Option.not_mem_none c)) ⟨rfl, rfl⟩
  | some c =>
    simp only [Option.mem_some_iff, forall_eq', Option.map_some, Option.getD_some]
    refine and_congr_right fun _ => ?_
    split_ifs with hpos
    · exact ⟨fun h => h hpos, fun h _ => h⟩
    · exact iff_of_true (fun h => absurd h hpos) rfl

theorem Failed.leaves_iff {told : NegotiationAnswers} (h : Failed g told w w') : Atomic w w' ↔ LeavesNothing g told w := by
  rw [leavesNothing_iff]
  constructor
  · intro hatomic
    exact ⟨congrArg Prod.fst (h.negotiated.symm.trans hatomic.negotiated),
      congrArg Own.uvcCtrl (h.own.symm.trans hatomic.own)⟩
  · rintro ⟨hformat, hctrl⟩
    have hown := h.own
    have hnegotiated := h.negotiated
    rw [hctrl] at hown
    rw [hformat] at hnegotiated
    exact ⟨hown, hnegotiated, h.listened⟩

/-- **Failed negotiations are atomic** if and only if they were told to leave nothing: the descriptor that is taken last
has the frame format that was there, and the refused probe, if there is one, puts back the control block. -/
theorem atomic_iff (h : negotiate env g w = (some false, w')) :
    Atomic w w' ↔ LeavesNothing g (negotiationAnswers env g w) w :=
  (wp_elim (negotiate_failed w) h rfl).leaves_iff

/-- A camera that refuses every probe, and puts back the control block of the negotiated one. -/
def refusingCamera : Env :=
  { oneCamera with
    reply := fun _ req =>
      match req with
      | .probe _ => ⟨-1, (negotiatedWorld 0).own.uvcCtrl⟩
      | req => willing req
    probed := fun _ _ haccepted => absurd (show (-1 : Int) < 0 by decide) haccepted
    reprobed := fun _ _ _ => rfl }

theorem atomic_iff_refusing : (negotiate refusingCamera plainGst (negotiatedWorld 0)).1 = some false ∧
    (negotiationAnswers refusingCamera plainGst (negotiatedWorld 0)).taken plainGst ≠ none ∧
    Atomic (negotiatedWorld 0) (negotiate refusingCamera plainGst (negotiatedWorld 0)).2 := by
  have hfalse : (negotiate refusingCamera plainGst (negotiatedWorld 0)).1 = some false := by decide +kernel
  refine ⟨hfalse, by decide +kernel, (atomic_iff (Prod.ext hfalse rfl)).mpr ?_⟩
  decide +kernel

/-- The camera refuses the probe of a selected mode, behind a stream of the other format. -/
theorem not_atomic :
    ¬ ∀ (env : Env) (g : Gst) (w w' : World), negotiate env g w = (some false, w') → Atomic w w' := by
  have hrun : (negotiate failingCamera plainGst ((negotiatedWorld 0).withFormat .h265)).1 = some false ∧
      (negotiate failingCamera plainGst ((negotiatedWorld 0).withFormat .h265)).2.stream.frameFormat = .h264 := by
    decide +kernel
  obtain ⟨hfalse, hformat⟩ := hrun
  intro hall
  have hatomic := hall failingCamera plainGst ((negotiatedWorld 0).withFormat .h265) _ (Prod.ext hfalse rfl)
  have hkept := congrArg Prod.fst hatomic.negotiated
  exact absurd (hkept.symm.trans hformat) nofun

end LibuvcH264Src
