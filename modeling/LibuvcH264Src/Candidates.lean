import LibuvcH264Src.Contest
import LibuvcH264Src.Lifecycle
import LibuvcH264Src.Selection

/-!
# The candidates of a negotiation

* `Candidate`, `candidates` : the deliverable modes of the descriptors, in their order;
* `selectMode_eq` : the selection goes through the candidates;
* `worth`, `Selection.Holds` : the selection as a contest among the candidates that the peer takes;
* `selectMode_holds` : what is selected is the incumbent in the end.
-/

namespace LibuvcH264Src
open AnnexB Caps Prog Contest

/-- What the quirks leave of a frame descriptor. -/
structure Candidate where
  codec : Codec
  frame : FrameDesc
  deliverable : Structure Codec
  deriving DecidableEq

section Candidates
variable (g : Gst) (limits : QuirkLimits)

/-- The candidates of a format. -/
def frameCandidates (codec : Codec) : Structure Codec → List FrameDesc → List Candidate
  | _, [] => []
  | tmp, frame :: rest =>
    let described := describeFrame g tmp frame
    let deliverable :=
      if described.2 then uvcQuirksFilterCaps g.toRangeSetter (some limits) [described.1] else []
    deliverable.map (fun d => ⟨codec, frame, d⟩) ++ frameCandidates codec described.1 rest

def candidates : List FormatDesc → List Candidate
  | [] => []
  | format :: rest =>
    match codecOf format with
    | none => candidates rest
    | some codec =>
      frameCandidates g limits codec (templateStructure codec) format.frameDescs ++ candidates rest

variable (peer : Peer) (uninitialised : Int × Int)

/-- What the loop does with a candidate. -/
def consider (sel : Selection) (c : Candidate) : Selection :=
  considerFrame g peer uninitialised c.codec c.frame [c.deliverable] sel

end Candidates

section Walk
variable {g : Gst} {limits : QuirkLimits} {peer : Peer} {uninitialised : Int × Int}

/-- The quirks leave at most one structure of a frame descriptor. -/
theorem uvcQuirksFilterCaps_cases (g : Gst) (limits : QuirkLimits) (s : Structure Codec) :
    uvcQuirksFilterCaps g.toRangeSetter (some limits) [s] = [] ∨
      ∃ d, uvcQuirksFilterCaps g.toRangeSetter (some limits) [s] = [d] := by
  rw [uvcQuirksFilterCaps_singleton]
  split_ifs
  · exact Or.inr ⟨s, rfl⟩
  · cases quirksFilterStructure g.toRangeSetter (some limits) s with
    | none => exact Or.inl rfl
    | some d => exact Or.inr ⟨d, rfl⟩

theorem scanFrames_getLastD (codec : Codec) (frames : List FrameDesc) (tmp : Structure Codec) (sel : Selection) :
    (scanFrames g peer limits uninitialised codec tmp frames sel).getLastD sel =
      (frameCandidates g limits codec tmp frames).foldl (consider g peer uninitialised) sel := by
  induction frames generalizing tmp sel with
  | nil => rfl
  | cons frame rest ih =>
    unfold scanFrames frameCandidates
    simp only []
    split_ifs with hdescribed
    · rw [List.getLastD_cons, ih, List.foldl_append]
      rcases uvcQuirksFilterCaps_cases g limits (describeFrame g tmp frame).1 with hnone | ⟨d, hd⟩
      · rw [hnone]
        rfl
      · rw [hd]
        rfl
    · rw [List.getLastD_cons, ih]
      rfl

theorem scanFormats_getLastD (formats : List FormatDesc) (sel : Selection) :
    (scanFormats g peer limits uninitialised formats sel).getLastD sel =
      (candidates g limits formats).foldl (consider g peer uninitialised) sel := by
  induction formats generalizing sel with
  | nil => rfl
  | cons format rest ih =>
    unfold scanFormats candidates
    cases codecOf format with
    | none => exact ih sel
    | some codec =>
      simp only []
      rw [List.foldl_append, ← scanFrames_getLastD, ← ih, getLastD_append]

/-- The selection goes through the candidates. -/
theorem selectMode_eq (formats : List FormatDesc) :
    selectMode g peer limits uninitialised formats =
      (candidates g limits formats).foldl (consider g peer uninitialised) .init :=
  scanFormats_getLastD formats .init

end Walk

/-! ## The contest -/

section Contest
variable (g : Gst) (peer : Peer) (uninitialised : Int × Int)

/-- The peer takes something of the candidate. -/
def Candidate.Compatible (c : Candidate) : Prop := peer.intersect c.deliverable ≠ []

instance Candidate.compatible_decidable : DecidablePred (Candidate.Compatible peer) := fun c =>
  inferInstanceAs (Decidable (peer.intersect c.deliverable ≠ []))

/-- What the peer takes, with the first framerate fixated. -/
def Candidate.best (c : Candidate) : List (Structure Codec) :=
  fixateFirst g (peer.intersect c.deliverable) (topRate c.deliverable.framerate)

/-- The area as the loop computes it. -/
@[irreducible] def Candidate.area (c : Candidate) : Int := gintMul c.frame.wWidth.toNat c.frame.wHeight.toNat

/-- A candidate bids its top rate, and yields what the peer leaves of it. -/
def worth : Worth Candidate where
  size := Candidate.area
  bid c := topRate c.deliverable.framerate
  yield c := fixatedFramerate uninitialised (c.best g peer)

/-- No selection yet: an area of `(-1) * (-1)`. -/
def noneHeld : Held Candidate := ⟨1, -1, none⟩

/-- The locals of the loop stand for the incumbent. -/
structure Selection.Holds (sel : Selection) (held : Held Candidate) : Prop where
  size : gintMul sel.width sel.height = held.size
  yield : sel.framerate = held.yield
  nothing : held.winner = none → sel.width = -1 ∧ sel.height = -1 ∧ sel.bestCaps = none ∧ sel.frameFormat = none
  winner : ∀ c, held.winner = some c → sel.width = c.frame.wWidth.toNat ∧ sel.height = c.frame.wHeight.toNat ∧
    sel.bestCaps = some (c.best g peer) ∧ sel.frameFormat = some c.codec.format

end Contest

section Holds
variable {g : Gst} {peer : Peer} {uninitialised : Int × Int} {sel : Selection} {held : Held Candidate}

theorem Selection.holds_init : Selection.init.Holds g peer noneHeld where
  size := by unfold gintMul; decide
  yield := rfl
  nothing := fun _ => ⟨rfl, rfl, rfl, rfl⟩
  winner _ hc := absurd hc nofun

theorem consider_incompatible (c : Candidate) (hc : ¬ c.Compatible peer) (h : sel.Holds g peer held) :
    (consider g peer uninitialised sel c).Holds g peer held := by
  unfold consider considerFrame
  simp only []
  rw [if_neg fun hchosen => hc hchosen.1]
  exact ⟨h.size, h.yield, h.nothing, h.winner⟩

theorem consider_compatible (c : Candidate) (hc : c.Compatible peer) (h : sel.Holds g peer held) :
    (consider g peer uninitialised sel c).Holds g peer (challenge (worth g peer uninitialised) held c) := by
  have hbeaten : Beaten (worth g peer uninitialised) held c ↔
      (gintMul c.frame.wWidth.toNat c.frame.wHeight.toNat > gintMul sel.width sel.height ∨
        gintMul c.frame.wWidth.toNat c.frame.wHeight.toNat = gintMul sel.width sel.height ∧
          topRate c.deliverable.framerate > sel.framerate) := by
    simp only [Beaten, worth, Candidate.area, gt_iff_lt, h.size, h.yield]
  unfold consider considerFrame challenge
  simp only [hbeaten]
  split_ifs with hchosen hwins hwins
  · refine ⟨?_, ?_, fun hnone => ?_, fun c' hc' => ?_⟩
    · simp only [Worth.held, worth, Candidate.area]
    · simp only [Worth.held, worth, Candidate.best]
    · cases hnone
    · obtain rfl := Option.some.inj hc'
      exact ⟨rfl, rfl, rfl, rfl⟩
  · exact absurd hchosen.2 hwins
  · exact absurd ⟨hc, hwins⟩ hchosen
  · exact ⟨h.size, h.yield, h.nothing, h.winner⟩

/-- What an incumbent with a framerate makes of the selection. -/
theorem Selection.Holds.selected (h : sel.Holds g peer held) {w : Candidate} (hwinner : held.winner = some w) :
    sel.framerate = held.yield ∧ sel.width = w.frame.wWidth.toNat ∧ sel.height = w.frame.wHeight.toNat ∧
      sel.frameFormat = some w.codec.format ∧ (sel.accepted.isSome = true ↔ 0 < held.yield) := by
  obtain ⟨hwidth, hheight, hcaps, hformat⟩ := h.winner w hwinner
  refine ⟨h.yield, hwidth, hheight, hformat, ?_⟩
  unfold Selection.accepted
  rw [hwidth, hheight, h.yield, hcaps]
  by_cases hrefused : ((w.frame.wWidth.toNat : Int) < 0 ∨ (w.frame.wHeight.toNat : Int) < 0 ∨ held.yield ≤ 0)
  · rw [if_pos hrefused]
    exact ⟨fun hnone => absurd hnone Bool.false_ne_true, fun hpos => by omega⟩
  · rw [if_neg hrefused]
    exact ⟨fun _ => by omega, fun _ => rfl⟩

theorem foldl_consider_holds (cs : List Candidate) (h : sel.Holds g peer held) :
    (cs.foldl (consider g peer uninitialised) sel).Holds g peer
      (contest (worth g peer uninitialised) held (cs.filter (Candidate.Compatible peer))) := by
  induction cs generalizing sel held with
  | nil => exact h
  | cons c cs ih =>
    rw [List.foldl_cons]
    by_cases hc : c.Compatible peer
    · rw [List.filter_cons_of_pos (by simpa using hc), contest_cons]
      exact ih (consider_compatible c hc h)
    · rw [List.filter_cons_of_neg (by simpa using hc)]
      exact ih (consider_incompatible c hc h)

end Holds

/-- The candidates that the peer takes something of. -/
def compatible (g : Gst) (limits : QuirkLimits) (peer : Peer) (formats : List FormatDesc) : List Candidate :=
  (candidates g limits formats).filter (Candidate.Compatible peer)

/-- **What is selected is the incumbent in the end** of the contest among the compatible candidates. -/
theorem selectMode_holds (g : Gst) (peer : Peer) (limits : QuirkLimits) (uninitialised : Int × Int)
    (formats : List FormatDesc) :
    (selectMode g peer limits uninitialised formats).Holds g peer
      (contest (worth g peer uninitialised) noneHeld (compatible g limits peer formats)) := by
  rw [selectMode_eq]
  exact foldl_consider_holds _ Selection.holds_init

end LibuvcH264Src
