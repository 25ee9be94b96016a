import LibuvcH264Src.Negotiate

/-!
# The selected mode

* `DeliverableOf` : what the quirks leave of a frame descriptor;
* `scanFormats_forall` : what each considered descriptor keeps of the selection holds of all selections;
* `Selection.Matches` : the caps of a selection are those of its geometry and rate;
* `Describes` : caps that describe a mode, and no other.
-/

namespace LibuvcH264Src
open AnnexB Caps Prog

/-! ## Deliverable caps of one descriptor -/

/-- The filter leaves the geometry alone. -/
theorem quirksFilterStructure_geometry {α : Type} {g : RangeSetter} {limits : Option QuirkLimits}
    {s s' : Structure α} (h : quirksFilterStructure g limits s = some s') :
    s'.fields = s.fields ∧ s'.width = s.width ∧ s'.height = s.height := by
  unfold quirksFilterStructure at h
  simp only [] at h
  split at h
  · split at h
    · exact Option.some.inj h ▸ ⟨rfl, rfl, rfl⟩
    · split_ifs at h
      · exact Option.some.inj h ▸ ⟨rfl, rfl, rfl⟩
      · exact Option.some.inj h ▸ ⟨rfl, rfl, rfl⟩
    · split_ifs at h
      exact Option.some.inj h ▸ ⟨rfl, rfl, rfl⟩
    · split_ifs at h
      exact Option.some.inj h ▸ ⟨rfl, rfl, rfl⟩
    · exact Option.some.inj h ▸ ⟨rfl, rfl, rfl⟩
  · exact Option.some.inj h ▸ ⟨rfl, rfl, rfl⟩

theorem uvcQuirksFilterCaps_singleton {α : Type} (g : RangeSetter) (limits : QuirkLimits) (s : Structure α) :
    uvcQuirksFilterCaps g (some limits) [s] =
      if limits.maxPixelRate = 0 then [s] else (quirksFilterStructure g (some limits) s).toList := by
  by_cases h : limits.maxPixelRate = 0
  · rw [if_pos h]
    exact if_pos h
  · rw [if_neg h, uvcQuirksFilterCaps_eq g limits h]
    cases hs : quirksFilterStructure g (some limits) s with
    | none => rw [List.filterMap_cons_none hs]; rfl
    | some s' => rw [List.filterMap_cons_some hs]; rfl

section Selection
variable {g : Gst} {peer : Peer} {limits : QuirkLimits} {uninitialised : Int × Int}

/-- `d` is what the quirks leave of a frame descriptor. -/
def DeliverableOf (g : Gst) (limits : QuirkLimits) (codec : Codec) (frame : FrameDesc) (d : Structure Codec) : Prop :=
  ∃ tmp : Structure Codec, tmp.fields = codec ∧ (describeFrame g tmp frame).2 = true ∧
    uvcQuirksFilterCaps g.toRangeSetter (some limits) [(describeFrame g tmp frame).1] = [d]

theorem describeFrame_geometry (tmp : Structure Codec) (frame : FrameDesc) :
    (describeFrame g tmp frame).1.fields = tmp.fields ∧
      (describeFrame g tmp frame).1.width = some (frame.wWidth.toNat : Int) ∧
      (describeFrame g tmp frame).1.height = some (frame.wHeight.toNat : Int) := by
  unfold describeFrame
  simp only []
  split
  · exact ⟨rfl, rfl, rfl⟩
  · split_ifs <;> exact ⟨rfl, rfl, rfl⟩

theorem DeliverableOf.geometry {codec : Codec} {frame : FrameDesc} {d : Structure Codec}
    (h : DeliverableOf g limits codec frame d) :
    d.fields = codec ∧ d.width = some (frame.wWidth.toNat : Int) ∧ d.height = some (frame.wHeight.toNat : Int) := by
  obtain ⟨tmp, rfl, -, hd⟩ := h
  obtain ⟨hfields, hwidth, hheight⟩ := describeFrame_geometry (g := g) tmp frame
  rw [uvcQuirksFilterCaps_singleton] at hd
  split_ifs at hd
  · obtain rfl := List.head_eq_of_cons_eq hd
    exact ⟨hfields, hwidth, hheight⟩
  · cases hs : quirksFilterStructure g.toRangeSetter (some limits) (describeFrame g tmp frame).1 with
    | none =>
      rw [hs] at hd
      exact absurd hd nofun
    | some s' =>
      rw [hs] at hd
      obtain rfl := List.head_eq_of_cons_eq hd
      obtain ⟨hf, hw, hh⟩ := quirksFilterStructure_geometry hs
      exact ⟨hf.trans hfields, hw.trans hwidth, hh.trans hheight⟩

/-! ## The loop -/

/-- What each considered frame of a format keeps of the selection holds of all selections. -/
theorem scanFrames_forall {codec : Codec} {P : Selection → Prop} (frames : List FrameDesc)
    (hstep : ∀ frame ∈ frames, ∀ d, DeliverableOf g limits codec frame d → ∀ sel, P sel →
      P (considerFrame g peer uninitialised codec frame [d] sel))
    (tmp : Structure Codec) (htmp : tmp.fields = codec) {sel : Selection} (h : P sel) :
    ∀ sel' ∈ scanFrames g peer limits uninitialised codec tmp frames sel, P sel' := by
  induction frames generalizing tmp sel with
  | nil => exact fun sel' hsel' => absurd hsel' List.not_mem_nil
  | cons frame rest ih =>
    have hrest := ih fun frame' hframe' => hstep frame' (List.mem_cons_of_mem frame hframe')
    have htmp' : (describeFrame g tmp frame).1.fields = codec := (describeFrame_geometry tmp frame).1.trans htmp
    intro sel' hsel'
    unfold scanFrames at hsel'
    simp only [] at hsel'
    split_ifs at hsel' with hdescribed
    · have hhere : P (considerFrame g peer uninitialised codec frame
          (uvcQuirksFilterCaps g.toRangeSetter (some limits) [(describeFrame g tmp frame).1]) sel) := by
        rcases hcaps : uvcQuirksFilterCaps g.toRangeSetter (some limits) [(describeFrame g tmp frame).1] with
          _ | ⟨d, more⟩
        · exact h
        · obtain rfl : more = [] := by
            rw [uvcQuirksFilterCaps_singleton] at hcaps
            split_ifs at hcaps
            · exact (List.tail_eq_of_cons_eq hcaps).symm
            · cases hs : quirksFilterStructure g.toRangeSetter (some limits) (describeFrame g tmp frame).1 with
              | none => rw [hs] at hcaps; exact absurd hcaps nofun
              | some s' => rw [hs] at hcaps; exact (List.tail_eq_of_cons_eq hcaps).symm
          exact hstep frame List.mem_cons_self d ⟨tmp, htmp, hdescribed, hcaps⟩ sel h
      rcases List.mem_cons.mp hsel' with rfl | hmem
      · exact hhere
      · exact hrest _ htmp' hhere sel' hmem
    · rcases List.mem_cons.mp hsel' with rfl | hmem
      · exact h
      · exact hrest _ htmp' h sel' hmem

theorem getLastD_forall {α : Type} {P : α → Prop} {xs : List α} {d : α} (h : ∀ x ∈ xs, P x) (hd : P d) :
    P (xs.getLastD d) := by
  cases hxs : xs.getLast? with
  | none =>
    rw [List.getLastD_eq_getLast?, hxs]
    exact hd
  | some x =>
    rw [List.getLastD_eq_getLast?, hxs]
    exact h x (List.mem_of_getLast? hxs)

theorem getLastD_append {α : Type} (xs ys : List α) (d : α) :
    (xs ++ ys).getLastD d = ys.getLastD (xs.getLastD d) := by
  induction xs generalizing d with
  | nil => rfl
  | cons x xs ih => rw [List.cons_append, List.getLastD_cons, List.getLastD_cons, ih]

/-- What each considered frame keeps of the selection holds of all selections. -/
theorem scanFormats_forall {P : Selection → Prop} (formats : List FormatDesc)
    (hstep : ∀ format ∈ formats, ∀ codec, codecOf format = some codec → ∀ frame ∈ format.frameDescs, ∀ d,
      DeliverableOf g limits codec frame d → ∀ sel, P sel →
      P (considerFrame g peer uninitialised codec frame [d] sel)) {sel : Selection} (h : P sel) :
    ∀ sel' ∈ scanFormats g peer limits uninitialised formats sel, P sel' := by
  induction formats generalizing sel with
  | nil => exact fun sel' hsel' => absurd hsel' List.not_mem_nil
  | cons format rest ih =>
    have hrest := @ih fun format' hformat' => hstep format' (List.mem_cons_of_mem format hformat')
    intro sel' hsel'
    unfold scanFormats at hsel'
    split at hsel'
    · exact hrest h sel' hsel'
    · next codec hcodec =>
      have hhere : ∀ sel' ∈ scanFrames g peer limits uninitialised codec (templateStructure codec) format.frameDescs
          sel, P sel' :=
        scanFrames_forall format.frameDescs (hstep format List.mem_cons_self codec hcodec) (templateStructure codec) rfl h
      rcases List.mem_append.mp hsel' with hmem | hmem
      · exact hhere sel' hmem
      · exact hrest (getLastD_forall hhere h) sel' hmem

/-! ## The caps of a selection -/

/-- The first structure of the selected caps has the format, the geometry and the rate of the selection. -/
def Selection.Matches (sel : Selection) : Prop :=
  ∀ best, sel.bestCaps = some best → ∃ s rest, best = s :: rest ∧ sel.frameFormat = some s.fields.format ∧
    s.width = some sel.width ∧ s.height = some sel.height ∧
    ∀ f, s.framerate = .fraction f → sel.framerate = f.num.tdiv f.den

theorem Selection.matches_init : Selection.init.Matches := fun _ h => absurd h nofun

theorem Selection.accepted_eq {sel : Selection} {caps : List (Structure Codec)} (h : sel.accepted = some caps) :
    sel.bestCaps = some caps := by
  unfold Selection.accepted at h
  split at h
  · exact absurd h nofun
  · exact h

theorem fixateFirst_cons (s : Structure Codec) (rest : List (Structure Codec)) (fps : Int) :
    ∃ rates, fixateFirst g (s :: rest) fps = { s with framerate := rates } :: rest ∧
      ∀ f, rates = .fraction f → g.fixate s.framerate fps = some f ∨
        g.fixate s.framerate fps = none ∧ s.framerate = .fraction f := by
  unfold fixateFirst
  simp only []
  cases hfix : g.fixate s.framerate fps with
  | some f => exact ⟨.fraction f, rfl, fun f' hf' => Or.inl (by injection hf' with hf'; rw [hf'])⟩
  | none => exact ⟨s.framerate, rfl, fun f' hf' => Or.inr ⟨rfl, hf'⟩⟩

theorem considerFrame_matches {codec : Codec} {frame : FrameDesc} {d : Structure Codec} {sel : Selection}
    (hd : DeliverableOf g limits codec frame d) (h : sel.Matches) :
    (considerFrame g peer uninitialised codec frame [d] sel).Matches := by
  obtain ⟨hfields, hwidth, hheight⟩ := hd.geometry
  unfold considerFrame
  simp only []
  split_ifs with hchosen
  · rintro best hbest
    obtain rfl := Option.some.inj hbest
    obtain ⟨s, rest, hcaps⟩ := List.exists_cons_of_ne_nil hchosen.1
    obtain ⟨hsf, hsw, hsh⟩ := peer.sound d s (by rw [hcaps]; exact List.mem_cons_self) (by rw [hwidth]; rfl)
      (by rw [hheight]; rfl)
    obtain ⟨rates, hfixed, hrates⟩ := fixateFirst_cons (g := g) s rest (topRate d.framerate)
    rw [hcaps, hfixed]
    refine ⟨_, rest, rfl, ?_, ?_, ?_, ?_⟩
    · show some codec.format = some s.fields.format
      rw [hsf, hfields]
    · exact hsw.trans hwidth
    · exact hsh.trans hheight
    · rintro f rfl
      rfl
  · exact h

end Selection

/-! ## Caps that describe a mode -/

/-- The caps are one structure with the codec, the geometry and the rate of the mode. -/
def Describes (mode : StreamMode) (caps : List (Structure Codec)) : Prop :=
  ∃ codec f, caps = [⟨codec, some mode.width, some mode.height, .fraction f⟩] ∧ codec.format = mode.format ∧
    f.value = mode.fps

/-- Fixed caps with a whole framerate. -/
def WholeRate (caps : List (Structure Codec)) : Prop :=
  match caps with
  | [⟨_, some _, some _, .fraction f⟩] => (f.den : Int) ∣ f.num
  | _ => False

instance WholeRate.decidable : DecidablePred WholeRate := fun caps => by
  unfold WholeRate
  split <;> infer_instance

theorem WholeRate.elim {caps : List (Structure Codec)} (h : WholeRate caps) :
    ∃ codec width height f, caps = [⟨codec, some width, some height, .fraction f⟩] ∧
      f.value = (f.num.tdiv f.den : Int) := by
  unfold WholeRate at h
  split at h
  · next codec width height f =>
    refine ⟨codec, width, height, f, rfl, ?_⟩
    obtain ⟨k, hk⟩ := h
    have hden : (f.den : Int) ≠ 0 := by
      have := f.den_pos
      omega
    have hden' : (f.den : ℚ) ≠ 0 := by exact_mod_cast hden
    unfold Fraction.value
    rw [hk, Int.mul_tdiv_cancel_left k hden]
    push_cast
    exact mul_div_cancel_left₀ _ hden'
  · exact h.elim

end LibuvcH264Src
