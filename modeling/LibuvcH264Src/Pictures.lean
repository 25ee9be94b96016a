import LibuvcH264Src.Session

/-!
# Coded pictures

* `isVcl`, `Picture` : a coded picture, typed by the codec's own table;
* `groupFrom_picture` : a picture cuts at its AUD, or at its first slice if both that slice and one of
  the picture before are recognised;
* `Boundary p q` : the cut between `p` and `q` falls between them;
* `groupFrom_of_chain`, `chain_of_groupFrom` : the access units of a delivery are its pictures exactly
  when every boundary is right.
-/

namespace LibuvcH264Src
open AnnexB

/-! ## Pictures -/

/-- The VCL unit types that the two codecs use. -/
def isVcl : Codec → Nat → Bool
  | .h264, type => type = 1 ∨ type = 5
  | .h265, type => type ≤ 9 ∨ (16 ≤ type ∧ type ≤ 21)

/-- The type of the access unit delimiter. -/
def audType : Codec → Nat
  | .h264 => 9
  | .h265 => 35

/-- The type field of a coded unit. -/
def codedType (c : Codec) (u : CodedNal) : Nat := nalTypeField c.format u.2.header

/-- The length of a NAL header. -/
def headerLength : Codec → Nat
  | .h264 => 1
  | .h265 => 2

/-- The top bit of the first payload byte. -/
def payloadTopBit (c : Codec) (u : CodedNal) : Bool :=
  u.2.bytes.getD (headerLength c) 0 &&& 0x80 ≠ 0

/-- A coded picture: an optional AUD, non-VCL units, and VCL units of which exactly the first has the
top bit of its payload set. -/
structure Picture (c : Codec) where
  aud : Option CodedNal
  pre : List CodedNal
  first : CodedNal
  rest : List CodedNal
  audTyped : ∀ u ∈ aud, codedType c u = audType c
  preTyped : ∀ u ∈ pre, isVcl c (codedType c u) = false ∧ codedType c u ≠ audType c
  firstVcl : isVcl c (codedType c first) = true
  firstOpens : payloadTopBit c first = true
  restVcl : ∀ u ∈ rest, isVcl c (codedType c u) = true ∧ payloadTopBit c u = false

def Picture.nals {c : Codec} (p : Picture c) : List CodedNal :=
  p.aud.toList ++ (p.pre ++ p.first :: p.rest)

/-- The last VCL unit. -/
def Picture.last {c : Codec} (p : Picture c) : CodedNal := (p.first :: p.rest).getLast (by simp)

/-- The VCL units that `convert_unit_type` maps to a slice. -/
def recognised (c : Codec) (u : CodedNal) : Bool := nalIsSlice (convertUnitType c.format (codedType c u))

/-- The units that are forwarded from the wire. -/
def keptNal (c : Codec) (u : CodedNal) : Bool :=
  !nalIsParameterSet (convertUnitType c.format (codedType c u))

def Picture.kept {c : Codec} (p : Picture c) : List CodedNal := p.nals.filter (keptNal c)

/-! ## What the parser makes of the types -/

theorem convertUnitType_aud (c : Codec) (type : Nat) :
    convertUnitType c.format type = .aud ↔ type = audType c := by
  cases c <;> simp only [Codec.format, convertUnitType, audType] <;> split <;> simp_all

theorem isVcl_of_slice {c : Codec} {type : Nat}
    (h : nalIsSlice (convertUnitType c.format type) = true) : isVcl c type = true := by
  cases c <;> simp only [Codec.format, convertUnitType] at h <;> split at h <;>
    simp_all [nalIsSlice, isVcl]

theorem not_parameterSet_of_isVcl {c : Codec} {type : Nat} (h : isVcl c type = true) :
    nalIsParameterSet (convertUnitType c.format type) = false := by
  cases c <;> simp only [Codec.format, convertUnitType] <;> split <;>
    simp_all [nalIsParameterSet, isVcl]

theorem ne_aud_of_isVcl {c : Codec} {type : Nat} (h : isVcl c type = true) :
    type ≠ audType c := by
  cases c <;> rintro rfl <;> simp [isVcl, audType] at h

/-- In H.264 every VCL type is recognised. -/
theorem recognised_h264 {u : CodedNal} (h : isVcl .h264 (codedType .h264 u) = true) :
    recognised .h264 u = true := by
  simp only [isVcl, decide_eq_true_eq] at h
  rcases h with h | h <;> simp [recognised, h] <;> rfl

/-! ## Units of a picture -/

theorem unitsAt_append (c : Codec) (us vs : List CodedNal) :
    ∀ off, unitsAt c off (us ++ vs) = unitsAt c off us ++ unitsAt c (off + (wire us).length) vs := by
  induction us with
  | nil => intro off; rfl
  | cons u us ih =>
    intro off
    simp [unitsAt, ih, Nat.add_assoc]

theorem mem_unitsAt {c : Codec} {us : List CodedNal} {v : NalUnit} :
    ∀ {off}, v ∈ unitsAt c off us → ∃ u ∈ us, ∃ at', v = unitAt c at' u := by
  induction us with
  | nil => intro off h; simp [unitsAt] at h
  | cons u us ih =>
    intro off h
    rcases List.mem_cons.mp h with rfl | h
    · exact ⟨u, by simp, off, rfl⟩
    · obtain ⟨w, hw, at', rfl⟩ := ih h
      exact ⟨w, by simp [hw], at', rfl⟩

/-- The first payload byte of a unit is read behind its start code. -/
theorem nalOpensNewPicture_unitAt (c : Codec) (off : Nat) (u : CodedNal) :
    nalOpensNewPicture c.format (unitAt c off u) = payloadTopBit c u := by
  obtain ⟨sc, n⟩ := u
  have hoff : nalHeaderOffset (unitAt c off (sc, n)) = sc.bytes.length := by
    cases sc <;> simp [nalHeaderOffset, unitAt, NalUnit.len, CodedNal.bytes, StartCode.bytes]
  have hlen : (if c.format = .h265 then 2 else 1) = headerLength c := by cases c <;> rfl
  have hdata : (unitAt c off (sc, n)).data = sc.bytes ++ n.bytes := rfl
  rw [nalOpensNewPicture, hoff, hlen, NalUnit.len, hdata, List.length_append, payloadTopBit]
  by_cases h : n.bytes.length ≤ headerLength c
  · rw [if_pos (by omega)]
    simp [List.getD_eq_getElem?_getD, List.getElem?_eq_none h]
  · rw [if_neg (by omega)]
    congr 2
    rw [List.getD_eq_getElem?_getD, List.getD_eq_getElem?_getD, List.getElem?_append_right (by omega),
      Nat.add_sub_cancel_left]

/-! ## Where a picture cuts -/

/-- All the units `us` in the access unit under way. -/
def Group.absorb (g : Group) (us : List NalUnit) : Group := us.foldl Group.push g

theorem Group.absorb_append (g : Group) (us vs : List NalUnit) :
    g.absorb (us ++ vs) = (g.absorb us).absorb vs := List.foldl_append

@[simp] theorem Group.units_absorb (us : List NalUnit) :
    ∀ g : Group, (g.absorb us).units = g.units ++ us := by
  induction us with
  | nil => intro g; simp [Group.absorb]
  | cons u us ih =>
    intro g
    rw [Group.absorb, List.foldl_cons, ← Group.absorb, ih, Group.units_push]
    simp

theorem Group.hasSlice_absorb (us : List NalUnit) :
    ∀ g : Group, (g.absorb us).hasSlice = (g.hasSlice || LibuvcH264Src.hasSlice us) := by
  induction us with
  | nil => intro g; simp [Group.absorb, LibuvcH264Src.hasSlice]
  | cons u us ih =>
    intro g
    rw [Group.absorb, List.foldl_cons, ← Group.absorb, ih, Group.hasSlice_push, Bool.or_assoc]
    rfl

theorem Group.absorb_of_not_slice (us : List NalUnit) (h : ∀ u ∈ us, nalIsSlice u.type = false) :
    ∀ g : Group, g.absorb us = ⟨g.cur, g.run ++ us, g.hasSlice⟩ := by
  induction us with
  | nil => intro g; simp [Group.absorb]
  | cons u us ih =>
    intro g
    have hu : g.push u = ⟨g.cur, g.run ++ [u], g.hasSlice⟩ := by
      rw [Group.push, if_neg (by simp [h u])]
    rw [Group.absorb, List.foldl_cons, ← Group.absorb, hu, ih fun v hv => h v (by simp [hv])]
    simp

/-- With a slice at the end, nothing is pending. -/
theorem Group.run_absorb_snoc (g : Group) (us : List NalUnit) {u : NalUnit}
    (h : nalIsSlice u.type = true) : (g.absorb (us ++ [u])).run = [] := by
  rw [Group.absorb_append]
  simp [Group.absorb, Group.push, h]

/-- `cur` ends in a slice as soon as there is one. -/
def Group.EndsInSlice (g : Group) : Prop :=
  g.hasSlice = true → ∃ x v, g.cur = x ++ [v] ∧ nalIsSlice v.type = true

theorem Group.EndsInSlice.absorb (us : List NalUnit) :
    ∀ {g : Group}, g.EndsInSlice → (g.absorb us).EndsInSlice := by
  induction us with
  | nil => intro g h; exact h
  | cons u us ih =>
    intro g h
    refine ih (g := g.push u) fun hs => ?_
    unfold Group.push at hs ⊢
    split_ifs at hs ⊢ with hu
    · exact ⟨g.units, u, rfl, hu⟩
    · exact h hs

theorem Group.endsInSlice_fresh (run : List NalUnit) : Group.EndsInSlice ⟨[], run, false⟩ :=
  fun h => by cases h

/-- Units that cut nothing are absorbed. -/
theorem groupFrom_quiet (format : FrameFormat) (us more : List NalUnit)
    (h : ∀ u ∈ us, u.type ≠ .aud ∧ ¬ (nalIsSlice u.type ∧ nalOpensNewPicture format u)) :
    ∀ g : Group, groupFrom format g (us ++ more) = groupFrom format (g.absorb us) more := by
  induction us with
  | nil => intro g; rfl
  | cons u us ih =>
    intro g
    have hu := h u (by simp)
    rw [List.cons_append, groupFrom, if_neg hu.1, if_neg fun hc => hu.2 ⟨hc.1, hc.2.2⟩,
      ih fun v hv => h v (by simp [hv])]
    rfl

section Picture
variable {c : Codec} (p : Picture c)

/-- A picture without its AUD. -/
def Picture.body : List CodedNal := p.pre ++ p.first :: p.rest

theorem Picture.pre_quiet (off : Nat) (u : NalUnit) (h : u ∈ unitsAt c off p.pre) :
    u.type ≠ .aud ∧ nalIsSlice u.type = false := by
  obtain ⟨w, hw, at', rfl⟩ := mem_unitsAt h
  have ht := p.preTyped w hw
  refine ⟨fun ha => ht.2 ((convertUnitType_aud c _).mp ha), ?_⟩
  rw [← Bool.not_eq_true]
  exact fun hs => absurd (isVcl_of_slice hs) (by rw [← codedType, ht.1]; simp)

theorem Picture.first_quiet (off : Nat) : (unitAt c off p.first).type ≠ .aud := fun ha =>
  ne_aud_of_isVcl p.firstVcl ((convertUnitType_aud c _).mp ha)

theorem Picture.rest_quiet (off : Nat) (u : NalUnit) (h : u ∈ unitsAt c off p.rest) :
    u.type ≠ .aud ∧ ¬ (nalIsSlice u.type ∧ nalOpensNewPicture c.format u) := by
  obtain ⟨w, hw, at', rfl⟩ := mem_unitsAt h
  have ht := p.restVcl w hw
  refine ⟨fun ha => ne_aud_of_isVcl ht.1 ((convertUnitType_aud c _).mp ha), fun hc => ?_⟩
  rw [nalOpensNewPicture_unitAt, ht.2] at hc
  cases hc.2

/-- The body cuts at its first slice, if that is recognised and a slice came before. -/
theorem groupFrom_body (off : Nat) (g : Group) (more : List NalUnit) :
    groupFrom c.format g (unitsAt c off p.body ++ more) =
      if recognised c p.first ∧ g.hasSlice then
        g.cur :: groupFrom c.format (Group.absorb ⟨[], g.run, false⟩ (unitsAt c off p.body)) more
      else groupFrom c.format (g.absorb (unitsAt c off p.body)) more := by
  have hsplit : unitsAt c off p.body = unitsAt c off p.pre ++
      (unitAt c (off + (wire p.pre).length) p.first ::
        unitsAt c (off + (wire p.pre).length + p.first.bytes.length) p.rest) := by
    rw [Picture.body, unitsAt_append]; rfl
  have hpre := p.pre_quiet off
  have hopen := nalOpensNewPicture_unitAt c (off + (wire p.pre).length) p.first
  rw [p.firstOpens] at hopen
  rw [hsplit, Group.absorb_append, Group.absorb_append, Group.absorb_of_not_slice _
    fun u hu => (hpre u hu).2, Group.absorb_of_not_slice _ fun u hu => (hpre u hu).2,
    List.append_assoc, groupFrom_quiet _ _ _ fun u hu => ⟨(hpre u hu).1, by simp [(hpre u hu).2]⟩,
    Group.absorb_of_not_slice _ fun u hu => (hpre u hu).2, List.cons_append, groupFrom,
    if_neg (p.first_quiet _), groupFrom_quiet _ _ _ (p.rest_quiet _),
    groupFrom_quiet _ _ _ (p.rest_quiet _)]
  by_cases hcut : recognised c p.first ∧ g.hasSlice
  · rw [if_pos hcut, if_pos ⟨hcut.1, hcut.2, hopen⟩]
    rfl
  · rw [if_neg hcut, if_neg fun h => hcut ⟨h.1, h.2.1⟩]
    rfl

theorem Picture.nals_eq : p.nals = p.aud.toList ++ p.body := rfl

theorem Picture.nals_none (h : p.aud = none) : p.nals = p.body := by rw [p.nals_eq, h]; rfl

/-- A picture with an AUD cuts there. -/
theorem groupFrom_picture_aud (h : p.aud.isSome = true) (off : Nat) (g : Group)
    (more : List NalUnit) :
    groupFrom c.format g (unitsAt c off p.nals ++ more) =
      g.units :: groupFrom c.format (Group.empty.absorb (unitsAt c off p.nals)) more := by
  obtain ⟨a, ha⟩ := Option.isSome_iff_exists.mp h
  have htype : (unitAt c off a).type = .aud :=
    (convertUnitType_aud c _).mpr (p.audTyped a (by rw [ha]; rfl))
  have hpush : (Group.empty.push (unitAt c off a)).hasSlice = false := by
    rw [Group.hasSlice_push, htype]; rfl
  have hnals : unitsAt c off p.nals =
      unitAt c off a :: unitsAt c (off + a.bytes.length) p.body := by
    rw [p.nals_eq, ha]; rfl
  rw [hnals, List.cons_append, groupFrom, if_pos htype, groupFrom_body,
    if_neg (by rw [hpush]; simp)]
  rfl

theorem groupFrom_picture (h : p.aud = none) (off : Nat) (g : Group) (more : List NalUnit) :
    groupFrom c.format g (unitsAt c off p.nals ++ more) =
      if recognised c p.first ∧ g.hasSlice then
        g.cur :: groupFrom c.format (Group.absorb ⟨[], g.run, false⟩ (unitsAt c off p.nals)) more
      else groupFrom c.format (g.absorb (unitsAt c off p.nals)) more := by
  rw [p.nals_none h]
  exact groupFrom_body p off g more

theorem groupUnits_of_ne_aud (format : FrameFormat) {u : NalUnit} (h : u.type ≠ .aud)
    (units : List NalUnit) :
    groupUnits format (u :: units) = groupFrom format Group.empty (u :: units) := by
  rw [groupUnits, groupFrom, if_neg h, if_neg (by simp [Group.empty])]

/-- The first picture of a delivery cuts nothing. -/
theorem groupUnits_picture (off : Nat) (more : List NalUnit) :
    groupUnits c.format (unitsAt c off p.nals ++ more) =
      groupFrom c.format (Group.empty.absorb (unitsAt c off p.nals)) more := by
  cases ha : p.aud with
  | some a =>
    have h := groupFrom_picture_aud p (by simp [ha]) off Group.empty more
    have htype : (unitAt c off a).type = .aud :=
      (convertUnitType_aud c _).mpr (p.audTyped a (by rw [ha]; rfl))
    have hnals : unitsAt c off p.nals =
        unitAt c off a :: unitsAt c (off + a.bytes.length) p.body := by
      rw [p.nals_eq, ha]; rfl
    rw [hnals, List.cons_append, groupFrom, if_pos htype] at h
    rw [hnals, List.cons_append, groupUnits]
    exact (List.cons.inj h).2
  | none =>
    have h := groupFrom_picture p ha off Group.empty more
    rw [if_neg (by simp [Group.empty])] at h
    rw [← h]
    cases hpre : p.pre with
    | nil =>
      rw [p.nals_none ha, Picture.body, hpre]
      exact groupUnits_of_ne_aud _ (p.first_quiet off) _
    | cons u pre =>
      rw [p.nals_none ha, Picture.body, hpre]
      refine groupUnits_of_ne_aud _ ?_ _
      exact (p.pre_quiet off _ (by rw [hpre]; exact List.mem_cons_self)).1

end Picture

/-! ## The pictures of a delivery -/

/-- The units of the pictures `ps` from offset `off` on, picture by picture. -/
def pictureUnits (c : Codec) : Nat → List (Picture c) → List (List NalUnit)
  | _, [] => []
  | off, p :: ps => unitsAt c off p.nals :: pictureUnits c (off + (wire p.nals).length) ps

/-- The coded units of the pictures `ps`. -/
def picturesNals {c : Codec} (ps : List (Picture c)) : List CodedNal := ps.flatMap Picture.nals

@[simp] theorem picturesNals_cons {c : Codec} (p : Picture c) (ps : List (Picture c)) :
    picturesNals (p :: ps) = p.nals ++ picturesNals ps := rfl

theorem unitsAt_pictures_cons {c : Codec} (off : Nat) (p : Picture c) (ps : List (Picture c)) :
    unitsAt c off (picturesNals (p :: ps)) =
      unitsAt c off p.nals ++ unitsAt c (off + (wire p.nals).length) (picturesNals ps) := by
  rw [picturesNals_cons, unitsAt_append]

theorem Picture.nals_snoc {c : Codec} (p : Picture c) : ∃ us, p.nals = us ++ [p.last] := by
  refine ⟨p.aud.toList ++ (p.pre ++ (p.first :: p.rest).dropLast), ?_⟩
  rw [Picture.nals, Picture.last, List.append_assoc, List.append_assoc,
    List.dropLast_append_getLast]

theorem Picture.unitsAt_snoc {c : Codec} (p : Picture c) (off : Nat) :
    ∃ us at', unitsAt c off p.nals = us ++ [unitAt c at' p.last] := by
  obtain ⟨us, hus⟩ := p.nals_snoc
  rw [hus, unitsAt_append]
  exact ⟨_, _, rfl⟩

/-- The last VCL unit is one. -/
theorem Picture.last_vcl {c : Codec} (p : Picture c) : isVcl c (codedType c p.last) = true := by
  rcases List.mem_cons.mp (List.getLast_mem (l := p.first :: p.rest) (by simp)) with h | h
  · rw [Picture.last, h]; exact p.firstVcl
  · exact (p.restVcl _ h).1

/-- Between `p` and `q` the cut falls behind `p` and in front of `q`. -/
def Boundary {c : Codec} (p q : Picture c) : Prop :=
  q.aud.isSome = true ∨ (recognised c q.first = true ∧ recognised c p.last = true)

instance {c : Codec} (p q : Picture c) : Decidable (Boundary p q) :=
  inferInstanceAs (Decidable (_ ∨ _))

theorem groupFrom_of_chain {c : Codec} (ps : List (Picture c)) :
    ∀ (p : Picture c) (off off' : Nat), (p :: ps).IsChain Boundary →
      groupFrom c.format (Group.empty.absorb (unitsAt c off p.nals))
          (unitsAt c off' (picturesNals ps)) =
        unitsAt c off p.nals :: pictureUnits c off' ps := by
  induction ps with
  | nil =>
    intro p off off' _
    simp only [picturesNals, List.flatMap_nil, unitsAt, groupFrom, pictureUnits,
      Group.units_absorb]
    rfl
  | cons q qs ih =>
    intro p off off' hchain
    obtain ⟨hb, hrest⟩ := List.isChain_cons_cons.mp hchain
    have hunits : (Group.empty.absorb (unitsAt c off p.nals)).units = unitsAt c off p.nals := by
      rw [Group.units_absorb]; rfl
    rw [unitsAt_pictures_cons]
    cases haud : q.aud with
    | some a =>
      rw [groupFrom_picture_aud q (by simp [haud]), hunits, ih q _ _ hrest, pictureUnits]
    | none =>
      have hrec : recognised c q.first = true ∧ recognised c p.last = true := by
        rcases hb with hb | hb
        · rw [haud] at hb; cases hb
        · exact hb
      obtain ⟨us, at', hsnoc⟩ := p.unitsAt_snoc off
      -- the last unit of `p` is a slice, so nothing of `p` is pending
      have hrun : (Group.empty.absorb (unitsAt c off p.nals)).run = [] := by
        rw [hsnoc]; exact Group.run_absorb_snoc _ _ hrec.2
      have hslice : (Group.empty.absorb (unitsAt c off p.nals)).hasSlice = true := by
        have hlast : nalIsSlice (unitAt c at' p.last).type = true := hrec.2
        rw [Group.hasSlice_absorb, hsnoc]
        simp [hasSlice, hlast]
      have hcur : (Group.empty.absorb (unitsAt c off p.nals)).cur = unitsAt c off p.nals := by
        rw [Group.units, hrun, List.append_nil] at hunits
        exact hunits
      rw [groupFrom_picture q haud, if_pos ⟨hrec.1, hslice⟩, hcur, hrun, pictureUnits]
      exact congrArg _ (ih q _ _ hrest)

/-- A picture cuts at most once. -/
theorem length_groupFrom_le {c : Codec} (ps : List (Picture c)) :
    ∀ (off : Nat) (g : Group),
      (groupFrom c.format g (unitsAt c off (picturesNals ps))).length ≤ ps.length + 1 := by
  induction ps with
  | nil => intro off g; simp [picturesNals, unitsAt, groupFrom]
  | cons q qs ih =>
    intro off g
    rw [unitsAt_pictures_cons]
    cases haud : q.aud with
    | some a =>
      rw [groupFrom_picture_aud q (by simp [haud]), List.length_cons, List.length_cons]
      exact Nat.succ_le_succ (ih _ _)
    | none =>
      rw [groupFrom_picture q haud]
      split_ifs with hcut
      · rw [List.length_cons, List.length_cons]
        exact Nat.succ_le_succ (ih _ _)
      · rw [List.length_cons]
        exact Nat.le_succ_of_le (ih _ _)

/-- If `au` ends in a recognised slice, so does `p`. -/
def EndsLike {c : Codec} (p : Picture c) (au : List NalUnit) : Prop :=
  ∀ x v, au = x ++ [v] → nalIsSlice v.type = true → recognised c p.last = true

/-- With one access unit for each picture that ends as the picture does, every boundary is right. -/
theorem chain_of_groupFrom {c : Codec} (ps : List (Picture c)) :
    ∀ (p : Picture c) (off : Nat) (g : Group), g.EndsInSlice →
      (groupFrom c.format g (unitsAt c off (picturesNals ps))).length = ps.length + 1 →
      List.Forall₂ EndsLike (p :: ps) (groupFrom c.format g (unitsAt c off (picturesNals ps))) →
      (p :: ps).IsChain Boundary := by
  induction ps with
  | nil => intro p off g _ _ _; exact List.isChain_singleton p
  | cons q qs ih =>
    intro p off g hg hlen hends
    rw [unitsAt_pictures_cons] at hlen hends
    cases haud : q.aud with
    | some a =>
      have haud' : q.aud.isSome = true := by simp [haud]
      rw [groupFrom_picture_aud q haud'] at hlen hends
      obtain ⟨-, hrest⟩ := List.forall₂_cons.mp hends
      exact List.isChain_cons_cons.mpr ⟨Or.inl haud',
        ih q _ _ (Group.EndsInSlice.absorb (g := Group.empty) _ (Group.endsInSlice_fresh []))
          (by simpa using hlen) hrest⟩
    | none =>
      rw [groupFrom_picture q haud] at hlen hends
      split_ifs at hlen hends with hcut
      · obtain ⟨hp, hrest⟩ := List.forall₂_cons.mp hends
        obtain ⟨x, v, hcur, hv⟩ := hg hcut.2
        exact List.isChain_cons_cons.mpr ⟨Or.inr ⟨hcut.1, hp x v hcur hv⟩,
          ih q _ _ ((Group.endsInSlice_fresh _).absorb _) (by simpa using hlen) hrest⟩
      · have := length_groupFrom_le qs (off + (wire q.nals).length)
          (g.absorb (unitsAt c off q.nals))
        rw [hlen, List.length_cons] at this
        omega

end LibuvcH264Src
