import LibuvcH264Src.Pictures

/-!
# `alignment=au`

* `Room ts prev n` : `n` access units of one arrival can be stamped without reaching the
  sentinel (`room_succ`);
* `HoldsPicture`, `Aligned` : what the output contract promises for the pictures of a delivery;
* `aligned_iff` : exactly when `frame_callback` keeps it;
* `not_aligned_h265` : an H.265 delivery for which it does not.
-/

namespace LibuvcH264Src
open AnnexB

/-! ## Stamps -/

/-- `n` stamps fit below the sentinel, from the running time and behind the last stamp. -/
def Room (ts prev : UInt64) (n : Nat) : Prop :=
  ts.toNat + n ≤ clockTimeNone.toNat ∧
    (prev ≠ clockTimeNone → prev.toNat + 1 + n ≤ clockTimeNone.toNat)

instance (ts prev : UInt64) (n : Nat) : Decidable (Room ts prev n) :=
  inferInstanceAs (Decidable (_ ∧ _))

theorem ne_clockTimeNone_iff (t : UInt64) : t ≠ clockTimeNone ↔ t.toNat < clockTimeNone.toNat := by
  have hle : t.toNat ≤ clockTimeNone.toNat := by
    have := t.toNat_lt
    have : clockTimeNone.toNat = 2 ^ 64 - 1 := rfl
    omega
  rw [Ne, ← UInt64.toNat_inj]
  omega

theorem room_zero (ts prev : UInt64) : Room ts prev 0 := by
  refine ⟨?_, fun h => (ne_clockTimeNone_iff prev).mp h⟩
  have := ts.toNat_lt
  have : clockTimeNone.toNat = 2 ^ 64 - 1 := rfl
  omega

theorem room_succ (ts prev : UInt64) (n : Nat) :
    Room ts prev (n + 1) ↔
      nextPts prev ts ≠ clockTimeNone ∧ Room ts (nextPts prev ts) n := by
  have hmax : clockTimeNone.toNat = 2 ^ 64 - 1 := rfl
  unfold nextPts Room
  by_cases hp : prev ≠ clockTimeNone ∧ ts ≤ prev
  · have hlt := (ne_clockTimeNone_iff prev).mp hp.1
    have hle := UInt64.le_iff_toNat_le.mp hp.2
    have hsucc : (prev + 1).toNat = prev.toNat + 1 := by
      rw [UInt64.toNat_add, UInt64.toNat_one]
      omega
    rw [if_pos hp, ne_clockTimeNone_iff, ne_clockTimeNone_iff, hsucc]
    omega
  · rw [if_neg hp, ne_clockTimeNone_iff, ne_clockTimeNone_iff]
    have hgt : prev.toNat < clockTimeNone.toNat → prev.toNat < ts.toNat := by
      intro hlt
      by_contra hle
      exact hp ⟨(ne_clockTimeNone_iff prev).mpr hlt, UInt64.le_iff_toNat_le.mpr (by omega)⟩
    omega

/-! ## One access unit behind the first IDR -/

/-- What a pushed buffer holds, whatever the state. -/
theorem auStep_data (ts : UInt64) (s : StreamState) (au : List NalUnit) :
    ∀ b ∈ (auStep ts s au).2,
      (∃ sets, (hasIdr au = true ∨ sets = []) ∧ b.data = (assemble sets au).map some) ∧
        (hasSlice au = false → b.pts = clockTimeNone) := by
  intro b hb
  simp only [auStep] at hb
  split_ifs at hb with hd
  · cases hb
  · obtain rfl := Option.some.inj hb
    refine ⟨⟨insertedSets (latchSets s false au).1 au, ?_, rfl⟩, fun hs => ?_⟩
    · cases hidr : hasIdr au with
      | true => exact Or.inl rfl
      | false => exact Or.inr (by simp [insertedSets, insertsSets, hidr])
    · rw [hs]; rfl

/-- Once an IDR was seen, an access unit with a slice is pushed and stamped. -/
theorem auStep_slice (ts : UInt64) {s : StreamState} {au : List NalUnit} (hi : s.hadIdr = true)
    (hs : hasSlice au = true) (hne : forwarded au ≠ []) :
    (auStep ts s au).1.hadIdr = true ∧ (auStep ts s au).1.prevPts = nextPts s.prevPts ts ∧
      ∃ b, (auStep ts s au).2 = some b ∧ b.pts = nextPts s.prevPts ts ∧
        b.data = (assemble (insertedSets (latchSets s false au).1 au) au).map some := by
  have hl := latchSets_latched au s false
  have hhad : (latchSets s false au).1.hadIdr = true := by rw [hl.rest]; exact hi
  have hprev : (latchSets s false au).1.prevPts = s.prevPts := by rw [hl.rest]
  have hd : ¬ dropsAu (latchSets s false au).1 au = true := by simp [dropsAu, hhad, hne]
  have hstamp : stampPts (afterFill (latchSets s false au).1 au) ts =
      ({ afterFill (latchSets s false au).1 au with prevPts := nextPts s.prevPts ts },
        nextPts s.prevPts ts) := by
    rw [← hprev]; rfl
  have hstep : auStep ts s au =
      let p := pushAu (afterFill (latchSets s false au).1 au) ts true
        ((assemble (insertedSets (latchSets s false au).1 au) au).map some)
      (p.1, some p.2) := by
    rw [auStep, hs]; exact if_neg hd
  rw [hstep]
  simp only [pushAu, if_true, hstamp]
  exact ⟨by simp [afterFill, hhad], trivial, _, rfl, rfl, rfl⟩

theorem auStep_cached (ts : UInt64) {s0 s : StreamState} {us : List NalUnit}
    (h : Cached s0 us s) (au : List NalUnit) :
    Cached s0 (us ++ au) (auStep ts s au).1 ∧
      cachedSets (latchSets s false au).1 = expectedSets s0 (us ++ au) := by
  have hc := h.latch (latchSets_latched au s false)
  refine ⟨?_, hc.cachedSets⟩
  simp only [auStep]
  split_ifs with hd
  · exact hc
  · obtain ⟨prev, offset, hpush⟩ := pushAu_self (afterFill (latchSets s false au).1 au) ts
      (hasSlice au) ((assemble (insertedSets (latchSets s false au).1 au) au).map some)
    rw [hpush]
    exact ⟨hc.format, hc.vps, hc.sps, hc.pps⟩

theorem auRun_data (ts : UInt64) (aus : List (List NalUnit)) :
    ∀ s, List.Forall₂ (fun au o => ∀ b ∈ o,
      (∃ sets, (hasIdr au = true ∨ sets = []) ∧ b.data = (assemble sets au).map some) ∧
        (hasSlice au = false → b.pts = clockTimeNone)) aus (auRun ts s aus) := by
  induction aus with
  | nil => intro s; exact List.Forall₂.nil
  | cons au aus ih => intro s; exact List.Forall₂.cons (auStep_data ts s au) (ih _)

/-- The stamps of access units with slices stay below the sentinel exactly when there is room. -/
theorem auRun_pts_iff (ts : UInt64) (aus : List (List NalUnit))
    (h : ∀ au ∈ aus, hasSlice au = true ∧ forwarded au ≠ []) :
    ∀ s : StreamState, s.hadIdr = true →
      ((∀ b ∈ (auRun ts s aus).reduceOption, b.pts ≠ clockTimeNone) ↔
        Room ts s.prevPts aus.length) := by
  induction aus with
  | nil => intro s _; simp [auRun, room_zero]
  | cons au aus ih =>
    intro s hi
    obtain ⟨hs, hne⟩ := h au (by simp)
    obtain ⟨hi', hprev, b, hb, hpts, -⟩ := auStep_slice ts hi hs hne
    rw [auRun, hb, List.reduceOption_cons_of_some, List.forall_mem_cons, hpts,
      ih (fun bu hbu => h bu (by simp [hbu])) _ hi', hprev, List.length_cons, room_succ]

/-! ## Pictures in buffers -/

theorem keptNal_eq (c : Codec) (off : Nat) (u : CodedNal) :
    keptNal c u = !nalIsParameterSet (unitAt c off u).type := rfl

theorem forwarded_unitsAt (c : Codec) (us : List CodedNal) :
    ∀ off, forwarded (unitsAt c off us) = wire (us.filter (keptNal c)) := by
  induction us with
  | nil => intro off; rfl
  | cons u us ih =>
    intro off
    cases hset : nalIsParameterSet (unitAt c off u).type with
    | true =>
      have hkept : ¬ keptNal c u = true := by rw [keptNal_eq c off, hset]; simp
      rw [unitsAt, forwarded_cons_set hset, ih, List.filter_cons_of_neg hkept]
    | false =>
      have hkept : keptNal c u = true := by rw [keptNal_eq c off, hset]; rfl
      rw [unitsAt, forwarded_cons hset, ih, List.filter_cons_of_pos hkept, wire_cons]
      rfl

/-- The sets go between two units, the second of which is the first IDR slice. -/
theorem assemble_unitsAt (c : Codec) (sets : List Byte) (us : List CodedNal) :
    ∀ off, hasIdr (unitsAt c off us) = true → ∃ pre post, pre ++ post = us.filter (keptNal c) ∧
      post ≠ [] ∧ assemble sets (unitsAt c off us) = wire pre ++ sets ++ wire post := by
  induction us with
  | nil => intro off h; cases h
  | cons u us ih =>
    intro off h
    rw [unitsAt] at h ⊢
    by_cases hi : (unitAt c off u).type = .frameIdr
    · have hset : nalIsParameterSet (unitAt c off u).type = false := by rw [hi]; rfl
      refine ⟨[], u :: us.filter (keptNal c), ?_, by simp, ?_⟩
      · rw [List.filter_cons_of_pos (by rw [keptNal_eq c off, hset]; rfl)]; rfl
      · rw [assemble_cons_idr _ hi, forwarded_unitsAt, wire_cons]; rfl
    · obtain ⟨pre, post, hsplit, hpost, hasm⟩ := ih _ (by simpa [hasIdr, hi] using h)
      cases hset : nalIsParameterSet (unitAt c off u).type with
      | true =>
        refine ⟨pre, post, ?_, hpost, ?_⟩
        · rw [hsplit, List.filter_cons_of_neg (by rw [keptNal_eq c off, hset]; simp)]
        · rw [assemble_cons_set _ hset, hasm]
      | false =>
        refine ⟨u :: pre, post, ?_, hpost, ?_⟩
        · rw [List.cons_append, hsplit, List.filter_cons_of_pos (by rw [keptNal_eq c off, hset]; rfl)]
        · rw [assemble_cons _ hset hi, hasm, wire_cons]
          simp [unitAt]

theorem assemble_snoc (sets : List Byte) (x : List NalUnit) {v : NalUnit}
    (hv : nalIsParameterSet v.type = false) (h : hasIdr (x ++ [v]) = true ∨ sets = []) :
    ∃ y, assemble sets (x ++ [v]) = y ++ v.data := by
  have hlast : ∀ z, forwarded (z ++ [v]) = forwarded z ++ v.data := by
    intro z
    rw [forwarded_append, forwarded_cons hv, forwarded_nil, List.append_nil]
  rcases h with h | rfl
  · induction x with
    | nil =>
      have hi : v.type = .frameIdr := by simpa [hasIdr] using h
      exact ⟨sets, by rw [List.nil_append, assemble_cons_idr _ hi]; simp⟩
    | cons u x ih =>
      rw [List.cons_append] at h ⊢
      by_cases hi : u.type = .frameIdr
      · exact ⟨sets ++ (u.data ++ forwarded x), by
          rw [assemble_cons_idr _ hi, hlast, List.append_assoc, List.append_assoc]⟩
      · obtain ⟨y, hy⟩ := ih (by simpa [hasIdr, hi] using h)
        cases hset : nalIsParameterSet u.type with
        | true => exact ⟨y, by rw [assemble_cons_set _ hset, hy]⟩
        | false => exact ⟨u.data ++ y, by rw [assemble_cons _ hset hi, hy, List.append_assoc]⟩
  · exact ⟨forwarded x, by rw [assemble_empty, hlast]⟩

/-- The bytes that can stand in front of an IDR slice of a delivery `nals`: none, or the sets cached
after some of its units. -/
def FromCache (c : Codec) (s0 : StreamState) (nals : List CodedNal) (sets : List Byte) : Prop :=
  sets = [] ∨ ∃ seen, seen <+: nals ∧ sets = expectedSets s0 (unitsAt c 0 seen)

/-- The buffer holds the units of the picture that are not parameter sets, in order, and nothing of
any other picture; and it has a time. -/
structure HoldsPicture (c : Codec) (s0 : StreamState) (nals : List CodedNal) (p : Picture c)
    (b : GstBuffer) : Prop where
  bytes : ∃ pre sets post, pre ++ post = p.kept ∧ post ≠ [] ∧ FromCache c s0 nals sets ∧
    b.data = (wire pre ++ sets ++ wire post).map some
  pts : b.pts ≠ clockTimeNone

/-- One buffer for each picture of the delivery, in order. -/
def Aligned (c : Codec) (s0 : StreamState) (ps : List (Picture c)) (pushed : List GstBuffer) :
    Prop :=
  List.Forall₂ (HoldsPicture c s0 (picturesNals ps)) ps pushed

/-- Some VCL unit of the picture is recognised. -/
def Picture.Recognised {c : Codec} (p : Picture c) : Prop :=
  ∃ u ∈ p.first :: p.rest, recognised c u = true

instance {c : Codec} (p : Picture c) : Decidable p.Recognised :=
  inferInstanceAs (Decidable (∃ u ∈ p.first :: p.rest, _))

theorem Picture.kept_snoc {c : Codec} (p : Picture c) : ∃ us, p.kept = us ++ [p.last] := by
  obtain ⟨us, hus⟩ := p.nals_snoc
  refine ⟨us.filter (keptNal c), ?_⟩
  rw [Picture.kept, hus, List.filter_append, List.filter_cons_of_pos
    (by rw [keptNal, not_parameterSet_of_isVcl p.last_vcl]; rfl), List.filter_nil]

theorem Picture.forwarded_ne_nil {c : Codec} (p : Picture c) (off : Nat) :
    forwarded (unitsAt c off p.nals) ≠ [] := by
  obtain ⟨us, hus⟩ := p.kept_snoc
  have h : forwarded (unitsAt c off p.nals) = wire p.kept := forwarded_unitsAt c p.nals off
  rw [h, hus, wire_append]
  intro hnil
  have := (List.append_eq_nil_iff.mp hnil).2
  simp only [wire_cons, wire_nil, List.append_nil, CodedNal.bytes, List.append_eq_nil_iff] at this
  exact p.last.2.nonempty this.2

theorem Picture.hasSlice_iff {c : Codec} (p : Picture c) (off : Nat) :
    hasSlice (unitsAt c off p.nals) = true ↔ p.Recognised := by
  constructor
  · intro h
    obtain ⟨v, hv, hs⟩ := List.any_eq_true.mp h
    obtain ⟨u, hu, at', rfl⟩ := mem_unitsAt hv
    have hvcl : isVcl c (codedType c u) = true := isVcl_of_slice hs
    rw [Picture.nals] at hu
    rcases List.mem_append.mp hu with hu | hu
    · exact absurd (p.audTyped u (by simpa using hu)) (ne_aud_of_isVcl hvcl)
    · rcases List.mem_append.mp hu with hu | hu
      · rw [(p.preTyped u hu).1] at hvcl
        cases hvcl
      · exact ⟨u, hu, hs⟩
  · rintro ⟨u, hu, hs⟩
    have hmem : ∀ (us : List CodedNal) (off : Nat), u ∈ us →
        ∃ at', unitAt c at' u ∈ unitsAt c off us := by
      intro us
      induction us with
      | nil => intro off h; cases h
      | cons w us ih =>
        intro off h
        rcases List.mem_cons.mp h with rfl | h
        · exact ⟨off, List.mem_cons_self⟩
        · obtain ⟨at', hat⟩ := ih (off + w.bytes.length) h
          exact ⟨at', List.mem_cons_of_mem _ hat⟩
    obtain ⟨at', hat⟩ := hmem p.nals off (by rw [Picture.nals]; simp [List.mem_cons.mp hu])
    exact List.any_eq_true.mpr ⟨_, hat, hs⟩

/-- A buffer that holds `p` ends as `p` does, whatever access unit it was made of. -/
theorem endsLike_of_holdsPicture {c : Codec} {s0 : StreamState} {nals : List CodedNal}
    {p : Picture c} {b : GstBuffer} (h : HoldsPicture c s0 nals p b) {au : List NalUnit}
    (hau : ∀ v ∈ au, ∃ u at', v = unitAt c at' u)
    (hdata : ∃ sets, (hasIdr au = true ∨ sets = []) ∧ b.data = (assemble sets au).map some) :
    EndsLike p au := by
  rintro x v rfl hv
  obtain ⟨u, at', rfl⟩ := hau v (by simp)
  obtain ⟨sets, hsets, hb⟩ := hdata
  obtain ⟨y, hy⟩ := assemble_snoc sets x (not_parameterSet_of_slice hv) hsets
  obtain ⟨pre, sets', post, hsplit, hpost, -, hb'⟩ := h.bytes
  obtain ⟨us, hus⟩ := p.kept_snoc
  -- the last unit of `post` is the last one of `p`
  have hlast : post = post.dropLast ++ [p.last] := by
    have hget := congrArg List.getLast? (hsplit.trans hus)
    rw [List.getLast?_append_of_ne_nil _ hpost, List.getLast?_concat,
      List.getLast?_eq_some_getLast hpost] at hget
    rw [← Option.some.inj hget, List.dropLast_append_getLast]
  have hbytes : y ++ u.bytes = wire pre ++ sets' ++ wire post.dropLast ++ p.last.bytes := by
    have heq := List.map_injective_iff.mpr (Option.some_injective _) (hb.symm.trans hb')
    rw [hy, hlast, wire_append, wire_cons, wire_nil, List.append_nil, ← List.append_assoc] at heq
    exact heq
  have hnal : u.2 = p.last.2 := Nal.ext (CodedNal.last_eq hbytes)
  have hrec : recognised c u = true := hv
  rwa [recognised, codedType, hnal] at hrec

/-! ## The pictures of a delivery -/

theorem mem_pictureUnits {c : Codec} {ps : List (Picture c)} {au : List NalUnit} :
    ∀ {off}, au ∈ pictureUnits c off ps → ∃ p ∈ ps, ∃ at', au = unitsAt c at' p.nals := by
  induction ps with
  | nil => intro off h; cases h
  | cons q qs ih =>
    intro off h
    rcases List.mem_cons.mp h with rfl | h
    · exact ⟨q, by simp, off, rfl⟩
    · obtain ⟨p, hp, at', rfl⟩ := ih h
      exact ⟨p, by simp [hp], at', rfl⟩

@[simp] theorem length_pictureUnits {c : Codec} (ps : List (Picture c)) :
    ∀ off, (pictureUnits c off ps).length = ps.length := by
  induction ps with
  | nil => intro off; rfl
  | cons p ps ih => intro off; rw [pictureUnits, List.length_cons, ih, List.length_cons]

/-- The access units of a delivery of pictures, from those of its first picture on. -/
theorem deliveryAccessUnits_pictures {c : Codec} (p : Picture c) (ps : List (Picture c)) :
    deliveryAccessUnits c.format (wire (picturesNals (p :: ps))) =
      groupFrom c.format (Group.empty.absorb (unitsAt c 0 p.nals))
        (unitsAt c (wire p.nals).length (picturesNals ps)) := by
  obtain ⟨hcount, hparse⟩ := annexB_round_trip_empty c (picturesNals (p :: ps))
  rw [deliveryAccessUnits_eq, deliveryUnits, hcount, hparse, unitsAt_pictures_cons, Nat.zero_add,
    groupUnits_picture]

theorem wire_pictures_ne_nil {c : Codec} (p : Picture c) (ps : List (Picture c)) :
    wire (picturesNals (p :: ps)) ≠ [] := by
  obtain ⟨us, hus⟩ := p.nals_snoc
  intro h
  rw [picturesNals_cons, hus, wire_append, wire_append, List.append_eq_nil_iff,
    List.append_eq_nil_iff] at h
  have := h.1.2
  simp only [wire_cons, wire_nil, List.append_nil, CodedNal.bytes, List.append_eq_nil_iff] at this
  exact p.last.2.nonempty this.2

/-- With an access unit for each picture, every one with a slice, and room for the stamps, the walk
pushes one buffer for each picture. -/
theorem auRun_pictures {c : Codec} (ts : UInt64) (s0 : StreamState) (nals : List CodedNal)
    (ps : List (Picture c)) :
    ∀ (done : List CodedNal) (s : StreamState), nals = done ++ picturesNals ps →
      s.hadIdr = true → Cached s0 (unitsAt c 0 done) s → (∀ p ∈ ps, p.Recognised) →
      Room ts s.prevPts ps.length →
      List.Forall₂ (HoldsPicture c s0 nals) ps
        (auRun ts s (pictureUnits c (wire done).length ps)).reduceOption := by
  induction ps with
  | nil => intro done s _ _ _ _ _; exact List.Forall₂.nil
  | cons p ps ih =>
    intro done s hnals hi hcache hrec hroom
    have hslice := (p.hasSlice_iff (wire done).length).mpr (hrec p (by simp))
    obtain ⟨hi', hprev, b, hb, hpts, hdata⟩ :=
      auStep_slice ts hi hslice (p.forwarded_ne_nil (wire done).length)
    obtain ⟨hcache', hsets⟩ := auStep_cached ts hcache (unitsAt c (wire done).length p.nals)
    have hunits : unitsAt c 0 done ++ unitsAt c (wire done).length p.nals =
        unitsAt c 0 (done ++ p.nals) := by rw [unitsAt_append, Nat.zero_add]
    obtain ⟨hne, hroom'⟩ := (room_succ _ _ _).mp (by simpa using hroom)
    rw [pictureUnits, auRun, hb, List.reduceOption_cons_of_some]
    refine List.Forall₂.cons ⟨?_, by rwa [hpts]⟩ ?_
    · rw [hdata]
      cases hins : insertsSets (latchSets s false (unitsAt c (wire done).length p.nals)).1
        (unitsAt c (wire done).length p.nals) with
      | true =>
        have hidr := (Bool.and_eq_true_iff.mp hins).1
        obtain ⟨pre, post, hsplit, hpost, hasm⟩ :=
          assemble_unitsAt c (expectedSets s0 (unitsAt c 0 (done ++ p.nals))) p.nals _ hidr
        refine ⟨pre, _, post, hsplit, hpost, Or.inr ⟨done ++ p.nals, ?_, rfl⟩, ?_⟩
        · rw [hnals, picturesNals_cons, ← List.append_assoc]
          exact List.prefix_append _ _
        · rw [insertedSets, hins, if_pos rfl, hsets, hunits, hasm]
      | false =>
        obtain ⟨us, hus⟩ := p.kept_snoc
        refine ⟨[], [], p.kept, rfl, by simp [hus], Or.inl rfl, ?_⟩
        rw [insertedSets, hins, if_neg (by simp), assemble_empty, forwarded_unitsAt]
        rfl
    · have hlen : (wire done).length + (wire p.nals).length = (wire (done ++ p.nals)).length := by
        rw [wire_append, List.length_append]
      rw [hlen]
      exact ih (done ++ p.nals) _ (by rw [hnals, picturesNals_cons, List.append_assoc]) hi'
        (by rw [← hunits]; exact hcache') (fun q hq => hrec q (by simp [hq])) (by rwa [hprev])

theorem forall₂_of_reduceOption {α β : Type} {R : α → Option β → Prop} {as : List α} :
    ∀ {os : List (Option β)}, List.Forall₂ R as os → os.reduceOption.length = os.length →
      List.Forall₂ (fun a b => R a (some b)) as os.reduceOption := by
  intro os h hlen
  have hsome := List.reduceOption_length_eq_iff.mp hlen
  induction h with
  | nil => exact List.Forall₂.nil
  | @cons a o as os hao _ ih =>
    obtain ⟨b, rfl⟩ := Option.isSome_iff_exists.mp (hsome o (by simp))
    rw [List.reduceOption_cons_of_some] at hlen ⊢
    exact List.Forall₂.cons hao (ih (by simpa using hlen) fun x hx => hsome x (by simp [hx]))

theorem forall₂_join {α β γ : Type} {R : α → γ → Prop} {S : β → γ → Prop} {T : α → β → Prop}
    {as : List α} {cs : List γ} (h : List.Forall₂ R as cs) :
    ∀ {bs : List β}, (∀ a, ∀ b ∈ bs, ∀ c, R a c → S b c → T a b) → List.Forall₂ S bs cs →
      List.Forall₂ T as bs := by
  induction h with
  | nil => intro bs _ h'; cases h'; exact List.Forall₂.nil
  | cons hac _ ih =>
    intro bs hT h'
    cases h' with
    | cons hbc hrest =>
      exact List.Forall₂.cons (hT _ _ (by simp) _ hac hbc)
        (ih (fun a b hb c => hT a b (by simp [hb]) c) hrest)

theorem unitsAt_mem_pictureUnits {c : Codec} {ps : List (Picture c)} {p : Picture c} (h : p ∈ ps) :
    ∀ off, ∃ at', unitsAt c at' p.nals ∈ pictureUnits c off ps := by
  induction ps with
  | nil => cases h
  | cons q qs ih =>
    intro off
    rcases List.mem_cons.mp h with rfl | h
    · exact ⟨off, List.mem_cons_self⟩
    · obtain ⟨at', hat⟩ := ih h (off + (wire q.nals).length)
      exact ⟨at', List.mem_cons_of_mem _ hat⟩

/-- The access units of a delivery of pictures are made of its coded units. -/
theorem mem_deliveryAccessUnits {c : Codec} {nals : List CodedNal} {au : List NalUnit}
    (hau : au ∈ deliveryAccessUnits c.format (wire nals)) {v : NalUnit} (hv : v ∈ au) :
    ∃ u at', v = unitAt c at' u := by
  have hmem : v ∈ deliveryUnits c.format (wire nals) := by
    rw [← flatten_deliveryAccessUnits]
    exact List.mem_flatten.mpr ⟨au, hau, hv⟩
  obtain ⟨hcount, hparse⟩ := annexB_round_trip_empty c nals
  rw [deliveryUnits, hcount, hparse] at hmem
  obtain ⟨u, -, at', rfl⟩ := mem_unitsAt hmem
  exact ⟨u, at', rfl⟩

/-- If the walk keeps the contract, the pictures are recognised and bounded, and there is room. -/
theorem conditions_of_aligned {c : Codec} {s0 s : StreamState} (hidr : s.hadIdr = true)
    (ts : UInt64) (p : Picture c) (ps : List (Picture c))
    (h : Aligned c s0 (p :: ps) (auRun ts s
      (deliveryAccessUnits c.format (wire (picturesNals (p :: ps))))).reduceOption) :
    (∀ q ∈ p :: ps, q.Recognised) ∧ (p :: ps).IsChain Boundary ∧
      Room ts s.prevPts (p :: ps).length := by
  have haus := deliveryAccessUnits_pictures p ps
  have hcoded : ∀ au ∈ deliveryAccessUnits c.format (wire (picturesNals (p :: ps))), ∀ v ∈ au,
      ∃ u at', v = unitAt c at' u := fun au hau v hv => mem_deliveryAccessUnits hau hv
  generalize deliveryAccessUnits c.format (wire (picturesNals (p :: ps))) = aus at h haus hcoded
  -- as many buffers as pictures, so as many access units, and none of them dropped
  have hbuffers := h.length_eq
  have hcuts := length_groupFrom_le ps (wire p.nals).length (Group.empty.absorb (unitsAt c 0 p.nals))
  have hkept := List.reduceOption_length_le (auRun ts s aus)
  rw [← haus] at hcuts
  rw [length_auRun] at hkept
  rw [List.length_cons] at hbuffers
  have hpairs := forall₂_of_reduceOption (auRun_data ts aus s) (by rw [length_auRun]; omega)
  have hpts := ((List.forall₂_and_left _ _).mp (h.flip.imp fun b q hq => ⟨hq.pts, hq⟩)).1
  have hends : List.Forall₂ (fun q au => hasSlice au = true ∧ EndsLike q au) (p :: ps) aus := by
    refine forall₂_join h (fun q au hau b hq hb => ⟨?_, ?_⟩) hpairs
    · by_contra hs
      exact hq.pts ((hb b rfl).2 (by simpa using hs))
    · exact endsLike_of_holdsPicture hq (hcoded au hau) (hb b rfl).1
  have hslices := ((List.forall₂_and_left _ _).mp hends.flip).1
  have hchain : (p :: ps).IsChain Boundary := by
    refine chain_of_groupFrom ps p (wire p.nals).length _
      (Group.EndsInSlice.absorb (g := Group.empty) _ (Group.endsInSlice_fresh []))
      (by rw [← haus]; omega) ?_
    rw [← haus]
    exact hends.imp fun q au hqa => hqa.2
  rw [groupFrom_of_chain ps p 0 _ hchain] at haus
  have hunits : aus = pictureUnits c 0 (p :: ps) := by rw [haus, pictureUnits, Nat.zero_add]
  subst hunits
  refine ⟨fun q hq => ?_, hchain, ?_⟩
  · obtain ⟨at', hat⟩ := unitsAt_mem_pictureUnits hq 0
    exact (q.hasSlice_iff at').mp (hslices _ hat)
  · rw [← length_pictureUnits (p :: ps) 0]
    refine (auRun_pts_iff ts _ (fun au hau => ⟨hslices au hau, ?_⟩) s hidr).mp hpts
    obtain ⟨q, -, at', rfl⟩ := mem_pictureUnits hau
    exact q.forwarded_ne_nil at'

/-- **The output contract**: behind the first IDR, the buffers of a delivery are its pictures exactly
when a clock is set, the delivery is not oversized, every picture has a recognised slice, every
picture without an AUD begins with one behind a picture that ends in one, and the stamps stay below
the sentinel. -/
theorem aligned_iff (c : Codec) (self : StreamState) (hformat : self.frameFormat = c.format)
    (hidr : self.hadIdr = true) (arrival : Arrival) (ps : List (Picture c)) (hne : ps ≠ []) :
    Aligned c self ps (frameCallback self arrival (some (wire (picturesNals ps)))).pushed ↔
      self.clock = true ∧ (wire (picturesNals ps)).length ≤ gMaxInt ∧ (∀ p ∈ ps, p.Recognised) ∧
        ps.IsChain Boundary ∧ Room (runningTime self arrival) self.prevPts ps.length := by
  obtain ⟨p, ps, rfl⟩ := List.exists_cons_of_ne_nil hne
  have hnil : ¬ Aligned c self (p :: ps) [] := fun h => by cases h
  cases hclock : self.clock with
  | false =>
    have hnone : (frameCallback self arrival (some (wire (picturesNals (p :: ps))))).pushed = [] := by
      simp only [frameCallback, snapshotClock, hclock]
      cases acceptsFrame (some (wire (picturesNals (p :: ps)))) <;> rfl
    rw [hnone]
    exact ⟨fun h => absurd h hnil, fun h => absurd h.1 (by simp)⟩
  | true =>
    by_cases hmax : (wire (picturesNals (p :: ps))).length ≤ gMaxInt
    · rw [frameCallback_pushed hclock arrival (wire_pictures_ne_nil p ps) hmax, hformat]
      have hlatch : (latchBaseTime self self.baseTime arrival.elementBaseTime).1.hadIdr = true ∧
          (latchBaseTime self self.baseTime arrival.elementBaseTime).1.prevPts = self.prevPts ∧
          Cached self [] (latchBaseTime self self.baseTime arrival.elementBaseTime).1 := by
        unfold latchBaseTime
        split_ifs
        · exact ⟨hidr, rfl, ⟨rfl, rfl, rfl, rfl⟩⟩
        · exact ⟨hidr, rfl, Cached.refl self⟩
      rw [← hlatch.2.1]
      constructor
      · intro h
        exact ⟨rfl, hmax, conditions_of_aligned hlatch.1 _ p ps h⟩
      · rintro ⟨-, -, hrec, hchain, hroom⟩
        rw [deliveryAccessUnits_pictures, groupFrom_of_chain ps p 0 _ hchain]
        have := auRun_pictures (runningTime self arrival) self (picturesNals (p :: ps)) (p :: ps) []
          _ rfl hlatch.1 hlatch.2.2 hrec hroom
        rwa [pictureUnits, wire_nil, List.length_nil, Nat.zero_add] at this
    · have hnone : (frameCallback self arrival (some (wire (picturesNals (p :: ps))))).pushed = [] := by
        have hreject : acceptsFrame (some (wire (picturesNals (p :: ps)))) = none :=
          if_pos (Or.inr (by omega))
        simp only [frameCallback, hreject]
      rw [hnone]
      exact ⟨fun h => absurd h hnil, fun h => absurd h.2.1 hmax⟩

/-- A playing stream behind its first IDR. -/
def playing (c : Codec) : StreamState :=
  { StreamState.init with frameFormat := c.format, clock := true, hadIdr := true }

/-- An H.264 picture of one non-IDR slice. -/
def sliceH264 : Picture .h264 where
  aud := none
  pre := []
  first := (.long, ⟨[0x41, 0x9A], by decide, by decide, by decide⟩)
  rest := []
  audTyped := by decide
  preTyped := by decide
  firstVcl := by decide
  firstOpens := by decide
  restVcl := by decide

/-- An H.265 picture of one `TRAIL_N` slice. -/
def trailN : Picture .h265 where
  aud := none
  pre := []
  first := (.long, ⟨[0x00, 0x01, 0x9A], by decide, by decide, by decide⟩)
  rest := []
  audTyped := by decide
  preTyped := by decide
  firstVcl := by decide
  firstOpens := by decide
  restVcl := by decide

theorem aligned_iff_slices :
    Aligned .h264 (playing .h264) [sliceH264, sliceH264]
        (frameCallback (playing .h264) ⟨10, 0⟩
          (some (wire (picturesNals [sliceH264, sliceH264])))).pushed ↔
      (playing .h264).clock = true ∧
        (wire (picturesNals [sliceH264, sliceH264])).length ≤ gMaxInt ∧
        (∀ p ∈ [sliceH264, sliceH264], p.Recognised) ∧
        [sliceH264, sliceH264].IsChain Boundary ∧
        Room (runningTime (playing .h264) ⟨10, 0⟩) (playing .h264).prevPts 2 :=
  aligned_iff .h264 (playing .h264) rfl rfl ⟨10, 0⟩ [sliceH264, sliceH264] (by simp)

/-- Two `TRAIL_N` pictures come out as one buffer. -/
theorem not_aligned_trailN :
    ¬ ∀ (c : Codec) (self : StreamState) (arrival : Arrival) (ps : List (Picture c)),
      self.frameFormat = c.format → self.hadIdr = true → self.clock = true → ps ≠ [] →
        (wire (picturesNals ps)).length ≤ gMaxInt →
        Room (runningTime self arrival) self.prevPts ps.length →
        Aligned c self ps (frameCallback self arrival (some (wire (picturesNals ps)))).pushed := by
  intro h
  have hlen := (h .h265 (playing .h265) ⟨10, 0⟩ [trailN, trailN] rfl rfl rfl (by simp) (by decide)
    (by decide)).length_eq
  have hone : (frameCallback (playing .h265) ⟨10, 0⟩
      (some (wire (picturesNals [trailN, trailN])))).pushed.length = 1 := by decide
  rw [hone] at hlen
  cases hlen

/-- In H.264 every VCL type is recognised, so that only the clock, the size and the stamps matter. -/
theorem boundaries_h264 (ps : List (Picture .h264)) :
    (∀ p ∈ ps, p.Recognised) ∧ ps.IsChain Boundary := by
  constructor
  · intro p _
    exact ⟨p.first, List.mem_cons_self, recognised_h264 p.firstVcl⟩
  · rw [List.isChain_iff_getElem]
    intro i hi
    exact Or.inr ⟨recognised_h264 (ps[i + 1]).firstVcl, recognised_h264 (ps[i]).last_vcl⟩

end LibuvcH264Src
