import Mathlib.Data.List.TakeWhile
import LibuvcH264Src.Session

/-!
# Parameter sets in the output

* `Piece` : what a buffer is made of, an inserted set or a forwarded unit;
* `auPieces`, `piecesUpTo` : the pieces of the access units of a session (`session_pieces`);
* `Current k j` : the last set of kind `k` in the output is the last one accepted
  (`current_succ_of_inserted`, `current_succ`, `current_of_hasIdr`);
* `latest_set_behind_idr` : so it is, with its id, before every slice behind an IDR access unit, until another set
  with this id goes out;
* `set_lost` : sets of one kind with different ids share one slot.
-/

namespace LibuvcH264Src
open AnnexB

/-! ## Pieces -/

/-- A parameter set of the given kind, or a unit of the wire. -/
inductive Piece where
  | set (kind : NalUnitType) (bytes : List Byte)
  | unit (u : NalUnit)
  deriving DecidableEq

def Piece.bytes : Piece → List Byte
  | .set _ bytes => bytes
  | .unit u => u.data

/-- The kinds of sets a format has, in the order they are inserted. -/
def setKinds (format : FrameFormat) : List NalUnitType :=
  if format = .h265 then [.vps, .sps, .pps] else [.sps, .pps]

/-- The cache slot of a kind. -/
def cacheSlot (self : StreamState) : NalUnitType → List Byte
  | .vps => self.vps.bytes
  | .sps => self.sps.bytes
  | .pps => self.pps.bytes
  | _ => []

/-- The last accepted set of a kind, or the one that was cached before the session. -/
def latestSet (s0 : StreamState) (kind : NalUnitType) (units : List NalUnit) : List Byte :=
  lastAccepted kind (cacheSlot s0 kind) units

/-- The sets to insert after the units `units`, one by one. -/
def setPieces (s0 : StreamState) (units : List NalUnit) : List Piece :=
  (setKinds s0.frameFormat).filterMap fun kind =>
    if latestSet s0 kind units = [] then none else some (.set kind (latestSet s0 kind units))

/-- The forwarded units among `us`. -/
def unitPieces (us : List NalUnit) : List Piece :=
  (us.filter fun u => !nalIsParameterSet u.type).map .unit

/-- The pieces of access unit `j`. -/
def auPieces (s0 : StreamState) (aus : List (List NalUnit)) (j : Nat) : List Piece :=
  if dropped aus j then []
  else
    unitPieces ((aus.getD j []).takeWhile fun u => u.type ≠ .frameIdr) ++
      ((if insertedAt aus j then setPieces s0 (aus.take (j + 1)).flatten else []) ++
        unitPieces ((aus.getD j []).dropWhile fun u => u.type ≠ .frameIdr))

/-- The pieces of the access units before `j`. -/
def piecesUpTo (s0 : StreamState) (aus : List (List NalUnit)) (j : Nat) : List Piece :=
  (List.range j).flatMap (auPieces s0 aus)

/-- The sets of a kind among the pieces. -/
def setsOfKind (kind : NalUnitType) (pieces : List Piece) : List (List Byte) :=
  pieces.filterMap fun p =>
    match p with
    | .set k bytes => if k = kind then some bytes else none
    | .unit _ => none

@[simp] theorem setsOfKind_append (kind : NalUnitType) (ps qs : List Piece) :
    setsOfKind kind (ps ++ qs) = setsOfKind kind ps ++ setsOfKind kind qs :=
  List.filterMap_append

@[simp] theorem setsOfKind_unitPieces (kind : NalUnitType) (us : List NalUnit) :
    setsOfKind kind (unitPieces us) = [] := by
  simp [setsOfKind, unitPieces]

theorem setsOfKind_setPieces {s0 : StreamState} {kind : NalUnitType}
    (h : kind ∈ setKinds s0.frameFormat) (units : List NalUnit) :
    setsOfKind kind (setPieces s0 units) =
      if latestSet s0 kind units = [] then [] else [latestSet s0 kind units] := by
  have hsingle : ∀ kinds : List NalUnitType, kinds.Nodup → kind ∈ kinds →
      setsOfKind kind (kinds.filterMap fun k =>
        if latestSet s0 k units = [] then none else some (.set k (latestSet s0 k units))) =
        if latestSet s0 kind units = [] then [] else [latestSet s0 kind units] := by
    intro kinds hnodup hmem
    induction kinds with
    | nil => cases hmem
    | cons k kinds ih =>
      obtain ⟨hk, hrest⟩ := List.nodup_cons.mp hnodup
      have hother : ∀ ks : List NalUnitType, kind ∉ ks → setsOfKind kind (ks.filterMap fun k =>
          if latestSet s0 k units = [] then none else some (.set k (latestSet s0 k units))) = [] := by
        intro ks hks
        rw [setsOfKind, List.filterMap_eq_nil_iff]
        intro p hp
        obtain ⟨k', hk', hp⟩ := List.mem_filterMap.mp hp
        split_ifs at hp
        obtain rfl := Option.some.inj hp
        exact if_neg fun h : k' = kind => hks (h ▸ hk')
      rw [List.filterMap_cons]
      by_cases heq : k = kind
      · subst heq
        split_ifs with hnil
        · exact hother kinds hk
        · simp only [setsOfKind, List.filterMap_cons, if_true]
          exact congrArg _ (hother kinds hk)
      · have hmem' : kind ∈ kinds := by
          rcases List.mem_cons.mp hmem with h | h
          · exact absurd h.symm heq
          · exact h
        rw [← ih hrest hmem']
        split_ifs with hnil
        · rfl
        · simp [setsOfKind, heq]
  refine hsingle _ ?_ h
  unfold setKinds
  split_ifs <;> decide

theorem flatMap_bytes_unitPieces (us : List NalUnit) :
    (unitPieces us).flatMap Piece.bytes = forwarded us := by
  rw [unitPieces, List.flatMap_map]
  rfl

theorem flatMap_bytes_setPieces (s0 : StreamState) (units : List NalUnit) :
    (setPieces s0 units).flatMap Piece.bytes = expectedSets s0 units := by
  have hbytes : ∀ kinds : List NalUnitType, (kinds.filterMap fun kind =>
      if latestSet s0 kind units = [] then none
      else some (Piece.set kind (latestSet s0 kind units))).flatMap Piece.bytes =
        kinds.flatMap fun kind => latestSet s0 kind units := by
    intro kinds
    induction kinds with
    | nil => rfl
    | cons k kinds ih =>
      rw [List.filterMap_cons, List.flatMap_cons]
      split_ifs with hnil
      · rw [ih, hnil, List.nil_append]
      · rw [List.flatMap_cons, ih]; rfl
  rw [setPieces, hbytes, setKinds, expectedSets]
  split_ifs <;> simp [latestSet, cacheSlot]

theorem flatMap_bytes_auPieces (s0 : StreamState) {aus : List (List NalUnit)} {j : Nat}
    (h : dropped aus j = false) :
    (auPieces s0 aus j).flatMap Piece.bytes =
      assemble (if insertedAt aus j then expectedSets s0 (aus.take (j + 1)).flatten else [])
        (aus.getD j []) := by
  rw [auPieces, if_neg (by simp [h]), assemble]
  simp only [List.flatMap_append, flatMap_bytes_unitPieces, List.append_assoc]
  by_cases hi : insertedAt aus j = true
  · rw [if_pos hi, if_pos hi, flatMap_bytes_setPieces]
  · rw [if_neg hi, if_neg hi]
    rfl

/-- The buffers of a session are its pieces. -/
theorem session_pieces (c : Codec) (self : StreamState) (events : List SessionEvent) :
    (runSession (openSession c self) events).2.map GstBuffer.data =
      ((List.range (sessionAus (openSession c self) events).length).filterMap fun j =>
        if dropped (sessionAus (openSession c self) events) j then none
        else some ((auPieces (openSession c self)
          (sessionAus (openSession c self) events) j).flatMap Piece.bytes)).map
          (List.map some) := by
  rw [session_buffers]
  congr 1
  refine List.filterMap_congr fun j _ => ?_
  rw [expectedBuffer]
  by_cases hd : dropped (sessionAus (openSession c self) events) j = true
  · rw [if_pos hd, if_pos hd]
  · rw [if_neg hd, if_neg hd, flatMap_bytes_auPieces _ (by simpa using hd)]

/-! ## The latest set of a kind -/

section Latest
variable (s0 : StreamState) (aus : List (List NalUnit))

theorem piecesUpTo_succ (j : Nat) :
    piecesUpTo s0 aus (j + 1) = piecesUpTo s0 aus j ++ auPieces s0 aus j := by
  simp [piecesUpTo, List.range_succ]

/-- The last set of kind `kind` in the output before access unit `j` is the last one accepted. -/
def Current (kind : NalUnitType) (j : Nat) : Prop :=
  latestSet s0 kind (aus.take j).flatten ≠ [] →
    (setsOfKind kind (piecesUpTo s0 aus j)).getLast? =
      some (latestSet s0 kind (aus.take j).flatten)

theorem flatten_take_succ (j : Nat) :
    (aus.take (j + 1)).flatten = (aus.take j).flatten ++ aus.getD j [] := by
  by_cases hj : j < aus.length
  · rw [List.take_succ_eq_append_getElem hj, List.flatten_append, List.flatten_singleton,
      List.getD_eq_getElem?_getD, List.getElem?_eq_getElem hj]
    rfl
  · rw [List.take_of_length_le (by omega), List.take_of_length_le (by omega),
      List.getD_eq_getElem?_getD, List.getElem?_eq_none (by omega)]
    simp

/-- Without an accepted set of the kind the latest one stays. -/
theorem latestSet_take_succ {kind : NalUnitType} {j : Nat}
    (h : ∀ u ∈ aus.getD j [], u.type = kind → acceptsUnit u = false) :
    latestSet s0 kind (aus.take (j + 1)).flatten = latestSet s0 kind (aus.take j).flatten := by
  have hnone : (aus.getD j []).filter (fun u => u.type = kind ∧ acceptsUnit u) = [] := by
    rw [List.filter_eq_nil_iff]
    intro u hu hacc
    have hacc := of_decide_eq_true hacc
    rw [h u hu hacc.1] at hacc
    cases hacc.2
  rw [flatten_take_succ, latestSet, latestSet, lastAccepted_append, lastAccepted, hnone]
  rfl

/-- An insertion is never dropped. -/
theorem not_dropped_of_hasIdr {j : Nat} (h : hasIdr (aus.getD j []) = true) :
    dropped aus j = false := by
  have hany : (aus.take (j + 1)).any hasIdr = true := by
    rw [← sessionFlags_fst, sessionFlags_take_succ, flagsStep, h, Bool.or_true]
  rw [dropped, hany, Bool.not_true, Bool.false_or, List.all_eq_false]
  obtain ⟨u, hu, hi⟩ := List.any_eq_true.mp h
  exact ⟨u, hu, by rw [of_decide_eq_true hi]; decide⟩

theorem setsOfKind_auPieces_of_inserted {kind : NalUnitType} (hk : kind ∈ setKinds s0.frameFormat)
    {j : Nat} (h : insertedAt aus j = true) :
    setsOfKind kind (auPieces s0 aus j) =
      if latestSet s0 kind (aus.take (j + 1)).flatten = [] then []
      else [latestSet s0 kind (aus.take (j + 1)).flatten] := by
  have hd := not_dropped_of_hasIdr aus (Bool.and_eq_true_iff.mp h).1
  rw [auPieces, hd, if_neg (by simp), if_pos h, setsOfKind_append, setsOfKind_append,
    setsOfKind_unitPieces, setsOfKind_unitPieces, List.nil_append, List.append_nil,
    setsOfKind_setPieces hk]

theorem setsOfKind_auPieces_of_not_inserted (kind : NalUnitType) {j : Nat}
    (h : insertedAt aus j = false) : setsOfKind kind (auPieces s0 aus j) = [] := by
  rw [auPieces]
  split_ifs with hd hi
  · rfl
  · rw [h] at hi; cases hi
  · rw [setsOfKind_append, setsOfKind_append, setsOfKind_unitPieces, setsOfKind_unitPieces]
    rfl

/-- An insertion brings every kind up to date. -/
theorem current_succ_of_inserted {kind : NalUnitType} (hk : kind ∈ setKinds s0.frameFormat)
    {j : Nat} (h : insertedAt aus j = true) : Current s0 aus kind (j + 1) := by
  intro hne
  rw [piecesUpTo_succ, setsOfKind_append, setsOfKind_auPieces_of_inserted s0 aus hk h, if_neg hne]
  simp

/-- A kind stays up to date as long as none of it arrives. -/
theorem current_succ {kind : NalUnitType} (hk : kind ∈ setKinds s0.frameFormat) {j : Nat}
    (h : Current s0 aus kind j)
    (hnone : ∀ u ∈ aus.getD j [], u.type = kind → acceptsUnit u = false) :
    Current s0 aus kind (j + 1) := by
  cases hi : insertedAt aus j with
  | true => exact current_succ_of_inserted s0 aus hk hi
  | false =>
    intro hne
    rw [latestSet_take_succ s0 aus hnone] at hne ⊢
    rw [piecesUpTo_succ, setsOfKind_append, setsOfKind_auPieces_of_not_inserted s0 aus kind hi,
      List.append_nil]
    exact h hne

theorem not_acceptsUnit_of_not_acceptsSet {au : List NalUnit} (h : acceptsSet au = false)
    (u : NalUnit) (hu : u ∈ au) : acceptsUnit u = false := by
  simpa using List.any_eq_false.mp h u hu

/-- Behind the first IDR, either sets are due or every kind is up to date. -/
theorem pending_or_current {kind : NalUnitType} (hk : kind ∈ setKinds s0.frameFormat) (j : Nat)
    (h : (sessionFlags (aus.take j)).1 = true) :
    (sessionFlags (aus.take j)).2 = true ∨ Current s0 aus kind j := by
  induction j with
  | zero => cases h
  | succ j ih =>
    cases hi : insertedAt aus j with
    | true => exact Or.inr (current_succ_of_inserted s0 aus hk hi)
    | false =>
      have hi' : insertsAt (sessionFlags (aus.take j)) (aus.getD j []) = false := hi
      rw [sessionFlags_take_succ, flagsStep, hi'] at h ⊢
      cases hhad : (sessionFlags (aus.take j)).1 with
      | false =>
        rw [insertsAt, hhad, Bool.not_false, Bool.true_or, Bool.and_true] at hi'
        simp only [hhad, hi', Bool.or_self, Bool.false_eq_true] at h
      | true =>
        cases hacc : acceptsSet (aus.getD j []) with
        | true => exact Or.inl (by simp)
        | false =>
          rcases ih hhad with hp | hc
          · exact Or.inl (by simp [hp])
          · exact Or.inr (current_succ s0 aus hk hc fun u hu _ =>
              not_acceptsUnit_of_not_acceptsSet hacc u hu)

/-- An IDR access unit without an insertion has nothing to insert. -/
theorem quiet_of_not_inserted {j : Nat} (hidr : hasIdr (aus.getD j []) = true)
    (h : insertedAt aus j = false) :
    (sessionFlags (aus.take j)).1 = true ∧ (sessionFlags (aus.take j)).2 = false ∧
      acceptsSet (aus.getD j []) = false := by
  rw [insertedAt, insertsAt, hidr, Bool.true_and] at h
  simpa using h

/-- Behind an IDR access unit every kind is up to date. -/
theorem current_of_hasIdr {kind : NalUnitType} (hk : kind ∈ setKinds s0.frameFormat) {i : Nat}
    (h : hasIdr (aus.getD i []) = true) : Current s0 aus kind (i + 1) := by
  cases hi : insertedAt aus i with
  | true => exact current_succ_of_inserted s0 aus hk hi
  | false =>
    obtain ⟨hhad, hpend, hacc⟩ := quiet_of_not_inserted aus h hi
    rcases pending_or_current s0 aus hk i hhad with hp | hc
    · rw [hpend] at hp; cases hp
    · exact current_succ s0 aus hk hc fun u hu _ => not_acceptsUnit_of_not_acceptsSet hacc u hu

/-- The latest set behind access unit `m` is the one behind `i`, or arrived in between. -/
theorem latestSet_between (kind : NalUnitType) {i m : Nat} (h : i ≤ m) :
    latestSet s0 kind (aus.take (m + 1)).flatten = latestSet s0 kind (aus.take (i + 1)).flatten ∨
      ∃ l, i < l ∧ l ≤ m ∧ ∃ w ∈ aus.getD l [], w.type = kind ∧ acceptsUnit w = true ∧
        w.data = latestSet s0 kind (aus.take (m + 1)).flatten := by
  induction m, h using Nat.le_induction with
  | base => exact Or.inl rfl
  | succ m hm ih =>
    have hnext : latestSet s0 kind (aus.take (m + 1 + 1)).flatten =
        lastAccepted kind (latestSet s0 kind (aus.take (m + 1)).flatten) (aus.getD (m + 1) []) := by
      rw [flatten_take_succ, latestSet, lastAccepted_append]
      rfl
    rw [hnext]
    rcases lastAccepted_cases kind (latestSet s0 kind (aus.take (m + 1)).flatten) (aus.getD (m + 1) []) with
      ⟨hsame, -⟩ | ⟨w, hw, htype, haccepted, hdata⟩
    · rw [hsame]
      rcases ih with hold | ⟨l, hl, hle, w, hw, htype, haccepted, hdata⟩
      · exact Or.inl hold
      · exact Or.inr ⟨l, hl, by omega, w, hw, htype, haccepted, hdata⟩
    · exact Or.inr ⟨m + 1, by omega, le_refl _, w, hw, htype, haccepted, hdata⟩

/-- What an access unit adds to the sets is the latest one of the kind, and there is an IDR slice behind it. -/
theorem mem_setsOfKind_auPieces {kind : NalUnitType} (hk : kind ∈ setKinds s0.frameFormat) {j : Nat} {b : List Byte}
    (h : b ∈ setsOfKind kind (auPieces s0 aus j)) :
    hasIdr (aus.getD j []) = true ∧ b = latestSet s0 kind (aus.take (j + 1)).flatten := by
  cases hi : insertedAt aus j with
  | false =>
    rw [setsOfKind_auPieces_of_not_inserted s0 aus kind hi] at h
    exact absurd h List.not_mem_nil
  | true =>
    refine ⟨(Bool.and_eq_true_iff.mp hi).1, ?_⟩
    rw [setsOfKind_auPieces_of_inserted s0 aus hk hi] at h
    split_ifs at h
    · exact absurd h List.not_mem_nil
    · exact List.mem_singleton.mp h

/-- In front of a unit at or behind the first IDR slice, the sets of an access unit are out. -/
theorem setsOfKind_before_unit (kind : NalUnitType) {j : Nat}
    {x y : List Piece} {u : NalUnit} (hsplit : auPieces s0 aus j = x ++ .unit u :: y)
    (hidr : ∃ w, Piece.unit w ∈ x ++ [.unit u] ∧ w.type = .frameIdr) :
    setsOfKind kind x = setsOfKind kind (auPieces s0 aus j) := by
  have hd : ¬ dropped aus j = true := fun hd => by
    rw [auPieces, if_pos hd] at hsplit
    simp at hsplit
  obtain ⟨w, hw, hidr⟩ := hidr
  -- no unit in front of the sets is an IDR slice
  have hfront : ∀ sets, (sets = setPieces s0 (aus.take (j + 1)).flatten ∨ sets = []) →
      Piece.unit w ∉ unitPieces ((aus.getD j []).takeWhile fun u => u.type ≠ .frameIdr) ++ sets := by
    intro sets hsets hmem
    rcases List.mem_append.mp hmem with h | h
    · obtain ⟨v, hv, heq⟩ := List.mem_map.mp h
      obtain rfl : v = w := by simpa using heq
      have hne := List.mem_takeWhile_imp (List.mem_filter.mp hv).1
      rw [hidr] at hne
      cases hne
    · rcases hsets with rfl | rfl
      · obtain ⟨k, -, hk⟩ := List.mem_filterMap.mp h
        split_ifs at hk
        simp at hk
      · cases h
  rw [auPieces, if_neg hd, ← List.append_assoc] at hsplit
  generalize hsets : (if insertedAt aus j then setPieces s0 (aus.take (j + 1)).flatten else []) =
    sets at hsplit
  have hfront' := hfront sets (by rw [← hsets]; split_ifs <;> simp)
  have hrest : ∀ z us, unitPieces us = z ++ .unit u :: y → setsOfKind kind z = [] := by
    intro z us hz
    have := congrArg (setsOfKind kind) hz
    rw [setsOfKind_unitPieces, setsOfKind_append] at this
    exact (List.append_eq_nil_iff.mp this.symm).1
  rcases List.append_eq_append_iff.mp hsplit with ⟨z, hx, hz⟩ | ⟨z, hx, hz⟩
  · rw [auPieces, if_neg hd, ← List.append_assoc, hsets, hx, setsOfKind_append _ _ z, hrest z _ hz,
      setsOfKind_append _ _ (unitPieces _), setsOfKind_unitPieces]
  · cases z with
    | nil =>
      rw [List.append_nil] at hx
      rw [auPieces, if_neg hd, ← List.append_assoc, hsets, setsOfKind_append _ (_ ++ sets), ← hx,
        setsOfKind_unitPieces, List.append_nil]
    | cons p z =>
      obtain ⟨rfl, -⟩ : Piece.unit u = p ∧ _ := by simpa using hz
      refine absurd ?_ hfront'
      rw [hx]
      rcases List.mem_append.mp hw with h | h
      · exact List.mem_append_left _ h
      · rw [List.mem_singleton.mp h]; simp

/-- In front of the first IDR slice no set is out. -/
theorem setsOfKind_before_idr (kind : NalUnitType) {j : Nat} {x y : List Piece} {u : NalUnit}
    (hsplit : auPieces s0 aus j = x ++ .unit u :: y)
    (hnone : ∀ w, Piece.unit w ∈ x ++ [.unit u] → w.type ≠ .frameIdr) : setsOfKind kind x = [] := by
  have hall := congrArg (setsOfKind kind) hsplit
  rw [setsOfKind_append] at hall
  cases hi : insertedAt aus j with
  | false =>
    rw [setsOfKind_auPieces_of_not_inserted s0 aus kind hi] at hall
    exact (List.append_eq_nil_iff.mp hall.symm).1
  | true =>
    have hidr := (Bool.and_eq_true_iff.mp hi).1
    have hd := not_dropped_of_hasIdr aus hidr
    obtain ⟨w, tail, hdrop, hw⟩ : ∃ w tail,
        (aus.getD j []).dropWhile (fun u => u.type ≠ .frameIdr) = w :: tail ∧ w.type = .frameIdr := by
      obtain ⟨v, hv, hvidr⟩ := List.any_eq_true.mp hidr
      cases hdrop : (aus.getD j []).dropWhile fun u => u.type ≠ .frameIdr with
      | nil =>
        have hne := List.dropWhile_eq_nil_iff.mp hdrop v hv
        exact absurd (of_decide_eq_true hvidr) (of_decide_eq_true hne)
      | cons w tail =>
        have hhead := List.head?_dropWhile_not (fun u : NalUnit => decide (u.type ≠ .frameIdr)) (aus.getD j [])
        rw [hdrop] at hhead
        exact ⟨w, tail, rfl, by simpa using hhead⟩
    have hfirst : unitPieces (w :: tail) = .unit w :: unitPieces tail := by
      rw [unitPieces, List.filter_cons_of_pos (by rw [hw]; decide)]
      rfl
    rw [auPieces, hd, if_neg (by simp), if_pos hi, hdrop, hfirst, ← List.append_assoc] at hsplit
    -- the unit is the IDR slice, or behind it, or in front of the sets
    rcases List.append_eq_append_iff.mp hsplit with ⟨z, hx, hz⟩ | ⟨z, hx, hz⟩
    · refine absurd hw (hnone w ?_)
      rw [hx]
      cases z with
      | nil =>
        obtain ⟨rfl, -⟩ : w = u ∧ _ := by simpa using hz
        simp
      | cons p z =>
        obtain ⟨rfl, -⟩ : Piece.unit w = p ∧ _ := by simpa using hz
        simp
    · cases z with
      | nil =>
        obtain ⟨rfl, -⟩ : u = w ∧ _ := by simpa using hz
        exact absurd hw (hnone u (by simp))
      | cons p z =>
        obtain ⟨rfl, -⟩ : Piece.unit u = p ∧ _ := by simpa using hz
        rcases List.append_eq_append_iff.mp hx with ⟨z', -, hsets⟩ | ⟨z', hfront, -⟩
        · have hmem : Piece.unit u ∈ setPieces s0 (aus.take (j + 1)).flatten := by
            rw [hsets]
            simp
          obtain ⟨k, -, hk⟩ := List.mem_filterMap.mp hmem
          split_ifs at hk
          simp at hk
        · have hsets := congrArg (setsOfKind kind) hfront
          rw [setsOfKind_unitPieces, setsOfKind_append] at hsets
          exact (List.append_eq_nil_iff.mp hsets.symm).1

end Latest

/-- The latest set with the id `id`. -/
def latestWithId (ident : List Byte → Nat) (id : Nat) (sets : List (List Byte)) :
    Option (List Byte) :=
  (sets.filter fun b => ident b = id).getLast?

theorem latestWithId_of_getLast? {sets : List (List Byte)} {b : List Byte}
    (h : sets.getLast? = some b) (ident : List Byte → Nat) :
    latestWithId ident (ident b) sets = some b := by
  obtain ⟨init, rfl⟩ := List.getLast?_eq_some_iff.mp h
  simp [latestWithId]

/-- It stays the latest one behind sets with other ids, and behind its own bytes. -/
theorem latestWithId_append {ident : List Byte → Nat} {b : List Byte} {sets sets' : List (List Byte)}
    (h : latestWithId ident (ident b) sets = some b) (h' : ∀ b' ∈ sets', ident b' = ident b → b' = b) :
    latestWithId ident (ident b) (sets ++ sets') = some b := by
  unfold latestWithId at h ⊢
  rw [List.filter_append, List.getLast?_append, h]
  cases hlast : (sets'.filter fun b' => ident b' = ident b).getLast? with
  | none => rfl
  | some b' =>
    obtain ⟨hmem, hsame⟩ := List.mem_filter.mp (List.mem_of_getLast? hlast)
    rw [h' b' hmem (of_decide_eq_true hsame)]
    rfl

/-- **The sets behind an IDR**: the buffers of a session are its pieces, and among these, before every unit from the
first IDR slice of access unit `i` on, the last set of a kind that was accepted up to the end of `i` is the latest one
of its kind and id, until another one with this id goes out: until one is accepted by the end of an IDR access unit
whose first IDR slice is at or before the unit. -/
theorem latest_set_behind_idr (c : Codec) (self : StreamState) (events : List SessionEvent)
    (ident : List Byte → Nat) :
    let s0 := openSession c self
    let aus := sessionAus s0 events
    (runSession s0 events).2.map GstBuffer.data =
        ((List.range aus.length).filterMap fun j =>
          if dropped aus j then none else some ((auPieces s0 aus j).flatMap Piece.bytes)).map
            (List.map some) ∧
      ∀ kind ∈ setKinds c.format, ∀ i j, i ≤ j → hasIdr (aus.getD i []) = true →
        ∀ x u y, auPieces s0 aus j = x ++ .unit u :: y →
          (i = j → ∃ w, Piece.unit w ∈ x ++ [.unit u] ∧ w.type = .frameIdr) →
          ∀ v, ((aus.take (i + 1)).flatten.filter fun w =>
              w.type = kind ∧ acceptsUnit w).getLast? = some v →
            (∀ l m, i < l → l ≤ m → m ≤ j → hasIdr (aus.getD m []) = true →
              (m = j → ∃ w, Piece.unit w ∈ x ++ [.unit u] ∧ w.type = .frameIdr) →
              ∀ w ∈ aus.getD l [], w.type = kind → acceptsUnit w = true → ident w.data = ident v.data →
                w.data = v.data) →
            latestWithId ident (ident v.data) (setsOfKind kind (piecesUpTo s0 aus j ++ x)) =
              some v.data := by
  intro s0 aus
  refine ⟨session_pieces c self events, ?_⟩
  intro kind hkind i j hij hidr x u y hsplit hsame v hv hlater
  have hk : kind ∈ setKinds s0.frameFormat := hkind
  have hlatest : latestSet s0 kind (aus.take (i + 1)).flatten = v.data := by
    rw [latestSet, lastAccepted, hv]; rfl
  have hne : latestSet s0 kind (aus.take (i + 1)).flatten ≠ [] := by
    have hacc := of_decide_eq_true (List.mem_filter.mp (List.mem_of_getLast? hv)).2
    rw [hlatest]
    intro hnil
    simp [acceptsUnit, NalUnit.len, hnil] at hacc
  have hcurrent := current_of_hasIdr s0 aus hk hidr hne
  rw [hlatest] at hcurrent
  rw [setsOfKind_append]
  -- what goes out in access unit `m`, in front of the unit, has another id or the same bytes
  have hinserted : ∀ m, i < m → m ≤ j → (m = j → ∃ w, Piece.unit w ∈ x ++ [.unit u] ∧ w.type = .frameIdr) →
      ∀ b ∈ setsOfKind kind (auPieces s0 aus m), ident b = ident v.data → b = v.data := by
    intro m him hmj hfront b hb hident
    obtain ⟨hidr', hb⟩ := mem_setsOfKind_auPieces s0 aus hk hb
    rcases latestSet_between s0 aus kind (Nat.le_of_lt him) with hold | ⟨l, hl, hle, w, hw, htype, haccepted, hdata⟩
    · rw [hb, hold, hlatest]
    · rw [hb, ← hdata] at hident ⊢
      exact hlater l m hl hle hmj hidr' hfront w hw htype haccepted hident
  have hbefore : ∀ m, i < m → m ≤ j →
      latestWithId ident (ident v.data) (setsOfKind kind (piecesUpTo s0 aus m)) = some v.data := by
    intro m him
    induction m, him using Nat.le_induction with
    | base => exact fun _ => latestWithId_of_getLast? hcurrent ident
    | succ m him ih =>
      intro hmj
      rw [piecesUpTo_succ, setsOfKind_append]
      exact latestWithId_append (ih (by omega)) (hinserted m him (by omega) fun hm => absurd hm (by omega))
  rcases Nat.eq_or_lt_of_le hij with rfl | hless
  · -- the unit lies in the IDR access unit itself, behind whatever was inserted
    rw [setsOfKind_before_unit s0 aus kind hsplit (hsame rfl), ← setsOfKind_append, ← piecesUpTo_succ]
    exact latestWithId_of_getLast? hcurrent ident
  · by_cases hfront : ∃ w, Piece.unit w ∈ x ++ [.unit u] ∧ w.type = .frameIdr
    · rw [setsOfKind_before_unit s0 aus kind hsplit hfront]
      exact latestWithId_append (hbefore j hless (le_refl j)) (hinserted j hless (le_refl j) fun _ => hfront)
    · have hnone : setsOfKind kind x = [] :=
        setsOfKind_before_idr s0 aus kind hsplit fun w hw htype => hfront ⟨w, hw, htype⟩
      rw [hnone, List.append_nil]
      exact hbefore j hless (le_refl j)

/-- An SPS, a PPS with id 1 and an IDR slice; then a PPS with id 2 and another IDR slice. -/
def secondPps : List CodedNal :=
  [(.long, ⟨[0x68, 0x02], by decide, by decide, by decide⟩),
    (.long, ⟨[0x65, 0x88], by decide, by decide, by decide⟩)]

def secondPpsEvents : List SessionEvent :=
  [.setClock true,
    .delivery ⟨10, 0⟩ (some (wire ((.long, ⟨[0x67, 0x42], by decide, by decide, by decide⟩) ::
      (.long, ⟨[0x68, 0x01], by decide, by decide, by decide⟩) :: secondPps.tail))),
    .delivery ⟨20, 0⟩ (some (wire secondPps))]

/-- The PPS with id 1 is still there at the second slice. -/
theorem latest_set_behind_idr_two :
    latestWithId (fun b => (b.getLastD 0).toNat) 1
      (setsOfKind .pps (piecesUpTo (openSession .h264 .init)
          (sessionAus (openSession .h264 .init) secondPpsEvents) 1 ++
        [.set .sps [0, 0, 0, 1, 0x67, 0x42], .set .pps [0, 0, 0, 1, 0x68, 0x02]])) =
      some [0, 0, 0, 1, 0x68, 0x01] := by
  refine (latest_set_behind_idr .h264 .init secondPpsEvents fun b => (b.getLastD 0).toNat).2 .pps (by decide) 0 1
    (by decide) (by decide) _ ⟨.frameIdr, 6, [0, 0, 0, 1, 0x65, 0x88]⟩ [] (by decide) (fun h => absurd h (by decide))
    ⟨.pps, 6, [0, 0, 0, 1, 0x68, 0x01]⟩ (by decide) ?_
  intro l m hl hle hm
  obtain rfl : l = 1 := by omega
  intro _ _ w hw htype _ hident
  revert w
  decide

/-! ## What is lost -/

/-- A session that gets an SPS, two PPS with different ids and an IDR slice. -/
def twoPps : List CodedNal :=
  [(.long, ⟨[0x67, 0x42], by decide, by decide, by decide⟩),
    (.long, ⟨[0x68, 0x01], by decide, by decide, by decide⟩),
    (.long, ⟨[0x68, 0x02], by decide, by decide, by decide⟩),
    (.long, ⟨[0x65, 0x88], by decide, by decide, by decide⟩)]

def twoPpsEvents : List SessionEvent := [.setClock true, .delivery ⟨10, 0⟩ (some (wire twoPps))]

/-- The PPS with id 1 precedes the slice and is not replaced, but is not in the output. -/
theorem set_lost :
    ¬ ∀ (c : Codec) (self : StreamState) (events : List SessionEvent) (ident : List Byte → Nat)
      (kind : NalUnitType) (j : Nat) (before after : List NalUnit) (u : NalUnit)
      (x y : List Piece) (v : NalUnit),
      let s0 := openSession c self
      let aus := sessionAus s0 events
      kind ∈ setKinds c.format → aus.getD j [] = before ++ u :: after → nalIsSlice u.type = true →
        auPieces s0 aus j = x ++ .unit u :: y → v.len ≤ spsppsBufSz →
        (((aus.take j).flatten ++ before).filter fun w =>
          w.type = kind ∧ ident w.data = ident v.data).getLast? = some v →
        latestWithId ident (ident v.data) (setsOfKind kind (piecesUpTo s0 aus j ++ x)) =
          some v.data := by
  intro h
  have hlost := h .h264 .init twoPpsEvents (fun b => (b.getLastD 0).toNat) .pps 0
    [⟨.sps, 0, [0, 0, 0, 1, 0x67, 0x42]⟩, ⟨.pps, 6, [0, 0, 0, 1, 0x68, 0x01]⟩,
      ⟨.pps, 12, [0, 0, 0, 1, 0x68, 0x02]⟩] [] ⟨.frameIdr, 18, [0, 0, 0, 1, 0x65, 0x88]⟩
    [.set .sps [0, 0, 0, 1, 0x67, 0x42], .set .pps [0, 0, 0, 1, 0x68, 0x02]] []
    ⟨.pps, 6, [0, 0, 0, 1, 0x68, 0x01]⟩ (by decide) (by decide) (by decide) (by decide) (by decide)
    (by decide)
  revert hlost
  decide

end LibuvcH264Src
