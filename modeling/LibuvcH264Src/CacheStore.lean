import LibuvcH264Src.CacheFile
import LibuvcH264Src.CachePath

/-!
# The cache files as a store

* `Represents`, `Represents.update` : a map over keys that is kept in a map over places;
* `getSpsppsPath_eq` : the path of a key, whatever the buffers held;
* `fileCall` : a load or a store on the files, `slotCall` : on a map from keys to bytes;
* `cache_store_refines` : over any run of loads and stores, by any number of elements, the files are such a map.
-/

namespace LibuvcH264Src
open AnnexB

/-! ## Keyed places -/

section Represents
variable {K P V : Type} [DecidableEq K] [DecidableEq P]

/-- Each key that is placed has its value at its place. -/
def Represents (place : K → Option P) (kept : P → V) (m : K → V) : Prop := ∀ k p, place k = some p → kept p = m k

/-- A write at the place of a key is a write at the key, where no two keys share a place. -/
theorem Represents.update {place : K → Option P} {kept : P → V} {m : K → V} (h : Represents place kept m)
    (hinj : ∀ k k' p, place k = some p → place k' = some p → k = k') {k : K} {p : P} (hk : place k = some p) (v : V) :
    Represents place (Function.update kept p v) (Function.update m k v) := by
  intro k' p' hk'
  by_cases hp : p' = p
  · subst hp
    obtain rfl := hinj k k' p' hk hk'
    rw [Function.update_self, Function.update_self]
  · have hne : k' ≠ k := by
      rintro rfl
      exact hp (Option.some.inj (hk'.symm.trans hk))
    rw [Function.update_of_ne hp, Function.update_of_ne hne]
    exact h k' p' hk'

end Represents

/-! ## The path of a key -/

/-- `DIRBUFLEN`. -/
def dirBufLen : Nat := 4096

/-- What `dir_buf` and the buffer of the builder held before the call. -/
structure CacheBuffers where
  dirBuf : Vector Byte dirBufLen
  scratch : Vector Byte keySize

/-- A key whose index is a C string. -/
abbrev CacheKey := { key : SpsppsKey // 0 ∉ key.index }

/-- The keys of instances with an index; those without one have a single file. -/
abbrev CacheSlot := Option { key : SpsppsKey // 0 ∉ key.index ∧ key.haveIndex = true }

def CacheKey.slot (key : CacheKey) : CacheSlot :=
  if h : key.1.haveIndex = true then some ⟨key.1, key.2, h⟩ else none

section Path
variable (homeDir : Option CString)

/-- The path of a slot; without an index it is that of the directory. -/
def slotPath : CacheSlot → List Byte
  | some key => cachePath (homeBytes homeDir)
      (cacheName key.1.index (if key.1.isH265 then 1 else 0) key.1.width key.1.height)
  | none => homeBytes homeDir ++ cacheDir

/-- The path fits in the buffers. -/
def SlotFits (slot : CacheSlot) : Prop :=
  (∀ key ∈ slot, (escape key.1.index).length < keySize) ∧ (slotPath homeDir slot).length < dirBufLen

instance (slot : CacheSlot) : Decidable (SlotFits homeDir slot) :=
  inferInstanceAs (Decidable ((∀ key ∈ slot, _) ∧ _))

def place (slot : CacheSlot) : Option (List Byte) :=
  if SlotFits homeDir slot then some (slotPath homeDir slot) else none

/-- **The path of a key**, whatever the buffers held. -/
theorem getSpsppsPath_eq (key : CacheKey) (buffers : CacheBuffers) :
    getSpsppsPath buffers.dirBuf.toList homeDir key.1 key.2 buffers.scratch = place homeDir key.slot := by
  have hlen : buffers.dirBuf.toList.length = dirBufLen := by simp
  have hbuf : buffers.dirBuf.toList ≠ [] := by
    intro h
    rw [h] at hlen
    exact absurd hlen (by decide)
  by_cases hindex : key.1.haveIndex = true
  · have hslot : key.slot = some ⟨key.1, key.2, hindex⟩ := dif_pos hindex
    unfold getSpsppsPath place
    rw [hslot, if_pos hindex]
    set index : CString := ⟨key.1.index, key.2⟩ with hindexDef
    set path := slotPath homeDir (some ⟨key.1, key.2, hindex⟩) with hpath
    obtain ⟨ret, out, hcall, -, hfits, hno⟩ := spsppsBuildPath_eq (some buffers.dirBuf.toList) homeDir index
      (if key.1.isH265 then 1 else 0) key.1.width key.1.height buffers.scratch
    rw [hcall]
    by_cases hfit : SlotFits homeDir (some ⟨key.1, key.2, hindex⟩)
    · have hlimit : dirBufLen ≤ gMaxInt := by decide
      have hpathFits : PathFits (some buffers.dirBuf.toList) index path :=
        ⟨hfit.1 _ rfl, (Nat.le_of_lt hfit.2).trans hlimit, _, rfl, lt_of_lt_of_eq hfit.2 hlen.symm⟩
      obtain ⟨hret, rest, hout⟩ := hfits hpathFits
      have hstring : stringAt (path ++ 0 :: rest) = .ok path :=
        stringAt_append (cachePath_terminated homeDir index _ _ _)
      rw [if_pos hfit, hout]
      show (if ret = -1 then none else (stringAt (path ++ 0 :: rest)).toOption) = _
      rw [if_neg (by rw [hret]; omega), hstring]
      rfl
    · have hpathFits : ¬ PathFits (some buffers.dirBuf.toList) index path := by
        rintro ⟨hescape, -, buf, hsome, hshort⟩
        obtain rfl := Option.some.inj hsome
        refine hfit ⟨fun key' hkey' => ?_, lt_of_lt_of_eq hshort hlen⟩
        obtain rfl := Option.some.inj hkey'
        exact hescape
      rw [if_neg hfit]
      cases out with
      | none => rfl
      | some buf => exact if_pos (hno hpathFits)
  · have hslot : key.slot = none := dif_neg hindex
    unfold getSpsppsPath place
    rw [hslot, if_neg hindex]
    obtain ⟨ret, written, hprint, -, hfull, hcut⟩ := printPath_eq (homeBytes homeDir ++ cacheDir) hbuf
    have hcall : spsppsBuildPath (some buffers.dirBuf.toList) homeDir none (if key.1.isH265 then 1 else 0) key.1.width
        key.1.height buffers.scratch = some (ret, some written) := by
      simp only [spsppsBuildPath, if_neg hbuf, pathText]
      exact hprint
    rw [hcall]
    show (if ret = -1 then none else (stringAt written).toOption) = _
    by_cases hfit : SlotFits homeDir none
    · have hshort : (homeBytes homeDir ++ cacheDir).length < dirBufLen := hfit.2
      have hlimit : dirBufLen ≤ gMaxInt := by decide
      obtain ⟨hret, rest, hwritten⟩ := hfull ⟨(Nat.le_of_lt hshort).trans hlimit, lt_of_lt_of_eq hshort hlen.symm⟩
      have hterminated : 0 ∉ homeBytes homeDir ++ cacheDir := by
        rw [List.mem_append, not_or]
        exact ⟨homeBytes_terminated homeDir, by decide⟩
      rw [if_pos hfit, if_neg (by rw [hret]; omega), hwritten, stringAt_append hterminated]
      rfl
    · have hlong : ¬ ((homeBytes homeDir ++ cacheDir).length ≤ gMaxInt ∧
          (homeBytes homeDir ++ cacheDir).length < buffers.dirBuf.toList.length) := by
        rintro ⟨-, hshort⟩
        exact hfit ⟨fun key' hkey' => absurd hkey' (Option.not_mem_none key'), lt_of_lt_of_eq hshort hlen⟩
      rw [if_neg hfit, if_pos (hcut hlong)]

/-- No two slots share a path. -/
theorem place_inj {slot slot' : CacheSlot} {path : List Byte} (h : place homeDir slot = some path)
    (h' : place homeDir slot' = some path) : slot = slot' := by
  have hpath : slotPath homeDir slot = slotPath homeDir slot' := by
    unfold place at h h'
    split_ifs at h h'
    exact (Option.some.inj h).trans (Option.some.inj h').symm
  have hdeeper : ∀ key, slotPath homeDir none ≠ slotPath homeDir (some key) := by
    intro key hsame
    have hlength := congrArg List.length hsame
    have hslash : (ascii ['/']).length = 1 := by decide
    simp only [slotPath, cachePath, List.length_append] at hlength
    omega
  cases slot with
  | none =>
    cases slot' with
    | none => rfl
    | some key' => exact absurd hpath (hdeeper key')
  | some key =>
    cases slot' with
    | none => exact absurd hpath.symm (hdeeper key)
    | some key' =>
      obtain ⟨⟨index, haveIndex, isH265, width, height⟩, hterminated, hindexed⟩ := key
      obtain ⟨⟨index', haveIndex', isH265', width', height'⟩, hterminated', hindexed'⟩ := key'
      obtain ⟨hindex, hcodec, hw, hh⟩ := cacheName_inj (List.append_cancel_left hpath)
      simp only at hindexed hindexed' hindex hcodec hw hh
      subst hindexed hindexed' hindex hw hh
      cases isH265 <;> cases isH265' <;> simp at hcodec ⊢

end Path

/-! ## Loads and stores -/

/-- A call by some element; `opens` is whether the file can be opened, and the first `landed` bytes of what is written get
there. -/
inductive CacheCall where
  | store (self : StreamState) (key : CacheKey) (opens : Bool) (landed : Nat)
  | load (self : StreamState) (key : CacheKey) (opens : Bool)

section Calls
variable (homeDir : Option CString)

/-- `store_spspps` and `load_spspps` on the files, by their paths: the files, and the element behind a load. -/
def fileCall (files : List Byte → Option (List Byte)) (buffers : CacheBuffers) :
    CacheCall → (List Byte → Option (List Byte)) × Option StreamState
  | .store self key opens landed =>
    match getSpsppsPath buffers.dirBuf.toList homeDir key.1 key.2 buffers.scratch with
    | none => (files, none)
    | some path =>
      if opens then (Function.update files path (some ((storeSpspps self key.1).take landed)), none) else (files, none)
  | .load self key opens =>
    match getSpsppsPath buffers.dirBuf.toList homeDir key.1 key.2 buffers.scratch with
    | none => (files, none)
    | some path =>
      match files path with
      | none => (files, none)
      | some bytes => if opens then (files, some (loadBytes self bytes)) else (files, none)

/-- The same on a map from slots to bytes. -/
def slotCall (kept : CacheSlot → Option (List Byte)) :
    CacheCall → (CacheSlot → Option (List Byte)) × Option StreamState
  | .store self key opens landed =>
    if SlotFits homeDir key.slot ∧ opens then
      (Function.update kept key.slot (some ((storeSpspps self key.1).take landed)), none)
    else (kept, none)
  | .load self key opens =>
    if SlotFits homeDir key.slot ∧ opens then (kept, (kept key.slot).map (loadBytes self)) else (kept, none)

/-- A run of calls, and what each of its loads made of its element. -/
def fileCalls (files : List Byte → Option (List Byte)) :
    List (CacheCall × CacheBuffers) → (List Byte → Option (List Byte)) × List (Option StreamState)
  | [] => (files, [])
  | (call, buffers) :: rest =>
    let r := fileCall homeDir files buffers call
    let rs := fileCalls r.1 rest
    (rs.1, r.2 :: rs.2)

def slotCalls (kept : CacheSlot → Option (List Byte)) :
    List CacheCall → (CacheSlot → Option (List Byte)) × List (Option StreamState)
  | [] => (kept, [])
  | call :: rest =>
    let r := slotCall homeDir kept call
    let rs := slotCalls r.1 rest
    (rs.1, r.2 :: rs.2)

end Calls

section Refinement
variable {homeDir : Option CString} {files : List Byte → Option (List Byte)} {kept : CacheSlot → Option (List Byte)}

/-- One call. -/
theorem fileCall_refines (h : Represents (place homeDir) files kept) (buffers : CacheBuffers) (call : CacheCall) :
    Represents (place homeDir) (fileCall homeDir files buffers call).1 (slotCall homeDir kept call).1 ∧
      (fileCall homeDir files buffers call).2 = (slotCall homeDir kept call).2 := by
  cases call with
  | store self key opens landed =>
    simp only [fileCall, slotCall, getSpsppsPath_eq]
    by_cases hfit : SlotFits homeDir key.slot
    · have hplace : place homeDir key.slot = some (slotPath homeDir key.slot) := if_pos hfit
      simp only [hplace, hfit, true_and]
      cases opens with
      | true => exact ⟨h.update (fun _ _ _ => place_inj homeDir) hplace _, rfl⟩
      | false => exact ⟨h, rfl⟩
    · have hplace : place homeDir key.slot = none := if_neg hfit
      simp only [hplace, hfit, false_and, if_false]
      exact ⟨h, trivial⟩
  | load self key opens =>
    simp only [fileCall, slotCall, getSpsppsPath_eq]
    by_cases hfit : SlotFits homeDir key.slot
    · have hplace : place homeDir key.slot = some (slotPath homeDir key.slot) := if_pos hfit
      have hread := h _ _ hplace
      simp only [hplace, hfit, true_and, hread]
      cases kept key.slot with
      | none => cases opens <;> exact ⟨h, rfl⟩
      | some bytes => cases opens <;> exact ⟨h, rfl⟩
    · have hplace : place homeDir key.slot = none := if_neg hfit
      simp only [hplace, hfit, false_and, if_false]
      exact ⟨h, trivial⟩

end Refinement

/-- **The cache is a store.** Over any run of loads and stores by any elements of one home, whatever the buffers of the
calls held, whichever files can be opened and however much of a write gets to them, the files are a map from the keys:
each load makes of its element what it makes of the bytes that are kept for its key, and these are what the last store
under that key left. -/
theorem cache_store_refines (homeDir : Option CString) (calls : List (CacheCall × CacheBuffers))
    (files : List Byte → Option (List Byte)) :
    let kept : CacheSlot → Option (List Byte) := fun slot => files (slotPath homeDir slot)
    (fileCalls homeDir files calls).2 = (slotCalls homeDir kept (calls.map Prod.fst)).2 ∧
    ∀ slot, SlotFits homeDir slot → (fileCalls homeDir files calls).1 (slotPath homeDir slot) =
      (slotCalls homeDir kept (calls.map Prod.fst)).1 slot := by
  intro kept
  have hrun : ∀ (files : List Byte → Option (List Byte)) (kept : CacheSlot → Option (List Byte)),
      Represents (place homeDir) files kept →
      (fileCalls homeDir files calls).2 = (slotCalls homeDir kept (calls.map Prod.fst)).2 ∧
      Represents (place homeDir) (fileCalls homeDir files calls).1 (slotCalls homeDir kept (calls.map Prod.fst)).1 := by
    induction calls with
    | nil => exact fun files kept h => ⟨rfl, h⟩
    | cons c rest ih =>
      intro files kept h
      obtain ⟨hstep, hout⟩ := fileCall_refines h c.2 c.1
      obtain ⟨houts, hrest⟩ := ih _ _ hstep
      exact ⟨List.cons_eq_cons.mpr ⟨hout, houts⟩, hrest⟩
  have hinit : Represents (place homeDir) files kept := by
    intro slot path hplace
    unfold place at hplace
    split_ifs at hplace
    obtain rfl := Option.some.inj hplace
    rfl
  obtain ⟨houts, hfinal⟩ := hrun files kept hinit
  exact ⟨houts, fun slot hfit => hfinal slot _ (if_pos hfit)⟩

end LibuvcH264Src
