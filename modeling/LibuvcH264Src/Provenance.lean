import LibuvcH264Src.CacheFile
import LibuvcH264Src.Runs

/-!
# Whose sets the cache files hold

* `OpenedDevice` : a device that was opened by resolving an index; `Selecting`, `OpenCamera` : the selector, whose serial
  number points into the index string, and what it opens behind a free of this string;
* `Traced`, `Traced.step` : an instance and its cache files, with the origin of every set that went into the cache;
* `Attributable`, `uncontaminated` : the steps that do not mix the cameras, and what holds where all of them are such.

A `set_property` that comes while a callback runs, in front of its snapshot of the key, is one in front of the callback:
nothing else in there reads the index.
-/

namespace LibuvcH264Src
open AnnexB Runs

/-! ## The system -/

/-- A value of the `index` property that was parsed. -/
structure ParsedIndex where
  index : List Byte
  selector : DeviceSelector
  parsed : parseSelector (some index) = .ok selector
  deriving DecidableEq

/-- A device that was opened by resolving an index. -/
structure OpenedDevice extends ParsedIndex where
  device : Device
  found : ∃ devices ordinal, findMatching selector 0 devices = some (device, ordinal)
  deriving DecidableEq

/-- The selector that `start` or a reconnect works with. A serial number points into the index string: once this is freed,
so is the selector. -/
inductive Selecting where
  | index (parsed : ParsedIndex)
  | freed
  deriving DecidableEq

/-- `set_property` frees the index string. The other selectors hold no pointer into it. -/
def Selecting.free : Selecting → Selecting
  | .index parsed =>
    match parsed.selector with
    | .serial _ => .freed
    | .ordinal _ | .vidPid _ _ | .busAddr _ _ => .index parsed
  | .freed => .freed

/-- An open device: one that its index was resolved to, or any that freed memory happened to match. -/
inductive OpenCamera where
  | resolved (opening : OpenedDevice)
  | stray (device : Device)
  deriving DecidableEq

def OpenCamera.index : OpenCamera → Option (List Byte)
  | .resolved opening => some opening.index
  | .stray _ => none

def parseIndex (index : Option (List Byte)) : Option ParsedIndex :=
  match index with
  | none => none
  | some index =>
    match h : parseSelector (some index) with
    | .ok selector => some ⟨index, selector, h⟩
    | .error _ => none

/-- The first of the enumerated devices that the index selects. -/
def ParsedIndex.resolve (p : ParsedIndex) (devices : List Device) : Option OpenedDevice :=
  match h : findMatching p.selector 0 devices with
  | some (device, ordinal) => some ⟨p, device, devices, ordinal, h⟩
  | none => none

/-- Where a set came from: an open device, or the cache file of an index. -/
inductive Origin where
  | device (opened : OpenCamera)
  | file (index : List Byte)
  deriving DecidableEq

def Origin.index : Origin → Option (List Byte)
  | .device opened => opened.index
  | .file index => some index

/-- A set that went into the cache. -/
structure Receipt where
  type : NalUnitType
  data : List Byte
  origin : Origin
  deriving DecidableEq

/-- One call of `store_spspps`. -/
structure Write where
  key : SpsppsKey
  sets : List (NalUnitType × List Byte)
  deriving DecidableEq

/-- An instance and the cache files. `selecting` is the selector that `start` or a reconnect works with, `opened` is
the open device, `filled` says where the set in a slot came from. -/
structure Traced where
  self : StreamState
  files : SpsppsKey → Option (List Byte)
  selecting : Option Selecting
  opened : Option OpenCamera
  filled : NalUnitType → Option Origin
  receipts : List Receipt
  writes : List Write

/-- A new element, with files of earlier runs. -/
def Traced.init (files : SpsppsKey → Option (List Byte)) : Traced := ⟨.init, files, none, none, fun _ => none, [], []⟩

/-- The kinds of sets in a file, in the order in which they are written. -/
def storedKinds (key : SpsppsKey) : List NalUnitType := if key.isH265 then [.vps, .sps, .pps] else [.sps, .pps]

/-- The sets that `store_spspps` writes. -/
def storedSets (self : StreamState) (key : SpsppsKey) : List (NalUnitType × List Byte) :=
  (storedKinds key).map fun kind => (kind, slot self kind)

/-- Units from one origin come in, and leave the instance as it is in `self`. -/
def Traced.take (t : Traced) (units : List NalUnit) (origin : Origin) (self : StreamState) : Traced :=
  { t with
    self := self
    filled := fun kind => if units.any fun u => u.type = kind && acceptsUnit u then some origin else t.filled kind
    receipts := (units.filter acceptsUnit).map (fun u => ⟨u.type, u.data, origin⟩) ++ t.receipts }

/-- Without an index the path is that of the directory, which no write opens. -/
def Traced.store (t : Traced) (stored : Option (SpsppsKey × List Byte)) (writable : Bool) : Traced :=
  match stored with
  | none => t
  | some (key, bytes) =>
    if writable && key.haveIndex then
      { t with
        files := Function.update t.files key (some bytes)
        writes := ⟨key, storedSets t.self key⟩ :: t.writes }
    else t

inductive TracedEvent where
  | setIndex (value : Option (List Byte))
  /-- `set_property` in the middle of a parse, which goes on in the freed string. -/
  | setIndexInParse (value : Option (List Byte))
  | setClock (clock : Bool)
  | changeState (transition : StateChange)
  /-- `start`, up to the parsed index. -/
  | start
  /-- The index is parsed in front of a reconnect or a recovery. -/
  | reconnect
  /-- The selector is resolved among these devices, and `uvc_open` succeeds. One in freed memory may match any of them:
  here `stray`. -/
  | openDevice (devices : List Device) (stray : Device)
  | close
  | rearm
  /-- `negotiate` writes the mode. -/
  | mode (format : FrameFormat) (width height interval : Int)
  /-- `load_spspps`. -/
  | load
  /-- `frame_callback`; `writable` says whether the cache file opens for writing. -/
  | frame (arrival : Arrival) (data : Option (List Byte)) (writable : Bool)

def Traced.step (t : Traced) : TracedEvent → Option Traced
  | .setIndex value => some { t with self := { t.self with index := value }, selecting := t.selecting.map Selecting.free }
  | .setIndexInParse value => some { t with self := { t.self with index := value }, selecting := some .freed }
  | .setClock clock => some { t with self := setClock t.self clock }
  | .changeState transition => some { t with self := changeState t.self transition }
  | .start =>
    some { t with self := resetStream t.self, opened := none, selecting := (parseIndex t.self.index).map Selecting.index }
  | .reconnect => some { t with selecting := (parseIndex t.self.index).map Selecting.index }
  | .openDevice devices stray =>
    match t.selecting, t.opened with
    | some (.index parsed), none => (parsed.resolve devices).map fun opening => { t with opened := some (.resolved opening) }
    | some .freed, none => if stray ∈ devices then some { t with opened := some (.stray stray) } else none
    | _, _ => none
  | .close => some { t with opened := none }
  | .rearm => some { t with self := rearmStream t.self }
  | .mode format width height interval =>
    some
      { t with
        self :=
          { t.self with
            frameFormat := format
            negotiatedWidth := width
            negotiatedHeight := height
            frameInterval := interval } }
  | .load =>
    match t.self.index, t.files (spsppsKeySnapshot t.self) with
    | some index, some bytes =>
      some (t.take (parseNalUnits t.self.frameFormat 3 (bytes.take (spsppsBufSz * 3))) (.file index) (loadBytes t.self bytes))
    | _, _ => some t
  | .frame arrival data writable =>
    t.opened.map fun opened =>
      let o := frameCallback t.self arrival data
      (t.take (deliveredUnits t.self arrival data) (.device opened) o.self).store o.stored writable

/-! ## The property -/

/-- The file of the key is the one of this index. -/
def KeyedBy (index : List Byte) (key : SpsppsKey) : Prop :=
  key.haveIndex = true ∧ key.index = index.take (spsppsIndexMax - 1)

/-- Every set in a file came from a device that was opened by resolving the index whose file it is, or was found in
the file of this index. -/
def Uncontaminated (t : Traced) : Prop :=
  ∀ write ∈ t.writes, ∀ index, KeyedBy index write.key → ∀ set ∈ write.sets, set.2 ≠ [] →
    ∃ r ∈ t.receipts, r.type = set.1 ∧ r.data = set.2 ∧ r.origin.index = some index

/-- A set of the delivery differs from what is cached where it comes up. -/
def Rewrites (self : StreamState) (arrival : Arrival) (data : Option (List Byte)) : Prop :=
  ∃ m ∈ deliveryMoments self arrival data, Differs m

/-- The index is still the one that the open device was resolved from, and is shorter than what the key keeps of it;
and every set of the file that the delivery does not bring was filled from this device, another one of this index, or
its file. -/
def OwnSets (t : Traced) (opened : OpenCamera) (units : List NalUnit) : Prop :=
  opened.index.isSome ∧ t.self.index = opened.index ∧ (∀ index ∈ opened.index, index.length < spsppsIndexMax - 1) ∧
    ∀ kind ∈ storedKinds (spsppsKeySnapshot t.self),
      slot t.self kind = [] ∨ (∃ u ∈ units, u.type = kind ∧ acceptsUnit u = true) ∨
        (t.filled kind).bind Origin.index = opened.index

/-- A delivery that has the file rewritten brings or finds the sets of its own index. -/
def Attributable (t : Traced) : TracedEvent → Prop
  | .frame arrival data writable =>
    ∀ opened ∈ t.opened, Rewrites t.self arrival data → writable = true → t.self.index.isSome = true →
      OwnSets t opened (deliveredUnits t.self arrival data)
  | _ => True

instance (self : StreamState) (arrival : Arrival) (data : Option (List Byte)) : Decidable (Rewrites self arrival data) :=
  inferInstanceAs (Decidable (∃ _ ∈ _, _))

instance (t : Traced) (opened : OpenCamera) (units : List NalUnit) : Decidable (OwnSets t opened units) :=
  inferInstanceAs (Decidable (_ ∧ _ ∧ _ ∧ _))

instance (t : Traced) (e : TracedEvent) : Decidable (Attributable t e) :=
  match e with
  | .frame _ _ _ => inferInstanceAs (Decidable (∀ _ ∈ _, _))
  | .setIndex _ | .setIndexInParse _ | .setClock _ | .changeState _ | .start | .reconnect | .openDevice _ _ | .close
  | .rearm | .mode _ _ _ _ | .load => isTrue trivial

/-! ## One step -/

/-- What `store_spspps` writes are the slots of its kinds. -/
theorem storeSpspps_eq (self : StreamState) (key : SpsppsKey) :
    storeSpspps self key = (storedSets self key).flatMap Prod.snd := by
  unfold storeSpspps storedSets storedKinds
  split_ifs <;> simp [slot]

/-- The set in a slot is one that came from where the slot was filled from. -/
def Attributed (t : Traced) : Prop :=
  ∀ kind origin, t.filled kind = some origin → ⟨kind, slot t.self kind, origin⟩ ∈ t.receipts

theorem Attributed.take {t : Traced} {units : List NalUnit} {self : StreamState} (h : Attributed t) (origin : Origin)
    (hslot : ∀ kind, slot self kind = lastAccepted kind (slot t.self kind) units) :
    Attributed (t.take units origin self) := by
  intro kind o hfilled
  show _ ∈ (units.filter acceptsUnit).map (fun u => ⟨u.type, u.data, origin⟩) ++ t.receipts
  simp only [Traced.take] at hfilled
  rw [List.mem_append]
  rcases lastAccepted_cases kind (slot t.self kind) units with ⟨hsame, hnone⟩ | ⟨u, hu, htype, haccepted, hdata⟩
  · rw [if_neg] at hfilled
    · apply Or.inr
      have hkept := h kind o hfilled
      rw [← hsame, ← hslot kind] at hkept
      exact hkept
    · rw [List.any_eq_true]
      intro ⟨u, hu, haccepted⟩
      rw [Bool.and_eq_true] at haccepted
      exact hnone u hu ⟨of_decide_eq_true haccepted.1, haccepted.2⟩
  · rw [if_pos] at hfilled
    · obtain rfl := Option.some.inj hfilled
      apply Or.inl
      rw [List.mem_map]
      refine ⟨u, List.mem_filter.mpr ⟨hu, haccepted⟩, ?_⟩
      rw [htype, hdata, ← hslot kind]
      rfl
    · rw [List.any_eq_true]
      exact ⟨u, hu, by rw [haccepted, decide_eq_true htype, Bool.and_true]⟩

/-- What a step can do: nothing to the sets, a load, or a delivery. -/
theorem Traced.step_cases {t t' : Traced} {e : TracedEvent} (h : t.step e = some t') :
    (t'.filled = t.filled ∧ t'.receipts = t.receipts ∧ t'.writes = t.writes ∧
        ∀ kind, slot t'.self kind = slot t.self kind) ∨
      (∃ index bytes, t' = t.take (parseNalUnits t.self.frameFormat 3 (bytes.take (spsppsBufSz * 3))) (.file index)
        (loadBytes t.self bytes)) ∨
      ∃ arrival data writable opened, e = .frame arrival data writable ∧ t.opened = some opened ∧
        t' = (t.take (deliveredUnits t.self arrival data) (.device opened) (frameCallback t.self arrival data).self).store
          (frameCallback t.self arrival data).stored writable := by
  cases e with
  | setIndex | setIndexInParse | start | reconnect | close | rearm | mode =>
    obtain rfl := Option.some.inj h
    exact Or.inl ⟨rfl, rfl, rfl, fun kind => by cases kind <;> rfl⟩
  | setClock clock =>
    obtain rfl := Option.some.inj h
    exact Or.inl ⟨rfl, rfl, rfl, fun kind => by cases clock <;> cases kind <;> rfl⟩
  | changeState transition =>
    obtain rfl := Option.some.inj h
    exact Or.inl ⟨rfl, rfl, rfl, fun kind => by cases transition <;> cases kind <;> rfl⟩
  | openDevice devices stray =>
    simp only [Traced.step] at h
    split at h
    · obtain ⟨opening, -, rfl⟩ := Option.map_eq_some_iff.mp h
      exact Or.inl ⟨rfl, rfl, rfl, fun _ => rfl⟩
    · split_ifs at h
      obtain rfl := Option.some.inj h
      exact Or.inl ⟨rfl, rfl, rfl, fun _ => rfl⟩
    · cases h
  | load =>
    simp only [Traced.step] at h
    split at h
    · next index bytes _ _ =>
      obtain rfl := Option.some.inj h
      exact Or.inr (Or.inl ⟨index, bytes, rfl⟩)
    · obtain rfl := Option.some.inj h
      exact Or.inl ⟨rfl, rfl, rfl, fun _ => rfl⟩
  | frame arrival data writable =>
    obtain ⟨opened, hopened, rfl⟩ := Option.map_eq_some_iff.mp h
    exact Or.inr (Or.inr ⟨arrival, data, writable, opened, rfl, hopened, rfl⟩)

/-- What is known of a state: the slots are attributed, and so are the sets in the files. -/
structure Traceable (t : Traced) : Prop where
  attributed : Attributed t
  uncontaminated : Uncontaminated t

theorem Uncontaminated.mono {t t' : Traced} (h : Uncontaminated t) (hwrites : t'.writes = t.writes)
    (hreceipts : ∀ r ∈ t.receipts, r ∈ t'.receipts) : Uncontaminated t' := by
  intro write hwrite index hkey set hset hne
  rw [hwrites] at hwrite
  obtain ⟨r, hr, hfrom⟩ := h write hwrite index hkey set hset hne
  exact ⟨r, hreceipts r hr, hfrom⟩

theorem Traceable.take {t : Traced} {units : List NalUnit} {self : StreamState} (h : Traceable t) (origin : Origin)
    (hslot : ∀ kind, slot self kind = lastAccepted kind (slot t.self kind) units) :
    Traceable (t.take units origin self) where
  attributed := h.attributed.take origin hslot
  uncontaminated := h.uncontaminated.mono rfl fun _ hr => List.mem_append_right _ hr

/-- An index that is short enough is the only one of its key. -/
theorem KeyedBy.eq {index own : List Byte} {self : StreamState} (h : KeyedBy index (spsppsKeySnapshot self))
    (hself : self.index = some own) (hshort : own.length < spsppsIndexMax - 1) : index = own := by
  have hkey := h.2
  unfold spsppsKeySnapshot at hkey
  simp only [hself] at hkey
  rw [List.take_of_length_le (Nat.le_of_lt hshort)] at hkey
  have hlength := congrArg List.length hkey
  rw [List.length_take] at hlength
  rw [hkey, List.take_of_length_le (by omega)]

/-- The sets of the file are attributed to its index. -/
theorem OwnSets.received {t : Traced} {opened : OpenCamera} {units : List NalUnit} {self : StreamState}
    (h : OwnSets t opened units) (htraced : Attributed (t.take units (.device opened) self))
    (hslot : ∀ kind, slot self kind = lastAccepted kind (slot t.self kind) units) {kind : NalUnitType}
    (hkind : kind ∈ storedKinds (spsppsKeySnapshot t.self)) (hne : slot self kind ≠ []) :
    ∃ r ∈ (t.take units (.device opened) self).receipts, r.type = kind ∧ r.data = slot self kind ∧
      r.origin.index = opened.index := by
  have hfilled : ∃ origin, (t.take units (.device opened) self).filled kind = some origin ∧
      origin.index = opened.index := by
    simp only [Traced.take]
    split_ifs with hany
    · exact ⟨.device opened, rfl, rfl⟩
    · rw [List.any_eq_true] at hany
      have hnone : ¬ ∃ u ∈ units, u.type = kind ∧ acceptsUnit u = true := by
        intro ⟨u, hu, htype, haccepted⟩
        exact hany ⟨u, hu, by rw [haccepted, decide_eq_true htype, Bool.and_true]⟩
      rcases h.2.2.2 kind hkind with hempty | hbrought | hfilled
      · apply absurd _ hne
        rw [hslot kind]
        rcases lastAccepted_cases kind (slot t.self kind) units with hsame | ⟨u, hu, htype, haccepted, -⟩
        · rw [hsame.1, hempty]
        · exact absurd ⟨u, hu, htype, haccepted⟩ hnone
      · exact absurd hbrought hnone
      · obtain ⟨index, hindex⟩ := Option.isSome_iff_exists.mp h.1
        rw [hindex] at hfilled ⊢
        exact Option.bind_eq_some_iff.mp hfilled
  obtain ⟨origin, hfilled, hindex⟩ := hfilled
  exact ⟨_, htraced kind origin hfilled, rfl, rfl, hindex⟩

theorem Traceable.step {t t' : Traced} {e : TracedEvent} (h : Traceable t) (hown : Attributable t e)
    (hstep : t.step e = some t') : Traceable t' := by
  rcases Traced.step_cases hstep with ⟨hfilled, hreceipts, hwrites, hslot⟩ | ⟨index, bytes, rfl⟩ |
    ⟨arrival, data, writable, opened, rfl, hopened, rfl⟩
  · refine ⟨fun kind origin horigin => ?_, h.uncontaminated.mono hwrites fun r hr => by rw [hreceipts]; exact hr⟩
    rw [hreceipts, hslot kind]
    rw [hfilled] at horigin
    exact h.attributed kind origin horigin
  · exact h.take (.file index) fun kind => slot_foldl_loadUnit _ t.self kind
  · have hslot := slot_frameCallback t.self arrival data
    have htaken := h.take (.device opened) hslot
    obtain ⟨hwritten, hkept⟩ := frameCallback_stored t.self arrival data
    unfold Traced.store
    by_cases hrewrites : Rewrites t.self arrival data
    · rw [hwritten hrewrites]
      simp only []
      split_ifs with hstored
      · rw [Bool.and_eq_true] at hstored
        have hown := hown opened hopened hrewrites hstored.1 hstored.2
        obtain ⟨own, hindex⟩ := Option.isSome_iff_exists.mp hown.1
        refine ⟨htaken.attributed, ?_⟩
        intro write hwrite index hkey set hset hne
        rcases List.mem_cons.mp hwrite with rfl | hwrite
        · obtain rfl := hkey.eq (hown.2.1.trans hindex) (hown.2.2.1 own hindex)
          rw [← hindex]
          obtain ⟨kind, hkind, rfl⟩ := List.mem_map.mp hset
          exact hown.received htaken.attributed hslot hkind hne
        · exact htaken.uncontaminated write hwrite index hkey set hset hne
      · exact htaken
    · rw [(hkept fun m hm hdiffers => hrewrites ⟨m, hm, hdiffers⟩).1]
      exact htaken

/-! ## Every run -/

theorem Traceable.init (files : SpsppsKey → Option (List Byte)) : Traceable (.init files) where
  attributed := by
    intro kind origin hfilled
    cases hfilled
  uncontaminated := by
    intro write hwrite
    exact absurd hwrite List.not_mem_nil

/-- Two cameras on the bus. -/
def frontCamera : Device := ⟨0, 1, 1, some ⟨0x1234, 0x5678, some (ascii ['A'])⟩⟩
def rearCamera : Device := ⟨1, 1, 2, some ⟨0x1234, 0x5679, some (ascii ['B'])⟩⟩
def cameraPair : List Device := [frontCamera, rearCamera]

/-- A keyframe with its sets, in a coding of its own. -/
def keyframe (profile : Byte) : Option (List Byte) :=
  some [0, 0, 0, 1, 0x67, profile, 0, 0, 0, 1, 0x68, 0xCE, 0, 0, 0, 1, 0x65, 0x88]

def firstCamera : List TracedEvent :=
  [.setClock true, .start, .openDevice cameraPair frontCamera, .mode .h264 1920 1080 33333333, .load,
    .frame ⟨10, 0⟩ (keyframe 0x42) true]

/-- The camera is lost and comes back with another coding. -/
def sameIndex : List TracedEvent :=
  firstCamera ++
    [.reconnect, .close, .openDevice cameraPair frontCamera, .rearm, .frame ⟨20, 0⟩ (keyframe 0x4D) true]

/-- The application selects the second camera for the next start, and the first changes its coding. -/
def indexChanged : List TracedEvent :=
  firstCamera ++ [.setIndex (some (ascii ['1'])), .frame ⟨20, 0⟩ (keyframe 0x4D) true]

/-- The file of an index holds a set, and none came from this index. -/
def Foreign (index : List Byte) (t : Traced) : Prop :=
  (∃ write ∈ t.writes, KeyedBy index write.key ∧ ∃ set ∈ write.sets, set.2 ≠ []) ∧
    ∀ r ∈ t.receipts, r.origin.index ≠ some index

instance (index : List Byte) (t : Traced) : Decidable (Foreign index t) :=
  haveI (write : Write) : Decidable (KeyedBy index write.key) := inferInstanceAs (Decidable (_ ∧ _))
  inferInstanceAs (Decidable (_ ∧ _))

theorem Foreign.not_uncontaminated {index : List Byte} {t : Traced} (h : Foreign index t) : ¬ Uncontaminated t := by
  intro huncontaminated
  obtain ⟨⟨write, hwrite, hkey, set, hset, hne⟩, hreceipts⟩ := h
  obtain ⟨r, hr, -, -, horigin⟩ := huncontaminated write hwrite index hkey set hset hne
  exact hreceipts r hr horigin

def serialIndex (sn : Char) : List Byte := ascii ['s', 'e', 'r', 'i', 'a', 'l', ':', sn]

/-- The serial number of the front camera is freed in front of the resolve, and what is read in its place is the one of
the rear camera; then the index is set back. -/
def serialFreed : List TracedEvent :=
  [.setIndex (some (serialIndex 'A')), .setClock true, .start, .setIndex (some (serialIndex 'B')),
    .openDevice cameraPair rearCamera, .setIndex (some (serialIndex 'A')), .mode .h264 1920 1080 33333333, .load,
    .frame ⟨10, 0⟩ (keyframe 0x42) true]

example : (run Traced.step (.init fun _ => none) serialFreed).map
    (fun t => decide (Foreign (serialIndex 'A') t)) = some true := by
  decide +kernel

end LibuvcH264Src
