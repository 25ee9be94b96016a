import LibuvcH264Src.Codes
import LibuvcH264Src.DeviceSelector

/-!
# The path of a cache file

* `CString`, `poke`, `stringAt`, `snprintf` : strings and buffers of C; a write that leaves its buffer is `Halt.overrun`;
* `spsppsBuildPath` : the path builder, with the memory it writes;
* `escapeLoop_eq` : what the escape loop leaves in `key`, and where it gives up;
* `escape_code` : the escaped bytes and the `_h` behind them are a code with a stop;
* `spsppsBuildPath_eq` : one call, `spspps_build_path_keyed` : the law of the paths;
* `getSpsppsPath_inj` : no two keys share a file.
-/

namespace LibuvcH264Src
open AnnexB Codes

/-! ## C strings and buffers -/

/-- A C string, without its terminator. -/
structure CString where
  bytes : List Byte
  terminated : 0 ∉ bytes
  deriving DecidableEq

/-- What ends a computation early: an access outside of a buffer, or `return -1`. -/
inductive Halt where
  | overrun
  | refused
  deriving DecidableEq

/-- `buf[k] = b`. -/
def poke (buf : List Byte) (k : Nat) (b : Byte) : Except Halt (List Byte) :=
  if k < buf.length then .ok (buf.set k b) else .error .overrun

/-- The string a buffer starts with. -/
def stringAt (buf : List Byte) : Except Halt (List Byte) :=
  if 0 ∈ buf then .ok (buf.takeWhile (· ≠ 0)) else .error .overrun

/-- `bs` written from position `k` on, byte by byte. -/
def pokes (buf : List Byte) (k : Nat) : List Byte → Except Halt (List Byte)
  | [] => .ok buf
  | b :: bs => do
    let buf ← poke buf k b
    pokes buf (k + 1) bs

/-- `%d`. -/
def printInt : Int → List Byte
  | .ofNat n => ascii (Nat.toDigits 10 n)
  | .negSucc n => 0x2D :: ascii (Nat.toDigits 10 (n + 1))

/-- `snprintf` of `text` into all of `out`: what it returns, and `out` behind it. A length that is no `int` is an error,
whose text is cut off in the same way. -/
def snprintf (out text : List Byte) : Except Halt (Int × List Byte) := do
  let out ← if out = [] then .ok out else pokes out 0 (text.take (out.length - 1) ++ [0])
  return (if text.length ≤ gMaxInt then text.length else -1, out)

/-! ## The builder -/

/-- The bytes that stay as they are. -/
def isSafe (c : Byte) : Bool :=
  (0x41 ≤ c && c ≤ 0x5A) || (0x61 ≤ c && c ≤ 0x7A) || (0x30 ≤ c && c ≤ 0x39) || c = 0x2D

/-- `hexd`. -/
def hexd (v : Byte) : Byte := if v < 10 then 0x30 + v else 0x41 + (v - 10)

/-- `sizeof(key)`. -/
def keySize : Nat := 768

/-- One turn of the escape loop. -/
def escapeByte (key : List Byte) (k : Nat) (c : Byte) : Except Halt (List Byte × Nat) :=
  if isSafe c then
    if k + 1 ≥ keySize then .error .refused
    else do
      let key ← poke key k c
      return (key, k + 1)
  else
    if k + 3 ≥ keySize then .error .refused
    else do
      let key ← poke key k 0x5F
      let key ← poke key (k + 1) (hexd (c >>> 4 &&& 0xF))
      let key ← poke key (k + 2) (hexd (c &&& 0xF))
      return (key, k + 3)

def escapeLoop (key : List Byte) (k : Nat) : List Byte → Except Halt (List Byte × Nat)
  | [] => .ok (key, k)
  | c :: rest => do
    let r ← escapeByte key k c
    escapeLoop r.1 r.2 rest

def cacheDir : List Byte := ascii ['/', '.', 's', 'p', 's', 'p', 'p', 's']

/-- What is behind the escaped index. -/
def pathSuffix (isH265 width height : Int) : List Byte :=
  ascii ['_'] ++ (if isH265 ≠ 0 then ascii ['h', '2', '6', '5'] else ascii ['h', '2', '6', '4']) ++ ascii ['_'] ++
    printInt width ++ ascii ['x'] ++ printInt height

/-- The text that is printed. `key` is the memory of the local array. -/
def pathText (homeDir : List Byte) (index : Option CString) (isH265 width height : Int) (key : List Byte) :
    Except Halt (List Byte) :=
  match index with
  | none => .ok (homeDir ++ cacheDir)
  | some index => do
    let r ← escapeLoop key 0 index.bytes
    let key ← poke r.1 r.2 0
    let key ← stringAt key
    return homeDir ++ cacheDir ++ ascii ['/'] ++ key ++ pathSuffix isH265 width height

/-- The text is printed; one that is cut off is an error. -/
def printPath (out text : List Byte) : Option (Int × Option (List Byte)) :=
  match snprintf out text with
  | .error _ => none
  | .ok (ret, written) => some (if ret < 0 ∨ ret ≥ out.length then -1 else ret, some written)

/-- `home_dir`, where `NULL` is the empty string. -/
def homeBytes (homeDir : Option CString) : List Byte := (homeDir.map CString.bytes).getD []

/-- `spspps_build_path`: what it returns and `out` behind the call, `none` where it leaves a buffer. `out` has capacity
`outlen`. -/
def spsppsBuildPath (out : Option (List Byte)) (homeDir index : Option CString) (isH265 width height : Int)
    (key : Vector Byte keySize) : Option (Int × Option (List Byte)) :=
  match out with
  | none => some (-1, none)
  | some out =>
    if out = [] then some (-1, some out)
    else
      match pathText (homeBytes homeDir) index isH265 width height key.toList with
      | .error .refused => some (-1, some out)
      | .error .overrun => none
      | .ok text => printPath out text

/-! ## Buffers -/

theorem poke_eq {buf : List Byte} {k : Nat} {b : Byte} (h : k < buf.length) :
    poke buf k b = .ok (overlay buf k [b]) := by
  rw [poke, if_pos h, set_eq_overlay h]

theorem pokes_eq {buf bs : List Byte} {k : Nat} (h : k + bs.length ≤ buf.length) :
    pokes buf k bs = .ok (overlay buf k bs) := by
  induction bs generalizing buf k with
  | nil => rw [overlay_nil]; rfl
  | cons b bs ih =>
    simp only [List.length_cons] at h
    have hb : k + [b].length ≤ buf.length := by simp; omega
    have hi : pokes (overlay buf k [b]) (k + 1) bs = .ok (overlay (overlay buf k [b]) (k + 1) bs) := by
      apply ih
      rw [length_overlay hb]
      omega
    have hj : overlay (overlay buf k [b]) (k + 1) bs = overlay buf k ([b] ++ bs) := overlay_overlay hb
    show (poke buf k b >>= fun buf => pokes buf (k + 1) bs) = _
    rw [poke_eq (by omega)]
    show pokes (overlay buf k [b]) (k + 1) bs = _
    rw [hi, hj]
    rfl

theorem stringAt_append {s rest : List Byte} (h : 0 ∉ s) : stringAt (s ++ 0 :: rest) = .ok s := by
  have hs : ∀ b ∈ s, decide (b ≠ 0) = true := fun b hb => by simpa using fun h0 : b = 0 => h (h0 ▸ hb)
  rw [stringAt, if_pos (by simp), List.takeWhile_append_of_pos hs]
  simp

theorem printPath_eq {out : List Byte} (text : List Byte) (h : out ≠ []) :
    ∃ ret written, printPath out text = some (ret, some written) ∧ written.length = out.length ∧
      (text.length ≤ gMaxInt ∧ text.length < out.length → ret = text.length ∧ ∃ rest, written = text ++ 0 :: rest) ∧
      (¬ (text.length ≤ gMaxInt ∧ text.length < out.length) → ret = -1) := by
  have hpos : 0 < out.length := List.length_pos_iff.mpr h
  have hcut : 0 + (text.take (out.length - 1) ++ [0]).length ≤ out.length := by
    simp only [List.length_append, List.length_take, List.length_singleton]
    omega
  have hprint : snprintf out text = .ok (if text.length ≤ gMaxInt then text.length else -1,
      overlay out 0 (text.take (out.length - 1) ++ [0])) := by
    rw [snprintf, if_neg h, pokes_eq hcut]
    rfl
  rw [printPath, hprint]
  refine ⟨_, _, rfl, length_overlay hcut, fun ⟨hint, hlt⟩ => ?_, fun hno => ?_⟩
  · rw [if_pos hint, if_neg (by omega), List.take_of_length_le (by omega)]
    exact ⟨rfl, _, by simp [overlay]; rfl⟩
  · apply if_pos
    split <;> omega

/-! ## Bytes -/

/-- The bytes a name is made of. -/
def isPlain (b : Byte) : Bool := isSafe b || b = 0x5F

theorem isPlain_ne {b : Byte} (h : isPlain b = true) : b ≠ 0 ∧ b ≠ 0x2F ∧ b ≠ 0x2E := by
  refine ⟨?_, ?_, ?_⟩ <;> rintro rfl <;> exact absurd h (by decide)

theorem hexd_isSafe : ∀ c : Byte, isSafe (hexd (c &&& 0xF)) = true :=
  forall_byte (by decide +kernel)

theorem hexd_ne : ∀ c : Byte, hexd (c &&& 0xF) ≠ 0x68 :=
  forall_byte (by decide +kernel)

/-- The value of an upper-case hexadecimal digit. -/
def unhex (d : Byte) : Byte := if d < 0x41 then d - 0x30 else d - 0x41 + 10

theorem unhex_hexd : ∀ c : Byte, unhex (hexd (c >>> 4 &&& 0xF)) * 16 + unhex (hexd (c &&& 0xF)) = c :=
  forall_byte (by decide +kernel)

/-! ## The escape -/

/-- What the loop writes for one byte. -/
def escapeWord (c : Byte) : List Byte :=
  if isSafe c then [c] else [0x5F, hexd (c >>> 4 &&& 0xF), hexd (c &&& 0xF)]

theorem escapeWord_safe {c : Byte} (h : isSafe c = true) : escapeWord c = [c] := if_pos h

theorem escapeWord_escaped {c : Byte} (h : isSafe c = false) :
    escapeWord c = [0x5F, hexd (c >>> 4 &&& 0xF), hexd (c &&& 0xF)] := by
  rw [escapeWord, h]
  simp

theorem isPlain_of_mem_escapeWord {b c : Byte} (hb : b ∈ escapeWord c) : isPlain b = true := by
  cases h : isSafe c with
  | true =>
    rw [escapeWord_safe h, List.mem_singleton] at hb
    simp [isPlain, hb, h]
  | false =>
    rw [escapeWord_escaped h] at hb
    simp only [List.mem_cons, List.not_mem_nil, or_false] at hb
    rcases hb with rfl | rfl | rfl
    · decide
    · simp [isPlain, hexd_isSafe]
    · simp [isPlain, hexd_isSafe]

/-- `_h`: no word of an escaped byte starts in this way, since a hexadecimal digit is no `h`. -/
def codecMark : List Byte := [0x5F, 0x68]

theorem escape_code : StoppedCode escapeWord codecMark where
  apart := by
    intro a b h
    cases ha : isSafe a with
    | true =>
      cases hb : isSafe b with
      | true =>
        rw [escapeWord_safe ha, escapeWord_safe hb] at h
        simpa using h
      | false =>
        rw [escapeWord_safe ha, escapeWord_escaped hb] at h
        obtain rfl : a = 0x5F := by simpa using h
        exact absurd ha (by decide)
    | false =>
      cases hb : isSafe b with
      | true =>
        rw [escapeWord_escaped ha, escapeWord_safe hb] at h
        exact absurd h.length_le (by simp)
      | false =>
        rw [escapeWord_escaped ha, escapeWord_escaped hb] at h
        have hd : hexd (a >>> 4 &&& 0xF) = hexd (b >>> 4 &&& 0xF) ∧ hexd (a &&& 0xF) = hexd (b &&& 0xF) := by
          simpa using h
        rw [← unhex_hexd a, ← unhex_hexd b, hd.1, hd.2]
  word_stop := by
    intro a h
    cases ha : isSafe a with
    | true =>
      rw [escapeWord_safe ha] at h
      obtain rfl : a = 0x5F := by simpa [codecMark] using h
      exact absurd ha (by decide)
    | false =>
      rw [escapeWord_escaped ha] at h
      exact absurd h.length_le (by simp [codecMark])
  stop_word := by
    intro a h
    cases ha : isSafe a with
    | true =>
      rw [escapeWord_safe ha] at h
      exact absurd h.length_le (by simp [codecMark])
    | false =>
      rw [escapeWord_escaped ha] at h
      have hd : (0x68 : Byte) = hexd (a >>> 4 &&& 0xF) := by simpa [codecMark] using h
      exact hexd_ne _ hd.symm

theorem escapeByte_eq {key : List Byte} {k : Nat} {c : Byte} (hl : key.length = keySize) :
    escapeByte key k c =
      if k + (escapeWord c).length < keySize then
        .ok (overlay key k (escapeWord c), k + (escapeWord c).length)
      else .error .refused := by
  cases h : isSafe c with
  | true =>
    rw [escapeWord_safe h, escapeByte, if_pos h]
    by_cases hk : k + 1 < keySize
    · rw [if_neg (by omega), if_pos (by simpa using hk), poke_eq (by omega)]
      rfl
    · rw [if_pos (by omega), if_neg (by simpa using hk)]
  | false =>
    rw [escapeWord_escaped h, escapeByte, if_neg (by simp [h])]
    by_cases hk : k + 3 < keySize
    · rw [if_neg (by omega), if_pos (by simpa using hk)]
      have hp : pokes key k [0x5F, hexd (c >>> 4 &&& 0xF), hexd (c &&& 0xF)] = _ :=
        pokes_eq (by simp; omega)
      calc _ = pokes key k [0x5F, hexd (c >>> 4 &&& 0xF), hexd (c &&& 0xF)] >>= fun key => .ok (key, k + 3) := by
            simp only [pokes, bind_assoc]
            rfl
        _ = _ := by
            rw [hp]
            rfl
    · rw [if_pos (by omega), if_neg (by simpa using hk)]

/-- The escaped bytes of `index`. -/
def escape (index : List Byte) : List Byte := index.flatMap escapeWord

/-- The loop leaves the escaped bytes in `key`, or gives up where they and the terminator do not fit. -/
theorem escapeLoop_eq {key : List Byte} {k : Nat} {index : List Byte} (hl : key.length = keySize) (hk : k < keySize) :
    escapeLoop key k index =
      if k + (escape index).length < keySize then .ok (overlay key k (escape index), k + (escape index).length)
      else .error .refused := by
  induction index generalizing key k with
  | nil =>
    have hn : escape [] = [] := rfl
    rw [hn, overlay_nil, if_pos (by simpa using hk)]
    rfl
  | cons c rest ih =>
    have hc : escape (c :: rest) = escapeWord c ++ escape rest := rfl
    rw [hc, escapeLoop, escapeByte_eq hl, List.length_append]
    by_cases hw : k + (escapeWord c).length < keySize
    · rw [if_pos hw]
      show escapeLoop (overlay key k (escapeWord c)) (k + (escapeWord c).length) rest = _
      rw [ih (by rw [length_overlay (by omega), hl]) hw, overlay_overlay (by omega), Nat.add_assoc]
    · rw [if_neg hw, if_neg (by omega)]
      rfl

/-! ## Decimals -/

theorem mem_ascii_toDigits {n : Nat} {b : Byte} (hb : b ∈ ascii (Nat.toDigits 10 n)) : 0x30 ≤ b ∧ b ≤ 0x39 := by
  simp only [ascii, List.mem_map] at hb
  obtain ⟨c, hc, rfl⟩ := hb
  have hd := Nat.isDigit_of_mem_toDigits (by decide) (by decide) hc
  have hr : 0x30 ≤ c.toNat ∧ c.toNat ≤ 0x39 := by
    simpa [Char.isDigit, UInt32.le_iff_toNat_le] using hd
  constructor
  · rw [UInt8.le_iff_toNat_le]
    simp
    omega
  · rw [UInt8.le_iff_toNat_le]
    simp
    omega

/-- The characters behind the bytes of a string. -/
theorem chars_ascii {cs : List Char} (h : ∀ c ∈ cs, c.isDigit) :
    (ascii cs).map (fun b => Char.ofNat b.toNat) = cs := by
  induction cs with
  | nil => rfl
  | cons c cs ih =>
    have hc : c.toNat ≤ 0x39 := by
      have hd := h c List.mem_cons_self
      simp only [Char.isDigit, Bool.and_eq_true, decide_eq_true_eq, UInt32.le_iff_toNat_le] at hd
      exact hd.2
    have hb : (UInt8.ofNat c.toNat).toNat = c.toNat := by
      simp
      omega
    rw [ascii, List.map_cons, List.map_cons, hb, Char.ofNat_toNat]
    congr 1
    exact ih fun d hd => h d (List.mem_cons_of_mem c hd)

theorem ascii_toDigits_inj {m n : Nat} (h : ascii (Nat.toDigits 10 m) = ascii (Nat.toDigits 10 n)) : m = n := by
  have hd : ∀ k, ∀ c ∈ Nat.toDigits 10 k, c.isDigit := fun k c hc =>
    Nat.isDigit_of_mem_toDigits (by decide) (by decide) hc
  have hm : Nat.toDigits 10 m = Nat.toDigits 10 n := by
    rw [← chars_ascii (hd m), h, chars_ascii (hd n)]
  have hback : ∀ k, Nat.ofDigitChars 10 (Nat.toDigits 10 k) 0 = k := fun k =>
    Nat.ofDigitChars_toDigits (by decide) (by decide)
  rw [← hback m, hm, hback n]

theorem mem_printInt {n : Int} {b : Byte} (hb : b ∈ printInt n) : b = 0x2D ∨ 0x30 ≤ b ∧ b ≤ 0x39 := by
  cases n with
  | ofNat n => exact .inr (mem_ascii_toDigits hb)
  | negSucc n =>
    rcases List.mem_cons.mp hb with rfl | hb
    · exact .inl rfl
    · exact .inr (mem_ascii_toDigits hb)

theorem minus_notMem_digits (n : Nat) : (0x2D : Byte) ∉ ascii (Nat.toDigits 10 n) := by
  intro h
  exact absurd (mem_ascii_toDigits h).1 (by decide)

theorem printInt_inj {m n : Int} (h : printInt m = printInt n) : m = n := by
  cases m with
  | ofNat m =>
    cases n with
    | ofNat n => rw [ascii_toDigits_inj h]
    | negSucc n =>
      have hd : (0x2D : Byte) ∈ ascii (Nat.toDigits 10 m) := by
        show _ ∈ printInt (.ofNat m)
        rw [h]
        exact List.mem_cons_self
      exact absurd hd (minus_notMem_digits m)
  | negSucc m =>
    cases n with
    | ofNat n =>
      have hd : (0x2D : Byte) ∈ ascii (Nat.toDigits 10 n) := by
        show _ ∈ printInt (.ofNat n)
        rw [← h]
        exact List.mem_cons_self
      exact absurd hd (minus_notMem_digits n)
    | negSucc n =>
      have hs : m + 1 = n + 1 := ascii_toDigits_inj (List.cons.inj h).2
      rw [Nat.succ.inj hs]

theorem isPlain_of_mem_printInt {n : Int} {b : Byte} (hb : b ∈ printInt n) : isPlain b = true := by
  rcases mem_printInt hb with rfl | ⟨h₁, h₂⟩
  · decide
  · simp [isPlain, isSafe, h₁, h₂]

/-! ## The name -/

/-- The name of a file. -/
def cacheName (index : List Byte) (isH265 width height : Int) : List Byte := escape index ++ pathSuffix isH265 width height

theorem isPlain_of_mem_cacheName {index : List Byte} {isH265 width height : Int} {b : Byte}
    (hb : b ∈ cacheName index isH265 width height) : isPlain b = true := by
  have hlit : ∀ cs, (ascii cs).all isPlain = true → b ∈ ascii cs → isPlain b = true :=
    fun cs hall hmem => List.all_eq_true.mp hall b hmem
  simp only [cacheName, pathSuffix, escape, List.mem_append, List.mem_flatMap] at hb
  rcases hb with ⟨c, _, hb⟩ | ((((hb | hb) | hb) | hb) | hb) | hb
  · exact isPlain_of_mem_escapeWord hb
  · exact hlit ['_'] (by decide) hb
  · split at hb
    · exact hlit ['h', '2', '6', '5'] (by decide) hb
    · exact hlit ['h', '2', '6', '4'] (by decide) hb
  · exact hlit ['_'] (by decide) hb
  · exact isPlain_of_mem_printInt hb
  · exact hlit ['x'] (by decide) hb
  · exact isPlain_of_mem_printInt hb

theorem escape_terminated (index : List Byte) : 0 ∉ escape index := by
  intro h
  obtain ⟨c, _, hb⟩ := List.mem_flatMap.mp h
  exact (isPlain_ne (isPlain_of_mem_escapeWord hb)).1 rfl

/-- The suffix starts with the mark behind which only the codec, the width and the height are left. -/
theorem pathSuffix_eq (isH265 width height : Int) :
    pathSuffix isH265 width height =
      codecMark ++ ([0x32, 0x36, if isH265 ≠ 0 then 0x35 else 0x34, 0x5F] ++ (printInt width ++ 0x78 :: printInt height)) := by
  unfold pathSuffix
  split <;> simp [ascii, codecMark]

theorem x_notMem_printInt (n : Int) : (0x78 : Byte) ∉ printInt n := by
  intro h
  rcases mem_printInt h with h | ⟨_, h⟩ <;> exact absurd h (by decide)

/-- **The key.** A name determines the index, the codec and the size. -/
theorem cacheName_inj {index index' : List Byte} {isH265 isH265' width width' height height' : Int}
    (h : cacheName index isH265 width height = cacheName index' isH265' width' height') :
    index = index' ∧ (isH265 ≠ 0 ↔ isH265' ≠ 0) ∧ width = width' ∧ height = height' := by
  rw [cacheName, cacheName, pathSuffix_eq, pathSuffix_eq] at h
  obtain ⟨hi, hrest⟩ := escape_code.decode h
  obtain ⟨hcodec, hsize⟩ := List.append_inj hrest rfl
  have hc : (if isH265 ≠ 0 then 0x35 else 0x34 : Byte) = if isH265' ≠ 0 then 0x35 else 0x34 := by simpa using hcodec
  obtain ⟨hw, -, hh⟩ := (List.append_cons_inj_of_notMem (x_notMem_printInt width) (x_notMem_printInt height)).mp hsize
  refine ⟨hi, ?_, printInt_inj hw, printInt_inj hh⟩
  by_cases h₁ : isH265 = 0 <;> by_cases h₂ : isH265' = 0 <;> simp [h₁, h₂] at hc ⊢

/-! ## The path -/

/-- The path of the file `name` in the cache directory below `home`. -/
def cachePath (home name : List Byte) : List Byte := home ++ cacheDir ++ ascii ['/'] ++ name

/-- The text is the path of the name, unless the escaped index does not fit. -/
theorem pathText_eq {home : List Byte} {index : CString} {isH265 width height : Int} {key : List Byte}
    (hl : key.length = keySize) :
    pathText home (some index) isH265 width height key =
      if (escape index.bytes).length < keySize then .ok (cachePath home (cacheName index.bytes isH265 width height))
      else .error .refused := by
  have hloop : escapeLoop key 0 index.bytes = _ := escapeLoop_eq hl (by decide)
  rw [Nat.zero_add] at hloop
  by_cases hfit : (escape index.bytes).length < keySize
  · rw [if_pos hfit] at hloop ⊢
    have hlen : (overlay key 0 (escape index.bytes)).length = keySize := by rw [length_overlay (by omega), hl]
    have hpoke : poke (overlay key 0 (escape index.bytes)) (escape index.bytes).length 0 =
        .ok (overlay key 0 (escape index.bytes ++ [0])) := by
      have hj : overlay (overlay key 0 (escape index.bytes)) (0 + (escape index.bytes).length) [0] = _ :=
        overlay_overlay (by omega)
      rw [Nat.zero_add] at hj
      rw [poke_eq (by omega), hj]
    have hstr : stringAt (overlay key 0 (escape index.bytes ++ [0])) = .ok (escape index.bytes) := by
      have hs : stringAt (escape index.bytes ++ 0 :: key.drop (escape index.bytes ++ [0]).length) = _ :=
        stringAt_append (escape_terminated index.bytes)
      simpa [overlay] using hs
    rw [pathText, hloop]
    show (poke (overlay key 0 (escape index.bytes)) (escape index.bytes).length 0 >>= fun key => _) = _
    rw [hpoke]
    show (stringAt (overlay key 0 (escape index.bytes ++ [0])) >>= fun key => _) = _
    rw [hstr]
    simp only [cachePath, cacheName, List.append_assoc]
    rfl
  · rw [if_neg hfit] at hloop ⊢
    rw [pathText, hloop]
    rfl

theorem homeBytes_terminated (homeDir : Option CString) : 0 ∉ homeBytes homeDir := by
  cases homeDir with
  | none => exact List.not_mem_nil
  | some home => exact home.terminated

theorem cachePath_terminated (homeDir : Option CString) (index : CString) (isH265 width height : Int) :
    0 ∉ cachePath (homeBytes homeDir) (cacheName index.bytes isH265 width height) := by
  simp only [cachePath, List.mem_append, not_or]
  refine ⟨⟨⟨homeBytes_terminated homeDir, by decide⟩, by decide⟩, fun h => ?_⟩
  exact (isPlain_ne (isPlain_of_mem_cacheName h)).1 rfl

/-- The escaped index and the path fit. -/
def PathFits (out : Option (List Byte)) (index : CString) (path : List Byte) : Prop :=
  (escape index.bytes).length < keySize ∧ path.length ≤ gMaxInt ∧ ∃ buf, out = some buf ∧ path.length < buf.length

/-- **One call.** It stays in its buffers, writes the path where it fits, and returns -1 where it does not. -/
theorem spsppsBuildPath_eq (out : Option (List Byte)) (homeDir : Option CString) (index : CString)
    (isH265 width height : Int) (key : Vector Byte keySize) :
    ∃ ret out', spsppsBuildPath out homeDir (some index) isH265 width height key = some (ret, out') ∧
      out'.map List.length = out.map List.length ∧
      (PathFits out index (cachePath (homeBytes homeDir) (cacheName index.bytes isH265 width height)) →
        ret = (cachePath (homeBytes homeDir) (cacheName index.bytes isH265 width height)).length ∧
        ∃ rest, out' = some (cachePath (homeBytes homeDir) (cacheName index.bytes isH265 width height) ++ 0 :: rest)) ∧
      (¬ PathFits out index (cachePath (homeBytes homeDir) (cacheName index.bytes isH265 width height)) → ret = -1) := by
  set path := cachePath (homeBytes homeDir) (cacheName index.bytes isH265 width height) with hpath
  cases out with
  | none => exact ⟨-1, none, rfl, rfl, fun ⟨_, _, _, h, _⟩ => by simp at h, fun _ => rfl⟩
  | some buf =>
    simp only [spsppsBuildPath]
    by_cases hbuf : buf = []
    · subst hbuf
      refine ⟨-1, some [], rfl, rfl, fun ⟨_, _, buf, h, hlt⟩ => ?_, fun _ => rfl⟩
      obtain rfl := Option.some.inj h
      exact absurd hlt (by simp)
    · rw [if_neg hbuf, pathText_eq (by simp), ← hpath]
      by_cases hesc : (escape index.bytes).length < keySize
      · rw [if_pos hesc]
        obtain ⟨ret, written, hprint, hlen, hfull, hcut⟩ := printPath_eq path hbuf
        refine ⟨ret, some written, hprint, by simpa using hlen, fun ⟨_, hint, buf', h, hlt⟩ => ?_, fun hno => ?_⟩
        · obtain rfl := Option.some.inj h
          obtain ⟨hret, rest, hrest⟩ := hfull ⟨hint, hlt⟩
          exact ⟨hret, rest, by rw [hrest]⟩
        · exact hcut fun ⟨hint, hlt⟩ => hno ⟨hesc, hint, buf, rfl, hlt⟩
      · rw [if_neg hesc]
        exact ⟨-1, some buf, rfl, rfl, fun ⟨h, _⟩ => absurd h hesc, fun _ => rfl⟩

/-- The path a successful call reports: the string in `out` behind it. -/
def reportedPath : Option (Int × Option (List Byte)) → Option (List Byte)
  | some (ret, some buf) => if ret = -1 then none else (stringAt buf).toOption
  | _ => none

theorem reportedPath_eq {out : Option (List Byte)} {homeDir : Option CString} {index : CString}
    {isH265 width height : Int} {key : Vector Byte keySize} {path : List Byte}
    (h : reportedPath (spsppsBuildPath out homeDir (some index) isH265 width height key) = some path) :
    path = cachePath (homeBytes homeDir) (cacheName index.bytes isH265 width height) := by
  obtain ⟨ret, out', hcall, _, hfits, hno⟩ := spsppsBuildPath_eq out homeDir index isH265 width height key
  by_cases hf : PathFits out index (cachePath (homeBytes homeDir) (cacheName index.bytes isH265 width height))
  · obtain ⟨rfl, rest, rfl⟩ := hfits hf
    rw [hcall, reportedPath, if_neg (by omega), stringAt_append (cachePath_terminated homeDir index isH265 width height)] at h
    exact (Option.some.inj h).symm
  · rw [hcall, hno hf] at h
    cases out' <;> simp [reportedPath] at h

theorem key_of_reportedPath {out out' : Option (List Byte)} {homeDir : Option CString} {index index' : CString}
    {isH265 isH265' width width' height height' : Int} {key key' : Vector Byte keySize} {path : List Byte}
    (h : reportedPath (spsppsBuildPath out homeDir (some index) isH265 width height key) = some path)
    (h' : reportedPath (spsppsBuildPath out' homeDir (some index') isH265' width' height' key') = some path) :
    index = index' ∧ (isH265 ≠ 0 ↔ isH265' ≠ 0) ∧ width = width' ∧ height = height' := by
  have hpath := (reportedPath_eq h).symm.trans (reportedPath_eq h')
  obtain ⟨hindex, hcodec, hw, hh⟩ := cacheName_inj (List.append_cancel_left hpath)
  refine ⟨?_, hcodec, hw, hh⟩
  cases index
  cases index'
  simpa using hindex

/-- **The cache path.** A call stays in `key` and `out`; it returns -1 or leaves all of `home/.spspps/NAME` in `out`,
where the name has no slash and no dot; and for one home two calls report one path for one key only. -/
theorem spspps_build_path_keyed (homeDir : Option CString) :
    (∀ (out : Option (List Byte)) (index : CString) (isH265 width height : Int) (key : Vector Byte keySize),
      ∃ ret out', spsppsBuildPath out homeDir (some index) isH265 width height key = some (ret, out') ∧
        out'.map List.length = out.map List.length ∧
        (ret = -1 ∨ ∃ name rest, out' = some (cachePath (homeBytes homeDir) name ++ 0 :: rest) ∧
          ret = (cachePath (homeBytes homeDir) name).length ∧ 0 ∉ cachePath (homeBytes homeDir) name ∧
          0x2F ∉ name ∧ 0x2E ∉ name)) ∧
    (∀ (out out' : Option (List Byte)) (index index' : CString) (isH265 isH265' width width' height height' : Int)
      (key key' : Vector Byte keySize) (path : List Byte),
      reportedPath (spsppsBuildPath out homeDir (some index) isH265 width height key) = some path →
      reportedPath (spsppsBuildPath out' homeDir (some index') isH265' width' height' key') = some path →
      index = index' ∧ (isH265 ≠ 0 ↔ isH265' ≠ 0) ∧ width = width' ∧ height = height') := by
  constructor
  · intro out index isH265 width height key
    obtain ⟨ret, out', hcall, hlen, hfits, hno⟩ := spsppsBuildPath_eq out homeDir index isH265 width height key
    refine ⟨ret, out', hcall, hlen, ?_⟩
    by_cases hf : PathFits out index (cachePath (homeBytes homeDir) (cacheName index.bytes isH265 width height))
    · obtain ⟨hret, rest, hout⟩ := hfits hf
      refine .inr ⟨_, rest, hout, hret, cachePath_terminated homeDir index isH265 width height, fun h => ?_, fun h => ?_⟩
      · exact (isPlain_ne (isPlain_of_mem_cacheName h)).2.1 rfl
      · exact (isPlain_ne (isPlain_of_mem_cacheName h)).2.2 rfl
    · exact .inl (hno hf)
  · intro out out' index index' isH265 isH265' width width' height height' key key' path h h'
    exact key_of_reportedPath h h'

/-- The index `a/b` at 640 by -1. -/
theorem spspps_build_path_keyed_slash :
    reportedPath (spsppsBuildPath (some (List.replicate 40 7)) (some ⟨ascii ['h'], by decide⟩)
      (some ⟨ascii ['a', '/', 'b'], by decide⟩) 2 640 (-1) (Vector.replicate keySize 9)) =
      some (ascii ['h', '/', '.', 's', 'p', 's', 'p', 'p', 's', '/', 'a', '_', '2', 'F', 'b', '_', 'h', '2', '6', '5', '_',
        '6', '4', '0', 'x', '-', '1']) ∧
    ∀ (out : Option (List Byte)) (index : CString) (isH265 width height : Int) (key : Vector Byte keySize),
      reportedPath (spsppsBuildPath out (some ⟨ascii ['h'], by decide⟩) (some index) isH265 width height key) =
        some (ascii ['h', '/', '.', 's', 'p', 's', 'p', 'p', 's', '/', 'a', '_', '2', 'F', 'b', '_', 'h', '2', '6', '5',
          '_', '6', '4', '0', 'x', '-', '1']) →
      index = ⟨ascii ['a', '/', 'b'], by decide⟩ ∧ width = 640 := by
  have hcall : reportedPath (spsppsBuildPath (some (List.replicate 40 7)) (some ⟨ascii ['h'], by decide⟩)
      (some ⟨ascii ['a', '/', 'b'], by decide⟩) 2 640 (-1) (Vector.replicate keySize 9)) =
      some (ascii ['h', '/', '.', 's', 'p', 's', 'p', 'p', 's', '/', 'a', '_', '2', 'F', 'b', '_', 'h', '2', '6', '5', '_',
        '6', '4', '0', 'x', '-', '1']) := by
    decide +kernel
  refine ⟨hcall, fun out index isH265 width height key h => ?_⟩
  obtain ⟨hi, -, hw, -⟩ := (spspps_build_path_keyed (some ⟨ascii ['h'], by decide⟩)).2 _ _ _ _ _ _ _ _ _ _ _ _ _ h hcall
  exact ⟨hi, hw⟩

/-! ## The file of a key -/

/-- `get_spspps_path`: the file of a key, in `dir_buf`. -/
def getSpsppsPath (dirBuf : List Byte) (homeDir : Option CString) (key : SpsppsKey) (hkey : 0 ∉ key.index)
    (scratch : Vector Byte keySize) : Option (List Byte) :=
  reportedPath (spsppsBuildPath (some dirBuf) homeDir (if key.haveIndex then some ⟨key.index, hkey⟩ else none)
    (if key.isH265 then 1 else 0) key.width key.height scratch)

/-- Keys of instances with an index have files of their own. -/
theorem getSpsppsPath_inj {dirBuf dirBuf' : List Byte} {homeDir : Option CString} {key key' : SpsppsKey}
    {hkey : 0 ∉ key.index} {hkey' : 0 ∉ key'.index} {scratch scratch' : Vector Byte keySize} {path : List Byte}
    (hi : key.haveIndex = true) (hi' : key'.haveIndex = true)
    (h : getSpsppsPath dirBuf homeDir key hkey scratch = some path)
    (h' : getSpsppsPath dirBuf' homeDir key' hkey' scratch' = some path) : key = key' := by
  rw [getSpsppsPath, if_pos hi] at h
  rw [getSpsppsPath, if_pos hi'] at h'
  obtain ⟨hindex, hcodec, hw, hh⟩ := key_of_reportedPath h h'
  cases key with
  | mk index haveIndex isH265 width height =>
    cases key' with
    | mk index' haveIndex' isH265' width' height' =>
      cases isH265 <;> cases isH265' <;> simp_all

end LibuvcH264Src
