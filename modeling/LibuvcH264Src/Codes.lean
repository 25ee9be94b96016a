import Mathlib.Data.List.Infix
import Mathlib.Data.List.Basic
import Mathlib.Tactic

/-!
# Codes with a stop

A text of code words over letters, with a stop behind it and anything behind the stop.

* `StoppedCode code stop` : no word starts another one, and no word and the stop start each other;
* `StoppedCode.decode` : letters and rest are determined by the text;
* `Overlay` : bytes put into a buffer at a place (`overlay_overlay` joins two that are neighbours).
-/

namespace Codes
variable {α β : Type*}

/-! ## Decoding -/

/-- The words of `code` are told apart from each other and from `stop` by what they start with. -/
structure StoppedCode (code : α → List β) (stop : List β) : Prop where
  apart : ∀ {a b}, code a <+: code b → a = b
  word_stop : ∀ a, ¬ code a <+: stop
  stop_word : ∀ a, ¬ stop <+: code a

variable {code : α → List β} {stop : List β}

theorem StoppedCode.head (h : StoppedCode code stop) {a b : α} {x y : List β}
    (he : code a ++ x = code b ++ y) : a = b := by
  have ha : code a <+: code b ++ y := ⟨x, he⟩
  have hb : code b <+: code b ++ y := List.prefix_append _ _
  rcases List.prefix_or_prefix_of_prefix ha hb with hp | hp
  · exact h.apart hp
  · exact (h.apart hp).symm

theorem StoppedCode.no_word (h : StoppedCode code stop) {a : α} {x y : List β} :
    code a ++ x ≠ stop ++ y := by
  intro he
  have ha : code a <+: stop ++ y := ⟨x, he⟩
  have hs : stop <+: stop ++ y := List.prefix_append _ _
  rcases List.prefix_or_prefix_of_prefix ha hs with hp | hp
  · exact h.word_stop a hp
  · exact h.stop_word a hp

/-- **Unique decoding.** What the words spell and what is behind the stop are determined. -/
theorem StoppedCode.decode (h : StoppedCode code stop) {l m : List α} {x y : List β}
    (he : l.flatMap code ++ (stop ++ x) = m.flatMap code ++ (stop ++ y)) : l = m ∧ x = y := by
  induction l generalizing m with
  | nil =>
    cases m with
    | nil => exact ⟨rfl, by simpa using he⟩
    | cons b m =>
      rw [List.flatMap_cons, List.append_assoc] at he
      exact absurd he.symm h.no_word
  | cons a l ih =>
    cases m with
    | nil =>
      rw [List.flatMap_cons, List.append_assoc] at he
      exact absurd he h.no_word
    | cons b m =>
      rw [List.flatMap_cons, List.flatMap_cons, List.append_assoc, List.append_assoc] at he
      obtain rfl := h.head he
      obtain ⟨rfl, hxy⟩ := ih (List.append_cancel_left he)
      exact ⟨rfl, hxy⟩

/-! ## Writing into a buffer -/

/-- `buf` with `bs` in it from position `k` on. -/
def overlay (buf : List β) (k : Nat) (bs : List β) : List β := buf.take k ++ bs ++ buf.drop (k + bs.length)

theorem overlay_nil (buf : List β) (k : Nat) : overlay buf k [] = buf := by simp [overlay]

theorem length_overlay {buf bs : List β} {k : Nat} (h : k + bs.length ≤ buf.length) :
    (overlay buf k bs).length = buf.length := by
  simp only [overlay, List.length_append, List.length_take, List.length_drop]
  omega

theorem overlay_overlay {buf as bs : List β} {k : Nat} (h : k + as.length ≤ buf.length) :
    overlay (overlay buf k as) (k + as.length) bs = overlay buf k (as ++ bs) := by
  have ht : (overlay buf k as).take (k + as.length) = buf.take k ++ as := by
    apply List.take_left'
    simp
    omega
  have hd : (overlay buf k as).drop (k + as.length + bs.length) = buf.drop (k + (as ++ bs).length) := by
    rw [overlay, ← List.drop_drop, List.drop_left', List.drop_drop]
    · simp [Nat.add_assoc]
    · simp
      omega
  rw [overlay, ht, hd, overlay]
  simp

theorem set_eq_overlay {buf : List β} {k : Nat} {b : β} (h : k < buf.length) : buf.set k b = overlay buf k [b] := by
  rw [List.set_eq_take_append_cons_drop, if_pos h, overlay]
  simp

end Codes
