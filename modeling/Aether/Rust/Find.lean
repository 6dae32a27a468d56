import Aether.Rust.Utf8

/-! Where a word stands in a text.

`cutAt` cuts a text at the first place of a word and `cutAtLast` at the last one. A word of
which no end is a beginning (`Unbordered`) cannot stand half in itself, so a place of it is
the first or the last one as soon as the word is not in what stands on that side of it. -/
namespace Aether.Rust

/-- `rfind`, with what stands in front of the word and behind it. -/
def cutAtLast {α : Type} [BEq α] (word xs : List α) : Option (List α × List α) :=
  (cutAt word.reverse xs.reverse).map fun parts => (parts.2.reverse, parts.1.reverse)

/-- No end of the word is a beginning of it, but for the whole word. -/
def Unbordered {α : Type} (word : List α) : Prop := ∀ n < word.length, word.drop n <+: word → n = 0

instance {α : Type} [DecidableEq α] (word : List α) : Decidable (Unbordered word) :=
  inferInstanceAs (Decidable (∀ n < word.length, word.drop n <+: word → n = 0))

section
variable {α : Type} {word : List α}

theorem Unbordered.reverse (h : Unbordered word) : Unbordered word.reverse := by
  intro n hn hpre
  rw [List.length_reverse] at hn
  rw [List.drop_reverse, List.reverse_prefix, List.suffix_iff_eq_drop, List.length_take_of_le (by omega)] at hpre
  apply h n hn
  have hback : word.length - (word.length - n) = n := by omega
  rw [hback] at hpre
  rw [← hpre]
  exact List.take_prefix _ _

/-- In front of a word only what contains the word begins with it. -/
theorem Unbordered.infix_of_prefix (h : Unbordered word) {front : List α} (hfront : front ≠ []) (back : List α)
    (hpre : word <+: front ++ (word ++ back)) : word <:+: front := by
  by_cases hlen : word.length ≤ front.length
  · exact (List.prefix_of_prefix_length_le hpre (List.prefix_append ..) hlen).isInfix
  · obtain ⟨rest, hrest⟩ := List.prefix_of_prefix_length_le (List.prefix_append front (word ++ back)) hpre (by omega)
    have hdrop : word.drop front.length = rest := by rw [← hrest, List.drop_left]
    rw [← hrest, List.prefix_append_right_inj, hrest] at hpre
    have hborder : word.drop front.length <+: word := by
      rw [hdrop]
      apply List.prefix_of_prefix_length_le hpre (List.prefix_append ..)
      rw [← hdrop, List.length_drop]
      omega
    exact absurd (h _ (by omega) hborder) (by simpa using hfront)

end

section
variable {α : Type} [BEq α] [LawfulBEq α] {word : List α}

theorem cutAt_first (h : Unbordered word) (hne : word ≠ []) {front : List α} (hfree : ¬ word <:+: front)
    (back : List α) : cutAt word (front ++ (word ++ back)) = some (front, back) := by
  induction front with
  | nil =>
    cases word with
    | nil => exact absurd rfl hne
    | cons a word =>
      have hpre : (a :: word).isPrefixOf (a :: (word ++ back)) = true := by
        rw [List.isPrefixOf_iff_prefix]
        exact List.prefix_append (a :: word) back
      rw [List.nil_append, List.cons_append, cutAt, if_pos hpre, ← List.cons_append, List.drop_left]
  | cons x front ih =>
    have hpre : ¬ word.isPrefixOf (x :: (front ++ (word ++ back))) = true := by
      rw [List.isPrefixOf_iff_prefix]
      exact fun hpre => hfree (h.infix_of_prefix (List.cons_ne_nil x front) back hpre)
    rw [List.cons_append, cutAt, if_neg hpre, ih fun hin => hfree (hin.trans (List.suffix_cons x front).isInfix)]
    rfl

theorem cutAtLast_last (h : Unbordered word) (hne : word ≠ []) {back : List α} (hfree : ¬ word <:+: back)
    (front : List α) : cutAtLast word (front ++ (word ++ back)) = some (front, back) := by
  have hword : word.reverse ≠ [] := by simpa using hne
  have hback : ¬ word.reverse <:+: back.reverse := by simpa using hfree
  have hcut := cutAt_first h.reverse hword hback front.reverse
  rw [cutAtLast, List.reverse_append, List.reverse_append, List.append_assoc, hcut, Option.map_some,
    List.reverse_reverse, List.reverse_reverse]

/-! ### Single marks -/

theorem cutAt_missing {a : α} {xs : List α} (h : a ∉ xs) : cutAt [a] xs = none := by
  have hskip : cutAt [a] (xs ++ []) = none := cutAt_skip h []
  rwa [List.append_nil] at hskip

theorem cutAt_singleton {a : α} {front : List α} (h : a ∉ front) (back : List α) :
    cutAt [a] (front ++ a :: back) = some (front, back) := by
  have hpre : [a].isPrefixOf (a :: back) = true := List.isPrefixOf_iff_prefix.mpr (List.prefix_append [a] back)
  rw [cutAt_skip h, cutAt, if_pos hpre]
  exact congrArg (fun before => some (before, back)) (List.append_nil front)

end

end Aether.Rust
