import Aether.Rust.Text

/-! What is decoded is what was encoded.

`decodeChar` takes a character from the front of a byte string, or skips an invalid
sequence. A character it takes is there in its own encoding (`encode_of_decodeChar`), so
that a byte string is read as a text exactly if it is the encoding of one, and the bytes
of ASCII in it stand for themselves: a text read with `from_utf8_lossy` is cut at them
where its bytes are. -/
namespace Aether.Rust

/-! ### One character -/

theorem isContinuation_range {b : UInt8} (h : isContinuation b = true) : 128 ≤ b.toNat ∧ b.toNat < 192 := by
  have hall : ∀ n < 256, isContinuation (UInt8.ofNat n) = true → 128 ≤ n ∧ n < 192 := by decide +kernel
  rw [← UInt8.ofNat_toNat (x := b)] at h
  exact hall _ b.toNat_lt h

/-- A second byte is a continuation byte, in a smaller range after some first ones. -/
theorem isSecond_range {lead b : UInt8} (h : isSecond lead b = true) :
    128 ≤ b.toNat ∧ b.toNat < 192 ∧ (lead.toNat = 224 → 160 ≤ b.toNat) ∧ (lead.toNat = 237 → b.toNat < 160) ∧
      (lead.toNat = 240 → 144 ≤ b.toNat) ∧ (lead.toNat = 244 → b.toNat < 144) := by
  have hlead (n : UInt8) : (lead == n) = true ↔ lead.toNat = n.toNat := by rw [beq_iff_eq, UInt8.toNat_inj]
  have hrange (low high : UInt8) : (decide (low ≤ b) && decide (b ≤ high)) = true ↔
      low.toNat ≤ b.toNat ∧ b.toNat ≤ high.toNat := by
    simp only [Bool.and_eq_true, decide_eq_true_eq, UInt8.le_iff_toNat_le]
  simp only [isSecond, hlead] at h
  split_ifs at h
  case neg =>
    have hcont := isContinuation_range h
    simp only [UInt8.reduceToNat] at *
    omega
  all_goals
    rw [hrange] at h
    simp only [UInt8.reduceToNat] at *
    omega

theorem mask_two (b : UInt8) : (b &&& 0x1F).toNat = b.toNat % 32 := by
  rw [UInt8.toNat_and]
  exact Nat.and_two_pow_sub_one_eq_mod b.toNat 5

theorem mask_three (b : UInt8) : (b &&& 0x0F).toNat = b.toNat % 16 := by
  rw [UInt8.toNat_and]
  exact Nat.and_two_pow_sub_one_eq_mod b.toNat 4

theorem mask_four (b : UInt8) : (b &&& 0x07).toNat = b.toNat % 8 := by
  rw [UInt8.toNat_and]
  exact Nat.and_two_pow_sub_one_eq_mod b.toNat 3

theorem continued_eq (n : Nat) (b : UInt8) : continued n b = n * 64 + b.toNat % 64 := by
  rw [continued, UInt8.toNat_and]
  exact congrArg (n * 64 + ·) (Nat.and_two_pow_sub_one_eq_mod b.toNat 6)

theorem val_ofNat {v : Nat} (h : v < 0xD800 ∨ 0xDFFF < v ∧ v < 0x110000) : (Char.ofNat v).val.toNat = v := by
  have hvalid : v.isValidChar := h
  rw [Char.ofNat, dif_pos hvalid]
  rfl

theorem byte_eq {n : Nat} {b : UInt8} (h : n = b.toNat) : UInt8.ofNat n = b := by
  rw [h, UInt8.ofNat_toNat]

theorem encode_one {l : UInt8} (hl : l.toNat < 128) : String.utf8EncodeChar (Char.ofNat l.toNat) = [l] := by
  rw [String.utf8EncodeChar, val_ofNat (by omega)]
  rw [if_pos (by omega), byte_eq rfl]

theorem encode_two {l b : UInt8} (hl : 194 ≤ l.toNat ∧ l.toNat ≤ 223) (hb : 128 ≤ b.toNat ∧ b.toNat < 192) :
    String.utf8EncodeChar (Char.ofNat (continued (l &&& 0x1F).toNat b)) = [l, b] := by
  rw [continued_eq, mask_two]
  generalize hv : l.toNat % 32 * 64 + b.toNat % 64 = v
  rw [String.utf8EncodeChar, val_ofNat (by omega)]
  rw [if_neg (by omega), if_pos (by omega), byte_eq (b := l) (by omega), byte_eq (b := b) (by omega)]

theorem encode_three {l b d : UInt8} (hl : 224 ≤ l.toNat ∧ l.toNat ≤ 239) (hb : 128 ≤ b.toNat ∧ b.toNat < 192)
    (hlow : l.toNat = 224 → 160 ≤ b.toNat) (hhigh : l.toNat = 237 → b.toNat < 160)
    (hd : 128 ≤ d.toNat ∧ d.toNat < 192) :
    String.utf8EncodeChar (Char.ofNat (continued (continued (l &&& 0x0F).toNat b) d)) = [l, b, d] := by
  rw [continued_eq, continued_eq, mask_three]
  generalize hv : (l.toNat % 16 * 64 + b.toNat % 64) * 64 + d.toNat % 64 = v
  rw [String.utf8EncodeChar, val_ofNat (by omega)]
  rw [if_neg (by omega), if_neg (by omega), if_pos (by omega), byte_eq (b := l) (by omega),
    byte_eq (b := b) (by omega), byte_eq (b := d) (by omega)]

theorem encode_four {l b d e : UInt8} (hl : 240 ≤ l.toNat ∧ l.toNat ≤ 244) (hb : 128 ≤ b.toNat ∧ b.toNat < 192)
    (hlow : l.toNat = 240 → 144 ≤ b.toNat) (hhigh : l.toNat = 244 → b.toNat < 144)
    (hd : 128 ≤ d.toNat ∧ d.toNat < 192) (he : 128 ≤ e.toNat ∧ e.toNat < 192) :
    String.utf8EncodeChar (Char.ofNat (continued (continued (continued (l &&& 0x07).toNat b) d) e)) = [l, b, d, e] := by
  rw [continued_eq, continued_eq, continued_eq, mask_four]
  generalize hv : ((l.toNat % 8 * 64 + b.toNat % 64) * 64 + d.toNat % 64) * 64 + e.toNat % 64 = v
  rw [String.utf8EncodeChar, val_ofNat (by omega)]
  rw [if_neg (by omega), if_neg (by omega), if_neg (by omega), byte_eq (b := l) (by omega),
    byte_eq (b := b) (by omega), byte_eq (b := d) (by omega), byte_eq (b := e) (by omega)]

/-- A character that is read stands there in its encoding. -/
theorem encode_of_decodeChar {lead : UInt8} {bytes rest : List UInt8} {c : Char}
    (h : decodeChar lead bytes = (some c, rest)) : lead :: bytes = String.utf8EncodeChar c ++ rest := by
  have hrange {low high : UInt8} (h : (decide (low ≤ lead) && decide (lead ≤ high)) = true) :
      low.toNat ≤ lead.toNat ∧ lead.toNat ≤ high.toNat := by
    simpa only [Bool.and_eq_true, decide_eq_true_eq, UInt8.le_iff_toNat_le] using h
  revert h
  fun_cases decodeChar lead bytes
  case case1 hone =>
    intro h
    cases h
    rw [encode_one (UInt8.lt_iff_toNat_lt.mp hone)]
    rfl
  case case2 htwo b rest hcont =>
    intro h
    cases h
    rw [encode_two (hrange htwo) (isContinuation_range hcont)]
    rfl
  case case5 hthree b hsecond d rest hcont =>
    intro h
    cases h
    obtain ⟨hb, hb', hlow, hhigh, -⟩ := isSecond_range hsecond
    rw [encode_three (hrange hthree) ⟨hb, hb'⟩ hlow hhigh (isContinuation_range hcont)]
    rfl
  case case10 hfour b hsecond d hcont e rest hlast =>
    intro h
    cases h
    obtain ⟨hb, hb', -, -, hlow, hhigh⟩ := isSecond_range hsecond
    rw [encode_four (hrange hfour) ⟨hb, hb'⟩ hlow hhigh (isContinuation_range hcont) (isContinuation_range hlast)]
    rfl
  all_goals
    intro h
    cases h

/-- What is read over with a character is no ASCII. -/
theorem decodeChar_skips (lead : UInt8) (bytes : List UInt8) :
    ∃ skipped, bytes = skipped ++ (decodeChar lead bytes).2 ∧ ∀ b ∈ skipped, 128 ≤ b.toNat := by
  have hhigh : ∀ b ∈ bytes.takeWhile (128 ≤ ·.toNat), 128 ≤ b.toNat := by
    intro b hb
    exact of_decide_eq_true (List.mem_takeWhile_imp (p := fun b : UInt8 => 128 ≤ b.toNat) hb)
  have hcut := List.takeWhile_append_dropWhile (p := (128 ≤ ·.toNat)) (l := bytes)
  cases hrest : bytes.dropWhile (128 ≤ ·.toNat) with
  | nil =>
    obtain ⟨skipped, hskipped⟩ := decodeChar_suffix lead bytes
    refine ⟨skipped, hskipped.symm, fun b hb => hhigh b ?_⟩
    rw [hrest, List.append_nil] at hcut
    rw [hcut, ← hskipped]
    exact List.mem_append_left _ hb
  | cons a ys =>
    have ha : a < 0x80 := by
      have hnot := List.head?_dropWhile_not (128 ≤ ·.toNat) bytes
      rw [hrest] at hnot
      rw [UInt8.lt_iff_toNat_lt]
      exact Nat.not_le.mp (of_decide_eq_false (by simpa using hnot))
    obtain ⟨skipped, hskipped⟩ := decodeChar_suffix lead (bytes.takeWhile (128 ≤ ·.toNat))
    refine ⟨skipped, ?_, fun b hb => hhigh b ?_⟩
    · rw [hrest] at hcut
      rw [← hcut, decodeChar_append ha, ← List.append_assoc, hskipped]
    · rw [← hskipped]
      exact List.mem_append_left _ hb

/-- A character of ASCII is a byte of its own. -/
theorem decodeChar_ascii {lead : UInt8} {bytes rest : List UInt8} {c : Char}
    (h : decodeChar lead bytes = (some c, rest))
    (hc : c.toNat < 128) : lead.toNat = c.toNat := by
  have hencode := encode_of_decodeChar h
  have hbyte : String.utf8EncodeChar c = [UInt8.ofNat c.toNat] := by
    have hval : c.val.toNat ≤ 0x7f := Nat.le_of_lt_succ hc
    rw [String.utf8EncodeChar, if_pos hval]
    rfl
  rw [hbyte, List.singleton_append] at hencode
  rw [(List.cons.inj hencode).1, UInt8.toNat_ofNat', Nat.mod_eq_of_lt (by omega)]

/-! ### A text of ASCII bytes and others -/

theorem lossyChars_low {b : UInt8} (hb : b.toNat < 128) (bytes : List UInt8) :
    lossyChars (b :: bytes) = Char.ofNat b.toNat :: lossyChars bytes :=
  lossyChars_append (UInt8.lt_iff_toNat_lt.mpr hb) [] bytes

/-- A byte that is no ASCII is read with some more of them as one character that is none. -/
theorem lossyChars_high {b : UInt8} (hb : 128 ≤ b.toNat) (bytes : List UInt8) :
    ∃ c skipped rest, lossyChars (b :: bytes) = c :: lossyChars rest ∧ bytes = skipped ++ rest ∧ 128 ≤ c.toNat ∧
      ∀ s ∈ skipped, 128 ≤ s.toNat := by
  obtain ⟨skipped, hbytes, hskipped⟩ := decodeChar_skips b bytes
  refine ⟨_, skipped, _, lossyChars_cons b bytes, hbytes, ?_, hskipped⟩
  cases hchar : (decodeChar b bytes).1 with
  | none => decide
  | some c =>
    by_contra hlow
    have hascii := decodeChar_ascii (Prod.ext hchar rfl : decodeChar b bytes = (some c, _)) (Nat.not_le.mp hlow)
    rw [hascii] at hb
    exact hlow hb

/-- A text is read byte by byte of ASCII, and piece by piece of the rest. -/
theorem lossyChars_induction {motive : List UInt8 → List Char → Prop} (nil : motive [] [])
    (low : ∀ b bytes, b.toNat < 128 → motive bytes (lossyChars bytes) →
      motive (b :: bytes) (Char.ofNat b.toNat :: lossyChars bytes))
    (high : ∀ (skipped : List UInt8) rest c, (∀ s ∈ skipped, 128 ≤ s.toNat) → 128 ≤ c.toNat →
      motive rest (lossyChars rest) → motive (skipped ++ rest) (c :: lossyChars rest))
    (bytes : List UInt8) : motive bytes (lossyChars bytes) := by
  induction hn : bytes.length using Nat.strong_induction_on generalizing bytes with
  | _ n ih =>
    cases bytes with
    | nil => exact nil
    | cons b bytes =>
      rw [List.length_cons] at hn
      by_cases hb : b.toNat < 128
      · rw [lossyChars_low hb]
        exact low b bytes hb (ih _ (by omega) bytes rfl)
      · obtain ⟨c, skipped, rest, hchars, rfl, hc, hskipped⟩ := lossyChars_high (Nat.not_lt.mp hb) bytes
        rw [List.length_append] at hn
        rw [hchars, ← List.cons_append]
        refine high (b :: skipped) rest c ?_ hc (ih _ (by omega) rest rfl)
        intro s hs
        obtain rfl | hs := List.mem_cons.mp hs
        · exact Nat.not_lt.mp hb
        · exact hskipped s hs

theorem ofNat_inj {a b : UInt8} (ha : a.toNat < 128) (hb : b.toNat < 128)
    (h : Char.ofNat a.toNat = Char.ofNat b.toNat) : a = b := by
  have hval := congrArg (·.val.toNat) h
  rw [val_ofNat (by omega), val_ofNat (by omega)] at hval
  exact UInt8.toNat_inj.mp hval

theorem ne_ofNat {a : UInt8} {c : Char} (ha : a.toNat < 128) (hc : 128 ≤ c.toNat) : c ≠ Char.ofNat a.toNat := by
  intro h
  have hval := congrArg (·.val.toNat) h
  rw [val_ofNat (by omega)] at hval
  exact absurd hc (by rw [Char.toNat, hval]; omega)

/-- The bytes of ASCII are those that the text has. -/
theorem mem_lossyChars_iff {a : UInt8} (ha : a.toNat < 128) (bytes : List UInt8) :
    Char.ofNat a.toNat ∈ lossyChars bytes ↔ a ∈ bytes := by
  refine lossyChars_induction (motive := fun bytes chars => Char.ofNat a.toNat ∈ chars ↔ a ∈ bytes) ?_ ?_ ?_ bytes
  · simp
  · intro b bytes hb ih
    rw [List.mem_cons, List.mem_cons, ih]
    exact or_congr ⟨ofNat_inj ha hb, fun h => congrArg _ (congrArg _ h)⟩ Iff.rfl
  · intro skipped rest c hskipped hc ih
    have hnot : a ∉ skipped := fun hmem => absurd (hskipped a hmem) (by omega)
    rw [List.mem_cons, List.mem_append, ih, or_iff_right hnot, or_iff_right (ne_ofNat ha hc).symm]

/-! ### Cut at a word -/

/-- A list before and after the first place where a word stands in it. -/
def cutAt {α : Type} [BEq α] (word : List α) : List α → Option (List α × List α)
  | [] => if word.isEmpty then some ([], []) else none
  | x :: xs =>
    if word.isPrefixOf (x :: xs) then some ([], (x :: xs).drop word.length)
    else (cutAt word xs).map fun (before, after) => (x :: before, after)

/-- `str::split_once` with a text. -/
def splitOnceStr (word s : String) : Option (String × String) :=
  (cutAt word.toList s.toList).map fun (before, after) => (String.ofList before, String.ofList after)

section
variable {α : Type} [BEq α] [LawfulBEq α] {word : List α}

theorem cutAt_eq_some {xs before after : List α} (h : cutAt word xs = some (before, after)) :
    xs = before ++ word ++ after := by
  induction xs generalizing before with
  | nil =>
    rw [cutAt] at h
    split at h
    case isTrue hword =>
      obtain ⟨rfl, rfl⟩ := Prod.mk.inj (Option.some.inj h)
      rw [List.isEmpty_iff.mp hword]
      rfl
    case isFalse => cases h
  | cons x xs ih =>
    rw [cutAt] at h
    split at h
    case isTrue hword =>
      obtain ⟨rfl, rfl⟩ := Prod.mk.inj (Option.some.inj h)
      exact (List.prefix_iff_eq_append.mp (List.isPrefixOf_iff_prefix.mp hword)).symm
    case isFalse =>
      obtain ⟨⟨before', after'⟩, hcut, hpair⟩ := Option.map_eq_some_iff.mp h
      obtain ⟨rfl, rfl⟩ := Prod.mk.inj hpair
      rw [ih hcut]
      rfl

/-- Where the first letter of the word is not, the word is not. -/
theorem cutAt_skip {a : α} {xs : List α} (h : a ∉ xs) (ys : List α) :
    cutAt (a :: word) (xs ++ ys) = (cutAt (a :: word) ys).map fun (before, after) => (xs ++ before, after) := by
  induction xs with
  | nil => simp
  | cons x xs ih =>
    rw [List.mem_cons, not_or] at h
    have hpre : ¬ (a :: word).isPrefixOf (x :: (xs ++ ys)) = true := by
      rw [List.isPrefixOf_iff_prefix, List.cons_prefix_cons]
      exact fun hpre => h.1 hpre.1
    rw [List.cons_append, cutAt, if_neg hpre, ih h.2, Option.map_map]
    rfl

end

/-- The word of the bytes, in a text. -/
def asciiWord (word : List UInt8) : List Char := word.map fun a => Char.ofNat a.toNat

theorem lossyChars_ascii_append {word : List UInt8} (hword : ∀ a ∈ word, a.toNat < 128) (bytes : List UInt8) :
    lossyChars (word ++ bytes) = asciiWord word ++ lossyChars bytes := by
  induction word with
  | nil => rfl
  | cons a word ih =>
    rw [List.cons_append, lossyChars_low (hword a (List.mem_cons_self ..)),
      ih fun b hb => hword b (List.mem_cons_of_mem _ hb)]
    rfl

theorem lossyChars_around {word : List UInt8} (hne : word ≠ []) (hword : ∀ a ∈ word, a.toNat < 128)
    (before after : List UInt8) :
    lossyChars (before ++ word ++ after) = lossyChars before ++ asciiWord word ++ lossyChars after := by
  obtain ⟨a, rest, rfl⟩ := List.exists_cons_of_ne_nil hne
  have ha := hword a (List.mem_cons_self ..)
  rw [List.append_assoc, List.cons_append, lossyChars_append (UInt8.lt_iff_toNat_lt.mpr ha),
    lossyChars_ascii_append fun b hb => hword b (List.mem_cons_of_mem _ hb), List.append_assoc]
  rfl

/-- A word of ASCII begins the text exactly if it begins the bytes. -/
theorem asciiWord_prefix_iff {word : List UInt8} (hword : ∀ a ∈ word, a.toNat < 128) (bytes : List UInt8) :
    asciiWord word <+: lossyChars bytes ↔ word <+: bytes := by
  induction word generalizing bytes with
  | nil => exact ⟨fun _ => List.nil_prefix, fun _ => List.nil_prefix⟩
  | cons a word ih =>
    have ha := hword a (List.mem_cons_self ..)
    have hrest := ih fun b hb => hword b (List.mem_cons_of_mem _ hb)
    cases bytes with
    | nil =>
      refine ⟨fun h => absurd (List.prefix_nil.mp h) ?_, fun h => absurd (List.prefix_nil.mp h) ?_⟩
      · simp [asciiWord]
      · simp
    | cons b bytes =>
      by_cases hb : b.toNat < 128
      · rw [lossyChars_low hb, asciiWord, List.map_cons, List.cons_prefix_cons, List.cons_prefix_cons]
        exact and_congr ⟨ofNat_inj ha hb, fun h => congrArg _ (congrArg _ h)⟩ (hrest bytes)
      · obtain ⟨c, skipped, rest, hchars, -, hc, -⟩ := lossyChars_high (Nat.not_lt.mp hb) bytes
        rw [hchars, asciiWord, List.map_cons, List.cons_prefix_cons, List.cons_prefix_cons]
        refine ⟨fun h => absurd h.1.symm (ne_ofNat ha hc), fun h => absurd ha ?_⟩
        rw [h.1]
        exact hb

theorem cutAt_after {word : List UInt8} (hne : word ≠ []) (hword : ∀ a ∈ word, a.toNat < 128) (bytes : List UInt8) :
    (cutAt (asciiWord word) (lossyChars bytes)).map Prod.snd = (cutAt word bytes).map fun cut => lossyChars cut.2 := by
  obtain ⟨a, tail, rfl⟩ := List.exists_cons_of_ne_nil hne
  have ha := hword a (List.mem_cons_self ..)
  refine lossyChars_induction (motive := fun bytes chars => (cutAt (asciiWord (a :: tail)) chars).map Prod.snd =
    (cutAt (a :: tail) bytes).map fun cut => lossyChars cut.2) rfl ?_ ?_ bytes
  · intro b bytes hb ih
    have hpre : (asciiWord (a :: tail)).isPrefixOf (Char.ofNat b.toNat :: lossyChars bytes) = true ↔
        (a :: tail).isPrefixOf (b :: bytes) = true := by
      rw [← lossyChars_low hb, List.isPrefixOf_iff_prefix, List.isPrefixOf_iff_prefix]
      exact asciiWord_prefix_iff hword (b :: bytes)
    rw [cutAt, cutAt]
    by_cases h : (a :: tail).isPrefixOf (b :: bytes) = true
    · rw [if_pos h, if_pos (hpre.mpr h)]
      obtain ⟨rest, hrest⟩ := List.isPrefixOf_iff_prefix.mp h
      have hbytes : (b :: bytes).drop (a :: tail).length = rest := by rw [← hrest, List.drop_left]
      have hchars : (lossyChars (b :: bytes)).drop (asciiWord (a :: tail)).length = lossyChars rest := by
        rw [← hrest, lossyChars_ascii_append hword, List.drop_left]
      rw [← lossyChars_low hb, hchars, hbytes]
      rfl
    · rw [if_neg h, if_neg fun h' => h (hpre.mp h'), Option.map_map, Option.map_map]
      exact ih
  · intro skipped rest c hskipped hc ih
    have hnot : a ∉ skipped := fun hmem => absurd (hskipped a hmem) (by omega)
    have hchar : Char.ofNat a.toNat ∉ [c] := by simpa using (ne_ofNat ha hc).symm
    have hchars : cutAt (asciiWord (a :: tail)) (c :: lossyChars rest) =
        (cutAt (asciiWord (a :: tail)) (lossyChars rest)).map fun (before, after) => (c :: before, after) :=
      cutAt_skip hchar (lossyChars rest)
    rw [cutAt_skip hnot, hchars, Option.map_map, Option.map_map]
    exact ih

/-- A text is cut at a word of ASCII where its bytes are. -/
theorem cutAt_lossyChars {word : List UInt8} (hne : word ≠ []) (hword : ∀ a ∈ word, a.toNat < 128)
    (bytes : List UInt8) :
    cutAt (asciiWord word) (lossyChars bytes) =
      (cutAt word bytes).map fun (before, after) => (lossyChars before, lossyChars after) := by
  have hafter := cutAt_after hne hword bytes
  cases hbytes : cutAt word bytes with
  | none =>
    rw [hbytes] at hafter
    exact Option.map_eq_none_iff.mp hafter
  | some cut =>
    rw [hbytes] at hafter
    obtain ⟨⟨before, after⟩, htext, hsame⟩ := Option.map_eq_some_iff.mp hafter
    have hchars := cutAt_eq_some htext
    dsimp only at hsame
    rw [cutAt_eq_some hbytes, lossyChars_around hne hword, hsame] at hchars
    have hbefore := List.append_cancel_right (List.append_cancel_right hchars)
    rw [htext, hsame, ← hbefore]
    rfl

/-! ### What is read whole -/

theorem flatMap_of_mapM {fuel : Nat} {bytes : List UInt8} {cs : List Char} (hfuel : bytes.length ≤ fuel)
    (h : (decodeUtf8 fuel bytes).mapM id = some cs) : bytes = cs.flatMap String.utf8EncodeChar := by
  induction fuel generalizing bytes cs with
  | zero =>
    obtain rfl := List.length_eq_zero_iff.mp (Nat.le_zero.mp hfuel)
    cases h
    rfl
  | succ fuel ih =>
    cases bytes with
    | nil =>
      cases h
      rfl
    | cons b bytes =>
      have hrest := (decodeChar_suffix b bytes).length_le
      rw [List.length_cons] at hfuel
      rw [decodeUtf8, List.mapM_cons] at h
      obtain ⟨c, hc, h⟩ := Option.bind_eq_some_iff.mp h
      obtain ⟨cs', hcs, h⟩ := Option.bind_eq_some_iff.mp h
      cases h
      rw [List.flatMap_cons, ← ih (by omega) hcs]
      exact encode_of_decodeChar (Prod.ext hc rfl)

/-- A byte string is a text exactly if it is the encoding of one. -/
theorem fromUtf8_eq_some {bytes : List UInt8} {s : String} : fromUtf8 bytes = some s ↔ bytes = toUtf8 s := by
  refine ⟨fun h => ?_, fun h => by rw [h, fromUtf8_toUtf8]⟩
  obtain ⟨cs, hcs, rfl⟩ := Option.map_eq_some_iff.mp h
  rw [toUtf8, String.toList_ofList]
  exact flatMap_of_mapM (Nat.le_refl _) hcs

/-- Read with replacements and written again, a byte string is the same exactly if there was
nothing to replace. -/
theorem toUtf8_fromUtf8Lossy_iff (bytes : List UInt8) :
    toUtf8 (fromUtf8Lossy bytes) = bytes ↔ (fromUtf8 bytes).isSome := by
  constructor
  · intro h
    rw [← h, fromUtf8_toUtf8]
    rfl
  · intro h
    obtain ⟨s, hs⟩ := Option.isSome_iff_exists.mp h
    rw [fromUtf8_eq_some.mp hs, fromUtf8Lossy_toUtf8]

/-- `str::as_bytes`, as the runtime stores the text. -/
theorem toList_toUTF8 (s : String) : s.toUTF8.toList = toUtf8 s := by
  have hloop (bytes : ByteArray) (i : Nat) (read : List UInt8) :
      ByteArray.toList.loop bytes i read = read.reverse ++ bytes.data.toList.drop i := by
    induction hn : bytes.size - i generalizing i read with
    | zero =>
      have hend : bytes.data.toList.length ≤ i := by
        have hsize : bytes.data.toList.length = bytes.size := rfl
        omega
      rw [ByteArray.toList.loop, if_neg (by omega), List.drop_eq_nil_of_le hend, List.append_nil]
    | succ n ih =>
      have hi : i < bytes.data.toList.length := by
        have hsize : bytes.data.toList.length = bytes.size := rfl
        omega
      have hget : bytes.get! i = bytes.data.toList[i] := by
        show bytes.data[i]! = _
        rw [getElem!_pos bytes.data i hi]
        rfl
      rw [ByteArray.toList.loop, if_pos (by omega), ih _ _ (by omega), hget, List.reverse_cons, List.append_assoc,
        List.drop_eq_getElem_cons hi]
      rfl
  have hbytes : s.toUTF8.data.toList = toUtf8 s := by
    show s.toByteArray.data.toList = _
    rw [← String.utf8Encode_toList, List.utf8Encode, List.toList_data_toByteArray, toUtf8]
  rw [ByteArray.toList, hloop, hbytes]
  rfl

/-- Where nothing was replaced, the bytes are those of the text. -/
theorem eq_of_no_replacement {bytes : List UInt8} (h : Char.ofNat 0xFFFD ∉ lossyChars bytes) :
    bytes = (lossyChars bytes).flatMap String.utf8EncodeChar := by
  induction hn : bytes.length using Nat.strong_induction_on generalizing bytes with
  | _ n ih =>
    cases bytes with
    | nil => rfl
    | cons b bytes =>
      have hrest := (decodeChar_suffix b bytes).length_le
      rw [List.length_cons] at hn
      rw [lossyChars_cons, List.mem_cons, not_or] at h
      rw [lossyChars_cons, List.flatMap_cons]
      cases hchar : (decodeChar b bytes).1 with
      | none =>
        rw [hchar] at h
        exact absurd rfl h.1
      | some c =>
        rw [Option.getD_some, ← ih _ (by omega) h.2 rfl]
        exact encode_of_decodeChar (Prod.ext hchar rfl)

theorem lossyChars_flatMap_append (cs : List Char) (bytes : List UInt8) :
    lossyChars (cs.flatMap String.utf8EncodeChar ++ bytes) = cs ++ lossyChars bytes := by
  induction cs with
  | nil => rfl
  | cons c cs ih => rw [List.flatMap_cons, List.append_assoc, lossyChars_utf8EncodeChar, ih, List.cons_append]

end Aether.Rust
