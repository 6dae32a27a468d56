import Aether.Rust.Text

/-! White space around a text. -/
namespace Aether.Rust

/-- The marks of ASCII that can be seen are no white space. -/
theorem isWhitespace_of_visible {c : Char} (h : 33 ≤ c.toNat ∧ c.toNat ≤ 126) : isWhitespace c = false := by
  obtain ⟨hlo, hhi⟩ := h
  rw [isWhitespace]
  simp only [Bool.or_eq_false_iff, Bool.and_eq_false_iff, decide_eq_false_iff_not, beq_eq_false_iff_ne]
  omega

theorem isWhitespace_of_isDigit {c : Char} (h : c.isDigit = true) : isWhitespace c = false := by
  have hbounds : 48 ≤ c.toNat ∧ c.toNat ≤ 57 := by
    simp only [Char.isDigit, Bool.and_eq_true, decide_eq_true_eq, UInt32.le_iff_toNat_le] at h
    exact h
  apply isWhitespace_of_visible
  omega

theorem trim_cons {c : Char} (hc : isWhitespace c = true) (cs : List Char) :
    trim (String.ofList (c :: cs)) = trim (String.ofList cs) := by
  rw [trim, trim, String.toList_ofList, String.toList_ofList, List.dropWhile_cons_of_pos hc]

theorem trim_concat {c : Char} (hc : isWhitespace c = true) (cs : List Char) :
    trim (String.ofList (cs ++ [c])) = trim (String.ofList cs) := by
  rw [trim, trim, String.toList_ofList, String.toList_ofList, List.dropWhile_append]
  split
  case isTrue hall =>
    rw [List.isEmpty_iff.mp hall, List.dropWhile_cons_of_pos hc]
    rfl
  case isFalse => rw [List.rdropWhile_concat_pos _ _ _ hc]

theorem trim_blank_append {bs : List Char} (h : ∀ c ∈ bs, isWhitespace c = true) (cs : List Char) :
    trim (String.ofList (bs ++ cs)) = trim (String.ofList cs) := by
  induction bs with
  | nil => rfl
  | cons b bs ih =>
    rw [List.cons_append, trim_cons (h b (List.mem_cons_self ..)), ih fun c hc => h c (List.mem_cons_of_mem _ hc)]

theorem trim_append_blank {bs : List Char} (h : ∀ c ∈ bs, isWhitespace c = true) (cs : List Char) :
    trim (String.ofList (cs ++ bs)) = trim (String.ofList cs) := by
  induction bs using List.reverseRecOn with
  | nil => rw [List.append_nil]
  | append_singleton bs b ih =>
    rw [← List.append_assoc, trim_concat (h b (by simp)), ih fun c hc => h c (List.mem_append_left _ hc)]

/-- A text that is trimmed to nothing is white space. -/
theorem blank_of_trim {s : String} (h : (trim s).isEmpty = true) : ∀ c ∈ s.toList, isWhitespace c = true := by
  have htrim := congrArg String.toList (String.isEmpty_iff.mp h)
  rw [trim, String.toList_ofList] at htrim
  have hinner := List.rdropWhile_eq_nil_iff.mp htrim
  apply List.dropWhile_eq_nil_iff.mp
  by_contra hne
  -- the first character that is left is no blank
  obtain ⟨c, cs, hcs⟩ := List.exists_cons_of_ne_nil hne
  have hnot := List.head?_dropWhile_not isWhitespace s.toList
  rw [hcs] at hnot hinner
  have hblank := hinner c (List.mem_cons_self ..)
  simp [hblank] at hnot

/-! ### What stays -/

/-- What is left begins with what is not dropped. -/
theorem head_dropWhile {α : Type} {p : α → Bool} {xs rest : List α} {x : α} (h : xs.dropWhile p = x :: rest) :
    p x = false := by
  have hne : xs.dropWhile p ≠ [] := by rw [h]; exact List.cons_ne_nil _ _
  have hhead := List.head_dropWhile_not p hne
  simpa only [h, List.head_cons] using hhead

section
variable {α : Type} {p : α → Bool}

/-- What is dropped at the end of a part is dropped at the end of the whole. -/
theorem rdropWhile_append {t : List α} (h : ∀ c ∈ t, p c = true) (s : List α) :
    (s ++ t).rdropWhile p = s.rdropWhile p := by
  have hrev : ∀ c ∈ t.reverse, p c = true := fun c hc => h c (List.mem_reverse.mp hc)
  rw [List.rdropWhile, List.reverse_append, List.dropWhile_append_of_pos hrev, List.rdropWhile]

/-- Nothing is dropped in front of what is not. -/
theorem rdropWhile_append_cons {y : α} (hy : p y = false) (xs ys : List α) :
    (xs ++ y :: ys).rdropWhile p = xs ++ y :: ys.rdropWhile p := by
  have hy' : ¬ p y = true := by rw [hy]; exact Bool.false_ne_true
  induction ys using List.reverseRecOn with
  | nil => rw [List.rdropWhile_concat_neg _ _ _ hy', List.rdropWhile_nil]
  | append_singleton ys z ih =>
    rw [← List.cons_append, ← List.append_assoc]
    by_cases hz : p z = true
    · rw [List.rdropWhile_concat_pos _ _ _ hz, List.rdropWhile_concat_pos _ _ _ hz, ih]
    · rw [List.rdropWhile_concat_neg _ _ _ hz, List.rdropWhile_concat_neg _ _ _ hz, List.append_assoc, List.cons_append]

end

/-- No character that is seen is trimmed off. -/
theorem mem_trim {s : String} {c : Char} (hc : c ∈ s.toList) (hblank : isWhitespace c = false) :
    c ∈ (trim s).toList := by
  have hfront : c ∈ s.toList.dropWhile isWhitespace := by
    rw [← List.takeWhile_append_dropWhile (p := isWhitespace) (l := s.toList)] at hc
    rcases List.mem_append.mp hc with hc | hc
    · rw [List.mem_takeWhile_imp hc] at hblank
      cases hblank
    · exact hc
  rw [trim, String.toList_ofList]
  rw [← @List.rdropWhile_append_rtakeWhile _ isWhitespace (s.toList.dropWhile _)] at hfront
  rcases List.mem_append.mp hfront with hc | hc
  · exact hc
  · rw [List.mem_rtakeWhile_imp hc] at hblank
    cases hblank

/-- No other character is taken off. -/
theorem mem_trimEndMatches {s : String} {c d : Char} (hc : c ∈ s.toList) (hne : c ≠ d) :
    c ∈ (trimEndMatches d s).toList := by
  obtain ⟨n, hs, -⟩ := exists_trimEndMatches d s
  rw [hs] at hc
  rcases List.mem_append.mp hc with hc | hc
  · exact hc
  · exact absurd (List.eq_of_mem_replicate hc) hne

end Aether.Rust
