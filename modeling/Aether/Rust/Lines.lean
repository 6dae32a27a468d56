import Aether.Rust.Utf8

/-! Lines that end in two marks.

`cutLines` cuts a list at every place where the two marks of a line end follow each other, as
`str::split` does with a text of two characters. The lines of a part of a list are the
lines of the list up to the one that the part ends in (`cutLines_append`). -/
namespace Aether.Rust

section
variable {α : Type} [BEq α]

/-- `split("\r\n")`, of any two marks. -/
def cutLines (cr lf : α) : List α → List (List α)
  | [] => [[]]
  | [x] => [[x]]
  | x :: y :: xs =>
    if x == cr && y == lf then [] :: cutLines cr lf xs
    else (cutLines cr lf (y :: xs)).modifyHead (x :: ·)

/-- What stands before the first line end. -/
def lineOf (cr lf : α) (xs : List α) : List α := ((cutAt [cr, lf] xs).map (·.1)).getD xs

theorem cutAt_single {cr lf : α} (x : α) : cutAt [cr, lf] [x] = none := by
  have hpre : [cr, lf].isPrefixOf [x] = false := by
    rw [List.isPrefixOf_cons_cons]
    exact Bool.and_false _
  rw [cutAt, hpre]
  rfl

end

section
variable {α : Type} [BEq α] [LawfulBEq α] {cr lf : α}

theorem cutAt_pair (x y : α) (xs : List α) :
    cutAt [cr, lf] (x :: y :: xs) =
      if x == cr && y == lf then some ([], xs)
      else (cutAt [cr, lf] (y :: xs)).map fun (before, after) => (x :: before, after) := by
  have hpre : [cr, lf].isPrefixOf (x :: y :: xs) = (x == cr && y == lf) := by
    rw [List.isPrefixOf_cons_cons, List.isPrefixOf_cons_cons, List.isPrefixOf_nil_left, Bool.and_true,
      BEq.comm (a := cr), BEq.comm (a := lf)]
  rw [cutAt, hpre]
  rfl

theorem cutLines_eq (xs : List α) :
    cutLines cr lf xs =
      match cutAt [cr, lf] xs with
      | none => [xs]
      | some (before, after) => before :: cutLines cr lf after := by
  induction xs using cutLines.induct cr lf with
  | case1 => rfl
  | case2 x =>
    rw [cutAt_single]
    rfl
  | case3 x y xs h => rw [cutAt_pair, if_pos h, cutLines, if_pos h]
  | case4 x y xs h ih =>
    rw [cutAt_pair, if_neg h, cutLines, if_neg h, ih]
    cases cutAt [cr, lf] (y :: xs) with
    | none => rfl
    | some cut => rfl

/-- The first line end of a part is the first of the whole. -/
theorem cutAt_append {xs before after : List α} (h : cutAt [cr, lf] xs = some (before, after)) (ys : List α) :
    cutAt [cr, lf] (xs ++ ys) = some (before, after ++ ys) := by
  induction xs using cutLines.induct cr lf generalizing before after with
  | case1 => cases h
  | case2 x =>
    rw [cutAt_single] at h
    cases h
  | case3 x y xs hend =>
    rw [cutAt_pair, if_pos hend] at h
    cases h
    rw [List.cons_append, List.cons_append, cutAt_pair, if_pos hend]
  | case4 x y xs hend ih =>
    rw [cutAt_pair, if_neg hend] at h
    obtain ⟨⟨before', after'⟩, hcut, hsame⟩ := Option.map_eq_some_iff.mp h
    cases hsame
    rw [List.cons_append, List.cons_append, cutAt_pair, if_neg hend, ← List.cons_append, ih hcut]
    rfl

/-- A mark that is in no line end. -/
theorem cutAt_mark {x : α} (hcr : x ≠ cr) (ys : List α) :
    cutAt [cr, lf] (x :: ys) = (cutAt [cr, lf] ys).map fun (before, after) => (x :: before, after) := by
  have hpre : [cr, lf].isPrefixOf (x :: ys) = false := by
    rw [List.isPrefixOf_cons_cons, beq_eq_false_iff_ne.mpr hcr.symm, Bool.false_and]
  rw [cutAt, hpre]
  rfl

theorem cutAt_behind {x : α} (hcr : x ≠ cr) (hlf : x ≠ lf) {xs : List α} (h : cutAt [cr, lf] xs = none) (ys : List α) :
    cutAt [cr, lf] (xs ++ x :: ys) =
      (cutAt [cr, lf] ys).map fun (before, after) => (xs ++ x :: before, after) := by
  induction xs using cutLines.induct cr lf with
  | case1 => exact cutAt_mark hcr ys
  | case2 y =>
    have hend : ¬ (y == cr && x == lf) = true := by
      rw [Bool.and_eq_true, beq_iff_eq, beq_iff_eq]
      exact fun hend => hlf hend.2
    rw [List.singleton_append, cutAt_pair, if_neg hend, cutAt_mark hcr, Option.map_map]
    rfl
  | case3 y z xs hend =>
    rw [cutAt_pair, if_pos hend] at h
    cases h
  | case4 y z xs hend ih =>
    rw [cutAt_pair, if_neg hend, Option.map_eq_none_iff] at h
    rw [List.cons_append, List.cons_append, cutAt_pair, if_neg hend, ← List.cons_append, ih h, Option.map_map]
    rfl

theorem cutLines_of_none {xs : List α} (h : cutAt [cr, lf] xs = none) : cutLines cr lf xs = [xs] := by
  rw [cutLines_eq, h]

theorem cutLines_head (xs : List α) : ∃ more, cutLines cr lf xs = lineOf cr lf xs :: more := by
  rw [cutLines_eq, lineOf]
  cases cutAt [cr, lf] xs with
  | none => exact ⟨[], rfl⟩
  | some cut => exact ⟨cutLines cr lf cut.2, rfl⟩

/-- A line goes on with the list, unless the part ends between the two marks. -/
theorem lineOf_append {xs : List α} (h : cutAt [cr, lf] xs = none) (ys : List α) :
    (∃ more, lineOf cr lf (xs ++ ys) = xs ++ more) ∨ xs = lineOf cr lf (xs ++ ys) ++ [cr] := by
  induction xs using cutLines.induct cr lf with
  | case1 => exact .inl ⟨lineOf cr lf ys, rfl⟩
  | case2 x =>
    cases ys with
    | nil => exact .inl ⟨[], by rw [List.append_nil, lineOf, h]; rfl⟩
    | cons y ys =>
      by_cases hend : (x == cr && y == lf) = true
      · right
        obtain ⟨hx, -⟩ := Bool.and_eq_true_iff.mp hend
        rw [List.singleton_append, lineOf, cutAt_pair, if_pos hend, eq_of_beq hx]
        rfl
      · left
        refine ⟨lineOf cr lf (y :: ys), ?_⟩
        rw [List.singleton_append, lineOf, cutAt_pair, if_neg hend, lineOf]
        cases cutAt [cr, lf] (y :: ys) <;> rfl
  | case3 x y xs hend =>
    rw [cutAt_pair, if_pos hend] at h
    cases h
  | case4 x y xs hend ih =>
    rw [cutAt_pair, if_neg hend, Option.map_eq_none_iff] at h
    have hline : lineOf cr lf (x :: (y :: xs ++ ys)) = x :: lineOf cr lf (y :: xs ++ ys) := by
      rw [lineOf, List.cons_append, cutAt_pair, if_neg hend, lineOf]
      cases cutAt [cr, lf] (y :: (xs ++ ys)) <;> rfl
    rcases ih h with ⟨more, hmore⟩ | hcr
    · exact .inl ⟨more, by rw [List.cons_append, hline, hmore]; rfl⟩
    · right
      rw [List.cons_append, hline, List.cons_append, ← hcr]

/-- A part of a list ends in a line that the list may go on with. -/
theorem cutLines_append (xs ys : List α) :
    ∃ whole last, cutLines cr lf xs = whole ++ [last] ∧ cutAt [cr, lf] last = none ∧
      cutLines cr lf (xs ++ ys) = whole ++ cutLines cr lf (last ++ ys) := by
  induction hn : xs.length using Nat.strong_induction_on generalizing xs with
  | _ n ih =>
    cases hcut : cutAt [cr, lf] xs with
    | none => exact ⟨[], xs, cutLines_of_none hcut, hcut, rfl⟩
    | some cut =>
      obtain ⟨before, after⟩ := cut
      have hlength := congrArg List.length (cutAt_eq_some hcut)
      simp only [List.length_append, List.length_cons, List.length_nil] at hlength
      obtain ⟨whole, last, hlines, hlast, hmore⟩ := ih after.length (by omega) after rfl
      refine ⟨before :: whole, last, ?_, hlast, ?_⟩
      · rw [cutLines_eq, hcut]
        exact congrArg (before :: ·) hlines
      · rw [cutLines_eq, cutAt_append hcut]
        exact congrArg (before :: ·) hmore

end

/-- What stands before the first mark is free of it. -/
theorem notMem_of_cutAt {α : Type} [BEq α] [LawfulBEq α] {a : α} {xs before after : List α}
    (h : cutAt [a] xs = some (before, after)) : a ∉ before := by
  induction xs generalizing before with
  | nil => cases h
  | cons x xs ih =>
    rw [cutAt] at h
    split at h
    case isTrue =>
      cases h
      exact List.not_mem_nil
    case isFalse hpre =>
      obtain ⟨⟨before', after'⟩, hcut, hsame⟩ := Option.map_eq_some_iff.mp h
      cases hsame
      have hx : a ≠ x := by simpa [List.isPrefixOf] using hpre
      rw [List.mem_cons, not_or]
      exact ⟨hx, ih hcut⟩

/-- A text is cut into lines where its bytes are. -/
theorem cutLines_lossyChars (bytes : List UInt8) :
    cutLines '\r' '\n' (lossyChars bytes) = (cutLines 13 10 bytes).map lossyChars := by
  induction hn : bytes.length using Nat.strong_induction_on generalizing bytes with
  | _ n ih =>
    have hword : asciiWord [13, 10] = ['\r', '\n'] := by decide
    have hchars := @cutAt_lossyChars [13, 10] (by simp) (by simp) bytes
    rw [hword] at hchars
    rw [cutLines_eq, cutLines_eq bytes, hchars]
    cases hcut : cutAt [13, 10] bytes with
    | none => rfl
    | some cut =>
      obtain ⟨before, after⟩ := cut
      have hlength := congrArg List.length (cutAt_eq_some hcut)
      simp only [List.length_append, List.length_cons, List.length_nil] at hlength
      exact congrArg (lossyChars before :: ·) (ih after.length (by omega) after rfl)

/-- A text is cut at its first character of a kind. -/
theorem splitOnce_ofList (c : Char) (cs : List Char) :
    splitOnce c (String.ofList cs) =
      (cutAt [c] cs).map fun (before, after) => (String.ofList before, String.ofList after) := by
  rw [splitOnce, String.toList_ofList]
  induction cs with
  | nil => rfl
  | cons x cs ih =>
    by_cases hx : x = c
    · have hpre : [c].isPrefixOf (x :: cs) = true := by simp [List.isPrefixOf, hx]
      rw [cutAt, if_pos hpre, List.dropWhile_cons_of_neg (by simpa using hx),
        List.takeWhile_cons_of_neg (by simpa using hx)]
      rfl
    · have hpre : ¬ [c].isPrefixOf (x :: cs) = true := by simpa [List.isPrefixOf] using fun h => hx h.symm
      rw [cutAt, if_neg hpre, List.dropWhile_cons_of_pos (by simpa using hx),
        List.takeWhile_cons_of_pos (by simpa using hx),
        Option.map_map]
      cases hcut : cutAt [c] cs with
      | none =>
        rw [hcut] at ih
        cases hdrop : cs.dropWhile (· != c) with
        | nil => rfl
        | cons y rest =>
          rw [hdrop] at ih
          cases ih
      | some cut =>
        rw [hcut] at ih
        cases hdrop : cs.dropWhile (· != c) with
        | nil =>
          rw [hdrop] at ih
          cases ih
        | cons y rest =>
          rw [hdrop] at ih
          obtain ⟨hfront, hback⟩ := Prod.mk.inj (Option.some.inj ih)
          rw [String.ofList_injective hfront, String.ofList_injective hback]
          rfl

end Aether.Rust
