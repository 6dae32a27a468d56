import Aether.Kotlin.Text

/-! Regular expressions as the app writes them.

Character classes, repetition of a class between two bounds, sequence, alternative and
option. A pattern is run by the list of what it may leave of a text; it matches a text
when it may leave nothing (`Regex.matches`, anchored at both ends).

`Takes` says what a pattern takes off a text, without the search; a text that is matched
is taken whole (`fullMatch_takes`), and made of characters that the pattern's classes hold
(`fullMatch_accepts`). -/
namespace Aether.Kotlin

inductive Pattern where
  /-- `[…]{min,max}`; without `max` there is no upper bound. -/
  | chars (p : Char → Bool) (min : Nat) (max : Option Nat)
  | seq (a b : Pattern)
  | alt (a b : Pattern)
  | opt (a : Pattern)

namespace Pattern

/-- One given character. -/
def char (c : Char) : Pattern := .chars (· == c) 1 (some 1)

/-- The characters of a word, one after another. -/
def text : List Char → Pattern
  | [] => .chars (fun _ => false) 0 (some 0)
  | c :: cs => .seq (char c) (text cs)

/-- What is left after at least `min` and at most `max` characters of a class. -/
def classEnds (p : Char → Bool) : (min max : Nat) → List Char → List (List Char)
  | min, 0, s => if min = 0 then [s] else []
  | min, _ + 1, [] => if min = 0 then [[]] else []
  | min, max + 1, c :: cs =>
    (if min = 0 then [c :: cs] else []) ++ if p c then classEnds p (min - 1) max cs else []

/-- What the pattern may leave of a text. -/
def ends : Pattern → List Char → List (List Char)
  | .chars p min max, s => classEnds p min (max.getD s.length) s
  | .seq a b, s => (a.ends s).flatMap b.ends
  | .alt a b, s => a.ends s ++ b.ends s
  | .opt a, s => a.ends s ++ [s]

/-- `Regex.matches`. -/
def fullMatch (a : Pattern) (s : String) : Bool := (a.ends s.toList).contains []

/-- Some class of the pattern holds the character. -/
def accepts : Pattern → Char → Bool
  | .chars p _ _, c => p c
  | .seq a b, c => a.accepts c || b.accepts c
  | .alt a b, c => a.accepts c || b.accepts c
  | .opt a, c => a.accepts c

/-- What the pattern may take off a text. -/
def Takes : Pattern → List Char → Prop
  | .chars p min max, s => (∀ c ∈ s, p c = true) ∧ min ≤ s.length ∧ ∀ m ∈ max, s.length ≤ m
  | .seq a b, s => ∃ u v, s = u ++ v ∧ a.Takes u ∧ b.Takes v
  | .alt a b, s => a.Takes s ∨ b.Takes s
  | .opt a, s => a.Takes s ∨ s = []

theorem classEnds_takes {p : Char → Bool} {min max : Nat} {s rest : List Char} (h : rest ∈ classEnds p min max s) :
    ∃ taken, s = taken ++ rest ∧ (∀ c ∈ taken, p c = true) ∧ min ≤ taken.length ∧ taken.length ≤ max := by
  induction max generalizing min s with
  | zero =>
    rw [classEnds] at h
    split_ifs at h with hmin
    · refine ⟨[], (List.mem_singleton.mp h).symm, ?_, by simp [hmin], Nat.le_refl _⟩
      exact fun c hc => absurd hc List.not_mem_nil
    · cases h
  | succ max ih =>
    cases s with
    | nil =>
      rw [classEnds] at h
      split_ifs at h with hmin
      · refine ⟨[], (List.mem_singleton.mp h).symm, ?_, by simp [hmin], Nat.zero_le _⟩
        exact fun c hc => absurd hc List.not_mem_nil
      · cases h
    | cons c cs =>
      rw [classEnds] at h
      rcases List.mem_append.mp h with h | h
      · split_ifs at h with hmin
        · refine ⟨[], (List.mem_singleton.mp h).symm, ?_, by simp [hmin], Nat.zero_le _⟩
          exact fun c hc => absurd hc List.not_mem_nil
        · cases h
      · split_ifs at h with hc
        · obtain ⟨taken, htaken, hp, hmin, hmax⟩ := ih h
          refine ⟨c :: taken, congrArg (c :: ·) htaken, List.forall_mem_cons.mpr ⟨hc, hp⟩, ?_, ?_⟩
          · rw [List.length_cons]
            omega
          · rw [List.length_cons]
            omega
        · cases h

theorem ends_takes {a : Pattern} {s rest : List Char} (h : rest ∈ a.ends s) :
    ∃ taken, s = taken ++ rest ∧ a.Takes taken := by
  induction a generalizing s rest with
  | chars p min max =>
    obtain ⟨taken, htaken, hp, hmin, hmax⟩ := classEnds_takes h
    refine ⟨taken, htaken, hp, hmin, ?_⟩
    intro m hm
    rwa [hm] at hmax
  | seq a b iha ihb =>
    obtain ⟨mid, hmid, hrest⟩ := List.mem_flatMap.mp h
    obtain ⟨first, hfirst, ha⟩ := iha hmid
    obtain ⟨second, hsecond, hb⟩ := ihb hrest
    exact ⟨first ++ second, by rw [hfirst, hsecond, List.append_assoc], first, second, rfl, ha, hb⟩
  | alt a b iha ihb =>
    rcases List.mem_append.mp h with h | h
    · obtain ⟨taken, htaken, ha⟩ := iha h
      exact ⟨taken, htaken, .inl ha⟩
    · obtain ⟨taken, htaken, hb⟩ := ihb h
      exact ⟨taken, htaken, .inr hb⟩
  | opt a iha =>
    rcases List.mem_append.mp h with h | h
    · obtain ⟨taken, htaken, ha⟩ := iha h
      exact ⟨taken, htaken, .inl ha⟩
    · exact ⟨[], (List.mem_singleton.mp h).symm, .inr rfl⟩

/-- A matched text is taken whole. -/
theorem fullMatch_takes {a : Pattern} {s : String} (h : a.fullMatch s = true) : a.Takes s.toList := by
  obtain ⟨taken, htaken, ha⟩ := ends_takes (List.contains_iff_mem.mp h)
  rwa [htaken, List.append_nil]

theorem Takes.accepts {a : Pattern} {s : List Char} (h : a.Takes s) : ∀ c ∈ s, a.accepts c = true := by
  induction a generalizing s with
  | chars p min max => exact h.1
  | seq a b iha ihb =>
    obtain ⟨u, v, rfl, ha, hb⟩ := h
    intro c hc
    rw [Pattern.accepts, Bool.or_eq_true]
    exact (List.mem_append.mp hc).imp (iha ha c) (ihb hb c)
  | alt a b iha ihb =>
    intro c hc
    rw [Pattern.accepts, Bool.or_eq_true]
    exact h.imp (fun ha => iha ha c hc) (fun hb => ihb hb c hc)
  | opt a iha =>
    rcases h with ha | rfl
    · exact iha ha
    · exact fun c hc => absurd hc List.not_mem_nil

/-- A matched text is made of characters of the pattern's classes. -/
theorem fullMatch_accepts {a : Pattern} {s : String} (h : a.fullMatch s = true) :
    ∀ c ∈ s.toList, a.accepts c = true := (fullMatch_takes h).accepts

end Pattern

/-! ### Classes -/

/-- The zeros of the decimal digit blocks outside the basic plane. -/
def supplementaryZeros : List Nat :=
  [0x104A0, 0x10D30, 0x11066, 0x110F0, 0x11136, 0x111D0, 0x112F0, 0x11450, 0x114D0, 0x11650, 0x116C0,
    0x11730, 0x118E0, 0x11950, 0x11C50, 0x11D50, 0x11DA0, 0x11F50, 0x16A60, 0x16AC0, 0x16B50, 0x1D7CE,
    0x1D7D8, 0x1D7E2, 0x1D7EC, 0x1D7F6, 0x1E140, 0x1E2F0, 0x1E4F0, 0x1E950, 0x1FBF0]

/-- `\d` of the platform's engine: the decimal digits of any script. -/
def isDecimalDigit (c : Char) : Bool :=
  (digitOf c).isSome || supplementaryZeros.any fun z => z ≤ c.toNat && c.toNat < z + 10

/-- `\s` of the platform's engine: tab, line feed, form feed, carriage return and the
separators. -/
def isSpaceClass (c : Char) : Bool :=
  let n := c.toNat
  n == 9 || n == 10 || n == 12 || n == 13 || n == 0x20 || n == 0xA0 || n == 0x1680 ||
    (0x2000 ≤ n && n ≤ 0x200A) || n == 0x2028 || n == 0x2029 || n == 0x202F || n == 0x205F || n == 0x3000

def isHexClass (c : Char) : Bool :=
  c.isDigit || (65 ≤ c.toNat && c.toNat ≤ 70) || (97 ≤ c.toNat && c.toNat ≤ 102)

/-! ### Texts -/

/-- `String.length`: UTF-16 units. -/
def utf16Length (s : String) : Nat := (s.toList.map fun c => if c.toNat < 0x10000 then 1 else 2).sum

/-- `String.split` at several characters. -/
def splitAny (delimiters : List Char) (s : String) : List String :=
  (s.toList.splitOnP delimiters.contains).map String.ofList

/-- `String.lowercase` of a text in ASCII. -/
def asciiLowercase (s : String) : String := String.ofList (s.toList.map Char.toLower)

theorem joinToString_mem {sep c : Char} {l : List String} (h : c ∈ (joinToString sep l).toList) :
    c = sep ∨ ∃ s ∈ l, c ∈ s.toList := by
  rw [joinToString, String.toList_ofList] at h
  induction l with
  | nil => cases h
  | cons s rest ih =>
    cases rest with
    | nil => exact .inr ⟨s, List.mem_singleton.mpr rfl, by simpa using h⟩
    | cons t rest =>
      rw [List.map_cons, List.map_cons, List.intercalate_cons_cons] at h
      rcases List.mem_append.mp h with h | h
      · rcases List.mem_append.mp h with h | h
        · exact .inr ⟨s, List.mem_cons_self .., h⟩
        · exact .inl (List.mem_singleton.mp h)
      · rcases ih h with hsep | ⟨u, hu, hc⟩
        · exact .inl hsep
        · exact .inr ⟨u, List.mem_cons_of_mem _ hu, hc⟩

end Aether.Kotlin
