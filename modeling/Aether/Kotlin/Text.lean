import Mathlib

/-! Kotlin's standard text functions.

What the app's Kotlin code asks of `kotlin.text`, on Lean strings: line
splitting, trimming, splitting at a character, and the strict readers of
integers and booleans. Each definition follows the documented behaviour of the
library function it is named after; a string is the sequence of its characters.

The readers come with the one law their users need: what the corresponding
writer prints is read back (`toIntOrNull_toString`, `toBooleanStrictOrNull_toString`),
and lines without a break, joined by line feeds, are read back as those lines
(`lineSequence_joinLines`). -/
namespace Aether.Kotlin

/-! ### Characters -/

/-- `Char.isWhitespace`: the space, line and paragraph separators, and the
control characters tab to carriage return and `U+001C` to `U+001F`. -/
def isWhitespace (c : Char) : Bool :=
  let n := c.toNat
  (9 ≤ n && n ≤ 13) || (28 ≤ n && n ≤ 32) || n == 0xA0 || n == 0x1680 ||
    (0x2000 ≤ n && n ≤ 0x200A) || n == 0x2028 || n == 0x2029 || n == 0x202F || n == 0x205F ||
    n == 0x3000

/-- The characters at which `lineSequence` ends a line. -/
def isLineBreak (c : Char) : Bool := c == '\n' || c == '\r'

/-- The zero of each decimal digit block of the basic plane (general category Nd). -/
def digitZeros : List Nat :=
  [0x0030, 0x0660, 0x06F0, 0x07C0, 0x0966, 0x09E6, 0x0A66, 0x0AE6, 0x0B66, 0x0BE6, 0x0C66, 0x0CE6,
    0x0D66, 0x0DE6, 0x0E50, 0x0ED0, 0x0F20, 0x1040, 0x1090, 0x17E0, 0x1810, 0x1946, 0x19D0, 0x1A80,
    0x1A90, 0x1B50, 0x1BB0, 0x1C40, 0x1C50, 0xA620, 0xA8D0, 0xA900, 0xA9D0, 0xA9F0, 0xAA50, 0xABF0,
    0xFF10]

/-- `digitOf(char, 10)`: the value of a decimal digit of any script. -/
def digitOf (c : Char) : Option Nat :=
  (digitZeros.find? fun z => z ≤ c.toNat && c.toNat < z + 10).map fun z => c.toNat - z

theorem isDigit_bounds {c : Char} (h : c.isDigit = true) : 48 ≤ c.toNat ∧ c.toNat ≤ 57 := by
  simp only [Char.isDigit, Bool.and_eq_true, decide_eq_true_eq, UInt32.le_iff_toNat_le] at h
  exact h

theorem digitOf_ascii {c : Char} (h : c.isDigit = true) : digitOf c = some (c.toNat - 48) := by
  obtain ⟨hlo, hhi⟩ := isDigit_bounds h
  have hz : (decide (0x0030 ≤ c.toNat) && decide (c.toNat < 0x0030 + 10)) = true := by
    simp only [Bool.and_eq_true, decide_eq_true_eq]
    omega
  unfold digitOf digitZeros
  rw [List.find?_cons, hz]
  rfl

/-! ### Lines -/

/-- `lineSequence`: a line ends at `\r\n`, `\n` or `\r`; the text after the last
break is a line too. -/
def lineSequence : List Char → List (List Char)
  | [] => [[]]
  | '\r' :: '\n' :: cs => [] :: lineSequence cs
  | c :: cs =>
    if isLineBreak c then [] :: lineSequence cs else (lineSequence cs).modifyHead (c :: ·)

/-- A text without a line break. -/
def OneLine (s : List Char) : Prop := ∀ c ∈ s, isLineBreak c = false

instance (s : List Char) : Decidable (OneLine s) := List.decidableBAll _ s

theorem OneLine.append {s t : List Char} (hs : OneLine s) (ht : OneLine t) : OneLine (s ++ t) := by
  intro c hc
  rcases List.mem_append.mp hc with hc | hc
  · exact hs c hc
  · exact ht c hc

theorem OneLine.sublist {s t : List Char} (ht : OneLine t) (h : s.Sublist t) : OneLine s :=
  fun c hc => ht c (h.mem hc)

theorem lineSequence_ne_nil (s : List Char) : lineSequence s ≠ [] := by
  induction s using lineSequence.induct with
  | case1 => simp [lineSequence]
  | case2 cs ih => simp [lineSequence]
  | case3 c cs hcr hbreak ih => simp [lineSequence, hbreak]
  | case4 c cs hcr hbreak ih => simp [lineSequence, hbreak, ih]

theorem lineSequence_cons {c : Char} (hc : isLineBreak c = false) (s : List Char) :
    lineSequence (c :: s) = (lineSequence s).modifyHead (c :: ·) := by
  have hcr : c ≠ '\r' := by
    rintro rfl
    exact absurd hc (by decide)
  rw [lineSequence]
  · simp [hc]
  · intro cs h
    exact absurd h hcr

/-- Every line of a text is free of breaks. -/
theorem lineSequence_oneLine (s : List Char) : ∀ l ∈ lineSequence s, OneLine l := by
  induction s using lineSequence.induct with
  | case1 => simp [lineSequence, OneLine]
  | case2 cs ih => simpa [lineSequence, OneLine] using ih
  | case3 c cs hcr hbreak ih => simpa [lineSequence, hbreak, OneLine] using ih
  | case4 c cs hcr hbreak ih =>
    have hc : isLineBreak c = false := by simpa using hbreak
    rw [lineSequence_cons hc]
    obtain ⟨l, ls, hls⟩ := List.exists_cons_of_ne_nil (lineSequence_ne_nil cs)
    rw [hls] at ih ⊢
    intro l' hl'
    rcases List.mem_cons.mp hl' with rfl | hl'
    · intro d hd
      rcases List.mem_cons.mp hd with rfl | hd
      · exact hc
      · exact ih l (List.mem_cons_self ..) d hd
    · exact ih l' (List.mem_cons_of_mem _ hl')

/-- The first line of a text is what stands before its first line feed. -/
theorem lineSequence_append_feed {l : List Char} (hl : OneLine l) (rest : List Char) :
    lineSequence (l ++ '\n' :: rest) = l :: lineSequence rest := by
  induction l with
  | nil => simp [lineSequence, isLineBreak]
  | cons c l ih =>
    rw [List.cons_append, lineSequence_cons (hl c (List.mem_cons_self ..)),
      ih (fun d hd => hl d (List.mem_cons_of_mem _ hd))]
    rfl

theorem lineSequence_of_oneLine {l : List Char} (hl : OneLine l) : lineSequence l = [l] := by
  induction l with
  | nil => rfl
  | cons c l ih =>
    rw [lineSequence_cons (hl c (List.mem_cons_self ..)), ih (fun d hd => hl d (List.mem_cons_of_mem _ hd))]
    rfl

/-- Lines without a break, joined by line feeds, are read back. -/
theorem lineSequence_joinLines {ls : List (List Char)} (h : ∀ l ∈ ls, OneLine l) (hne : ls ≠ []) :
    lineSequence (['\n'].intercalate ls) = ls := by
  induction ls with
  | nil => exact absurd rfl hne
  | cons l rest ih =>
    have hl := h l (List.mem_cons_self ..)
    cases rest with
    | nil => simpa using lineSequence_of_oneLine hl
    | cons l' rest' =>
      have htail := ih (fun m hm => h m (List.mem_cons_of_mem _ hm)) (List.cons_ne_nil _ _)
      rw [List.intercalate_cons_cons, List.append_assoc, List.singleton_append,
        lineSequence_append_feed hl, htail]

/-! ### Strings -/

/-- `String.trim`. -/
def trim (s : String) : String :=
  String.ofList ((s.toList.dropWhile isWhitespace).rdropWhile isWhitespace)

theorem trim_sublist (s : String) : (trim s).toList.Sublist s.toList := by
  rw [trim, String.toList_ofList]
  exact ((List.rdropWhile_prefix _ _).sublist).trans (List.dropWhile_suffix _).sublist

/-- `String.isBlank`. -/
def isBlank (s : String) : Bool := s.toList.all isWhitespace

/-- `String.split` at one character. -/
def split (c : Char) (s : String) : List String := (s.toList.splitOn c).map String.ofList

theorem sublist_intercalate {α : Type} (sep : List α) {ts : List (List α)} {t : List α} (ht : t ∈ ts) :
    t.Sublist (sep.intercalate ts) := by
  induction ts with
  | nil => cases ht
  | cons u us ih =>
    cases us with
    | nil =>
      rw [List.mem_singleton] at ht
      subst ht
      simp
    | cons v vs =>
      rw [List.intercalate_cons_cons]
      rcases List.mem_cons.mp ht with rfl | ht
      · exact (List.sublist_append_left _ _).trans (List.sublist_append_left _ _)
      · exact (ih ht).trans (List.sublist_append_right _ _)

theorem splitOn_sublist {α : Type} [BEq α] [LawfulBEq α] (a : α) (s : List α) :
    ∀ t ∈ s.splitOn a, t.Sublist s := by
  intro t ht
  have hs : [a].intercalate (s.splitOn a) = s := List.intercalate_splitOn a
  rw [← hs]
  exact sublist_intercalate [a] ht

/-- `joinToString` with a one-character separator. -/
def joinToString (c : Char) (l : List String) : String :=
  String.ofList ([c].intercalate (l.map String.toList))

/-- Pieces without the separator, joined by it, are split back. -/
theorem split_joinToString (c : Char) (l : List String) (h : ∀ s ∈ l, c ∉ s.toList) (hne : l ≠ []) :
    split c (joinToString c l) = l := by
  have hsplit : ([c].intercalate (l.map String.toList)).splitOn c = l.map String.toList := by
    apply List.splitOn_intercalate
    · intro s hs
      obtain ⟨t, ht, rfl⟩ := List.mem_map.mp hs
      exact h t ht
    · simpa using hne
  rw [split, joinToString, String.toList_ofList, hsplit, List.map_map]
  simp [Function.comp_def]

/-- `String.substringBefore`; a text without the delimiter is kept whole. -/
def substringBefore (c : Char) (s : String) : String := String.ofList (s.toList.takeWhile (· != c))

/-- `String.substringAfter` with the value for a text without the delimiter. -/
def substringAfter (c : Char) (s missing : String) : String :=
  match s.toList.dropWhile (· != c) with
  | [] => missing
  | _ :: rest => String.ofList rest

/-- `String.substringBeforeLast`; a text without the delimiter is kept whole. -/
def substringBeforeLast (c : Char) (s : String) : String :=
  match s.toList.reverse.dropWhile (· != c) with
  | [] => s
  | _ :: before => String.ofList before.reverse

/-- `String.substringAfterLast`; a text without the delimiter is kept whole. -/
def substringAfterLast (c : Char) (s : String) : String :=
  String.ofList (s.toList.reverse.takeWhile (· != c)).reverse

/-- `String.removePrefix`. -/
def removePrefix (start s : String) : String :=
  if start.toList.isPrefixOf s.toList then String.ofList (s.toList.drop start.length) else s

/-- `String.startsWith`. -/
def startsWith (start s : String) : Bool := start.toList.isPrefixOf s.toList

/-- `String.endsWith`. -/
def endsWith (tail s : String) : Bool := tail.toList.isSuffixOf s.toList

/-- `String.contains` of a text. -/
def containsText (part s : String) : Bool := decide (part.toList <:+: s.toList)

/-- `String.trimEnd` of one character. -/
def trimEnd (c : Char) (s : String) : String := String.ofList (s.toList.rdropWhile (· == c))

/-- `equals` with `ignoreCase`, of texts of Latin-1: there only letters of ASCII fold to
letters of ASCII. -/
def equalsIgnoreCase (s t : String) : Bool := s.toList.map Char.toLower == t.toList.map Char.toLower

section Delimiters

variable {c : Char} {s t : String}

theorem all_ne_of_notMem {l : List Char} (h : c ∉ l) : ∀ d ∈ l, (d != c) = true := by
  intro d hd
  rw [bne_iff_ne]
  intro he
  exact h (he ▸ hd)

theorem toList_delimited (c : Char) (s t : String) :
    (s ++ String.singleton c ++ t).toList = s.toList ++ c :: t.toList := by simp

theorem substringBefore_append (h : c ∉ s.toList) (t : String) :
    substringBefore c (s ++ String.singleton c ++ t) = s := by
  rw [substringBefore, toList_delimited, List.takeWhile_append_of_pos (all_ne_of_notMem h)]
  simp

theorem substringBefore_of_notMem (h : c ∉ s.toList) : substringBefore c s = s := by
  rw [substringBefore, List.takeWhile_eq_self_iff.mpr (all_ne_of_notMem h), String.ofList_toList]

theorem substringAfter_append (h : c ∉ s.toList) (t missing : String) :
    substringAfter c (s ++ String.singleton c ++ t) missing = t := by
  rw [substringAfter, toList_delimited, List.dropWhile_append_of_pos (all_ne_of_notMem h)]
  simp

theorem substringAfter_of_notMem (h : c ∉ s.toList) (missing : String) : substringAfter c s missing = missing := by
  rw [substringAfter, List.dropWhile_eq_nil_iff.mpr (all_ne_of_notMem h)]

theorem substringBeforeLast_append (h : c ∉ t.toList) (s : String) :
    substringBeforeLast c (s ++ String.singleton c ++ t) = s := by
  have hrev : c ∉ t.toList.reverse := by rwa [List.mem_reverse]
  have hlist : (s ++ String.singleton c ++ t).toList.reverse = t.toList.reverse ++ c :: s.toList.reverse := by simp
  rw [substringBeforeLast, hlist, List.dropWhile_append_of_pos (all_ne_of_notMem hrev)]
  simp

theorem substringBeforeLast_of_notMem (h : c ∉ s.toList) : substringBeforeLast c s = s := by
  have hrev : c ∉ s.toList.reverse := by rwa [List.mem_reverse]
  rw [substringBeforeLast, List.dropWhile_eq_nil_iff.mpr (all_ne_of_notMem hrev)]

theorem substringAfterLast_append (h : c ∉ t.toList) (s : String) :
    substringAfterLast c (s ++ String.singleton c ++ t) = t := by
  have hrev : c ∉ t.toList.reverse := by rwa [List.mem_reverse]
  have hlist : (s ++ String.singleton c ++ t).toList.reverse = t.toList.reverse ++ c :: s.toList.reverse := by simp
  rw [substringAfterLast, hlist, List.takeWhile_append_of_pos (all_ne_of_notMem hrev)]
  simp

theorem substringAfterLast_of_notMem (h : c ∉ s.toList) : substringAfterLast c s = s := by
  have hrev : c ∉ s.toList.reverse := by rwa [List.mem_reverse]
  rw [substringAfterLast, List.takeWhile_eq_self_iff.mpr (all_ne_of_notMem hrev)]
  simp

end Delimiters

/-- `String.replace` of one character by nothing. -/
def remove (c : Char) (s : String) : String := String.ofList (s.toList.filter (· != c))

theorem remove_of_notMem {c : Char} {s : String} (h : c ∉ s.toList) : remove c s = s := by
  have : s.toList.filter (· != c) = s.toList := by
    apply List.filter_eq_self.mpr
    intro d hd
    simp only [bne_iff_ne, ne_eq]
    rintro rfl
    exact h hd
  rw [remove, this, String.ofList_toList]

/-! ### Booleans and integers -/

/-- `Boolean.toString`. -/
def boolToString (b : Bool) : String := if b then "true" else "false"

/-- `String.toBooleanStrictOrNull`: exactly the two words, case sensitive. -/
def toBooleanStrictOrNull (s : String) : Option Bool :=
  if s = "true" then some true else if s = "false" then some false else none

theorem toBooleanStrictOrNull_toString (b : Bool) :
    toBooleanStrictOrNull (boolToString b) = some b := by
  cases b <;> decide

/-- `String.toBoolean`: the word true in any case, everything else false. -/
def toBoolean (s : String) : Bool := s.toList.map Char.toLower == "true".toList

/-- `Int.toString`. -/
def intToString (n : Int32) : String :=
  String.ofList (if n.toInt < 0 then '-' :: Nat.toDigits 10 n.toInt.natAbs
    else Nat.toDigits 10 n.toInt.natAbs)

/-- The value of a string of decimal digits of any script. -/
def digitsValue (s : List Char) : Option Nat :=
  s.foldl (fun acc c => acc.bind fun n => (digitOf c).map fun d => 10 * n + d) (some 0)

/-- A value in the range of `Int`. -/
def intInRange (n : Int) : Option Int32 :=
  if -2 ^ 31 ≤ n ∧ n < 2 ^ 31 then some (Int32.ofInt n) else none

/-- `String.toIntOrNull`: an optional sign and at least one digit, in the range of `Int`. -/
def toIntOrNull (s : String) : Option Int32 :=
  match s.toList with
  | [] => none
  | c :: cs =>
    if c.toNat < '0'.toNat then
      if cs = [] then none
      else if c = '-' then (digitsValue cs).bind fun n => intInRange (-(n : Int))
      else if c = '+' then (digitsValue cs).bind fun n => intInRange n
      else none
    else (digitsValue (c :: cs)).bind fun n => intInRange n

theorem digitsValue_append (s : List Char) (c : Char) :
    digitsValue (s ++ [c]) = (digitsValue s).bind fun n => (digitOf c).map fun d => 10 * n + d := by
  simp [digitsValue]

theorem digitsValue_ascii (s : List Char) (h : ∀ c ∈ s, c.isDigit = true) :
    digitsValue s = some (Nat.ofDigitChars 10 s 0) := by
  induction s using List.reverseRecOn with
  | nil => rfl
  | append_singleton s c ih =>
    have hs := ih (fun d hd => h d (List.mem_append_left _ hd))
    have hc := digitOf_ascii (h c (by simp))
    rw [digitsValue_append, hs, hc, Nat.ofDigitChars_append]
    simp [Nat.ofDigitChars_cons]

/-- The decimal digits of a number are read back. -/
theorem digitsValue_toDigits (n : Nat) : digitsValue (Nat.toDigits 10 n) = some n := by
  rw [digitsValue_ascii _ fun c hc => Nat.isDigit_of_mem_toDigits (by decide) (by decide) hc,
    Nat.ofDigitChars_ten_toDigits]

theorem intInRange_toInt (n : Int32) : intInRange n.toInt = some n := by
  have h1 := n.le_toInt
  have h2 := n.toInt_lt
  rw [intInRange, if_pos ⟨h1, h2⟩, Int32.ofInt_toInt]

theorem toIntOrNull_minus {ds : List Char} (hne : ds ≠ []) :
    toIntOrNull (String.ofList ('-' :: ds)) =
      (digitsValue ds).bind fun n => intInRange (-(n : Int)) := by
  have hsign : '-'.toNat < '0'.toNat := by decide
  rw [toIntOrNull, String.toList_ofList]
  simp only [hsign, if_true, hne, if_false]

theorem toIntOrNull_digits {ds : List Char} (hne : ds ≠ []) (h : ∀ c ∈ ds, c.isDigit = true) :
    toIntOrNull (String.ofList ds) = (digitsValue ds).bind fun n => intInRange n := by
  obtain ⟨c, cs, rfl⟩ := List.exists_cons_of_ne_nil hne
  have hc : ¬ c.toNat < '0'.toNat := by
    have hlo := (isDigit_bounds (h c (List.mem_cons_self ..))).1
    show ¬ c.toNat < 48
    omega
  rw [toIntOrNull, String.toList_ofList]
  simp only [hc, if_false]

/-- What `Int.toString` prints is read back, for every `Int`. -/
theorem toIntOrNull_toString (n : Int32) : toIntOrNull (intToString n) = some n := by
  have hvalue := digitsValue_toDigits n.toInt.natAbs
  unfold intToString
  by_cases hneg : n.toInt < 0
  · have habs : -(n.toInt.natAbs : Int) = n.toInt := by omega
    rw [if_pos hneg, toIntOrNull_minus Nat.toDigits_ne_nil, hvalue, Option.bind_some, habs,
      intInRange_toInt]
  · have habs : (n.toInt.natAbs : Int) = n.toInt := by omega
    rw [if_neg hneg, toIntOrNull_digits Nat.toDigits_ne_nil
      (fun c hc => Nat.isDigit_of_mem_toDigits (by decide) (by decide) hc), hvalue, Option.bind_some,
      habs, intInRange_toInt]

/-! ### Enumerations -/

/-- An enum class: its constants in order, and the name each is declared under. -/
class EnumClass (α : Type) where
  entries : List α
  name : α → String
  mem_entries : ∀ a, a ∈ entries
  name_nodup : (entries.map name).Nodup
  /-- A declared name is an identifier: it holds no line break. -/
  name_oneLine : ∀ a ∈ entries, OneLine (name a).toList

export EnumClass (name)

/-- `enumValueOf`, with the exception for an unknown name as `none`. -/
def enumValueOf (α : Type) [EnumClass α] (s : String) : Option α :=
  (EnumClass.entries (α := α)).find? fun a => name a == s

theorem find?_key {α β : Type} [BEq β] [LawfulBEq β] (key : α → β) {l : List α} {a : α} (ha : a ∈ l)
    (hl : (l.map key).Nodup) : l.find? (fun b => key b == key a) = some a := by
  induction l with
  | nil => cases ha
  | cons b l ih =>
    rw [List.map_cons, List.nodup_cons] at hl
    rcases List.mem_cons.mp ha with rfl | ha
    · exact List.find?_cons_of_pos (beq_self_eq_true _)
    · have hne : (key b == key a) = false := by
        apply beq_eq_false_iff_ne.mpr
        intro h
        exact hl.1 (h ▸ List.mem_map_of_mem ha)
      simp only [List.find?_cons, hne]
      exact ih ha hl.2

/-- The name of a constant is read back. -/
theorem enumValueOf_name {α : Type} [EnumClass α] (a : α) : enumValueOf α (name a) = some a :=
  find?_key name (EnumClass.mem_entries a) EnumClass.name_nodup

end Aether.Kotlin
