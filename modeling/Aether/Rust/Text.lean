import Mathlib

/-! Rust's standard text functions.

What the engine asks of `str`: white space and trimming, splitting at a character or
at white space, comparison up to ASCII case, the reader of a port number, and the
decoding of UTF-8, strict and lossy. Each definition follows the documented behaviour
of the library function it is named after; a string is the sequence of its characters.

The lemmas say how the splitters take a text apart that is put together from known
pieces. -/
namespace Aether.Rust

/-! ### Characters -/

/-- `char::is_whitespace`. -/
def isWhitespace (c : Char) : Bool :=
  let n := c.toNat
  (9 ≤ n && n ≤ 13) || n == 32 || n == 0x85 || n == 0xA0 || n == 0x1680 ||
    (0x2000 ≤ n && n ≤ 0x200A) || n == 0x2028 || n == 0x2029 || n == 0x202F || n == 0x205F ||
    n == 0x3000

/-- `str::eq_ignore_ascii_case`. -/
def eqIgnoreAsciiCase (s t : String) : Bool := s.toList.map Char.toLower == t.toList.map Char.toLower

/-- `str::to_lowercase`, as far as it can give an ASCII word: the capital letters and the
Kelvin sign. -/
def toLowercase (s : String) : String :=
  String.ofList (s.toList.map fun c => if c = Char.ofNat 0x212A then 'k' else c.toLower)

/-- `str::to_ascii_lowercase`. -/
def toAsciiLowercase (s : String) : String := String.ofList (s.toList.map Char.toLower)

theorem eqIgnoreAsciiCase_iff {s t : String} :
    eqIgnoreAsciiCase s t = true ↔ toAsciiLowercase s = toAsciiLowercase t := by
  rw [eqIgnoreAsciiCase, beq_iff_eq, toAsciiLowercase, toAsciiLowercase, ← String.toList_inj,
    String.toList_ofList, String.toList_ofList]

/-- `str::is_ascii`. -/
def isAscii (s : String) : Bool := s.toList.all fun c => c.toNat < 128

/-! ### Trimming and splitting -/

/-- `str::trim_end_matches` of one character. -/
def trimEndMatches (c : Char) (s : String) : String := String.ofList (s.toList.rdropWhile (· == c))

/-- `str::trim_start_matches` of one character. -/
def trimStartMatches (c : Char) (s : String) : String := String.ofList (s.toList.dropWhile (· == c))

/-- `str::trim`. -/
def trim (s : String) : String :=
  String.ofList ((s.toList.dropWhile isWhitespace).rdropWhile isWhitespace)

/-- `str::split_whitespace`. -/
def splitWhitespace (s : String) : List String :=
  ((s.toList.splitOnP isWhitespace).filter (· ≠ [])).map String.ofList

/-- `str::split` at one character. -/
def split (c : Char) (s : String) : List String := (s.toList.splitOn c).map String.ofList

/-- `str::split_once` at one character. -/
def splitOnce (c : Char) (s : String) : Option (String × String) :=
  match s.toList.dropWhile (· != c) with
  | [] => none
  | _ :: rest => some (String.ofList (s.toList.takeWhile (· != c)), String.ofList rest)

/-- `str::rsplit_once` at one character. -/
def rsplitOnce (c : Char) (s : String) : Option (String × String) :=
  match s.toList.reverse.dropWhile (· != c) with
  | [] => none
  | _ :: before =>
    some (String.ofList before.reverse, String.ofList (s.toList.reverse.takeWhile (· != c)).reverse)

/-- `str::strip_prefix`. -/
def stripStart (start s : String) : Option String :=
  if start.toList.isPrefixOf s.toList then some (String.ofList (s.toList.drop start.length)) else none

/-- `str::strip_suffix`. -/
def stripEnd (tail s : String) : Option String :=
  if tail.toList.isSuffixOf s.toList then some (String.ofList (s.toList.take (s.length - tail.length))) else none

/-- `str::contains` of one character. -/
def containsChar (c : Char) (s : String) : Bool := s.toList.contains c

/-- `str::contains`. -/
def contains (needle s : String) : Bool := decide (needle.toList <:+: s.toList)

/-- `str::ends_with`. -/
def endsWith (tail s : String) : Bool := tail.toList.isSuffixOf s.toList

/-- `str::starts_with`. -/
def startsWith (start s : String) : Bool := start.toList.isPrefixOf s.toList

/-- The characters that take exactly `n` bytes. -/
def takeBytes : Nat → List Char → Option (List Char)
  | 0, _ => some []
  | _ + 1, [] => none
  | n + 1, c :: cs => if c.utf8Size ≤ n + 1 then (takeBytes (n + 1 - c.utf8Size) cs).map (c :: ·) else none

/-- `&s[..n]`, where `n` lies between two characters. -/
def sliceTo (n : Nat) (s : String) : Option String := (takeBytes n s.toList).map String.ofList

theorem stripStart_append (start t : String) : stripStart start (start ++ t) = some t := by
  have hpre : start.toList.isPrefixOf (start ++ t).toList = true := by simp
  have hdrop : (start.toList ++ t.toList).drop start.length = t.toList := by
    rw [← String.length_toList, List.drop_left]
  rw [stripStart, if_pos hpre, String.toList_append, hdrop, String.ofList_toList]

theorem stripStart_eq_some {start s t : String} : stripStart start s = some t ↔ s = start ++ t := by
  constructor
  · intro h
    rw [stripStart] at h
    split at h
    case isTrue hpre =>
      rw [List.isPrefixOf_iff_prefix] at hpre
      obtain ⟨rest, hrest⟩ := hpre
      have ht := Option.some.inj h
      rw [← hrest, ← String.length_toList, List.drop_left] at ht
      rw [← String.toList_inj, ← hrest, ← ht, String.toList_append, String.toList_ofList]
    case isFalse => cases h
  · rintro rfl
    exact stripStart_append start t

theorem stripEnd_eq_some {tail s t : String} : stripEnd tail s = some t ↔ s = t ++ tail := by
  constructor
  · intro h
    rw [stripEnd] at h
    split at h
    case isTrue hsuf =>
      rw [List.isSuffixOf_iff_suffix] at hsuf
      obtain ⟨front, hfront⟩ := hsuf
      have ht := Option.some.inj h
      have hlen : s.length - tail.length = front.length := by
        rw [← String.length_toList, ← hfront, List.length_append, String.length_toList, Nat.add_sub_cancel]
      rw [hlen, ← hfront, List.take_left] at ht
      rw [← String.toList_inj, ← hfront, ← ht, String.toList_append, String.toList_ofList]
    case isFalse => cases h
  · rintro rfl
    have hsuf : tail.toList.isSuffixOf (t ++ tail).toList = true := by simp
    have htake : (t.toList ++ tail.toList).take ((t ++ tail).length - tail.length) = t.toList := by
      rw [String.length_append, Nat.add_sub_cancel, ← String.length_toList, List.take_left]
    rw [stripEnd, if_pos hsuf, String.toList_append, htake, String.ofList_toList]

theorem stripStart_of_notMem {c : Char} {s : String} (h : c ∉ s.toList) :
    stripStart (String.singleton c) s = none := by
  have hpre : ¬ (String.singleton c).toList.isPrefixOf s.toList = true := by
    rw [String.toList_singleton, List.isPrefixOf_iff_prefix]
    exact fun hp => h (hp.subset (List.mem_singleton.mpr rfl))
  rw [stripStart, if_neg hpre]

/-- A text that no separator occurs in is cut at the first separator after it. -/
theorem splitOnce_append {c : Char} {s : String} (h : c ∉ s.toList) (t : String) :
    splitOnce c (s ++ String.singleton c ++ t) = some (s, t) := by
  have hs : ∀ d ∈ s.toList, (d != c) = true := by
    intro d hd
    rw [bne_iff_ne]
    rintro rfl
    exact h hd
  have hlist : (s ++ String.singleton c ++ t).toList = s.toList ++ c :: t.toList := by simp
  rw [splitOnce, hlist, List.dropWhile_append_of_pos hs, List.takeWhile_append_of_pos hs,
    List.dropWhile_cons, List.takeWhile_cons]
  simp

/-- The last separator is the one after which none occurs. -/
theorem rsplitOnce_append {c : Char} {t : String} (h : c ∉ t.toList) (s : String) :
    rsplitOnce c (s ++ String.singleton c ++ t) = some (s, t) := by
  have ht : ∀ d ∈ t.toList.reverse, (d != c) = true := by
    intro d hd
    rw [bne_iff_ne]
    rintro rfl
    exact h (List.mem_reverse.mp hd)
  have hlist : (s ++ String.singleton c ++ t).toList.reverse = t.toList.reverse ++ c :: s.toList.reverse := by
    simp
  rw [rsplitOnce, hlist, List.dropWhile_append_of_pos ht, List.takeWhile_append_of_pos ht,
    List.dropWhile_cons, List.takeWhile_cons]
  simp

theorem splitOnce_of_notMem {c : Char} {s : String} (h : c ∉ s.toList) : splitOnce c s = none := by
  have hall : s.toList.dropWhile (· != c) = [] := by
    rw [List.dropWhile_eq_nil_iff]
    intro d hd
    rw [bne_iff_ne]
    rintro rfl
    exact h hd
  rw [splitOnce, hall]

theorem rsplitOnce_of_notMem {c : Char} {s : String} (h : c ∉ s.toList) : rsplitOnce c s = none := by
  have hall : s.toList.reverse.dropWhile (· != c) = [] := by
    rw [List.dropWhile_eq_nil_iff]
    intro d hd
    rw [bne_iff_ne]
    rintro rfl
    exact h (List.mem_reverse.mp hd)
  rw [rsplitOnce, hall]

theorem trimEndMatches_of_notMem {c : Char} {s : String} (h : c ∉ s.toList) : trimEndMatches c s = s := by
  have hself : s.toList.rdropWhile (· == c) = s.toList := by
    rw [List.rdropWhile_eq_self_iff]
    intro hne hlast
    rw [beq_iff_eq] at hlast
    exact h (hlast ▸ List.getLast_mem hne)
  rw [trimEndMatches, hself, String.ofList_toList]

/-- What is trimmed off the end is a number of copies of the character, none exactly if the
text does not end in it. -/
theorem exists_trimEndMatches (c : Char) (s : String) :
    ∃ n, s.toList = (trimEndMatches c s).toList ++ List.replicate n c ∧
      (0 < n ↔ s.toList.getLast? = some c) := by
  have hall : ∀ d ∈ s.toList.rtakeWhile (· == c), d = c := by
    intro d hd
    have hbeq := List.mem_rtakeWhile_imp hd
    exact eq_of_beq hbeq
  refine ⟨(s.toList.rtakeWhile (· == c)).length, ?_, ?_⟩
  · rw [trimEndMatches, String.toList_ofList, ← List.eq_replicate_of_mem hall,
      List.rdropWhile_append_rtakeWhile]
  · rw [List.length_pos_iff, ne_eq, List.rtakeWhile_eq_nil_iff]
    constructor
    · intro h
      obtain ⟨hne, hlast⟩ := not_forall.mp h
      rw [not_not, beq_iff_eq] at hlast
      rw [List.getLast?_eq_some_getLast hne, hlast]
    · intro h hnone
      have hne : s.toList ≠ [] := by
        intro hnil
        rw [hnil] at h
        cases h
      rw [List.getLast?_eq_some_getLast hne] at h
      exact hnone hne (beq_iff_eq.mpr (Option.some.inj h))

theorem getLast?_trimEndMatches (c : Char) (s : String) : (trimEndMatches c s).toList.getLast? ≠ some c := by
  intro h
  rw [trimEndMatches, String.toList_ofList] at h
  have hne : s.toList.rdropWhile (· == c) ≠ [] := by
    intro hnil
    rw [hnil] at h
    cases h
  have hlast := List.rdropWhile_last_not (· == c) s.toList hne
  rw [List.getLast?_eq_some_getLast hne] at h
  exact hlast (beq_iff_eq.mpr (Option.some.inj h))

/-- A word that does not end in the character is found in front of copies of it, or nowhere. -/
theorem infix_append_replicate {c : Char} {word text : List Char} (h : word.getLast? ≠ some c) (n : Nat) :
    word <:+: text ++ List.replicate n c ↔ word <:+: text := by
  induction n with
  | zero => rw [List.replicate_zero, List.append_nil]
  | succ n ih =>
    rw [List.replicate_succ', ← List.append_assoc, List.infix_concat_iff, List.suffix_concat_iff, ih]
    constructor
    · intro hor
      rcases hor with (hempty | hend) | hinfix
      · rw [hempty]
        exact List.nil_infix
      · obtain ⟨front, hfront, -⟩ := hend
        rw [hfront, List.getLast?_concat] at h
        exact absurd rfl h
      · exact hinfix
    · intro hinfix
      exact .inr hinfix

theorem rsplitOnce_eq_none {c : Char} {s : String} : rsplitOnce c s = none ↔ c ∉ s.toList := by
  constructor
  · intro h hmem
    have hrev : s.toList.reverse.dropWhile (· != c) = [] := by
      rw [rsplitOnce] at h
      split at h
      case h_1 hnil => exact hnil
      case h_2 => cases h
    rw [List.dropWhile_eq_nil_iff] at hrev
    exact absurd (hrev c (List.mem_reverse.mpr hmem)) (by simp)
  · exact rsplitOnce_of_notMem

theorem rsplitOnce_eq_some {c : Char} {s front back : String} (h : rsplitOnce c s = some (front, back)) :
    s = front ++ String.singleton c ++ back ∧ c ∉ back.toList := by
  rw [rsplitOnce] at h
  split at h
  case h_1 => cases h
  case h_2 d before hdrop =>
    obtain ⟨rfl, rfl⟩ := Prod.mk.inj (Option.some.inj h)
    have hd : d = c := by
      have hne : s.toList.reverse.dropWhile (· != c) ≠ [] := by rw [hdrop]; exact List.cons_ne_nil _ _
      have hhead := List.head_dropWhile_not (· != c) hne
      simpa [hdrop] using hhead
    have hwhole : s.toList.reverse = s.toList.reverse.takeWhile (· != c) ++ d :: before := by
      rw [← hdrop, List.takeWhile_append_dropWhile]
    constructor
    · have hs : s.toList = before.reverse ++ c :: (s.toList.reverse.takeWhile (· != c)).reverse := by
        rw [← List.reverse_inj]
        conv_lhs => rw [hwhole, hd]
        simp
      rw [← String.toList_inj]
      conv_lhs => rw [hs]
      simp
    · rw [String.toList_ofList, List.mem_reverse]
      intro hmem
      exact absurd (List.mem_takeWhile_imp hmem) (by simp)

/-- A text without white space at its ends is not trimmed. -/
theorem trim_of_solid {s : String} (h : ∀ c ∈ s.toList, isWhitespace c = false) : trim s = s := by
  have hstart : s.toList.dropWhile isWhitespace = s.toList := by
    rw [List.dropWhile_eq_self_iff]
    intro hl
    simpa using h _ (List.getElem_mem hl)
  have hend : s.toList.rdropWhile isWhitespace = s.toList := by
    rw [List.rdropWhile_eq_self_iff]
    intro hl
    simpa using h _ (List.getLast_mem hl)
  rw [trim, hstart, hend, String.ofList_toList]

/-- A word is split off a text at the white space after it. -/
theorem splitWhitespace_cons {s : String} (hne : s ≠ "") (h : ∀ c ∈ s.toList, isWhitespace c = false)
    (t : String) : splitWhitespace (s ++ " " ++ t) = s :: splitWhitespace t := by
  have hlist : (s ++ " " ++ t).toList = s.toList ++ ' ' :: t.toList := by simp
  have hsplit : (s.toList ++ ' ' :: t.toList).splitOnP isWhitespace =
      s.toList :: t.toList.splitOnP isWhitespace := by
    apply List.splitOnP_append_cons_of_forall_mem
    · exact fun c hc => by simpa using h c hc
    · decide
  have hkeep : s.toList ≠ [] := by simpa [String.toList_eq_nil_iff] using hne
  rw [splitWhitespace, hlist, hsplit, List.filter_cons_of_pos (by simpa using hkeep), List.map_cons,
    String.ofList_toList, splitWhitespace]

theorem splitWhitespace_of_solid {s : String} (hne : s ≠ "") (h : ∀ c ∈ s.toList, isWhitespace c = false) :
    splitWhitespace s = [s] := by
  have hsplit : s.toList.splitOnP isWhitespace = [s.toList] :=
    List.splitOnP_eq_singleton h
  have hkeep : s.toList ≠ [] := by simpa [String.toList_eq_nil_iff] using hne
  rw [splitWhitespace, hsplit, List.filter_cons_of_pos (by simpa using hkeep)]
  simp

/-! ### Numbers -/

/-- The value of a string of decimal digits. -/
def decimalValue (cs : List Char) : Option Nat :=
  if cs ≠ [] ∧ cs.all Char.isDigit then some (Nat.ofDigitChars 10 cs 0) else none

/-- `str::parse::<u16>`: decimal digits after an optional plus sign. -/
def parseU16 (s : String) : Option UInt16 :=
  let digits := match s.toList with
    | '+' :: cs => cs
    | cs => cs
  (decimalValue digits).bind fun n => if n < 2 ^ 16 then some (UInt16.ofNat n) else none

/-- `u16`'s `Display`. -/
def showU16 (n : UInt16) : String := String.ofList (Nat.toDigits 10 n.toNat)

theorem showU16_digits (n : UInt16) : ∀ c ∈ (showU16 n).toList, c.isDigit = true := by
  intro c hc
  rw [showU16, String.toList_ofList] at hc
  exact Nat.isDigit_of_mem_toDigits (by decide) (by decide) hc

theorem showU16_ne_empty (n : UInt16) : showU16 n ≠ "" := by
  intro h
  have hnil : Nat.toDigits 10 n.toNat = [] := by simpa [showU16] using congrArg String.toList h
  exact Nat.toDigits_ne_nil hnil

theorem parseU16_plain {s : String} (h : '+' ∉ s.toList) :
    parseU16 s = (decimalValue s.toList).bind fun n => if n < 2 ^ 16 then some (UInt16.ofNat n) else none := by
  have hplain : (match s.toList with
      | '+' :: cs => cs
      | cs => cs) = s.toList := by
    split
    · rename_i cs hcs
      exact absurd (by rw [hcs]; exact List.mem_cons_self ..) h
    · rfl
  rw [parseU16, hplain]

/-- What is printed is read back. -/
theorem parseU16_showU16 (n : UInt16) : parseU16 (showU16 n) = some n := by
  have hdigits := showU16_digits n
  have hne : (showU16 n).toList ≠ [] := by simpa [String.toList_eq_nil_iff] using showU16_ne_empty n
  have hplain : '+' ∉ (showU16 n).toList := fun hplus => absurd (hdigits '+' hplus) (by decide)
  have hvalue : decimalValue (showU16 n).toList = some n.toNat := by
    rw [decimalValue, if_pos ⟨hne, List.all_eq_true.mpr hdigits⟩, showU16, String.toList_ofList,
      Nat.ofDigitChars_ten_toDigits]
  rw [parseU16_plain hplain, hvalue, Option.bind_some, if_pos n.toNat_lt, UInt16.ofNat_toNat]

/-! ### UTF-8 -/

def isContinuation (b : UInt8) : Bool := b &&& 0xC0 == 0x80

/-- The payload bits of a continuation byte, below those read so far. -/
def continued (n : Nat) (b : UInt8) : Nat := n * 64 + (b &&& 0x3F).toNat

/-- The second byte of an encoding of three or four bytes, after the given first one: no
overlong encoding, no surrogate, nothing above the last scalar value. -/
def isSecond (lead second : UInt8) : Bool :=
  if lead == 0xE0 then 0xA0 ≤ second && second ≤ 0xBF
  else if lead == 0xED then 0x80 ≤ second && second ≤ 0x9F
  else if lead == 0xF0 then 0x90 ≤ second && second ≤ 0xBF
  else if lead == 0xF4 then 0x80 ≤ second && second ≤ 0x8F
  else isContinuation second

/-- One character, or a maximal invalid sequence, and the bytes after it. -/
def decodeChar (lead : UInt8) (bytes : List UInt8) : Option Char × List UInt8 :=
  if lead < 0x80 then (some (Char.ofNat lead.toNat), bytes)
  else if 0xC2 ≤ lead && lead ≤ 0xDF then
    match bytes with
    | b :: rest =>
      if isContinuation b then (some (Char.ofNat (continued (lead &&& 0x1F).toNat b)), rest)
      else (none, bytes)
    | [] => (none, [])
  else if 0xE0 ≤ lead && lead ≤ 0xEF then
    match bytes with
    | b :: rest =>
      if isSecond lead b then
        match rest with
        | c :: rest' =>
          if isContinuation c then
            (some (Char.ofNat (continued (continued (lead &&& 0x0F).toNat b) c)), rest')
          else (none, rest)
        | [] => (none, [])
      else (none, bytes)
    | [] => (none, [])
  else if 0xF0 ≤ lead && lead ≤ 0xF4 then
    match bytes with
    | b :: rest =>
      if isSecond lead b then
        match rest with
        | c :: rest' =>
          if isContinuation c then
            match rest' with
            | d :: rest'' =>
              if isContinuation d then
                (some (Char.ofNat (continued (continued (continued (lead &&& 0x07).toNat b) c) d)), rest'')
              else (none, rest')
            | [] => (none, [])
          else (none, rest)
        | [] => (none, [])
      else (none, bytes)
    | [] => (none, [])
  else (none, bytes)

/-- The characters of a byte string, an invalid sequence as `none`. Each takes at least one
byte, so that the number of bytes is enough fuel. -/
def decodeUtf8 : Nat → List UInt8 → List (Option Char)
  | _, [] => []
  | 0, _ => []
  | fuel + 1, b :: bytes =>
    let (c, rest) := decodeChar b bytes
    c :: decodeUtf8 fuel rest

/-- `str::from_utf8`. -/
def fromUtf8 (bytes : List UInt8) : Option String :=
  ((decodeUtf8 bytes.length bytes).mapM id).map String.ofList

/-- `String::from_utf8_lossy`. -/
def fromUtf8Lossy (bytes : List UInt8) : String :=
  String.ofList ((decodeUtf8 bytes.length bytes).map fun c => c.getD (Char.ofNat 0xFFFD))

/-- The bytes of a text. -/
def toUtf8 (s : String) : List UInt8 := s.toList.flatMap String.utf8EncodeChar

theorem isContinuation_ofNat : ∀ n < 64, isContinuation (UInt8.ofNat (n + 128)) = true := by decide

theorem payload_continuation : ∀ n < 64, (UInt8.ofNat (n + 128) &&& 0x3F).toNat = n := by decide

theorem payload_two : ∀ n < 32, (UInt8.ofNat (n + 192) &&& 0x1F).toNat = n := by decide

theorem payload_three : ∀ n < 16, (UInt8.ofNat (n + 224) &&& 0x0F).toNat = n := by decide

theorem payload_four : ∀ n < 8, (UInt8.ofNat (n + 240) &&& 0x07).toNat = n := by decide

theorem lead_two : ∀ n < 32, 2 ≤ n →
    ¬ UInt8.ofNat (n + 192) < 0x80 ∧ (0xC2 ≤ UInt8.ofNat (n + 192) && UInt8.ofNat (n + 192) ≤ 0xDF) = true := by
  decide

theorem lead_three : ∀ n < 16,
    ¬ UInt8.ofNat (n + 224) < 0x80 ∧ ¬ (0xC2 ≤ UInt8.ofNat (n + 224) && UInt8.ofNat (n + 224) ≤ 0xDF) = true ∧
    (0xE0 ≤ UInt8.ofNat (n + 224) && UInt8.ofNat (n + 224) ≤ 0xEF) = true := by
  decide

theorem lead_four : ∀ n < 5,
    ¬ UInt8.ofNat (n + 240) < 0x80 ∧ ¬ (0xC2 ≤ UInt8.ofNat (n + 240) && UInt8.ofNat (n + 240) ≤ 0xDF) = true ∧
    ¬ (0xE0 ≤ UInt8.ofNat (n + 240) && UInt8.ofNat (n + 240) ≤ 0xEF) = true ∧
    (0xF0 ≤ UInt8.ofNat (n + 240) && UInt8.ofNat (n + 240) ≤ 0xF4) = true := by
  decide

/-- No overlong encoding and no surrogate. -/
theorem isSecond_three : ∀ n < 16, ∀ m < 64, (n = 0 → 32 ≤ m) → (n = 13 → m < 32) →
    isSecond (UInt8.ofNat (n + 224)) (UInt8.ofNat (m + 128)) = true := by
  decide

theorem isSecond_four : ∀ n < 5, ∀ m < 64, (n = 0 → 16 ≤ m) → (n = 4 → m < 16) →
    isSecond (UInt8.ofNat (n + 240)) (UInt8.ofNat (m + 128)) = true := by
  decide

theorem lead_one : ∀ n < 128, UInt8.ofNat n < 0x80 ∧ (UInt8.ofNat n).toNat = n := by decide

/-- A character is read back from its encoding. -/
theorem decodeChar_utf8EncodeChar (c : Char) (rest : List UInt8) :
    ∃ b bs, String.utf8EncodeChar c ++ rest = b :: bs ∧ decodeChar b bs = (some c, rest) := by
  have hvalid : c.val.toNat < 0xD800 ∨ 0xDFFF < c.val.toNat ∧ c.val.toNat < 0x110000 := c.valid
  have hc : Char.ofNat c.val.toNat = c := Char.ofNat_toNat c
  generalize hv : c.val.toNat = v at hvalid hc
  rw [String.utf8EncodeChar, hv]
  by_cases h1 : v ≤ 0x7f
  · obtain ⟨hlead, hbyte⟩ := lead_one v (by omega)
    refine ⟨_, _, by rw [if_pos h1]; rfl, ?_⟩
    rw [decodeChar.eq_def, if_pos hlead, hbyte, hc]
    rfl
  by_cases h2 : v ≤ 0x7ff
  · obtain ⟨hlead, hrange⟩ := lead_two (v / 64 % 32) (by omega) (by omega)
    refine ⟨_, _ :: rest, by rw [if_neg h1, if_pos h2]; rfl, ?_⟩
    rw [decodeChar.eq_def, if_neg hlead, if_pos hrange]
    have hcont := isContinuation_ofNat (v % 64) (by omega)
    have hvalue : continued (UInt8.ofNat (v / 64 % 32 + 192) &&& 0x1F).toNat (UInt8.ofNat (v % 64 + 128)) = v := by
      rw [continued, payload_two _ (by omega), payload_continuation _ (by omega)]
      omega
    simp only [hcont, if_true, hvalue, hc]
  by_cases h3 : v ≤ 0xffff
  · obtain ⟨hlead, htwo, hthree⟩ := lead_three (v / 4096 % 16) (by omega)
    refine ⟨_, _ :: _ :: rest, by rw [if_neg h1, if_neg h2, if_pos h3]; rfl, ?_⟩
    rw [decodeChar.eq_def, if_neg hlead, if_neg htwo, if_pos hthree]
    have hsecond := isSecond_three (v / 4096 % 16) (by omega) (v / 64 % 64) (by omega) (by omega) (by omega)
    have hcont := isContinuation_ofNat (v % 64) (by omega)
    have hvalue : continued (continued (UInt8.ofNat (v / 4096 % 16 + 224) &&& 0x0F).toNat
        (UInt8.ofNat (v / 64 % 64 + 128))) (UInt8.ofNat (v % 64 + 128)) = v := by
      rw [continued, continued, payload_three _ (by omega), payload_continuation _ (by omega),
        payload_continuation _ (by omega)]
      omega
    simp only [hsecond, hcont, if_true, hvalue, hc]
  · obtain ⟨hlead, htwo, hthree, hfour⟩ := lead_four (v / 262144 % 8) (by omega)
    refine ⟨_, _ :: _ :: _ :: rest, by rw [if_neg h1, if_neg h2, if_neg h3]; rfl, ?_⟩
    rw [decodeChar.eq_def, if_neg hlead, if_neg htwo, if_neg hthree, if_pos hfour]
    have hsecond := isSecond_four (v / 262144 % 8) (by omega) (v / 4096 % 64) (by omega) (by omega) (by omega)
    have hcont := isContinuation_ofNat (v / 64 % 64) (by omega)
    have hlast := isContinuation_ofNat (v % 64) (by omega)
    have hvalue : continued (continued (continued (UInt8.ofNat (v / 262144 % 8 + 240) &&& 0x07).toNat
        (UInt8.ofNat (v / 4096 % 64 + 128))) (UInt8.ofNat (v / 64 % 64 + 128))) (UInt8.ofNat (v % 64 + 128)) = v := by
      rw [continued, continued, continued, payload_four _ (by omega), payload_continuation _ (by omega),
        payload_continuation _ (by omega), payload_continuation _ (by omega)]
      omega
    simp only [hsecond, hcont, hlast, if_true, hvalue, hc]

theorem decodeUtf8_encode (cs : List Char) (fuel : Nat) (h : (cs.flatMap String.utf8EncodeChar).length ≤ fuel) :
    decodeUtf8 fuel (cs.flatMap String.utf8EncodeChar) = cs.map some := by
  induction cs generalizing fuel with
  | nil => cases fuel <;> rfl
  | cons c cs ih =>
    obtain ⟨b, bs, hbytes, hchar⟩ := decodeChar_utf8EncodeChar c (cs.flatMap String.utf8EncodeChar)
    rw [List.flatMap_cons] at h ⊢
    rw [List.length_append] at h
    have hlen : 1 ≤ (String.utf8EncodeChar c).length := by
      rw [String.length_utf8EncodeChar]
      exact c.utf8Size_pos
    obtain ⟨fuel, rfl⟩ : ∃ n, fuel = n + 1 := ⟨fuel - 1, by omega⟩
    rw [hbytes, decodeUtf8, hchar, List.map_cons]
    exact congrArg (some c :: ·) (ih fuel (by omega))

/-- A text is read back from its bytes. -/
@[simp] theorem fromUtf8Lossy_toUtf8 (s : String) : fromUtf8Lossy (toUtf8 s) = s := by
  rw [fromUtf8Lossy, toUtf8, decodeUtf8_encode _ _ (Nat.le_refl _), List.map_map]
  have hid : (fun c => Option.getD c (Char.ofNat 0xFFFD)) ∘ some = id := rfl
  rw [hid, List.map_id, String.ofList_toList]

@[simp] theorem fromUtf8_toUtf8 (s : String) : fromUtf8 (toUtf8 s) = some s := by
  have hall : ∀ cs : List Char, (cs.map some).mapM id = some cs := by
    intro cs
    induction cs with
    | nil => rfl
    | cons c cs ih => rw [List.map_cons, List.mapM_cons, ih]; rfl
  rw [fromUtf8, toUtf8, decodeUtf8_encode _ _ (Nat.le_refl _), hall, Option.map_some, String.ofList_toList]

/-- An invalid sequence, a character of one byte, or one of more. -/
theorem decodeChar_cases (lead : UInt8) (bytes : List UInt8) :
    (∃ rest, rest <:+ bytes ∧ decodeChar lead bytes = (none, rest)) ∨
    (lead < 0x80 ∧ decodeChar lead bytes = (some (Char.ofNat lead.toNat), bytes)) ∨
    ∃ c rest, rest <:+ bytes ∧ rest.length < bytes.length ∧ decodeChar lead bytes = (some c, rest) := by
  have hone (b : UInt8) (rest : List UInt8) : rest <:+ b :: rest := List.suffix_cons ..
  have htwo (b c : UInt8) (rest : List UInt8) : rest <:+ b :: c :: rest := (hone c rest).trans (hone b _)
  have hthree (b c d : UInt8) (rest : List UInt8) : rest <:+ b :: c :: d :: rest := (htwo c d rest).trans (hone b _)
  fun_cases decodeChar lead bytes with
  | case1 => exact .inr (.inl ⟨by assumption, rfl⟩)
  | case2 => exact .inr (.inr ⟨_, _, hone .., by simp only [List.length_cons]; omega, rfl⟩)
  | case5 => exact .inr (.inr ⟨_, _, htwo .., by simp only [List.length_cons]; omega, rfl⟩)
  | case10 => exact .inr (.inr ⟨_, _, hthree .., by simp only [List.length_cons]; omega, rfl⟩)
  | _ => first
    | exact .inl ⟨_, List.suffix_rfl, rfl⟩
    | exact .inl ⟨_, List.nil_suffix, rfl⟩
    | exact .inl ⟨_, hone .., rfl⟩
    | exact .inl ⟨_, htwo .., rfl⟩

theorem decodeChar_suffix (lead : UInt8) (bytes : List UInt8) : (decodeChar lead bytes).2 <:+ bytes := by
  obtain ⟨rest, hrest, h⟩ | ⟨-, h⟩ | ⟨c, rest, hrest, -, h⟩ := decodeChar_cases lead bytes
  · rwa [h]
  · have hsame : (decodeChar lead bytes).2 = bytes := congrArg Prod.snd h
    exact ⟨[], hsame⟩
  · rwa [h]

theorem length_decodeUtf8_le (fuel : Nat) (bytes : List UInt8) : (decodeUtf8 fuel bytes).length ≤ bytes.length := by
  induction fuel generalizing bytes with
  | zero => cases bytes <;> simp [decodeUtf8]
  | succ fuel ih =>
    cases bytes with
    | nil => simp [decodeUtf8]
    | cons b bytes =>
      rw [decodeUtf8, List.length_cons, List.length_cons]
      exact Nat.succ_le_succ ((ih _).trans (decodeChar_suffix b bytes).length_le)

/-! ### Decoding in parts -/

theorem not_isContinuation {b : UInt8} (h : b < 0x80) : isContinuation b = false := by
  have hall : ∀ n < 128, isContinuation (UInt8.ofNat n) = false := by decide
  have hb : UInt8.ofNat b.toNat = b := UInt8.ofNat_toNat
  rw [← hb]
  exact hall _ (UInt8.lt_iff_toNat_lt.mp h)

theorem not_isSecond (lead : UInt8) {b : UInt8} (h : b < 0x80) : isSecond lead b = false := by
  have hb := UInt8.lt_iff_toNat_lt.mp h
  have hlow : ∀ k : UInt8, 0x80 ≤ k.toNat → ¬ k ≤ b := by
    intro k hk hle
    have hle' := UInt8.le_iff_toNat_le.mp hle
    have hbound : b.toNat < 128 := hb
    omega
  rw [isSecond]
  split_ifs
  · simp [hlow 0xA0 (by decide)]
  · simp [hlow 0x80 (by decide)]
  · simp [hlow 0x90 (by decide)]
  · simp [hlow 0x80 (by decide)]
  · exact not_isContinuation h

/-- An ASCII byte ends whatever is before it. -/
theorem decodeChar_append {a : UInt8} (ha : a < 0x80) (lead : UInt8) (bytes rest : List UInt8) :
    decodeChar lead (bytes ++ a :: rest) = ((decodeChar lead bytes).1, (decodeChar lead bytes).2 ++ a :: rest) := by
  have hcont := not_isContinuation ha
  have hsecond := not_isSecond lead ha
  rcases bytes with _ | ⟨b, _ | ⟨c, _ | ⟨d, bytes⟩⟩⟩
  all_goals
    rw [decodeChar.eq_def, decodeChar.eq_def]
    simp only [List.nil_append, List.cons_append, hcont, hsecond, Bool.false_eq_true, if_false]
    split_ifs <;> rfl

/-- With fuel for every byte it does not matter how much there is. -/
theorem decodeUtf8_congr {m n : Nat} {bytes : List UInt8} (hm : bytes.length ≤ m) (hn : bytes.length ≤ n) :
    decodeUtf8 m bytes = decodeUtf8 n bytes := by
  induction m generalizing n bytes with
  | zero =>
    rw [List.length_eq_zero_iff.mp (Nat.le_zero.mp hm)]
    cases n <;> rfl
  | succ m ih =>
    cases bytes with
    | nil => cases n <;> rfl
    | cons b bytes =>
      have hrest := (decodeChar_suffix b bytes).length_le
      rw [List.length_cons] at hm hn
      obtain ⟨n, rfl⟩ : ∃ k, n = k + 1 := ⟨n - 1, by omega⟩
      have hm' : (decodeChar b bytes).2.length ≤ m := by omega
      have hn' : (decodeChar b bytes).2.length ≤ n := by omega
      rw [decodeUtf8, decodeUtf8]
      dsimp only
      rw [ih hm' hn']

/-- The characters that `from_utf8_lossy` reads. -/
def lossyChars (bytes : List UInt8) : List Char :=
  (decodeUtf8 bytes.length bytes).map fun c => c.getD (Char.ofNat 0xFFFD)

theorem lossyChars_cons (b : UInt8) (bytes : List UInt8) :
    lossyChars (b :: bytes) = (decodeChar b bytes).1.getD (Char.ofNat 0xFFFD) :: lossyChars (decodeChar b bytes).2 := by
  rw [lossyChars, List.length_cons, decodeUtf8, lossyChars]
  dsimp only
  rw [decodeUtf8_congr (decodeChar_suffix b bytes).length_le (Nat.le_refl _), List.map_cons]

/-- What stands around an ASCII byte is read on its own. -/
theorem lossyChars_append {a : UInt8} (ha : a < 0x80) (xs ys : List UInt8) :
    lossyChars (xs ++ a :: ys) = lossyChars xs ++ Char.ofNat a.toNat :: lossyChars ys := by
  have hchar : decodeChar a ys = (some (Char.ofNat a.toNat), ys) := by rw [decodeChar.eq_def, if_pos ha]
  induction hn : xs.length using Nat.strong_induction_on generalizing xs with
  | _ n ih =>
    cases xs with
    | nil =>
      rw [List.nil_append, lossyChars_cons, hchar]
      rfl
    | cons b xs =>
      have hrest := (decodeChar_suffix b xs).length_le
      rw [List.length_cons] at hn
      rw [List.cons_append, lossyChars_cons, decodeChar_append ha, lossyChars_cons]
      dsimp only
      rw [ih _ (by omega) _ rfl]
      rfl

theorem lossyChars_utf8EncodeChar (c : Char) (bytes : List UInt8) :
    lossyChars (String.utf8EncodeChar c ++ bytes) = c :: lossyChars bytes := by
  obtain ⟨b, bs, hbytes, hchar⟩ := decodeChar_utf8EncodeChar c bytes
  rw [hbytes, lossyChars_cons, hchar]
  rfl

end Aether.Rust
