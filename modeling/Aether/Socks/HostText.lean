import Aether.Rust.Blanks
import Aether.Rust.Lines
import Aether.Socks.Sniff

/-! The value of a `Host` header.

`http_host` trims the value, takes a port off its end and hands the rest to `plausible_host`.
Read from the front, a value is blanks, the host text up to the next blank or colon, and what
stands behind it; it names its host if there is nothing behind it but blanks and a port
(`nameOf_eq`). So a part of a value names what the whole value names exactly if all of the host
text has arrived (`cut_iff`). -/
namespace Aether.Socks.Sniff
open Routing (Externs)

variable (X : Externs)

/-- A value without its port. -/
def withoutPort (value : String) : String :=
  match Rust.rsplitOnce ':' value with
  | some (host, port) => if port.toList.all Char.isDigit then host else value
  | none => value

/-- What a value of the `Host` header names. -/
def nameOf (value : Bytes) : Option String :=
  plausibleHost X (withoutPort (Rust.trim (Rust.fromUtf8Lossy value))).toUTF8.toList

/-! ### The parts of a value -/

/-- Neither blank nor colon. -/
def isHostChar (c : Char) : Bool := !Rust.isWhitespace c && c != ':'

/-- What stands up to the first blank or colon, the blanks before it apart. -/
def hostText (value : List Char) : List Char := (value.dropWhile Rust.isWhitespace).takeWhile isHostChar

/-- What stands behind the host text. -/
def behindHost (value : List Char) : List Char := (value.dropWhile Rust.isWhitespace).dropWhile isHostChar

/-- There is nothing but blanks, or a port with blanks around it. -/
def onlyPort (behind : List Char) : Bool :=
  match behind.dropWhile Rust.isWhitespace with
  | [] => true
  | c :: port => c == ':' && (port.dropWhile Char.isDigit).all Rust.isWhitespace

/-- The host text, with the blanks behind it if more follows. -/
def beforePort (value : List Char) : List Char :=
  hostText value ++
    if ((behindHost value).dropWhile Rust.isWhitespace).isEmpty then [] else (behindHost value).takeWhile Rust.isWhitespace

/-! ### Plausible names -/

/-- A character of a name. -/
def isNameChar (c : Char) : Bool := c.isAlphanum || c == '-' || c == '.' || c == '_'

/-- What `plausible_host` asks of a name without blanks and dots at its end. -/
def checkedName (name : String) : Option String :=
  if name.isEmpty || name.utf8ByteSize > maxHostLen then none
  else if !name.toList.all isNameChar || !Rust.containsChar '.' name then none
  else if (Rust.parseIp name).isSome then none
  else some (X.toLowercase name)

theorem plausibleHost_toUtf8 (s : String) : plausibleHost X (Rust.toUtf8 s) =
    if (Rust.toUtf8 s).length ≤ maxHostLen then checkedName X (Rust.trimEndMatches '.' (Rust.trim s)) else none := by
  have hempty : (Rust.toUtf8 s).isEmpty = true → checkedName X (Rust.trimEndMatches '.' (Rust.trim s)) = none := by
    intro h
    have hs : s = "" := by
      have hread := Rust.fromUtf8_toUtf8 s
      rw [List.isEmpty_iff.mp h] at hread
      exact (Option.some.inj hread).symm
    rw [hs]
    rfl
  have hraw : plausibleHost X (Rust.toUtf8 s) =
      if (Rust.toUtf8 s).isEmpty || (Rust.toUtf8 s).length > maxHostLen then none
      else checkedName X (Rust.trimEndMatches '.' (Rust.trim s)) := by
    rw [plausibleHost, Rust.fromUtf8_toUtf8]
    simp only [Option.bind_eq_bind, Option.bind_some, Option.bind_none]
    rfl
  by_cases hlength : (Rust.toUtf8 s).length ≤ maxHostLen
  · rw [hraw, if_pos hlength]
    cases hnil : (Rust.toUtf8 s).isEmpty with
    | true => rw [hempty hnil, ite_self]
    | false => rw [if_neg (by simpa using hlength)]
  · rw [hraw, if_neg hlength, if_pos (by simp; omega)]

/-- A character that stands in no name. -/
theorem checkedName_none {name : String} {c : Char} (hc : c ∈ name.toList) (hbad : isNameChar c = false) :
    checkedName X name = none := by
  have hall : name.toList.all isNameChar = false := by
    rw [List.all_eq_false]
    exact ⟨c, hc, by simp [hbad]⟩
  rw [checkedName, hall]
  split <;> rfl

theorem checkedName_eq_some {name found : String} (h : checkedName X name = some found) :
    (∀ c ∈ name.toList, isNameChar c = true) ∧ found = X.toLowercase name := by
  rw [checkedName] at h
  split at h
  · cases h
  · split at h
    · cases h
    · split at h
      · cases h
      · rename_i hchars _
        have hall : name.toList.all isNameChar = true := by
          cases hall : name.toList.all isNameChar with
          | true => rfl
          | false => simp [hall] at hchars
        exact ⟨List.all_eq_true.mp hall, (Option.some.inj h).symm⟩

theorem isNameChar_bounds {c : Char} (h : isNameChar c = true) : 45 ≤ c.toNat ∧ c.toNat ≤ 122 ∧ c.toNat ≠ 58 := by
  simp only [isNameChar, Char.isAlphanum, Char.isAlpha, Char.isUpper, Char.isLower, Char.isDigit, Bool.or_eq_true,
    Bool.and_eq_true, decide_eq_true_eq, beq_iff_eq, UInt32.le_iff_toNat_le] at h
  have hval : c.val.toNat = c.toNat := rfl
  rcases h with ((((h | h) | h) | rfl) | rfl) | rfl
  all_goals first
    | decide
    | simp at h; omega

theorem isHostChar_of_isNameChar {c : Char} (h : isNameChar c = true) : isHostChar c = true := by
  obtain ⟨hlo, hhi, hcolon⟩ := isNameChar_bounds h
  have hblank : Rust.isWhitespace c = false := Rust.isWhitespace_of_visible (by omega)
  have hne : c ≠ ':' := by
    rintro rfl
    exact hcolon rfl
  simp [isHostChar, hblank, hne]

/-! ### Texts that name nothing -/

theorem not_name_of_mem {s : String} {c : Char} (hc : c ∈ (Rust.trim s).toList) (hbad : isNameChar c = false) :
    plausibleHost X (Rust.toUtf8 s) = none := by
  have hdot : c ≠ '.' := by
    rintro rfl
    cases hbad
  rw [plausibleHost_toUtf8, checkedName_none X (Rust.mem_trimEndMatches hc hdot) hbad, ite_self]

/-- A colon stands in no name. -/
theorem not_name_of_colon {s : String} (h : ':' ∈ s.toList) : plausibleHost X (Rust.toUtf8 s) = none :=
  not_name_of_mem X (Rust.mem_trim h (by decide)) (by decide)

/-- Nor does a blank with something on both sides. -/
theorem not_name_of_gap {a b c : Char} (ha : Rust.isWhitespace a = false) (hb : Rust.isWhitespace b = true)
    (hc : Rust.isWhitespace c = false) (front middle back : List Char) :
    plausibleHost X (Rust.toUtf8 (String.ofList (a :: front ++ b :: middle ++ c :: back))) = none := by
  have hbad : isNameChar b = false := by
    cases hname : isNameChar b with
    | false => rfl
    | true =>
      have hhost := isHostChar_of_isNameChar hname
      rw [isHostChar, hb] at hhost
      cases hhost
  apply not_name_of_mem X _ hbad
  rw [Rust.trim, String.toList_ofList, String.toList_ofList, List.cons_append, List.cons_append,
    List.dropWhile_cons_of_neg (by simp [ha]), ← List.cons_append, ← List.cons_append, Rust.rdropWhile_append_cons hc]
  simp

/-! ### Reading a value from the front -/

section
variable {host blanks : List Char}

theorem colon_notMem (hhost : ∀ c ∈ host, isHostChar c = true) (hblanks : ∀ c ∈ blanks, Rust.isWhitespace c = true) :
    ':' ∉ host ++ blanks := by
  intro h
  rcases List.mem_append.mp h with h | h
  · exact absurd (hhost _ h) (by decide)
  · exact absurd (hblanks _ h) (by decide)

/-- A port, or none. -/
theorem all_digits_iff (port : List Char) :
    (port.rdropWhile Rust.isWhitespace).all Char.isDigit = (port.dropWhile Char.isDigit).all Rust.isWhitespace := by
  rw [Bool.eq_iff_iff, List.all_eq_true, List.all_eq_true]
  constructor
  · intro h c hc
    rw [← @List.rdropWhile_append_rtakeWhile _ Rust.isWhitespace port, List.dropWhile_append_of_pos h] at hc
    exact List.mem_rtakeWhile_imp ((List.dropWhile_suffix _).subset hc)
  · intro h c hc
    have hdrop : port.rdropWhile Rust.isWhitespace = (port.takeWhile Char.isDigit).rdropWhile Rust.isWhitespace := by
      conv_lhs => rw [← @List.takeWhile_append_dropWhile _ Char.isDigit port]
      exact Rust.rdropWhile_append h _
    rw [hdrop] at hc
    exact List.mem_takeWhile_imp ((List.rdropWhile_prefix _ _).subset hc)

/-- A port that is taken off. -/
theorem withoutPort_port (front : List Char) {port : List Char} (hport : port.all Char.isDigit = true) :
    withoutPort (String.ofList (front ++ ':' :: port)) = String.ofList front := by
  have hfree : ':' ∉ (String.ofList port).toList := by
    rw [String.toList_ofList]
    intro h
    exact absurd (List.all_eq_true.mp hport _ h) (by decide)
  have hsplit : String.ofList (front ++ ':' :: port)
    = String.ofList front ++ String.singleton ':' ++ String.ofList port := by
    rw [← String.toList_inj]
    simp
  rw [withoutPort, hsplit, Rust.rsplitOnce_append hfree]
  dsimp only
  rw [String.toList_ofList, if_pos hport]

/-- What is no port stays, colon and all. -/
theorem colon_mem_withoutPort {front : List Char} (hfree : ':' ∉ front) {port : List Char}
    (hport : port.all Char.isDigit = false) : ':' ∈ (withoutPort (String.ofList (front ++ ':' :: port))).toList := by
  have hwhole : ':' ∈ (String.ofList (front ++ ':' :: port)).toList := by simp
  rw [withoutPort]
  split
  case h_1 host back hsplit =>
    split
    case isTrue hdigits =>
      -- two cuts with no colon before them are one
      by_contra hhost
      obtain ⟨hparts, -⟩ := Rust.rsplitOnce_eq_some hsplit
      have hfirst := Rust.splitOnce_append hhost back
      rw [← hparts] at hfirst
      have hown : ':' ∉ (String.ofList front).toList := by rwa [String.toList_ofList]
      have hsecond := Rust.splitOnce_append hown (String.ofList port)
      have hsame : String.ofList front ++ String.singleton ':' ++ String.ofList port =
          String.ofList (front ++ ':' :: port) := by
        rw [← String.toList_inj]
        simp
      rw [hsame, hfirst] at hsecond
      obtain ⟨-, rfl⟩ := Prod.mk.inj (Option.some.inj hsecond)
      rw [String.toList_ofList, hport] at hdigits
      cases hdigits
    case isFalse => exact hwhole
  case h_2 => exact hwhole

/-- Of a text with a colon behind, the front stays. -/
theorem withoutPort_front {front : List Char} (hfront : ':' ∉ front) (back : List Char) :
    ∃ more, withoutPort (String.ofList (front ++ back)) = String.ofList (front ++ more) := by
  rw [withoutPort]
  split
  case h_1 host port hsplit =>
    split
    case isTrue =>
      obtain ⟨hparts, -⟩ := Rust.rsplitOnce_eq_some hsplit
      have hlist := congrArg String.toList hparts
      simp only [String.toList_ofList, String.toList_append, String.toList_singleton] at hlist
      have hhost : front <+: host.toList ++ [':'] ++ port.toList := by
        rw [← hlist]
        exact List.prefix_append _ _
      rcases List.prefix_or_prefix_of_prefix hhost (List.prefix_append (host.toList ++ [':']) _) with hle | hge
      · rcases List.prefix_concat_iff.mp hle with heq | ⟨more, hmore⟩
        · exact absurd (by rw [heq]; simp) hfront
        · exact ⟨more, by rw [hmore, String.ofList_toList]⟩
      · exact absurd (hge.subset (by simp)) hfront
    case isFalse => exact ⟨back, rfl⟩
  case h_2 => exact ⟨back, rfl⟩

end

theorem hostText_chars (value : List Char) : ∀ c ∈ hostText value, isHostChar c = true :=
  fun _ hc => List.mem_takeWhile_imp hc

theorem hostText_solid (value : List Char) : ∀ c ∈ hostText value, Rust.isWhitespace c = false := by
  intro c hc
  have hhost := hostText_chars value c hc
  rw [isHostChar, Bool.and_eq_true, Bool.not_eq_true'] at hhost
  exact hhost.1

theorem value_parts (value : List Char) :
    value.dropWhile Rust.isWhitespace = hostText value ++ behindHost value :=
  List.takeWhile_append_dropWhile.symm

theorem trim_value (value : List Char) :
    Rust.trim (String.ofList value) = String.ofList ((hostText value ++ behindHost value).rdropWhile Rust.isWhitespace)
      := by
  rw [Rust.trim, String.toList_ofList, value_parts]

/-- A value without anything but blanks behind the host text. -/
theorem withoutPort_bare {value : List Char} (h : (behindHost value).dropWhile Rust.isWhitespace = []) :
    withoutPort (Rust.trim (String.ofList value)) = String.ofList (hostText value) := by
  have hself : (hostText value).rdropWhile Rust.isWhitespace = hostText value := by
    rw [List.rdropWhile_eq_self_iff]
    intro hne hlast
    rw [hostText_solid value _ (List.getLast_mem hne)] at hlast
    cases hlast
  have htrim : Rust.trim (String.ofList value) = String.ofList (hostText value) := by
    rw [trim_value, Rust.rdropWhile_append (List.dropWhile_eq_nil_iff.mp h), hself]
  have hfree : ':' ∉ (String.ofList (hostText value)).toList := by
    rw [String.toList_ofList]
    intro h
    exact absurd (hostText_chars value _ h) (by decide)
  rw [htrim, withoutPort, Rust.rsplitOnce_of_notMem hfree]

/-- One with something behind. -/
theorem trim_followed {value rest : List Char} {c : Char}
    (h : (behindHost value).dropWhile Rust.isWhitespace = c :: rest) :
    Rust.trim (String.ofList value) = String.ofList (hostText value ++ (behindHost value).takeWhile Rust.isWhitespace ++
      c :: rest.rdropWhile Rust.isWhitespace) := by
  have hbehind : behindHost value = (behindHost value).takeWhile Rust.isWhitespace ++ c :: rest := by
    rw [← h, List.takeWhile_append_dropWhile]
  rw [trim_value]
  conv_lhs => rw [hbehind]
  rw [← List.append_assoc, Rust.rdropWhile_append_cons (Rust.head_dropWhile h)]

/-- What stands behind a blank behind the host text, and is no colon, makes the value no name. -/
theorem not_name_of_more {value rest : List Char} {c : Char}
    (h : (behindHost value).dropWhile Rust.isWhitespace = c :: rest) (hc : c ≠ ':') :
    plausibleHost X (Rust.toUtf8 (withoutPort (Rust.trim (String.ofList value)))) = none := by
  have hblank := Rust.head_dropWhile h
  have hmem : ∀ d ∈ (behindHost value).takeWhile Rust.isWhitespace, Rust.isWhitespace d = true :=
    fun d hd => List.mem_takeWhile_imp hd
  have hfree := colon_notMem (hostText_chars value) hmem
  rw [trim_followed h]
  cases hgap : (behindHost value).takeWhile Rust.isWhitespace with
  | nil =>
    -- without a blank in between, the character were one of the host text
    have hbehind : behindHost value = c :: rest := by
      rw [← @List.takeWhile_append_dropWhile _ Rust.isWhitespace (behindHost value), hgap, h, List.nil_append]
    have hhost : isHostChar c = false := Rust.head_dropWhile hbehind
    simp [isHostChar, hblank, hc] at hhost
  | cons b gap =>
    rw [hgap] at hmem hfree
    cases hhost : hostText value with
    | nil =>
      -- and a blank at the front of the value is not behind it
      have hfront : value.dropWhile Rust.isWhitespace = b :: (gap ++ c :: rest) := by
        rw [value_parts, hhost, List.nil_append,
          ← @List.takeWhile_append_dropWhile _ Rust.isWhitespace (behindHost value),
          hgap, h, List.cons_append]
      have hb := hmem b (List.mem_cons_self ..)
      rw [Rust.head_dropWhile hfront] at hb
      cases hb
    | cons a host =>
      have ha : Rust.isWhitespace a = false := hostText_solid value a (by rw [hhost]; exact List.mem_cons_self ..)
      have hlonger : ':' ∉ hostText value ++ b :: gap ++ [c] := by
        rw [List.mem_append, not_or]
        exact ⟨hfree, by simpa using hc.symm⟩
      obtain ⟨more, hmore⟩ := withoutPort_front hlonger (rest.rdropWhile Rust.isWhitespace)
      have hcut (tail : List Char) : a :: host ++ b :: gap ++ c :: tail = a :: host ++ b :: gap ++ [c] ++ tail :=
        by simp
      rw [hhost] at hmore
      rw [hcut, hmore, ← hcut]
      exact not_name_of_gap X ha (hmem b (List.mem_cons_self ..)) hblank host gap more

theorem onlyPort_of_cons {behind rest : List Char} {c : Char} (h : behind.dropWhile Rust.isWhitespace = c :: rest) :
    onlyPort behind = (c == ':' && (rest.rdropWhile Rust.isWhitespace).all Char.isDigit) := by
  rw [onlyPort, h, all_digits_iff]

theorem beforePort_of_cons {value rest : List Char} {c : Char}
    (h : (behindHost value).dropWhile Rust.isWhitespace = c :: rest) :
    beforePort value = hostText value ++ (behindHost value).takeWhile Rust.isWhitespace := by
  rw [beforePort, h]
  rfl

/-- **A value names its host text, if there is nothing behind it but blanks and a port.** -/
theorem nameOf_eq (value : Bytes) : nameOf X value =
    if onlyPort (behindHost (Rust.lossyChars value)) then
      plausibleHost X (Rust.toUtf8 (String.ofList (beforePort (Rust.lossyChars value))))
    else none := by
  rw [nameOf, Rust.toList_toUTF8]
  show plausibleHost X (Rust.toUtf8 (withoutPort (Rust.trim (String.ofList (Rust.lossyChars value))))) = _
  generalize Rust.lossyChars value = text
  cases hrest : (behindHost text).dropWhile Rust.isWhitespace with
  | nil =>
    rw [withoutPort_bare hrest, onlyPort, beforePort, hrest]
    simp
  | cons c rest =>
    rw [onlyPort_of_cons hrest]
    by_cases hc : c = ':'
    · subst hc
      have hblanks : ∀ d ∈ (behindHost text).takeWhile Rust.isWhitespace, Rust.isWhitespace d = true :=
        fun d hd => List.mem_takeWhile_imp hd
      have hfree := colon_notMem (hostText_chars text) hblanks
      rw [trim_followed hrest, beforePort_of_cons hrest]
      cases hport : (rest.rdropWhile Rust.isWhitespace).all Char.isDigit with
      | true =>
        rw [withoutPort_port _ hport]
        simp
      | false =>
        rw [not_name_of_colon X (colon_mem_withoutPort hfree hport)]
        simp
    · rw [not_name_of_more X hrest hc]
      simp [hc]

/-! ### A part of a value -/

/-- What has arrived of a value is a name: it is plausible, and nothing but a port follows. -/
def NamesHost (arrived : List Char) : Prop :=
  onlyPort (behindHost arrived) = true ∧
    (plausibleHost X (Rust.toUtf8 (String.ofList (beforePort arrived)))).isSome = true

/-- All of the host text has arrived, dots at its end aside, and nothing but a port follows it in
the whole value. -/
def HostArrived (arrived whole : List Char) : Prop :=
  (∃ n, hostText whole = hostText arrived ++ List.replicate n '.') ∧ onlyPort (behindHost whole) = true ∧
    (Rust.toUtf8 (String.ofList (beforePort whole))).length ≤ maxHostLen

theorem plausible_beforePort (value : List Char) :
    plausibleHost X (Rust.toUtf8 (String.ofList (beforePort value))) =
      if (Rust.toUtf8 (String.ofList (beforePort value))).length ≤ maxHostLen then
        checkedName X (Rust.trimEndMatches '.' (String.ofList (hostText value)))
      else none := by
  have hsolid : Rust.trim (String.ofList (hostText value)) = String.ofList (hostText value) := by
    apply Rust.trim_of_solid
    rw [String.toList_ofList]
    exact hostText_solid value
  have htrim : Rust.trim (String.ofList (beforePort value)) = String.ofList (hostText value) := by
    rw [beforePort, Rust.trim_append_blank, hsolid]
    intro c hc
    split at hc
    · cases hc
    · exact List.mem_takeWhile_imp hc
  rw [plausibleHost_toUtf8, htrim]

theorem namesHost_iff {arrived : List Char} : NamesHost X arrived ↔ onlyPort (behindHost arrived) = true ∧
    (Rust.toUtf8 (String.ofList (beforePort arrived))).length ≤ maxHostLen ∧
    ∃ name, checkedName X (Rust.trimEndMatches '.' (String.ofList (hostText arrived))) = some name := by
  rw [NamesHost, plausible_beforePort, ← Option.isSome_iff_exists]
  by_cases hlength : (Rust.toUtf8 (String.ofList (beforePort arrived))).length ≤ maxHostLen
  · simp [hlength]
  · simp [hlength]

theorem nameOf_isSome_iff (value : Bytes) : (nameOf X value).isSome = true ↔ NamesHost X (Rust.lossyChars value) := by
  rw [nameOf_eq, NamesHost]
  cases onlyPort (behindHost (Rust.lossyChars value)) <;> simp

/-- The characters of a host text that is a name. -/
theorem isNameChar_hostText {text : List Char} {name : String}
    (h : checkedName X (Rust.trimEndMatches '.' (String.ofList text)) = some name) : ∀ c ∈ text,
      isNameChar c = true := by
  intro c hc
  obtain ⟨n, hparts, -⟩ := Rust.exists_trimEndMatches '.' (String.ofList text)
  rw [String.toList_ofList] at hparts
  rw [hparts] at hc
  rcases List.mem_append.mp hc with hc | hc
  · exact (checkedName_eq_some X h).1 c hc
  · rw [List.eq_of_mem_replicate hc]
    rfl

/-- Nothing was replaced in a text that is a name. -/
theorem no_replacement {text : List Char} (h : NamesHost X text) : Char.ofNat 0xFFFD ∉ text := by
  obtain ⟨hport, -, name, hname⟩ := (namesHost_iff X).mp h
  have hblank : Rust.isWhitespace (Char.ofNat 0xFFFD) = false := by decide
  intro hmem
  rw [← @List.takeWhile_append_dropWhile _ Rust.isWhitespace text, value_parts, List.mem_append,
    List.mem_append] at hmem
  rcases hmem with hmem | hmem | hmem
  · rw [List.mem_takeWhile_imp hmem] at hblank
    cases hblank
  · exact absurd (isNameChar_hostText X hname _ hmem) (by decide)
  · rw [← @List.takeWhile_append_dropWhile _ Rust.isWhitespace (behindHost text), List.mem_append] at hmem
    rcases hmem with hmem | hmem
    · rw [List.mem_takeWhile_imp hmem] at hblank
      cases hblank
    · rw [onlyPort] at hport
      split at hport
      · rename_i hnil
        rw [hnil] at hmem
        cases hmem
      · rename_i c port hcons
        rw [Bool.and_eq_true, beq_iff_eq, List.all_eq_true] at hport
        obtain ⟨rfl, hblanks⟩ := hport
        rw [hcons, List.mem_cons, ← @List.takeWhile_append_dropWhile _ Char.isDigit port, List.mem_append] at hmem
        rcases hmem with hmem | hmem | hmem
        · exact absurd hmem (by decide)
        · exact absurd (List.mem_takeWhile_imp hmem) (by decide)
        · rw [hblanks _ hmem] at hblank
          cases hblank

/-- The host text of a part is the front of that of the whole. -/
theorem hostText_prefix {text : List Char} (h : hostText text ≠ []) (more : List Char) :
    hostText text <+: hostText (text ++ more) := by
  have hsome : ((text.dropWhile Rust.isWhitespace).isEmpty) = false := by
    cases hdrop : text.dropWhile Rust.isWhitespace with
    | nil => exact absurd (by rw [hostText, hdrop]; rfl) h
    | cons c rest => rfl
  rw [hostText, hostText, List.dropWhile_append, hsome, if_neg Bool.false_ne_true, List.takeWhile_append]
  split
  · rename_i hall
    have hself := (List.takeWhile_prefix (p := isHostChar) (l := text.dropWhile Rust.isWhitespace)).eq_of_length hall
    rw [hself]
    exact List.prefix_append _ _
  · exact List.prefix_rfl

theorem hostText_concat {c : Char} (hc : Rust.isWhitespace c = true) (text : List Char) :
    hostText (text ++ [c]) = hostText text := by
  have hhost : [c].takeWhile isHostChar = [] := List.takeWhile_cons_of_neg (by simp [isHostChar, hc])
  rw [hostText, hostText, List.dropWhile_append]
  split
  · rename_i hnil
    rw [List.isEmpty_iff.mp hnil, List.dropWhile_cons_of_pos hc]
    rfl
  · rw [List.takeWhile_append, hhost]
    split
    · rename_i hall
      have hself := (List.takeWhile_prefix (p := isHostChar) (l := text.dropWhile Rust.isWhitespace)).eq_of_length hall
      rw [hself, List.append_nil]
    · rfl

/-- The host text that has arrived is the front of the whole one. -/
theorem hostText_line {value : Bytes} (hline : Rust.cutAt [13, 10] value = none)
    (h : NamesHost X (Rust.lossyChars value))
    (more : Bytes) :
    hostText (Rust.lossyChars value) <+: hostText (Rust.lossyChars (Rust.lineOf 13 10 (value ++ more))) := by
  obtain ⟨-, -, name, hname⟩ := (namesHost_iff X).mp h
  have hne : hostText (Rust.lossyChars value) ≠ [] := by
    intro hnil
    rw [hnil] at hname
    cases hname
  rcases Rust.lineOf_append hline more with ⟨rest, hrest⟩ | hcr
  · have hbytes := Rust.eq_of_no_replacement (no_replacement X h)
    rw [hrest]
    conv_rhs => rw [hbytes, Rust.lossyChars_flatMap_append]
    exact hostText_prefix hne _
  · -- the part ends between the two marks
    have htext : Rust.lossyChars value = Rust.lossyChars (Rust.lineOf 13 10 (value ++ more)) ++ ['\r'] := by
      conv_lhs => rw [hcr]
      exact Rust.lossyChars_append (by decide) _ _
    rw [htext, hostText_concat (by decide)]

/-- What small letters keep of an ASCII text. -/
theorem length_toLowercase (hlower : ∀ s, Rust.isAscii s = true → X.toLowercase s = Rust.toAsciiLowercase s)
    {name : String} (h : ∀ c ∈ name.toList, isNameChar c = true) :
    (X.toLowercase name).toList.length = name.toList.length := by
  have hascii : Rust.isAscii name = true := by
    rw [Rust.isAscii, List.all_eq_true]
    intro c hc
    obtain ⟨-, hhi, -⟩ := isNameChar_bounds (h c hc)
    exact decide_eq_true (by omega)
  rw [hlower name hascii, Rust.toAsciiLowercase, String.toList_ofList, List.length_map]

/-- A host text that goes on is the same name exactly if it goes on with dots. -/
theorem same_name_iff (hlower : ∀ s, Rust.isAscii s = true → X.toLowercase s = Rust.toAsciiLowercase s)
    {host more : List Char} {name : String} (h : checkedName X (Rust.trimEndMatches '.' (String.ofList host))
      = some name) :
    checkedName X (Rust.trimEndMatches '.' (String.ofList (host ++ more))) = some name ↔
      ∃ n, more = List.replicate n '.' := by
  constructor
  · intro hmore
    obtain ⟨hchars, hfound⟩ := checkedName_eq_some X h
    obtain ⟨hchars', hfound'⟩ := checkedName_eq_some X hmore
    have hlength := length_toLowercase X hlower hchars
    have hlength' := length_toLowercase X hlower hchars'
    rw [← hfound] at hlength
    rw [← hfound', hlength] at hlength'
    obtain ⟨m, hparts, -⟩ := Rust.exists_trimEndMatches '.' (String.ofList host)
    obtain ⟨k, hparts', -⟩ := Rust.exists_trimEndMatches '.' (String.ofList (host ++ more))
    rw [String.toList_ofList] at hparts hparts'
    have hwhole : (Rust.trimEndMatches '.' (String.ofList host)).toList ++ (List.replicate m '.' ++ more) =
        (Rust.trimEndMatches '.' (String.ofList (host ++ more))).toList ++ List.replicate k '.' := by
      rw [← List.append_assoc, ← hparts]
      exact hparts'
    obtain ⟨-, hdots⟩ := List.append_inj hwhole hlength'
    refine ⟨more.length, List.eq_replicate_of_mem fun c hc => ?_⟩
    have hmem : c ∈ List.replicate k '.' := by
      rw [← hdots]
      exact List.mem_append_right _ hc
    exact List.eq_of_mem_replicate hmem
  · rintro ⟨n, rfl⟩
    have hdots : ∀ c ∈ List.replicate n '.', (c == '.') = true := by
      intro c hc
      rw [List.eq_of_mem_replicate hc]
      rfl
    have hsame : Rust.trimEndMatches '.' (String.ofList (host ++ List.replicate n '.')) =
        Rust.trimEndMatches '.' (String.ofList host) := by
      rw [Rust.trimEndMatches, Rust.trimEndMatches, String.toList_ofList, String.toList_ofList,
        Rust.rdropWhile_append hdots]
    rw [hsame]
    exact h

/-- **A part of a value names nothing or what the whole value names, exactly if it is no name
by itself or all of the host text has arrived.** -/
theorem cut_iff (hlower : ∀ s, Rust.isAscii s = true → X.toLowercase s = Rust.toAsciiLowercase s) {value : Bytes}
    (hline : Rust.cutAt [13, 10] value = none) (more : Bytes) :
    (nameOf X value = none ∨ nameOf X value = nameOf X (Rust.lineOf 13 10 (value ++ more))) ↔
      (NamesHost X (Rust.lossyChars value) →
        HostArrived (Rust.lossyChars value) (Rust.lossyChars (Rust.lineOf 13 10 (value ++ more)))) := by
  by_cases hnames : NamesHost X (Rust.lossyChars value)
  · obtain ⟨hport, hlength, name, hname⟩ := (namesHost_iff X).mp hnames
    obtain ⟨rest, hrest⟩ := hostText_line X hline hnames more
    have hvalue : nameOf X value = some name := by
      rw [nameOf_eq, if_pos hport, plausible_beforePort, if_pos hlength, hname]
    rw [hvalue, nameOf_eq, plausible_beforePort, HostArrived, ← hrest]
    simp only [List.append_cancel_left_eq, reduceCtorEq, false_or, hnames, true_implies]
    rw [← same_name_iff X hlower hname]
    cases onlyPort (behindHost (Rust.lossyChars (Rust.lineOf 13 10 (value ++ more)))) with
    | false => simp
    | true =>
      by_cases hwhole : (Rust.toUtf8 (String.ofList (beforePort
          (Rust.lossyChars (Rust.lineOf 13 10 (value ++ more)))))).length ≤ maxHostLen
      · simp [hwhole, eq_comm]
      · simp [hwhole]
  · have hnone : nameOf X value = none := by
      cases hvalue : nameOf X value with
      | none => rfl
      | some name => exact absurd ((nameOf_isSome_iff X value).mp (by rw [hvalue]; rfl)) hnames
    rw [hnone]
    exact iff_of_true (.inl rfl) fun h => absurd h hnames

end Aether.Socks.Sniff
