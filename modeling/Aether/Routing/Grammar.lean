import Aether.Routing.Lists
import Aether.Rust.AddressText
import Aether.Rust.Display

/-! How a rule is written.

A rule is a network, written bare or behind `ip:` or `cidr:`, or a word of another kind
with a colon and a value. `Entry` lists these forms. `Matcher::parse` looks for the colon
first, and an address of the sixth version has one of its own: written bare, its first
digits are taken for the kind of a rule. `read_iff` says that this is the only form that
is not read as what it is. -/
namespace Aether.Routing
open Rust (IpAddr parseIp)

variable {X : Externs}

/-! ### Networks -/

/-- The number of bits of an address. -/
def addressBits : IpAddr → Nat
  | .v4 _ => 32
  | .v6 _ => 128

/-- The addresses of a network. -/
def inNetwork (length : Nat) : IpAddr → IpAddr → Bool
  | .v4 net, .v4 ip => Rust.sameNetwork length net ip
  | .v6 net, .v6 ip => Rust.sameNetwork length net ip
  | _, _ => false

/-- An address, or an address with the length of a network behind a slash. -/
structure NetText where
  text : String
  ip : IpAddr
  length : Nat
  legal : parseIp text = some ip ∧ length = addressBits ip ∨
    ∃ address, text = address ++ "/" ++ Rust.showUnsigned length ∧ parseIp address = some ip ∧ length ≤ addressBits ip

/-- What the rules rely on: the lower case of ASCII, and the textual form of a network. -/
structure Standard (R : Reader X) : Prop where
  lower : ∀ s, Rust.isAscii s = true → X.toLowercase s = Rust.toAsciiLowercase s
  read : ∀ address ip length, parseIp address = some ip → length ≤ addressBits ip →
    ∃ net, R.parseIpNet (address ++ "/" ++ Rust.showUnsigned length) = some net ∧
      ∀ other, X.contains net other = inNetwork length ip other
  /-- A network is an address, a slash and a length. -/
  slash : ∀ text net, R.parseIpNet text = some net →
    ∃ address length, text = address ++ "/" ++ length ∧ (parseIp address).isSome
  single : ∀ ip other, X.contains (R.netOf ip) other = inNetwork (addressBits ip) ip other

/-! ### The forms of a rule -/

/-- The words with a value behind a colon. -/
inductive Form where
  | domain | suffix | full | exact | keyword | regexp | port
  deriving DecidableEq, Repr

def Form.word : Form → String
  | domain => "domain"
  | suffix => "suffix"
  | full => "full"
  | exact => "exact"
  | keyword => "keyword"
  | regexp => "regexp"
  | port => "port"

/-- The rule of a form with a value; `none` is a value that is none for it. -/
def Form.rule (R : Reader X) : Form → String → Option (Matcher X)
  | domain, value | suffix, value => (normalizeDomain X value).map .domainSuffix
  | full, value | exact, value => (normalizeDomain X value).map .domainFull
  | keyword, value =>
    let needle := X.toLowercase (Rust.trim value)
    if needle.isEmpty then none else some (.domainKeyword needle)
  | regexp, value => (R.newRegex (Rust.trim value)).map .domainRegex
  | port, value => (parsePorts value).map fun (lo, hi) => .ports lo hi

/-- Blank characters. -/
structure Blank where
  text : String
  blank : ∀ c ∈ text.toList, Rust.isWhitespace c = true

inductive Entry where
  | bare (net : NetText)
  | ip (gap : Blank) (net : NetText)
  | cidr (gap : Blank) (net : NetText)
  | form (kind : Form) (value : String)
  | geoipPrivate (gap : Blank)

def Entry.text : Entry → String
  | bare net => net.text
  | ip gap net => "ip" ++ ":" ++ (gap.text ++ net.text)
  | cidr gap net => "cidr" ++ ":" ++ (gap.text ++ net.text)
  | form kind value => kind.word ++ ":" ++ value
  | geoipPrivate gap => "geoip" ++ ":" ++ (gap.text ++ "private")

/-- The text is read as a rule that catches the addresses of the network. -/
def ReadsNet (R : Reader X) (net : NetText) (text : String) : Prop :=
  ∃ n, Matcher.parse R text = some (.net n) ∧
    ∀ other port, (Matcher.net n : Matcher X).matchesHost (.ip other) port = inNetwork net.length net.ip other

/-- The text is read as what the entry is. -/
def Entry.Read (R : Reader X) (entry : Entry) (text : String) : Prop :=
  match entry with
  | bare net | ip _ net | cidr _ net => ReadsNet R net text
  | form kind value => Matcher.parse R text = kind.rule R value
  | geoipPrivate _ => Matcher.parse R text = some .privateRange

/-- Not a bare address or network of the sixth version. -/
def Entry.Covered : Entry → Prop
  | bare net => isIpv4 net.ip = true
  | ip .. | cidr .. | form .. | geoipPrivate .. => True

/-! ### Blanks around a text -/

/-- Blanks around an entry do not matter. -/
theorem trim_blanks (before after : Blank) (s : String) :
    Rust.trim (before.text ++ s ++ after.text) = Rust.trim s := by
  have hfront := Rust.trim_blank_append before.blank (s.toList ++ after.text.toList)
  have hback := Rust.trim_append_blank after.blank s.toList
  rw [← List.append_assoc, String.ofList_append, String.ofList_append, String.ofList_toList, String.ofList_toList,
    String.ofList_toList] at hfront
  rw [hfront, hback, String.ofList_toList]

/-- Without the blanks behind it. -/
def trimEnd (s : String) : String := String.ofList (s.toList.rdropWhile Rust.isWhitespace)

theorem exists_trimEnd (s : String) : ∃ blanks : Blank, s = trimEnd s ++ blanks.text := by
  refine ⟨⟨String.ofList (s.toList.rtakeWhile Rust.isWhitespace), ?_⟩, ?_⟩
  · intro c hc
    rw [String.toList_ofList] at hc
    exact List.mem_rtakeWhile_imp hc
  · apply String.toList_inj.mp
    rw [trimEnd, String.toList_append, String.toList_ofList, String.toList_ofList, List.rdropWhile_append_rtakeWhile]

theorem trim_trimEnd (s : String) : Rust.trim (trimEnd s) = Rust.trim s := by
  obtain ⟨blanks, hs⟩ := exists_trimEnd s
  have hback := Rust.trim_append_blank blanks.blank (trimEnd s).toList
  rw [String.ofList_append, String.ofList_toList, String.ofList_toList, ← hs] at hback
  exact hback.symm

theorem trim_trim (s : String) : Rust.trim (Rust.trim s) = Rust.trim s := by
  have hfront : ∀ c ∈ s.toList.takeWhile Rust.isWhitespace, Rust.isWhitespace c = true :=
    fun c hc => List.mem_takeWhile_imp hc
  have hall := Rust.trim_blank_append hfront (s.toList.dropWhile Rust.isWhitespace)
  rw [List.takeWhile_append_dropWhile, String.ofList_toList] at hall
  have hend := trim_trimEnd (String.ofList (s.toList.dropWhile Rust.isWhitespace))
  rw [trimEnd, String.toList_ofList, ← hall] at hend
  exact hend

/-! ### A word and a value -/

/-- A word of small letters. -/
def IsWord (kind : String) : Prop := kind ≠ "" ∧ ∀ c ∈ kind.toList, 97 ≤ c.toNat ∧ c.toNat ≤ 122

theorem toLower_of_small {c : Char} (h : 97 ≤ c.toNat) : c.toLower = c := by
  rw [Char.toLower, dif_neg]
  intro hupper
  have hle : c.toNat ≤ 90 := UInt32.le_iff_toNat_le.mp hupper.2
  omega

theorem IsWord.lower {kind : String} (h : IsWord kind) {R : Reader X} (hR : Standard R) :
  X.toLowercase kind = kind := by
  have hascii : Rust.isAscii kind = true := by
    rw [Rust.isAscii, List.all_eq_true]
    intro c hc
    have hbound := (h.2 c hc).2
    rw [decide_eq_true_eq]
    omega
  rw [hR.lower kind hascii, Rust.toAsciiLowercase, List.map_congr_left fun c hc => toLower_of_small (h.2 c hc).1,
    List.map_id', String.ofList_toList]

theorem IsWord.solid {kind : String} (h : IsWord kind) : ∀ c ∈ kind.toList, Rust.isWhitespace c = false := by
  intro c hc
  have hbound := h.2 c hc
  exact Rust.isWhitespace_of_visible ⟨by omega, by omega⟩

theorem IsWord.not_mem {kind : String} (h : IsWord kind) {c : Char} (hc : c.toNat < 97) : c ∉ kind.toList := by
  intro hmem
  have hbound := h.2 c hmem
  omega

theorem exists_head {kind : String} (h : IsWord kind) : ∃ c cs, kind.toList = c :: cs ∧ 97 ≤ c.toNat := by
  obtain ⟨c, cs, hcs⟩ := List.exists_cons_of_ne_nil (fun hnil => h.1 (String.toList_eq_nil_iff.mp hnil))
  exact ⟨c, cs, hcs, (h.2 c (by rw [hcs]; exact List.mem_cons_self ..)).1⟩

theorem toList_named (kind value : String) : (kind ++ ":" ++ value).toList = kind.toList ++ ':' :: value.toList := by
  simp

theorem trim_named {kind : String} (h : IsWord kind) (value : String) :
    Rust.trim (kind ++ ":" ++ value) = kind ++ ":" ++ trimEnd value := by
  obtain ⟨c, cs, hcs, -⟩ := exists_head h
  have hhead : ¬ Rust.isWhitespace c = true := by
    rw [h.solid c (by rw [hcs]; exact List.mem_cons_self ..)]
    exact Bool.false_ne_true
  apply String.toList_inj.mp
  rw [Rust.trim, String.toList_ofList, toList_named, toList_named, hcs, List.cons_append,
    List.dropWhile_cons_of_neg hhead, ← List.cons_append, Rust.rdropWhile_append_cons (by decide), trimEnd,
    String.toList_ofList]

theorem parse_named {R : Reader X} (hR : Standard R) {kind : String} (h : IsWord kind) (value : String) :
    Matcher.parse R (kind ++ ":" ++ value) = Matcher.ofKind R kind (Rust.trim value) := by
  have hempty : (kind ++ ":" ++ trimEnd value).isEmpty = false := by simp
  have hhash : Rust.startsWith "#" (kind ++ ":" ++ trimEnd value) = false := by
    obtain ⟨c, cs, hcs, hc⟩ := exists_head h
    have hne : c ≠ '#' := fun he => absurd hc (by rw [he]; decide)
    rw [Rust.startsWith, toList_named, hcs, Bool.eq_false_iff, ne_eq, List.isPrefixOf_iff_prefix]
    intro hp
    exact hne (List.cons_prefix_cons.mp hp).1.symm
  have hsplit : Rust.splitOnce ':' (kind ++ ":" ++ trimEnd value) = some (kind, trimEnd value) := by
    rw [show ":" = String.singleton ':' from rfl]
    exact Rust.splitOnce_append (h.not_mem (by decide)) (trimEnd value)
  have hdot : Rust.containsChar '.' kind = false := by
    simpa [Rust.containsChar] using h.not_mem (c := '.') (by decide)
  have hslash : Rust.containsChar '/' kind = false := by
    simpa [Rust.containsChar] using h.not_mem (c := '/') (by decide)
  rw [Matcher.parse, trim_named h]
  dsimp only
  rw [hempty, hhash, splitKind, hsplit]
  dsimp only
  rw [hdot, hslash, Rust.trim_of_solid h.solid, h.lower hR, trim_trimEnd]
  rfl

/-- Every form with a value is read as its rule. -/
theorem parse_form {R : Reader X} (hR : Standard R) (kind : Form) (value : String) :
    Matcher.parse R (kind.word ++ ":" ++ value) = kind.rule R value := by
  have hword : IsWord kind.word := by cases kind <;> simp [IsWord, Form.word]
  have hdomain : normalizeDomain X (Rust.trim value) = normalizeDomain X value := by
    rw [normalizeDomain, normalizeDomain, trim_trim]
  have hports : parsePorts (Rust.trim value) = parsePorts value := by rw [parsePorts, parsePorts, trim_trim]
  rw [parse_named hR hword]
  cases kind with
  | domain => simp [Matcher.ofKind, Form.word, Form.rule, hdomain]
  | suffix => simp [Matcher.ofKind, Form.word, Form.rule, hdomain]
  | full => simp [Matcher.ofKind, Form.word, Form.rule, hdomain]
  | exact => simp [Matcher.ofKind, Form.word, Form.rule, hdomain]
  | keyword => simp [Matcher.ofKind, Form.word, Form.rule, trim_trim]
  | regexp => simp [Matcher.ofKind, Form.word, Form.rule]
  | port => simp [Matcher.ofKind, Form.word, Form.rule, hports]

theorem parse_private {R : Reader X} (hR : Standard R) (gap : Blank) :
    Matcher.parse R ("geoip" ++ ":" ++ (gap.text ++ "private")) = some .privateRange := by
  have htrim : Rust.trim (gap.text ++ "private") = "private" := by
    have hfront := Rust.trim_blank_append gap.blank "private".toList
    rw [String.ofList_append, String.ofList_toList, String.ofList_toList] at hfront
    rw [hfront]
    decide
  have heq : Rust.eqIgnoreAsciiCase "private" "private" = true := by decide
  rw [parse_named hR (by simp [IsWord]), htrim]
  simp [Matcher.ofKind, heq]

/-! ### The text of a network -/

theorem literal_of_isDigit {c : Char} (h : c.isDigit = true) : Rust.Literal c := by
  have hlo : 48 ≤ c.toNat ∧ c.toNat ≤ 57 := by
    simp only [Char.isDigit, Bool.and_eq_true, decide_eq_true_eq, UInt32.le_iff_toNat_le] at h
    exact h
  have hdigit : Rust.toDigit 16 c = some (c.toNat - 48) := by
    rw [Rust.toDigit]
    simp only [hlo.1, hlo.2, decide_true, Bool.and_self, if_true]
    rw [Option.filter_some, if_pos]
    rw [decide_eq_true_eq]
    omega
  exact .inl (by rw [hdigit]; rfl)

namespace NetText

/-- A character of an address, or a slash. -/
theorem chars (net : NetText) : ∀ c ∈ net.text.toList, Rust.Literal c ∨ c = '/' := by
  intro c hc
  obtain ⟨hip, -⟩ | ⟨address, htext, hip, -⟩ := net.legal
  · exact .inl ((Rust.parseIp_text hip).1 c hc)
  · rw [htext, String.toList_append, String.toList_append, List.mem_append, List.mem_append] at hc
    obtain (hc | hc) | hc := hc
    · exact .inl ((Rust.parseIp_text hip).1 c hc)
    · exact .inr (List.mem_singleton.mp hc)
    · exact .inl (literal_of_isDigit (Rust.isDigit_showUnsigned _ c hc))

theorem bounds (net : NetText) : ∀ c ∈ net.text.toList, 46 ≤ c.toNat ∧ c.toNat ≤ 102 ∧ c.toNat ≠ 80 := by
  intro c hc
  obtain hc | rfl := net.chars c hc
  · have hbounds := Rust.literal_bounds hc
    omega
  · decide

theorem solid (net : NetText) : ∀ c ∈ net.text.toList, Rust.isWhitespace c = false := by
  intro c hc
  have hbound := net.bounds c hc
  exact Rust.isWhitespace_of_visible ⟨by omega, by omega⟩

/-- The address is what stands before a slash, or all of the text. -/
theorem exists_address (net : NetText) :
    ∃ address tail, net.text.toList = address.toList ++ tail ∧ parseIp address = some net.ip ∧
      (tail = [] ∨ ∃ rest, tail = '/' :: rest) ∧ ':' ∉ tail := by
  obtain ⟨hip, -⟩ | ⟨address, htext, hip, -⟩ := net.legal
  · exact ⟨net.text, [], (List.append_nil _).symm, hip, .inl rfl, List.not_mem_nil⟩
  · refine ⟨address, '/' :: (Rust.showUnsigned net.length).toList, ?_, hip, .inr ⟨_, rfl⟩, ?_⟩
    · rw [htext]
      simp
    · rw [List.mem_cons, not_or]
      exact ⟨by decide, fun hc => absurd (Rust.isDigit_showUnsigned _ _ hc) (by decide)⟩

theorem ne_nil (net : NetText) : net.text.toList ≠ [] := by
  obtain ⟨hip, -⟩ | ⟨address, htext, -⟩ := net.legal
  · exact Rust.ne_nil_of_parseIp hip
  · rw [htext]
    simp

end NetText

theorem not_literal_slash : ¬ Rust.Literal '/' := by simp [Rust.Literal, Rust.toDigit]

/-- `parse_net` reads the network that the text is. -/
theorem parseNet_text {R : Reader X} (hR : Standard R) (net : NetText) :
    ∃ n, parseNet R net.text = some n ∧ ∀ other, X.contains n other = inNetwork net.length net.ip other := by
  rw [parseNet, Rust.trim_of_solid net.solid]
  obtain ⟨hip, hlength⟩ | ⟨address, htext, hip, hlength⟩ := net.legal
  · have hnone : R.parseIpNet net.text = none := by
      cases hnet : R.parseIpNet net.text with
      | none => rfl
      | some found =>
        obtain ⟨address, length, htext, -⟩ := hR.slash _ _ hnet
        have hslash : '/' ∈ net.text.toList := by
          rw [htext]
          simp
        exact absurd ((Rust.parseIp_text hip).1 _ hslash) not_literal_slash
    rw [hnone, hip, hlength]
    exact ⟨R.netOf net.ip, rfl, hR.single net.ip⟩
  · obtain ⟨found, hfound, hcontains⟩ := hR.read address net.ip net.length hip hlength
    rw [htext, hfound]
    exact ⟨found, rfl, hcontains⟩

theorem readsNet_of_parse {R : Reader X} (hR : Standard R) {net : NetText} {text : String}
    (h : Matcher.parse R text = (parseNet R net.text).map .net) : ReadsNet R net text := by
  obtain ⟨n, hn, hcontains⟩ := parseNet_text hR net
  rw [hn] at h
  exact ⟨n, h, fun other _ => hcontains other⟩

theorem trim_gap (gap : Blank) (net : NetText) : Rust.trim (gap.text ++ net.text) = net.text := by
  have hfront := Rust.trim_blank_append gap.blank net.text.toList
  rw [String.ofList_append, String.ofList_toList, String.ofList_toList] at hfront
  rw [hfront, Rust.trim_of_solid net.solid]

/-! ### Written bare -/

theorem parse_bare {R : Reader X} (net : NetText) :
    Matcher.parse R net.text = Matcher.ofKind R (splitKind X net.text).1 (splitKind X net.text).2 := by
  obtain ⟨c, cs, hcs⟩ := List.exists_cons_of_ne_nil net.ne_nil
  have hempty : net.text.isEmpty = false := by
    rw [Bool.eq_false_iff, ne_eq, String.isEmpty_iff, ← String.toList_eq_nil_iff]
    exact net.ne_nil
  have hhash : Rust.startsWith "#" net.text = false := by
    have hc := net.bounds c (by rw [hcs]; exact List.mem_cons_self ..)
    have hne : c ≠ '#' := fun he => absurd hc (by rw [he]; decide)
    rw [Rust.startsWith, hcs, Bool.eq_false_iff, ne_eq, List.isPrefixOf_iff_prefix]
    intro hp
    exact hne (List.cons_prefix_cons.mp hp).1.symm
  rw [Matcher.parse, Rust.trim_of_solid net.solid]
  dsimp only
  rw [hempty, hhash]
  rfl

/-- No text of a network is the word `private`. -/
theorem not_private {text : String} (hne : text.toList ≠ [])
    (h : ∀ c ∈ text.toList, 46 ≤ c.toNat ∧ c.toNat ≤ 102 ∧ c.toNat ≠ 80) :
    Rust.eqIgnoreAsciiCase text "private" = false := by
  obtain ⟨c, cs, hcs⟩ := List.exists_cons_of_ne_nil hne
  have hc := h c (by rw [hcs]; exact List.mem_cons_self ..)
  have hall : ∀ n ≤ 102, n ≠ 80 → (Char.ofNat n).toLower ≠ 'p' := by decide
  have hlower := hall c.toNat hc.2.1 hc.2.2
  rw [Char.ofNat_toNat] at hlower
  rw [Rust.eqIgnoreAsciiCase, hcs, beq_eq_false_iff_ne]
  intro heq
  exact hlower (List.cons.inj heq).1

theorem bare_v4 {R : Reader X} (hR : Standard R) {net : NetText} (h : isIpv4 net.ip = true) :
    ReadsNet R net net.text := by
  apply readsNet_of_parse hR
  have hcolon : ':' ∉ net.text.toList := by
    obtain ⟨address, tail, htext, hip, -, htail⟩ := net.exists_address
    cases hnet : net.ip with
    | v4 bits =>
      rw [hnet] at hip
      rw [htext, List.mem_append, not_or]
      exact ⟨Rust.parseIp_v4_colon hip, htail⟩
    | v6 bits =>
      rw [hnet] at h
      cases h
  have hsplit : splitKind X net.text = ("", net.text) := by rw [splitKind, Rust.splitOnce_of_notMem hcolon]
  obtain ⟨n, hn, -⟩ := parseNet_text hR net
  rw [parse_bare, hsplit, hn]
  simp [Matcher.ofKind, not_private net.ne_nil net.bounds, hn]

/-- Digits are no kind of a rule. -/
theorem ofKind_digits {R : Reader X} {kind : String} (hne : kind ≠ "")
    (h : ∀ c ∈ kind.toList, (Rust.toDigit 16 c).isSome) (value : String) : Matcher.ofKind R kind value = none := by
  have hword {word : String} (hw : (word.toList.all fun c => (Rust.toDigit 16 c).isSome) = false) : kind ≠ word := by
    intro he
    rw [he] at h
    rw [List.all_eq_true.mpr h] at hw
    cases hw
  have h1 : kind ≠ "domain" := hword (by decide)
  have h2 : kind ≠ "suffix" := hword (by decide)
  have h3 : kind ≠ "full" := hword (by decide)
  have h4 : kind ≠ "exact" := hword (by decide)
  have h5 : kind ≠ "keyword" := hword (by decide)
  have h6 : kind ≠ "regexp" := hword (by decide)
  have h7 : kind ≠ "regex" := hword (by decide)
  have h8 : kind ≠ "ip" := hword (by decide)
  have h9 : kind ≠ "cidr" := hword (by decide)
  have h10 : kind ≠ "port" := hword (by decide)
  have h11 : kind ≠ "geoip" := hword (by decide)
  have h12 : kind ≠ "geosite" := hword (by decide)
  simp [Matcher.ofKind, h1, h2, h3, h4, h5, h6, h7, h8, h9, h10, h11, h12, hne]

/-- Digits stay digits in lower case. -/
theorem digit_toLower {c : Char} (h : (Rust.toDigit 16 c).isSome) : (Rust.toDigit 16 c.toLower).isSome := by
  have hbound := Rust.literal_bounds (.inl h)
  have hall : ∀ n ≤ 102, (Rust.toDigit 16 (Char.ofNat n)).isSome → (Rust.toDigit 16 (Char.ofNat n).toLower).isSome := by
    decide
  rw [← Char.ofNat_toNat c] at h ⊢
  exact hall c.toNat (by omega) h

/-- What is left of an address without its first colon is no network. -/
theorem parseNet_behind_colon {R : Reader X} (hR : Standard R) {net : NetText} {rest : List Char}
    (h : net.text.toList = ':' :: rest) : parseNet R (String.ofList rest) = none := by
  obtain ⟨address, tail, htext, hip, htail, -⟩ := net.exists_address
  obtain ⟨front, hfront⟩ : ∃ front, address.toList = ':' :: front := by
    obtain ⟨c, cs, hcs⟩ := List.exists_cons_of_ne_nil (Rust.ne_nil_of_parseIp hip)
    rw [hcs, h] at htext
    exact ⟨cs, by rw [hcs, (List.cons.inj htext).1]⟩
  have hrest : rest = front ++ tail := by
    rw [hfront, h] at htext
    exact (List.cons.inj htext).2
  have hsolid : ∀ c ∈ (String.ofList rest).toList, Rust.isWhitespace c = false := by
    intro c hc
    rw [String.toList_ofList] at hc
    exact net.solid c (by rw [h]; exact List.mem_cons_of_mem _ hc)
  have hslash : '/' ∉ front := by
    intro hmem
    exact not_literal_slash ((Rust.parseIp_text hip).1 _ (by rw [hfront]; exact List.mem_cons_of_mem _ hmem))
  have hbehind := Rust.parseIp_behind_colon hip hfront
  have haddress : parseIp (String.ofList rest) = none := by
    obtain rfl | ⟨more, rfl⟩ := htail
    · rw [hrest, List.append_nil]
      exact hbehind
    · cases hsome : parseIp (String.ofList rest) with
      | none => rfl
      | some ip =>
        refine absurd ((Rust.parseIp_text hsome).1 '/' ?_) not_literal_slash
        rw [String.toList_ofList, hrest]
        simp
  have hnet : R.parseIpNet (String.ofList rest) = none := by
    cases hsome : R.parseIpNet (String.ofList rest) with
    | none => rfl
    | some n =>
      obtain ⟨other, length, hother, hip'⟩ := hR.slash _ _ hsome
      obtain ⟨ip, hip'⟩ := Option.isSome_iff_exists.mp hip'
      -- both are cut at their first slash
      have hfree : '/' ∉ other.toList := fun hmem => not_literal_slash ((Rust.parseIp_text hip').1 _ hmem)
      have hcut : Rust.splitOnce '/' (String.ofList rest) = some (other, length) := by
        rw [hother, show "/" = String.singleton '/' from rfl]
        exact Rust.splitOnce_append hfree length
      have hsame : other = String.ofList front := by
        have hfront' : '/' ∉ (String.ofList front).toList := by rwa [String.toList_ofList]
        obtain rfl | ⟨more, rfl⟩ := htail
        · rw [hrest, List.append_nil, Rust.splitOnce_of_notMem hfront'] at hcut
          cases hcut
        · have hjoin : String.ofList (front ++ '/' :: more) =
              String.ofList front ++ String.singleton '/' ++ String.ofList more := by
            apply String.toList_inj.mp
            simp
          rw [hrest, hjoin, Rust.splitOnce_append hfront'] at hcut
          exact (Prod.mk.inj (Option.some.inj hcut)).1.symm
      rw [← hsame, hip'] at hbehind
      cases hbehind
  rw [parseNet, Rust.trim_of_solid hsolid, hnet, haddress]
  rfl

/-- Without a kind and without a network there is no network. -/
theorem ofKind_no_net {R : Reader X} {value : String} (h : parseNet R value = none) (n : X.IpNet) :
    Matcher.ofKind R "" value ≠ some (.net n) := by
  intro hsome
  simp only [Matcher.ofKind, h, String.reduceEq, or_self, if_false, if_true] at hsome
  split at hsome
  case isTrue => cases hsome
  case isFalse =>
    obtain ⟨domain, -, hdomain⟩ := Option.map_eq_some_iff.mp hsome
    cases hdomain

/-- An address of the sixth version is cut at its first colon. -/
theorem splitKind_v6 {R : Reader X} (hR : Standard R) {net : NetText} {front rest : List Char}
    (htext : net.text.toList = front ++ ':' :: rest) (hdigits : ∀ c ∈ front, (Rust.toDigit 16 c).isSome) :
    splitKind X net.text = (Rust.toAsciiLowercase (String.ofList front), String.ofList rest) := by
  have hfree {c : Char} (hc : (Rust.toDigit 16 c).isSome = false) : c ∉ (String.ofList front).toList := by
    intro hmem
    rw [String.toList_ofList] at hmem
    rw [hdigits c hmem] at hc
    cases hc
  have hcontains {c : Char} (hc : (Rust.toDigit 16 c).isSome = false) :
      Rust.containsChar c (String.ofList front) = false := by
    simpa [Rust.containsChar] using hfree hc
  have hcut : net.text = String.ofList front ++ String.singleton ':' ++ String.ofList rest := by
    apply String.toList_inj.mp
    rw [htext]
    simp
  have hascii : Rust.isAscii (String.ofList front) = true := by
    rw [Rust.isAscii, List.all_eq_true]
    intro c hc
    rw [String.toList_ofList] at hc
    have hbound := Rust.literal_bounds (.inl (hdigits c hc))
    rw [decide_eq_true_eq]
    omega
  have hsolid (part : List Char) (hpart : part ⊆ net.text.toList) :
      ∀ c ∈ (String.ofList part).toList, Rust.isWhitespace c = false := by
    intro c hc
    rw [String.toList_ofList] at hc
    exact net.solid c (hpart hc)
  have hkind := hsolid front (by rw [htext]; exact List.subset_append_left ..)
  have hvalue := hsolid rest (by
    rw [htext]
    exact List.Subset.trans (List.subset_cons_self ..) (List.subset_append_right ..))
  rw [splitKind, hcut, Rust.splitOnce_append (hfree (by decide))]
  dsimp only
  rw [hcontains (by decide), hcontains (by decide), Rust.trim_of_solid hkind, Rust.trim_of_solid hvalue,
    hR.lower _ hascii]
  rfl

theorem bare_v6 {R : Reader X} (hR : Standard R) {net : NetText} (h : isIpv4 net.ip = false) (n : X.IpNet) :
    Matcher.parse R net.text ≠ some (.net n) := by
  obtain ⟨address, tail, htext, hip, -, -⟩ := net.exists_address
  cases hnet : net.ip with
  | v4 bits =>
    rw [hnet] at h
    cases h
  | v6 bits =>
    rw [hnet] at hip
    obtain ⟨front, rest, hfront, hdigits⟩ := Rust.parseIp_front hip
    have hcut : net.text.toList = front ++ ':' :: (rest ++ tail) := by
      rw [htext, hfront, List.append_assoc]
      rfl
    rw [parse_bare, splitKind_v6 hR hcut hdigits]
    by_cases hnil : front = []
    · rw [hnil] at hcut ⊢
      exact ofKind_no_net (parseNet_behind_colon hR hcut) n
    · have hkind : Rust.toAsciiLowercase (String.ofList front) ≠ "" := by
        simpa [Rust.toAsciiLowercase] using hnil
      have hlower : ∀ c ∈ (Rust.toAsciiLowercase (String.ofList front)).toList, (Rust.toDigit 16 c).isSome := by
        intro c hc
        rw [Rust.toAsciiLowercase, String.toList_ofList, String.toList_ofList] at hc
        obtain ⟨d, hd, rfl⟩ := List.mem_map.mp hc
        exact digit_toLower (hdigits d hd)
      rw [ofKind_digits hkind hlower]
      exact Option.some_ne_none _ ∘ Eq.symm

/-! ### Every form -/

theorem bare_iff {R : Reader X} (hR : Standard R) (net : NetText) : ReadsNet R net net.text ↔ isIpv4 net.ip = true := by
  refine ⟨fun h => ?_, bare_v4 hR⟩
  obtain ⟨n, hn, -⟩ := h
  by_contra hv6
  exact bare_v6 hR (Bool.eq_false_iff.mpr hv6) n hn

theorem named_net {R : Reader X} (hR : Standard R) {kind : String} (hkind : kind = "ip" ∨ kind = "cidr") (gap : Blank)
    (net : NetText) : ReadsNet R net (kind ++ ":" ++ (gap.text ++ net.text)) := by
  apply readsNet_of_parse hR
  have hword : IsWord kind := by
    obtain rfl | rfl := hkind <;> simp [IsWord]
  rw [parse_named hR hword, trim_gap]
  obtain rfl | rfl := hkind <;> simp [Matcher.ofKind]

/-- Blanks around a text do not change what it is read as. -/
theorem Entry.read_congr {R : Reader X} {entry : Entry} {s t : String} (h : Rust.trim s = Rust.trim t) :
    entry.Read R s ↔ entry.Read R t := by
  cases entry <;> rw [Entry.Read, Entry.Read] <;> simp only [ReadsNet, Matcher.parse_congr R h]

/-- A rule in any of its forms, with blanks around it, is read as what it is exactly if it is
not an address or a network of the sixth version written bare. -/
theorem read_iff {R : Reader X} (hR : Standard R) (entry : Entry) (before after : Blank) :
    entry.Read R (before.text ++ entry.text ++ after.text) ↔ entry.Covered := by
  rw [Entry.read_congr (trim_blanks before after entry.text)]
  cases entry with
  | bare net => exact bare_iff hR net
  | ip gap net => exact iff_of_true (named_net hR (.inl rfl) gap net) trivial
  | cidr gap net => exact iff_of_true (named_net hR (.inr rfl) gap net) trivial
  | form kind value => exact iff_of_true (parse_form hR kind value) trivial
  | geoipPrivate gap => exact iff_of_true (parse_private hR gap) trivial

/-! ### A bare address of the sixth version -/

theorem splitOnce_cut {c : Char} {s a b : String} (h : Rust.splitOnce c s = some (a, b)) :
    s = a ++ String.singleton c ++ b := by
  have hmem : c ∈ s.toList := by
    by_contra hmissing
    rw [Rust.splitOnce_of_notMem hmissing] at h
    cases h
  obtain ⟨front, back, hcut, hfront⟩ := List.eq_append_cons_of_mem hmem
  have hs : s = String.ofList front ++ String.singleton c ++ String.ofList back := by
    apply String.toList_inj.mp
    rw [hcut]
    simp
  have hsplit : Rust.splitOnce c s = some (String.ofList front, String.ofList back) := by
    rw [hs]
    exact Rust.splitOnce_append (by rwa [String.toList_ofList]) _
  obtain ⟨rfl, rfl⟩ := Prod.mk.inj (Option.some.inj (h.symm.trans hsplit))
  exact hs

theorem plainReader_net (text : String) :
    plainReader.parseIpNet text =
      (Rust.splitOnce '/' text).bind fun cut =>
        (parseIp cut.1).bind fun ip => (Rust.parseU16 cut.2).map fun bits => (ip, bits.toNat) := by
  rw [plainReader]
  dsimp only
  cases Rust.splitOnce '/' text with
  | none => rfl
  | some cut => rfl

theorem standard_plain : Standard plainReader where
  lower s _ := rfl
  read address ip length hip hlength := by
    have hfree : '/' ∉ address.toList := fun hmem => not_literal_slash ((Rust.parseIp_text hip).1 _ hmem)
    have hsplit : Rust.splitOnce '/' (address ++ "/" ++ Rust.showUnsigned length) =
        some (address, Rust.showUnsigned length) := by
      rw [show "/" = String.singleton '/' from rfl]
      exact Rust.splitOnce_append hfree _
    have hsmall : length < 2 ^ 16 := by
      have hbits : addressBits ip ≤ 128 := by cases ip <;> simp [addressBits]
      omega
    have hvalue : (UInt16.ofNat length).toNat = length := by rw [UInt16.toNat_ofNat', Nat.mod_eq_of_lt hsmall]
    have hnumber : Rust.parseU16 (Rust.showUnsigned length) = some (UInt16.ofNat length) := by
      have hshow := Rust.parseU16_showU16 (UInt16.ofNat length)
      rw [Rust.showU16, hvalue] at hshow
      rw [Rust.showUnsigned]
      exact hshow
    refine ⟨(ip, length), ?_, ?_⟩
    · rw [plainReader_net, hsplit, Option.bind_some]
      rw [hip, hnumber, Option.bind_some, Option.map_some, hvalue]
      rfl
    · intro other
      cases ip <;> cases other <;> rfl
  slash text net h := by
    rw [plainReader_net] at h
    obtain ⟨⟨address, length⟩, hsplit, hnet⟩ := Option.bind_eq_some_iff.mp h
    obtain ⟨ip, hip, -⟩ := Option.bind_eq_some_iff.mp hnet
    have hcut := splitOnce_cut hsplit
    rw [show String.singleton '/' = "/" from rfl] at hcut
    dsimp only at hip
    exact ⟨address, length, hcut, by rw [hip]; rfl⟩
  single ip other := by
    cases ip <;> cases other <;> rfl

/-- `2001:db8::1` -/
def documentation : NetText where
  text := "2001:db8::1"
  ip := .v6 0x20010db8000000000000000000000001
  length := 128
  legal := .inl (by decide)

/-- `10.0.0.0/8` -/
def tenText : NetText where
  text := "10.0.0.0/8"
  ip := .v4 (Rust.ipv4 10 0 0 0)
  length := 8
  legal := .inr ⟨"10.0.0.0", by decide⟩

def noBlank : Blank where
  text := ""
  blank := by simp

/-- A network of the fourth version is read as it is. -/
theorem read_ten : (Entry.bare tenText).Read plainReader ("" ++ tenText.text ++ "") :=
  (read_iff standard_plain (.bare tenText) noBlank noBlank).mpr rfl

/-- `2001:db8::1` is no rule, and `::1` one for a domain. -/
theorem address_dropped :
    (Matcher.parse plainReader "2001:db8::1" = none ∧
      ¬ (Entry.bare documentation).Read plainReader documentation.text) ∧
    Matcher.parse plainReader "::1" = some (.domainSuffix ":1") := by
  have hnone : Matcher.parse plainReader "2001:db8::1" = none := by decide
  refine ⟨⟨hnone, ?_⟩, by rfl⟩
  intro h
  obtain ⟨n, hn, -⟩ := h
  rw [show documentation.text = "2001:db8::1" from rfl, hnone] at hn
  cases hn

end Aether.Routing
