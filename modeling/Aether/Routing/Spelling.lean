import Aether.Routing.Rules

/-! Routing rules and the spellings of a destination.

A rule is read from a line of text. The domain of a suffix or full rule is normalized as
it is read: the stars and dots in front, the dots behind and the case are gone. The host
of a connection is not normalized: each matcher compares it as it came, up to case. A
name with a dot behind therefore passes every suffix and full rule, and an address of
the fourth version written in the sixth passes every network of the fourth.

`Slips` is that gap, one clause for each kind of matcher. Two spellings of a destination
are decided alike exactly if the rules that let one of them slip are backed by others
(`spelling_iff`). -/
namespace Aether.Routing
open Rust (IpAddr)

variable {X : Externs}

/-! ### Reading rules -/

/-- What the reader of rules uses of other crates. -/
structure Reader (X : Externs) where
  /-- `regex::Regex::new` -/
  newRegex : String → Option X.Regex
  /-- `str::parse::<IpNet>` -/
  parseIpNet : String → Option X.IpNet
  /-- `IpNet::from` -/
  netOf : IpAddr → X.IpNet

/-- `normalize_domain`. -/
def normalizeDomain (X : Externs) (value : String) : Option String :=
  let cleaned := X.toLowercase (Rust.trimEndMatches '.'
    (Rust.trimStartMatches '.' (Rust.trimStartMatches '*' (Rust.trim value))))
  if cleaned.isEmpty then none else some cleaned

/-- `parse_net`. -/
def parseNet (R : Reader X) (value : String) : Option X.IpNet :=
  let value := Rust.trim value
  (R.parseIpNet value).or ((Rust.parseIp value).map R.netOf)

/-- `parse_ports`. -/
def parsePorts (value : String) : Option (UInt16 × UInt16) :=
  let value := Rust.trim value
  match Rust.splitOnce '-' value with
  | some (lo, hi) => do
    let lo ← Rust.parseU16 (Rust.trim lo)
    let hi ← Rust.parseU16 (Rust.trim hi)
    some (if hi < lo then (hi, lo) else (lo, hi))
  | none => do
    let single ← Rust.parseU16 value
    some (single, single)

/-- The kind of a rule and its value: what stands before the first colon, unless that is
part of a name or a network. -/
def splitKind (X : Externs) (entry : String) : String × String :=
  match Rust.splitOnce ':' entry with
  | some (kind, value) =>
    if !Rust.containsChar '.' kind && !Rust.containsChar '/' kind then
      (X.toLowercase (Rust.trim kind), Rust.trim value)
    else ("", entry)
  | none => ("", entry)

/-- A rule of a known kind. -/
def Matcher.ofKind (R : Reader X) (kind value : String) : Option (Matcher X) :=
  if kind = "domain" ∨ kind = "suffix" then (normalizeDomain X value).map .domainSuffix
  else if kind = "full" ∨ kind = "exact" then (normalizeDomain X value).map .domainFull
  else if kind = "keyword" then
    let needle := X.toLowercase (Rust.trim value)
    if needle.isEmpty then none else some (.domainKeyword needle)
  else if kind = "regexp" ∨ kind = "regex" then (R.newRegex value).map .domainRegex
  else if kind = "ip" ∨ kind = "cidr" then (parseNet R value).map .net
  else if kind = "port" then (parsePorts value).map fun (lo, hi) => .ports lo hi
  else if kind = "geoip" ∨ kind = "geosite" then
    if Rust.eqIgnoreAsciiCase value "private" then some .privateRange else none
  else if kind = "" then
    if Rust.eqIgnoreAsciiCase value "private" then some .privateRange
    else
      match parseNet R value with
      | some found => some (.net found)
      | none => (normalizeDomain X value).map .domainSuffix
  else none

/-- `Matcher::parse`. -/
def Matcher.parse (R : Reader X) (entry : String) : Option (Matcher X) :=
  let entry := Rust.trim entry
  if entry.isEmpty || Rust.startsWith "#" entry then none
  else
    let (kind, value) := splitKind X entry
    Matcher.ofKind R kind value

/-- `parse_list`. -/
def parseList (R : Reader X) (raw : String) : List (Matcher X) :=
  let entries := (raw.toList.splitOnP fun c => c == '\n' || c == ',' || c == ';').map String.ofList
  entries.filterMap (Matcher.parse R)

/-- `RuleSet::parse`. -/
def RuleSet.parse (R : Reader X) (block direct : String) : RuleSet X :=
  {block := parseList R block, direct := parseList R direct}

/-! ### What a rule has read -/

/-- The text ends in a dot. -/
def EndsInDot (s : String) : Prop := s.toList.getLast? = some '.'

instance (s : String) : Decidable (EndsInDot s) := inferInstanceAs (Decidable (_ = _))

/-- What the rules rely on: lower case does not depend on the case of ASCII letters and
neither drops nor makes a dot at the end, and a network holds addresses of one version. -/
structure Documented (X : Externs) : Prop where
  lower_ascii : ∀ s, X.toLowercase (Rust.toAsciiLowercase s) = X.toLowercase s
  lower_dot : ∀ s, X.toLowercase (s ++ ".") = X.toLowercase s ++ "."
  lower_ends : ∀ s, EndsInDot (X.toLowercase s) → EndsInDot s
  one_version : ∀ net a b, X.contains net (.v4 a) = true → X.contains net (.v6 b) = false

/-- The domain of a rule: not empty, no dot behind. -/
def Matcher.Normalized : Matcher X → Prop
  | domainSuffix domain | domainFull domain => domain ≠ "" ∧ ¬ EndsInDot domain
  | domainKeyword _ | domainRegex _ | net _ | ports .. | privateRange => True

theorem normalizeDomain_some (hX : Documented X) {value domain : String}
    (h : normalizeDomain X value = some domain) : domain ≠ "" ∧ ¬ EndsInDot domain := by
  rw [normalizeDomain] at h
  split at h
  case isTrue => cases h
  case isFalse hne =>
    have hdomain := Option.some.inj h
    rw [← hdomain]
    refine ⟨fun hempty => hne (by rw [hempty]; rfl), ?_⟩
    intro hdot
    exact Rust.getLast?_trimEndMatches '.' _ (hX.lower_ends _ hdot)

theorem Matcher.normalized_map {α : Type} {make : α → Matcher X} {found : Option α} {rule : Matcher X}
    (h : found.map make = some rule) (hmake : ∀ a, found = some a → (make a).Normalized) : rule.Normalized := by
  obtain ⟨a, hfound, hrule⟩ := Option.map_eq_some_iff.mp h
  rw [← hrule]
  exact hmake a hfound

theorem Matcher.normalized_ofKind (hX : Documented X) (R : Reader X) {kind value : String}
    {rule : Matcher X} (h : Matcher.ofKind R kind value = some rule) : rule.Normalized := by
  rw [Matcher.ofKind] at h
  split_ifs at h
  · exact normalized_map h fun _ hdomain => normalizeDomain_some hX hdomain
  · exact normalized_map h fun _ hdomain => normalizeDomain_some hX hdomain
  · dsimp only at h
    split at h
    · cases h
    · rw [← Option.some.inj h]
      trivial
  · exact normalized_map h fun _ _ => trivial
  · exact normalized_map h fun _ _ => trivial
  · exact normalized_map h fun _ _ => trivial
  · rw [← Option.some.inj h]
    trivial
  · rw [← Option.some.inj h]
    trivial
  · split at h
    · rw [← Option.some.inj h]
      trivial
    · exact normalized_map h fun _ hdomain => normalizeDomain_some hX hdomain

theorem Matcher.normalized_parse (hX : Documented X) (R : Reader X) {entry : String} {rule : Matcher X}
    (h : Matcher.parse R entry = some rule) : rule.Normalized := by
  rw [Matcher.parse] at h
  dsimp only at h
  split at h
  · cases h
  · exact Matcher.normalized_ofKind hX R h

/-- Every domain that a list of rules compares with is normalized. -/
theorem normalized_parseList (hX : Documented X) (R : Reader X) (raw : String) :
    ∀ rule ∈ parseList R raw, rule.Normalized := by
  intro rule hrule
  rw [parseList] at hrule
  obtain ⟨entry, -, hparse⟩ := List.mem_filterMap.mp hrule
  exact Matcher.normalized_parse hX R hparse

/-! ### Spellings -/

/-- A name without the dots behind it, in lower case. -/
def core (name : String) : String := Rust.toAsciiLowercase (Rust.trimEndMatches '.' name)

/-- Two spellings of one destination. -/
inductive SameDestination : Host → Host → Prop where
  | domain {a b : String} (h : core a = core b) : SameDestination (.domain a) (.domain b)
  | ip (ip : IpAddr) : SameDestination (.ip ip) (.ip ip)
  | mapped {a : BitVec 32} {b : BitVec 128} (h : IpAddr.toIpv4Mapped b = some a) :
    SameDestination (.ip (.v4 a)) (.ip (.v6 b))
  | unmapped {a : BitVec 32} {b : BitVec 128} (h : IpAddr.toIpv4Mapped b = some a) :
    SameDestination (.ip (.v6 b)) (.ip (.v4 a))

theorem SameDestination.symm {a b : Host} (h : SameDestination a b) : SameDestination b a := by
  cases h with
  | domain h => exact .domain h.symm
  | ip ip => exact .ip ip
  | mapped h => exact .unmapped h
  | unmapped h => exact .mapped h

/-- `IpAddr::is_ipv4`. -/
def isIpv4 : IpAddr → Bool
  | .v4 _ => true
  | .v6 _ => false

/-- The rule catches the first spelling and lets the second slip: a suffix, full or
localhost rule where the second ends in a dot, a keyword with a dot at its end where the
second does not hold it, a network or the private ranges where the second is of the
other version. -/
def Matcher.Slips (rule : Matcher X) (port : UInt16) : Host → Host → Prop
  | .domain a, .domain b =>
    match rule with
    | domainSuffix _ | domainFull _ | privateRange => rule.matchesHost (.domain a) port = true ∧ EndsInDot b
    | domainKeyword needle =>
      rule.matchesHost (.domain a) port = true ∧ EndsInDot needle ∧
        Rust.contains needle (X.toLowercase b) = false
    | domainRegex _ | net _ | ports .. => False
  | .ip a, .ip b =>
    match rule with
    | net _ | privateRange => rule.matchesHost (.ip a) port = true ∧ isIpv4 a ≠ isIpv4 b
    | domainSuffix _ | domainFull _ | domainKeyword _ | domainRegex _ | ports .. => False
  | _, _ => False

/-- A name is its core and a number of dots, in either lower case. -/
theorem spelled (hX : Documented X) (name : String) :
    ∃ n, (Rust.toAsciiLowercase name).toList = (core name).toList ++ List.replicate n '.' ∧
      (X.toLowercase name).toList = (X.toLowercase (core name)).toList ++ List.replicate n '.' ∧
      (0 < n ↔ EndsInDot name) := by
  obtain ⟨n, hname, hdots⟩ := Rust.exists_trimEndMatches '.' name
  have hascii : (Rust.toAsciiLowercase name).toList = (core name).toList ++ List.replicate n '.' := by
    rw [core, Rust.toAsciiLowercase, Rust.toAsciiLowercase, String.toList_ofList, String.toList_ofList, hname,
      List.map_append, List.map_replicate]
    rfl
  have hlower : ∀ (s : String) (m : Nat),
      (X.toLowercase (s ++ String.ofList (List.replicate m '.'))).toList =
        (X.toLowercase s).toList ++ List.replicate m '.' := by
    intro s m
    induction m with
    | zero => simp
    | succ m ih =>
      have hsplit : s ++ String.ofList (List.replicate (m + 1) '.') =
          s ++ String.ofList (List.replicate m '.') ++ "." := by
        rw [← String.toList_inj]
        simp [List.replicate_succ']
      rw [hsplit, hX.lower_dot, String.toList_append, ih, List.append_assoc]
      simp [List.replicate_succ']
  refine ⟨n, hascii, ?_, hdots⟩
  have hsame : Rust.toAsciiLowercase name = core name ++ String.ofList (List.replicate n '.') := by
    rw [← String.toList_inj, hascii, String.toList_append, String.toList_ofList]
  rw [← hX.lower_ascii name, hsame, hlower]

/-! ### What a rule makes of two spellings -/

/-- A word that does not end in a dot is not the end of a text that does. -/
theorem not_suffix_of_dots {word text : List Char} {n : Nat} (hn : 0 < n) (hne : word ≠ [])
    (hword : word.getLast? ≠ some '.') : ¬ word <:+ text ++ List.replicate n '.' := by
  intro hsuffix
  obtain ⟨n, rfl⟩ : ∃ k, n = k + 1 := ⟨n - 1, by omega⟩
  rw [List.replicate_succ', ← List.append_assoc, List.suffix_concat_iff] at hsuffix
  rcases hsuffix with hnil | hend
  · exact hne hnil
  · obtain ⟨front, hfront, -⟩ := hend
    rw [hfront, List.getLast?_concat] at hword
    exact hword rfl

section Spelled
variable {a b : String}

/-- Where a rule catches no name with a dot behind and cannot tell names apart that have
the same core and none, it lets exactly the names with dots slip. -/
theorem slips_of_core (hab : core a = core b) {catches : String → Bool}
    (hdots : ∀ name, EndsInDot name → catches name = false)
    (hcore : ∀ x y, core x = core y → ¬ EndsInDot x → ¬ EndsInDot y → catches x = catches y) :
    catches a = true ∧ catches b = false ↔ catches a = true ∧ EndsInDot b := by
  constructor
  · intro h
    obtain ⟨ha, hb⟩ := h
    refine ⟨ha, ?_⟩
    have hplain : ¬ EndsInDot a := fun hdot => by rw [hdots a hdot] at ha; cases ha
    by_contra hdot
    rw [hcore a b hab hplain hdot, hb] at ha
    cases ha
  · intro h
    exact ⟨h.1, hdots b h.2⟩

/-- Without dots behind, names of one core have the same lower case. -/
theorem lower_eq_of_core (hX : Documented X) (hab : core a = core b) (ha : ¬ EndsInDot a) (hb : ¬ EndsInDot b) :
    Rust.toAsciiLowercase a = Rust.toAsciiLowercase b ∧ X.toLowercase a = X.toLowercase b := by
  obtain ⟨m, hascii, hlower, hm⟩ := spelled hX a
  obtain ⟨n, hascii', hlower', hn⟩ := spelled hX b
  obtain rfl : m = 0 := by
    by_contra hpos
    exact ha (hm.mp (Nat.pos_of_ne_zero hpos))
  obtain rfl : n = 0 := by
    by_contra hpos
    exact hb (hn.mp (Nat.pos_of_ne_zero hpos))
  constructor
  · rw [← String.toList_inj, hascii, hascii', hab]
  · rw [← String.toList_inj, hlower, hlower', hab]

/-- A suffix rule catches no name with a dot behind. -/
theorem suffix_misses_dots (hX : Documented X) {s : String} (hs : s ≠ "" ∧ ¬ EndsInDot s) {name : String}
    (hname : EndsInDot name) (port : UInt16) :
    (Matcher.domainSuffix s : Matcher X).matchesHost (.domain name) port = false := by
  obtain ⟨n, -, hlower, hdots⟩ := spelled hX name
  have hne : s.toList ≠ [] := fun hnil => hs.1 (String.toList_eq_nil_iff.mp hnil)
  have hmiss {word : List Char} (hword : word ≠ []) (hend : word.getLast? ≠ some '.') :
      ¬ word <:+ (X.toLowercase name).toList := by
    rw [hlower]
    exact not_suffix_of_dots (hdots.mpr hname) hword hend
  have hwhole : (X.toLowercase name == s) = false := by
    rw [beq_eq_false_iff_ne]
    intro heq
    rw [heq] at hmiss
    exact hmiss hne hs.2 List.suffix_rfl
  have htail : Rust.endsWith ("." ++ s) (X.toLowercase name) = false := by
    rw [Rust.endsWith, Bool.eq_false_iff, ne_eq, List.isSuffixOf_iff_suffix]
    apply hmiss
    · simp
    · rw [String.toList_append, List.getLast?_append_of_ne_nil _ hne]
      exact hs.2
  rw [Matcher.matchesHost, hwhole, htail]
  rfl

/-- Nor does a comparison up to case with a word that has none. -/
theorem word_misses_dots (hX : Documented X) {word : String} (hword : ¬ EndsInDot (Rust.toAsciiLowercase word))
    {name : String} (hname : EndsInDot name) : Rust.eqIgnoreAsciiCase name word = false := by
  obtain ⟨n, hascii, -, hdots⟩ := spelled hX name
  rw [Bool.eq_false_iff, ne_eq, Rust.eqIgnoreAsciiCase_iff]
  intro heq
  obtain ⟨n, rfl⟩ : ∃ k, n = k + 1 := ⟨n - 1, by have := hdots.mpr hname; omega⟩
  apply hword
  rw [← heq, EndsInDot, hascii, List.replicate_succ', ← List.append_assoc, List.getLast?_concat]

theorem eq_dot_of_toLower {c : Char} (h : c.toLower = '.') : c = '.' := by
  rw [Char.toLower] at h
  split at h
  · rename_i hupper
    have hval := congrArg (fun d => d.val.toNat) h
    simp only [ge_iff_le, UInt32.le_iff_toNat_le] at hupper
    have hlo : 65 ≤ c.val.toNat := hupper.1
    have hhi : c.val.toNat ≤ 90 := hupper.2
    have hsum : (c.val.toNat + 32) % 2 ^ 32 = 46 := hval
    omega
  · exact h

theorem endsInDot_toAsciiLowercase {s : String} (h : ¬ EndsInDot s) : ¬ EndsInDot (Rust.toAsciiLowercase s) := by
  intro hdot
  rw [EndsInDot, Rust.toAsciiLowercase, String.toList_ofList, List.getLast?_map] at hdot
  obtain ⟨c, hlast, hc⟩ := Option.map_eq_some_iff.mp hdot
  exact h (by rw [EndsInDot, hlast, eq_dot_of_toLower hc])

theorem full_misses_dots (hX : Documented X) {s : String} (hs : ¬ EndsInDot s) {name : String}
    (hname : EndsInDot name) (port : UInt16) :
    (Matcher.domainFull s : Matcher X).matchesHost (.domain name) port = false :=
  word_misses_dots hX (endsInDot_toAsciiLowercase hs) hname

theorem localhost_misses_dots (hX : Documented X) {name : String} (hname : EndsInDot name) (port : UInt16) :
    (Matcher.privateRange : Matcher X).matchesHost (.domain name) port = false :=
  word_misses_dots hX (by decide) hname

/-- A keyword that does not end in a dot does not see the dots. -/
theorem keyword_slips_iff (hX : Documented X) (hab : core a = core b) (needle : String) (port : UInt16) :
    (Matcher.domainKeyword needle : Matcher X).matchesHost (.domain a) port = true ∧
        (Matcher.domainKeyword needle : Matcher X).matchesHost (.domain b) port = false ↔
      (Matcher.domainKeyword needle : Matcher X).Slips port (.domain a) (.domain b) := by
  obtain ⟨m, -, hlower, -⟩ := spelled hX a
  obtain ⟨n, -, hlower', -⟩ := spelled hX b
  have hheld (hdot : ¬ EndsInDot needle) :
      Rust.contains needle (X.toLowercase a) = Rust.contains needle (X.toLowercase b) := by
    rw [Rust.contains, Rust.contains, decide_eq_decide, hlower, hlower', hab,
      Rust.infix_append_replicate hdot m, Rust.infix_append_replicate hdot n]
  constructor
  · intro h
    obtain ⟨ha, hb⟩ := h
    refine ⟨ha, ?_, hb⟩
    by_contra hdot
    have hsame : Rust.contains needle (X.toLowercase a) = false := (hheld hdot).trans hb
    exact Bool.noConfusion (ha.symm.trans hsame)
  · intro h
    exact ⟨h.1, h.2.2⟩

end Spelled

/-- The private ranges hold no address of the fourth version written in the sixth. -/
theorem private_misses_mapped {a : BitVec 32} {b : BitVec 128} (h : IpAddr.toIpv4Mapped b = some a) :
    isPrivate (.v6 b) = false := by
  have hhigh : b >>> 32 = 0xffff := by
    rw [IpAddr.toIpv4Mapped] at h
    split at h
    · rename_i heq
      exact eq_of_beq heq
    · cases h
  have hnet (length : Nat) (net : BitVec 128) (hlength : length ≤ 96)
      (hne : net >>> (128 - length) ≠ (0xffff : BitVec 128) >>> (96 - length)) :
      Rust.sameNetwork length net b = false := by
    rw [Rust.sameNetwork, beq_eq_false_iff_ne]
    have hshift : b >>> (128 - length) = (b >>> 32) >>> (96 - length) := by
      rw [← BitVec.shiftRight_add]
      congr 1
      omega
    rw [hshift, hhigh]
    exact hne
  have hone : (b == 1) = false := by
    rw [beq_eq_false_iff_ne]
    intro heq
    rw [heq] at hhigh
    exact absurd hhigh (by decide)
  have hzero : (b == 0) = false := by
    rw [beq_eq_false_iff_ne]
    intro heq
    rw [heq] at hhigh
    exact absurd hhigh (by decide)
  rw [isPrivate, hone, hzero, hnet 7 _ (by decide) (by decide), hnet 10 _ (by decide) (by decide)]
  rfl

/-- **What a rule makes of two spellings**: it catches one and misses the other exactly if
it lets the other slip. -/
theorem slips_iff (hX : Documented X) {rule : Matcher X} (hrule : rule.Normalized)
    (hregex : ∀ pattern, rule ≠ .domainRegex pattern) {a b : Host} (hab : SameDestination a b) (port : UInt16) :
    rule.matchesHost a port = true ∧ rule.matchesHost b port = false ↔ rule.Slips port a b := by
  have hports {p : Prop} {c : Bool} (hp : ¬ p) : c = true ∧ c = false ↔ p := by
    cases c <;> simp [hp]
  cases hab with
  | domain hcore =>
    rename_i a b
    have hplain : ¬ EndsInDot a → ¬ EndsInDot b → _ := lower_eq_of_core hX hcore
    cases rule with
    | domainSuffix s =>
      apply slips_of_core hcore (fun name hname => suffix_misses_dots hX hrule hname port)
      intro x y hxy hx hy
      rw [Matcher.matchesHost, Matcher.matchesHost, (lower_eq_of_core hX hxy hx hy).2]
    | domainFull s =>
      apply slips_of_core hcore (fun name hname => full_misses_dots hX hrule.2 hname port)
      intro x y hxy hx hy
      rw [Matcher.matchesHost, Matcher.matchesHost, Bool.eq_iff_iff, Rust.eqIgnoreAsciiCase_iff,
        Rust.eqIgnoreAsciiCase_iff, (lower_eq_of_core hX hxy hx hy).1]
    | domainKeyword needle => exact keyword_slips_iff hX hcore needle port
    | domainRegex pattern => exact absurd rfl (hregex pattern)
    | net n => exact hports id
    | ports lo hi => exact hports id
    | privateRange =>
      apply slips_of_core hcore (fun name hname => localhost_misses_dots hX hname port)
      intro x y hxy hx hy
      rw [Matcher.matchesHost, Matcher.matchesHost, Bool.eq_iff_iff, Rust.eqIgnoreAsciiCase_iff,
        Rust.eqIgnoreAsciiCase_iff, (lower_eq_of_core hX hxy hx hy).1]
  | ip ip =>
    have hsame : ¬ (rule.matchesHost (.ip ip) port = true ∧ rule.matchesHost (.ip ip) port = false) := by
      intro h
      exact Bool.noConfusion (h.1.symm.trans h.2)
    have hslips : ¬ rule.Slips port (.ip ip) (.ip ip) := by
      cases rule with
      | net n => exact fun h => h.2 rfl
      | privateRange => exact fun h => h.2 rfl
      | _ => exact id
    exact iff_of_false hsame hslips
  | mapped hmapped =>
    cases rule with
    | net n => exact and_congr_right fun h => iff_of_true (hX.one_version n _ _ h) Bool.true_eq_false.mp
    | privateRange => exact and_congr_right fun _ => iff_of_true (private_misses_mapped hmapped) Bool.true_eq_false.mp
    | domainRegex pattern => exact absurd rfl (hregex pattern)
    | _ => exact hports id
  | unmapped hmapped =>
    cases rule with
    | net n =>
      apply and_congr_right
      intro h
      refine iff_of_true ?_ Bool.false_ne_true
      rw [Bool.eq_false_iff]
      intro hother
      exact Bool.noConfusion (h.symm.trans (hX.one_version n _ _ hother))
    | privateRange =>
      have hmiss := private_misses_mapped hmapped
      refine iff_of_false ?_ ?_ <;> exact fun h => Bool.noConfusion (h.1.symm.trans hmiss)
    | domainRegex pattern => exact absurd rfl (hregex pattern)
    | _ => exact hports id

/-! ### Lists of rules -/

/-- Every rule of the list that lets the spelling slip is backed by one that catches it. -/
def Backed (rules : List (Matcher X)) (port : UInt16) (a b : Host) : Prop :=
  ∀ rule ∈ rules, rule.Slips port a b → caught rules b port = true

/-- A rule set without regular expressions. -/
def RuleSet.NoRegex (set : RuleSet X) : Prop :=
  ∀ rule ∈ set.block ++ set.direct, ∀ pattern, rule ≠ .domainRegex pattern

theorem caught_of_backed (hX : Documented X) {rules : List (Matcher X)} (hrules : ∀ rule ∈ rules, rule.Normalized)
    (hregex : ∀ rule ∈ rules, ∀ pattern, rule ≠ .domainRegex pattern) {a b : Host} (hab : SameDestination a b)
    {port : UInt16} : (caught rules a port = true → caught rules b port = true) ↔ Backed rules port a b := by
  have hstep (rule : Matcher X) (hrule : rule ∈ rules) :=
    slips_iff hX (hrules rule hrule) (hregex rule hrule) hab port
  constructor
  · intro h rule hrule hslips
    exact h (List.any_eq_true.mpr ⟨rule, hrule, ((hstep rule hrule).mpr hslips).1⟩)
  · intro hbacked ha
    obtain ⟨rule, hrule, hcatches⟩ := List.any_eq_true.mp ha
    cases hb : rule.matchesHost b port with
    | true => exact List.any_eq_true.mpr ⟨rule, hrule, hb⟩
    | false => exact hbacked rule hrule ((hstep rule hrule).mp ⟨hcatches, hb⟩)

theorem caught_eq_iff (hX : Documented X) {rules : List (Matcher X)} (hrules : ∀ rule ∈ rules, rule.Normalized)
    (hregex : ∀ rule ∈ rules, ∀ pattern, rule ≠ .domainRegex pattern) {a b : Host} (hab : SameDestination a b)
    (port : UInt16) :
    caught rules a port = caught rules b port ↔ Backed rules port a b ∧ Backed rules port b a := by
  rw [← caught_of_backed hX hrules hregex hab, ← caught_of_backed hX hrules hregex hab.symm, Bool.eq_iff_iff]
  exact iff_def

/-- **Two spellings of a destination are decided alike** exactly if the block rules that
let one of them slip are backed and, where no block rule catches it, so are the direct
rules: for every text of rules without regular expressions, every port and every two
spellings. -/
theorem spelling_iff (hX : Documented X) (R : Reader X) (block direct : String)
    (hregex : (RuleSet.parse R block direct).NoRegex) (port : UInt16) {a b : Host} (hab : SameDestination a b) :
    (RuleSet.parse R block direct).decide a port = (RuleSet.parse R block direct).decide b port ↔
      (Backed (parseList R block) port a b ∧ Backed (parseList R block) port b a) ∧
        (caught (parseList R block) b port = true ∨
          Backed (parseList R direct) port a b ∧ Backed (parseList R direct) port b a) := by
  have hblock := caught_eq_iff hX (normalized_parseList hX R block)
    (fun rule hrule => hregex rule (List.mem_append_left _ hrule)) hab port
  have hdirect := caught_eq_iff hX (normalized_parseList hX R direct)
    (fun rule hrule => hregex rule (List.mem_append_right _ hrule)) hab port
  rw [RuleSet.decide_eq_decide_iff, ← hblock, ← hdirect]
  rfl

/-! ### A concrete reader -/

/-- Networks as an address and a length behind a slash. -/
def plainReader : Reader plain where
  newRegex := fun _ => none
  parseIpNet := fun text =>
    match Rust.splitOnce '/' text with
    | some (address, length) =>
      (Rust.parseIp address).bind fun ip => (Rust.parseU16 length).map fun bits => (ip, bits.toNat)
    | none => none
  netOf := fun
    | .v4 bits => (.v4 bits, 32)
    | .v6 bits => (.v6 bits, 128)

theorem documented_plain : Documented plain where
  lower_ascii s := by
    show String.ofList ((String.ofList (s.toList.map Char.toLower)).toList.map Char.toLower) = _
    rw [String.toList_ofList, List.map_map]
    congr 1
    exact List.map_congr_left fun c _ => Char.toLower_toLower_eq_toLower c
  lower_dot s := by
    show String.ofList ((s ++ ".").toList.map Char.toLower) = String.ofList (s.toList.map Char.toLower) ++ "."
    rw [← String.toList_inj]
    simp
  lower_ends s h := by
    by_contra hdot
    exact endsInDot_toAsciiLowercase hdot h
  one_version net a b h := by
    obtain ⟨address, length⟩ := net
    cases address with
    | v4 bits => rfl
    | v6 bits => cases h

/-- The block list of two rules. -/
def blocked : RuleSet plain := RuleSet.parse plainReader "ads.example, 10.0.0.0/8" ""

theorem blocked_unbacked :
    ¬ ((Backed blocked.block 443 (.domain "ads.example") (.domain "ads.example.") ∧
          Backed blocked.block 443 (.domain "ads.example.") (.domain "ads.example")) ∧
        (caught blocked.block (.domain "ads.example.") 443 = true ∨
          Backed blocked.direct 443 (.domain "ads.example") (.domain "ads.example.") ∧
            Backed blocked.direct 443 (.domain "ads.example.") (.domain "ads.example"))) := by
  have hregex : blocked.NoRegex := fun _ _ pattern => pattern.elim
  have hiff := spelling_iff documented_plain plainReader "ads.example, 10.0.0.0/8" "" hregex 443
    (.domain (by decide +kernel : core "ads.example" = core "ads.example."))
  exact fun h => absurd (hiff.mpr h) (by decide +kernel)

/-- A dot behind the name, or the sixth version of the address, reaches what is blocked. -/
theorem blocked_by_spelling :
    (SameDestination (.domain "ads.example") (.domain "ads.example.") ∧
      blocked.decide (.domain "ads.example") 443 = .block ∧
      blocked.decide (.domain "ads.example.") 443 = .proxy) ∧
    SameDestination (.ip (.v4 (Rust.ipv4 10 1 2 3))) (.ip (.v6 0xffff0a010203)) ∧
      blocked.decide (.ip (.v4 (Rust.ipv4 10 1 2 3))) 443 = .block ∧
      blocked.decide (.ip (.v6 0xffff0a010203)) 443 = .proxy := by
  refine ⟨⟨.domain ?_, ?_, ?_⟩, .mapped ?_, ?_, ?_⟩
  all_goals decide +kernel

end Aether.Routing
