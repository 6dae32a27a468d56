import Aether.Kotlin.Pattern
import Aether.Kotlin.Platform
import Aether.Kotlin.SortedWith

/-! The rule classifier of the tunnel bridge.

`RoutingEngine` compiles the rules once, sorts them by class and by the length of the
pattern, and asks them for every flow: first the rules for addresses, then those for
names, about the name from DNS, the one of the TLS handshake and the one of the HTTP
request.

`Decides` says which decision that is, in terms of the rules as the user listed them;
`classifier_correct` is that the sorted lists and the passes over them come to it, and
that an address is compared with a network bit by bit. -/
namespace Aether.Bridge.RoutingEngine
open Kotlin

inductive RoutingMode where
  | tunnel | direct | block
deriving DecidableEq

structure RoutingRule where
  pattern : String
  mode : RoutingMode
deriving DecidableEq

inductive MatchType where
  | domain | domainSuffix | keyword | regex | ipv4 | ipv6 | cidr | dnsCache | sni | httpHost | default
deriving DecidableEq

structure RoutingDecision where
  mode : RoutingMode
  matchedRule : Option RoutingRule
  matchedBy : MatchType
  resolvedDomain : Option String
deriving DecidableEq

/-- `InetAddress`: four octets, or sixteen. -/
structure InetAddress where
  address : List UInt8
  size : address.length = 4 ∨ address.length = 16
deriving DecidableEq

/-- What the engine uses of the runtime's libraries. An exception is `none`. -/
structure Externs extends Platform where
  Regex : Type
  /-- `Regex(pattern)` -/
  newRegex : String → Option Regex
  containsMatchIn : Regex → String → Bool
  /-- `InetAddress.getByName`, asked about numeric addresses only. -/
  getByName : String → Option InetAddress

variable {X : Externs}

/-! ### Rules -/

structure CompiledRule (X : Externs) where
  source : RoutingRule
  normalizedPattern : String
  regex : Option X.Regex
  priority : Nat

/-- The class of a pattern. -/
def priorityOf (normalized : String) : Nat :=
  if startsWith "ip:" normalized && !normalized.toList.contains '/' then 600
  else if startsWith "ip:" normalized then 500
  else if startsWith "domain:" normalized then 400
  else if startsWith "keyword:" normalized then 200
  else if startsWith "regexp:" normalized then 100
  else 300

/-- `compileRule`. An empty pattern is dropped, and an expression that is none. -/
def compileRule (X : Externs) (rule : RoutingRule) : Option (CompiledRule X) :=
  let normalized := X.lowercase (trim rule.pattern)
  if normalized.isEmpty then none
  else if startsWith "regexp:" normalized then
    (X.newRegex (removePrefix "regexp:" normalized)).map fun regex =>
      ⟨rule, normalized, some regex, priorityOf normalized⟩
  else some ⟨rule, normalized, none, priorityOf normalized⟩

/-- `compareByDescending { priority }.thenByDescending { normalizedPattern.length }`. -/
def NotAfter (a b : CompiledRule X) : Prop :=
  b.priority < a.priority ∨
    b.priority = a.priority ∧ utf16Length b.normalizedPattern ≤ utf16Length a.normalizedPattern

instance : DecidableRel (NotAfter (X := X)) := fun _ _ => inferInstanceAs (Decidable (_ ∨ _))

def compiledRules (X : Externs) (rules : List RoutingRule) : List (CompiledRule X) :=
  sortedWith NotAfter (rules.filterMap (compileRule X))

/-! ### Addresses -/

/-- `^(?:\d{1,3}\.){3}\d{1,3}$` -/
def dotted : Pattern :=
  let digits := .chars isDecimalDigit 1 (some 3)
  let group := .seq digits (.char '.')
  .seq group (.seq group (.seq group digits))

/-- `^[0-9a-fA-F:.]+$` -/
def hexadecimal : Pattern := .chars (fun c => isHexClass c || c == ':' || c == '.') 1 none

def parseNumericAddress (X : Externs) (value : String) : Option InetAddress :=
  let candidate := substringBefore '%' (trim value)
  let isIpv4 := dotted.fullMatch candidate
  let isIpv6 := candidate.toList.contains ':' && hexadecimal.fullMatch candidate
  if !isIpv4 && !isIpv6 then none else X.getByName candidate

/-- An octet of an address. -/
def InetAddress.octet (a : InetAddress) (index : Nat) : UInt8 := a.address.getD index 0

/-- The comparison of the first `length` bits: whole octets, then what is left under a mask. -/
def samePrefix (network address : InetAddress) (length : Nat) : Bool :=
  let wholeBytes := length / 8
  let remainingBits := length % 8
  let mask := (0xFF <<< (8 - remainingBits)) &&& 0xFF
  (List.range wholeBytes).all (fun index => network.octet index == address.octet index) &&
    (remainingBits == 0 ||
      (network.octet wholeBytes).toNat &&& mask == (address.octet wholeBytes).toNat &&& mask)

/-- `split('/', limit = 2)`. -/
def splitSlash (pattern : String) : String × Option String :=
  match pattern.toList.dropWhile (· != '/') with
  | [] => (pattern, none)
  | _ :: rest => (substringBefore '/' pattern, some (String.ofList rest))

def matchesIp (X : Externs) (address : InetAddress) (pattern : String) : Bool :=
  let parts := splitSlash pattern
  (parseNumericAddress X parts.1).any fun network =>
    network.address.length == address.address.length &&
      match parts.2 with
      | none => network.address == address.address
      | some length => (toIntOrNull length).any fun length =>
        decide (0 ≤ length.toInt ∧ length.toInt ≤ ((network.address.length * 8 : Nat) : Int)) && samePrefix network address length.toInt.toNat

/-! ### Decisions -/

def CompiledRule.isIpRule (rule : CompiledRule X) : Bool := startsWith "ip:" rule.normalizedPattern

/-- The rule is for addresses and for this one. -/
def CompiledRule.matchesAddress (address : InetAddress) (rule : CompiledRule X) : Bool :=
  rule.isIpRule && matchesIp X address (removePrefix "ip:" rule.normalizedPattern)

def addressType (address : InetAddress) (rule : CompiledRule X) : MatchType :=
  if (removePrefix "ip:" rule.normalizedPattern).toList.contains '/' then .cidr
  else if address.address.length = 16 then .ipv6
  else .ipv4

def matchIpRules (X : Externs) (rules : List (CompiledRule X)) (ip : String) : Option RoutingDecision :=
  (parseNumericAddress X ip).bind fun address => (rules.find? (CompiledRule.matchesAddress address)).map fun rule =>
    ⟨rule.source.mode, some rule.source, addressType address rule, none⟩

def matchesDomain (domain pattern : String) : Bool :=
  let normalized := trimEnd '.' (removePrefix "*." pattern)
  domain == normalized || endsWith ("." ++ normalized) domain

/-- The rule is for names and for this one. -/
def CompiledRule.matchesName (domain : String) (rule : CompiledRule X) : Bool :=
  let pattern := rule.normalizedPattern
  if startsWith "ip:" pattern then false
  else if startsWith "keyword:" pattern then containsText (removePrefix "keyword:" pattern) domain
  else if startsWith "regexp:" pattern then rule.regex.any fun regex => X.containsMatchIn regex domain
  else if startsWith "domain:" pattern then matchesDomain domain (removePrefix "domain:" pattern)
  else matchesDomain domain pattern

def nameType (domain : String) (sourceType : MatchType) (rule : CompiledRule X) : MatchType :=
  let pattern := rule.normalizedPattern
  if startsWith "keyword:" pattern then .keyword
  else if startsWith "regexp:" pattern then .regex
  else if domain = removePrefix "domain:" pattern then .domain
  else if sourceType = .dnsCache ∨ sourceType = .sni ∨ sourceType = .httpHost then sourceType
  else .domainSuffix

def matchDomainRules (rules : List (CompiledRule X)) (domain : String) (sourceType : MatchType) :
    Option RoutingDecision :=
  (rules.find? (CompiledRule.matchesName domain)).map fun rule =>
    ⟨rule.source.mode, some rule.source, nameType domain sourceType rule, some domain⟩

def resolveInternal (X : Externs) (rules : List RoutingRule) (destinationIp : String)
    (resolvedDomain tlsSni httpHost : Option String) : RoutingDecision :=
  let compiled := compiledRules X rules
  let decision := (matchIpRules X compiled destinationIp).or <|
    (resolvedDomain.bind fun domain => matchDomainRules compiled domain .dnsCache).or <|
    (tlsSni.bind fun domain => matchDomainRules compiled domain .sni).or <|
    httpHost.bind fun domain => matchDomainRules compiled domain .httpHost
  decision.getD ⟨.tunnel, none, .default, resolvedDomain.or (tlsSni.or httpHost)⟩

/-! ### What is decided -/

/-- `a` stands in a higher class, or has the longer pattern of the same class. -/
def Outranks (a b : CompiledRule X) : Prop :=
  b.priority < a.priority ∨
    b.priority = a.priority ∧ utf16Length b.normalizedPattern < utf16Length a.normalizedPattern

/-- Some rule of the list is compiled to one that `m` holds of. -/
def Applies (X : Externs) (m : CompiledRule X → Bool) (rules : List RoutingRule) : Prop :=
  ∃ rule ∈ rules, ∃ c, compileRule X rule = some c ∧ m c = true

/-- Of the rules that `m` holds of, the one compiled to `c` outranks all that are listed
before it and is outranked by none after it. -/
def Preferred (m : CompiledRule X → Bool) (rules : List RoutingRule) (c : CompiledRule X) : Prop :=
  ∃ before after, rules = before ++ c.source :: after ∧ compileRule X c.source = some c ∧ m c = true ∧
    (∀ rule ∈ before, ∀ other, compileRule X rule = some other → m other = true → Outranks c other) ∧
    ∀ rule ∈ after, ∀ other, compileRule X rule = some other → m other = true → ¬ Outranks other c

/-- The rule is for addresses, and for the address that the text reads as. -/
def CompiledRule.matchesDestination (destinationIp : String) (rule : CompiledRule X) : Bool :=
  (parseNumericAddress X destinationIp).any fun address => rule.matchesAddress address

/-- The names of a flow in the order they are asked about. -/
def names (resolvedDomain tlsSni httpHost : Option String) : List (MatchType × String) :=
  (resolvedDomain.map (MatchType.dnsCache, ·)).toList ++ (tlsSni.map (MatchType.sni, ·)).toList ++
    (httpHost.map (MatchType.httpHost, ·)).toList

/-- The decision about a flow. -/
inductive Decides (X : Externs) (rules : List RoutingRule) (destinationIp : String)
    (resolvedDomain tlsSni httpHost : Option String) : RoutingDecision → Prop where
  | address {c : CompiledRule X} {address : InetAddress}
      (hread : parseNumericAddress X destinationIp = some address)
      (hbest : Preferred (CompiledRule.matchesAddress address) rules c) :
      Decides X rules destinationIp resolvedDomain tlsSni httpHost
        ⟨c.source.mode, some c.source, addressType address c, none⟩
  | name {c : CompiledRule X} {before after : List (MatchType × String)} {source : MatchType} {domain : String}
      (hno : ¬ Applies X (CompiledRule.matchesDestination destinationIp) rules)
      (hnames : names resolvedDomain tlsSni httpHost = before ++ (source, domain) :: after)
      (hfirst : ∀ earlier ∈ before, ¬ Applies X (CompiledRule.matchesName earlier.2) rules)
      (hbest : Preferred (CompiledRule.matchesName domain) rules c) :
      Decides X rules destinationIp resolvedDomain tlsSni httpHost
        ⟨c.source.mode, some c.source, nameType domain source c, some domain⟩
  | tunnel (hno : ¬ Applies X (CompiledRule.matchesDestination destinationIp) rules)
      (hnone : ∀ name ∈ names resolvedDomain tlsSni httpHost, ¬ Applies X (CompiledRule.matchesName name.2) rules) :
      Decides X rules destinationIp resolvedDomain tlsSni httpHost
        ⟨.tunnel, none, .default, resolvedDomain.or (tlsSni.or httpHost)⟩

/-- Bit `i` of an address, counted from the first. -/
def InetAddress.bit (a : InetAddress) (i : Nat) : Bool := (a.octet (i / 8)).toNat.testBit (7 - i % 8)

/-! ### The search -/

theorem compileRule_source {rule : RoutingRule} {c : CompiledRule X} (h : compileRule X rule = some c) :
    c.source = rule := by
  rw [compileRule] at h
  split at h
  · cases h
  · split at h
    · obtain ⟨regex, -, rfl⟩ := Option.map_eq_some_iff.mp h
      rfl
    · cases h
      rfl

instance : Std.Total (NotAfter (X := X)) where
  total a b := by
    unfold NotAfter
    omega

instance : IsTrans (CompiledRule X) NotAfter where
  trans a b c hab hbc := by
    unfold NotAfter at *
    omega

theorem not_notAfter {a b : CompiledRule X} : ¬ NotAfter b a ↔ Outranks a b := by
  unfold NotAfter Outranks
  omega

theorem notAfter_iff {a b : CompiledRule X} : NotAfter a b ↔ ¬ Outranks b a := by
  rw [← not_notAfter, not_not]

/-- The compiled list is chosen from as the listed rules are. -/
theorem chosen_iff_preferred {m : CompiledRule X → Bool} {rules : List RoutingRule} {c : CompiledRule X} :
    Chosen NotAfter m (rules.filterMap (compileRule X)) c ↔ Preferred m rules c := by
  constructor
  · intro h
    obtain ⟨before, after, heq, hm, hbefore, hafter⟩ := h
    obtain ⟨listed, rest, rfl, rfl, hrest⟩ := List.filterMap_eq_append_iff.mp heq
    obtain ⟨skipped, rule, rest', rfl, hskipped, hrule, rfl⟩ := List.filterMap_eq_cons_iff.mp hrest
    have hsource := compileRule_source hrule
    subst hsource
    refine ⟨listed ++ skipped, rest', by simp, hrule, hm, ?_, ?_⟩
    · intro rule hmem other hother hmo
      rcases List.mem_append.mp hmem with hmem | hmem
      · exact not_notAfter.mp (hbefore other (List.mem_filterMap.mpr ⟨rule, hmem, hother⟩) hmo)
      · rw [hskipped rule hmem] at hother
        cases hother
    · intro rule hmem other hother hmo
      exact notAfter_iff.mp (hafter other (List.mem_filterMap.mpr ⟨rule, hmem, hother⟩) hmo)
  · intro h
    obtain ⟨before, after, rfl, hc, hm, hbefore, hafter⟩ := h
    refine ⟨before.filterMap (compileRule X), after.filterMap (compileRule X), ?_, hm, ?_, ?_⟩
    · rw [List.filterMap_append, List.filterMap_cons_some hc]
    · intro other hmem hmo
      obtain ⟨rule, hrule, hother⟩ := List.mem_filterMap.mp hmem
      exact not_notAfter.mpr (hbefore rule hrule other hother hmo)
    · intro other hmem hmo
      obtain ⟨rule, hrule, hother⟩ := List.mem_filterMap.mp hmem
      exact notAfter_iff.mpr (hafter rule hrule other hother hmo)

theorem find?_some_iff {m : CompiledRule X → Bool} {rules : List RoutingRule} {c : CompiledRule X} :
    (compiledRules X rules).find? m = some c ↔ Preferred m rules c := by
  rw [compiledRules, find?_sortedWith_iff, chosen_iff_preferred]

theorem find?_none_iff {m : CompiledRule X → Bool} {rules : List RoutingRule} :
    (compiledRules X rules).find? m = none ↔ ¬ Applies X m rules := by
  rw [compiledRules, find?_sortedWith_none]
  constructor
  · intro h happlies
    obtain ⟨rule, hrule, c, hc, hm⟩ := happlies
    have hno := h c (List.mem_filterMap.mpr ⟨rule, hrule, hc⟩)
    rw [hm] at hno
    cases hno
  · intro h c hc
    obtain ⟨rule, hrule, hrc⟩ := List.mem_filterMap.mp hc
    exact Bool.eq_false_iff.mpr fun hm => h ⟨rule, hrule, c, hrc, hm⟩

/-! ### The passes -/

theorem matchIpRules_none_iff {rules : List RoutingRule} {ip : String} :
    matchIpRules X (compiledRules X rules) ip = none ↔
      ¬ Applies X (CompiledRule.matchesDestination ip) rules := by
  rw [matchIpRules]
  cases hread : parseNumericAddress X ip with
  | none =>
    refine iff_of_true rfl ?_
    intro h
    obtain ⟨rule, -, c, -, hm⟩ := h
    rw [CompiledRule.matchesDestination, hread] at hm
    cases hm
  | some address =>
    have hsame : (CompiledRule.matchesDestination ip : CompiledRule X → Bool) =
        CompiledRule.matchesAddress address := by
      funext c
      rw [CompiledRule.matchesDestination, hread]
      rfl
    rw [hsame, ← find?_none_iff, Option.bind_some, Option.map_eq_none_iff]

theorem matchIpRules_some_iff {rules : List RoutingRule} {ip : String} {d : RoutingDecision} :
    matchIpRules X (compiledRules X rules) ip = some d ↔
      ∃ address, ∃ c : CompiledRule X, parseNumericAddress X ip = some address ∧
        Preferred (CompiledRule.matchesAddress address) rules c ∧
        d = ⟨c.source.mode, some c.source, addressType address c, none⟩ := by
  rw [matchIpRules]
  cases hread : parseNumericAddress X ip with
  | none => simp
  | some address =>
    rw [Option.bind_some, Option.map_eq_some_iff]
    constructor
    · intro h
      obtain ⟨c, hc, rfl⟩ := h
      exact ⟨address, c, rfl, find?_some_iff.mp hc, rfl⟩
    · intro h
      obtain ⟨_, c, heq, hc, rfl⟩ := h
      cases heq
      exact ⟨c, find?_some_iff.mpr hc, rfl⟩

theorem matchDomainRules_none_iff {rules : List RoutingRule} {domain : String} {source : MatchType} :
    matchDomainRules (compiledRules X rules) domain source = none ↔
      ¬ Applies X (CompiledRule.matchesName domain) rules := by
  rw [matchDomainRules, Option.map_eq_none_iff, find?_none_iff]

theorem matchDomainRules_some_iff {rules : List RoutingRule} {domain : String} {source : MatchType}
    {d : RoutingDecision} :
    matchDomainRules (compiledRules X rules) domain source = some d ↔
      ∃ c : CompiledRule X, Preferred (CompiledRule.matchesName domain) rules c ∧
        d = ⟨c.source.mode, some c.source, nameType domain source c, some domain⟩ := by
  rw [matchDomainRules, Option.map_eq_some_iff]
  apply exists_congr
  intro c
  rw [find?_some_iff]
  exact and_congr_right fun _ => eq_comm

/-- The three passes are one search through the names that are there. -/
theorem resolveInternal_eq (rules : List RoutingRule) (ip : String) (dns sni host : Option String) :
    resolveInternal X rules ip dns sni host =
      ((matchIpRules X (compiledRules X rules) ip).or
        ((names dns sni host).findSome? fun name =>
          matchDomainRules (compiledRules X rules) name.2 name.1)).getD
        ⟨.tunnel, none, .default, dns.or (sni.or host)⟩ := by
  have hone : ∀ (source : MatchType) (name : Option String),
      ((name.map (source, ·)).toList.findSome? fun name =>
        matchDomainRules (compiledRules X rules) name.2 name.1) =
        name.bind fun domain => matchDomainRules (compiledRules X rules) domain source := by
    intro source name
    cases name with
    | none => rfl
    | some name => simp
  rw [resolveInternal, names, List.findSome?_append, List.findSome?_append, hone, hone, hone, Option.or_assoc]

theorem decides_resolveInternal (rules : List RoutingRule) (ip : String) (dns sni host : Option String) :
    Decides X rules ip dns sni host (resolveInternal X rules ip dns sni host) := by
  rw [resolveInternal_eq]
  cases hip : matchIpRules X (compiledRules X rules) ip with
  | some d =>
    obtain ⟨address, c, hread, hbest, rfl⟩ := matchIpRules_some_iff.mp hip
    exact .address hread hbest
  | none =>
    have hno := matchIpRules_none_iff.mp hip
    rw [Option.none_or]
    cases hname : (names dns sni host).findSome? fun name =>
      matchDomainRules (compiledRules X rules) name.2 name.1 with
    | none =>
      refine .tunnel hno ?_
      intro name hmem
      exact matchDomainRules_none_iff.mp (List.findSome?_eq_none_iff.mp hname name hmem)
    | some d =>
      obtain ⟨before, name, after, hnames, hd, hbefore⟩ := List.findSome?_eq_some_iff.mp hname
      obtain ⟨c, hbest, rfl⟩ := matchDomainRules_some_iff.mp hd
      exact .name hno hnames (fun earlier hmem => matchDomainRules_none_iff.mp (hbefore earlier hmem)) hbest

theorem resolveInternal_of_decides {rules : List RoutingRule} {ip : String} {dns sni host : Option String}
    {d : RoutingDecision} (h : Decides X rules ip dns sni host d) :
    resolveInternal X rules ip dns sni host = d := by
  rw [resolveInternal_eq]
  cases h with
  | address hread hbest =>
    rw [matchIpRules_some_iff.mpr ⟨_, _, hread, hbest, rfl⟩]
    rfl
  | name hno hnames hfirst hbest =>
    rw [matchIpRules_none_iff.mpr hno, Option.none_or, List.findSome?_eq_some_iff.mpr
      ⟨_, _, _, hnames, matchDomainRules_some_iff.mpr ⟨_, hbest, rfl⟩, fun earlier hmem =>
        matchDomainRules_none_iff.mpr (hfirst earlier hmem)⟩]
    rfl
  | tunnel hno hnone =>
    rw [matchIpRules_none_iff.mpr hno, Option.none_or, List.findSome?_eq_none_iff.mpr
      fun name hmem => matchDomainRules_none_iff.mpr (hnone name hmem)]
    rfl

/-! ### Bits -/

theorem octet_eq_iff {a b : UInt8} : a = b ↔ ∀ j < 8, a.toNat.testBit (7 - j) = b.toNat.testBit (7 - j) := by
  constructor
  · intro h j _
    rw [h]
  · intro h
    apply UInt8.toNat.inj
    apply Nat.eq_of_testBit_eq
    intro i
    by_cases hi : i < 8
    · have hbit := h (7 - i) (by omega)
      rwa [show 7 - (7 - i) = i by omega] at hbit
    · have hbig : ∀ c : UInt8, c.toNat.testBit i = false := by
        intro c
        apply Nat.testBit_lt_two_pow
        calc c.toNat < 2 ^ 8 := c.toNat_lt
          _ ≤ 2 ^ i := Nat.pow_le_pow_right (by decide) (by omega)
      rw [hbig, hbig]

theorem testBit_mask {r : Nat} (hr : r < 8) (i : Nat) :
    ((0xFF <<< (8 - r)) &&& 0xFF : Nat).testBit i = decide (8 - r ≤ i ∧ i < 8) := by
  have hones : (0xFF : Nat) = 2 ^ 8 - 1 := rfl
  rw [Nat.testBit_and, Nat.testBit_shiftLeft, hones, Nat.testBit_two_pow_sub_one, Nat.testBit_two_pow_sub_one]
  rw [Bool.eq_iff_iff]
  simp only [Bool.and_eq_true, decide_eq_true_eq]
  omega

/-- Under the mask the first bits of an octet are left. -/
theorem masked_eq_iff {r : Nat} (hr : r < 8) (a b : UInt8) :
    a.toNat &&& ((0xFF <<< (8 - r)) &&& 0xFF) = b.toNat &&& ((0xFF <<< (8 - r)) &&& 0xFF) ↔
      ∀ j < r, a.toNat.testBit (7 - j) = b.toNat.testBit (7 - j) := by
  constructor
  · intro h j hj
    have hbit : (a.toNat &&& ((0xFF <<< (8 - r)) &&& 0xFF)).testBit (7 - j) =
        (b.toNat &&& ((0xFF <<< (8 - r)) &&& 0xFF)).testBit (7 - j) := by rw [h]
    have hin : decide (8 - r ≤ 7 - j ∧ 7 - j < 8) = true := decide_eq_true (by omega)
    rw [Nat.testBit_and, testBit_mask hr, hin, Bool.and_true, Nat.testBit_and (b.toNat), testBit_mask hr, hin,
      Bool.and_true] at hbit
    exact hbit
  · intro h
    apply Nat.eq_of_testBit_eq
    intro i
    rw [Nat.testBit_and, testBit_mask hr, Nat.testBit_and b.toNat, testBit_mask hr]
    by_cases hi : 8 - r ≤ i ∧ i < 8
    · have hbit := h (7 - i) (by omega)
      rw [show 7 - (7 - i) = i by omega] at hbit
      rw [hbit]
    · rw [decide_eq_false hi, Bool.and_false, Bool.and_false]

theorem samePrefix_iff (network address : InetAddress) (length : Nat) :
    samePrefix network address length = true ↔ ∀ i < length, network.bit i = address.bit i := by
  have hr : length % 8 < 8 := Nat.mod_lt _ (by decide)
  have hrest : (length % 8 == 0 ||
      (network.octet (length / 8)).toNat &&& ((0xFF <<< (8 - length % 8)) &&& 0xFF) ==
        (address.octet (length / 8)).toNat &&& ((0xFF <<< (8 - length % 8)) &&& 0xFF)) = true ↔
      ∀ j < length % 8, (network.octet (length / 8)).toNat.testBit (7 - j) =
        (address.octet (length / 8)).toNat.testBit (7 - j) := by
    rw [Bool.or_eq_true, beq_iff_eq, beq_iff_eq, masked_eq_iff hr]
    constructor
    · intro h j hj
      rcases h with h | h
      · omega
      · exact h j hj
    · exact .inr
  rw [samePrefix, Bool.and_eq_true, hrest, List.all_eq_true]
  simp only [List.mem_range, beq_iff_eq, octet_eq_iff, InetAddress.bit]
  constructor
  · intro h i hi
    obtain ⟨hwhole, hpart⟩ := h
    by_cases hbyte : i / 8 < length / 8
    · exact hwhole (i / 8) hbyte (i % 8) (Nat.mod_lt _ (by decide))
    · have heq : i / 8 = length / 8 := by omega
      rw [heq]
      exact hpart (i % 8) (by omega)
  · intro h
    constructor
    · intro index hindex j hj
      have hbit := h (8 * index + j) (by omega)
      rwa [show (8 * index + j) / 8 = index by omega, show (8 * index + j) % 8 = j by omega] at hbit
    · intro j hj
      have hbit := h (8 * (length / 8) + j) (by omega)
      rwa [show (8 * (length / 8) + j) / 8 = length / 8 by omega,
        show (8 * (length / 8) + j) % 8 = j by omega] at hbit

theorem splitSlash_append {host : String} (hhost : '/' ∉ host.toList) (length : String) :
    splitSlash (host ++ "/" ++ length) = (host, some length) := by
  have hlist : (host ++ "/" ++ length).toList = host.toList ++ '/' :: length.toList := by simp
  have hbefore : substringBefore '/' (host ++ "/" ++ length) = host := substringBefore_append hhost length
  rw [splitSlash, hlist, List.dropWhile_append_of_pos (all_ne_of_notMem hhost)]
  simp [hbefore]

theorem matchesIp_network {host length : String} {network : InetAddress} {n : Nat}
    (hhost : '/' ∉ host.toList) (hnetwork : parseNumericAddress X host = some network)
    (hlength : (toIntOrNull length).map Int32.toInt = some (n : Int)) (hn : n ≤ 8 * network.address.length)
    (address : InetAddress) :
    matchesIp X address (host ++ "/" ++ length) = true ↔
      network.address.length = address.address.length ∧ ∀ i < n, network.bit i = address.bit i := by
  obtain ⟨k, hk, hkn⟩ := Option.map_eq_some_iff.mp hlength
  have hrange : 0 ≤ k.toInt ∧ k.toInt ≤ ((network.address.length * 8 : Nat) : Int) := by
    rw [hkn]
    exact ⟨Int.natCast_nonneg n, Int.ofNat_le.mpr (by rw [Nat.mul_comm]; exact hn)⟩
  rw [matchesIp, splitSlash_append hhost]
  dsimp only
  rw [hnetwork, Option.any_some, hk, Option.any_some, decide_eq_true hrange, Bool.true_and, hkn, Int.toNat_natCast,
    Bool.and_eq_true, beq_iff_eq, samePrefix_iff]

/-- For every rule list and flow the decision is the one that the listed rules call for;
and a network matches the addresses of its family that agree with it on its first bits. -/
theorem classifier_correct (X : Externs) :
    (∀ (rules : List RoutingRule) (destinationIp : String) (resolvedDomain tlsSni httpHost : Option String)
      (d : RoutingDecision), resolveInternal X rules destinationIp resolvedDomain tlsSni httpHost = d ↔
        Decides X rules destinationIp resolvedDomain tlsSni httpHost d) ∧
    ∀ (address network : InetAddress) (host length : String) (n : Nat), '/' ∉ host.toList →
      parseNumericAddress X host = some network → (toIntOrNull length).map Int32.toInt = some (n : Int) →
      n ≤ 8 * network.address.length →
      (matchesIp X address (host ++ "/" ++ length) = true ↔
        network.address.length = address.address.length ∧ ∀ i < n, network.bit i = address.bit i) := by
  constructor
  · intro rules ip dns sni host d
    constructor
    · rintro rfl
      exact decides_resolveInternal rules ip dns sni host
    · exact resolveInternal_of_decides
  · intro address network host length n hhost hnetwork hlength hn
    exact matchesIp_network hhost hnetwork hlength hn address

/-- Addresses that are written in the two texts below, and names in ASCII. -/
def plain : Externs where
  decode _ := ""
  lowercase := asciiLowercase
  hostAddress _ := ""
  Regex := Empty
  newRegex _ := none
  containsMatchIn := nofun
  getByName s := if s = "10.0.0.0" then some ⟨[10, 0, 0, 0], .inl rfl⟩ else none

/-- An address of the network and one of another. -/
theorem classifier_correct_plain :
    (matchesIp plain ⟨[10, 1, 2, 3], .inl rfl⟩ ("10.0.0.0" ++ "/" ++ "8") = true ↔
      4 = 4 ∧ ∀ i < 8, (⟨[10, 0, 0, 0], .inl rfl⟩ : InetAddress).bit i = InetAddress.bit ⟨[10, 1, 2, 3], .inl rfl⟩ i) :=
  (classifier_correct plain).2 ⟨[10, 1, 2, 3], .inl rfl⟩ ⟨[10, 0, 0, 0], .inl rfl⟩ "10.0.0.0" "8" 8 (by decide)
    (by decide) (by decide) (by decide)

end Aether.Bridge.RoutingEngine
