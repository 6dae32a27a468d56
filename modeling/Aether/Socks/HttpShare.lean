import Aether.Rust.AddressText
import Aether.Socks.HttpRequest
import Aether.Socks.Framing

/-! The two HTTP proxies.

`ShareBridge` serves HTTP clients on its own and asks the engine for the host and the
port it has read off the request line; the engine's proxy reads the same lines with
`parse_request_line`. The two take an authority apart in different ways. The sharing
bridge cuts it at the last or the first colon and takes the default port for whatever
is no number; the engine looks for brackets, keeps a text with several colons whole and
refuses a port that is none.

`RequestLine` is the grammar of the lines that both are for, and `agreed_iff` says which
of them the two serve alike. -/
namespace Aether.Socks.HttpShare
open Http Framing
open Rust (parseU16 eqIgnoreAsciiCase)

/-! ### `serveHttpClient` -/

/-- What `serveHttpClient` passes to `socksOpen`, and the request line it sends on. -/
structure Dial where
  host : String
  port : Int32
  rewritten : Option String
  deriving DecidableEq, Repr

/-- Host and port of a `CONNECT` target. -/
def connectTarget (target : String) : String × Int32 :=
  (Kotlin.substringBeforeLast ':' target, (Kotlin.toIntOrNull (Kotlin.substringAfterLast ':' target)).getD 443)

/-- Host and port of what stands before the path. -/
def plainTarget (hostPort : String) : String × Int32 :=
  (Kotlin.substringBefore ':' hostPort, (Kotlin.toIntOrNull (Kotlin.substringAfter ':' hostPort "80")).getD 80)

/-- `serveHttpClient` up to `socksOpen`; `none` is a client that is turned away. -/
def serveHttpClient (requestLine : String) : Option Dial :=
  match Kotlin.split ' ' requestLine with
  | method :: target :: version :: _ =>
    if Kotlin.equalsIgnoreCase method "CONNECT" then
      let (host, port) := connectTarget target
      some {host, port, rewritten := none}
    else
      let url := Kotlin.removePrefix "http://" target
      if url = target then none
      else
        let hostPort := Kotlin.substringBefore '/' url
        let path := "/" ++ Kotlin.substringAfter '/' url ""
        let (host, port) := plainTarget hostPort
        some {host, port, rewritten := some (method ++ " " ++ path ++ " " ++ version ++ "\r\n")}
  | _ => none

/-- Both turn the client away, or both have the same host, port and request line. -/
def Agreed : Option Dial → Option HttpRequestLine → Prop
  | none, none => True
  | some d, some r =>
    d.host = r.authority ∧ d.port.toInt = r.port.toNat ∧ 1 ≤ r.port.toNat ∧ d.rewritten = r.rewritten
  | _, _ => False

/-! ### Request lines -/

/-- A visible character of ASCII. -/
def IsVisible (c : Char) : Prop := 0x21 ≤ c.toNat ∧ c.toNat ≤ 0x7E

/-- A method or a version. -/
structure Token where
  text : String
  ne_empty : text ≠ ""
  visible : ∀ c ∈ text.toList, IsVisible c

/-- A host: a domain or an address of the fourth version, or one of the sixth in brackets. -/
inductive Host where
  | name (text : String) (ne_empty : text ≠ "")
      (chars : ∀ c ∈ text.toList, IsVisible c ∧ c ≠ ':' ∧ c ≠ '/' ∧ c ≠ '[' ∧ c ≠ ']' ∧ c ≠ '?' ∧ c ≠ '#')
  | ipv6 (text : String) (ne_empty : text ≠ "") (chars : ∀ c ∈ text.toList, Rust.Literal c)

def Host.text : Host → String
  | name text .. => text
  | ipv6 text .. => "[" ++ text ++ "]"

/-- A host and the digits behind a colon, if there is one. -/
structure Authority where
  host : Host
  port : Option String
  digits : ∀ p ∈ port, ∀ c ∈ p.toList, c.isDigit = true

def Authority.text (a : Authority) : String :=
  match a.port with
  | none => a.host.text
  | some port => a.host.text ++ ":" ++ port

/-- An absolute URI, the scheme in upper or lower case. -/
structure Uri where
  scheme : String
  isHttp : eqIgnoreAsciiCase scheme "http" = true
  authority : Authority
  path : String
  rooted : path = "" ∨ ∃ p, path = "/" ++ p
  pathVisible : ∀ c ∈ path.toList, IsVisible c
  query : Option String
  queryVisible : ∀ q ∈ query, ∀ c ∈ q.toList, IsVisible c

def Uri.queryText (uri : Uri) : String :=
  match uri.query with
  | none => ""
  | some query => "?" ++ query

/-- The URI behind the two slashes of its scheme. -/
def Uri.rest (uri : Uri) : String := uri.authority.text ++ uri.path ++ uri.queryText

def Uri.text (uri : Uri) : String := uri.scheme ++ "://" ++ uri.rest

/-- The part of the query that both proxies take for a part of the authority: without a
path, all up to the first slash. -/
def Uri.queryHead (uri : Uri) : String := if uri.path = "" then Kotlin.substringBefore '/' uri.queryText else ""

/-- What both proxies take for the authority. -/
def Uri.hostPort (uri : Uri) : String := uri.authority.text ++ uri.queryHead

inductive RequestLine where
  | connect (method : Token) (isConnect : eqIgnoreAsciiCase method.text "CONNECT" = true) (authority : Authority)
      (version : Token)
  | absolute (method : Token) (notConnect : eqIgnoreAsciiCase method.text "CONNECT" = false) (uri : Uri)
      (version : Token)

def RequestLine.text : RequestLine → String
  | connect method _ authority version => method.text ++ " " ++ (authority.text ++ " " ++ version.text)
  | absolute method _ uri version => method.text ++ " " ++ (uri.text ++ " " ++ version.text)

/-! ### Which lines are served alike -/

/-- A decimal number from 1 to 65535. -/
def IsPortText (t : String) : Prop := ∃ p : UInt16, parseU16 t = some p ∧ 1 ≤ p.toNat

def Host.IsName : Host → Prop
  | name .. => True
  | ipv6 .. => False

/-- A host without a port must not be a number itself, other than the default port. -/
def Authority.ConnectAlike (a : Authority) : Prop :=
  match a.port with
  | none => ∀ n ∈ Kotlin.toIntOrNull a.host.text, n = 443
  | some port => IsPortText port

/-- No colon, or a first one with a port behind it. -/
def PlainAlike (hostPort : String) : Prop :=
  ':' ∈ hostPort.toList → IsPortText (Kotlin.substringAfter ':' hostPort "")

/-- There is something in the place of the port that is no number below 65536. -/
def Uri.Unreadable (uri : Uri) : Prop :=
  match uri.authority.host with
  | .name .. =>
    ':' ∈ uri.hostPort.toList ∧ ':' ∉ (Kotlin.substringAfter ':' uri.hostPort "").toList ∧
      parseU16 (Kotlin.substringAfter ':' uri.hostPort "") = none
  | .ipv6 .. => ∃ port ∈ uri.authority.port, parseU16 (port ++ uri.queryHead) = none

/-- The sharing bridge knows the scheme in lower case only, the engine in upper case too;
in any other case both turn the client away. -/
def RequestLine.Alike : RequestLine → Prop
  | connect _ _ authority _ => authority.host.IsName ∧ authority.ConnectAlike
  | absolute _ _ uri _ =>
    (uri.scheme = "http" → uri.authority.host.IsName ∧ PlainAlike uri.hostPort) ∧
      (uri.scheme = "HTTP" → uri.Unreadable)

/-! ### Port texts -/

theorem decimalValue_eq_some {cs : List Char} {v : Nat} (h : Rust.decimalValue cs = some v) :
    cs ≠ [] ∧ (∀ c ∈ cs, c.isDigit = true) ∧ Nat.ofDigitChars 10 cs 0 = v := by
  rw [Rust.decimalValue] at h
  split at h
  · rename_i hcs
    exact ⟨hcs.1, List.all_eq_true.mp hcs.2, Option.some.inj h⟩
  · cases h

/-- A text that the engine reads as a port: digits, perhaps behind a plus sign. -/
theorem parseU16_eq_some {t : String} {p : UInt16} (h : parseU16 t = some p) :
    ∃ ds, (t.toList = ds ∨ t.toList = '+' :: ds) ∧ ds ≠ [] ∧ (∀ c ∈ ds, c.isDigit = true) ∧
      Nat.ofDigitChars 10 ds 0 = p.toNat := by
  obtain ⟨v, hv, hp⟩ := Option.bind_eq_some_iff.mp h
  obtain ⟨hne, hdigits, hvalue⟩ := decimalValue_eq_some hv
  have hsmall : v < 2 ^ 16 := by
    by_contra hlarge
    rw [if_neg hlarge] at hp
    cases hp
  rw [if_pos hsmall] at hp
  have hport : v = p.toNat := by
    rw [← Option.some.inj hp, UInt16.toNat_ofNat', Nat.mod_eq_of_lt hsmall]
  refine ⟨_, ?_, hne, hdigits, hvalue.trans hport⟩
  split
  · exact .inr (by assumption)
  · exact .inl rfl

theorem toIntOrNull_plus {t : String} {ds : List Char} {n : Int32} (htext : t.toList = '+' :: ds) (hne : ds ≠ [])
    (h : ((Kotlin.digitsValue ds).bind fun n => Kotlin.intInRange n) = some n) : Kotlin.toIntOrNull t = some n := by
  have hsign : '+'.toNat < '0'.toNat := by decide
  have hplus : ¬ '+' = '-' := by decide
  rw [Kotlin.toIntOrNull, htext]
  simp only [hsign, if_true, hne, if_false, hplus, h]

theorem intInRange_toNat (p : UInt16) :
    ∃ n : Int32, Kotlin.intInRange p.toNat = some n ∧ n.toInt = p.toNat := by
  have hp := p.toNat_lt
  have hrange : -2 ^ 31 ≤ (p.toNat : Int) ∧ (p.toNat : Int) < 2 ^ 31 := ⟨by omega, by omega⟩
  have hvalue : (Int32.ofInt p.toNat).toInt = p.toNat := Int32.toInt_ofInt_of_le hrange.1 hrange.2
  refine ⟨Int32.ofInt p.toNat, ?_, hvalue⟩
  rw [Kotlin.intInRange, if_pos hrange]

/-- What the engine reads as a port, the bridge reads as the same number. -/
theorem toIntOrNull_of_parseU16 {t : String} {p : UInt16} (h : parseU16 t = some p) :
    ∃ n, Kotlin.toIntOrNull t = some n ∧ n.toInt = p.toNat := by
  obtain ⟨ds, htext, hne, hdigits, hvalue⟩ := parseU16_eq_some h
  obtain ⟨n, hrange, hn⟩ := intInRange_toNat p
  have hbind : ((Kotlin.digitsValue ds).bind fun n => Kotlin.intInRange n) = some n := by
    rw [Kotlin.digitsValue_ascii ds hdigits, hvalue, Option.bind_some, hrange]
  refine ⟨n, ?_, hn⟩
  obtain htext | htext := htext
  · have ht : t = String.ofList ds := by rw [← htext, String.ofList_toList]
    rw [ht, Kotlin.toIntOrNull_digits hne hdigits, hbind]
  · exact toIntOrNull_plus htext hne hbind

theorem IsPortText.not_mem {t : String} (h : IsPortText t) {c : Char} (hplus : c ≠ '+') (hdigit : c.isDigit = false) :
    c ∉ t.toList := by
  obtain ⟨p, hp, -⟩ := h
  obtain ⟨ds, htext, -, hdigits, -⟩ := parseU16_eq_some hp
  intro hc
  have hmem : c ∈ ds := by
    obtain htext | htext := htext
    · rwa [htext] at hc
    · rw [htext, List.mem_cons] at hc
      exact hc.resolve_left hplus
  rw [hdigits c hmem] at hdigit
  cases hdigit

/-! ### `parse_authority` -/

/-- A text without white space that is not empty. -/
def IsWord (s : String) : Prop := s ≠ "" ∧ ∀ c ∈ s.toList, Rust.isWhitespace c = false

theorem stripStart_of_head {c : Char} {s : String} (h : s.toList.head? ≠ some c) :
    Rust.stripStart (String.singleton c) s = none := by
  have hpre : ¬ (String.singleton c).toList.isPrefixOf s.toList = true := by
    rw [String.toList_singleton, List.isPrefixOf_iff_prefix]
    intro hp
    obtain ⟨rest, hrest⟩ := hp
    rw [← hrest] at h
    exact h rfl
  rw [Rust.stripStart, if_neg hpre]

theorem parseAuthority_plain {raw : String} (hword : IsWord raw) (hhead : raw.toList.head? ≠ some '[')
    (defaultPort : UInt16) : parseAuthority raw defaultPort = parsePlain raw defaultPort := by
  have hempty : raw.isEmpty = false := by simpa using hword.1
  have hstrip : Rust.stripStart "[" raw = none := by
    rw [show "[" = String.singleton '[' from rfl]
    exact stripStart_of_head hhead
  rw [parseAuthority, Rust.trim_of_solid hword.2, hempty, if_neg Bool.false_ne_true, hstrip]

/-- A text without a colon is a host. -/
theorem parsePlain_host {host : String} (h : ':' ∉ host.toList) (defaultPort : UInt16) :
    parsePlain host defaultPort = some (host, defaultPort) := by
  have hsplit : Rust.rsplitOnce ':' host = none := by
    have hrev : ':' ∉ host.toList.reverse := by rwa [List.mem_reverse]
    rw [Rust.rsplitOnce, List.dropWhile_eq_nil_iff.mpr (Kotlin.all_ne_of_notMem hrev)]
  rw [parsePlain, hsplit]

/-- With one colon it is a host and a port. -/
theorem parsePlain_port {host port : String} (hne : host ≠ "") (hhost : ':' ∉ host.toList) (hport : ':' ∉ port.toList)
    (defaultPort : UInt16) :
    parsePlain (host ++ String.singleton ':' ++ port) defaultPort = (parseU16 port).map fun p => (host, p) := by
  have hcolon : Rust.containsChar ':' host = false := by simpa [Rust.containsChar] using hhost
  have hempty : host.isEmpty = false := by simpa using hne
  rw [parsePlain, Rust.rsplitOnce_append hport]
  simp only [hcolon, hempty]
  rfl

/-- With more it is a host again. -/
theorem parsePlain_colons {host port : String} (hport : ':' ∈ port.toList) (defaultPort : UInt16) :
    parsePlain (host ++ String.singleton ':' ++ port) defaultPort =
      some (host ++ String.singleton ':' ++ port, defaultPort) := by
  obtain ⟨after, before, hrev, hafter⟩ := List.eq_append_cons_of_mem (List.mem_reverse.mpr hport)
  have hsplit : port = String.ofList before.reverse ++ String.singleton ':' ++ String.ofList after.reverse := by
    apply String.toList_inj.mp
    rw [Kotlin.toList_delimited, String.toList_ofList, String.toList_ofList, ← List.reverse_reverse port.toList, hrev]
    simp
  have hlast : ':' ∉ (String.ofList after.reverse).toList := by
    rw [String.toList_ofList, List.mem_reverse]
    exact hafter
  have hraw : host ++ String.singleton ':' ++ port =
      (host ++ String.singleton ':' ++ String.ofList before.reverse) ++ String.singleton ':' ++
        String.ofList after.reverse := by
    rw [hsplit]
    simp only [String.append_assoc]
  have hcolon : Rust.containsChar ':' (host ++ String.singleton ':' ++ String.ofList before.reverse) = true := by
    simp [Rust.containsChar]
  rw [parsePlain, hraw, Rust.rsplitOnce_append hlast]
  simp only [hcolon]
  rfl

/-- In brackets the host is what stands between them. -/
theorem parseAuthority_bracketed {text : String} (hne : text ≠ "") (hchars : ']' ∉ text.toList) {tail : String}
    (hword : IsWord ("[" ++ text ++ "]" ++ tail)) (defaultPort : UInt16) :
    parseAuthority ("[" ++ text ++ "]" ++ tail) defaultPort =
      match Rust.stripStart ":" tail with
      | some value => (parseU16 value).map fun port => (text, port)
      | none => some (text, defaultPort) := by
  have hempty : ("[" ++ text ++ "]" ++ tail).isEmpty = false := by simp
  have hhost : text.isEmpty = false := by simpa using hne
  have hstrip : Rust.stripStart "[" ("[" ++ text ++ "]" ++ tail) = some (text ++ "]" ++ tail) := by
    rw [String.append_assoc, String.append_assoc, Rust.stripStart_append, String.append_assoc]
  have hsplit : Rust.splitOnce ']' (text ++ "]" ++ tail) = some (text, tail) := by
    rw [show "]" = String.singleton ']' from rfl]
    exact Rust.splitOnce_append hchars tail
  rw [parseAuthority, Rust.trim_of_solid hword.2, hempty, if_neg Bool.false_ne_true, hstrip]
  dsimp only
  rw [parseBracketed, hsplit]
  dsimp only
  rw [hhost]
  exact if_neg Bool.false_ne_true

theorem host_of_bracketed {text : String} (hne : text ≠ "") (hchars : ']' ∉ text.toList) {tail : String}
    (hword : IsWord ("[" ++ text ++ "]" ++ tail)) (defaultPort : UInt16) :
    ∀ r ∈ parseAuthority ("[" ++ text ++ "]" ++ tail) defaultPort, r.1 = text := by
  intro r hr
  rw [parseAuthority_bracketed hne hchars hword] at hr
  split at hr
  · obtain ⟨p, -, hp⟩ := Option.map_eq_some_iff.mp hr
    rw [← hp]
  · rw [← Option.some.inj hr]

/-! ### Agreement on an authority -/

/-- The engine takes the text for the host and the port that the bridge does. -/
def AgreedAt (share : String × Int32) (engine : Option (String × UInt16)) : Prop :=
  ∃ p : UInt16, engine = some (share.1, p) ∧ share.2.toInt = p.toNat ∧ 1 ≤ p.toNat

theorem agreed_map_iff (share : String × Int32) (engine : Option (String × UInt16)) (method : String)
    (rewritten : Option String) :
    Agreed (some {host := share.1, port := share.2, rewritten})
      (engine.map fun (authority, port) => {method, authority, port, rewritten}) ↔ AgreedAt share engine := by
  cases engine with
  | none =>
    constructor
    · intro h
      exact h.elim
    · intro h
      obtain ⟨p, hp, -⟩ := h
      cases hp
  | some r =>
    obtain ⟨authority, port⟩ := r
    constructor
    · intro h
      obtain ⟨hhost, hport, hpos, -⟩ := h
      exact ⟨port, congrArg (fun a => some (a, port)) hhost.symm, hport, hpos⟩
    · intro h
      obtain ⟨p, hp, hport, hpos⟩ := h
      obtain ⟨rfl, rfl⟩ := Prod.mk.inj (Option.some.inj hp)
      exact ⟨rfl, hport, hpos, rfl⟩

/-- A port behind the host: both read it alike exactly if it is one. -/
theorem agreedAt_port_iff (host port : String) (missing : Int32) :
    AgreedAt (host, (Kotlin.toIntOrNull port).getD missing) ((parseU16 port).map fun p => (host, p)) ↔
      IsPortText port := by
  constructor
  · intro h
    obtain ⟨p, hp, -, hpos⟩ := h
    obtain ⟨q, hq, hpair⟩ := Option.map_eq_some_iff.mp hp
    obtain ⟨-, rfl⟩ := Prod.mk.inj hpair
    exact ⟨q, hq, hpos⟩
  · intro h
    obtain ⟨p, hp, hpos⟩ := h
    obtain ⟨n, hn, hvalue⟩ := toIntOrNull_of_parseU16 hp
    refine ⟨p, by rw [hp]; rfl, ?_, hpos⟩
    rw [hn]
    exact hvalue

/-- No port: the engine takes the default, the bridge what it finds. -/
theorem agreedAt_default_iff (host : String) (missing : UInt16) (hpos : 1 ≤ missing.toNat) (found : Option Int32) :
    AgreedAt (host, found.getD (Int32.ofNat missing.toNat)) (some (host, missing)) ↔
      ∀ n ∈ found, n = Int32.ofNat missing.toNat := by
  have hmissing : (Int32.ofNat missing.toNat).toInt = missing.toNat := by
    have hlt := missing.toNat_lt
    exact Int32.toInt_ofNat_of_lt (by omega)
  have hat : AgreedAt (host, found.getD (Int32.ofNat missing.toNat)) (some (host, missing)) ↔
      found.getD (Int32.ofNat missing.toNat) = Int32.ofNat missing.toNat := by
    constructor
    · intro h
      obtain ⟨p, hp, hport, -⟩ := h
      obtain ⟨-, rfl⟩ := Prod.mk.inj (Option.some.inj hp)
      exact Int32.toInt_inj.mp (hport.trans hmissing.symm)
    · intro h
      refine ⟨missing, rfl, ?_, hpos⟩
      rw [h]
      exact hmissing
  rw [hat]
  cases found with
  | none => simp
  | some n => simp

theorem not_agreedAt_of_head {share : String × Int32} {engine : Option (String × UInt16)} {text : String}
    (hshare : share.1.toList.head? = some '[') (htext : '[' ∉ text.toList) (hengine : ∀ r ∈ engine, r.1 = text) :
    ¬ AgreedAt share engine := by
  intro h
  obtain ⟨p, hp, -⟩ := h
  have hhost : share.1 = text := hengine _ hp
  rw [hhost] at hshare
  exact htext (List.mem_of_head? hshare)

/-! ### The texts of the grammar -/

theorem IsVisible.not_whitespace {c : Char} (h : IsVisible c) : Rust.isWhitespace c = false := by
  obtain ⟨hlo, hhi⟩ := h
  exact Rust.isWhitespace_of_visible ⟨by omega, by omega⟩

theorem isVisible_of_isDigit {c : Char} (h : c.isDigit = true) : IsVisible c := by
  have hbounds := Kotlin.isDigit_bounds h
  exact ⟨by omega, by omega⟩

theorem isVisible_of_literal {c : Char} (h : Rust.Literal c) : IsVisible c := by
  have hbounds := Rust.literal_bounds h
  exact ⟨by omega, by omega⟩

/-- Visible characters only. -/
def Visible (s : String) : Prop := ∀ c ∈ s.toList, IsVisible c

theorem Visible.append {s t : String} (hs : Visible s) (ht : Visible t) : Visible (s ++ t) := by
  intro c hc
  rw [String.toList_append, List.mem_append] at hc
  obtain hc | hc := hc
  · exact hs c hc
  · exact ht c hc

theorem Visible.isWord {s : String} (hs : Visible s) (hne : s ≠ "") : IsWord s :=
  ⟨hne, fun c hc => (hs c hc).not_whitespace⟩

theorem Visible.noSpace {s : String} (hs : Visible s) : ' ' ∉ s.toList := by
  intro hc
  exact absurd (hs _ hc).1 (by decide)

theorem Host.text_ne_empty (host : Host) : host.text ≠ "" := by
  cases host with
  | name text ne_empty => exact ne_empty
  | ipv6 text ne_empty => simp [Host.text]

theorem Host.text_visible (host : Host) : Visible host.text := by
  cases host with
  | name text ne_empty chars => exact fun c hc => (chars c hc).1
  | ipv6 text ne_empty chars =>
    have hbrackets : Visible "[" ∧ Visible "]" := by
      constructor <;> intro c hc <;> rw [List.mem_singleton.mp hc] <;> exact ⟨by decide, by decide⟩
    exact (hbrackets.1.append fun c hc => isVisible_of_literal (chars c hc)).append hbrackets.2

theorem visible_colon : Visible ":" := by
  intro c hc
  rw [List.mem_singleton.mp hc]
  exact ⟨by decide, by decide⟩

theorem Authority.text_visible (a : Authority) : Visible a.text := by
  rw [Authority.text]
  split
  · exact a.host.text_visible
  · rename_i port hport
    exact (a.host.text_visible.append visible_colon).append fun c hc =>
      isVisible_of_isDigit (a.digits port hport c hc)

theorem Authority.text_ne_empty (a : Authority) : a.text ≠ "" := by
  have hhost := a.host.text_ne_empty
  rw [Authority.text]
  split
  · exact hhost
  · simp [hhost]

/-- What comes behind a bracketed host. -/
theorem Authority.text_ipv6 {a : Authority} {text : String} {hne hchars} (h : a.host = .ipv6 text hne hchars) :
    ∃ tail, a.text = "[" ++ text ++ "]" ++ tail := by
  have hhost : a.host.text = "[" ++ text ++ "]" := by rw [h]; rfl
  rw [Authority.text, hhost]
  split
  · exact ⟨"", by simp⟩
  · rename_i port _
    exact ⟨":" ++ port, by simp only [String.append_assoc]⟩

/-! ### `CONNECT` -/

theorem head_substringBeforeLast {c d : Char} {s : String} (h : s.toList.head? = some d) (hne : d ≠ c) :
    (Kotlin.substringBeforeLast c s).toList.head? = some d := by
  by_cases hc : c ∈ s.toList
  · obtain ⟨after, before, hrev, hafter⟩ := List.eq_append_cons_of_mem (List.mem_reverse.mpr hc)
    have hlist : s.toList = before.reverse ++ c :: after.reverse := by
      rw [← List.reverse_reverse s.toList, hrev]
      simp
    have hsplit : s = String.ofList before.reverse ++ String.singleton c ++ String.ofList after.reverse := by
      apply String.toList_inj.mp
      rw [Kotlin.toList_delimited, String.toList_ofList, String.toList_ofList, hlist]
    rw [hsplit, Kotlin.substringBeforeLast_append (by simpa using hafter), String.toList_ofList]
    rw [hlist, List.head?_append] at h
    cases hb : before.reverse with
    | nil =>
      rw [hb] at h
      exact absurd (Option.some.inj h).symm hne
    | cons e es =>
      rw [hb] at h
      exact h
  · rwa [Kotlin.substringBeforeLast_of_notMem hc]

theorem head_substringBefore {c d : Char} {s : String} (h : s.toList.head? = some d) (hne : d ≠ c) :
    (Kotlin.substringBefore c s).toList.head? = some d := by
  rw [Kotlin.substringBefore, String.toList_ofList]
  cases hs : s.toList with
  | nil =>
    rw [hs] at h
    cases h
  | cons e es =>
    rw [hs] at h
    obtain rfl := Option.some.inj h
    rw [List.takeWhile_cons, if_pos (bne_iff_ne.mpr hne)]
    rfl

theorem not_mem_of_literal {text : String} (h : ∀ c ∈ text.toList, Rust.Literal c) :
    '[' ∉ text.toList ∧ ']' ∉ text.toList := by
  have hnot : ¬ Rust.Literal '[' ∧ ¬ Rust.Literal ']' := by
    simp [Rust.Literal, Rust.toDigit]
  exact ⟨fun hc => hnot.1 (h _ hc), fun hc => hnot.2 (h _ hc)⟩

/-- An authority in a `CONNECT` request. -/
theorem connect_agreed_iff (a : Authority) :
    AgreedAt (connectTarget a.text) (parseAuthority a.text 443) ↔ a.host.IsName ∧ a.ConnectAlike := by
  have hword := a.text_visible.isWord a.text_ne_empty
  cases hhost : a.host with
  | ipv6 text ne_empty chars =>
    obtain ⟨tail, htext⟩ := Authority.text_ipv6 hhost
    obtain ⟨hopen, hclose⟩ := not_mem_of_literal chars
    have hhead : a.text.toList.head? = some '[' := by
      rw [htext]
      simp
    have hshare : (connectTarget a.text).1.toList.head? = some '[' := by
      have hne : '[' ≠ ':' := by decide
      exact head_substringBeforeLast hhead hne
    have hnot : ¬ AgreedAt (connectTarget a.text) (parseAuthority a.text 443) := by
      rw [htext] at hword hshare ⊢
      exact not_agreedAt_of_head hshare hopen (host_of_bracketed ne_empty hclose hword 443)
    exact ⟨fun h => absurd h hnot, fun h => h.1.elim⟩
  | name text ne_empty chars =>
    have hhostText : a.host.text = text := by rw [hhost]; rfl
    have hcolon : ':' ∉ text.toList := fun hc => (chars _ hc).2.1 rfl
    have hhead : text.toList.head? ≠ some '[' := fun hh => (chars _ (List.mem_of_head? hh)).2.2.2.1 rfl
    rw [and_iff_right (show (Host.name text ne_empty chars).IsName from trivial)]
    cases hport : a.port with
    | none =>
      have htext : a.text = text := by rw [Authority.text, hport, hhostText]
      rw [Authority.ConnectAlike, hport, hhostText, htext, connectTarget, Kotlin.substringBeforeLast_of_notMem hcolon,
        Kotlin.substringAfterLast_of_notMem hcolon, parseAuthority_plain (htext ▸ hword) hhead,
        parsePlain_host hcolon]
      exact agreedAt_default_iff text 443 (by decide) (Kotlin.toIntOrNull text)
    | some port =>
      have htext : a.text = text ++ String.singleton ':' ++ port := by
        rw [Authority.text, hport, hhostText]
        rfl
      have hcolon' : ':' ∉ port.toList := by
        intro hc
        exact absurd (a.digits port hport _ hc) (by decide)
      have hhead' : a.text.toList.head? ≠ some '[' := by
        rw [htext, Kotlin.toList_delimited, List.head?_append]
        cases hs : text.toList with
        | nil => exact absurd (String.toList_eq_nil_iff.mp hs) ne_empty
        | cons d ds =>
          rw [hs] at hhead
          exact hhead
      rw [Authority.ConnectAlike, hport, parseAuthority_plain hword hhead', htext, connectTarget,
        Kotlin.substringBeforeLast_append hcolon', Kotlin.substringAfterLast_append hcolon',
        parsePlain_port ne_empty hcolon hcolon']
      exact agreedAt_port_iff text port 443

/-! ### Absolute URIs -/

/-- A text is cut at its first colon. -/
theorem exists_first_colon {s : String} (h : ':' ∈ s.toList) :
    ∃ host port, s = host ++ String.singleton ':' ++ port ∧ ':' ∉ host.toList := by
  obtain ⟨before, after, hlist, hbefore⟩ := List.eq_append_cons_of_mem h
  refine ⟨String.ofList before, String.ofList after, ?_, by rwa [String.toList_ofList]⟩
  apply String.toList_inj.mp
  rw [Kotlin.toList_delimited, String.toList_ofList, String.toList_ofList, hlist]

/-- What stands before the path, of a host that is not in brackets. -/
theorem plain_agreed_iff {hostPort : String} (hword : IsWord hostPort) (hbracket : hostPort.toList.head? ≠ some '[')
    (hhead : hostPort.toList.head? ≠ some ':') :
    AgreedAt (plainTarget hostPort) (parseAuthority hostPort 80) ↔ PlainAlike hostPort := by
  rw [parseAuthority_plain hword hbracket, plainTarget, PlainAlike]
  by_cases hcolon : ':' ∈ hostPort.toList
  · obtain ⟨host, port, rfl, hhost⟩ := exists_first_colon hcolon
    have hne : host ≠ "" := by
      intro he
      rw [he, Kotlin.toList_delimited] at hhead
      exact hhead rfl
    rw [Kotlin.substringBefore_append hhost, Kotlin.substringAfter_append hhost, Kotlin.substringAfter_append hhost,
      forall_prop_of_true hcolon]
    by_cases hport : ':' ∈ port.toList
    · rw [parsePlain_colons hport]
      constructor
      · intro h
        obtain ⟨p, hp, -⟩ := h
        have hsame := congrArg (fun s => s.toList.length) (Prod.mk.inj (Option.some.inj hp)).1
        simp only [Kotlin.toList_delimited, List.length_append, List.length_cons] at hsame
        omega
      · intro h
        exact absurd hport (h.not_mem (by decide) (by decide))
    · rw [parsePlain_port hne hhost hport]
      exact agreedAt_port_iff host port 80
  · have hdefault : Kotlin.toIntOrNull "80" = some 80 := by decide
    rw [Kotlin.substringBefore_of_notMem hcolon, Kotlin.substringAfter_of_notMem hcolon, parsePlain_host hcolon, hdefault]
    exact ⟨fun _ hc => absurd hc hcolon, fun _ => ⟨80, rfl, rfl, by decide⟩⟩

/-- When the engine turns such a text away. -/
theorem plain_refused_iff {hostPort : String} (hword : IsWord hostPort) (hbracket : hostPort.toList.head? ≠ some '[')
    (hhead : hostPort.toList.head? ≠ some ':') :
    parseAuthority hostPort 80 = none ↔
      ':' ∈ hostPort.toList ∧ ':' ∉ (Kotlin.substringAfter ':' hostPort "").toList ∧
        parseU16 (Kotlin.substringAfter ':' hostPort "") = none := by
  rw [parseAuthority_plain hword hbracket]
  by_cases hcolon : ':' ∈ hostPort.toList
  · obtain ⟨host, port, rfl, hhost⟩ := exists_first_colon hcolon
    have hne : host ≠ "" := by
      intro he
      rw [he, Kotlin.toList_delimited] at hhead
      exact hhead rfl
    rw [Kotlin.substringAfter_append hhost, and_iff_right hcolon]
    by_cases hport : ':' ∈ port.toList
    · rw [parsePlain_colons hport]
      exact ⟨fun h => absurd h (by simp), fun h => absurd hport h.1⟩
    · rw [parsePlain_port hne hhost hport, and_iff_right hport]
      exact Option.map_eq_none_iff
  · rw [parsePlain_host hcolon]
    exact ⟨fun h => absurd h (by simp), fun h => absurd h.1 hcolon⟩

theorem visible_substringBefore (c : Char) {s : String} (h : Visible s) : Visible (Kotlin.substringBefore c s) := by
  intro d hd
  rw [Kotlin.substringBefore, String.toList_ofList] at hd
  exact h d (List.takeWhile_subset _ hd)

namespace Uri

variable (uri : Uri)

theorem queryText_visible : Visible uri.queryText := by
  rw [queryText]
  split
  · intro c hc
    cases hc
  · rename_i q hq
    intro c hc
    rw [String.toList_append, List.mem_append] at hc
    obtain hc | hc := hc
    · rw [List.mem_singleton.mp hc]
      exact ⟨by decide, by decide⟩
    · exact uri.queryVisible q hq c hc

theorem queryHead_visible : Visible uri.queryHead := by
  rw [queryHead]
  split
  · exact visible_substringBefore '/' uri.queryText_visible
  · intro c hc
    cases hc

/-- A query begins with a question mark. -/
theorem head_queryHead : uri.queryHead.toList.head? ≠ some ':' := by
  rw [queryHead]
  split
  · rw [queryText]
    split
    · decide
    · have hmark : '?' ≠ '/' := by decide
      rw [head_substringBefore (by simp) hmark]
      decide
  · decide

theorem rest_visible : Visible uri.rest :=
  (uri.authority.text_visible.append uri.pathVisible).append uri.queryText_visible

theorem hostPort_isWord : IsWord uri.hostPort := by
  refine (uri.authority.text_visible.append uri.queryHead_visible).isWord ?_
  have hne := uri.authority.text_ne_empty
  simp [hne]

/-- The first character is that of the host. -/
theorem head_hostPort : uri.hostPort.toList.head? = uri.authority.host.text.toList.head? := by
  have hhost := uri.authority.host.text_ne_empty
  obtain ⟨c, cs, hcs⟩ := List.exists_cons_of_ne_nil (fun h => hhost (String.toList_eq_nil_iff.mp h))
  rw [hostPort, Authority.text]
  split <;> simp [hcs]

/-- A bracketed host and what stands behind it. -/
theorem hostPort_ipv6 {text : String} {hne hchars} (h : uri.authority.host = .ipv6 text hne hchars) :
    uri.hostPort = "[" ++ text ++ "]" ++ match uri.authority.port with
      | none => uri.queryHead
      | some port => ":" ++ (port ++ uri.queryHead) := by
  have hhost : uri.authority.host.text = "[" ++ text ++ "]" := by rw [h]; rfl
  rw [hostPort, Authority.text, hhost]
  cases uri.authority.port with
  | none => rfl
  | some port => simp only [String.append_assoc]

theorem not_slash_of_host (host : Host) : '/' ∉ host.text.toList := by
  cases host with
  | name text ne_empty chars => exact fun hc => (chars _ hc).2.2.1 rfl
  | ipv6 text ne_empty chars =>
    intro hc
    simp only [Host.text, String.toList_append, List.mem_append] at hc
    obtain (hc | hc) | hc := hc
    · exact absurd hc (by decide)
    · have hnot : ¬ Rust.Literal '/' := by simp [Rust.Literal, Rust.toDigit]
      exact hnot (chars _ hc)
    · exact absurd hc (by decide)

theorem not_slash_of_authority (a : Authority) : '/' ∉ a.text.toList := by
  rw [Authority.text]
  split
  · exact not_slash_of_host a.host
  · rename_i port hport
    intro hc
    simp only [String.toList_append, List.mem_append] at hc
    obtain (hc | hc) | hc := hc
    · exact not_slash_of_host a.host hc
    · exact absurd hc (by decide)
    · exact absurd (a.digits port hport _ hc) (by decide)

/-- The text up to the first slash. -/
theorem substringBefore_rest : Kotlin.substringBefore '/' uri.rest = uri.hostPort := by
  have hslash := not_slash_of_authority uri.authority
  rw [rest, hostPort, queryHead]
  obtain hpath | ⟨p, hpath⟩ := uri.rooted
  · rw [hpath, if_pos rfl, String.append_empty, Kotlin.substringBefore, String.toList_append,
      List.takeWhile_append_of_pos (Kotlin.all_ne_of_notMem hslash), String.ofList_append, String.ofList_toList]
    rfl
  · rw [hpath, if_neg (by simp), String.append_empty]
    have hcut : uri.authority.text ++ ("/" ++ p) ++ uri.queryText =
        uri.authority.text ++ String.singleton '/' ++ (p ++ uri.queryText) := by
      rw [show String.singleton '/' = "/" from rfl]
      simp only [String.append_assoc]
    rw [hcut, Kotlin.substringBefore_append hslash]

/-- An authority of an absolute URI. -/
theorem agreed_iff : AgreedAt (plainTarget uri.hostPort) (parseAuthority uri.hostPort 80) ↔
    uri.authority.host.IsName ∧ PlainAlike uri.hostPort := by
  have hhead := uri.head_hostPort
  have hword := uri.hostPort_isWord
  cases hhost : uri.authority.host with
  | name text ne_empty chars =>
    rw [and_iff_right (show (Host.name text ne_empty chars).IsName from trivial)]
    have hne (c : Char) (hc : c ∈ text.toList → False) : uri.hostPort.toList.head? ≠ some c := by
      rw [hhead, hhost]
      exact fun h => hc (List.mem_of_head? h)
    exact plain_agreed_iff hword (hne '[' fun hc => (chars _ hc).2.2.2.1 rfl) (hne ':' fun hc => (chars _ hc).2.1 rfl)
  | ipv6 text ne_empty chars =>
    obtain ⟨hopen, hclose⟩ := not_mem_of_literal chars
    have hshare : (plainTarget uri.hostPort).1.toList.head? = some '[' := by
      have hne : '[' ≠ ':' := by decide
      apply head_substringBefore _ hne
      rw [hhead, hhost, Host.text]
      simp
    have hnot : ¬ AgreedAt (plainTarget uri.hostPort) (parseAuthority uri.hostPort 80) := by
      rw [uri.hostPort_ipv6 hhost] at hword hshare ⊢
      exact not_agreedAt_of_head hshare hopen (host_of_bracketed ne_empty hclose hword 80)
    exact ⟨fun h => absurd h hnot, fun h => h.1.elim⟩

theorem refused_iff : parseAuthority uri.hostPort 80 = none ↔ uri.Unreadable := by
  have hhead := uri.head_hostPort
  have hword := uri.hostPort_isWord
  rw [Unreadable]
  cases hhost : uri.authority.host with
  | name text ne_empty chars =>
    have hne (c : Char) (hc : c ∈ text.toList → False) : uri.hostPort.toList.head? ≠ some c := by
      rw [hhead, hhost]
      exact fun h => hc (List.mem_of_head? h)
    exact plain_refused_iff hword (hne '[' fun hc => (chars _ hc).2.2.2.1 rfl) (hne ':' fun hc => (chars _ hc).2.1 rfl)
  | ipv6 text ne_empty chars =>
    obtain ⟨-, hclose⟩ := not_mem_of_literal chars
    have htext := uri.hostPort_ipv6 hhost
    rw [htext] at hword
    rw [htext, parseAuthority_bracketed ne_empty hclose hword]
    cases hport : uri.authority.port with
    | none =>
      have hstrip : Rust.stripStart ":" uri.queryHead = none := by
        rw [show ":" = String.singleton ':' from rfl]
        exact stripStart_of_head uri.head_queryHead
      dsimp only
      rw [hstrip]
      simp
    | some port =>
      dsimp only
      rw [Rust.stripStart_append]
      simp

end Uri

/-! ### Lines -/

theorem visible_words {method target version : String} (hm : Visible method) (ht : Visible target) (hv : Visible version)
    (hmne : method ≠ "") (htne : target ≠ "") (hvne : version ≠ "") :
    Rust.splitWhitespace (method ++ " " ++ (target ++ " " ++ version)) = [method, target, version] ∧
      Kotlin.split ' ' (method ++ " " ++ (target ++ " " ++ version)) = [method, target, version] := by
  constructor
  · rw [Rust.splitWhitespace_cons hmne (hm.isWord hmne).2, Rust.splitWhitespace_cons htne (ht.isWord htne).2,
      Rust.splitWhitespace_of_solid hvne (hv.isWord hvne).2]
  · have hjoin : method ++ " " ++ (target ++ " " ++ version) = Kotlin.joinToString ' ' [method, target, version] := by
      apply String.toList_inj.mp
      simp [Kotlin.joinToString, List.intercalate]
    rw [hjoin]
    apply Kotlin.split_joinToString
    · intro s hs
      simp only [List.mem_cons, List.not_mem_nil, or_false] at hs
      obtain rfl | rfl | rfl := hs
      · exact hm.noSpace
      · exact ht.noSpace
      · exact hv.noSpace
    · simp

/-- Both programs cut a text at its first slash. -/
theorem splitOnce_slash (rest : String) :
    (Rust.splitOnce '/' rest = none ∧ Kotlin.substringBefore '/' rest = rest ∧ Kotlin.substringAfter '/' rest "" = "") ∨
      Rust.splitOnce '/' rest = some (Kotlin.substringBefore '/' rest, Kotlin.substringAfter '/' rest "") := by
  rw [Rust.splitOnce, Kotlin.substringBefore, Kotlin.substringAfter]
  cases hdrop : rest.toList.dropWhile (· != '/') with
  | nil =>
    have hall : rest.toList.takeWhile (· != '/') = rest.toList :=
      List.takeWhile_eq_self_iff.mpr (List.dropWhile_eq_nil_iff.mp hdrop)
    rw [hall, String.ofList_toList]
    exact .inl ⟨rfl, rfl, rfl⟩
  | cons c after => exact .inr rfl

theorem Uri.length_scheme (uri : Uri) : uri.scheme.toList.length = 4 := by
  have h := eq_of_beq uri.isHttp
  have hlen := congrArg List.length h
  simpa using hlen

/-- A URI begins with a scheme exactly if that is its own. -/
theorem Uri.starts_iff (uri : Uri) {scheme : String} (h : scheme.toList.length = 4) :
    (scheme ++ "://").toList.isPrefixOf uri.text.toList = true ↔ uri.scheme = scheme := by
  rw [List.isPrefixOf_iff_prefix, Uri.text, String.toList_append, String.toList_append, String.toList_append,
    List.append_assoc]
  constructor
  · intro hp
    obtain ⟨tail, htail⟩ := hp
    rw [List.append_assoc] at htail
    exact String.toList_inj.mp (List.append_inj htail (by rw [h, uri.length_scheme])).1.symm
  · intro he
    rw [he, ← List.append_assoc]
    exact List.prefix_append ..

theorem Uri.text_ne_empty (uri : Uri) : uri.text ≠ "" := by
  simp [Uri.text]

theorem isVisible_of_toLower {c : Char} (h : IsVisible c.toLower) : IsVisible c := by
  rw [Char.toLower] at h
  split at h
  · rename_i hupper
    simp only [ge_iff_le, UInt32.le_iff_toNat_le] at hupper
    exact ⟨le_trans (by decide) hupper.1, le_trans hupper.2 (by decide)⟩
  · exact h

theorem Uri.text_visible (uri : Uri) : Visible uri.text := by
  have hscheme : Visible uri.scheme := by
    intro c hc
    have hscheme : uri.scheme.toList.map Char.toLower = "http".toList := eq_of_beq uri.isHttp
    have hlower : c.toLower ∈ "http".toList := by
      rw [← hscheme]
      exact List.mem_map_of_mem hc
    have hall : ∀ d ∈ "http".toList, 0x21 ≤ d.toNat ∧ d.toNat ≤ 0x7E := by simp
    exact isVisible_of_toLower (hall _ hlower)
  have hslashes : Visible "://" := by
    have hall : ∀ c ∈ "://".toList, 0x21 ≤ c.toNat ∧ c.toNat ≤ 0x7E := by simp
    exact hall
  exact (hscheme.append hslashes).append uri.rest_visible

theorem Uri.strip_self {uri : Uri} {scheme : String} (h : uri.scheme = scheme) :
    Rust.stripStart (scheme ++ "://") uri.text = some uri.rest := by
  rw [Uri.text, h, Rust.stripStart_append]

theorem Uri.strip_other {uri : Uri} {scheme : String} (hlen : scheme.toList.length = 4) (h : uri.scheme ≠ scheme) :
    Rust.stripStart (scheme ++ "://") uri.text = none := by
  rw [Rust.stripStart, if_neg (fun hp => h ((uri.starts_iff hlen).mp hp))]

/-- What the engine makes of an absolute URI. -/
theorem parseRequestLine_absolute (method version : Token) (h : eqIgnoreAsciiCase method.text "CONNECT" = false)
    (uri : Uri) :
    parseRequestLine (method.text ++ " " ++ (uri.text ++ " " ++ version.text)) =
      if uri.scheme = "http" ∨ uri.scheme = "HTTP" then
        (parseAuthority uri.hostPort 80).map fun (authority, port) =>
          { method := method.text
            authority, port
            rewritten := some (method.text ++ " " ++ ("/" ++ Kotlin.substringAfter '/' uri.rest "") ++ " " ++
              version.text ++ "\r\n") }
      else none := by
  have hwords := (visible_words method.visible uri.text_visible version.visible method.ne_empty uri.text_ne_empty
    version.ne_empty).1
  have hstrip : (Rust.stripStart "http://" uri.text).or (Rust.stripStart "HTTP://" uri.text) =
      if uri.scheme = "http" ∨ uri.scheme = "HTTP" then some uri.rest else none := by
    by_cases hlower : uri.scheme = "http"
    · rw [if_pos (.inl hlower), show "http://" = "http" ++ "://" from rfl, Uri.strip_self hlower]
      rfl
    · rw [show "http://" = "http" ++ "://" from rfl, Uri.strip_other rfl hlower, Option.none_or]
      by_cases hupper : uri.scheme = "HTTP"
      · rw [if_pos (.inr hupper), show "HTTP://" = "HTTP" ++ "://" from rfl, Uri.strip_self hupper]
      · rw [if_neg (by tauto), show "HTTP://" = "HTTP" ++ "://" from rfl, Uri.strip_other rfl hupper]
  rw [parseRequestLine, hwords]
  dsimp only
  rw [h, if_neg Bool.false_ne_true, hstrip]
  split
  · obtain ⟨hsplit, hbefore, hafter⟩ | hsplit := splitOnce_slash uri.rest
    · rw [uri.substringBefore_rest] at hbefore
      rw [Option.bind_eq_bind, Option.bind_some, hsplit, hafter, hbefore]
      cases parseAuthority uri.rest 80 <;> rfl
    · rw [Option.bind_eq_bind, Option.bind_some, hsplit, uri.substringBefore_rest]
      cases parseAuthority uri.hostPort 80 <;> rfl
  · rfl

/-- What the sharing bridge makes of it. -/
theorem serveHttpClient_absolute (method version : Token) (h : eqIgnoreAsciiCase method.text "CONNECT" = false)
    (uri : Uri) :
    serveHttpClient (method.text ++ " " ++ (uri.text ++ " " ++ version.text)) =
      if uri.scheme = "http" then
        some
          { host := (plainTarget uri.hostPort).1
            port := (plainTarget uri.hostPort).2
            rewritten := some (method.text ++ " " ++ ("/" ++ Kotlin.substringAfter '/' uri.rest "") ++ " " ++
              version.text ++ "\r\n") }
      else none := by
  have hwords := (visible_words method.visible uri.text_visible version.visible method.ne_empty uri.text_ne_empty
    version.ne_empty).2
  have hconnect : Kotlin.equalsIgnoreCase method.text "CONNECT" = false := h
  have hscheme : "http://" = "http" ++ "://" := by decide
  rw [serveHttpClient, hwords]
  dsimp only
  rw [hconnect, if_neg Bool.false_ne_true]
  by_cases hlower : uri.scheme = "http"
  · have hurl : Kotlin.removePrefix "http://" uri.text = uri.rest := by
      have hstrip := Uri.strip_self hlower
      rw [Rust.stripStart, if_pos ((uri.starts_iff rfl).mpr hlower)] at hstrip
      rw [hscheme, Kotlin.removePrefix, if_pos ((uri.starts_iff rfl).mpr hlower), Option.some.inj hstrip]
    have hne : uri.rest ≠ uri.text := by
      intro he
      have hlen := congrArg (fun s => s.toList.length) he
      have hslashes : "://".toList.length = 3 := rfl
      simp only [Uri.text, String.toList_append, List.length_append, hslashes] at hlen
      omega
    rw [hurl, if_neg hne, if_pos hlower, uri.substringBefore_rest]
  · have hurl : Kotlin.removePrefix "http://" uri.text = uri.text := by
      rw [hscheme, Kotlin.removePrefix, if_neg (fun hp => hlower ((uri.starts_iff rfl).mp hp))]
    rw [hurl, if_pos rfl, if_neg hlower]

/-- A `CONNECT` line in both programs. -/
theorem connect_line (method version : Token) (h : eqIgnoreAsciiCase method.text "CONNECT" = true) (a : Authority) :
    serveHttpClient (method.text ++ " " ++ (a.text ++ " " ++ version.text)) =
      some {host := (connectTarget a.text).1, port := (connectTarget a.text).2, rewritten := none} ∧
    parseRequestLine (method.text ++ " " ++ (a.text ++ " " ++ version.text)) =
      (parseAuthority a.text 443).map fun (authority, port) =>
        {method := method.text, authority, port, rewritten := none} := by
  obtain ⟨hwords, hparts⟩ := visible_words method.visible a.text_visible version.visible method.ne_empty
    a.text_ne_empty version.ne_empty
  have hconnect : Kotlin.equalsIgnoreCase method.text "CONNECT" = true := h
  constructor
  · rw [serveHttpClient, hparts]
    dsimp only
    rw [hconnect, if_pos rfl]
  · rw [parseRequestLine, hwords]
    dsimp only
    rw [h, if_pos rfl]

/-- The two proxies serve a line alike exactly under the condition on its authority. -/
theorem agreed_iff_alike (line : RequestLine) :
    Agreed (serveHttpClient line.text) (parseRequestLine line.text) ↔ line.Alike := by
  cases line with
  | connect method isConnect authority version =>
    obtain ⟨hserve, hparse⟩ := connect_line method version isConnect authority
    rw [RequestLine.text, hserve, hparse, agreed_map_iff, RequestLine.Alike]
    exact connect_agreed_iff authority
  | absolute method notConnect uri version =>
    rw [RequestLine.text, serveHttpClient_absolute method version notConnect uri,
      parseRequestLine_absolute method version notConnect uri, RequestLine.Alike]
    by_cases hlower : uri.scheme = "http"
    · have hupper : uri.scheme ≠ "HTTP" := by
        rw [hlower]
        decide
      rw [if_pos hlower, if_pos (.inl hlower), agreed_map_iff, uri.agreed_iff]
      exact ⟨fun h => ⟨fun _ => h, fun he => absurd he hupper⟩, fun h => h.1 hlower⟩
    · rw [if_neg hlower]
      by_cases hupper : uri.scheme = "HTTP"
      · rw [if_pos (.inr hupper), ← uri.refused_iff]
        cases hauthority : parseAuthority uri.hostPort 80 with
        | none => exact ⟨fun _ => ⟨fun he => absurd he hlower, fun _ => rfl⟩, fun _ => trivial⟩
        | some r => exact ⟨fun h => h.elim, fun h => absurd (h.2 hupper) (by simp)⟩
      · rw [if_neg (by tauto)]
        exact ⟨fun _ => ⟨fun he => absurd he hlower, fun he => absurd he hupper⟩, fun _ => trivial⟩

/-! ### On the wire -/

theorem visible_substringBeforeLast (c : Char) {s : String} (h : Visible s) :
    Visible (Kotlin.substringBeforeLast c s) := by
  intro d hd
  rw [Kotlin.substringBeforeLast] at hd
  split at hd
  · exact h d hd
  · rename_i before hbefore
    rw [String.toList_ofList, List.mem_reverse] at hd
    have hmem : d ∈ s.toList.reverse.dropWhile (· != c) := by
      rw [hbefore]
      exact List.mem_cons_of_mem _ hd
    exact h d (List.mem_reverse.mp (List.dropWhile_subset _ hmem))

theorem Visible.isAscii {s : String} (h : Visible s) : Rust.isAscii s = true := by
  rw [Rust.isAscii, List.all_eq_true]
  intro c hc
  have hbound := (h c hc).2
  rw [decide_eq_true_eq]
  omega

theorem dial_visible (line : RequestLine) (d : Dial) (h : serveHttpClient line.text = some d) : Visible d.host := by
  cases line with
  | connect method isConnect authority version =>
    rw [RequestLine.text, (connect_line method version isConnect authority).1] at h
    rw [← Option.some.inj h]
    exact visible_substringBeforeLast ':' authority.text_visible
  | absolute method notConnect uri version =>
    rw [RequestLine.text, serveHttpClient_absolute method version notConnect uri] at h
    split at h
    · rw [← Option.some.inj h]
      exact visible_substringBefore ':' (uri.authority.text_visible.append uri.queryHead_visible)
    · cases h

theorem isPort_of_agreed {d : Dial} {r : Option HttpRequestLine} (h : Agreed (some d) r) : IsPort d.port := by
  cases r with
  | none => exact h.elim
  | some r =>
    have hport := h.2.1
    have hlt := r.port.toNat_lt
    exact ⟨by omega, by omega⟩

/-- The two proxies serve a line alike exactly if it is `Alike`, and then the host and the
port arrive at the engine exactly if the host has at most 255 characters. -/
theorem proxies_agree_iff (line : RequestLine) :
    (Agreed (serveHttpClient line.text) (parseRequestLine line.text) ↔ line.Alike) ∧
    (Agreed (serveHttpClient line.text) (parseRequestLine line.text) → ∀ d ∈ serveHttpClient line.text,
      ∀ stream : List UInt8,
        Recovered ((handleClient (socksOpen d.host d.port ++ stream)).map (·.2)) (.domain d.host) d.port stream ↔
          d.host.toList.length ≤ 255) := by
  refine ⟨agreed_iff_alike line, ?_⟩
  intro hagreed d hd stream
  have hascii := (dial_visible line d hd).isAscii
  rw [show serveHttpClient line.text = some d from hd] at hagreed
  rw [shared_recovered_iff, and_iff_right hascii, and_iff_left (isPort_of_agreed hagreed)]

/-- An address in brackets keeps them in the sharing bridge, and a port that does not fit
is refused by the engine alone. -/
theorem proxies_disagree :
    ¬ Agreed (serveHttpClient "CONNECT [2001:db8::1]:443 HTTP/1.1")
        (parseRequestLine "CONNECT [2001:db8::1]:443 HTTP/1.1") ∧
      ¬ Agreed (serveHttpClient "CONNECT example.com:65979 HTTP/1.1")
        (parseRequestLine "CONNECT example.com:65979 HTTP/1.1") := by
  have hbracket : serveHttpClient "CONNECT [2001:db8::1]:443 HTTP/1.1" =
      some {host := "[2001:db8::1]", port := 443, rewritten := none} := by decide +kernel
  have hplain : parseRequestLine "CONNECT [2001:db8::1]:443 HTTP/1.1" =
      some {method := "CONNECT", authority := "2001:db8::1", port := 443, rewritten := none} := by decide +kernel
  have hlarge : serveHttpClient "CONNECT example.com:65979 HTTP/1.1" =
      some {host := "example.com", port := 65979, rewritten := none} := by decide +kernel
  have hrefused : parseRequestLine "CONNECT example.com:65979 HTTP/1.1" = none := by decide +kernel
  rw [hbracket, hplain, hlarge, hrefused]
  refine ⟨fun h => ?_, fun h => h⟩
  exact absurd h.1 (by decide)

end Aether.Socks.HttpShare
