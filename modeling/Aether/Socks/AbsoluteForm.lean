import Aether.Socks.HttpShare

/-! What the engine's proxy makes of a request line.

A request line names a host, a port and, but for `CONNECT`, what is asked of the server
there: its origin form is the path, or a slash if there is none, and the query.
`parse_request_line` looks for the path behind the first slash and takes all before it
for the authority, so that a query without a path is lost to the host, and it refuses an
authority whose port is empty. `served_iff` says of which lines it yields what they name. -/
namespace Aether.Socks.AbsoluteForm
open Http HttpShare
open Rust (parseU16)

/-! ### What a line names -/

/-- A host without its brackets. -/
def hostName : Host → String
  | .name text .. => text
  | .ipv6 text .. => text

/-- The port behind the host; an empty one is the default, like none. -/
def portNumber (a : Authority) (default : Nat) : Nat :=
  match a.port with
  | none => default
  | some port => if port = "" then default else Nat.ofDigitChars 10 port.toList 0

/-- The target of the request to the server itself. -/
def originForm (uri : Uri) : String := (if uri.path = "" then "/" else uri.path) ++ uri.queryText

/-- The line is read as a request to this host and port. -/
def Yields (parsed : Option HttpRequestLine) (method host : String) (port : Nat) (rewritten : Option String) : Prop :=
  ∃ r, parsed = some r ∧ r.method = method ∧ r.authority = host ∧ r.port.toNat = port ∧ r.rewritten = rewritten

/-- A line is read as what it names. -/
def Served (line : RequestLine) : Prop :=
  match line with
  | .connect method _ authority _ =>
    Yields (parseRequestLine line.text) method.text (hostName authority.host) (portNumber authority 443) none
  | .absolute method _ uri version =>
    Yields (parseRequestLine line.text) method.text (hostName uri.authority.host) (portNumber uri.authority 80)
      (some (method.text ++ " " ++ originForm uri ++ " " ++ version.text ++ "\r\n"))

/-! ### Which lines are read so -/

/-- A port, if there is a colon for one, is a number below 65536. -/
def Numbered (a : Authority) : Prop := ∀ port ∈ a.port, port ≠ "" ∧ Nat.ofDigitChars 10 port.toList 0 < 2 ^ 16

/-- The scheme in upper or lower case throughout, and no query without a path. -/
def Plain (uri : Uri) : Prop := (uri.scheme = "http" ∨ uri.scheme = "HTTP") ∧ (uri.path = "" → uri.query = none)

def Readable : RequestLine → Prop
  | .connect _ _ authority _ => Numbered authority
  | .absolute _ _ uri _ => Plain uri ∧ Numbered uri.authority

/-! ### The authority -/

/-- Digits are read as their value, if there are any and the value is small. -/
theorem parseU16_digits {port : String} (h : ∀ c ∈ port.toList, c.isDigit = true) :
    parseU16 port =
      if port ≠ "" ∧ Nat.ofDigitChars 10 port.toList 0 < 2 ^ 16 then
        some (UInt16.ofNat (Nat.ofDigitChars 10 port.toList 0))
      else none := by
  have hplus : '+' ∉ port.toList := fun hmem => absurd (h '+' hmem) (by decide)
  have hne : port.toList ≠ [] ↔ port ≠ "" := not_congr String.toList_eq_nil_iff
  rw [Rust.parseU16_plain hplus, Rust.decimalValue]
  by_cases hempty : port = ""
  · rw [hempty]
    rfl
  · rw [if_pos ⟨hne.mpr hempty, List.all_eq_true.mpr h⟩, Option.bind_some]
    simp only [ne_eq, hempty, not_false_eq_true, true_and]

/-- `parse_authority` of a host with or without a port. -/
theorem parseAuthority_text (a : Authority) (default : UInt16) :
    parseAuthority a.text default =
      match a.port with
      | none => some (hostName a.host, default)
      | some port => (parseU16 port).map fun p => (hostName a.host, p) := by
  have hword : IsWord a.text := a.text_visible.isWord a.text_ne_empty
  cases hhost : a.host with
  | name text ne_empty chars =>
    have hcolon : ':' ∉ text.toList := fun hc => (chars _ hc).2.1 rfl
    have hhostText : a.host.text = text := by
      rw [hhost]
      rfl
    have hhead : a.text.toList.head? ≠ some '[' := by
      obtain ⟨c, cs, hcs⟩ := List.exists_cons_of_ne_nil (fun h => ne_empty (String.toList_eq_nil_iff.mp h))
      have hc : c ≠ '[' := (chars c (by rw [hcs]; exact List.mem_cons_self ..)).2.2.2.1
      rw [Authority.text, hhostText]
      split <;> simp [hcs, hc]
    rw [parseAuthority_plain hword hhead, Authority.text, hhostText]
    cases hport : a.port with
    | none => exact parsePlain_host hcolon default
    | some port =>
      have hcolon' : ':' ∉ port.toList := fun hc => absurd (a.digits port hport _ hc) (by decide)
      exact parsePlain_port ne_empty hcolon hcolon' default
  | ipv6 text ne_empty chars =>
    have hclose : ']' ∉ text.toList := (not_mem_of_literal chars).2
    have hhostText : a.host.text = "[" ++ text ++ "]" := by
      rw [hhost]
      rfl
    cases hport : a.port with
    | none =>
      have htext : a.text = "[" ++ text ++ "]" ++ "" := by
        rw [Authority.text, hport, hhostText, String.append_empty]
      have hstrip : Rust.stripStart ":" "" = none := by decide
      rw [htext] at hword ⊢
      rw [parseAuthority_bracketed ne_empty hclose hword, hstrip]
      rfl
    | some port =>
      have htext : a.text = "[" ++ text ++ "]" ++ (":" ++ port) := by
        rw [Authority.text, hport, hhostText]
        simp only [String.append_assoc]
      rw [htext] at hword ⊢
      rw [parseAuthority_bracketed ne_empty hclose hword, Rust.stripStart_append]
      rfl

/-- The authority yields the host and the port that it names. -/
theorem authority_iff (a : Authority) (default : UInt16) :
    (∃ p, parseAuthority a.text default = some (hostName a.host, p) ∧ p.toNat = portNumber a default.toNat) ↔
      Numbered a := by
  rw [parseAuthority_text, Numbered, portNumber]
  cases hport : a.port with
  | none => exact ⟨fun _ port h => (Option.not_mem_none _ h).elim, fun _ => ⟨default, rfl, rfl⟩⟩
  | some port =>
    dsimp only
    rw [parseU16_digits (a.digits port hport)]
    by_cases h : port ≠ "" ∧ Nat.ofDigitChars 10 port.toList 0 < 2 ^ 16
    · rw [if_pos h, if_neg h.1]
      refine ⟨fun _ p hp => Option.some.inj hp ▸ h, fun _ => ⟨_, rfl, ?_⟩⟩
      rw [UInt16.toNat_ofNat', Nat.mod_eq_of_lt h.2]
    · rw [if_neg h]
      refine ⟨fun hsome => ?_, fun hall => absurd (hall port rfl) h⟩
      obtain ⟨p, hp, -⟩ := hsome
      cases hp

/-! ### The target -/

theorem length_substringAfter_lt {c : Char} {s : String} (h : s ≠ "") :
    (Kotlin.substringAfter c s "").toList.length < s.toList.length := by
  have hpos : 0 < s.toList.length := List.length_pos_iff.mpr fun hnil => h (String.toList_eq_nil_iff.mp hnil)
  have hlen := (List.dropWhile_suffix (l := s.toList) (· != c)).length_le
  rw [Kotlin.substringAfter]
  split
  · exact hpos
  · rename_i d rest hdrop
    rw [hdrop, List.length_cons] at hlen
    rw [String.toList_ofList]
    omega

/-- What stands behind the first slash of what follows an authority. -/
theorem substringAfter_authority (a : Authority) (tail : String) :
    Kotlin.substringAfter '/' (a.text ++ tail) "" = Kotlin.substringAfter '/' tail "" := by
  rw [Kotlin.substringAfter, String.toList_append,
    List.dropWhile_append_of_pos (Kotlin.all_ne_of_notMem (Uri.not_slash_of_authority a))]
  rfl

/-- The target is the origin form but for a query without a path. -/
theorem target_iff (uri : Uri) :
    "/" ++ Kotlin.substringAfter '/' uri.rest "" = originForm uri ↔ (uri.path = "" → uri.query = none) := by
  rw [Uri.rest, String.append_assoc, substringAfter_authority, originForm]
  obtain hpath | ⟨p, hpath⟩ := uri.rooted
  · rw [hpath, if_pos rfl, String.empty_append, forall_prop_of_true rfl, Uri.queryText]
    cases uri.query with
    | none => exact ⟨fun _ => rfl, fun _ => rfl⟩
    | some query =>
      refine ⟨fun h => ?_, fun h => absurd h (by simp)⟩
      have hshort := length_substringAfter_lt (c := '/') (s := "?" ++ query) (by simp)
      have hlen := congrArg (fun s => s.toList.length) h
      simp only [String.toList_append, List.length_append] at hlen hshort
      omega
  · have hcut : uri.path ++ uri.queryText = "" ++ String.singleton '/' ++ (p ++ uri.queryText) := by
      rw [hpath, String.empty_append, String.append_assoc]
      rfl
    have hne : uri.path ≠ "" := by
      rw [hpath]
      simp
    rw [hcut, Kotlin.substringAfter_append (by simp), if_neg hne, hpath, String.append_assoc]
    exact ⟨fun _ h => absurd h (by simp), fun _ => rfl⟩

/-- With a path, or without a query, what stands before the path is the authority. -/
theorem hostPort_eq {uri : Uri} (h : uri.path = "" → uri.query = none) : uri.hostPort = uri.authority.text := by
  rw [Uri.hostPort, Uri.queryHead]
  split
  case isTrue hpath =>
    rw [Uri.queryText, h hpath]
    exact String.append_empty
  case isFalse => exact String.append_empty

/-! ### The line -/

theorem yields_map_iff {parsed : Option (String × UInt16)} {method host : String} {port : Nat}
    {found rewritten : Option String} :
    Yields (parsed.map fun (authority, port) => {method, authority, port, rewritten := found}) method host port
      rewritten ↔ (∃ p, parsed = some (host, p) ∧ p.toNat = port) ∧ found = rewritten := by
  constructor
  · intro h
    obtain ⟨r, hr, -, hhost, hport, hrewritten⟩ := h
    obtain ⟨pair, hpair, rfl⟩ := Option.map_eq_some_iff.mp hr
    exact ⟨⟨pair.2, by rw [hpair, ← hhost], hport⟩, hrewritten⟩
  · intro h
    obtain ⟨⟨p, hp, hport⟩, hrewritten⟩ := h
    exact ⟨_, by rw [hp]; rfl, rfl, rfl, hport, hrewritten⟩

theorem connect_served_iff (method version : Token) (h : Rust.eqIgnoreAsciiCase method.text "CONNECT" = true)
    (a : Authority) : Served (.connect method h a version) ↔ Numbered a := by
  show Yields _ _ _ _ _ ↔ _
  rw [RequestLine.text, (connect_line method version h a).2, yields_map_iff, and_iff_left rfl]
  exact authority_iff a 443

theorem absolute_served_iff (method version : Token) (h : Rust.eqIgnoreAsciiCase method.text "CONNECT" = false)
    (uri : Uri) : Served (.absolute method h uri version) ↔ Plain uri ∧ Numbered uri.authority := by
  have hline (target : String) : some (method.text ++ " " ++ target ++ " " ++ version.text ++ "\r\n") =
      some (method.text ++ " " ++ originForm uri ++ " " ++ version.text ++ "\r\n") ↔ target = originForm uri := by
    simp only [Option.some.injEq, String.append_left_inj, String.append_right_inj]
  show Yields _ _ _ _ _ ↔ _
  rw [RequestLine.text, parseRequestLine_absolute method version h, Plain]
  by_cases hscheme : uri.scheme = "http" ∨ uri.scheme = "HTTP"
  · rw [if_pos hscheme, yields_map_iff, hline, target_iff, and_iff_right hscheme]
    by_cases hquery : uri.path = "" → uri.query = none
    · rw [hostPort_eq hquery, and_iff_left hquery, and_iff_right hquery]
      exact authority_iff uri.authority 80
    · exact ⟨fun hboth => absurd hboth.2 hquery, fun hboth => absurd hboth.1 hquery⟩
  · rw [if_neg hscheme]
    refine ⟨fun hyields => ?_, fun hboth => absurd hboth.1.1 hscheme⟩
    obtain ⟨r, hr, -⟩ := hyields
    cases hr

/-- A line is read as what it names exactly if its port is a number below 65536, its scheme
is written in one case and a query has a path before it. -/
theorem served_iff (line : RequestLine) : Served line ↔ Readable line := by
  cases line with
  | connect method isConnect authority version => exact connect_served_iff method version isConnect authority
  | absolute method notConnect uri version => exact absolute_served_iff method version notConnect uri

/-! ### A query without a path -/

def get : Token where
  text := "GET"
  ne_empty := by decide
  visible := by simp [HttpShare.IsVisible]

def http11 : Token where
  text := "HTTP/1.1"
  ne_empty := by decide
  visible := by simp [HttpShare.IsVisible]

def exampleHost : Host := .name "example.com" (by decide) (by simp [HttpShare.IsVisible])

/-- `http://example.com?x=1` -/
def queried : Uri where
  scheme := "http"
  isHttp := by decide
  authority := {host := exampleHost, port := none, digits := fun _ h => absurd h (by simp)}
  path := ""
  rooted := .inl rfl
  pathVisible := by simp
  query := some "x=1"
  queryVisible := by simp [HttpShare.IsVisible]

/-- The query of `http://example.com?x=1` becomes a part of the host, and the server is
asked for the root. -/
theorem queried_not_served :
    parseRequestLine (RequestLine.absolute get (by decide) queried http11).text =
        some {method := "GET", authority := "example.com?x=1", port := 80, rewritten := some "GET / HTTP/1.1\r\n"} ∧
      originForm queried = "/?x=1" ∧ ¬ Served (.absolute get (by decide) queried http11) := by
  have htext : (RequestLine.absolute get (by decide) queried http11).text = "GET http://example.com?x=1 HTTP/1.1" := by
    decide +kernel
  have hread : parseRequestLine "GET http://example.com?x=1 HTTP/1.1" =
      some {method := "GET", authority := "example.com?x=1", port := 80, rewritten := some "GET / HTTP/1.1\r\n"} := by
    decide +kernel
  refine ⟨htext ▸ hread, by decide +kernel, ?_⟩
  intro h
  obtain ⟨r, hr, -, hhost, -⟩ := h
  rw [htext, hread] at hr
  rw [← Option.some.inj hr] at hhost
  exact absurd hhost (by decide +kernel)

end Aether.Socks.AbsoluteForm
