import Aether.Rust.Blanks

/-! The request line of the engine's HTTP proxy.

A `CONNECT` request names its authority, any other method an absolute URI, whose path is
what the rewritten line carries. The authority is a host and a port, a host of the sixth
version in brackets. -/
namespace Aether.Socks.Http

structure HttpRequestLine where
  method : String
  authority : String
  port : UInt16
  rewritten : Option String
  deriving DecidableEq, Repr

/-- `parse_authority` after an opening bracket. -/
def parseBracketed (rest : String) (defaultPort : UInt16) : Option (String × UInt16) :=
  match Rust.splitOnce ']' rest with
  | none => none
  | some (host, tail) =>
    if host.isEmpty then none
    else
      match Rust.stripStart ":" tail with
      | some value => (Rust.parseU16 value).map fun port => (host, port)
      | none => some (host, defaultPort)

/-- `parse_authority` of a text without brackets; one with several colons is a host alone. -/
def parsePlain (raw : String) (defaultPort : UInt16) : Option (String × UInt16) :=
  match Rust.rsplitOnce ':' raw with
  | some (host, port) =>
    if !Rust.containsChar ':' host then
      if host.isEmpty then none else (Rust.parseU16 port).map fun port => (host, port)
    else some (raw, defaultPort)
  | none => some (raw, defaultPort)

/-- `parse_authority`. -/
def parseAuthority (raw : String) (defaultPort : UInt16) : Option (String × UInt16) :=
  if (Rust.trim raw).isEmpty then none
  else
    match Rust.stripStart "[" (Rust.trim raw) with
    | some rest => parseBracketed rest defaultPort
    | none => parsePlain (Rust.trim raw) defaultPort

/-- `parse_request_line`. -/
def parseRequestLine (line : String) : Option HttpRequestLine :=
  match Rust.splitWhitespace line with
  | method :: target :: rest =>
    let version := rest.head?.getD "HTTP/1.1"
    if Rust.eqIgnoreAsciiCase method "CONNECT" then
      (parseAuthority target 443).map fun (authority, port) => {method, authority, port, rewritten := none}
    else do
      let withoutScheme ← (Rust.stripStart "http://" target).or (Rust.stripStart "HTTP://" target)
      let (authorityPart, path) := match Rust.splitOnce '/' withoutScheme with
        | some (before, after) => (before, "/" ++ after)
        | none => (withoutScheme, "/")
      let (authority, port) ← parseAuthority authorityPart 80
      some {method, authority, port, rewritten := some (method ++ " " ++ path ++ " " ++ version ++ "\r\n")}
  | _ => none

/-! ### The authority of a host and a port -/

/-- How a host and a port are written in a `CONNECT` request. -/
def authorityText (host : String) (port : UInt16) : String :=
  if Rust.containsChar ':' host then "[" ++ host ++ "]" ++ ":" ++ Rust.showU16 port
  else host ++ ":" ++ Rust.showU16 port

/-- `CONNECT` to a host and a port. -/
def connectLine (host : String) (port : UInt16) : String :=
  "CONNECT" ++ " " ++ (authorityText host port ++ " " ++ "HTTP/1.1")

/-- What can stand as a host in an authority: something, without white space or brackets. -/
structure Solid (host : String) : Prop where
  ne_empty : host ≠ ""
  chars : ∀ c ∈ host.toList, Rust.isWhitespace c = false ∧ c ≠ '[' ∧ c ≠ ']'

theorem authorityText_solid {host : String} (h : Solid host) (port : UInt16) :
    ∀ c ∈ (authorityText host port).toList, Rust.isWhitespace c = false := by
  intro c hc
  have hport := Rust.showU16_digits port
  unfold authorityText at hc
  split_ifs at hc <;> simp only [String.toList_append, List.mem_append] at hc
  · rcases hc with (((hc | hc) | hc) | hc) | hc
    · rw [List.mem_singleton.mp hc]; decide
    · exact (h.chars c hc).1
    · rw [List.mem_singleton.mp hc]; decide
    · rw [List.mem_singleton.mp hc]; decide
    · exact Rust.isWhitespace_of_isDigit (hport c hc)
  · rcases hc with (hc | hc) | hc
    · exact (h.chars c hc).1
    · rw [List.mem_singleton.mp hc]; decide
    · exact Rust.isWhitespace_of_isDigit (hport c hc)

theorem authorityText_ne_empty (host : String) (port : UInt16) : authorityText host port ≠ "" := by
  have hport : (Rust.showU16 port).toList ≠ [] := by
    simpa [String.toList_eq_nil_iff] using Rust.showU16_ne_empty port
  intro h
  have hnil := congrArg String.toList h
  unfold authorityText at hnil
  split_ifs at hnil <;> simp at hnil

theorem showU16_not_colon (port : UInt16) : ':' ∉ (Rust.showU16 port).toList := by
  intro h
  exact absurd (Rust.showU16_digits port ':' h) (by decide)

/-- A host and a port are read back from their authority. -/
theorem parseAuthority_authorityText {host : String} (h : Solid host) (port defaultPort : UInt16) :
    parseAuthority (authorityText host port) defaultPort = some (host, port) := by
  have htrim := Rust.trim_of_solid (authorityText_solid h port)
  have hempty : (authorityText host port).isEmpty = false := by
    simpa using authorityText_ne_empty host port
  have hhost : host.isEmpty = false := by simpa using h.ne_empty
  have hport := Rust.parseU16_showU16 port
  rw [parseAuthority, htrim, hempty, if_neg Bool.false_ne_true]
  unfold authorityText
  cases hcolon : Rust.containsChar ':' host with
  | true =>
    have hbracket : ']' ∉ host.toList := fun hmem => (h.chars _ hmem).2.2 rfl
    have hstrip : Rust.stripStart "[" ("[" ++ host ++ "]" ++ ":" ++ Rust.showU16 port) =
        some (host ++ "]" ++ (":" ++ Rust.showU16 port)) := by
      rw [String.append_assoc, String.append_assoc, String.append_assoc, Rust.stripStart_append,
        String.append_assoc]
    have hsplit : Rust.splitOnce ']' (host ++ "]" ++ (":" ++ Rust.showU16 port)) =
        some (host, ":" ++ Rust.showU16 port) := by
      rw [show "]" = String.singleton ']' from rfl]
      exact Rust.splitOnce_append hbracket _
    have htail : Rust.stripStart ":" (":" ++ Rust.showU16 port) = some (Rust.showU16 port) := by
      rw [Rust.stripStart_append]
    simp only [if_true, hstrip, parseBracketed, hsplit, hhost, htail, hport, Option.map_some]
    rfl
  | false =>
    have hraw : '[' ∉ (host ++ ":" ++ Rust.showU16 port).toList := by
      intro hmem
      simp only [String.toList_append, List.mem_append] at hmem
      rcases hmem with (hmem | hmem) | hmem
      · exact (h.chars _ hmem).2.1 rfl
      · exact absurd hmem (by decide)
      · exact absurd (Rust.showU16_digits port _ hmem) (by decide)
    have hstrip : Rust.stripStart "[" (host ++ ":" ++ Rust.showU16 port) = none := by
      rw [show "[" = String.singleton '[' from rfl]
      exact Rust.stripStart_of_notMem hraw
    have hsplit : Rust.rsplitOnce ':' (host ++ ":" ++ Rust.showU16 port) = some (host, Rust.showU16 port) := by
      rw [show ":" = String.singleton ':' from rfl]
      exact Rust.rsplitOnce_append (showU16_not_colon port) host
    simp only [Bool.false_eq_true, if_false, hstrip, parsePlain, hsplit, hhost, hcolon, hport, Option.map_some]
    rfl

/-- The request line of a `CONNECT` is read back. -/
theorem parseRequestLine_connectLine {host : String} (h : Solid host) (port : UInt16) :
    parseRequestLine (connectLine host port) =
      some {method := "CONNECT", authority := host, port, rewritten := none} := by
  have hwords : Rust.splitWhitespace (connectLine host port) =
      ["CONNECT", authorityText host port, "HTTP/1.1"] := by
    have hconnect : ∀ c ∈ "CONNECT".toList, Rust.isWhitespace c = false := by simp [Rust.isWhitespace]
    have hversion : ∀ c ∈ "HTTP/1.1".toList, Rust.isWhitespace c = false := by simp [Rust.isWhitespace]
    rw [connectLine, Rust.splitWhitespace_cons (by decide) hconnect,
      Rust.splitWhitespace_cons (authorityText_ne_empty host port) (authorityText_solid h port),
      Rust.splitWhitespace_of_solid (by decide) hversion]
  have hconnect : Rust.eqIgnoreAsciiCase "CONNECT" "CONNECT" = true := by decide
  simp only [parseRequestLine, hwords, hconnect, if_true, parseAuthority_authorityText h, Option.map_some]

end Aether.Socks.Http
