import Aether.Socks.Entry
import Aether.Rust.Utf8

/-! What the HTTP proxy sends on of a request.

`handle_http_client` reads the head of a request as a text, with replacements for what is
not UTF-8, takes the request line from it, and sends the rewritten line with the rest of
that text to the server; `relay_http_direct` does the same with a text of its own.
`forwarded_iff` says when the rest is the bytes that the client sent. -/
namespace Aether.Socks.HttpForward
open Http Routing

variable {X : Externs}

/-- `lines().next().unwrap_or_default()`: the text up to a line feed and a carriage return
before it. -/
def firstLine (text : String) : String :=
  match Rust.splitOnce '\n' text with
  | some (line, _) => (Rust.stripEnd "\r" line).getD line
  | none => text

/-- `text.split_once("\r\n").map(|(_, tail)| tail).unwrap_or("")` -/
def restOfText (text : String) : String := ((Rust.splitOnceStr "\r\n" text).map (·.2)).getD ""

/-- What the client hears, or what the server is sent before the relay begins. -/
inductive Reply where
  | badRequest
  | forbidden
  | badGateway
  /-- The first bytes to the server; none of a `CONNECT`, which the client is told about. -/
  | relayed (preamble : Option Sniff.Bytes)
  deriving DecidableEq

/-- Which destinations can be opened. -/
structure Network where
  /-- `open_tunneled` -/
  tunneled : Target → UInt16 → Bool
  /-- `TcpStream::connect` -/
  connect : String → UInt16 → Bool

/-- `relay_http_direct`. -/
def relayHttpDirect (net : Network) (request : HttpRequestLine) (head : Sniff.Bytes) : Reply :=
  if net.connect request.authority request.port then
    .relayed <| request.rewritten.map fun line =>
      let text := Rust.fromUtf8Lossy head
      Rust.toUtf8 (line ++ restOfText text)
  else .badGateway

/-- `handle_http_client` up to the relay, with the head that was read. -/
def handleHttpClient (routes : RuleSet X) (net : Network) (head : Sniff.Bytes) : Reply :=
  let text := Rust.fromUtf8Lossy head
  match parseRequestLine (firstLine text) with
  | none => .badRequest
  | some request =>
    let target := httpTarget request.authority
    match routes.decide (hostOf target) request.port with
    | .block => .forbidden
    | .direct => relayHttpDirect net request head
    | .proxy =>
      if net.tunneled target request.port then
        .relayed <| request.rewritten.map fun line => Rust.toUtf8 (line ++ restOfText text)
      else .badGateway

/-! ### The bytes behind the request line -/

/-- The bytes of the head after its first line end. -/
def restOfHead (head : Sniff.Bytes) : Sniff.Bytes := ((Rust.cutAt [13, 10] head).map (·.2)).getD []

/-- The text is cut where the bytes are. -/
theorem restOfText_fromUtf8Lossy (head : Sniff.Bytes) :
    restOfText (Rust.fromUtf8Lossy head) = Rust.fromUtf8Lossy (restOfHead head) := by
  have hword : "\r\n".toList = Rust.asciiWord [13, 10] := by decide
  have hchars : (Rust.fromUtf8Lossy head).toList = Rust.lossyChars head := String.toList_ofList
  have hcut := @Rust.cutAt_lossyChars [13, 10] (by simp) (by simp) head
  rw [restOfText, Rust.splitOnceStr, hword, hchars, hcut, restOfHead]
  cases Rust.cutAt [13, 10] head with
  | none => rfl
  | some cut => rfl

/-- The line and what was read of the rest, as it is sent. -/
theorem sent_eq (line : String) (head : Sniff.Bytes) :
    Rust.toUtf8 (line ++ restOfText (Rust.fromUtf8Lossy head)) =
      Rust.toUtf8 line ++ Rust.toUtf8 (Rust.fromUtf8Lossy (restOfHead head)) := by
  rw [restOfText_fromUtf8Lossy, Rust.toUtf8, String.toList_append, List.flatMap_append]
  rfl

/-- A request that is relayed is sent on with its rewritten line before the text of the
rest, whichever way it goes. -/
theorem relayed_eq {routes : RuleSet X} {net : Network} {head : Sniff.Bytes} {request : HttpRequestLine} {line : String}
    (hrequest : parseRequestLine (firstLine (Rust.fromUtf8Lossy head)) = some request)
    (hline : request.rewritten = some line) {preamble : Option Sniff.Bytes}
    (hrelayed : handleHttpClient routes net head = .relayed preamble) :
    preamble = some (Rust.toUtf8 line ++ Rust.toUtf8 (Rust.fromUtf8Lossy (restOfHead head))) := by
  rw [handleHttpClient, hrequest] at hrelayed
  dsimp only at hrelayed
  split at hrelayed
  case h_1 => cases hrelayed
  case h_2 =>
    rw [relayHttpDirect, hline] at hrelayed
    split at hrelayed
    case isTrue =>
      rw [← Reply.relayed.inj hrelayed, ← sent_eq]
      rfl
    case isFalse => cases hrelayed
  case h_3 =>
    rw [hline] at hrelayed
    split at hrelayed
    case isTrue =>
      rw [← Reply.relayed.inj hrelayed, ← sent_eq]
      rfl
    case isFalse => cases hrelayed

/-- What is sent on behind the rewritten line is what the client sent behind its own exactly
if that is UTF-8. -/
theorem forwarded_iff {routes : RuleSet X} {net : Network} {head : Sniff.Bytes} {request : HttpRequestLine} {line : String}
    (hrequest : parseRequestLine (firstLine (Rust.fromUtf8Lossy head)) = some request)
    (hline : request.rewritten = some line) {preamble : Option Sniff.Bytes}
    (hrelayed : handleHttpClient routes net head = .relayed preamble) :
    preamble = some (Rust.toUtf8 line ++ restOfHead head) ↔ (Rust.fromUtf8 (restOfHead head)).isSome := by
  rw [relayed_eq hrequest hline hrelayed, Option.some.injEq, List.append_cancel_left_eq]
  exact Rust.toUtf8_fromUtf8Lossy_iff (restOfHead head)

/-! ### A cookie in Latin-1 -/

/-- Everything can be opened. -/
def reachable : Network where
  tunneled _ _ := true
  connect _ _ := true

/-- `GET http://a.b/ HTTP/1.1` with a header of one byte. -/
def request (byte : UInt8) : Sniff.Bytes :=
  Rust.toUtf8 "GET http://a.b/ HTTP/1.1\r\nX: " ++ byte :: Rust.toUtf8 "\r\n\r\n"

/-- A header in ASCII is sent on as it is. -/
theorem forwarded_ascii :
    handleHttpClient (X := plain) {} reachable (request 65) =
      .relayed (some (Rust.toUtf8 "GET / HTTP/1.1\r\n" ++ restOfHead (request 65))) := by
  have hrelayed : handleHttpClient (X := plain) {} reachable (request 65) =
      .relayed (some (Rust.toUtf8 "GET / HTTP/1.1\r\nX: A\r\n\r\n")) := by decide +kernel
  have hrequest : parseRequestLine (firstLine (Rust.fromUtf8Lossy (request 65))) =
      some {method := "GET", authority := "a.b", port := 80, rewritten := some "GET / HTTP/1.1\r\n"} := by
    decide +kernel
  rw [hrelayed]
  exact congrArg Reply.relayed ((forwarded_iff hrequest rfl hrelayed).mpr (by decide +kernel))

/-- A byte that is not UTF-8 arrives as three others. -/
theorem cookie_altered :
    handleHttpClient (X := plain) {} reachable (request 0xE9) =
        .relayed (some (Rust.toUtf8 "GET / HTTP/1.1\r\nX: \uFFFD\r\n\r\n")) ∧
      Rust.toUtf8 "GET / HTTP/1.1\r\nX: \uFFFD\r\n\r\n" ≠
        Rust.toUtf8 "GET / HTTP/1.1\r\n" ++ restOfHead (request 0xE9) := by
  refine ⟨by decide +kernel, by decide +kernel⟩

end Aether.Socks.HttpForward
