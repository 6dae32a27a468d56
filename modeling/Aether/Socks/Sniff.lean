import Aether.Routing.Rules

/-! Reading a host name from the first bytes of a connection.

`tls_sni` walks a ClientHello to its server name extension, `http_host` the header lines
of a request; both hand what they find to `plausible_host`. Every index is checked, so
that a truncated or hostile first flight gives no name. -/
namespace Aether.Socks.Sniff
open Routing (Externs)

abbrev Bytes := List UInt8

/-- `PEEK_BUDGET` -/
def peekBudget : Nat := 4096

/-- `MAX_HOST_LEN` -/
def maxHostLen : Nat := 253

def be16 (buf : Bytes) (pos : Nat) : Option Nat := do
  let hi ← buf[pos]?
  let lo ← buf[pos + 1]?
  some (hi.toNat * 2 ^ 8 + lo.toNat)

def be24 (buf : Bytes) (pos : Nat) : Option Nat := do
  let a ← buf[pos]?
  let b ← buf[pos + 1]?
  let c ← buf[pos + 2]?
  some (a.toNat * 2 ^ 16 + b.toNat * 2 ^ 8 + c.toNat)

/-- `buf.get(start..stop)` -/
def slice (buf : Bytes) (start stop : Nat) : Option Bytes :=
  if start ≤ stop ∧ stop ≤ buf.length then some ((buf.take stop).drop start) else none

variable (X : Externs)

def plausibleHost (raw : Bytes) : Option String := do
  if raw.isEmpty || raw.length > maxHostLen then none
  let name ← Rust.fromUtf8 raw
  let name := Rust.trimEndMatches '.' (Rust.trim name)
  if name.isEmpty || name.utf8ByteSize > maxHostLen then none
  let allowed := name.toList.all fun c => c.isAlphanum || c == '-' || c == '.' || c == '_'
  if !allowed || !Rust.containsChar '.' name then none
  if (Rust.parseIp name).isSome then none
  some (X.toLowercase name)

/-- The entries of a server name list from `pos` on. -/
def serverName (data : Bytes) (stop : Nat) : (fuel pos : Nat) → Option String
  | 0, _ => none
  | fuel + 1, pos =>
    if pos + 3 ≤ stop then do
      let kind ← data[pos]?
      let len ← be16 data (pos + 1)
      let start := pos + 3
      if start + len > stop then none
      -- SNI_HOST_NAME
      if kind == 0 then plausibleHost X (← slice data start (start + len))
      else serverName data stop fuel (start + len)
    else none

def firstServerName (data : Bytes) : Option String := do
  let len ← be16 data 0
  serverName X data (min (2 + len) data.length) data.length 2

/-- The extensions of a ClientHello from `pos` on. -/
def extension (hello : Bytes) (stop : Nat) : (fuel pos : Nat) → Option String
  | 0, _ => none
  | fuel + 1, pos =>
    if pos + 4 ≤ stop then do
      let kind ← be16 hello pos
      let len ← be16 hello (pos + 2)
      let start := pos + 4
      if start + len > stop then none
      -- EXT_SERVER_NAME
      if kind == 0 then firstServerName X (← slice hello start (start + len))
      else extension hello stop fuel (start + len)
    else none

def tlsSni (buf : Bytes) : Option String := do
  -- TLS_HANDSHAKE
  if (← buf[0]?) != 0x16 then none
  let recordLen ← be16 buf 3
  let body ← slice buf 5 (min (5 + recordLen) buf.length)
  -- TLS_CLIENT_HELLO
  if (← body[0]?) != 0x01 then none
  let helloLen ← be24 body 1
  let hello ← slice body 4 (min (4 + helloLen) body.length)
  let pos := 2 + 32
  let pos := pos + (1 + (← hello[pos]?).toNat)
  let pos := pos + (2 + (← be16 hello pos))
  let pos := pos + (1 + (← hello[pos]?).toNat)
  let extensionsLen ← be16 hello pos
  let pos := pos + 2
  extension X hello (min (pos + extensionsLen) hello.length) hello.length pos

/-- `text.split("\r\n")` -/
def splitCrlf : List Char → List (List Char)
  | [] => [[]]
  | '\r' :: '\n' :: cs => [] :: splitCrlf cs
  | c :: cs => (splitCrlf cs).modifyHead (c :: ·)

def looksLikeHttp (line : String) : Bool :=
  ["GET ", "POST ", "PUT ", "HEAD ", "DELETE ", "OPTIONS ", "PATCH ", "TRACE ", "CONNECT "].any
      (fun method => Rust.startsWith method line) && Rust.contains "HTTP/" line

/-- The header lines up to the first empty one. -/
def hostHeader : List String → Option String
  | [] => none
  | line :: lines =>
    if line.isEmpty then none
    else
      match Rust.splitOnce ':' line with
      | none => hostHeader lines
      | some (name, value) =>
        if !Rust.eqIgnoreAsciiCase name "host" then hostHeader lines
        else
          let value := Rust.trim value
          let withoutPort := match Rust.rsplitOnce ':' value with
            | some (host, port) => if port.toList.all Char.isDigit then host else value
            | none => value
          plausibleHost X withoutPort.toUTF8.toList

def httpHost (buf : Bytes) : Option String :=
  match (splitCrlf (Rust.fromUtf8Lossy (buf.take peekBudget)).toList).map String.ofList with
  | [] => none
  | requestLine :: lines => if looksLikeHttp requestLine then hostHeader X lines else none

def hostname (buf : Bytes) : Option String := (tlsSni X buf).or (httpHost X buf)

end Aether.Socks.Sniff
