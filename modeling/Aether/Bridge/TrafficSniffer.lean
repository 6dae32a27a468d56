import Aether.Bridge.UidFilter
import Aether.Kotlin.Platform
import Aether.Kotlin.Text
import Aether.Rust.Lines

/-! The name in the first payload of a flow.

`TrafficSniffer` reads the server name of a TLS handshake on port 443 and the host of an HTTP
request on port 80. A read outside of the payload throws, and is caught. -/
namespace Aether.Bridge.TrafficSniffer
open Kotlin
open UidFilter (copyOfRange getByte getShort)

variable (platform : Platform)

/-- The loop over the extensions of a handshake. -/
def sniffExtensions (data : List UInt8) (extensionsEnd pos : Nat) : Option String :=
  if h : pos + 4 ≤ extensionsEnd ∧ pos + 4 ≤ data.length then
    let extType := getShort data pos
    let extLen := getShort data (pos + 2)
    if extType = 0 then
      if data.length < pos + 9 then none
      else if data.length < pos + 6 + getShort data (pos + 4) then none
      else
        let nameType := getByte data (pos + 6)
        let nameLen := getShort data (pos + 7)
        if nameType = 0 ∧ pos + 9 + nameLen ≤ data.length then
          some (platform.decode (copyOfRange data (pos + 9) (pos + 9 + nameLen)))
        else sniffExtensions data extensionsEnd (pos + 9 + extLen)
    else sniffExtensions data extensionsEnd (pos + 4 + extLen)
  else none
termination_by data.length - pos

def sniffSni (data : List UInt8) : Option String :=
  if data.length < 43 then none
  else if getByte data 0 ≠ 0x16 then none
  else if getByte data 5 ≠ 0x01 then none
  -- the length of the session id is read at 43
  else if data.length = 43 then none
  else
    let pos := 44 + getByte data 43
    if data.length < pos + 2 then none
    else
      let pos := pos + 2 + getShort data pos
      if data.length < pos + 1 then none
      else
        let pos := pos + 1 + getByte data pos
        if data.length < pos + 2 then none
        else sniffExtensions platform data (pos + 2 + getShort data pos) (pos + 2)

/-- A character as `startsWith` compares it when it ignores case, with a letter of ASCII: the
long s counts as an s. -/
def foldCase (c : Char) : Char := if c = 'ſ' then 's' else c.toLower

/-- `line.startsWith("Host:", ignoreCase = true)` -/
def isHostLine (line : List Char) : Bool := (line.take 5).map foldCase == ['h', 'o', 's', 't', ':']

def sniffHttpHost (data : List UInt8) : Option String :=
  let text := platform.decode (data.take 2048)
  ((Rust.cutLines '\r' '\n' text.toList).find? isHostLine).map fun line =>
    platform.lowercase (substringBefore ':' (trim (String.ofList (line.drop 5))))

def sniffDomain (data : List UInt8) (port : Int32) : Option String :=
  if data.isEmpty then none
  else if port = 443 then sniffSni platform data
  else if port = 80 then sniffHttpHost platform data
  else none

end Aether.Bridge.TrafficSniffer
