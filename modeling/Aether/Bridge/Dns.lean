import Aether.Bridge.UidFilter
import Aether.Kotlin.Platform

/-! The DNS messages that the bridge looks into.

The functions read a message at offsets that its own octets give, and catch what they throw:
`extractDomainName` and `buildDnsNXResponse` give nothing then, and `sniffDnsResponse` has put into
the map what it had found before. -/
namespace Aether.Bridge.Dns
open Kotlin (Platform)
open UidFilter (copyOfRange getByte getShort)

/-! ### The question -/

/-- The labels of the first question, up to its end or that of the message. -/
def labels : (fuel : Nat) → List UInt8 → Option (List (List UInt8))
  | 0, _ => some []
  | _, [] => some []
  | fuel + 1, l :: rest =>
    if l.toNat = 0 then some []
    else if rest.length < l.toNat then none
    else (labels fuel (rest.drop l.toNat)).map (rest.take l.toNat :: ·)

def extractDomainName (platform : Platform) (data : List UInt8) : Option String :=
  if data.length < 12 then none
  else (labels data.length (data.drop 12)).map fun ls => platform.lowercase (".".intercalate (ls.map platform.decode))

/-- `findDnsQuestionEnd` from an offset on. -/
def questionEnd (data : List UInt8) (i : Nat) : Nat :=
  if h : i < data.length then
    let len := data[i].toNat
    if len = 0 then i + 1 else if 0xC0 ≤ len then i + 2 else questionEnd data (i + len + 1)
  else i
termination_by data.length - i

def findDnsQuestionEnd (data : List UInt8) : Nat := min data.length (questionEnd data 12 + 4)

def buildDnsNXResponse (request : List UInt8) : Option (List UInt8) :=
  if request.length < 12 then none
  else
    let resp := copyOfRange request 0 (findDnsQuestionEnd request)
    let resp := resp.modify 2 (· ||| 0x80)
    let resp := resp.modify 3 fun b => b &&& 0x70 ||| 0x80 ||| 0x03
    some ([6, 7, 8, 9, 10, 11].foldl (fun resp i => resp.set i 0) resp)

/-! ### The answers -/

/-- The end of the name of a question, from an offset on. -/
def skipQuestionName (data : List UInt8) (pos : Nat) : Nat :=
  if h : pos < data.length then
    let l := data[pos].toNat
    if l = 0 then pos + 1 else if 0xC0 ≤ l then pos + 2 else skipQuestionName data (pos + l + 1)
  else pos
termination_by data.length - pos

/-- The end of a number of questions. -/
def skipQuestions (data : List UInt8) : (count pos : Nat) → Nat
  | 0, pos => pos
  | n + 1, pos => skipQuestions data n (skipQuestionName data pos + 4)

/-- The end of a name of labels, from an offset on. -/
def skipLabels (data : List UInt8) (pos : Nat) : Nat :=
  if h : pos < data.length then
    let l := data[pos].toNat
    if l = 0 then pos + 1 else skipLabels data (pos + l + 1)
  else pos
termination_by data.length - pos

/-- The end of the owner of a record. -/
def skipOwner (data : List UInt8) (pos : Nat) : Nat :=
  if 0xC0 ≤ getByte data pos then pos + 2 else skipLabels data pos

/-- `getShort`, which throws outside of the message. -/
def tryShort (data : List UInt8) (pos : Nat) : Option Nat :=
  if pos + 1 < data.length then some (getShort data pos) else none

/-- The dotted text of four octets. -/
def dotted (octets : List UInt8) : String :=
  ".".intercalate (octets.map fun b => String.ofList (Nat.toDigits 10 b.toNat))

/-- What the data of a record puts into the map. -/
def recordPuts (platform : Platform) (data : List UInt8) (domain : String) (type rdLen pos : Nat) :
    List (String × String) :=
  if type = 1 ∧ rdLen = 4 ∧ pos + 4 ≤ data.length then [(dotted (copyOfRange data pos (pos + 4)), domain)]
  else if type = 28 ∧ rdLen = 16 ∧ pos + 16 ≤ data.length then
    [(platform.hostAddress (copyOfRange data pos (pos + 16)), domain)]
  else []

/-- The loop over the records. A record that begins too close to the end is passed over where it
is; a read outside of the message ends the loop. -/
def sniffRecords (platform : Platform) (data : List UInt8) (domain : String) :
    (count pos : Nat) → List (String × String)
  | 0, _ => []
  | n + 1, pos =>
    if data.length < pos + 12 then sniffRecords platform data domain n pos
    else
      let pos := skipOwner data pos
      match tryShort data pos, tryShort data (pos + 8) with
      | some type, some rdLen =>
        recordPuts platform data domain type rdLen (pos + 10) ++
          sniffRecords platform data domain n (pos + 10 + rdLen)
      | _, _ => []

def sniffDnsResponse (platform : Platform) (data : List UInt8) : List (String × String) :=
  if data.length < 12 then []
  else if getShort data 2 &&& 0x8000 = 0 then []
  else
    let qCount := getShort data 4
    let aCount := getShort data 6
    if qCount = 0 ∨ aCount = 0 then []
    else
      let pos := skipQuestions data qCount 12
      match extractDomainName platform data with
      | none => []
      | some domain => sniffRecords platform data domain aCount pos

end Aether.Bridge.Dns
