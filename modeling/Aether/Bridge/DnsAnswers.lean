import Aether.Bridge.Dns
import Aether.Bridge.DnsMap
import Aether.Octets.DnsMessage

/-! What the bridge takes from a DNS response.

`sniffDnsResponse` walks the answers of a response and puts their addresses into the map under
the name of the question. It passes over an owner that is a pointer, and over one of labels up
to the root. In an owner of labels that end in a pointer it takes the pointer for a label, and
is lost. -/
namespace Aether.Bridge.Dns
open Kotlin (Platform trim trimEnd)
open UidFilter (copyOfRange getByte getShort)
open Octets Octets.Dns

/-- A response with one question, whose name is written in full. -/
structure Response where
  message : Message
  question : Question
  single : message.questions = [question]
  whole : question.name.ending = .root
  isResponse : 0x8000 ≤ message.flags.val

variable (platform : Platform)

/-- The address in a record of type A or AAAA. -/
def addressOf (record : Record) : Option String :=
  match record.data with
  | .service .. => none
  | .other kind _ bytes _ =>
    if kind.val = 1 ∧ bytes.length = 4 then some (dotted bytes)
    else if kind.val = 28 ∧ bytes.length = 16 then some (platform.hostAddress bytes)
    else none

/-- The name of the question, lowered. -/
def questionName (response : Response) : String :=
  platform.lowercase (".".intercalate (response.question.name.labels.map fun label => platform.decode label.bytes))

/-- The addresses of some records. -/
def addresses (records : List Record) : List String := records.filterMap (addressOf platform)

/-- What the map is given: `put` trims the address and the name, and drops empty ones. -/
def recorded (response : Response) : List (String × String) :=
  (sniffDnsResponse platform response.message.wire).filterMap fun put => DnsMap.normalize platform put.1 put.2

/-- The map is given the name of the question for each address of the answers. -/
def Attributes (response : Response) : Prop :=
  recorded platform response =
    (addresses platform response.message.answers).map fun address => (address, questionName platform response)

/-! ### The octets at a position -/

variable {platform} {data part : List UInt8} {pos : Nat}

/-- The name as `put` keeps it. -/
def kept (platform : Platform) (name : String) : String := platform.lowercase (trimEnd '.' (trim name))

open DnsMap (asciiPlatform)

/-- A label of one letter. -/
def letter (b : UInt8) : Label := ⟨[b], Nat.one_pos, Nat.one_lt_two_pow (by decide)⟩

theorem one_few : 1 < 2 ^ 16 := Nat.one_lt_two_pow (by decide)

/-- The address of a host. -/
def hostRecord (owner : Name) : Record :=
  ⟨owner, ⟨1, one_few⟩, [0, 0, 1, 44], rfl, .other ⟨1, one_few⟩ (by decide) [10, 0, 0, 1] (by decide)⟩

/-- A response for the name `a.b`, with one answer. -/
def answered (owner : Name) : Response where
  message := {
    id := ⟨7, by decide⟩
    flags := ⟨0x8180, by decide⟩
    questions := [⟨⟨[letter 97, letter 98], .root⟩, ⟨1, one_few⟩, ⟨1, one_few⟩⟩]
    fewQuestions := one_few
    answers := [hostRecord owner]
    fewAnswers := one_few
    counts := List.replicate 4 0
    isCounts := List.length_replicate
    rest := [] }
  question := ⟨⟨[letter 97, letter 98], .root⟩, ⟨1, one_few⟩, ⟨1, one_few⟩⟩
  single := rfl
  whole := rfl
  isResponse := (by decide : 0x8000 ≤ 0x8180)

end Aether.Bridge.Dns
