import Aether.Machine.Fallible
import Aether.Octets.Varint

/-! Capsules and their parser.

A capsule is a kind, a length and a value, the first two variable-length integers.
`CapsuleParser` buffers what a transport pushes and takes whole capsules off the
front; the buffer is bounded, and a chunk that does not fit empties it. The values
of two kinds are lists of entries of their own, and one that does not parse is an
error after the capsule was taken.

The kind, length and value are read by `readHeader`; what the value means is
`interpret`. -/
namespace Aether.Masque
open Octets Decoding

/-- The machines the engine is built for. -/
inductive Target where
  | aarch64
  | armv7

def Target.usizeBits : Target → Nat
  | .aarch64 => 64
  | .armv7 => 32

/-- `v as usize`. -/
def asUsize (t : Target) (v : Nat) : Nat := v % 2 ^ t.usizeBits

/-! ### Data -/

def capsuleAddressAssign : Nat := 0x01
def capsuleAddressRequest : Nat := 0x02
def capsuleRouteAdvertisement : Nat := 0x03
def capsuleDatagram : Nat := 0x00

structure AssignedAddress where
  requestId : Nat
  ipVersion : UInt8
  address : List UInt8
  prefixLen : UInt8
  deriving DecidableEq

structure RouteAdvertisement where
  ipVersion : UInt8
  start : List UInt8
  «end» : List UInt8
  protocol : UInt8
  deriving DecidableEq

inductive Capsule where
  | addressAssign (addresses : List AssignedAddress)
  | addressRequest
  | datagram (payload : List UInt8)
  | routeAdvertisement (routes : List RouteAdvertisement)
  | unknown (kind : Nat) (payload : List UInt8)
  deriving DecidableEq

inductive AetherError where
  | capsule (message : String)
  deriving DecidableEq

/-! ### Entries -/

/-- A read past the end, as this crate's error. -/
def oct {α : Type} (r : Option α) : Except AetherError α :=
  match r with
  | none => .error (.capsule "BufferTooShortError")
  | some a => .ok a

def addrLen (ipVersion : UInt8) : Except AetherError Nat :=
  if ipVersion = 4 then .ok 4
  else if ipVersion = 6 then .ok 16
  else .error (.capsule ("bad ip version " ++ toString ipVersion))

/-- A reader of one entry; it takes at least one byte. -/
structure EntryReader (α : Type) where
  read : List UInt8 → Except AetherError (α × List UInt8)
  shrinks : ∀ {bs e rest}, read bs = .ok (e, rest) → rest.length < bs.length

/-- Entries until the value is used up; the first error ends it. -/
def EntryReader.readAll {α : Type} (r : EntryReader α) (bs : List UInt8) :
    Except AetherError (List α) :=
  if bs = [] then .ok []
  else
    match h : r.read bs with
    | .error e => .error e
    | .ok (e, rest) =>
      have := r.shrinks h
      (r.readAll rest).map (e :: ·)
termination_by bs.length

theorem EntryReader.readAll_error {α : Type} (r : EntryReader α) {bs : List UInt8} {e : AetherError}
    (hne : bs ≠ []) (h : r.read bs = .error e) : r.readAll bs = .error e := by
  rw [EntryReader.readAll, if_neg hne]
  split <;> simp_all

def readAssignedAddress (b : List UInt8) : Except AetherError (AssignedAddress × List UInt8) := do
  let (requestId, b) ← oct (getVarint b)
  let (ipVersion, b) ← oct (getU8 b)
  let n ← addrLen ipVersion
  let (address, b) ← oct (getBytes n b)
  let (prefixLen, b) ← oct (getU8 b)
  return ({ requestId, ipVersion, address, prefixLen }, b)

def readRouteAdvertisement (b : List UInt8) : Except AetherError (RouteAdvertisement × List UInt8) := do
  let (ipVersion, b) ← oct (getU8 b)
  let n ← addrLen ipVersion
  let (start, b) ← oct (getBytes n b)
  let («end», b) ← oct (getBytes n b)
  let (protocol, b) ← oct (getU8 b)
  return ({ ipVersion, start, «end», protocol }, b)

theorem oct_ok {α : Type} {r : Option α} {a : α} (h : oct r = .ok a) : r = some a := by
  cases r with
  | none => cases h
  | some b =>
    cases h
    rfl

/-- A reader that only takes what it looks at leaves no more than it was given. -/
theorem length_le_of_local {α : Type} {read : List UInt8 → Option (α × List UInt8)} (hr : Local read)
    {bs rest : List UInt8} {a : α} (h : read bs = some (a, rest)) : rest.length ≤ bs.length := by
  obtain ⟨taken, rfl, -⟩ := hr _ _ _ h
  simp

/-- An entry has at least its request id, its version and its prefix length. -/
theorem readAssignedAddress_shrinks {b rest : List UInt8} {e : AssignedAddress}
    (h : readAssignedAddress b = .ok (e, rest)) : rest.length < b.length := by
  obtain ⟨⟨_, b₁⟩, h₁, h⟩ := Machine.ok_of_bind h
  obtain ⟨⟨_, b₂⟩, h₂, h⟩ := Machine.ok_of_bind h
  obtain ⟨_, -, h⟩ := Machine.ok_of_bind h
  obtain ⟨⟨_, b₃⟩, h₃, h⟩ := Machine.ok_of_bind h
  obtain ⟨⟨_, b₄⟩, h₄, h⟩ := Machine.ok_of_bind h
  have hid := length_le_of_local getVarint_local (oct_ok h₁)
  have hversion := getU8_shrinks (oct_ok h₂)
  have haddress := length_le_of_local (getBytes_local _) (oct_ok h₃)
  have hlast := getU8_shrinks (oct_ok h₄)
  cases h
  omega

/-- An entry has at least its version, its protocol and its addresses. -/
theorem readRouteAdvertisement_shrinks {b rest : List UInt8} {e : RouteAdvertisement}
    (h : readRouteAdvertisement b = .ok (e, rest)) : rest.length < b.length := by
  obtain ⟨⟨_, b₁⟩, h₁, h⟩ := Machine.ok_of_bind h
  obtain ⟨_, -, h⟩ := Machine.ok_of_bind h
  obtain ⟨⟨_, b₂⟩, h₂, h⟩ := Machine.ok_of_bind h
  obtain ⟨⟨_, b₃⟩, h₃, h⟩ := Machine.ok_of_bind h
  obtain ⟨⟨_, b₄⟩, h₄, h⟩ := Machine.ok_of_bind h
  have hversion := getU8_shrinks (oct_ok h₁)
  have hstart := length_le_of_local (getBytes_local _) (oct_ok h₂)
  have hend := length_le_of_local (getBytes_local _) (oct_ok h₃)
  have hlast := getU8_shrinks (oct_ok h₄)
  cases h
  omega

def parseAddressAssign (value : List UInt8) : Except AetherError (List AssignedAddress) :=
  EntryReader.readAll ⟨readAssignedAddress, readAssignedAddress_shrinks⟩ value

def parseRouteAdvertisement (value : List UInt8) : Except AetherError (List RouteAdvertisement) :=
  EntryReader.readAll ⟨readRouteAdvertisement, readRouteAdvertisement_shrinks⟩ value

/-! ### Capsules -/

/-- What a capsule of this kind and value is. -/
def interpret (kind : Nat) (value : List UInt8) : Except AetherError Capsule :=
  if kind = capsuleAddressAssign then (parseAddressAssign value).map .addressAssign
  else if kind = capsuleAddressRequest then .ok .addressRequest
  else if kind = capsuleRouteAdvertisement then (parseRouteAdvertisement value).map .routeAdvertisement
  else if kind = capsuleDatagram then .ok (.datagram value)
  else .ok (.unknown kind value)

/-- `varint_len` of this crate. -/
def varintLen (v : Nat) : Nat :=
  if v < 64 then 1
  else if v < 16384 then 2
  else if v < 1073741824 then 4
  else 8

/-- Kind and length, then as many bytes of value. -/
def readHeader (t : Target) (buf : List UInt8) : Option ((Nat × List UInt8) × List UInt8) :=
  (getVarint buf).bind fun (kind, b) =>
    (getVarint b).bind fun (len, b) =>
      (getBytes (asUsize t len) b).map fun (value, b) => ((kind, value), b)

/-- Type, length and value depend on nothing behind them, so that a capsule can be cut from the
stream. -/
theorem readHeader_local (t : Target) : Local (readHeader t) := by
  have hvalue (kind len : Nat) : Local fun b =>
      (getBytes (asUsize t len) b).map fun (value, b) => ((kind, value), b) :=
    (getBytes_local _).map _
  exact getVarint_local.bind fun kind => getVarint_local.bind fun len => hvalue kind len

/-- Headers with their values, as a stream of items. -/
def headers (t : Target) : Decoder UInt8 (Nat × List UInt8) :=
  ⟨readHeader t, readHeader_local t, rfl⟩

/-! ### The parser -/

structure CapsuleParser where
  buf : List UInt8 := []
  deriving DecidableEq

def maxCapsuleBuf : Nat := 256 * 1024

/-- A chunk that would overflow the buffer empties it and is dropped itself. -/
def CapsuleParser.push (data : List UInt8) (p : CapsuleParser) : CapsuleParser :=
  if p.buf.length + data.length > maxCapsuleBuf then { buf := [] } else { buf := p.buf ++ data }

/-- A capsule is taken off the buffer before its value is looked at. -/
def CapsuleParser.next (t : Target) (p : CapsuleParser) :
    Except AetherError (Option Capsule) × CapsuleParser :=
  match readHeader t p.buf with
  | none => (.ok none, p)
  | some ((kind, value), rest) => ((interpret kind value).map some, { buf := rest })

/-- A capsule that is taken leaves the buffer shorter, so that draining it ends. -/
theorem CapsuleParser.next_shrinks {t : Target} {p p' : CapsuleParser} {c : Capsule}
    (h : p.next t = (.ok (some c), p')) : p'.buf.length < p.buf.length := by
  unfold CapsuleParser.next at h
  split at h
  · cases h
  · rename_i hread
    obtain ⟨-, rfl⟩ := Prod.mk.inj h
    exact (headers t).shrinks hread

/-- `next` until it returns no capsule or an error, as both transports do. -/
def CapsuleParser.drain (t : Target) (p : CapsuleParser) : List Capsule × CapsuleParser :=
  match h : p.next t with
  | (.ok (some c), p') =>
    have := CapsuleParser.next_shrinks h
    (c :: (p'.drain t).1, (p'.drain t).2)
  | (.ok none, p') => ([], p')
  | (.error _, p') => ([], p')
termination_by p.buf.length

end Aether.Masque
