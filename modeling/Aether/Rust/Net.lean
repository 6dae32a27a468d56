import Mathlib

/-! Rust's `std::net` addresses.

Addresses are numbers of their width in network order, so that a network is a
comparison of leading bits. A socket address of the sixth version carries its flow
label and scope, which take part in the comparison of two of them.

The reader of textual addresses is the library's own recursive descent: four
decimal numbers without leading zeros, or groups of hexadecimal digits around at
most one `::`, the last two of which may be written as an address of the fourth
version. `parseIp_text` bounds what it accepts: hexadecimal digits, dots and
colons. -/
namespace Aether.Rust

/-- `IpAddr`. -/
inductive IpAddr where
  | v4 (bits : BitVec 32)
  | v6 (bits : BitVec 128)
  deriving DecidableEq, Repr

/-- The first `length` bits of two addresses agree. -/
def sameNetwork {w : Nat} (length : Nat) (net ip : BitVec w) : Bool :=
  net >>> (w - length) == ip >>> (w - length)

/-- `Ipv4Addr::new`. -/
def ipv4 (a b c d : UInt8) : BitVec 32 := a.toBitVec ++ b.toBitVec ++ c.toBitVec ++ d.toBitVec

/-- The segments of an address of the sixth version, the first in front. -/
def ofSegments (segments : List (BitVec 16)) : BitVec 128 :=
  segments.foldl (fun bits s => (bits <<< 16) ||| s.setWidth 128) 0

/-- An address of the sixth version from its sixteen octets, the first in front. -/
def ofOctets (octets : List UInt8) : BitVec 128 :=
  octets.foldl (fun bits b => (bits <<< 8) ||| b.toBitVec.setWidth 128) 0

namespace IpAddr

/-- `is_unspecified`. -/
def isUnspecified : IpAddr → Bool
  | v4 bits => bits == 0
  | v6 bits => bits == 0

/-- `Ipv6Addr::to_ipv4_mapped`: the addresses of `::ffff:0:0/96`. -/
def toIpv4Mapped (bits : BitVec 128) : Option (BitVec 32) :=
  if bits >>> 32 == 0xffff then some (bits.setWidth 32) else none

/-- The octets or segments of an address, the first in front. -/
def groups {w : Nat} (count width : Nat) (bits : BitVec w) : List (BitVec width) :=
  (List.range count).map fun i => bits.extractLsb' (width * (count - 1 - i)) width

/-- Groups in a radix with a separator between them. -/
def joined {w : Nat} (sep : String) (radix : Nat) (gs : List (BitVec w)) : String :=
  sep.intercalate (gs.map fun g => String.ofList (Nat.toDigits radix g.toNat))

/-- The first longest run of zeros, as its start and length; `position` is that of the
first segment and `current` the run that ends before it. -/
def longestZeros {w : Nat} : (position : Nat) → (current longest : Nat × Nat) → List (BitVec w) → Nat × Nat
  | _, _, longest, [] => longest
  | i, current, longest, g :: rest =>
    if g == 0 then
      let run := (if current.2 == 0 then i else current.1, current.2 + 1)
      longestZeros (i + 1) run (if run.2 > longest.2 then run else longest) rest
    else longestZeros (i + 1) (0, 0) longest rest

/-- `Ipv4Addr`'s `Display`. -/
def showV4 (bits : BitVec 32) : String := joined "." 10 (groups 4 8 bits)

/-- `Ipv6Addr`'s `Display`. -/
def showV6 (bits : BitVec 128) : String :=
  match toIpv4Mapped bits with
  | some mapped => "::ffff:" ++ showV4 mapped
  | none =>
    let segments := groups 8 16 bits
    let (start, length) := longestZeros 0 (0, 0) (0, 0) segments
    if length > 1 then
      joined ":" 16 (segments.take start) ++ "::" ++ joined ":" 16 (segments.drop (start + length))
    else joined ":" 16 segments

/-- `IpAddr`'s `Display`. -/
def display : IpAddr → String
  | v4 bits => showV4 bits
  | v6 bits => showV6 bits

end IpAddr

/-- `SocketAddr`. -/
inductive SocketAddr where
  | v4 (bits : BitVec 32) (port : UInt16)
  | v6 (bits : BitVec 128) (port : UInt16) (flowinfo scopeId : UInt32)
  deriving DecidableEq, Repr

namespace SocketAddr

def new : IpAddr → UInt16 → SocketAddr
  | .v4 bits, port => v4 bits port
  | .v6 bits, port => v6 bits port 0 0

def ip : SocketAddr → IpAddr
  | v4 bits _ => .v4 bits
  | v6 bits .. => .v6 bits

def port : SocketAddr → UInt16
  | v4 _ port => port
  | v6 _ port .. => port

@[simp] theorem ip_new (ip : IpAddr) (port : UInt16) : (new ip port).ip = ip := by cases ip <;> rfl

end SocketAddr

/-! ### Reading text -/

/-- A reader that may fail, leaving the rest of the text; where it fails, the text
is read again from where it started. -/
abbrev Reader (α : Type) := List Char → Option (α × List Char)

/-- `char::to_digit` for the radices ten and sixteen. -/
def toDigit (radix : Nat) (c : Char) : Option Nat :=
  let n := c.toNat
  let value :=
    if 48 ≤ n && n ≤ 57 then some (n - 48)
    else if 97 ≤ n && n ≤ 102 then some (n - 87)
    else if 65 ≤ n && n ≤ 70 then some (n - 55)
    else none
  value.filter (· < radix)

/-- The digits at the start of a text: their value, their number and what follows. -/
def readDigits (radix : Nat) (value count : Nat) : List Char → Nat × Nat × List Char
  | [] => (value, count, [])
  | c :: cs =>
    match toDigit radix c with
    | some d => readDigits radix (value * radix + d) (count + 1) cs
    | none => (value, count, c :: cs)

/-- `read_number`: at most `maxDigits` digits of a number below `2 ^ width`. -/
def readNumber (radix maxDigits width : Nat) (allowZeroPrefix : Bool) : Reader (BitVec width) := fun cs =>
  let (value, count, rest) := readDigits radix 0 0 cs
  if count > maxDigits then none
  else if count == 0 then none
  else if !allowZeroPrefix && cs.head? == some '0' && count > 1 then none
  else if value < 2 ^ width then some (BitVec.ofNat width value, rest)
  else none

/-- `read_given_char`. -/
def readGivenChar (c : Char) : Reader Unit
  | [] => none
  | d :: cs => if d == c then some ((), cs) else none

/-- `read_separator`: every element but the first is preceded by the separator. -/
def readSeparator {α : Type} (sep : Char) (index : Nat) (inner : Reader α) : Reader α := fun cs =>
  if index > 0 then (readGivenChar sep cs).bind fun (_, cs) => inner cs else inner cs

/-- `read_ipv4_addr`. -/
def readIpv4Addr : Reader (BitVec 32) := fun cs => do
  let octet (i : Nat) := readSeparator '.' i (readNumber 10 3 8 false)
  let (a, cs) ← octet 0 cs
  let (b, cs) ← octet 1 cs
  let (c, cs) ← octet 2 cs
  let (d, cs) ← octet 3 cs
  some (a ++ b ++ c ++ d, cs)

/-- `read_groups` with room for `room` more groups after `index`: the groups, whether
an address of the fourth version ended them, and the rest. -/
def readGroups : (room index : Nat) → List Char → List (BitVec 16) × Bool × List Char
  | 0, _, cs => ([], false, cs)
  | room + 1, index, cs =>
    let embedded := if room > 0 then readSeparator ':' index readIpv4Addr cs else none
    match embedded with
    | some (bits, cs) => ([bits.extractLsb' 16 16, bits.extractLsb' 0 16], true, cs)
    | none =>
      match readSeparator ':' index (readNumber 16 4 16 true) cs with
      | some (group, cs) =>
        let (groups, ipv4, cs) := readGroups room (index + 1) cs
        (group :: groups, ipv4, cs)
      | none => ([], false, cs)

/-- The back part of an address, after a `::` that stands for at least one group. -/
def readTail (head : List (BitVec 16)) : Reader (BitVec 128) := fun cs =>
  let (tail, _, cs) := readGroups (8 - (head.length + 1)) 0 cs
  some (ofSegments (head ++ List.replicate (8 - head.length - tail.length) 0 ++ tail), cs)

/-- `read_ipv6_addr` from the `::` on. -/
def readCompressed (head : List (BitVec 16)) : Reader (BitVec 128) := fun cs => do
  let (_, cs) ← readGivenChar ':' cs
  let (_, cs) ← readGivenChar ':' cs
  readTail head cs

/-- `read_ipv6_addr`. -/
def readIpv6Addr : Reader (BitVec 128) := fun cs =>
  let (head, headIpv4, cs) := readGroups 8 0 cs
  if head.length == 8 then some (ofSegments head, cs)
  else if headIpv4 then none
  else readCompressed head cs

/-- `read_ip_addr`. -/
def readIpAddr : Reader IpAddr := fun cs =>
  match readIpv4Addr cs with
  | some (bits, cs) => some (.v4 bits, cs)
  | none => (readIpv6Addr cs).map fun (bits, cs) => (.v6 bits, cs)

/-- `str::parse::<IpAddr>`: the whole text is one address. -/
def parseIp (s : String) : Option IpAddr :=
  match readIpAddr s.toList with
  | some (ip, []) => some ip
  | _ => none

/-- `read_port`. -/
def readPort : Reader UInt16 := fun cs => do
  let (_, cs) ← readGivenChar ':' cs
  let (port, cs) ← readNumber 10 cs.length 16 true cs
  some (⟨port⟩, cs)

/-- `read_socket_addr_v4`. -/
def readSocketAddrV4 : Reader SocketAddr := fun cs => do
  let (bits, cs) ← readIpv4Addr cs
  let (port, cs) ← readPort cs
  some (.v4 bits port, cs)

/-- `read_scope_id`. -/
def readScopeId : Reader UInt32 := fun cs => do
  let (_, cs) ← readGivenChar '%' cs
  let (scopeId, cs) ← readNumber 10 cs.length 32 true cs
  some (⟨scopeId⟩, cs)

/-- `read_socket_addr_v6`. -/
def readSocketAddrV6 : Reader SocketAddr := fun cs => do
  let (_, cs) ← readGivenChar '[' cs
  let (bits, cs) ← readIpv6Addr cs
  let (scopeId, cs) := (readScopeId cs).getD (0, cs)
  let (_, cs) ← readGivenChar ']' cs
  let (port, cs) ← readPort cs
  some (.v6 bits port 0 scopeId, cs)

/-- `str::parse::<SocketAddr>`. -/
def parseSocketAddr (s : String) : Option SocketAddr :=
  match (readSocketAddrV4 s.toList).or (readSocketAddrV6 s.toList) with
  | some (address, []) => some address
  | _ => none

/-! ### What is read -/

/-- Everything a reader takes off a text meets `p`. -/
def Reads {α : Type} (p : Char → Prop) (r : Reader α) : Prop :=
  ∀ cs a rest, r cs = some (a, rest) → ∃ taken, cs = taken ++ rest ∧ ∀ c ∈ taken, p c

section Reads
variable {α : Type} {p : Char → Prop}

theorem readDigits_taken (radix : Nat) (hp : ∀ c d, toDigit radix c = some d → p c) (value count : Nat)
    (cs : List Char) : ∃ taken, cs = taken ++ (readDigits radix value count cs).2.2 ∧ ∀ c ∈ taken, p c := by
  induction cs generalizing value count with
  | nil => exact ⟨[], rfl, nofun⟩
  | cons c cs ih =>
    cases hc : toDigit radix c with
    | none =>
      rw [readDigits, hc]
      exact ⟨[], rfl, nofun⟩
    | some d =>
      obtain ⟨taken, htaken, hall⟩ := ih (value * radix + d) (count + 1)
      refine ⟨c :: taken, ?_, ?_⟩
      · rw [readDigits, hc]
        exact congrArg (c :: ·) htaken
      · exact List.forall_mem_cons.mpr ⟨hp c d hc, hall⟩

theorem reads_readNumber {radix : Nat} (hp : ∀ c d, toDigit radix c = some d → p c)
    (maxDigits width : Nat) (zero : Bool) : Reads p (readNumber radix maxDigits width zero) := by
  intro cs a rest h
  simp only [readNumber] at h
  split_ifs at h
  obtain ⟨-, rfl⟩ := Prod.mk.inj (Option.some.inj h)
  exact readDigits_taken radix hp 0 0 cs

theorem reads_readGivenChar {c : Char} (hc : p c) : Reads p (readGivenChar c) := by
  intro cs a rest h
  cases cs with
  | nil => cases h
  | cons d cs =>
    simp only [readGivenChar] at h
    split_ifs at h with hd
    obtain ⟨-, rfl⟩ := Prod.mk.inj (Option.some.inj h)
    obtain rfl := eq_of_beq hd
    exact ⟨[d], rfl, List.forall_mem_singleton.mpr hc⟩

/-- What is taken in two parts. -/
theorem taken_append {cs mid rest : List Char} (hfirst : ∃ taken, cs = taken ++ mid ∧ ∀ c ∈ taken, p c)
    (hsecond : ∃ taken, mid = taken ++ rest ∧ ∀ c ∈ taken, p c) : ∃ taken, cs = taken ++ rest ∧ ∀ c ∈ taken, p c := by
  obtain ⟨first, rfl, hp⟩ := hfirst
  obtain ⟨second, rfl, hp'⟩ := hsecond
  refine ⟨first ++ second, (List.append_assoc ..).symm, ?_⟩
  intro c hc
  rcases List.mem_append.mp hc with hc | hc
  · exact hp c hc
  · exact hp' c hc

/-- One reader after another. -/
theorem Reads.bind {β : Type} {r : Reader α} {k : α → Reader β} (hr : Reads p r) (hk : ∀ a, Reads p (k a)) :
    Reads p fun cs => (r cs).bind fun (a, cs) => k a cs := by
  intro cs b rest h
  obtain ⟨⟨a, mid⟩, ha, hb⟩ := Option.bind_eq_some_iff.mp h
  exact taken_append (hr cs a mid ha) (hk a mid b rest hb)

theorem reads_some (a : α) : Reads p fun cs => some (a, cs) := by
  intro cs b rest h
  obtain ⟨-, rfl⟩ := Prod.mk.inj (Option.some.inj h)
  exact ⟨[], rfl, nofun⟩

theorem Reads.separated {r : Reader α} (hr : Reads p r) {sep : Char} (hsep : p sep) (index : Nat) :
    Reads p (readSeparator sep index r) := by
  by_cases hi : index > 0
  · have h := (reads_readGivenChar hsep).bind fun _ => hr
    intro cs a rest ha
    rw [readSeparator, if_pos hi] at ha
    exact h cs a rest ha
  · intro cs a rest ha
    rw [readSeparator, if_neg hi] at ha
    exact hr cs a rest ha

end Reads

/-- A digit or a dot. -/
def Dotted (c : Char) : Prop := (toDigit 10 c).isSome ∨ c = '.'

/-- A hexadecimal digit, a dot or a colon. -/
def Literal (c : Char) : Prop := (toDigit 16 c).isSome ∨ c = '.' ∨ c = ':'

theorem toDigit_hex {c : Char} {d : Nat} (h : toDigit 10 c = some d) : (toDigit 16 c).isSome := by
  obtain ⟨hvalue, hd⟩ := Option.filter_eq_some_iff.mp h
  have hlt : d < 16 := by
    have : d < 10 := by simpa using hd
    omega
  have hhex : toDigit 16 c = some d := Option.filter_eq_some_iff.mpr ⟨hvalue, by simpa using hlt⟩
  rw [hhex]
  rfl

theorem Dotted.literal {c : Char} (h : Dotted c) : Literal c := by
  rcases h with h | rfl
  · obtain ⟨d, hd⟩ := Option.isSome_iff_exists.mp h
    exact .inl (toDigit_hex hd)
  · exact .inr (.inl rfl)

theorem Reads.mono {α : Type} {p q : Char → Prop} {r : Reader α} (hr : Reads p r) (h : ∀ c, p c → q c) :
    Reads q r := by
  intro cs a rest ha
  obtain ⟨taken, htaken, hp⟩ := hr cs a rest ha
  exact ⟨taken, htaken, fun c hc => h c (hp c hc)⟩

theorem reads_readIpv4Addr : Reads Dotted readIpv4Addr := by
  have hnumber : Reads Dotted (readNumber 10 3 8 false) := by
    apply reads_readNumber
    intro c d h
    exact .inl (by simp [h])
  have hoctet (i : Nat) := hnumber.separated (.inr rfl : Dotted '.') i
  exact (hoctet 0).bind fun a => (hoctet 1).bind fun b => (hoctet 2).bind fun c => (hoctet 3).bind fun d =>
    reads_some (a ++ b ++ c ++ d)

theorem readGroups_taken (room index : Nat) (cs : List Char) :
    ∃ taken, cs = taken ++ (readGroups room index cs).2.2 ∧ ∀ c ∈ taken, Literal c := by
  have hcolon : Literal ':' := .inr (.inr rfl)
  have hgroup : Reads Literal (readNumber 16 4 16 true) := by
    apply reads_readNumber
    intro c d h
    exact .inl (by simp [h])
  have hembedded := reads_readIpv4Addr.mono fun _ => Dotted.literal
  induction room generalizing index cs with
  | zero => exact ⟨[], rfl, nofun⟩
  | succ room ih =>
    rw [readGroups]
    cases hv4 : (if room > 0 then readSeparator ':' index readIpv4Addr cs else none) with
    | some found =>
      obtain ⟨bits, rest⟩ := found
      split_ifs at hv4
      exact hembedded.separated hcolon index cs bits rest hv4
    | none =>
      cases hread : readSeparator ':' index (readNumber 16 4 16 true) cs with
      | none => exact ⟨[], rfl, nofun⟩
      | some found =>
        obtain ⟨group, rest⟩ := found
        exact taken_append (hgroup.separated hcolon index cs group rest hread) (ih (index + 1) rest)

theorem reads_readCompressed (head : List (BitVec 16)) : Reads Literal (readCompressed head) := by
  have hcolon : Reads Literal (readGivenChar ':') := reads_readGivenChar (.inr (.inr rfl))
  have htail : Reads Literal (readTail head) := by
    intro cs a rest h
    obtain ⟨-, rfl⟩ := Prod.mk.inj (Option.some.inj h)
    exact readGroups_taken ..
  exact hcolon.bind fun _ => hcolon.bind fun _ => htail

theorem reads_readIpv6Addr : Reads Literal readIpv6Addr := by
  intro cs a rest h
  have hgroups := readGroups_taken 8 0 cs
  simp only [readIpv6Addr] at h
  split_ifs at h with hall hv4
  · obtain ⟨-, rfl⟩ := Prod.mk.inj (Option.some.inj h)
    exact hgroups
  · exact taken_append hgroups (reads_readCompressed _ _ _ _ h)

/-- An address is written with hexadecimal digits, dots and colons; one of the fourth
version with decimal digits and dots. -/
theorem parseIp_text {s : String} {ip : IpAddr} (h : parseIp s = some ip) :
    (∀ c ∈ s.toList, Literal c) ∧ ∀ bits, ip = .v4 bits → ∀ c ∈ s.toList, Dotted c := by
  have hread : readIpAddr s.toList = some (ip, []) := by
    unfold parseIp at h
    split at h
    · rename_i found hfound
      rw [← Option.some.inj h]
      exact hfound
    · cases h
  rw [readIpAddr] at hread
  split at hread
  · rename_i bits rest hv4
    obtain ⟨rfl, rfl⟩ := Prod.mk.inj (Option.some.inj hread)
    obtain ⟨taken, htaken, hp⟩ := reads_readIpv4Addr _ _ _ hv4
    rw [htaken, List.append_nil]
    exact ⟨fun c hc => (hp c hc).literal, fun _ _ => hp⟩
  · obtain ⟨⟨bits, rest⟩, hv6, hpair⟩ := Option.map_eq_some_iff.mp hread
    obtain ⟨rfl, rfl⟩ := Prod.mk.inj hpair
    obtain ⟨taken, htaken, hp⟩ := reads_readIpv6Addr _ _ _ hv6
    rw [htaken, List.append_nil]
    exact ⟨hp, nofun⟩

end Aether.Rust
