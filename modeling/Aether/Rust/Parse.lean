import Aether.Rust.Net
import Aether.Rust.Text

/-! `str::parse` of bare addresses and of unsigned numbers of any width. -/
namespace Aether.Rust

/-- `str::parse::<Ipv4Addr>`: the whole text is one address. -/
def parseIpv4 (s : String) : Option (BitVec 32) :=
  match readIpv4Addr s.toList with
  | some (bits, []) => some bits
  | _ => none

/-- `str::parse::<Ipv6Addr>`. -/
def parseIpv6 (s : String) : Option (BitVec 128) :=
  match readIpv6Addr s.toList with
  | some (bits, []) => some bits
  | _ => none

/-- `str::parse` of an unsigned number of `w` bits: decimal digits after an optional plus sign. -/
def parseUnsigned (w : Nat) (s : String) : Option Nat :=
  let digits := match s.toList with
    | '+' :: cs => cs
    | cs => cs
  (decimalValue digits).filter (· < 2 ^ w)

/-- The `Display` of an unsigned number. -/
def showUnsigned (n : Nat) : String := String.ofList (Nat.toDigits 10 n)

end Aether.Rust
