import Aether.Socks.UdpAssociate

/-! The header in front of a datagram that goes through a SOCKS5 relay.

`upstream.rs` writes a header in front of what it sends and takes it off what comes
back; `build_udp_reply` of `socks.rs` writes the same header. An address is its octets
in network order, so a reader that shifts them in one after the other has it back
(`foldl_octets`, `ipv4_octets`), and a port is its two bytes, the high one in front
(`port_bytes`). -/
namespace Aether.Upstream
open Socks.Udp
open Rust (IpAddr SocketAddr ofOctets)

/-- `u16::from_be_bytes`. -/
def fromBeBytes (hi lo : UInt8) : UInt16 := hi.toUInt16 <<< 8 ||| lo.toUInt16

/-- `u16::to_be_bytes`. -/
def toBeBytes (port : UInt16) : List UInt8 := [(port >>> 8).toUInt8, port.toUInt8]

/-- `encode_address`. -/
def encodeAddress (target : SocketAddr) : List UInt8 := ipOctets target.ip ++ toBeBytes target.port

/-- `encode_udp_header`. -/
def encodeUdpHeader (target : SocketAddr) : List UInt8 := ([0x00, 0x00, 0x00] : List UInt8) ++ encodeAddress target

/-- `decode_udp_header`: the address and the length of the header. -/
def decodeUdpHeader (buf : List UInt8) : Option (SocketAddr × Nat) :=
  if buf.length < 4 || buf.getD 2 0 != 0 then none
  else
    match buf.getD 3 0 with
    | 0x01 =>
      if buf.length < 10 then none
      else
        let ip := Rust.ipv4 (buf.getD 4 0) (buf.getD 5 0) (buf.getD 6 0) (buf.getD 7 0)
        some (.new (.v4 ip) (fromBeBytes (buf.getD 8 0) (buf.getD 9 0)), 10)
    | 0x04 =>
      if buf.length < 22 then none
      else
        let octets := (buf.take 20).drop 4
        some (.new (.v6 (ofOctets octets)) (fromBeBytes (buf.getD 20 0) (buf.getD 21 0)), 22)
    | 0x03 =>
      if buf.length < 5 then none
      else
        let length := (buf.getD 4 0).toNat
        let finish := 5 + length
        if buf.length < finish + 2 then none
        else
          let port := fromBeBytes (buf.getD finish 0) (buf.getD (finish + 1) 0)
          (Rust.fromUtf8 ((buf.take finish).drop 5)).bind fun name =>
            (Rust.parseIp name).map fun ip => (.new ip port, finish + 2)
    | _ => none

/-! ### Octets -/

/-- The octets of an address, the first in front. -/
def octets : IpAddr → List UInt8
  | .v4 bits => (List.range 4).map fun i => ⟨bits.extractLsb' (8 * (3 - i)) 8⟩
  | .v6 bits => (List.range 16).map fun i => ⟨bits.extractLsb' (8 * (15 - i)) 8⟩

theorem ipOctets_eq (ip : IpAddr) :
    ipOctets ip = (if (octets ip).length == 4 then 0x01 else 0x04) :: octets ip := by
  cases ip <;> rfl

@[simp] theorem length_octets_v6 (bits : BitVec 128) : (octets (.v6 bits)).length = 16 := rfl

/-- Shifting in the next octet. -/
theorem shift_octet (bits : BitVec 128) (k : Nat) :
    ((bits >>> (k + 8)) <<< 8) ||| (bits.extractLsb' k 8).setWidth 128 = bits >>> k := by
  apply BitVec.eq_of_getLsbD_eq
  intro i hi
  simp only [BitVec.getLsbD_or, BitVec.getLsbD_shiftLeft, BitVec.getLsbD_ushiftRight, BitVec.getLsbD_setWidth,
    BitVec.getLsbD_extractLsb', hi, decide_true, Bool.true_and]
  by_cases h : i < 8
  · simp [h]
  · have hindex : k + 8 + (i - 8) = k + i := by omega
    simp [h, hindex]

theorem foldl_octets (bits : BitVec 128) : ofOctets (octets (.v6 bits)) = bits := by
  -- after `n` octets the accumulator holds the leading `8 * n` bits
  have hprefix : ∀ n ≤ 16, ofOctets ((List.range n).map fun i => ⟨bits.extractLsb' (8 * (15 - i)) 8⟩) =
      bits >>> (8 * (16 - n)) := by
    intro n
    induction n with
    | zero =>
      intro _
      apply BitVec.eq_of_toNat_eq
      have hzero : bits.toNat / 2 ^ 128 = 0 := Nat.div_eq_of_lt bits.isLt
      simpa [ofOctets, Nat.shiftRight_eq_div_pow] using hzero.symm
    | succ n ih =>
      intro hn
      have hwidth : 8 * (16 - n) = 8 * (15 - n) + 8 := by omega
      have hlast : 8 * (16 - (n + 1)) = 8 * (15 - n) := by omega
      rw [List.range_succ, List.map_append, ofOctets, List.foldl_append, ← ofOctets, ih (by omega), hwidth, hlast]
      exact shift_octet bits (8 * (15 - n))
  have hall := hprefix 16 (Nat.le_refl 16)
  rw [Nat.sub_self, Nat.mul_zero, BitVec.ushiftRight_zero] at hall
  exact hall

theorem ipv4_octets (bits : BitVec 32) :
    Rust.ipv4 ⟨bits.extractLsb' 24 8⟩ ⟨bits.extractLsb' 16 8⟩ ⟨bits.extractLsb' 8 8⟩ ⟨bits.extractLsb' 0 8⟩ = bits := by
  apply BitVec.eq_of_getLsbD_eq
  intro i hi
  have hcases : i < 8 ∨ (8 ≤ i ∧ i < 16) ∨ (16 ≤ i ∧ i < 24) ∨ 24 ≤ i := by omega
  have hi' : i < 32 := hi
  rw [Rust.ipv4]
  simp only [BitVec.getLsbD_append, BitVec.getLsbD_extractLsb']
  obtain h | h | h | h := hcases
  · simp [h]
  · have h1 : ¬ i < 8 := by omega
    have h2 : i - 8 < 8 := by omega
    have hindex : 8 + (i - 8) = i := by omega
    simp [h1, h2, hindex]
  · have h1 : ¬ i < 8 := by omega
    have h2 : ¬ i - 8 < 8 := by omega
    have h3 : i - 8 - 8 < 8 := by omega
    have hindex : 16 + (i - 8 - 8) = i := by omega
    simp [h1, h2, h3, hindex]
  · have h1 : ¬ i < 8 := by omega
    have h2 : ¬ i - 8 < 8 := by omega
    have h3 : ¬ i - 8 - 8 < 8 := by omega
    have h4 : i - 8 - 8 - 8 < 8 := by omega
    have hindex : 24 + (i - 8 - 8 - 8) = i := by omega
    simp [h1, h2, h3, h4, hindex]

theorem toNat_fromBeBytes (hi lo : UInt8) : (fromBeBytes hi lo).toNat = hi.toNat * 256 + lo.toNat := by
  have hhi := hi.toNat_lt
  have hlo := lo.toNat_lt
  have hsmall : hi.toNat <<< 8 % 65536 = hi.toNat <<< 8 := by
    rw [Nat.shiftLeft_eq]
    omega
  rw [fromBeBytes, UInt16.toNat_or, UInt16.toNat_shiftLeft, UInt8.toNat_toUInt16, UInt8.toNat_toUInt16]
  show hi.toNat <<< 8 % 65536 ||| lo.toNat = _
  rw [hsmall, ← Nat.shiftLeft_add_eq_or_of_lt hlo, Nat.shiftLeft_eq]

theorem port_bytes (port : UInt16) : fromBeBytes (port >>> 8).toUInt8 port.toUInt8 = port := by
  apply UInt16.toNat_inj.mp
  have hport := port.toNat_lt
  have hhi : (port >>> 8).toUInt8.toNat = port.toNat / 256 := by
    rw [UInt16.toNat_toUInt8, UInt16.toNat_shiftRight]
    show port.toNat >>> 8 % 256 = _
    rw [Nat.shiftRight_eq_div_pow]
    omega
  rw [toNat_fromBeBytes, hhi, UInt16.toNat_toUInt8]
  omega

/-! ### Reading the header back -/

/-- `build_udp_reply` writes the same header. -/
theorem buildUdpReply_eq (src : SocketAddr) (data : List UInt8) :
    buildUdpReply src data = encodeUdpHeader src ++ data := by
  rw [buildUdpReply, encodeUdpHeader, encodeAddress, toBeBytes]
  simp only [List.append_assoc]

/-- The header is read back, and its length with it. -/
theorem decodeUdpHeader_encodeUdpHeader (src : SocketAddr) (payload : List UInt8) :
    decodeUdpHeader (encodeUdpHeader src ++ payload) = some (.new src.ip src.port, (encodeUdpHeader src).length) := by
  have h2 : (encodeUdpHeader src ++ payload).getD 2 0 = 0 := rfl
  cases src with
  | v4 bits port =>
    have hlen : (encodeUdpHeader (.v4 bits port) ++ payload).length = 10 + payload.length := List.length_append
    rw [decodeUdpHeader, hlen, h2, decide_eq_false (by omega)]
    have h3 : (encodeUdpHeader (.v4 bits port) ++ payload).getD 3 0 = 0x01 := rfl
    have hip : Rust.ipv4 ((encodeUdpHeader (.v4 bits port) ++ payload).getD 4 0)
        ((encodeUdpHeader (.v4 bits port) ++ payload).getD 5 0) ((encodeUdpHeader (.v4 bits port) ++ payload).getD 6 0)
        ((encodeUdpHeader (.v4 bits port) ++ payload).getD 7 0) = bits := ipv4_octets bits
    have hport : fromBeBytes ((encodeUdpHeader (.v4 bits port) ++ payload).getD 8 0)
        ((encodeUdpHeader (.v4 bits port) ++ payload).getD 9 0) = port := port_bytes port
    simp only [h3, hip, hport]
    rw [if_neg (by decide), if_neg (by omega)]
    rfl
  | v6 bits port flowinfo scopeId =>
    have hlen : (encodeUdpHeader (.v6 bits port flowinfo scopeId) ++ payload).length = 22 + payload.length :=
      List.length_append
    rw [decodeUdpHeader, hlen, h2, decide_eq_false (by omega)]
    have h3 : (encodeUdpHeader (.v6 bits port flowinfo scopeId) ++ payload).getD 3 0 = 0x04 := rfl
    have hip : ofOctets (((encodeUdpHeader (.v6 bits port flowinfo scopeId) ++ payload).take 20).drop 4) = bits :=
      foldl_octets bits
    have hport : fromBeBytes ((encodeUdpHeader (.v6 bits port flowinfo scopeId) ++ payload).getD 20 0)
        ((encodeUdpHeader (.v6 bits port flowinfo scopeId) ++ payload).getD 21 0) = port := port_bytes port
    simp only [h3, hip, hport]
    rw [if_neg (by decide), if_neg (by omega)]
    rfl

end Aether.Upstream
