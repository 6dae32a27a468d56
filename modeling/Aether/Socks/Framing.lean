import Aether.Upstream.Datagram
import Aether.Kotlin.Text

/-! One wire format in two programs.

The bridge writes SOCKS5 requests and datagram headers that the engine reads, and the
engine writes datagrams that the bridge reads. A name is written with its length in one
byte, and no writer looks whether it fits: a longer one is cut at its length modulo 256,
and what is left of it is read as the port and as the beginning of the payload. The
sharing bridge also writes the name in Latin-1, which the engine reads as UTF-8.

`request_recovered_iff`, `header_recovered_iff` and `shared_recovered_iff` say exactly which
targets come back. In the other direction everything does. -/
namespace Aether.Socks.Framing
open Routing Udp Upstream
open Rust (IpAddr SocketAddr ofOctets toUtf8 fromUtf8Lossy)

/-! ### The writers of the bridge -/

/-- `Int.toByte`. -/
def toByte (n : Int32) : UInt8 := n.toInt8.toUInt8

/-- The two bytes of a port. -/
def portBytes (port : Int32) : List UInt8 := [toByte (port >>> 8), toByte (port &&& 0xFF)]

/-- What `socksRequest` and `socksUdpHeader` write behind their first three bytes. -/
def addressBytes (domain : Option String) (address : List UInt8) (port : Int32) : List UInt8 :=
  match domain with
  | some domain =>
    let db := toUtf8 domain
    ([0x03, UInt8.ofNat db.length] : List UInt8) ++ db ++ portBytes port
  | none => (if address.length == 4 then 0x01 else 0x04) :: (address ++ portBytes port)

/-- `socksRequest`. -/
def socksRequest (command : Int32) (domain : Option String) (address : List UInt8) (port : Int32) : List UInt8 :=
  ([0x05, toByte command, 0x00] : List UInt8) ++ addressBytes domain address port

/-- `socksUdpHeader`. -/
def socksUdpHeader (domain : Option String) (address : List UInt8) (port : Int32) : List UInt8 :=
  ([0x00, 0x00, 0x00] : List UInt8) ++ addressBytes domain address port

/-- A character in `ISO_8859_1`; one outside of it is a question mark. -/
def latin1 (c : Char) : UInt8 := if c.toNat < 256 then UInt8.ofNat c.toNat else 0x3F

/-- `String.toByteArray` in `ISO_8859_1`. -/
def toLatin1 (s : String) : List UInt8 := s.toList.map latin1

/-- The request that `ShareBridge.socksOpen` writes; a number written to the stream is its
low byte. -/
def socksOpen (host : String) (port : Int32) : List UInt8 :=
  let hostBytes := toLatin1 host
  ([0x05, 0x01, 0x00, 0x03, UInt8.ofNat hostBytes.length] : List UInt8) ++ hostBytes ++
    [toByte ((port >>> 8) &&& 0xFF), toByte (port &&& 0xFF)]

/-! ### The readers of the engine -/

/-- `read_target`, on the stream behind the address type. -/
def readTarget (atyp : UInt8) (stream : List UInt8) : Option (Target × UInt16 × List UInt8) :=
  match parseTarget atyp stream with
  | some (target, hi :: lo :: rest) => some (target, fromBeBytes hi lo, rest)
  | _ => none

/-- `handle_client` up to the target: the command, the target, its port and the rest of
the stream. -/
def handleClient : List UInt8 → Option (UInt8 × Target × UInt16 × List UInt8)
  | ver :: cmd :: _ :: atyp :: stream => if ver != 0x05 then none else (readTarget atyp stream).map (cmd, ·)
  | _ => none

/-! ### The reader of the bridge -/

/-- `InetAddress.getByAddress`: an address of the fourth version written as one of the
sixth is one of the fourth. -/
def getByAddress (addr : List UInt8) : Option IpAddr :=
  match addr with
  | [a, b, c, d] => some (.v4 (Rust.ipv4 a b c d))
  | addr => if addr.length == 16 then some (normalizeIp (.v6 (ofOctets addr))) else none

/-- `getShort`. -/
def getShort (p : List UInt8) (o : Nat) : Nat := (p.getD o 0).toNat * 256 + (p.getD (o + 1) 0).toNat

/-- `copyOfRange`. -/
def copyOfRange (p : List UInt8) (start finish : Nat) : List UInt8 := (p.take finish).drop start

/-- `parseSocksUdp`; `getByName` is what the resolver finds for the bytes of a name. -/
def parseSocksUdp (getByName : List UInt8 → Option IpAddr) (data : List UInt8) (len : Nat) :
    Option ((IpAddr × Nat) × List UInt8) :=
  if len < 4 then none
  else
    match data.getD 3 0 with
    | 0x01 =>
      if len < 10 then none
      else (getByAddress (copyOfRange data 4 8)).map fun address =>
        ((address, getShort data 8), copyOfRange data 10 len)
    | 0x04 =>
      if len < 22 then none
      else (getByAddress (copyOfRange data 4 20)).map fun address =>
        ((address, getShort data 20), copyOfRange data 22 len)
    | 0x03 =>
      if len < 5 then none
      else
        let domainLength := (data.getD 4 0).toNat
        if len < 5 + domainLength + 2 then none
        else (getByName (copyOfRange data 5 (5 + domainLength))).map fun address =>
          ((address, getShort data (5 + domainLength)), copyOfRange data (5 + domainLength + 2) len)
    | _ => none

/-! ### Ports -/

/-- A number that a port can be. -/
def IsPort (port : Int32) : Prop := 0 ≤ port.toInt ∧ port.toInt < 65536

instance (port : Int32) : Decidable (IsPort port) := inferInstanceAs (Decidable (_ ∧ _))

theorem toNat_toByte (n : Int32) : (toByte n).toNat = n.toBitVec.toNat % 256 := by
  show (n.toBitVec.signExtend 8).toNat = _
  rw [BitVec.signExtend_eq_setWidth_of_le _ (by decide), BitVec.toNat_setWidth]

theorem toNat_toByte_high (port : Int32) : (toByte (port >>> 8)).toNat = port.toBitVec.toNat / 256 % 256 := by
  have hbits : (port.toBitVec.sshiftRight 8).setWidth 8 = port.toBitVec.extractLsb' 8 8 := by
    apply BitVec.eq_of_getLsbD_eq
    intro i hi
    have hin : 8 + i < 32 := by omega
    simp [BitVec.getLsbD_sshiftRight, hi, hin]
    omega
  show ((port.toBitVec.sshiftRight 8).signExtend 8).toNat = _
  rw [BitVec.signExtend_eq_setWidth_of_le _ (by decide), hbits, BitVec.extractLsb'_toNat, Nat.shiftRight_eq_div_pow]

theorem toNat_toByte_low (n : Int32) : (toByte (n &&& 0xFF)).toNat = n.toBitVec.toNat % 256 := by
  have hmask : (0xFF : BitVec 32).toNat = 2 ^ 8 - 1 := rfl
  rw [toNat_toByte]
  show (n.toBitVec &&& 0xFF).toNat % 256 = _
  rw [BitVec.toNat_and, hmask, Nat.and_two_pow_sub_one_eq_mod, Nat.mod_mod]

theorem toByte_masked (n : Int32) : toByte (n &&& 0xFF) = toByte n := by
  apply UInt8.toNat_inj.mp
  rw [toNat_toByte_low, toNat_toByte]

/-- The port that is read is the one that was written, modulo 2 to the 16. -/
theorem port_written (port : Int32) :
    ((fromBeBytes (toByte (port >>> 8)) (toByte (port &&& 0xFF))).toNat : Int) = port.toInt % 65536 := by
  have hbits : port.toInt = Int.bmod port.toBitVec.toNat (2 ^ 32) := port.toBitVec.toInt_eq_toNat_bmod
  have hlt := port.toBitVec.isLt
  rw [toNat_fromBeBytes, toNat_toByte_high, toNat_toByte_low, hbits, Int.bmod_def]
  split <;> push_cast <;> omega

theorem port_recovered_iff (port : Int32) :
    ((fromBeBytes (toByte (port >>> 8)) (toByte (port &&& 0xFF))).toNat : Int) = port.toInt ↔ IsPort port := by
  rw [port_written, IsPort]
  constructor <;> intro h <;> omega

/-! ### Targets -/

/-- What was read is the target, the port and the payload that were written. -/
def Recovered (read : Option (Target × UInt16 × List UInt8)) (target : Target) (port : Int32)
    (payload : List UInt8) : Prop :=
  ∃ p : UInt16, read = some (target, p, payload) ∧ (p.toNat : Int) = port.toInt

theorem recovered_some {target' : Target} {p : UInt16} {rest : List UInt8} {target : Target} {port : Int32}
    {payload : List UInt8} :
    Recovered (some (target', p, rest)) target port payload ↔
      target' = target ∧ rest = payload ∧ (p.toNat : Int) = port.toInt := by
  constructor
  · intro h
    obtain ⟨q, hread, hq⟩ := h
    cases hread
    exact ⟨rfl, rfl, hq⟩
  · intro h
    obtain ⟨rfl, rfl, hp⟩ := h
    exact ⟨p, rfl, hp⟩

theorem handleClient_cons (cmd rsv atyp : UInt8) (stream : List UInt8) :
    handleClient (0x05 :: cmd :: rsv :: atyp :: stream) = (readTarget atyp stream).map (cmd, ·) := rfl

theorem parseTarget_v6 {buf : List UInt8} (h : 16 ≤ buf.length) :
    parseTarget 0x04 buf = some (.ip (.v6 (ofOctets (buf.take 16))), buf.drop 16) := by
  rw [parseTarget, if_neg (by omega), ofOctets]

/-- An address is read back. -/
theorem readTarget_ip (ip : IpAddr) (hi lo : UInt8) (rest : List UInt8) :
    readTarget (if (octets ip).length == 4 then 0x01 else 0x04) (octets ip ++ hi :: lo :: rest) =
      some (.ip ip, fromBeBytes hi lo, rest) := by
  cases ip with
  | v4 bits =>
    show some (Target.ip (.v4 (Rust.ipv4 _ _ _ _)), fromBeBytes hi lo, rest) = _
    rw [ipv4_octets]
  | v6 bits =>
    have htake : (octets (.v6 bits) ++ hi :: lo :: rest).take 16 = octets (.v6 bits) := rfl
    have hdrop : (octets (.v6 bits) ++ hi :: lo :: rest).drop 16 = hi :: lo :: rest := rfl
    have hlen : 16 ≤ (octets (.v6 bits) ++ hi :: lo :: rest).length := by
      rw [List.length_append, length_octets_v6]
      omega
    have hparse : parseTarget 0x04 (octets (.v6 bits) ++ hi :: lo :: rest) =
        some (.ip (.v6 (ofOctets (octets (.v6 bits)))), hi :: lo :: rest) := by
      rw [parseTarget_v6 hlen, htake, hdrop]
    show (match parseTarget 0x04 (octets (.v6 bits) ++ hi :: lo :: rest) with
      | some (target, hi :: lo :: rest) => some (target, fromBeBytes hi lo, rest)
      | _ => none) = _
    rw [hparse, foldl_octets]

/-- A name with its length in front, as long as the length fits its byte. -/
theorem readTarget_name {db : List UInt8} (h : db.length ≤ 255) (hi lo : UInt8) (rest : List UInt8) :
    readTarget 0x03 (UInt8.ofNat db.length :: (db ++ hi :: lo :: rest)) =
      some (.domain (fromUtf8Lossy db), fromBeBytes hi lo, rest) := by
  have hlen : (UInt8.ofNat db.length).toNat = db.length := by
    rw [UInt8.toNat_ofNat']
    omega
  have hparse : parseTarget 0x03 (UInt8.ofNat db.length :: (db ++ hi :: lo :: rest)) =
      some (.domain (fromUtf8Lossy db), hi :: lo :: rest) := by
    rw [parseTarget, hlen, if_neg (by simp), List.take_left, List.drop_left]
  rw [readTarget, hparse]

/-- What is left behind a name is as long as what is behind the length it was read with. -/
theorem length_of_readTarget {len : UInt8} {bytes rest : List UInt8} {target : Target} {p : UInt16}
    (h : readTarget 0x03 (len :: bytes) = some (target, p, rest)) : rest.length + 2 + len.toNat = bytes.length := by
  rw [readTarget, parseTarget] at h
  by_cases hlen : bytes.length < len.toNat
  · rw [if_pos hlen] at h
    cases h
  · rw [if_neg hlen] at h
    have hdrop : (bytes.drop len.toNat).length = bytes.length - len.toNat := List.length_drop
    generalize htail : bytes.drop len.toNat = tail at h hdrop
    match tail, h with
    | hi :: lo :: rest', h =>
      cases h
      rw [List.length_cons, List.length_cons] at hdrop
      omega

/-- A name comes back exactly if its length fits, its bytes are its encoding and the port
is one. -/
theorem name_recovered_iff (db : List UInt8) (name : String) (port : Int32) (payload : List UInt8) :
    Recovered (readTarget 0x03 (UInt8.ofNat db.length :: (db ++ portBytes port ++ payload)))
      (.domain name) port payload ↔
      db.length ≤ 255 ∧ fromUtf8Lossy db = name ∧ IsPort port := by
  have hbytes : db ++ portBytes port ++ payload =
      db ++ toByte (port >>> 8) :: toByte (port &&& 0xFF) :: payload := by
    rw [portBytes, List.append_assoc]
    rfl
  rw [hbytes]
  by_cases h : db.length ≤ 255
  · rw [readTarget_name h, recovered_some, port_recovered_iff, Target.domain.injEq]
    tauto
  · -- the rest of the name is part of what is left
    constructor
    · intro hrecovered
      obtain ⟨p, hread, -⟩ := hrecovered
      have hrest := length_of_readTarget hread
      rw [List.length_append, List.length_cons, List.length_cons, UInt8.toNat_ofNat'] at hrest
      omega
    · intro hfits
      exact absurd hfits.1 h

theorem ip_recovered_iff (ip : IpAddr) (port : Int32) (payload : List UInt8) :
    Recovered (readTarget (if (octets ip).length == 4 then 0x01 else 0x04) (octets ip ++ portBytes port ++ payload))
      (.ip ip) port payload ↔ IsPort port := by
  have hbytes : octets ip ++ portBytes port ++ payload =
      octets ip ++ toByte (port >>> 8) :: toByte (port &&& 0xFF) :: payload := by
    rw [portBytes, List.append_assoc]
    rfl
  rw [hbytes, readTarget_ip, recovered_some, port_recovered_iff]
  tauto

/-! ### From the bridge to the engine -/

/-- The target of a writer of the bridge: the name, if it has one. -/
def targetOf (domain : Option String) (ip : IpAddr) : Target :=
  match domain with
  | some domain => .domain domain
  | none => .ip ip

/-- The name, if there is one, has a length that fits a byte. -/
def Fits (domain : Option String) : Prop := ∀ d ∈ domain, (toUtf8 d).length ≤ 255

/-- What both writers of `SocksTunBridge` put behind their first three bytes. -/
theorem address_recovered_iff (domain : Option String) (ip : IpAddr) (port : Int32) (payload : List UInt8) :
    ∃ atyp rest, addressBytes domain (octets ip) port ++ payload = atyp :: rest ∧
      (Recovered (readTarget atyp rest) (targetOf domain ip) port payload ↔ Fits domain ∧ IsPort port) := by
  cases domain with
  | none =>
    refine ⟨_, _, rfl, ?_⟩
    have hfits : Fits none := by
      intro d hd
      cases hd
    rw [and_iff_right hfits]
    exact ip_recovered_iff ip port payload
  | some d =>
    refine ⟨_, _, rfl, ?_⟩
    have hfits : Fits (some d) ↔ (toUtf8 d).length ≤ 255 := by
      rw [Fits]
      simp
    rw [hfits]
    refine (name_recovered_iff (toUtf8 d) d port payload).trans ?_
    rw [Rust.fromUtf8Lossy_toUtf8]
    tauto

theorem recovered_map {read : Option (Target × UInt16 × List UInt8)} {cmd : UInt8} {target : Target} {port : Int32}
    {payload : List UInt8} :
    Recovered ((read.map (cmd, ·)).map (·.2)) target port payload ↔ Recovered read target port payload := by
  rw [Option.map_map]
  have hid : (fun x : UInt8 × Target × UInt16 × List UInt8 => x.2) ∘ (cmd, ·) = id := rfl
  rw [hid, Option.map_id, id]

/-- `socksRequest` against `handle_client` and `read_target`. -/
theorem request_recovered_iff (command : Int32) (domain : Option String) (ip : IpAddr) (port : Int32)
    (stream : List UInt8) :
    Recovered ((handleClient (socksRequest command domain (octets ip) port ++ stream)).map (·.2))
      (targetOf domain ip) port stream ↔ Fits domain ∧ IsPort port := by
  obtain ⟨atyp, rest, hbytes, hiff⟩ := address_recovered_iff domain ip port stream
  rw [socksRequest, List.append_assoc, hbytes]
  exact recovered_map.trans hiff

/-- `socksUdpHeader` against `parse_udp_request`. -/
theorem header_recovered_iff (domain : Option String) (ip : IpAddr) (port : Int32) (payload : List UInt8) :
    Recovered (parseUdpRequest (socksUdpHeader domain (octets ip) port ++ payload)) (targetOf domain ip) port payload ↔
      Fits domain ∧ IsPort port := by
  obtain ⟨atyp, rest, hbytes, hiff⟩ := address_recovered_iff domain ip port payload
  rw [socksUdpHeader, List.append_assoc, hbytes]
  exact hiff

/-! ### Latin-1 read as UTF-8 -/

theorem latin1_ascii {c : Char} (h : c.toNat < 128) : (latin1 c).toNat = c.toNat := by
  rw [latin1, if_pos (by omega), UInt8.toNat_ofNat']
  omega

/-- An ASCII byte that is written for a character is that character. -/
theorem latin1_back {c : Char} (h : latin1 c < 0x80) (hc : Char.ofNat (latin1 c).toNat = c) : c.toNat < 128 := by
  have hbyte : (latin1 c).toNat < 128 := UInt8.lt_iff_toNat_lt.mp h
  have hvalue : ∀ n < 128, (Char.ofNat n).toNat < 128 := by decide +kernel
  have hsmall := hvalue _ hbyte
  rwa [hc] at hsmall

/-- The replacement character is written as a question mark, and that is read as one. -/
theorem decodeChar_latin1_ne {c : Char} (hc : c = Char.ofNat 0xFFFD) (bytes : List UInt8) :
    (Rust.decodeChar (latin1 c) bytes).1 ≠ none := by
  have hbyte : latin1 c = 0x3F := by
    rw [hc]
    decide
  rw [hbyte]
  intro h
  cases h

theorem decodeUtf8_latin1_iff (cs : List Char) (fuel : Nat) (hfuel : cs.length ≤ fuel) :
    (Rust.decodeUtf8 fuel (cs.map latin1)).map (fun c => c.getD (Char.ofNat 0xFFFD)) = cs ↔ ∀ c ∈ cs,
      c.toNat < 128 := by
  induction cs generalizing fuel with
  | nil => cases fuel <;> simp [Rust.decodeUtf8]
  | cons c cs ih =>
    obtain ⟨fuel, rfl⟩ : ∃ n, fuel = n + 1 := ⟨fuel - 1, by rw [List.length_cons] at hfuel; omega⟩
    have hfuel' : cs.length ≤ fuel := by
      rw [List.length_cons] at hfuel
      omega
    rw [List.map_cons, Rust.decodeUtf8, List.map_cons, List.cons.injEq, List.forall_mem_cons]
    constructor
    · intro h
      obtain ⟨hhead, htail⟩ := h
      obtain ⟨rest, -, hdecoded⟩ | ⟨hlead, hdecoded⟩ | ⟨d, rest, -, hshort, hdecoded⟩ :=
        Rust.decodeChar_cases (latin1 c) (cs.map latin1)
      · have hnone : (Rust.decodeChar (latin1 c) (cs.map latin1)).1 = none := by rw [hdecoded]
        rw [hnone] at hhead
        exact absurd hnone (decodeChar_latin1_ne hhead.symm _)
      · rw [hdecoded] at hhead htail
        exact ⟨latin1_back hlead hhead, (ih fuel hfuel').mp htail⟩
      · -- a character of more than one byte leaves too few for the rest
        have hle := Rust.length_decodeUtf8_le fuel rest
        have hlen := congrArg List.length htail
        rw [hdecoded, List.length_map] at hlen
        rw [List.length_map] at hshort
        change (Rust.decodeUtf8 fuel rest).length = cs.length at hlen
        omega
    · intro h
      obtain ⟨hc, hcs⟩ := h
      have hbyte := latin1_ascii hc
      have hlead : latin1 c < 0x80 := UInt8.lt_iff_toNat_lt.mpr (by rw [hbyte]; exact hc)
      have hdecoded : Rust.decodeChar (latin1 c) (cs.map latin1) = (some c, cs.map latin1) := by
        rw [Rust.decodeChar.eq_def, if_pos hlead, hbyte, Char.ofNat_toNat]
      rw [hdecoded]
      exact ⟨rfl, (ih fuel hfuel').mpr hcs⟩

/-- What comes back is what was written exactly if it is ASCII. -/
theorem fromUtf8Lossy_toLatin1_iff (s : String) : fromUtf8Lossy (toLatin1 s) = s ↔ Rust.isAscii s = true := by
  have hlen : (toLatin1 s).length = s.toList.length := List.length_map ..
  rw [Rust.isAscii, List.all_eq_true, fromUtf8Lossy, ← String.toList_inj, String.toList_ofList, hlen, toLatin1,
    decodeUtf8_latin1_iff _ _ (Nat.le_refl _)]
  simp only [decide_eq_true_eq]

/-- A host of the sharing bridge comes back exactly if it is ASCII of at most 255
characters and the port is one. -/
theorem shared_recovered_iff (host : String) (port : Int32) (stream : List UInt8) :
    Recovered ((handleClient (socksOpen host port ++ stream)).map (·.2)) (.domain host) port stream ↔
      Rust.isAscii host = true ∧ host.toList.length ≤ 255 ∧ IsPort port := by
  have hlen : (toLatin1 host).length = host.toList.length := List.length_map ..
  have hbytes : socksOpen host port ++ stream =
      0x05 :: 0x01 :: 0x00 :: 0x03 :: UInt8.ofNat (toLatin1 host).length :: (toLatin1 host ++ portBytes port ++ stream)
        := by
    rw [socksOpen, toByte_masked (port >>> 8), portBytes]
    rfl
  rw [hbytes, handleClient_cons, recovered_map, name_recovered_iff, fromUtf8Lossy_toLatin1_iff, hlen]
  tauto

/-! ### From the engine to the bridge -/

theorem getByAddress_octets (ip : IpAddr) : getByAddress (octets ip) = some (normalizeIp ip) := by
  cases ip with
  | v4 bits =>
    show some (IpAddr.v4 (Rust.ipv4 _ _ _ _)) = _
    rw [ipv4_octets]
    rfl
  | v6 bits =>
    show some (normalizeIp (.v6 (ofOctets (octets (.v6 bits))))) = _
    rw [foldl_octets]

/-- Every datagram that the engine writes is read back by the bridge, whatever the buffer
holds behind it. -/
theorem parseSocksUdp_encodeUdpHeader (getByName : List UInt8 → Option IpAddr) (src : SocketAddr)
    (payload slack : List UInt8) :
    parseSocksUdp getByName (encodeUdpHeader src ++ payload ++ slack) (encodeUdpHeader src ++ payload).length =
      some ((normalizeIp src.ip, src.port.toNat), payload) := by
  have hrest : copyOfRange (encodeUdpHeader src ++ payload ++ slack) (encodeUdpHeader src).length
      (encodeUdpHeader src ++ payload).length = payload := by
    rw [copyOfRange, List.take_left, List.drop_left]
  have hport : (fromBeBytes (src.port >>> 8).toUInt8 src.port.toUInt8).toNat = src.port.toNat := by rw [port_bytes]
  rw [toNat_fromBeBytes] at hport
  cases src with
  | v4 bits port =>
    have hlen : (encodeUdpHeader (.v4 bits port) ++ payload).length = 10 + payload.length := List.length_append
    have hip : getByAddress (copyOfRange (encodeUdpHeader (.v4 bits port) ++ payload ++ slack) 4 8) =
        some (normalizeIp (.v4 bits)) := getByAddress_octets (.v4 bits)
    have h3 : (encodeUdpHeader (.v4 bits port) ++ payload ++ slack).getD 3 0 = 0x01 := rfl
    have hport' : getShort (encodeUdpHeader (.v4 bits port) ++ payload ++ slack) 8 = port.toNat := hport
    rw [parseSocksUdp, h3, if_neg (by omega)]
    dsimp only
    rw [if_neg (by omega), hip, hport']
    exact congrArg (fun p => some ((normalizeIp (.v4 bits), port.toNat), p)) hrest
  | v6 bits port flowinfo scopeId =>
    have hlen : (encodeUdpHeader (.v6 bits port flowinfo scopeId) ++ payload).length = 22 + payload.length :=
      List.length_append
    have hip : getByAddress (copyOfRange (encodeUdpHeader (.v6 bits port flowinfo scopeId) ++ payload ++ slack) 4 20) =
        some (normalizeIp (.v6 bits)) := getByAddress_octets (.v6 bits)
    have h3 : (encodeUdpHeader (.v6 bits port flowinfo scopeId) ++ payload ++ slack).getD 3 0 = 0x04 := rfl
    have hport' : getShort (encodeUdpHeader (.v6 bits port flowinfo scopeId) ++ payload ++ slack) 20 = port.toNat :=
      hport
    rw [parseSocksUdp, h3, if_neg (by omega)]
    dsimp only
    rw [if_neg (by omega), hip, hport']
    exact congrArg (fun p => some ((normalizeIp (.v6 bits), port.toNat), p)) hrest

/-! ### The two programs together -/

/-- What the bridge writes is read by the engine as the target, port and payload it was
given, exactly under the conditions stated; what the engine writes is read by the bridge
and by `decode_udp_header` always. -/
theorem framing_agrees_iff (command : Int32) (domain : Option String) (host : String) (ip : IpAddr) (port : Int32)
    (getByName : List UInt8 → Option IpAddr) (src : SocketAddr) (stream payload slack : List UInt8) :
    (Recovered ((handleClient (socksRequest command domain (octets ip) port ++ stream)).map (·.2))
        (targetOf domain ip) port stream ↔ Fits domain ∧ IsPort port) ∧
    (Recovered (parseUdpRequest (socksUdpHeader domain (octets ip) port ++ payload)) (targetOf domain ip) port payload ↔
        Fits domain ∧ IsPort port) ∧
    (Recovered ((handleClient (socksOpen host port ++ stream)).map (·.2)) (.domain host) port stream ↔
        Rust.isAscii host = true ∧ host.toList.length ≤ 255 ∧ IsPort port) ∧
    (parseSocksUdp getByName (buildUdpReply src payload ++ slack) (buildUdpReply src payload).length =
        some ((normalizeIp src.ip, src.port.toNat), payload) ∧
      parseSocksUdp getByName (encodeUdpHeader src ++ payload ++ slack) (encodeUdpHeader src ++ payload).length =
        some ((normalizeIp src.ip, src.port.toNat), payload)) ∧
    ∃ start, decodeUdpHeader (buildUdpReply src payload) = some (.new src.ip src.port, start) ∧
      decodeUdpHeader (encodeUdpHeader src ++ payload) = some (.new src.ip src.port, start) ∧
      (buildUdpReply src payload).drop start = payload ∧ (encodeUdpHeader src ++ payload).drop start = payload := by
  refine ⟨request_recovered_iff command domain ip port stream, header_recovered_iff domain ip port payload,
    shared_recovered_iff host port stream, ?_, (encodeUdpHeader src).length, ?_⟩
  · rw [buildUdpReply_eq]
    exact ⟨parseSocksUdp_encodeUdpHeader getByName src payload slack,
      parseSocksUdp_encodeUdpHeader getByName src payload slack⟩
  · rw [buildUdpReply_eq]
    have hdecoded := decodeUdpHeader_encodeUdpHeader src payload
    exact ⟨hdecoded, hdecoded, List.drop_left, List.drop_left⟩

/-- A name of `n` letters. -/
def letters (n : Nat) : String := String.ofList (List.replicate n 'a')

theorem length_letters (n : Nat) : (toUtf8 (letters n)).length = n := by
  have hletter : (String.utf8EncodeChar 'a').length = 1 := rfl
  rw [toUtf8, letters, String.toList_ofList, List.length_flatMap, List.map_replicate, hletter, List.sum_replicate]
  exact Nat.mul_one n

/-- A name of 256 letters is read as the empty one, and its letters as the port and the
beginning of the stream. -/
theorem long_name_not_recovered :
    ¬ Recovered ((handleClient (socksRequest 1 (some (letters 256)) (octets (.v4 (Rust.ipv4 93 184 216 34))) 443 ++
      [0x16, 0x03])).map (·.2)) (.domain (letters 256)) 443 [0x16, 0x03] := by
  intro h
  have hfits := ((request_recovered_iff 1 (some (letters 256)) (.v4 (Rust.ipv4 93 184 216 34)) 443 [0x16, 0x03]).mp h).1
  have hlength := hfits (letters 256) rfl
  rw [length_letters] at hlength
  omega

end Aether.Socks.Framing
