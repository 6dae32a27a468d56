import Aether.Bridge.Segments
import Aether.Octets.Checksum

/-! The packets that the bridge writes.

A packet is an array of zeros into which the fields are put one by one, the checksums last:
each is computed with its own field still zero. An address of the fourth version is an `Int`,
one of the sixth an array of sixteen octets.

Each builder is its header and its data one after the other (`buildTcp4_eq` and the lemmas
beside it); from there `Valid4` and `Valid6` follow, and what the packet reader finds in it. -/
namespace Aether.Bridge.Builder
open Octets (checksum fold wordSum)
open PacketReader (Effect Packet Read World feedTcp located processPacket processTcp processUdp)
open UidFilter (FlowKey copyOfRange getByte getShort)

/-! ### Writing fields -/

def setShort (b : List UInt8) (o v : Nat) : List UInt8 := (b.set o (UInt8.ofNat (v / 256))).set (o + 1) (UInt8.ofNat v)

def setLong (b : List UInt8) (o v : Nat) : List UInt8 :=
  (((b.set o (UInt8.ofNat (v / 2 ^ 24))).set (o + 1) (UInt8.ofNat (v / 2 ^ 16))).set (o + 2)
    (UInt8.ofNat (v / 2 ^ 8))).set (o + 3) (UInt8.ofNat v)

def setInt (b : List UInt8) (o : Nat) (v : BitVec 32) : List UInt8 := setLong b o v.toNat

/-- `System.arraycopy` of a whole array into a larger one. -/
def arraycopy (src dst : List UInt8) (pos : Nat) : List UInt8 := dst.take pos ++ src ++ dst.drop (pos + src.length)

/-! ### Checksums -/

/-- The words of `sumBytes`, from an offset on. -/
def sumWords (b : List UInt8) : (count i sum : Nat) → Nat
  | 0, _, sum => sum
  | n + 1, i, sum => sumWords b n (i + 2) (sum + getShort b i)

def sumBytes (b : List UInt8) (stop initial : Nat) : Nat :=
  let sum := sumWords b (stop / 2) 0 initial
  if stop % 2 ≠ 0 then sum + getByte b (stop - 1) * 256 else sum

/-- `foldChecksum`, the complement of the folded sum. -/
def foldChecksum (sum : Nat) : Nat := checksum sum

def calculateChecksum (b : List UInt8) : Nat := foldChecksum (sumBytes b 20 0)

def calculateTransportChecksum4 (srcIp dstIp : BitVec 32) (segment : List UInt8) (protocol : Nat) : Nat :=
  let sum := srcIp.toNat / 65536 + srcIp.toNat % 65536 + dstIp.toNat / 65536 + dstIp.toNat % 65536 + protocol +
    segment.length
  foldChecksum (sumBytes segment segment.length sum)

def calculateTransportChecksum6 (srcIp dstIp segment : List UInt8) (protocol : Nat) : Nat :=
  let sum := sumBytes dstIp 16 (sumBytes srcIp 16 0) + segment.length + protocol
  foldChecksum (sumBytes segment segment.length sum)

/-- A checksum of zero is sent as all ones. -/
def sent (ck : Nat) : Nat := if ck = 0 then 0xFFFF else ck

/-! ### Headers -/

/-- The header of the fourth version, its checksum included. -/
def ipv4Header (p : List UInt8) (total proto : Nat) (srcIp dstIp : BitVec 32) : List UInt8 :=
  let p := setShort (p.set 0 0x45) 2 total
  let p := (p.set 8 64).set 9 (UInt8.ofNat proto)
  let p := setInt (setInt p 12 srcIp) 16 dstIp
  setShort p 10 (calculateChecksum p)

/-- The header of the sixth version. -/
def ipv6Header (p : List UInt8) (length proto : Nat) (srcIp dstIp : List UInt8) : List UInt8 :=
  let p := setShort (p.set 0 0x60) 4 length
  let p := (p.set 6 (UInt8.ofNat proto)).set 7 64
  arraycopy dstIp (arraycopy srcIp p 8) 24

/-- The header of a segment at `o`, but for its checksum. -/
def tcpHeader (p : List UInt8) (o optLen srcPort dstPort seq ack flags : Nat) : List UInt8 :=
  let p := setShort (setShort p o srcPort) (o + 2) dstPort
  let p := setLong (setLong p (o + 4) seq) (o + 8) ack
  let p := (p.set (o + 12) (UInt8.ofNat ((5 + optLen / 4) * 16))).set (o + 13) (UInt8.ofNat flags)
  (p.set (o + 14) 0xFF).set (o + 15) 0xFF

/-- The option of a SYN-ACK: the maximal segment size. -/
def mssOption (p : List UInt8) (o mss : Nat) : List UInt8 :=
  setShort ((p.set (o + 20) 2).set (o + 21) 4) (o + 22) mss

/-- The header of a datagram at `o`, but for its checksum. -/
def udpHeader (p : List UInt8) (o srcPort dstPort udpLen : Nat) : List UInt8 :=
  setShort (setShort (setShort p o srcPort) (o + 2) dstPort) (o + 4) udpLen

/-! ### Builders -/

/-- `optLen`: a SYN-ACK has an option. -/
def optLength (flags : Nat) : Nat := if flags = 0x12 then 4 else 0

/-- `(mtu - overhead).coerceAtLeast(536)`. -/
def mss (mtu : Int) (overhead : Nat) : Nat := (max (mtu - overhead) 536).toNat

def buildTcp4 (mtu : Int) (srcIp dstIp : BitVec 32) (srcPort dstPort : Nat) (data : Option (List UInt8))
    (seq ack flags : Nat) : List UInt8 :=
  let optLen := optLength flags
  let total := 40 + optLen + (data.getD []).length
  let p := ipv4Header (List.replicate total 0) total 6 srcIp dstIp
  let p := tcpHeader p 20 optLen srcPort dstPort seq ack flags
  let p := if flags = 0x12 then mssOption p 20 (mss mtu 40) else p
  let p := arraycopy (data.getD []) p (40 + optLen)
  setShort p 36 (sent (calculateTransportChecksum4 srcIp dstIp (copyOfRange p 20 total) 6))

def buildTcp6 (mtu : Int) (srcIp dstIp : List UInt8) (srcPort dstPort : Nat) (data : Option (List UInt8))
    (seq ack flags : Nat) : List UInt8 :=
  let optLen := optLength flags
  let tcpLen := 20 + optLen + (data.getD []).length
  let total := 40 + tcpLen
  let p := ipv6Header (List.replicate total 0) tcpLen 6 srcIp dstIp
  let p := tcpHeader p 40 optLen srcPort dstPort seq ack flags
  let p := if flags = 0x12 then mssOption p 40 (mss mtu 60) else p
  let p := arraycopy (data.getD []) p (60 + optLen)
  setShort p 56 (sent (calculateTransportChecksum6 srcIp dstIp (copyOfRange p 40 total) 6))

def buildUdp4 (srcIp dstIp : BitVec 32) (srcPort dstPort : Nat) (data : List UInt8) : List UInt8 :=
  let udpLen := 8 + data.length
  let total := 20 + udpLen
  let p := ipv4Header (List.replicate total 0) total 17 srcIp dstIp
  let p := udpHeader p 20 srcPort dstPort udpLen
  let p := arraycopy data p 28
  setShort p 26 (sent (calculateTransportChecksum4 srcIp dstIp (copyOfRange p 20 total) 17))

def buildUdp6 (srcIp dstIp : List UInt8) (srcPort dstPort : Nat) (data : List UInt8) : List UInt8 :=
  let udpLen := 8 + data.length
  let total := 40 + udpLen
  let p := ipv6Header (List.replicate total 0) udpLen 17 srcIp dstIp
  let p := udpHeader p 40 srcPort dstPort udpLen
  let p := arraycopy data p 48
  setShort p 46 (sent (calculateTransportChecksum6 srcIp dstIp (copyOfRange p 40 total) 17))

/-! ### Layout -/

/-- A number of two octets. -/
def short (v : Nat) : List UInt8 := [UInt8.ofNat (v / 256), UInt8.ofNat v]

/-- A number of four octets. -/
def long (v : Nat) : List UInt8 :=
  [UInt8.ofNat (v / 2 ^ 24), UInt8.ofNat (v / 2 ^ 16), UInt8.ofNat (v / 2 ^ 8), UInt8.ofNat v]

/-- The first header, with a given checksum. -/
def ipv4Front (total proto : Nat) (srcIp dstIp : BitVec 32) (ck : Nat) : List UInt8 :=
  [0x45, 0] ++ short total ++ [0, 0, 0, 0, 64, UInt8.ofNat proto] ++ short ck ++ long srcIp.toNat ++ long dstIp.toNat

def ipv6Front (length proto : Nat) (srcIp dstIp : List UInt8) : List UInt8 :=
  [0x60, 0, 0, 0] ++ short length ++ [UInt8.ofNat proto, 64] ++ srcIp ++ dstIp

/-- The header of a segment in front of its checksum. -/
def segmentFront (srcPort dstPort seq ack words flags : Nat) : List UInt8 :=
  short srcPort ++ short dstPort ++ long seq ++ long ack ++ [UInt8.ofNat (words * 16), UInt8.ofNat flags, 0xFF, 0xFF]

/-- A segment with a given checksum. -/
def segment (srcPort dstPort seq ack words flags ck : Nat) (rest : List UInt8) : List UInt8 :=
  segmentFront srcPort dstPort seq ack words flags ++ (short ck ++ (0 :: 0 :: rest))

/-- A datagram with a given checksum. -/
def datagram (srcPort dstPort ck : Nat) (data : List UInt8) : List UInt8 :=
  (short srcPort ++ short dstPort ++ short (8 + data.length)) ++ (short ck ++ data)

theorem set_append_add (xs ys : List UInt8) (k : Nat) (v : UInt8) :
    (xs ++ ys).set (xs.length + k) v = xs ++ ys.set k v := by
  rw [List.set_append_right _ _ (Nat.le_add_right _ _), Nat.add_sub_cancel_left]

theorem setShort_append (xs ys : List UInt8) (k v : Nat) :
    setShort (xs ++ ys) (xs.length + k) v = xs ++ setShort ys k v := by
  rw [setShort, set_append_add, Nat.add_assoc, set_append_add, setShort]

theorem setLong_append (xs ys : List UInt8) (k v : Nat) :
    setLong (xs ++ ys) (xs.length + k) v = xs ++ setLong ys k v := by
  rw [setLong, set_append_add, Nat.add_assoc, set_append_add, Nat.add_assoc, set_append_add, Nat.add_assoc,
    set_append_add, setLong]

theorem ipv4Header_replicate (total proto : Nat) (srcIp dstIp : BitVec 32) (rest : List UInt8) :
    ipv4Header (List.replicate 20 0 ++ rest) total proto srcIp dstIp =
      ipv4Front total proto srcIp dstIp (calculateChecksum (ipv4Front total proto srcIp dstIp 0 ++ rest)) ++ rest := by
  have hfields : setInt (setInt (((setShort ((List.replicate 20 0 ++ rest).set 0 0x45) 2 total).set 8 64).set 9
      (UInt8.ofNat proto)) 12 srcIp) 16 dstIp = ipv4Front total proto srcIp dstIp 0 ++ rest := by
    simp only [setInt, setShort, setLong, ipv4Front, short, long, List.replicate, List.cons_append, List.nil_append,
      List.set_cons_zero, List.set_cons_succ, Nat.reduceAdd]
    rfl
  have hsealed (ck : Nat) : setShort (ipv4Front total proto srcIp dstIp 0 ++ rest) 10 ck =
      ipv4Front total proto srcIp dstIp ck ++ rest := by
    simp only [setShort, ipv4Front, short, long, List.cons_append, List.nil_append, List.set_cons_zero,
      List.set_cons_succ, Nat.reduceAdd]
  rw [ipv4Header, hfields, hsealed]

theorem arraycopy_append {xs ys src : List UInt8} {n : Nat} (hn : xs.length = n) (h : ys.length = src.length)
    (zs : List UInt8) : arraycopy src (xs ++ (ys ++ zs)) n = xs ++ (src ++ zs) := by
  rw [arraycopy, ← hn, List.take_left, ← List.drop_drop, List.drop_left, ← h, List.drop_left, List.append_assoc]

theorem ipv6Header_replicate (length proto : Nat) {srcIp dstIp : List UInt8} (hsrc : srcIp.length = 16)
    (hdst : dstIp.length = 16) (rest : List UInt8) :
    ipv6Header (List.replicate 40 0 ++ rest) length proto srcIp dstIp =
      ipv6Front length proto srcIp dstIp ++ rest := by
  have hfields : ipv6Header (List.replicate 40 0 ++ rest) length proto srcIp dstIp =
      arraycopy dstIp (arraycopy srcIp (([0x60, 0, 0, 0] ++ short length ++ [UInt8.ofNat proto, 64]) ++
        (List.replicate 16 0 ++ (List.replicate 16 0 ++ rest))) 8) 24 := rfl
  have hzeros : (List.replicate 16 (0 : UInt8)).length = 16 := List.length_replicate
  have hfront : ([0x60, 0, 0, 0] ++ short length ++ [UInt8.ofNat proto, 64]).length = 8 := rfl
  have hboth : ([0x60, 0, 0, 0] ++ short length ++ [UInt8.ofNat proto, 64] ++ srcIp).length = 24 := by
    rw [List.length_append, hfront, hsrc]
  rw [hfields, arraycopy_append hfront (hzeros.trans hsrc.symm), ← List.append_assoc,
    arraycopy_append hboth (hzeros.trans hdst.symm), ← List.append_assoc, ipv6Front]

/-- The options of a segment. -/
def options (flags mss : Nat) : List UInt8 := if flags = 0x12 then [2, 4] ++ short mss else []

theorem length_options (flags mss : Nat) : (options flags mss).length = optLength flags := by
  rw [options, optLength]
  split <;> rfl

section Written
variable {front : List UInt8} {o : Nat}

theorem tcpHeader_append (ho : front.length = o) (rest : List UInt8) (optLen srcPort dstPort seq ack flags : Nat) :
    tcpHeader (front ++ (List.replicate 20 0 ++ rest)) o optLen srcPort dstPort seq ack flags =
      front ++ segment srcPort dstPort seq ack (5 + optLen / 4) flags 0 rest := by
  have hfirst := setShort_append front (List.replicate 20 0 ++ rest) 0 srcPort
  rw [Nat.add_zero] at hfirst
  rw [← ho, tcpHeader, hfirst, setShort_append, setLong_append, setLong_append, set_append_add, set_append_add,
    set_append_add, set_append_add]
  simp only [setShort, setLong, segment, segmentFront, short, long, List.replicate, List.cons_append, List.nil_append,
    List.set_cons_zero, List.set_cons_succ, Nat.reduceAdd]
  rfl

theorem mssOption_append (ho : front.length = o) (rest : List UInt8) (srcPort dstPort seq ack words flags mss : Nat) :
    mssOption (front ++ segment srcPort dstPort seq ack words flags 0 (List.replicate 4 0 ++ rest)) o mss =
      front ++ segment srcPort dstPort seq ack words flags 0 ([2, 4] ++ short mss ++ rest) := by
  rw [← ho, mssOption, set_append_add, set_append_add, setShort_append]
  rfl

/-- The options in their place, whichever they are. -/
theorem options_append (ho : front.length = o) (rest : List UInt8) (srcPort dstPort seq ack words flags mss : Nat) :
    (if flags = 0x12 then
      mssOption (front ++ segment srcPort dstPort seq ack words flags 0 (List.replicate (optLength flags) 0 ++ rest)) o mss
    else front ++ segment srcPort dstPort seq ack words flags 0 (List.replicate (optLength flags) 0 ++ rest)) =
      front ++ segment srcPort dstPort seq ack words flags 0 (options flags mss ++ rest) := by
  rw [options, optLength]
  split
  · exact mssOption_append ho rest srcPort dstPort seq ack words flags mss
  · rfl

theorem segment_append (srcPort dstPort seq ack words flags ck : Nat) (xs ys : List UInt8) :
    segment srcPort dstPort seq ack words flags ck (xs ++ ys) =
      segment srcPort dstPort seq ack words flags ck xs ++ ys := rfl

theorem length_segment (srcPort dstPort seq ack words flags ck : Nat) (rest : List UInt8) :
    (segment srcPort dstPort seq ack words flags ck rest).length = 20 + rest.length := by
  have hempty : (segment srcPort dstPort seq ack words flags ck []).length = 20 := rfl
  have hsplit := segment_append srcPort dstPort seq ack words flags ck [] rest
  rw [List.nil_append] at hsplit
  rw [hsplit, List.length_append, hempty]

/-- The fields, the options and the data of a segment behind a header. -/
theorem tcp_written (ho : front.length = o) (data : List UInt8) (srcPort dstPort seq ack flags mss : Nat) :
    arraycopy data
      (if flags = 0x12 then
        mssOption (tcpHeader (front ++ List.replicate (20 + optLength flags + data.length) 0) o (optLength flags)
          srcPort dstPort seq ack flags) o mss
      else tcpHeader (front ++ List.replicate (20 + optLength flags + data.length) 0) o (optLength flags)
        srcPort dstPort seq ack flags) (o + 20 + optLength flags) =
      front ++ segment srcPort dstPort seq ack (5 + optLength flags / 4) flags 0 (options flags mss ++ data) := by
  have hzeros : List.replicate (20 + optLength flags + data.length) (0 : UInt8) =
      List.replicate 20 0 ++ (List.replicate (optLength flags) 0 ++ List.replicate data.length 0) := by
    rw [List.replicate_append_replicate, List.replicate_append_replicate, Nat.add_assoc]
  have hend : (front ++ segment srcPort dstPort seq ack (5 + optLength flags / 4) flags 0 (options flags mss)).length =
      o + 20 + optLength flags := by
    rw [List.length_append, ho, length_segment, length_options, Nat.add_assoc]
  have hparts : front ++ segment srcPort dstPort seq ack (5 + optLength flags / 4) flags 0
      (options flags mss ++ List.replicate data.length 0) =
      (front ++ segment srcPort dstPort seq ack (5 + optLength flags / 4) flags 0 (options flags mss)) ++
        (List.replicate data.length 0 ++ []) := by
    rw [segment_append, List.append_nil, List.append_assoc]
  rw [hzeros, tcpHeader_append ho, options_append ho, hparts, arraycopy_append hend List.length_replicate,
    List.append_nil, List.append_assoc, ← segment_append]

/-- The checksum of a segment in its place. -/
theorem setShort_segment (ho : front.length = o) (srcPort dstPort seq ack words flags ck : Nat) (rest : List UInt8) :
    setShort (front ++ segment srcPort dstPort seq ack words flags 0 rest) (o + 16) ck =
      front ++ segment srcPort dstPort seq ack words flags ck rest := by
  rw [← ho, setShort_append]
  rfl

/-- The fields and the data of a datagram behind a header. -/
theorem udp_written (ho : front.length = o) (data : List UInt8) (srcPort dstPort : Nat) :
    arraycopy data (udpHeader (front ++ List.replicate (8 + data.length) 0) o srcPort dstPort (8 + data.length)) (o + 8) =
      front ++ datagram srcPort dstPort 0 data := by
  have hfirst := setShort_append front (List.replicate 8 0 ++ List.replicate data.length 0) 0 srcPort
  rw [Nat.add_zero] at hfirst
  have hheader : (front ++ (short srcPort ++ short dstPort ++ short (8 + data.length) ++ short 0)).length = o + 8 := by
    rw [List.length_append, ho]
    rfl
  have hparts : udpHeader (front ++ List.replicate (8 + data.length) 0) o srcPort dstPort (8 + data.length) =
      (front ++ (short srcPort ++ short dstPort ++ short (8 + data.length) ++ short 0)) ++
        (List.replicate data.length 0 ++ []) := by
    rw [← List.replicate_append_replicate, ← ho, udpHeader, hfirst, setShort_append, setShort_append,
      List.append_nil, List.append_assoc]
    rfl
  rw [hparts, arraycopy_append hheader List.length_replicate, List.append_nil, List.append_assoc, datagram,
    List.append_assoc]

theorem length_datagram (srcPort dstPort ck : Nat) (data : List UInt8) :
    (datagram srcPort dstPort ck data).length = 8 + data.length := by
  have hshort : ∀ v, (short v).length = 2 := fun _ => rfl
  rw [datagram, List.length_append, List.length_append, List.length_append, List.length_append, hshort, hshort,
    hshort, hshort]
  omega

theorem setShort_datagram (ho : front.length = o) (srcPort dstPort ck : Nat) (data : List UInt8) :
    setShort (front ++ datagram srcPort dstPort 0 data) (o + 6) ck = front ++ datagram srcPort dstPort ck data := by
  rw [← ho, setShort_append]
  rfl

/-- What is copied from the end of the header on is all that follows it. -/
theorem copyOfRange_behind (ho : front.length = o) (rest : List UInt8) {total : Nat} (htotal : total = o + rest.length) :
    copyOfRange (front ++ rest) o total = rest := by
  rw [copyOfRange, List.drop_left' ho, List.take_of_length_le (by omega)]

end Written

theorem replicate_split {total o n : Nat} (h : total = o + n) :
    List.replicate total (0 : UInt8) = List.replicate o 0 ++ List.replicate n 0 := by
  rw [h, List.replicate_append_replicate]

/-! ### The sums -/

theorem getShort_cons (b : List UInt8) {i : Nat} (h : i + 1 < b.length) :
    wordSum ((b.drop i).take 2) = getShort b i := by
  have hget (j : Nat) (hj : j < b.length) : getByte b j = b[j].toNat := by
    rw [getByte, List.getD_eq_getElem?_getD, List.getElem?_eq_getElem hj, Option.getD_some]
  rw [List.drop_eq_getElem_cons (by omega), List.drop_eq_getElem_cons h, List.take_succ_cons, List.take_succ_cons,
    List.take_zero, wordSum, wordSum, getShort, hget i (by omega), hget (i + 1) h, Nat.add_zero]

theorem sumWords_eq (b : List UInt8) (n i sum : Nat) (h : i + 2 * n ≤ b.length) :
    sumWords b n i sum = sum + wordSum ((b.drop i).take (2 * n)) := by
  induction n generalizing i sum with
  | zero => rfl
  | succ n ih =>
    have hsplit : (b.drop i).take (2 * (n + 1)) = (b.drop i).take 2 ++ ((b.drop (i + 2)).take (2 * n)) := by
      rw [← List.drop_drop, ← List.take_add, Nat.mul_add, Nat.add_comm]
    have heven : ((b.drop i).take 2).length % 2 = 0 := by
      rw [List.length_take, List.length_drop, Nat.min_eq_left (by omega)]
    rw [sumWords, ih _ _ (by omega), hsplit, Octets.wordSum_append heven, getShort_cons b (by omega), Nat.add_assoc]

/-- `sumBytes` adds the words of what it is asked for, an odd octet as the high half of one. -/
theorem sumBytes_eq (b : List UInt8) {stop : Nat} (h : stop ≤ b.length) (initial : Nat) :
    sumBytes b stop initial = initial + wordSum (b.take stop) := by
  rw [sumBytes, sumWords_eq b _ _ _ (by omega), List.drop_zero]
  split
  · rename_i hodd
    have hlast : stop - 1 < b.length := by omega
    have htake : b.take stop = b.take (2 * (stop / 2)) ++ [b[stop - 1]] := by
      have hstop : stop = stop - 1 + 1 := by omega
      have hhalf : 2 * (stop / 2) = stop - 1 := by omega
      rw [hhalf]
      conv_lhs => rw [hstop]
      rw [List.take_append_getElem]
    have heven : (b.take (2 * (stop / 2))).length % 2 = 0 := by
      rw [List.length_take]
      omega
    rw [htake, Octets.wordSum_append heven, wordSum, getByte, List.getD_eq_getElem?_getD,
      List.getElem?_eq_getElem hlast, Option.getD_some, Nat.add_assoc]
  · rename_i heven
    have hhalf : 2 * (stop / 2) = stop := by omega
    rw [hhalf]

/-! ### What a receiver checks -/

/-- The pseudo-header of the fourth version: the addresses, the protocol and the length of
the segment. -/
def pseudo4 (p : List UInt8) : List UInt8 := copyOfRange p 12 20 ++ [0, p.getD 9 0] ++ short (p.length - 20)

/-- That of the sixth. -/
def pseudo6 (p : List UInt8) : List UInt8 := copyOfRange p 8 40 ++ long (p.length - 40) ++ [0, 0, 0, p.getD 6 0]

/-- The sums and the length of a packet of the fourth version. -/
structure Valid4 (p : List UInt8) : Prop where
  header : fold (wordSum (p.take 20)) = 0xFFFF
  transport : fold (wordSum (pseudo4 p ++ p.drop 20)) = 0xFFFF
  total : getShort p 2 = p.length

/-- The sum and the length of a packet of the sixth version. -/
structure Valid6 (p : List UInt8) : Prop where
  transport : fold (wordSum (pseudo6 p ++ p.drop 40)) = 0xFFFF
  payload : getShort p 4 = p.length - 40

theorem wordSum_short {v : Nat} (h : v < 65536) (rest : List UInt8) : wordSum (short v ++ rest) = v + wordSum rest :=
  Octets.wordSum_word v h rest

theorem wordSum_long (v : Nat) (h : v < 2 ^ 32) (rest : List UInt8) :
    wordSum (long v ++ rest) = v / 65536 + v % 65536 + wordSum rest := by
  have hlong : long v = short (v / 65536) ++ short v := by
    rw [long, short, short, Nat.div_div_eq_div_mul]
    rfl
  have hmod : short v = short (v % 65536) := by
    rw [short, short]
    congr 1
    · apply UInt8.toNat_inj.mp
      rw [UInt8.toNat_ofNat', UInt8.toNat_ofNat']
      omega
    · congr 1
      apply UInt8.toNat_inj.mp
      rw [UInt8.toNat_ofNat', UInt8.toNat_ofNat']
      omega
  rw [hlong, hmod, List.append_assoc, wordSum_short (by omega), wordSum_short (by omega), Nat.add_assoc]

/-- Putting the checksum where a zero was adds it to the sum. -/
theorem wordSum_seal {front : List UInt8} (heven : front.length % 2 = 0) {ck : Nat} (hck : ck < 65536)
    (rest : List UInt8) : wordSum (front ++ (short ck ++ rest)) = wordSum (front ++ (short 0 ++ rest)) + ck := by
  rw [Octets.wordSum_append heven, Octets.wordSum_append heven, wordSum_short hck, wordSum_short (by decide)]
  omega

theorem sent_lt {ck : Nat} (h : ck < 65536) : sent ck < 65536 := by
  rw [sent]
  split
  · decide
  · exact h

theorem sent_ne_zero (ck : Nat) : sent ck ≠ 0 := by
  rw [sent]
  split
  · decide
  · rename_i hne
    exact hne

/-- What is sent is the checksum, or the other zero. -/
theorem sent_cases (ck : Nat) : sent ck = ck ∨ ck = 0 ∧ sent ck = 65535 := by
  rw [sent]
  split
  · rename_i hzero
    exact .inr ⟨hzero, rfl⟩
  · exact .inl rfl

/-- A header with its checksum folds to all ones. -/
theorem fold_ipv4Front (total proto : Nat) (srcIp dstIp : BitVec 32) (rest : List UInt8) :
    fold (wordSum (ipv4Front total proto srcIp dstIp
      (calculateChecksum (ipv4Front total proto srcIp dstIp 0 ++ rest)))) = 0xFFFF := by
  have hlen : (ipv4Front total proto srcIp dstIp 0).length = 20 := rfl
  have htake : (ipv4Front total proto srcIp dstIp 0 ++ rest).take 20 = ipv4Front total proto srcIp dstIp 0 :=
    List.take_left' hlen
  have hsum : calculateChecksum (ipv4Front total proto srcIp dstIp 0 ++ rest) =
      checksum (wordSum (ipv4Front total proto srcIp dstIp 0)) := by
    rw [calculateChecksum, foldChecksum, sumBytes_eq _ (by rw [List.length_append, hlen]; omega), Nat.zero_add, htake]
  have hseal (ck : Nat) : ipv4Front total proto srcIp dstIp ck =
      ([0x45, 0] ++ short total ++ [0, 0, 0, 0, 64, UInt8.ofNat proto]) ++
        (short ck ++ (long srcIp.toNat ++ long dstIp.toNat)) := rfl
  have hten : ([0x45, 0] ++ short total ++ [0, 0, 0, 0, 64, UInt8.ofNat proto]).length = 10 := rfl
  have heven : ([0x45, 0] ++ short total ++ [0, 0, 0, 0, 64, UInt8.ofNat proto]).length % 2 = 0 := by rw [hten]
  have hpos : 0 < wordSum (ipv4Front total proto srcIp dstIp 0) := by
    show 0 < (0x45 : UInt8).toNat * 256 + (0 : UInt8).toNat + _
    have : (0x45 : UInt8).toNat = 69 := rfl
    omega
  rw [hsum, hseal, wordSum_seal heven (Octets.checksum_lt _), ← hseal]
  exact Octets.fold_add_complement hpos (.inl rfl)

/-- A pair of octets of which the first is zero. -/
theorem wordSum_octet {v : Nat} (h : v < 256) (rest : List UInt8) :
    wordSum (0 :: UInt8.ofNat v :: rest) = v + wordSum rest := by
  have hzero : (0 : UInt8).toNat = 0 := rfl
  rw [wordSum, hzero, UInt8.toNat_ofNat', Nat.mod_eq_of_lt h]
  omega

theorem getByte_append {front : List UInt8} {o : Nat} (ho : front.length = o) (rest : List UInt8) (k : Nat) :
    getByte (front ++ rest) (o + k) = getByte rest k := by
  rw [← ho, getByte, getByte, List.getD_append_right _ _ _ _ (Nat.le_add_right _ _), Nat.add_sub_cancel_left]

theorem getShort_append {front : List UInt8} {o : Nat} (ho : front.length = o) (rest : List UInt8) (k : Nat) :
    getShort (front ++ rest) (o + k) = getShort rest k := by
  rw [getShort, getShort, getByte_append ho, Nat.add_assoc, getByte_append ho]

theorem getShort_short {v : Nat} (h : v < 65536) (rest : List UInt8) : getShort (short v ++ rest) 0 = v := by
  have hfirst : getByte (short v ++ rest) 0 = (UInt8.ofNat (v / 256)).toNat := rfl
  have hsecond : getByte (short v ++ rest) (0 + 1) = (UInt8.ofNat v).toNat := rfl
  rw [getShort, hfirst, hsecond, UInt8.toNat_ofNat', UInt8.toNat_ofNat']
  omega

section Sealed
variable {total proto : Nat} {front rest : List UInt8}

/-- The checksum of a segment, without the pseudo-header spelled out. -/
theorem fold_sealed (heven : front.length % 2 = 0) {pseudo : List UInt8} (hpseudo : pseudo.length % 2 = 0)
    (hpos : 0 < wordSum pseudo) {ck : Nat}
    (hck : ck = sent (checksum (wordSum pseudo + wordSum (front ++ (short 0 ++ rest))))) :
    fold (wordSum (pseudo ++ (front ++ (short ck ++ rest)))) = 0xFFFF := by
  have hlt := sent_lt (Octets.checksum_lt (wordSum pseudo + wordSum (front ++ (short 0 ++ rest))))
  have hsent := sent_cases (checksum (wordSum pseudo + wordSum (front ++ (short 0 ++ rest))))
  rw [← hck] at hlt hsent
  rw [Octets.wordSum_append hpseudo, wordSum_seal heven hlt, ← Nat.add_assoc]
  exact Octets.fold_add_complement (by omega) hsent

/-- A packet of the fourth version: its header, and a segment sealed with the checksum. -/
theorem valid4_sealed (srcIp dstIp : BitVec 32) (hpos : 0 < proto) (hproto : proto < 256) (heven : front.length % 2 = 0)
    (htotal : total = 22 + front.length + rest.length) (hfit : total < 65536) (behind : List UInt8) :
    Valid4 (ipv4Front total proto srcIp dstIp (calculateChecksum (ipv4Front total proto srcIp dstIp 0 ++ behind)) ++
      (front ++ (short (sent (calculateTransportChecksum4 srcIp dstIp (front ++ (short 0 ++ rest)) proto)) ++ rest))) := by
  generalize hipCk : calculateChecksum (ipv4Front total proto srcIp dstIp 0 ++ behind) = ipCk
  generalize hck : sent (calculateTransportChecksum4 srcIp dstIp (front ++ (short 0 ++ rest)) proto) = ck
  have hlen : (ipv4Front total proto srcIp dstIp ipCk).length = 20 := rfl
  have hshort : ∀ v, (short v).length = 2 := fun _ => rfl
  have hall : (ipv4Front total proto srcIp dstIp ipCk ++ (front ++ (short ck ++ rest))).length = total := by
    rw [List.length_append, List.length_append, List.length_append, hlen, hshort]
    omega
  have hpseudo : pseudo4 (ipv4Front total proto srcIp dstIp ipCk ++ (front ++ (short ck ++ rest))) =
      long srcIp.toNat ++ (long dstIp.toNat ++ (0 :: UInt8.ofNat proto :: (short (total - 20) ++ []))) := by
    rw [pseudo4, hall]
    rfl
  have hsum : wordSum (long srcIp.toNat ++ (long dstIp.toNat ++ (0 :: UInt8.ofNat proto :: (short (total - 20) ++ [])))) =
      srcIp.toNat / 65536 + srcIp.toNat % 65536 + dstIp.toNat / 65536 + dstIp.toNat % 65536 + proto + (total - 20) := by
    rw [wordSum_long _ srcIp.isLt, wordSum_long _ dstIp.isLt, wordSum_octet hproto, wordSum_short (by omega), wordSum]
    omega
  refine ⟨?_, ?_, ?_⟩
  · rw [List.take_left' hlen, ← hipCk]
    exact fold_ipv4Front total proto srcIp dstIp behind
  · rw [List.drop_left' hlen, hpseudo]
    apply fold_sealed heven
    · have htwelve : (long srcIp.toNat ++ (long dstIp.toNat ++ (0 :: UInt8.ofNat proto ::
          (short (total - 20) ++ [])))).length = 12 := rfl
      rw [htwelve]
    · omega
    · have hsize : (front ++ (short 0 ++ rest)).length = total - 20 := by
        rw [List.length_append, List.length_append, hshort]
        omega
      rw [← hck, calculateTransportChecksum4, foldChecksum, sumBytes_eq _ (Nat.le_refl _), List.take_length, hsize, hsum]
  · rw [hall]
    rw [ipv4Front]
    simp only [List.append_assoc]
    exact (getShort_append (rfl : [0x45, 0].length = 2) _ 0).trans (getShort_short hfit _)

/-- A packet of the sixth version. -/
theorem valid6_sealed {srcIp dstIp : List UInt8} (hsrc : srcIp.length = 16) (hdst : dstIp.length = 16)
    (hpos : 0 < proto) (hproto : proto < 256) (heven : front.length % 2 = 0)
    (htotal : total = 2 + front.length + rest.length) (hfit : total < 65536) :
    Valid6 (ipv6Front total proto srcIp dstIp ++
      (front ++ (short (sent (calculateTransportChecksum6 srcIp dstIp (front ++ (short 0 ++ rest)) proto)) ++ rest))) := by
  generalize hck : sent (calculateTransportChecksum6 srcIp dstIp (front ++ (short 0 ++ rest)) proto) = ck
  have hshort : ∀ v, (short v).length = 2 := fun _ => rfl
  have height : ([0x60, 0, 0, 0] ++ short total ++ [UInt8.ofNat proto, 64]).length = 8 := rfl
  have hlen : (ipv6Front total proto srcIp dstIp).length = 40 := by
    rw [ipv6Front, List.length_append, List.length_append, height, hsrc, hdst]
  have hall : (ipv6Front total proto srcIp dstIp ++ (front ++ (short ck ++ rest))).length = 40 + total := by
    rw [List.length_append, List.length_append, List.length_append, hlen, hshort]
    omega
  have haddresses : copyOfRange (ipv6Front total proto srcIp dstIp ++ (front ++ (short ck ++ rest))) 8 40 =
      srcIp ++ dstIp := by
    have hparts : ipv6Front total proto srcIp dstIp ++ (front ++ (short ck ++ rest)) =
        ([0x60, 0, 0, 0] ++ short total ++ [UInt8.ofNat proto, 64]) ++
          ((srcIp ++ dstIp) ++ (front ++ (short ck ++ rest))) := by
      simp only [ipv6Front, List.append_assoc]
    rw [copyOfRange, hparts, List.drop_left' height, List.take_left' (by rw [List.length_append, hsrc, hdst])]
  have hpseudo : pseudo6 (ipv6Front total proto srcIp dstIp ++ (front ++ (short ck ++ rest))) =
      srcIp ++ (dstIp ++ (long total ++ (short 0 ++ (0 :: UInt8.ofNat proto :: [])))) := by
    rw [pseudo6, haddresses, hall, Nat.add_sub_cancel_left, List.append_assoc, List.append_assoc]
    rfl
  have hsum : wordSum (srcIp ++ (dstIp ++ (long total ++ (short 0 ++ (0 :: UInt8.ofNat proto :: []))))) =
      wordSum srcIp + wordSum dstIp + total + proto := by
    rw [Octets.wordSum_append (by rw [hsrc]), Octets.wordSum_append (by rw [hdst]), wordSum_long _ (by omega),
      wordSum_short (by decide), wordSum_octet hproto, wordSum]
    omega
  refine ⟨?_, ?_⟩
  · rw [List.drop_left' hlen, hpseudo]
    apply fold_sealed heven
    · have hrest : (long total ++ (short 0 ++ (0 :: UInt8.ofNat proto :: []))).length = 8 := rfl
      rw [List.length_append, List.length_append, hsrc, hdst, hrest]
    · omega
    · have hsize : (front ++ (short 0 ++ rest)).length = total := by
        rw [List.length_append, List.length_append, hshort]
        omega
      rw [← hck, calculateTransportChecksum6, foldChecksum, sumBytes_eq _ (Nat.le_refl _), List.take_length, hsize,
        sumBytes_eq _ (by omega), sumBytes_eq _ (by omega), List.take_of_length_le (by omega),
        List.take_of_length_le (by omega), hsum, Nat.zero_add]
  · rw [hall, Nat.add_sub_cancel_left]
    rw [ipv6Front]
    simp only [List.append_assoc]
    exact (getShort_append (rfl : [0x60, 0, 0, 0].length = 4) _ 0).trans (getShort_short hfit _)

end Sealed

/-! ### What the reader finds -/

/-- A packet that fills its buffer. -/
def whole (p : List UInt8) : Packet := ⟨p, p.length, Nat.le_refl _⟩

/-- The reader finds the segment: its session is fed the sequence number, the flags and the
payload; and the data offset counts the header with its options. -/
structure ReadsTcp (p : List UInt8) (key : FlowKey) (offset seq flags : Nat) (options payload : List UInt8) : Prop where
  found : ∀ w, processPacket w (whole p) = processTcp w (whole p) key offset
  fed : ∃ handed, feedTcp (whole p) key offset flags = .ok [.tcpFed key seq handed flags] ∧ handed.getD [] = payload
  flagsByte : (whole p).byte (offset + 13) = .ok flags
  dataOffset : getByte p (offset + 12) / 16 * 4 = 20 + options.length
  length : p.length = offset + 20 + options.length + payload.length
  optionBytes : copyOfRange p (offset + 20) (offset + 20 + options.length) = options

/-- The reader finds the datagram, whose length is exact and whose checksum is there. -/
structure ReadsUdp (p : List UInt8) (key : FlowKey) (offset destination width : Nat) (payload : List UInt8) : Prop where
  found : ∀ w, processPacket w (whole p) = processUdp w (whole p) key offset destination width
  payload : (whole p).copy (offset + 8) p.length = .ok payload
  length : getShort p (offset + 4) = p.length - offset
  checksum : getShort p (offset + 6) ≠ 0

@[simp] theorem bytes_whole (p : List UInt8) : (whole p).bytes = p := List.take_length

section Reads
variable {front : List UInt8} {o : Nat}

theorem getLong_long (ho : front.length = o) {v : Nat} (h : v < 2 ^ 32) (rest : List UInt8) :
    (whole (front ++ (long v ++ rest))).getLong o = .ok v := by
  have hlong : (long v).length = 4 := rfl
  have hlen : (whole (front ++ (long v ++ rest))).len = o + (4 + rest.length) := by
    show (front ++ (long v ++ rest)).length = _
    rw [List.length_append, List.length_append, ho, hlong]
  have hget (k : Nat) (b : UInt8) (hk : k < 4) (hb : (long v ++ rest).getD k 0 = b) :
      (whole (front ++ (long v ++ rest))).byte (o + k) = .ok b.toNat := by
    rw [PacketReader.byte_bytes (by omega), bytes_whole, getByte_append ho, getByte, hb]
  have hfirst := hget 0 (UInt8.ofNat (v / 2 ^ 24)) (by decide) rfl
  rw [Nat.add_zero] at hfirst
  rw [Packet.getLong, hfirst, hget 1 (UInt8.ofNat (v / 2 ^ 16)) (by decide) rfl,
    hget 2 (UInt8.ofNat (v / 2 ^ 8)) (by decide) rfl, hget 3 (UInt8.ofNat v) (by decide) rfl]
  show Except.ok _ = Except.ok _
  rw [UInt8.toNat_ofNat', UInt8.toNat_ofNat', UInt8.toNat_ofNat', UInt8.toNat_ofNat']
  congr 1
  omega

theorem getShort_ports (ho : front.length = o) {srcPort dstPort : Nat} (hsrc : srcPort < 65536) (hdst : dstPort < 65536)
    (rest : List UInt8) :
    getShort (front ++ (short srcPort ++ short dstPort ++ rest)) o = srcPort ∧
      getShort (front ++ (short srcPort ++ short dstPort ++ rest)) (o + 2) = dstPort := by
  have hfirst := getShort_append ho (short srcPort ++ short dstPort ++ rest) 0
  have hsecond := getShort_append (rfl : (short srcPort).length = 2) (short dstPort ++ rest) 0
  constructor
  · rw [← Nat.add_zero o, hfirst, List.append_assoc, getShort_short hsrc]
  · rw [getShort_append ho, List.append_assoc]
    exact hsecond.trans (getShort_short hdst rest)

/-- A segment behind a header that the reader takes off. -/
theorem readsTcp_segment (ho : front.length = o) {srcIp dstIp : List UInt8} {srcPort dstPort seq flags : Nat}
    (hsrc : srcPort < 65536) (hdst : dstPort < 65536) (hseq : seq < 2 ^ 32) (hflags : flags < 256)
    (ack ck mss : Nat) (data : List UInt8)
    (hlocate : ∀ rest, 20 ≤ rest.length →
      PacketReader.locate (front ++ rest) = located (front ++ rest) 6 o srcIp dstIp) :
    ReadsTcp (front ++ segment srcPort dstPort seq ack (5 + optLength flags / 4) flags ck (options flags mss ++ data))
      ⟨6, srcIp, srcPort, dstIp, dstPort⟩ o seq flags (options flags mss) data := by
  generalize hp : segment srcPort dstPort seq ack (5 + optLength flags / 4) flags ck (options flags mss ++ data) = rest
  have hrest : rest.length = 20 + (options flags mss).length + data.length := by
    rw [← hp, length_segment, List.length_append, Nat.add_assoc]
  have hlen : (front ++ rest).length = o + 20 + (options flags mss).length + data.length := by
    rw [List.length_append, ho, hrest]
    omega
  have hports : getShort (front ++ rest) o = srcPort ∧ getShort (front ++ rest) (o + 2) = dstPort := by
    rw [← hp, segment, segmentFront]
    simp only [List.append_assoc]
    have hread := getShort_ports ho hsrc hdst (long seq ++ (long ack ++ ([UInt8.ofNat ((5 + optLength flags / 4) * 16),
      UInt8.ofNat flags, 0xFF, 0xFF] ++ (short ck ++ (0 :: 0 :: (options flags mss ++ data))))))
    rwa [List.append_assoc] at hread
  have hseqRead : (whole (front ++ rest)).getLong (o + 4) = .ok seq := by
    have hfront : (front ++ (short srcPort ++ short dstPort)).length = o + 4 := by
      rw [List.length_append, ho]
      rfl
    have hread := getLong_long hfront hseq (long ack ++ ([UInt8.ofNat ((5 + optLength flags / 4) * 16),
      UInt8.ofNat flags, 0xFF, 0xFF] ++ (short ck ++ (0 :: 0 :: (options flags mss ++ data)))))
    rw [← hp, segment, segmentFront]
    simp only [List.append_assoc] at hread ⊢
    exact hread
  have hbyte (k : Nat) : getByte (front ++ rest) (o + k) = getByte rest k := getByte_append ho rest k
  have hwords : getByte (front ++ rest) (o + 12) / 16 * 4 = 20 + (options flags mss).length := by
    have hfield : getByte rest 12 = (UInt8.ofNat ((5 + optLength flags / 4) * 16)).toNat := by
      rw [← hp]
      rfl
    rw [hbyte, hfield, UInt8.toNat_ofNat', length_options, optLength]
    split <;> rfl
  have hflagsRead : getByte rest 13 = flags := by
    have hfield : getByte rest 13 = (UInt8.ofNat flags).toNat := by
      rw [← hp]
      rfl
    rw [hfield, UInt8.toNat_ofNat', Nat.mod_eq_of_lt hflags]
  have hbehind (n : Nat) : (front ++ rest).drop (o + n) = rest.drop n := by
    rw [← List.drop_drop, List.drop_left' ho]
  have hoptions : rest.drop 20 = options flags mss ++ data := by
    rw [← hp]
    rfl
  have hfound : PacketReader.locate (front ++ rest) = some (⟨6, srcIp, srcPort, dstIp, dstPort⟩, o) := by
    have hsize : PacketReader.headerSize 6 = 20 := rfl
    rw [hlocate rest (by omega), located, hsize, if_pos ⟨.inl rfl, by omega⟩, hports.1, hports.2]
  constructor
  · intro w
    rw [PacketReader.processPacket_eq, bytes_whole, hfound]
    exact if_pos rfl
  · obtain ⟨seq', handed, hseq', hfed, htaken⟩ :=
      PacketReader.feedTcp_eq (p := whole (front ++ rest)) ⟨6, srcIp, srcPort, dstIp, dstPort⟩
        (show o + 20 ≤ (front ++ rest).length by omega) flags
    obtain rfl := Except.ok.inj (hseq'.symm.trans hseqRead)
    refine ⟨handed, hfed, ?_⟩
    have htail : PacketReader.taken (front ++ rest) 6 o =
        (front ++ rest).drop (o + getByte (front ++ rest) (o + 12) / 16 * 4) := rfl
    rw [htaken, bytes_whole, htail, hwords, hbehind, ← List.drop_drop, hoptions, List.drop_left]
  · rw [PacketReader.byte_bytes (show o + 13 < (front ++ rest).length by omega), bytes_whole, hbyte, hflagsRead]
  · exact hwords
  · exact hlen
  · rw [copyOfRange, hbehind, hoptions, Nat.add_sub_cancel_left, List.take_left]

/-- A datagram behind a header that the reader takes off. -/
theorem readsUdp_datagram (ho : front.length = o) {srcIp dstIp : List UInt8} {srcPort dstPort ck : Nat}
    (hsrc : srcPort < 65536) (hdst : dstPort < 65536) (hck : ck < 65536) (hne : ck ≠ 0) {data : List UInt8}
    (hfit : 8 + data.length < 65536) {address width : Nat}
    (hdestination : ∀ rest, PacketReader.destination (front ++ rest) = (address, width))
    (hlocate : ∀ rest, 8 ≤ rest.length →
      PacketReader.locate (front ++ rest) = located (front ++ rest) 17 o srcIp dstIp) :
    ReadsUdp (front ++ datagram srcPort dstPort ck data) ⟨17, srcIp, srcPort, dstIp, dstPort⟩ o address width data := by
  generalize hp : datagram srcPort dstPort ck data = rest
  have hrest : rest.length = 8 + data.length := by rw [← hp, length_datagram]
  have hlen : (front ++ rest).length = o + 8 + data.length := by
    rw [List.length_append, ho, hrest, Nat.add_assoc]
  have hports : getShort (front ++ rest) o = srcPort ∧ getShort (front ++ rest) (o + 2) = dstPort := by
    have hread := getShort_ports ho hsrc hdst (short (8 + data.length) ++ (short ck ++ data))
    rw [← hp, datagram]
    simp only [List.append_assoc] at hread ⊢
    exact hread
  have hshort (v k : Nat) (hv : v < 65536) (before behind : List UInt8) (hk : before.length = k)
      (hsplit : rest = before ++ (short v ++ behind)) : getShort (front ++ rest) (o + k) = v := by
    rw [getShort_append ho, hsplit]
    exact (getShort_append hk _ 0).trans (getShort_short hv _)
  have hbehind : (front ++ rest).drop (o + 8) = data := by
    rw [← List.drop_drop, List.drop_left' ho, ← hp]
    rfl
  have hfound : PacketReader.locate (front ++ rest) = some (⟨17, srcIp, srcPort, dstIp, dstPort⟩, o) := by
    have hsize : PacketReader.headerSize 17 = 8 := rfl
    rw [hlocate rest (by omega), located, hsize, if_pos ⟨.inr rfl, by omega⟩, hports.1, hports.2]
  constructor
  · intro w
    rw [PacketReader.processPacket_eq, bytes_whole, hfound]
    show PacketReader.processLocated w (whole (front ++ rest)) ⟨17, srcIp, srcPort, dstIp, dstPort⟩ o = _
    rw [PacketReader.processLocated, if_neg (by simp), bytes_whole, hdestination rest]
  · have hcopy := PacketReader.copy_bytes (p := whole (front ++ rest))
      (show o + 8 ≤ (front ++ rest).length by omega) (Nat.le_refl _)
    rw [bytes_whole, copyOfRange, hbehind] at hcopy
    refine hcopy.trans (congrArg Except.ok (List.take_of_length_le ?_))
    show data.length ≤ (front ++ rest).length - (o + 8)
    omega
  · rw [hshort (8 + data.length) 4 hfit (short srcPort ++ short dstPort) (short ck ++ data) rfl
      (by rw [← hp, datagram, List.append_assoc (short srcPort ++ short dstPort)]), hlen]
    omega
  · rw [hshort ck 6 hck (short srcPort ++ short dstPort ++ short (8 + data.length)) data rfl hp.symm]
    exact hne

theorem version_ipv4Front (total proto : Nat) (srcIp dstIp : BitVec 32) (ck : Nat) (rest : List UInt8) :
    UidFilter.version (ipv4Front total proto srcIp dstIp ck ++ rest) = 4 := by
  have hfirst : getByte (ipv4Front total proto srcIp dstIp ck ++ rest) 0 = 0x45 := rfl
  rw [UidFilter.version, hfirst]

theorem version_ipv6Front (total proto : Nat) (srcIp dstIp rest : List UInt8) :
    UidFilter.version (ipv6Front total proto srcIp dstIp ++ rest) = 6 := by
  have hfirst : getByte (ipv6Front total proto srcIp dstIp ++ rest) 0 = 0x60 := rfl
  rw [UidFilter.version, hfirst]

theorem locate_ipv4Front (total : Nat) {proto : Nat} (hproto : proto < 256) (srcIp dstIp : BitVec 32) (ck : Nat)
    (rest : List UInt8) :
    PacketReader.locate (ipv4Front total proto srcIp dstIp ck ++ rest) =
      located (ipv4Front total proto srcIp dstIp ck ++ rest) proto 20 (long srcIp.toNat) (long dstIp.toNat) := by
  have hfront : (ipv4Front total proto srcIp dstIp ck).length = 20 := rfl
  have hlen : ¬ (ipv4Front total proto srcIp dstIp ck ++ rest).length < 20 := by
    rw [List.length_append, hfront]
    omega
  have hfirst : getByte (ipv4Front total proto srcIp dstIp ck ++ rest) 0 = 0x45 := rfl
  have hversion := version_ipv4Front total proto srcIp dstIp ck rest
  have hbyte : getByte (ipv4Front total proto srcIp dstIp ck ++ rest) 9 = proto := by
    have hfield : getByte (ipv4Front total proto srcIp dstIp ck ++ rest) 9 = (UInt8.ofNat proto).toNat := rfl
    rw [hfield, UInt8.toNat_ofNat', Nat.mod_eq_of_lt hproto]
  have hheader : getByte (ipv4Front total proto srcIp dstIp ck ++ rest) 0 % 16 * 4 = 20 := by rw [hfirst]
  have hsrc : copyOfRange (ipv4Front total proto srcIp dstIp ck ++ rest) 12 16 = long srcIp.toNat := rfl
  have hdst : copyOfRange (ipv4Front total proto srcIp dstIp ck ++ rest) 16 20 = long dstIp.toNat := rfl
  rw [PacketReader.locate, if_neg (by omega), if_pos hversion, PacketReader.locateIpv4, if_neg hlen, hbyte, hheader, hsrc,
    hdst]

theorem length_ipv6Front (length proto : Nat) {srcIp dstIp : List UInt8} (hsrc : srcIp.length = 16)
    (hdst : dstIp.length = 16) : (ipv6Front length proto srcIp dstIp).length = 40 := by
  have height : ([0x60, 0, 0, 0] ++ short length ++ [UInt8.ofNat proto, 64]).length = 8 := rfl
  rw [ipv6Front, List.length_append, List.length_append, height, hsrc, hdst]

theorem locate_ipv6Front (total : Nat) {proto : Nat} (hproto : proto = 6 ∨ proto = 17) {srcIp dstIp : List UInt8}
    (hsrc : srcIp.length = 16) (hdst : dstIp.length = 16) (rest : List UInt8) :
    PacketReader.locate (ipv6Front total proto srcIp dstIp ++ rest) =
      located (ipv6Front total proto srcIp dstIp ++ rest) proto 40 srcIp dstIp := by
  have height : ([0x60, 0, 0, 0] ++ short total ++ [UInt8.ofNat proto, 64]).length = 8 := rfl
  have hlen : ¬ (ipv6Front total proto srcIp dstIp ++ rest).length < 40 := by
    rw [List.length_append, length_ipv6Front total proto hsrc hdst]
    omega
  have hversion := version_ipv6Front total proto srcIp dstIp rest
  have hbyte : getByte (ipv6Front total proto srcIp dstIp ++ rest) 6 = proto := by
    have hfield : getByte (ipv6Front total proto srcIp dstIp ++ rest) 6 = (UInt8.ofNat proto).toNat := rfl
    rw [hfield, UInt8.toNat_ofNat']
    omega
  have htransport : UidFilter.ipv6Transport (ipv6Front total proto srcIp dstIp ++ rest) proto 40 = some (proto, 40) := by
    rw [UidFilter.ipv6Transport, if_pos (by simpa using hproto)]
  have hparts : ipv6Front total proto srcIp dstIp ++ rest =
      ([0x60, 0, 0, 0] ++ short total ++ [UInt8.ofNat proto, 64]) ++ (srcIp ++ (dstIp ++ rest)) := by
    simp only [ipv6Front, List.append_assoc]
  have hboth : ([0x60, 0, 0, 0] ++ short total ++ [UInt8.ofNat proto, 64] ++ srcIp).length = 24 := by
    rw [List.length_append, height, hsrc]
  have hfrom : copyOfRange (ipv6Front total proto srcIp dstIp ++ rest) 8 24 = srcIp := by
    rw [copyOfRange, hparts, List.drop_left' height, List.take_left' hsrc]
  have hto : copyOfRange (ipv6Front total proto srcIp dstIp ++ rest) 24 40 = dstIp := by
    rw [copyOfRange, hparts, ← List.append_assoc, List.drop_left' hboth, List.take_left' hdst]
  rw [PacketReader.locate, if_neg (by omega), if_neg (by rw [hversion]; decide), if_pos hversion,
    PacketReader.locateIpv6, if_neg hlen, hbyte, htransport, hfrom, hto]

end Reads

/-! ### The builders -/

section Builders
variable (mtu : Int) (srcPort dstPort seq ack flags : Nat)

theorem buildTcp4_eq (srcIp dstIp : BitVec 32) (data : Option (List UInt8)) {total : Nat} {rest : List UInt8}
    (hrest : rest = options flags (mss mtu 40) ++ data.getD []) (htotal : total = 40 + rest.length) :
    buildTcp4 mtu srcIp dstIp srcPort dstPort data seq ack flags =
      ipv4Front total 6 srcIp dstIp
        (calculateChecksum (ipv4Front total 6 srcIp dstIp 0 ++ List.replicate (20 + rest.length) 0)) ++
      segment srcPort dstPort seq ack (5 + optLength flags / 4) flags
        (sent (calculateTransportChecksum4 srcIp dstIp
          (segment srcPort dstPort seq ack (5 + optLength flags / 4) flags 0 rest) 6)) rest := by
  have hlen : rest.length = optLength flags + (data.getD []).length := by
    rw [hrest, List.length_append, length_options]
  have hsum : 40 + optLength flags + (data.getD []).length = total := by omega
  have hleft : 20 + optLength flags + (data.getD []).length = 20 + rest.length := by omega
  have hheader := ipv4Header_replicate total 6 srcIp dstIp (List.replicate (20 + rest.length) 0)
  generalize calculateChecksum (ipv4Front total 6 srcIp dstIp 0 ++ List.replicate (20 + rest.length) 0) = ck at hheader ⊢
  have hfront : (ipv4Front total 6 srcIp dstIp ck).length = 20 := rfl
  have hzeros : List.replicate total (0 : UInt8) = List.replicate 20 0 ++ List.replicate (20 + rest.length) 0 :=
    replicate_split (by omega)
  have hwritten := tcp_written hfront (data.getD []) srcPort dstPort seq ack flags (mss mtu 40)
  rw [hleft, ← hrest] at hwritten
  have hbehind := copyOfRange_behind hfront (segment srcPort dstPort seq ack (5 + optLength flags / 4) flags 0 rest)
    (show total = 20 + _ by rw [length_segment]; omega)
  rw [buildTcp4]
  rw [hsum, hzeros, hheader, hwritten, hbehind]
  exact setShort_segment hfront ..

theorem buildTcp6_eq {srcIp dstIp : List UInt8} (hsrc : srcIp.length = 16) (hdst : dstIp.length = 16)
    (data : Option (List UInt8)) {tcpLen : Nat} {rest : List UInt8}
    (hrest : rest = options flags (mss mtu 60) ++ data.getD []) (htcpLen : tcpLen = 20 + rest.length) :
    buildTcp6 mtu srcIp dstIp srcPort dstPort data seq ack flags =
      ipv6Front tcpLen 6 srcIp dstIp ++
      segment srcPort dstPort seq ack (5 + optLength flags / 4) flags
        (sent (calculateTransportChecksum6 srcIp dstIp
          (segment srcPort dstPort seq ack (5 + optLength flags / 4) flags 0 rest) 6)) rest := by
  have hlen : rest.length = optLength flags + (data.getD []).length := by
    rw [hrest, List.length_append, length_options]
  have hsum : 20 + optLength flags + (data.getD []).length = tcpLen := by omega
  have hfront := length_ipv6Front tcpLen 6 hsrc hdst
  have hwritten := tcp_written hfront (data.getD []) srcPort dstPort seq ack flags (mss mtu 60)
  rw [hsum, ← hrest] at hwritten
  have hbehind := copyOfRange_behind hfront (segment srcPort dstPort seq ack (5 + optLength flags / 4) flags 0 rest)
    (show 40 + tcpLen = 40 + _ by rw [length_segment]; omega)
  rw [buildTcp6]
  rw [hsum, replicate_split rfl, ipv6Header_replicate tcpLen 6 hsrc hdst, hwritten, hbehind]
  exact setShort_segment hfront ..

theorem buildUdp4_eq (srcIp dstIp : BitVec 32) (data : List UInt8) :
    buildUdp4 srcIp dstIp srcPort dstPort data =
      ipv4Front (20 + (8 + data.length)) 17 srcIp dstIp
        (calculateChecksum (ipv4Front (20 + (8 + data.length)) 17 srcIp dstIp 0 ++ List.replicate (8 + data.length) 0)) ++
      datagram srcPort dstPort
        (sent (calculateTransportChecksum4 srcIp dstIp (datagram srcPort dstPort 0 data) 17)) data := by
  have hheader := ipv4Header_replicate (20 + (8 + data.length)) 17 srcIp dstIp (List.replicate (8 + data.length) 0)
  generalize calculateChecksum (ipv4Front (20 + (8 + data.length)) 17 srcIp dstIp 0 ++
    List.replicate (8 + data.length) 0) = ck at hheader ⊢
  have hfront : (ipv4Front (20 + (8 + data.length)) 17 srcIp dstIp ck).length = 20 := rfl
  have hwritten := udp_written hfront data srcPort dstPort
  have hbehind := copyOfRange_behind hfront (datagram srcPort dstPort 0 data)
    (show 20 + (8 + data.length) = 20 + _ by rw [length_datagram])
  rw [buildUdp4]
  rw [replicate_split rfl, hheader, hwritten, hbehind]
  exact setShort_datagram hfront ..

theorem buildUdp6_eq {srcIp dstIp : List UInt8} (hsrc : srcIp.length = 16) (hdst : dstIp.length = 16)
    (data : List UInt8) :
    buildUdp6 srcIp dstIp srcPort dstPort data =
      ipv6Front (8 + data.length) 17 srcIp dstIp ++
      datagram srcPort dstPort
        (sent (calculateTransportChecksum6 srcIp dstIp (datagram srcPort dstPort 0 data) 17)) data := by
  have hfront := length_ipv6Front (8 + data.length) 17 hsrc hdst
  have hwritten := udp_written hfront data srcPort dstPort
  have hbehind := copyOfRange_behind hfront (datagram srcPort dstPort 0 data)
    (show 40 + (8 + data.length) = 40 + _ by rw [length_datagram])
  rw [buildUdp6]
  rw [replicate_split rfl, ipv6Header_replicate (8 + data.length) 17 hsrc hdst, hwritten, hbehind]
  exact setShort_datagram hfront ..

/-! ### What they write is valid and read back -/

variable {mtu srcPort dstPort seq ack flags}

theorem length_segmentFront (words : Nat) : (segmentFront srcPort dstPort seq ack words flags).length = 16 := rfl

theorem tcp4_valid (hsrcPort : srcPort < 65536) (hdstPort : dstPort < 65536) (hseq : seq < 2 ^ 32)
    (hflags : flags < 256) (srcIp dstIp : BitVec 32) (data : Option (List UInt8))
    (hfit : 40 + optLength flags + (data.getD []).length < 65536) :
    Valid4 (buildTcp4 mtu srcIp dstIp srcPort dstPort data seq ack flags) ∧
      ReadsTcp (buildTcp4 mtu srcIp dstIp srcPort dstPort data seq ack flags)
        ⟨6, long srcIp.toNat, srcPort, long dstIp.toNat, dstPort⟩ 20 seq flags (options flags (mss mtu 40)) (data.getD []) := by
  generalize hrest : options flags (mss mtu 40) ++ data.getD [] = rest
  have hlen : rest.length = optLength flags + (data.getD []).length := by
    rw [← hrest, List.length_append, length_options]
  rw [buildTcp4_eq mtu srcPort dstPort seq ack flags srcIp dstIp data hrest.symm rfl]
  constructor
  · have heven : (segmentFront srcPort dstPort seq ack (5 + optLength flags / 4) flags).length % 2 = 0 := by
      rw [length_segmentFront]
    exact valid4_sealed srcIp dstIp (by decide) (by decide) heven
      (by rw [length_segmentFront, List.length_cons, List.length_cons]; omega) (by omega) _
  · rw [← hrest]
    exact readsTcp_segment rfl hsrcPort hdstPort hseq hflags ack _ _ _ fun rest _ =>
      locate_ipv4Front _ (by decide) srcIp dstIp _ rest

theorem tcp6_valid (hsrcPort : srcPort < 65536) (hdstPort : dstPort < 65536) (hseq : seq < 2 ^ 32)
    (hflags : flags < 256) {srcIp dstIp : List UInt8} (hsrc : srcIp.length = 16) (hdst : dstIp.length = 16)
    (data : Option (List UInt8)) (hfit : 20 + optLength flags + (data.getD []).length < 65536) :
    Valid6 (buildTcp6 mtu srcIp dstIp srcPort dstPort data seq ack flags) ∧
      ReadsTcp (buildTcp6 mtu srcIp dstIp srcPort dstPort data seq ack flags)
        ⟨6, srcIp, srcPort, dstIp, dstPort⟩ 40 seq flags (options flags (mss mtu 60)) (data.getD []) := by
  generalize hrest : options flags (mss mtu 60) ++ data.getD [] = rest
  have hlen : rest.length = optLength flags + (data.getD []).length := by
    rw [← hrest, List.length_append, length_options]
  rw [buildTcp6_eq mtu srcPort dstPort seq ack flags hsrc hdst data hrest.symm rfl]
  constructor
  · have heven : (segmentFront srcPort dstPort seq ack (5 + optLength flags / 4) flags).length % 2 = 0 := by
      rw [length_segmentFront]
    exact valid6_sealed hsrc hdst (by decide) (by decide) heven
      (by rw [length_segmentFront, List.length_cons, List.length_cons]; omega) (by omega)
  · rw [← hrest]
    exact readsTcp_segment (length_ipv6Front _ 6 hsrc hdst) hsrcPort hdstPort hseq hflags ack _ _ _ fun rest _ =>
      locate_ipv6Front _ (.inl rfl) hsrc hdst rest

theorem length_datagramFront (srcPort dstPort length : Nat) :
    (short srcPort ++ short dstPort ++ short length).length = 6 := rfl

theorem udp4_valid (hsrcPort : srcPort < 65536) (hdstPort : dstPort < 65536) (srcIp dstIp : BitVec 32)
    {data : List UInt8} (hfit : 28 + data.length < 65536) :
    Valid4 (buildUdp4 srcIp dstIp srcPort dstPort data) ∧
      ReadsUdp (buildUdp4 srcIp dstIp srcPort dstPort data)
        ⟨17, long srcIp.toNat, srcPort, long dstIp.toNat, dstPort⟩ 20 16 4 data := by
  have hsix := length_datagramFront srcPort dstPort (8 + data.length)
  rw [buildUdp4_eq]
  constructor
  · exact valid4_sealed srcIp dstIp (by decide) (by decide) (by omega) (by omega) (by omega) _
  · exact readsUdp_datagram rfl hsrcPort hdstPort (sent_lt (Octets.checksum_lt _)) (sent_ne_zero _) (by omega)
      (fun rest => if_pos (version_ipv4Front ..)) fun rest _ => locate_ipv4Front _ (by decide) srcIp dstIp _ rest

theorem udp6_valid (hsrcPort : srcPort < 65536) (hdstPort : dstPort < 65536) {srcIp dstIp : List UInt8}
    (hsrc : srcIp.length = 16) (hdst : dstIp.length = 16) {data : List UInt8} (hfit : 8 + data.length < 65536) :
    Valid6 (buildUdp6 srcIp dstIp srcPort dstPort data) ∧
      ReadsUdp (buildUdp6 srcIp dstIp srcPort dstPort data) ⟨17, srcIp, srcPort, dstIp, dstPort⟩ 40 24 16 data := by
  have hother (rest : List UInt8) :
      UidFilter.version (ipv6Front (8 + data.length) 17 srcIp dstIp ++ rest) ≠ 4 := by
    rw [version_ipv6Front]
    decide
  have hsix := length_datagramFront srcPort dstPort (8 + data.length)
  rw [buildUdp6_eq srcPort dstPort hsrc hdst]
  constructor
  · exact valid6_sealed hsrc hdst (by decide) (by decide) (by omega) (by omega) hfit
  · exact readsUdp_datagram (length_ipv6Front _ 17 hsrc hdst) hsrcPort hdstPort (sent_lt (Octets.checksum_lt _))
      (sent_ne_zero _) hfit (fun rest => if_neg (hother rest)) fun rest _ =>
      locate_ipv6Front _ (.inr rfl) hsrc hdst rest

/-- **The builders write valid packets that the reader reads back**: for all addresses, ports,
numbers, flags and payloads whose length fits its field. -/
theorem builders_valid (hsrcPort : srcPort < 65536) (hdstPort : dstPort < 65536) (hseq : seq < 2 ^ 32)
    (hflags : flags < 256) (srcIp4 dstIp4 : BitVec 32) {srcIp6 dstIp6 : List UInt8} (hsrc : srcIp6.length = 16)
    (hdst : dstIp6.length = 16) (data : Option (List UInt8)) (payload : List UInt8) :
    (40 + optLength flags + (data.getD []).length < 65536 →
      Valid4 (buildTcp4 mtu srcIp4 dstIp4 srcPort dstPort data seq ack flags) ∧
      ReadsTcp (buildTcp4 mtu srcIp4 dstIp4 srcPort dstPort data seq ack flags)
        ⟨6, long srcIp4.toNat, srcPort, long dstIp4.toNat, dstPort⟩ 20 seq flags (options flags (mss mtu 40))
        (data.getD [])) ∧
    (20 + optLength flags + (data.getD []).length < 65536 →
      Valid6 (buildTcp6 mtu srcIp6 dstIp6 srcPort dstPort data seq ack flags) ∧
      ReadsTcp (buildTcp6 mtu srcIp6 dstIp6 srcPort dstPort data seq ack flags)
        ⟨6, srcIp6, srcPort, dstIp6, dstPort⟩ 40 seq flags (options flags (mss mtu 60)) (data.getD [])) ∧
    (28 + payload.length < 65536 →
      Valid4 (buildUdp4 srcIp4 dstIp4 srcPort dstPort payload) ∧
      ReadsUdp (buildUdp4 srcIp4 dstIp4 srcPort dstPort payload)
        ⟨17, long srcIp4.toNat, srcPort, long dstIp4.toNat, dstPort⟩ 20 16 4 payload) ∧
    (8 + payload.length < 65536 →
      Valid6 (buildUdp6 srcIp6 dstIp6 srcPort dstPort payload) ∧
      ReadsUdp (buildUdp6 srcIp6 dstIp6 srcPort dstPort payload) ⟨17, srcIp6, srcPort, dstIp6, dstPort⟩ 40 24 16
        payload) := by
  refine ⟨?_, ?_, ?_, ?_⟩
  · exact tcp4_valid hsrcPort hdstPort hseq hflags srcIp4 dstIp4 data
  · exact tcp6_valid hsrcPort hdstPort hseq hflags hsrc hdst data
  · exact udp4_valid hsrcPort hdstPort srcIp4 dstIp4
  · exact udp6_valid hsrcPort hdstPort hsrc hdst

end Builders

/-- A datagram of one octet from port 53 to port 4000. -/
theorem builders_valid_octet :
    Valid4 (buildUdp4 0x01010101 0x0A000002 53 4000 [7]) ∧
      ReadsUdp (buildUdp4 0x01010101 0x0A000002 53 4000 [7]) ⟨17, [1, 1, 1, 1], 53, [10, 0, 0, 2], 4000⟩ 20 16 4 [7] :=
  (@builders_valid 1500 53 4000 0 0 0x10 (by decide) (by decide) (by decide) (by decide) 0x01010101 0x0A000002
    (List.replicate 16 0) (List.replicate 16 0) rfl rfl none [7]).2.2.1 (by decide)

end Aether.Bridge.Builder
