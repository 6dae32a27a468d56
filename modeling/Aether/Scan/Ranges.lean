import Aether.Rust.Display
import Aether.Scan.Candidates

/-! The ranges of the user.

A scan of given ranges adds offsets to the address of a range as it was typed. So it stays
inside exactly if no range runs past its end, or runs into others that are given as well
(`manual_inside_iff`); and in a scan of whole subnets a range may come to nothing, which is
told by its length alone (`manual_contributes_iff`). -/
namespace Aether.Scan
open Rust (IpAddr SocketAddr firstOfEach mem_firstOfEach_id parseIpv4 parseUnsigned showUnsigned)

/-- An address as it was typed, and the length of its network. -/
abbrev Range := BitVec 32 × Nat

namespace Range

def hostBits (r : Range) : Nat := 32 - r.2

/-- The number belongs to the network. -/
def Has (r : Range) (a : Nat) : Prop := a / 2 ^ r.hostBits = r.1.toNat / 2 ^ r.hostBits

/-- The first number behind the network. -/
def stop (r : Range) : Nat := (r.1.toNat / 2 ^ r.hostBits + 1) * 2 ^ r.hostBits

/-- The number of addresses that a sample counts. -/
def size (r : Range) : Nat := if 32 ≤ r.hostBits then 2 ^ 32 - 1 else 2 ^ r.hostBits

/-- The largest offset that is added. -/
def last (r : Range) : Nat := r.size - 2

/-- The offsets of an enumeration. -/
def enumerated (r : Range) : List Nat :=
  if r.hostBits = 0 then [0] else if 12 < r.hostBits then [] else List.range' 1 (2 ^ r.hostBits - 2)

/-- The offsets of a sample. -/
def sampled (r : Range) (n : Nat) (draws : List Nat) : List Nat :=
  if r.size ≤ 2 then [0]
  else (firstOfEach id [] (draws.map fun draw => 1 + draw % r.last)).take (min (n % 2 ^ 32) r.last)

def offsets (full : Bool) (n : Nat) (draws : List Nat) (r : Range) : List Nat :=
  if full then r.enumerated else r.sampled n draws

/-- The sums that are computed. -/
def sums (full : Bool) (n : Nat) (draws : List Nat) (r : Range) : List Nat :=
  (r.offsets full n draws).map (r.1.toNat + ·)

end Range

/-- The hosts of a text. -/
def rangeHosts (full : Bool) (n : Nat) (draws : List Nat) (cidr : String) : List (BitVec 32) :=
  if full then enumerateCidrV4 cidr else sampleCidrV4 cidr n draws

theorem base_add (base : BitVec 32) (off : Nat) : base + BitVec.ofNat 32 off = BitVec.ofNat 32 (base.toNat + off) := by
  rw [BitVec.ofNat_add, BitVec.ofNat_toNat, BitVec.setWidth_eq]

/-- The hosts are the sums, around the end of the address space. -/
theorem rangeHosts_eq {cidr : String} {r : Range} (h : parseCidrV4 cidr = some r) (full : Bool) (n : Nat)
    (draws : List Nat) :
    rangeHosts full n draws cidr = (r.sums full n draws).map (BitVec.ofNat 32) := by
  have hbase : [r.1] = [0].map (fun off => BitVec.ofNat 32 (r.1.toNat + off)) := by
    rw [List.map_singleton, Nat.add_zero, BitVec.ofNat_toNat, BitVec.setWidth_eq]
  obtain ⟨base, length⟩ := r
  rw [rangeHosts, Range.sums, Range.offsets, List.map_map]
  cases full with
  | true =>
    rw [if_pos rfl, if_pos rfl, enumerateCidrV4, h, Range.enumerated, Range.hostBits]
    dsimp only
    split
    · exact hbase
    · split
      · rfl
      · apply List.map_congr_left
        intro off _
        exact base_add base off
  | false =>
    rw [if_neg (by decide), if_neg (by decide), sampleCidrV4, h, Range.sampled, Range.last, Range.size, Range.hostBits]
    dsimp only
    generalize (if 32 ≤ 32 - length then 2 ^ 32 - 1 else 2 ^ (32 - length)) = size
    split
    · exact hbase
    · apply List.map_congr_left
      intro off _
      exact base_add base off

/-! ### Offsets -/

namespace Range
variable {full : Bool} {n : Nat} {draws : List Nat} {r : Range}

theorem size_eq (h : r.hostBits < 32) : r.size = 2 ^ r.hostBits := if_neg (by omega)

theorem offset_le {off : Nat} (h : off ∈ r.offsets full n draws) : off ≤ r.last := by
  rw [offsets] at h
  split at h
  · rw [enumerated] at h
    split at h
    · rw [List.mem_singleton.mp h]
      exact Nat.zero_le _
    · split at h
      · cases h
      · rename_i hbits
        rw [List.mem_range'_1] at h
        rw [last, size_eq (by omega)]
        omega
  · rw [sampled] at h
    split at h
    · rw [List.mem_singleton.mp h]
      exact Nat.zero_le _
    · have hmem := List.mem_of_mem_take h
      rw [mem_firstOfEach_id] at hmem
      obtain ⟨draw, -, rfl⟩ := List.mem_map.mp hmem
      have hpos : 0 < r.last := by
        rw [last]
        omega
      have hless := Nat.mod_lt draw hpos
      omega

/-- In a scan of whole subnets, only of small ones. -/
theorem small_of_offset {off : Nat} (h : off ∈ r.offsets true n draws) : r.hostBits ≤ 12 := by
  rw [offsets, if_pos rfl, enumerated] at h
  split at h
  · omega
  · split at h
    · cases h
    · omega

/-- Every offset is taken, some time. -/
theorem exists_offset (hn : full = false → 0 < n % 2 ^ 32) (hsmall : full = true → r.hostBits ≤ 12) {off : Nat}
    (hpos : 0 < off) (hle : off ≤ r.last) : off ∈ r.offsets full n [off - 1] := by
  have hsize := hle
  rw [last] at hsize
  rw [offsets]
  cases full with
  | true =>
    have hbits := hsmall rfl
    rw [size_eq (by omega)] at hsize
    rw [if_pos rfl, enumerated]
    have hsome : r.hostBits ≠ 0 := by
      intro hzero
      rw [hzero] at hsize
      omega
    rw [if_neg hsome, if_neg (by omega), List.mem_range'_1]
    omega
  | false =>
    have hwant := hn rfl
    have htake : 1 ≤ min (n % 2 ^ 32) r.last := by omega
    have hdraw : 1 + (off - 1) % r.last = off := by
      rw [Nat.mod_eq_of_lt (by omega)]
      omega
    rw [if_neg (by decide), sampled, if_neg (by omega), List.map_singleton, hdraw]
    show off ∈ ([off].take _)
    rw [List.take_of_length_le htake]
    exact List.mem_singleton.mpr rfl

theorem lt_stop (r : Range) : r.1.toNat < r.stop := by
  rw [stop, Nat.mul_comm]
  exact Nat.lt_mul_div_succ _ (Nat.two_pow_pos _)

/-- In front of the end. -/
theorem has_of_lt {a : Nat} (hfrom : r.1.toNat ≤ a) (hto : a < r.stop) : r.Has a := by
  have hlow : r.1.toNat / 2 ^ r.hostBits ≤ a / 2 ^ r.hostBits := Nat.div_le_div_right hfrom
  have hhigh : a / 2 ^ r.hostBits < r.1.toNat / 2 ^ r.hostBits + 1 :=
    (Nat.div_lt_iff_lt_mul (Nat.two_pow_pos _)).mpr hto
  rw [Has]
  omega

end Range

/-! ### Texts -/

theorem slash_notMem_showV4 (bits : BitVec 32) : '/' ∉ (Rust.IpAddr.showV4 bits).toList := by
  have hdigits (n : Nat) : '/' ∉ Nat.toDigits 10 n :=
    fun hmem => absurd (Nat.isDigit_of_mem_toDigits (by decide) (by decide) hmem) (by decide)
  rw [Rust.showV4_toList]
  simp [hdigits]

/-- The text of a range is read as the range. -/
theorem parseCidrV4_show {r : Range} (h : r.2 ≤ 32) :
    parseCidrV4 (Rust.IpAddr.showV4 r.1 ++ "/" ++ showUnsigned r.2) = some r := by
  have hslash : "/" = String.singleton '/' := rfl
  have hsplit := Rust.splitOnce_append (slash_notMem_showV4 r.1) (showUnsigned r.2)
  have hnumber : parseUnsigned 8 (showUnsigned r.2) = some r.2 := Rust.parseUnsigned_showUnsigned (by omega)
  simp only [parseCidrV4, hslash, hsplit, Option.bind_eq_bind, Option.bind_some, Rust.parseIpv4_showV4, hnumber]

theorem exists_range {raw cidr : String} (h : appNormalizeCidrV4 raw = some cidr) : ∃ r : Range,
    parseCidrV4 cidr = some r := by
  have hread : ∀ addr : BitVec 32, ∀ bits ≤ 32, some (Rust.IpAddr.showV4 addr ++ "/" ++ showUnsigned bits) = some cidr →
      ∃ r : Range, parseCidrV4 cidr = some r := by
    intro addr bits hbits heq
    rw [← Option.some.inj heq]
    exact ⟨(addr, bits), @parseCidrV4_show (addr, bits) hbits⟩
  have hfixed (addr : BitVec 32) (tail : String) (bits : Nat) (htail : tail = "/" ++ showUnsigned bits)
    (hbits : bits ≤ 32)
      (heq : some (Rust.IpAddr.showV4 addr ++ tail) = some cidr) : ∃ r : Range, parseCidrV4 cidr = some r := by
    rw [htail, ← String.append_assoc] at heq
    exact hread addr bits hbits heq
  rw [appNormalizeCidrV4] at h
  split at h
  · cases h
  · split at h
    · obtain ⟨addr, -, h⟩ := Option.bind_eq_some_iff.mp h
      obtain ⟨bits, -, h⟩ := Option.bind_eq_some_iff.mp h
      split at h
      · cases h
      · rename_i hbits
        exact hread addr bits (Nat.le_of_not_lt hbits) h
    · split at h
      · obtain ⟨addr, -, h⟩ := Option.bind_eq_some_iff.mp h
        exact hfixed addr "/24" 24 (by decide +kernel) (by decide) h
      · obtain ⟨addr, -, h⟩ := Option.bind_eq_some_iff.mp h
        exact hfixed addr "/32" 32 (by decide +kernel) (by decide) h

/-- The texts that are accepted, in their normal form. -/
def accepted (raws : List String) : List String := raws.filterMap appNormalizeCidrV4

def ranges (raws : List String) : List Range := (accepted raws).filterMap parseCidrV4

section Hosts
variable {raws : List String} {full : Bool} {n : Nat} {dice : Dice}

theorem range_of_accepted {cidr : String} (h : cidr ∈ accepted raws) : ∃ r ∈ ranges raws,
  parseCidrV4 cidr = some r := by
  obtain ⟨raw, -, hraw⟩ := List.mem_filterMap.mp h
  obtain ⟨r, hr⟩ := exists_range hraw
  exact ⟨r, List.mem_filterMap.mpr ⟨cidr, h, hr⟩, hr⟩

/-- The hosts of every range. -/
def allHosts (full : Bool) (n : Nat) (dice : Dice) (raws : List String) : List (List (BitVec 32)) :=
  (accepted raws).mapIdx fun i c => rangeHosts full n (dice.v4 i) c

/-- The sums that are computed for them. -/
def manualSums (full : Bool) (n : Nat) (dice : Dice) (raws : List String) : List Nat :=
  ((accepted raws).mapIdx fun i c => ((parseCidrV4 c).map (Range.sums full n (dice.v4 i))).getD []).flatten

theorem mem_manualSums {s : Nat} : s ∈ manualSums full n dice raws ↔
    ∃ i cidr, ∃ r : Range, (accepted raws)[i]? = some cidr ∧ parseCidrV4 cidr = some r ∧
      s ∈ r.sums full n (dice.v4 i) := by
  rw [manualSums, List.mem_flatten]
  apply Iff.intro
  · intro ⟨l, hl, hs⟩
    obtain ⟨i, hi, rfl⟩ := List.mem_mapIdx.mp hl
    obtain ⟨r, -, hr⟩ := range_of_accepted (List.getElem_mem hi)
    rw [hr] at hs
    exact ⟨i, _, r, List.getElem?_eq_getElem hi, hr, hs⟩
  · intro ⟨i, cidr, r, hi, hr, hs⟩
    obtain ⟨hlt, rfl⟩ := List.getElem?_eq_some_iff.mp hi
    refine ⟨_, List.mem_mapIdx.mpr ⟨i, hlt, rfl⟩, ?_⟩
    rw [hr]
    exact hs

theorem mem_allHosts {a : BitVec 32} :
    a ∈ interleave (allHosts full n dice raws) ↔ ∃ s ∈ manualSums full n dice raws, a = BitVec.ofNat 32 s := by
  rw [mem_interleave]
  apply Iff.intro
  · intro ⟨l, hl, ha⟩
    obtain ⟨i, hi, rfl⟩ := List.mem_mapIdx.mp hl
    obtain ⟨r, -, hr⟩ := range_of_accepted (List.getElem_mem hi)
    rw [rangeHosts_eq hr] at ha
    obtain ⟨s, hs, rfl⟩ := List.mem_map.mp ha
    exact ⟨s, mem_manualSums.mpr ⟨i, _, r, List.getElem?_eq_getElem hi, hr, hs⟩, rfl⟩
  · intro ⟨s, hs, heq⟩
    obtain ⟨i, cidr, r, hi, hr, hs⟩ := mem_manualSums.mp hs
    obtain ⟨hlt, rfl⟩ := List.getElem?_eq_some_iff.mp hi
    refine ⟨_, List.mem_mapIdx.mpr ⟨i, hlt, rfl⟩, ?_⟩
    rw [rangeHosts_eq hr, heq]
    exact List.mem_map_of_mem hs

end Hosts

/-! ### Candidates -/

section Lists
variable {raws : List String} {ports : List UInt16} {dice : Dice}

theorem masque_host {st : Strategy} {c : IpAddr × UInt16}
    (h : c ∈ manualMasqueCandidates st ports dice (accepted raws)) :
    ∃ a ∈ interleave (allHosts st.fullSubnet st.samplePerCidr dice raws), c.1 = .v4 a := by
  have hfst : c.1 ∈ (interleave (masqueHostsV4 st dice (accepted raws))).map IpAddr.v4 := by
    rw [manualMasqueCandidates, mem_firstOfEach_id, List.mem_append] at h
    obtain h | h := h
    · obtain ⟨a, ha, rfl⟩ := List.mem_map.mp h
      exact ha
    · obtain ⟨a, ha, h⟩ := List.mem_flatMap.mp h
      obtain ⟨port, -, rfl⟩ := List.mem_map.mp h
      exact ha
  obtain ⟨a, ha, heq⟩ := List.mem_map.mp hfst
  exact ⟨a, ha, heq.symm⟩

theorem masque_candidate {st : Strategy} {a : BitVec 32}
    (h : a ∈ interleave (allHosts st.fullSubnet st.samplePerCidr dice raws)) :
    (.v4 a, primary ports) ∈ manualMasqueCandidates st ports dice (accepted raws) := by
  rw [manualMasqueCandidates, mem_firstOfEach_id, List.mem_append]
  exact .inl (List.mem_map_of_mem (List.mem_map_of_mem h))

theorem wg_host {st : WgStrategy} {excluded : SocketAddr → Bool} {c : IpAddr × UInt16}
    (h : c ∈ manualWgCandidates st ports dice (accepted raws) excluded) :
    ∃ a ∈ interleave (allHosts st.fullSubnet st.samplePerCidr dice raws), c.1 = .v4 a := by
  rw [manualWgCandidates] at h
  obtain ⟨wave, -, h⟩ := List.mem_flatMap.mp (mem_pushed.mp h).1
  obtain ⟨⟨ip, i⟩, hip, rfl⟩ := List.mem_map.mp h
  obtain ⟨a, ha, heq⟩ := List.mem_map.mp (List.mem_of_getElem? (List.mem_zipIdx_iff_getElem?.mp hip))
  exact ⟨a, ha, heq.symm⟩

theorem wg_candidate {st : WgStrategy} {a : BitVec 32}
    (h : a ∈ interleave (allHosts st.fullSubnet st.samplePerCidr dice raws)) :
    ∃ port, (.v4 a, port) ∈ manualWgCandidates st ports dice (accepted raws) fun _ => false := by
  have hmem : IpAddr.v4 a ∈ (interleave (hostsV4 st dice (accepted raws))).map IpAddr.v4 := List.mem_map_of_mem h
  obtain ⟨i, hi⟩ := List.mem_iff_getElem?.mp hmem
  simp only [manualWgCandidates]
  generalize (if ports.isEmpty = true then [2408] else ports) = ports
  refine ⟨ports.getD ((i + 0) % ports.length) 0, mem_pushed.mpr ⟨List.mem_flatMap.mpr ⟨0, ?_, ?_⟩, rfl⟩⟩
  · rw [List.mem_range]
    exact lt_of_lt_of_le Nat.zero_lt_one (le_max_right _ _)
  · exact List.mem_map.mpr ⟨(.v4 a, i), List.mem_zipIdx_iff_getElem?.mpr hi, rfl⟩

end Lists

/-! ### Whether a scan stays inside -/

/-- The candidate is an address of a range. -/
def Inside (raws : List String) (c : IpAddr × UInt16) : Prop :=
  ∃ a : BitVec 32, c.1 = .v4 a ∧ ∃ r ∈ ranges raws, r.Has a.toNat

/-- Whatever is drawn, the candidates of both scanners are addresses of the ranges, and no sum that
is computed for them runs out of the address space. -/
def StaysInside (mode : ScanMode) (ports : List UInt16) (raws : List String) : Prop :=
  ∀ (dice : Dice) (excluded : SocketAddr → Bool),
    (∀ c ∈ manualMasqueCandidates mode.masqueStrategy ports dice (accepted raws), Inside raws c) ∧
    (∀ c ∈ manualWgCandidates mode.strategy ports dice (accepted raws) excluded, Inside raws c) ∧
    (∀ s ∈ manualSums mode.masqueStrategy.fullSubnet mode.masqueStrategy.samplePerCidr dice raws, s < 2 ^ 32) ∧
    ∀ s ∈ manualSums mode.strategy.fullSubnet mode.strategy.samplePerCidr dice raws, s < 2 ^ 32

/-- The largest sum is an address, and what lies between the end of the range and it belongs to
ranges of the user. A scan of whole subnets passes over ranges of more than twelve bits. -/
def Contained (mode : ScanMode) (raws : List String) (r : Range) : Prop :=
  (mode = .thorough → r.hostBits ≤ 12) → r.1.toNat + r.last < 2 ^ 32 ∧
    ∀ a, r.stop ≤ a → a ≤ r.1.toNat + r.last → ∃ q ∈ ranges raws, q.Has a

theorem full_iff (mode : ScanMode) : (mode.masqueStrategy.fullSubnet = true ↔ mode = .thorough) ∧
    (mode.strategy.fullSubnet = true ↔ mode = .thorough) := by
  cases mode <;> decide

theorem sample_pos (mode : ScanMode) :
    (mode.masqueStrategy.fullSubnet = false → 0 < mode.masqueStrategy.samplePerCidr % 2 ^ 32) ∧
      (mode.strategy.fullSubnet = false → 0 < mode.strategy.samplePerCidr % 2 ^ 32) := by
  cases mode <;> decide

theorem sum_inside {mode : ScanMode} {raws : List String} (h : ∀ r ∈ ranges raws, Contained mode raws r) {full : Bool}
    (hfull : full = true ↔ mode = .thorough) {n : Nat} {dice : Dice} {s : Nat} (hs : s ∈ manualSums full n dice raws) :
    s < 2 ^ 32 ∧ ∃ r ∈ ranges raws, r.Has s := by
  obtain ⟨i, cidr, r, hi, hr, hs⟩ := mem_manualSums.mp hs
  obtain ⟨off, hoff, rfl⟩ := List.mem_map.mp hs
  have hmem : r ∈ ranges raws := List.mem_filterMap.mpr ⟨cidr, List.mem_of_getElem? hi, hr⟩
  have hle := Range.offset_le hoff
  have hsmall : mode = .thorough → r.hostBits ≤ 12 := by
    intro hmode
    rw [hfull.mpr hmode] at hoff
    exact Range.small_of_offset hoff
  obtain ⟨hlast, hpast⟩ := h r hmem hsmall
  refine ⟨by omega, ?_⟩
  by_cases hstop : r.1.toNat + off < r.stop
  · exact ⟨r, hmem, Range.has_of_lt (Nat.le_add_right _ _) hstop⟩
  · exact hpast _ (by omega) (by omega)

theorem inside_of_sum {raws : List String} {a : BitVec 32} {s : Nat} (ha : a = BitVec.ofNat 32 s)
    (hs : s < 2 ^ 32 ∧ ∃ r ∈ ranges raws, r.Has s) {c : IpAddr × UInt16} (hc : c.1 = .v4 a) : Inside raws c := by
  refine ⟨a, hc, ?_⟩
  rw [ha, BitVec.toNat_ofNat, Nat.mod_eq_of_lt hs.1]
  exact hs.2

/-- The dice that make a sample take an offset. -/
def diceFor (off : Nat) : Dice where
  v4 _ := [off - 1]

/-- A scan of the user's ranges never leaves them exactly if none of them, with the address as it
was typed, runs past its end into what is not in another one. -/
theorem manual_inside_iff (mode : ScanMode) (ports : List UInt16) (raws : List String) :
    StaysInside mode ports raws ↔ ∀ r ∈ ranges raws, Contained mode raws r := by
  obtain ⟨hmasque, hwg⟩ := full_iff mode
  apply Iff.intro
  · intro h r hr hsmall
    obtain ⟨cidr, hcidr, hread⟩ := List.mem_filterMap.mp hr
    obtain ⟨i, hi⟩ := List.mem_iff_getElem?.mp hcidr
    have hsum : ∀ off, 0 < off → off ≤ r.last → r.1.toNat + off ∈
        manualSums mode.masqueStrategy.fullSubnet mode.masqueStrategy.samplePerCidr (diceFor off) raws := by
      intro off hpos hle
      have hoff := Range.exists_offset (sample_pos mode).1 (fun hfull => hsmall (hmasque.mp hfull)) hpos hle
      exact mem_manualSums.mpr ⟨i, cidr, r, hi, hread, List.mem_map_of_mem hoff⟩
    have hbound : ∀ off, off ≤ r.last → r.1.toNat + off < 2 ^ 32 := by
      intro off hle
      cases off with
      | zero => exact r.1.isLt
      | succ k => exact (h (diceFor (k + 1)) fun _ => false).2.2.1 _ (hsum (k + 1) (Nat.succ_pos k) hle)
    refine ⟨hbound _ (Nat.le_refl _), fun a hstop hle => ?_⟩
    have hbehind := Range.lt_stop r
    have hoff : r.1.toNat + (a - r.1.toNat) = a := by omega
    have hmem := hsum (a - r.1.toNat) (by omega) (by omega)
    have hlt := hbound (a - r.1.toNat) (by omega)
    rw [hoff] at hmem hlt
    have hhost := mem_allHosts.mpr ⟨a, hmem, rfl⟩
    obtain ⟨b, hb, q, hq, hhas⟩ := (h (diceFor (a - r.1.toNat)) fun _ => false).1 _ (masque_candidate hhost)
    rw [← IpAddr.v4.inj hb, BitVec.toNat_ofNat, Nat.mod_eq_of_lt hlt] at hhas
    exact ⟨q, hq, hhas⟩
  · intro h dice excluded
    refine ⟨?_, ?_, fun s hs => (sum_inside h hmasque hs).1, fun s hs => (sum_inside h hwg hs).1⟩
    · intro c hc
      obtain ⟨a, ha, heq⟩ := masque_host hc
      obtain ⟨s, hs, hsum⟩ := mem_allHosts.mp ha
      exact inside_of_sum hsum (sum_inside h hmasque hs) heq
    · intro c hc
      obtain ⟨a, ha, heq⟩ := wg_host hc
      obtain ⟨s, hs, hsum⟩ := mem_allHosts.mp ha
      exact inside_of_sum hsum (sum_inside h hwg hs) heq

/-- Of `10.0.0.2/30`, the addresses 10.0.0.3 and 10.0.0.4 are tried. -/
theorem leaves_range : ¬ StaysInside .thorough [443] ["10.0.0.2/30"] := by
  intro h
  obtain ⟨a, ha, r, hr, hhas⟩ := (h {} fun _ => false).1 (.v4 0x0A000004, 443) (by decide +kernel)
  have hranges : ranges ["10.0.0.2/30"] = [(0x0A000002, 30)] := by decide +kernel
  rw [hranges, List.mem_singleton] at hr
  rw [← IpAddr.v4.inj ha, hr, Range.Has] at hhas
  exact absurd hhas (by decide)

/-! ### Whether every range is scanned -/

/-- The draws go on until the sample has its size, which is when the loop ends. -/
def Range.Completes (n : Nat) (draws : List Nat) (r : Range) : Prop :=
  r.size ≤ 2 ∨ min (n % 2 ^ 32) r.last ≤ (firstOfEach id [] (draws.map fun draw => 1 + draw % r.last)).length

/-- Every sample is complete. -/
def Dice.Completes (dice : Dice) (full : Bool) (n : Nat) (raws : List String) : Prop :=
  full = false → ∀ (i : Nat) (cidr : String) (r : Range), (accepted raws)[i]? = some cidr → parseCidrV4 cidr = some r →
    r.Completes n (dice.v4 i)

/-- Each range that is accepted gives a host, which is a candidate of both scanners. -/
def EachContributes (mode : ScanMode) (ports : List UInt16) (raws : List String) : Prop :=
  (∀ dice : Dice, dice.Completes mode.masqueStrategy.fullSubnet mode.masqueStrategy.samplePerCidr raws →
    ∀ hosts ∈ masqueHostsV4 mode.masqueStrategy dice (accepted raws), ∃ a ∈ hosts, ∃ port,
      (.v4 a, port) ∈ manualMasqueCandidates mode.masqueStrategy ports dice (accepted raws)) ∧
  ∀ dice : Dice, dice.Completes mode.strategy.fullSubnet mode.strategy.samplePerCidr raws →
    ∀ hosts ∈ hostsV4 mode.strategy dice (accepted raws), ∃ a ∈ hosts, ∃ port,
      (.v4 a, port) ∈ manualWgCandidates mode.strategy ports dice (accepted raws) fun _ => false

/-- A single address, or a network of four to 4096 addresses. -/
def Range.Enumerable (r : Range) : Prop := r.hostBits = 0 ∨ 2 ≤ r.hostBits ∧ r.hostBits ≤ 12

theorem Range.enumerated_ne_nil_iff (r : Range) : r.enumerated ≠ [] ↔ r.Enumerable := by
  rw [enumerated, Enumerable]
  split
  · rename_i hzero
    exact ⟨fun _ => .inl hzero, fun _ => List.cons_ne_nil _ _⟩
  · rename_i hsome
    split
    · rename_i hlarge
      apply iff_of_false (fun h => h rfl)
      omega
    · rename_i hsmall
      rw [ne_eq, List.range'_eq_nil_iff]
      apply Iff.intro
      · intro hpow
        refine .inr ⟨?_, by omega⟩
        by_contra hless
        have hone : r.hostBits = 1 := by omega
        rw [hone] at hpow
        exact hpow rfl
      · intro hbits
        have hpow : 2 ^ 2 ≤ 2 ^ r.hostBits := Nat.pow_le_pow_right (by decide) (by omega)
        omega

theorem Range.sampled_ne_nil {n : Nat} (hn : 0 < n % 2 ^ 32) {draws : List Nat} {r : Range} (h : r.Completes n draws) :
    r.sampled n draws ≠ [] := by
  rw [sampled]
  split
  · exact List.cons_ne_nil _ _
  · rename_i hsize
    obtain h | h := h
    · exact absurd h hsize
    · have hlast : 0 < r.last := by
        rw [last]
        omega
      apply List.ne_nil_of_length_pos
      rw [List.length_take]
      omega

theorem Range.sums_ne_nil {full : Bool} {n : Nat} {draws : List Nat} {r : Range} (hfull : full = true → r.Enumerable)
    (hn : full = false → 0 < n % 2 ^ 32) (hdraws : full = false → r.Completes n draws) : r.sums full n draws ≠ [] := by
  rw [sums, offsets, ne_eq, List.map_eq_nil_iff]
  cases full with
  | true => exact r.enumerated_ne_nil_iff.mpr (hfull rfl)
  | false => exact Range.sampled_ne_nil (hn rfl) (hdraws rfl)

theorem exists_of_hosts {full : Bool} {n : Nat} {dice : Dice} {raws : List String} {hosts : List (BitVec 32)}
    (h : hosts ∈ allHosts full n dice raws) : ∃ (i : Nat) (cidr : String) (r : Range),
      (accepted raws)[i]? = some cidr ∧ parseCidrV4 cidr = some r ∧ r ∈ ranges raws ∧
        hosts = (r.sums full n (dice.v4 i)).map (BitVec.ofNat 32) := by
  obtain ⟨i, hi, rfl⟩ := List.mem_mapIdx.mp h
  obtain ⟨r, hmem, hr⟩ := range_of_accepted (List.getElem_mem hi)
  exact ⟨i, _, r, List.getElem?_eq_getElem hi, hr, hmem, rangeHosts_eq hr ..⟩

/-- Hosts of a range, where it has some. -/
theorem exists_host {mode : ScanMode} {raws : List String} (h : mode = .thorough → ∀ r ∈ ranges raws, r.Enumerable)
    {full : Bool} (hfull : full = true ↔ mode = .thorough) {n : Nat} (hn : full = false → 0 < n % 2 ^ 32) {dice : Dice}
    (hdice : dice.Completes full n raws) {hosts : List (BitVec 32)} (hhosts : hosts ∈ allHosts full n dice raws) :
    ∃ a ∈ hosts, a ∈ interleave (allHosts full n dice raws) := by
  obtain ⟨i, cidr, r, hi, hr, hmem, heq⟩ := exists_of_hosts hhosts
  have hne := Range.sums_ne_nil (fun htrue => h (hfull.mp htrue) r hmem) hn fun hfalse => hdice hfalse i cidr r hi hr
  obtain ⟨s, hs⟩ := List.exists_mem_of_ne_nil _ hne
  have ha : BitVec.ofNat 32 s ∈ hosts := by
    rw [heq]
    exact List.mem_map_of_mem hs
  exact ⟨_, ha, mem_interleave.mpr ⟨hosts, hhosts, ha⟩⟩

/-- Every range is scanned exactly if the mode takes samples, or each range is enumerable. -/
theorem manual_contributes_iff (mode : ScanMode) (ports : List UInt16) (raws : List String) :
    EachContributes mode ports raws ↔ (mode = .thorough → ∀ r ∈ ranges raws, r.Enumerable) := by
  obtain ⟨hmasque, hwg⟩ := full_iff mode
  obtain ⟨hsample, hsample'⟩ := sample_pos mode
  apply Iff.intro
  · intro h hmode r hr
    have hfull := hmasque.mpr hmode
    obtain ⟨cidr, hcidr, hread⟩ := List.mem_filterMap.mp hr
    obtain ⟨i, hi, rfl⟩ := List.mem_iff_getElem.mp hcidr
    have hcomplete : Dice.Completes {} mode.masqueStrategy.fullSubnet mode.masqueStrategy.samplePerCidr raws := by
      intro hfalse
      rw [hfull] at hfalse
      cases hfalse
    obtain ⟨a, ha, -⟩ := h.1 {} hcomplete _ (List.mem_mapIdx.mpr ⟨i, hi, rfl⟩)
    have hhost : a ∈ rangeHosts mode.masqueStrategy.fullSubnet mode.masqueStrategy.samplePerCidr []
      (accepted raws)[i] := ha
    rw [rangeHosts_eq hread, hfull, Range.sums, Range.offsets, if_pos rfl] at hhost
    rw [← r.enumerated_ne_nil_iff]
    intro hnil
    rw [hnil] at hhost
    cases hhost
  · intro h
    refine ⟨fun dice hdice hosts hhosts => ?_, fun dice hdice hosts hhosts => ?_⟩
    · obtain ⟨a, ha, hall⟩ := exists_host h hmasque hsample hdice hhosts
      exact ⟨a, ha, _, masque_candidate hall⟩
    · obtain ⟨a, ha, hall⟩ := exists_host h hwg hsample' hdice hhosts
      exact ⟨a, ha, wg_candidate hall⟩

/-- A scan of whole subnets has no candidate for a range of two addresses. -/
theorem pair_ignored : ¬ EachContributes .thorough [443] ["10.0.0.0/31"] ∧
    manualMasqueCandidates ScanMode.thorough.masqueStrategy [443] {} (accepted ["10.0.0.0/31"]) = [] ∧
    manualWgCandidates ScanMode.thorough.strategy [443] {} (accepted ["10.0.0.0/31"]) (fun _ => false) = [] := by
  refine ⟨fun h => ?_, by decide +kernel, by decide +kernel⟩
  have hhosts : [] ∈ masqueHostsV4 ScanMode.thorough.masqueStrategy {} (accepted ["10.0.0.0/31"]) := by decide +kernel
  obtain ⟨a, ha, -⟩ := h.1 {} (fun hfalse => Bool.noConfusion hfalse) _ hhosts
  cases ha

end Aether.Scan
