import Aether.Rust.Parse

/-! What `Display` writes, `str::parse` reads: unsigned numbers, and addresses of the fourth
version. -/
namespace Aether.Rust

theorem decimalValue_digits {digits : List Char} {n : Nat} (h : decimalValue digits = some n) :
    digits ≠ [] ∧ ∀ c ∈ digits, c.isDigit = true := by
  rw [decimalValue] at h
  split at h
  · rename_i hdigits
    exact ⟨hdigits.1, List.all_eq_true.mp hdigits.2⟩
  · cases h

theorem parseUnsigned_digits {w n : Nat} {s : String} (h : decimalValue s.toList = some n) (hn : n < 2 ^ w) :
    parseUnsigned w s = some n := by
  rw [parseUnsigned]
  split
  · rename_i cs hcs
    exact absurd ((decimalValue_digits h).2 '+' (by rw [hcs]; exact List.mem_cons_self ..)) (by decide)
  · rw [h, Option.filter_some, if_pos (decide_eq_true hn)]

theorem isDigit_showUnsigned (n : Nat) : ∀ c ∈ (showUnsigned n).toList, c.isDigit = true := by
  intro c hc
  rw [showUnsigned, String.toList_ofList] at hc
  exact Nat.isDigit_of_mem_toDigits (by decide) (by decide) hc

theorem parseUnsigned_showUnsigned {w n : Nat} (h : n < 2 ^ w) : parseUnsigned w (showUnsigned n) = some n := by
  have hdigits := isDigit_showUnsigned n
  have hne : (showUnsigned n).toList ≠ [] := by
    rw [showUnsigned, String.toList_ofList]
    exact Nat.toDigits_ne_nil
  have hvalue : decimalValue (showUnsigned n).toList = some n := by
    rw [decimalValue, if_pos ⟨hne, List.all_eq_true.mpr hdigits⟩, showUnsigned, String.toList_ofList,
      Nat.ofDigitChars_ten_toDigits]
  exact parseUnsigned_digits hvalue h

/-! ### Addresses -/

/-- A text that goes on with no digit. -/
def Stops (rest : List Char) : Prop := ∀ c ∈ rest.head?, toDigit 10 c = none

theorem readDigits_append {ds rest : List Char} (hrest : Stops rest) (value count : Nat)
    (h : (readDigits 10 value count ds).2.2 = []) :
    readDigits 10 value count (ds ++ rest) =
      ((readDigits 10 value count ds).1, (readDigits 10 value count ds).2.1, rest) := by
  induction ds generalizing value count with
  | nil =>
    cases rest with
    | nil => rfl
    | cons c rest =>
      have hc : toDigit 10 c = none := hrest c rfl
      simp only [List.nil_append, readDigits, hc]
  | cons d ds ih =>
    cases hd : toDigit 10 d with
    | none =>
      rw [readDigits, hd] at h
      cases h
    | some v =>
      rw [readDigits, hd] at h
      rw [List.cons_append, readDigits, readDigits, hd]
      exact ih _ _ h

/-- An octet is read off the text in front of what is no digit. -/
theorem readNumber_octet (octet : BitVec 8) {rest : List Char} (hrest : Stops rest) :
    readNumber 10 3 8 false (Nat.toDigits 10 octet.toNat ++ rest) = some (octet, rest) := by
  have hall : ∀ n < 256, (readDigits 10 0 0 (Nat.toDigits 10 n)).1 = n ∧
      (readDigits 10 0 0 (Nat.toDigits 10 n)).2.1 ≤ 3 ∧ (readDigits 10 0 0 (Nat.toDigits 10 n)).2.1 ≠ 0 ∧
      ((Nat.toDigits 10 n).head? = some '0' → (readDigits 10 0 0 (Nat.toDigits 10 n)).2.1 = 1) ∧
      (readDigits 10 0 0 (Nat.toDigits 10 n)).2.2 = [] ∧ Nat.toDigits 10 n ≠ [] := by
    decide +kernel
  obtain ⟨hvalue, hshort, hsome, hzero, hread, hne⟩ := hall octet.toNat octet.isLt
  rw [readNumber, readDigits_append hrest 0 0 hread, hvalue]
  generalize (readDigits 10 0 0 (Nat.toDigits 10 octet.toNat)).2.1 = count at hshort hsome hzero
  have hhead : (Nat.toDigits 10 octet.toNat ++ rest).head? = (Nat.toDigits 10 octet.toNat).head? :=
    List.head?_append_of_ne_nil _ hne
  have hcanonical : ((Nat.toDigits 10 octet.toNat).head? == some '0' && decide (1 < count)) = false := by
    rw [Bool.eq_false_iff, ne_eq, Bool.and_eq_true, beq_iff_eq, decide_eq_true_eq]
    intro h
    obtain ⟨hfirst, hcount⟩ := h
    rw [hzero hfirst] at hcount
    exact Nat.lt_irrefl 1 hcount
  dsimp only
  rw [if_neg (Nat.not_lt.mpr hshort), if_neg (by simpa using hsome), hhead, Bool.not_false, Bool.true_and,
    if_neg (by rw [hcanonical]; decide), if_pos octet.isLt, BitVec.ofNat_toNat, BitVec.setWidth_eq]

theorem readSeparator_octet {index : Nat} (h : 0 < index) (octet : BitVec 8) {rest : List Char} (hrest : Stops rest) :
    readSeparator '.' index (readNumber 10 3 8 false) ('.' :: (Nat.toDigits 10 octet.toNat ++ rest)) =
      some (octet, rest) := by
  rw [readSeparator, if_pos h]
  exact readNumber_octet octet hrest

theorem stops_dot (rest : List Char) : Stops ('.' :: rest) := by
  intro c hc
  rw [← Option.some.inj hc]
  rfl

theorem stops_nil : Stops [] := by
  intro c hc
  cases hc

theorem showV4_toList (bits : BitVec 32) : (IpAddr.showV4 bits).toList =
    Nat.toDigits 10 (bits.extractLsb' 24 8).toNat ++ '.' :: (Nat.toDigits 10 (bits.extractLsb' 16 8).toNat ++
      '.' :: (Nat.toDigits 10 (bits.extractLsb' 8 8).toNat ++ '.' :: (Nat.toDigits 10 (bits.extractLsb' 0 8).toNat ++ []))) := by
  have hgroups : IpAddr.groups 4 8 bits =
      [bits.extractLsb' 24 8, bits.extractLsb' 16 8, bits.extractLsb' 8 8, bits.extractLsb' 0 8] := rfl
  rw [IpAddr.showV4, IpAddr.joined, hgroups, String.toList_intercalate]
  simp [List.intercalate, List.intersperse]

theorem join_octets (bits : BitVec 32) :
    bits.extractLsb' 24 8 ++ bits.extractLsb' 16 8 ++ bits.extractLsb' 8 8 ++ bits.extractLsb' 0 8 = bits := by
  apply BitVec.eq_of_getLsbD_eq
  intro i hi
  simp only [BitVec.getLsbD_append, BitVec.getLsbD_extractLsb']
  split_ifs <;> simp <;> grind

/-- An address is read back from its text. -/
theorem parseIpv4_showV4 (bits : BitVec 32) : parseIpv4 (IpAddr.showV4 bits) = some bits := by
  have hread : readIpv4Addr (IpAddr.showV4 bits).toList = some (bits, []) := by
    rw [showV4_toList, readIpv4Addr]
    dsimp only
    rw [show readSeparator '.' 0 (readNumber 10 3 8 false) = readNumber 10 3 8 false from rfl,
      readNumber_octet _ (stops_dot _)]
    dsimp only [Option.bind_eq_bind, Option.bind_some]
    rw [readSeparator_octet Nat.zero_lt_one _ (stops_dot _)]
    dsimp only [Option.bind_some]
    rw [readSeparator_octet Nat.zero_lt_two _ (stops_dot _)]
    dsimp only [Option.bind_some]
    rw [readSeparator_octet (by decide) _ stops_nil]
    dsimp only [Option.bind_some]
    rw [join_octets]
  simp only [parseIpv4, hread]

end Aether.Rust
