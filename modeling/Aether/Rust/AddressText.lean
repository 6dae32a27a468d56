import Aether.Rust.Net

/-! Which texts are addresses.

An address of the sixth version has digits only before its first colon, one of the fourth
has no colon, and a text that begins with a colon is an address only if it begins with two
and not three. -/
namespace Aether.Rust

theorem literal_bounds {c : Char} (h : Literal c) :
    c.toNat = 46 ∨ (48 ≤ c.toNat ∧ c.toNat ≤ 58) ∨ (65 ≤ c.toNat ∧ c.toNat ≤ 70) ∨
      (97 ≤ c.toNat ∧ c.toNat ≤ 102) := by
  rcases h with h | rfl | rfl
  · obtain ⟨d, hd⟩ := Option.isSome_iff_exists.mp h
    obtain ⟨hvalue, -⟩ := Option.filter_eq_some_iff.mp hd
    split_ifs at hvalue with h0 ha hA <;> simp only [Bool.and_eq_true, decide_eq_true_eq] at *
    · omega
    · omega
    · omega
  · exact .inl rfl
  · exact .inr (.inl (by decide))

theorem readIpAddr_of_parseIp {s : String} {ip : IpAddr} (h : parseIp s = some ip) :
    readIpAddr s.toList = some (ip, []) := by
  rw [parseIp] at h
  split at h
  case h_1 found hfound =>
    rw [hfound, Option.some.inj h]
  case h_2 => cases h

theorem ne_nil_of_parseIp {s : String} {ip : IpAddr} (h : parseIp s = some ip) : s.toList ≠ [] := by
  intro hnil
  have hread := readIpAddr_of_parseIp h
  have hnone : readIpAddr [] = none := by decide
  rw [hnil, hnone] at hread
  cases hread

/-! ### A colon in front -/

section
variable {c : Char} (cs : List Char)

theorem readNumber_other {radix : Nat} (hc : toDigit radix c = none) (maxDigits width : Nat) (zero : Bool) :
    readNumber radix maxDigits width zero (c :: cs) = none := by
  rw [readNumber, readDigits, hc]
  simp

theorem readIpv4Addr_other (hc : toDigit 10 c = none) : readIpv4Addr (c :: cs) = none := by
  have hnone : readSeparator '.' 0 (readNumber 10 3 8 false) (c :: cs) = none := readNumber_other cs hc 3 8 false
  rw [readIpv4Addr]
  dsimp only
  rw [hnone]
  rfl

theorem readGroups_colon (room : Nat) : readGroups room 0 (':' :: cs) = ([], false, ':' :: cs) := by
  cases room with
  | zero => rfl
  | succ room =>
    have hdigit : toDigit 16 ':' = none := by decide
    have hnumber : readSeparator ':' 0 (readNumber 16 4 16 true) (':' :: cs) = none :=
      readNumber_other cs hdigit 4 16 true
    have hipv4 : readSeparator ':' 0 readIpv4Addr (':' :: cs) = none := readIpv4Addr_other cs (by decide)
    rw [readGroups, hipv4, ite_self, hnumber]

/-- A text that begins with a colon is an address from the `::` on. -/
theorem readIpAddr_colon :
    readIpAddr (':' :: cs) = (readCompressed [] (':' :: cs)).map fun (bits, cs) => (.v6 bits, cs) := by
  have hipv6 : readIpv6Addr (':' :: cs) = readCompressed [] (':' :: cs) := by
    rw [readIpv6Addr, readGroups_colon]
    rfl
  rw [readIpAddr, readIpv4Addr_other cs (by decide), hipv6]

end

/-- An address begins with two colons or with none. -/
theorem parseIp_colon {s : String} {ip : IpAddr} {rest : List Char} (h : parseIp s = some ip)
    (hs : s.toList = ':' :: rest) : ∃ tail, rest = ':' :: tail ∧ tail.head? ≠ some ':' := by
  have hread := readIpAddr_of_parseIp h
  rw [hs, readIpAddr_colon, readCompressed] at hread
  obtain ⟨⟨bits, left⟩, hcompressed, hpair⟩ := Option.map_eq_some_iff.mp hread
  obtain ⟨-, rfl⟩ := Prod.mk.inj hpair
  cases rest with
  | nil => cases hcompressed
  | cons c tail =>
    by_cases hc : c = ':'
    · refine ⟨tail, by rw [hc], ?_⟩
      intro hhead
      obtain ⟨tail, rfl⟩ : ∃ more, tail = ':' :: more := by
        cases tail with
        | nil => cases hhead
        | cons d more => exact ⟨more, by rw [Option.some.inj hhead]⟩
      rw [hc] at hcompressed
      have htail : readTail [] (':' :: tail) = some (bits, []) := hcompressed
      rw [readTail, readGroups_colon] at htail
      cases htail
    · have hnone : readGivenChar ':' (c :: tail) = none := by
        rw [readGivenChar, if_neg (by simpa using hc)]
      have hfirst : readGivenChar ':' (':' :: c :: tail) = some ((), c :: tail) := rfl
      rw [hfirst] at hcompressed
      dsimp only [Option.bind_eq_bind, Option.bind_some] at hcompressed
      rw [hnone] at hcompressed
      cases hcompressed

/-- Behind a colon in front there is no address. -/
theorem parseIp_behind_colon {s : String} {ip : IpAddr} {rest : List Char} (h : parseIp s = some ip)
    (hs : s.toList = ':' :: rest) : parseIp (String.ofList rest) = none := by
  obtain ⟨tail, rfl, htail⟩ := parseIp_colon h hs
  cases hrest : parseIp (String.ofList (':' :: tail)) with
  | none => rfl
  | some other =>
    obtain ⟨more, rfl, -⟩ := parseIp_colon hrest String.toList_ofList
    exact absurd rfl htail

/-! ### The first colon -/

theorem readSeparator_missing {α : Type} {sep : Char} {index : Nat} (hi : 0 < index) (r : Reader α) {cs : List Char}
    (h : cs.head? ≠ some sep) : readSeparator sep index r cs = none := by
  rw [readSeparator, if_pos hi]
  cases cs with
  | nil => rfl
  | cons c cs =>
    have hc : ¬ (c == sep) = true := fun heq => h (by rw [eq_of_beq heq]; rfl)
    rw [readGivenChar, if_neg hc]
    rfl

theorem readGroups_missing {index : Nat} (hi : 0 < index) {cs : List Char} (h : cs.head? ≠ some ':') (room : Nat) :
    readGroups room index cs = ([], false, cs) := by
  cases room with
  | zero => rfl
  | succ room =>
    rw [readGroups, readSeparator_missing hi readIpv4Addr h, ite_self, readSeparator_missing hi _ h]

theorem readCompressed_missing (head : List (BitVec 16)) {cs : List Char} (h : cs.head? ≠ some ':') :
    readCompressed head cs = none := by
  have hnone : readGivenChar ':' cs = none := by
    cases cs with
    | nil => rfl
    | cons c cs =>
      have hc : ¬ (c == ':') = true := fun heq => h (by rw [eq_of_beq heq]; rfl)
      rw [readGivenChar, if_neg hc]
  rw [readCompressed, hnone]
  rfl

/-- Only digits stand before the first colon of an address of the sixth version. -/
theorem readIpv6Addr_front {cs left : List Char} {bits : BitVec 128} (h : readIpv6Addr cs = some (bits, left)) :
    ∃ front rest, cs = front ++ ':' :: rest ∧ ∀ c ∈ front, (toDigit 16 c).isSome := by
  have hcolon (tail : List Char) (hhead : tail.head? = some ':') : ∃ rest, tail = ':' :: rest := by
    cases tail with
    | nil => cases hhead
    | cons c rest => exact ⟨rest, by rw [Option.some.inj hhead]⟩
  rw [readIpv6Addr, readGroups] at h
  dsimp only at h
  split at h
  case h_1 found more hv4 => cases h
  case h_2 =>
    split at h
    case h_1 group rest hgroup =>
      obtain ⟨taken, htaken, hdigits⟩ := reads_readNumber (p := fun c => (toDigit 16 c).isSome)
        (fun c d hc => by rw [hc]; rfl) 4 16 true cs group rest hgroup
      by_cases hhead : rest.head? = some ':'
      · obtain ⟨tail, rfl⟩ := hcolon rest hhead
        exact ⟨taken, tail, htaken, hdigits⟩
      · rw [readGroups_missing (by decide) hhead] at h
        have hnone : readCompressed [group] rest = some (bits, left) := h
        rw [readCompressed_missing _ hhead] at hnone
        cases hnone
    case h_2 =>
      by_cases hhead : cs.head? = some ':'
      · obtain ⟨tail, rfl⟩ := hcolon cs hhead
        refine ⟨[], tail, rfl, ?_⟩
        intro c hc
        cases hc
      · have hnone : readCompressed [] cs = some (bits, left) := h
        rw [readCompressed_missing _ hhead] at hnone
        cases hnone

/-- An address of the sixth version has a colon with digits only before it. -/
theorem parseIp_front {s : String} {bits : BitVec 128} (h : parseIp s = some (.v6 bits)) :
    ∃ front rest, s.toList = front ++ ':' :: rest ∧ ∀ c ∈ front, (toDigit 16 c).isSome := by
  have hread := readIpAddr_of_parseIp h
  rw [readIpAddr] at hread
  split at hread
  case h_1 => cases hread
  case h_2 =>
    obtain ⟨⟨found, left⟩, hv6, -⟩ := Option.map_eq_some_iff.mp hread
    exact readIpv6Addr_front hv6

/-- One of the fourth version has none. -/
theorem parseIp_v4_colon {s : String} {bits : BitVec 32} (h : parseIp s = some (.v4 bits)) : ':' ∉ s.toList := by
  intro hmem
  have hnot : ¬ Dotted ':' := by simp [Dotted, toDigit]
  exact hnot ((parseIp_text h).2 bits rfl _ hmem)

/-! ### The port at the end -/

/-- What a reader takes off a text is in front of what it leaves. -/
theorem exists_front {α : Type} {p : Char → Prop} {r : Reader α} (hr : Reads p r) {cs rest : List Char} {a : α}
    (h : r cs = some (a, rest)) : ∃ front, cs = front ++ rest := by
  obtain ⟨front, hfront, -⟩ := hr cs a rest h
  exact ⟨front, hfront⟩

theorem readPort_digits {cs : List Char} {port : UInt16} (h : readPort cs = some (port, [])) :
    ∃ digits, cs = ':' :: digits ∧ digits ≠ [] ∧ ∀ c ∈ digits, (toDigit 10 c).isSome = true := by
  obtain ⟨⟨_, digits⟩, hcolon, h⟩ := Option.bind_eq_some_iff.mp h
  obtain ⟨⟨number, left⟩, hnumber, h⟩ := Option.bind_eq_some_iff.mp h
  obtain ⟨-, rfl⟩ := Prod.mk.inj (Option.some.inj h)
  obtain ⟨taken, htaken, hdigits⟩ := reads_readNumber (p := fun c => (toDigit 10 c).isSome = true)
    (fun c d hc => by rw [hc]; rfl) _ 16 true digits number [] hnumber
  rw [List.append_nil] at htaken
  refine ⟨digits, ?_, ?_, by rwa [htaken]⟩
  · cases cs with
    | nil => cases hcolon
    | cons c cs =>
      rw [readGivenChar] at hcolon
      split at hcolon
      · rename_i hc
        obtain ⟨-, rfl⟩ := Prod.mk.inj (Option.some.inj hcolon)
        rw [eq_of_beq hc]
      · cases hcolon
  · intro hnil
    rw [hnil] at hnumber
    cases hnumber

theorem readSocketAddrV4_port {cs : List Char} {address : SocketAddr} (h : readSocketAddrV4 cs = some (address, [])) :
    ∃ front rest port, cs = front ++ rest ∧ readPort rest = some (port, []) := by
  obtain ⟨⟨bits, rest⟩, hbits, h⟩ := Option.bind_eq_some_iff.mp h
  obtain ⟨⟨port, left⟩, hport, h⟩ := Option.bind_eq_some_iff.mp h
  obtain ⟨-, rfl⟩ := Prod.mk.inj (Option.some.inj h)
  obtain ⟨front, hfront⟩ := exists_front reads_readIpv4Addr hbits
  exact ⟨front, rest, port, hfront, hport⟩

theorem readScopeId_front {cs rest : List Char} {scopeId : UInt32} (h : (readScopeId cs).getD (0, cs) = (scopeId, rest)) :
    ∃ front, cs = front ++ rest := by
  cases hread : readScopeId cs with
  | none =>
    rw [hread] at h
    exact ⟨[], (Prod.mk.inj h).2⟩
  | some read =>
    rw [hread] at h
    obtain ⟨⟨_, digits⟩, hmark, hread⟩ := Option.bind_eq_some_iff.mp hread
    obtain ⟨⟨number, left⟩, hnumber, hread⟩ := Option.bind_eq_some_iff.mp hread
    obtain ⟨front, hfront⟩ := exists_front (reads_readGivenChar (p := fun _ => True) trivial) hmark
    obtain ⟨back, hback⟩ := exists_front
      (reads_readNumber (p := fun _ => True) (fun _ _ _ => trivial) _ 32 true) hnumber
    have hleft : left = rest := by
      rw [← Option.some.inj hread] at h
      exact (Prod.mk.inj h).2
    exact ⟨front ++ back, by rw [hfront, hback, hleft, List.append_assoc]⟩

theorem readSocketAddrV6_port {cs : List Char} {address : SocketAddr} (h : readSocketAddrV6 cs = some (address, [])) :
    ∃ front rest port, cs = front ++ rest ∧ readPort rest = some (port, []) := by
  obtain ⟨⟨_, inner⟩, hopen, h⟩ := Option.bind_eq_some_iff.mp h
  obtain ⟨⟨bits, behind⟩, hbits, h⟩ := Option.bind_eq_some_iff.mp h
  obtain ⟨scopeId, closing, hscope⟩ :
      ∃ scopeId closing, (readScopeId behind).getD (0, behind) = (scopeId, closing) := ⟨_, _, rfl⟩
  dsimp only at h
  rw [hscope] at h
  obtain ⟨⟨_, rest⟩, hclose, h⟩ := Option.bind_eq_some_iff.mp h
  obtain ⟨⟨port, left⟩, hport, h⟩ := Option.bind_eq_some_iff.mp h
  obtain ⟨-, rfl⟩ := Prod.mk.inj (Option.some.inj h)
  obtain ⟨a, ha⟩ := exists_front (reads_readGivenChar (p := fun _ => True) trivial) hopen
  obtain ⟨b, hb⟩ := exists_front reads_readIpv6Addr hbits
  obtain ⟨c, hc⟩ := readScopeId_front hscope
  obtain ⟨d, hd⟩ := exists_front (reads_readGivenChar (p := fun _ => True) trivial) hclose
  have hd : closing = d ++ rest := hd
  exact ⟨a ++ (b ++ (c ++ d)), rest, port, by rw [ha, hb, hc, hd]; simp only [List.append_assoc], hport⟩

/-- A socket address ends in the digits of its port. -/
theorem parseSocketAddr_port {s : String} {address : SocketAddr} (h : parseSocketAddr s = some address) :
    ∃ front digits, s.toList = front ++ digits ∧ digits ≠ [] ∧ ∀ c ∈ digits, (toDigit 10 c).isSome = true := by
  have hread : (readSocketAddrV4 s.toList).or (readSocketAddrV6 s.toList) = some (address, []) := by
    rw [parseSocketAddr] at h
    split at h
    · rename_i found hfound
      rw [hfound, Option.some.inj h]
    · cases h
  obtain ⟨front, rest, port, hs, hport⟩ :
      ∃ front rest port, s.toList = front ++ rest ∧ readPort rest = some (port, []) := by
    obtain hread | hread := Option.or_eq_some_iff.mp hread
    · exact readSocketAddrV4_port hread
    · exact readSocketAddrV6_port hread.2
  obtain ⟨digits, rfl, hne, hdigits⟩ := readPort_digits hport
  exact ⟨front ++ [':'], digits, by rw [hs, List.append_assoc, List.singleton_append], hne, hdigits⟩

end Aether.Rust
