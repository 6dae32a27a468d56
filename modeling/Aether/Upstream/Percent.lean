import Aether.Rust.Net
import Aether.Rust.Text

/-! Percent-encoded text.

An escape is `%` and two hexadecimal digits. `percent_decode` of `upstream.rs` reads the
two characters with `u8::from_str_radix`, which takes a plus sign for one of them.

Both decoders are `unescapeWith` with what they take for an escape. They agree exactly on
the texts without a signed escape (`percentDecode_eq_iff`). -/
namespace Aether.Upstream
open Rust (lossyChars lossyChars_append lossyChars_utf8EncodeChar toUtf8)

/-! ### The decoders -/

def percent : UInt8 := 0x25

def plus : UInt8 := 0x2B

def hexDigit (b : UInt8) : Option Nat := Rust.toDigit 16 (Char.ofNat b.toNat)

/-- The byte of two hexadecimal digits. -/
def hexPair (hi lo : UInt8) : Option UInt8 := do
  let h ← hexDigit hi
  let l ← hexDigit lo
  return UInt8.ofNat (16 * h + l)

/-- `u8::from_str_radix` of two characters: digits after an optional plus sign. -/
def fromStrRadix (hi lo : UInt8) : Option UInt8 :=
  if hi = plus then (hexDigit lo).map UInt8.ofNat else hexPair hi lo

/-- Every escape becomes its byte. -/
def unescapeWith (pair : UInt8 → UInt8 → Option UInt8) : List UInt8 → List UInt8
  | a :: b :: c :: rest =>
    match (if a = percent then pair b c else none) with
    | some byte => byte :: unescapeWith pair rest
    | none => a :: unescapeWith pair (b :: c :: rest)
  | bytes => bytes

/-- `percent_decode`. -/
def percentDecode (value : String) : String := Rust.fromUtf8Lossy (unescapeWith fromStrRadix (toUtf8 value))

/-- What a percent-encoded text stands for. -/
def decoded (value : String) : String := Rust.fromUtf8Lossy (unescapeWith hexPair (toUtf8 value))

/-- A percent sign, a plus sign and a digit. -/
def Signed (bytes : List UInt8) : Prop := ∃ d, (hexDigit d).isSome = true ∧ [percent, plus, d] <:+: bytes

/-! ### Parts of a text -/

section Parts

variable {pair : UInt8 → UInt8 → Option UInt8}

theorem unescapeWith_cons {a : UInt8} (h : a ≠ percent) (bytes : List UInt8) :
    unescapeWith pair (a :: bytes) = a :: unescapeWith pair bytes := by
  rcases bytes with _ | ⟨b, _ | ⟨c, rest⟩⟩
  · rfl
  · rfl
  · rw [unescapeWith, if_neg h]

theorem unescapeWith_append {xs : List UInt8} (h : ∀ a ∈ xs, a ≠ percent) (ys : List UInt8) :
    unescapeWith pair (xs ++ ys) = xs ++ unescapeWith pair ys := by
  induction xs with
  | nil => rfl
  | cons a xs ih =>
    rw [List.cons_append, unescapeWith_cons (h a (List.mem_cons_self ..)),
      ih fun b hb => h b (List.mem_cons_of_mem _ hb)]
    rfl

/-- A percent sign is never within an escape. -/
theorem unescapeWith_split (hfirst : ∀ c, pair percent c = none) (hsecond : ∀ b, pair b percent = none)
    (xs rest : List UInt8) :
    unescapeWith pair (xs ++ percent :: rest) = unescapeWith pair xs ++ unescapeWith pair (percent :: rest) := by
  have hone : ∀ a, unescapeWith pair (a :: percent :: rest) = a :: unescapeWith pair (percent :: rest) := by
    intro a
    cases rest with
    | nil => rfl
    | cons r rest =>
      rw [unescapeWith]
      simp only [hfirst, ite_self]
  fun_induction unescapeWith pair xs with
  | case1 a b c xs byte hbyte ih =>
    rw [List.cons_append, List.cons_append, List.cons_append, unescapeWith, hbyte]
    dsimp only
    rw [ih]
    rfl
  | case2 a b c xs hnone ih =>
    rw [List.cons_append, List.cons_append, List.cons_append, unescapeWith, hnone]
    dsimp only
    rw [← List.cons_append, ← List.cons_append, ih]
    rfl
  | case3 xs hshort =>
    rcases xs with _ | ⟨a, _ | ⟨b, _ | ⟨c, xs⟩⟩⟩
    · rfl
    · exact hone a
    · rw [List.cons_append, List.cons_append, List.nil_append, unescapeWith]
      simp only [hsecond, ite_self]
      rw [hone]
      rfl
    · exact absurd rfl (hshort a b c xs)

end Parts

theorem hexPair_percent_left (c : UInt8) : hexPair percent c = none := rfl

theorem hexPair_percent_right (b : UInt8) : hexPair b percent = none := by
  rw [hexPair]
  cases hexDigit b <;> rfl

theorem fromStrRadix_percent_left (c : UInt8) : fromStrRadix percent c = none := rfl

theorem fromStrRadix_percent_right (b : UInt8) : fromStrRadix b percent = none := by
  rw [fromStrRadix]
  split
  · rfl
  · exact hexPair_percent_right b

/-- The two readers differ only on a signed pair. -/
theorem fromStrRadix_eq {b c : UInt8} (h : ¬ (b = plus ∧ (hexDigit c).isSome = true)) :
    fromStrRadix b c = hexPair b c := by
  rw [fromStrRadix]
  split
  case isTrue hplus =>
    have hnone : hexDigit c = none := by
      rw [← Option.not_isSome_iff_eq_none]
      exact fun hsome => h ⟨hplus, hsome⟩
    rw [hnone, hplus]
    rfl
  case isFalse => rfl

/-! ### Where the decoders agree -/

theorem Signed.cons {bytes : List UInt8} (h : Signed bytes) (a : UInt8) : Signed (a :: bytes) := by
  obtain ⟨d, hd, hinfix⟩ := h
  exact ⟨d, hd, hinfix.trans (List.suffix_cons a bytes).isInfix⟩

/-- Without a signed escape both readers take the same for an escape. -/
theorem escape_of_not_signed {a b c : UInt8} {rest : List UInt8} (h : ¬ Signed (a :: b :: c :: rest)) :
    (if a = percent then fromStrRadix b c else none) = if a = percent then hexPair b c else none := by
  split
  case isTrue ha =>
    apply fromStrRadix_eq
    rintro ⟨hb, hc⟩
    refine h ⟨c, hc, ?_⟩
    rw [ha, hb]
    exact (List.prefix_append [percent, plus, c] rest).isInfix
  case isFalse => rfl

theorem unescapeWith_of_not_signed {bytes : List UInt8} (h : ¬ Signed bytes) :
    unescapeWith fromStrRadix bytes = unescapeWith hexPair bytes := by
  fun_induction unescapeWith hexPair bytes with
  | case1 a b c rest byte hbyte ih =>
    rw [unescapeWith, escape_of_not_signed h, hbyte]
    exact congrArg (byte :: ·) (ih fun hs => h (((hs.cons c).cons b).cons a))
  | case2 a b c rest hnone ih =>
    rw [unescapeWith, escape_of_not_signed h, hnone]
    exact congrArg (a :: ·) (ih fun hs => h (hs.cons a))
  | case3 bytes hshort =>
    rcases bytes with _ | ⟨a, _ | ⟨b, _ | ⟨c, rest⟩⟩⟩
    · rfl
    · rfl
    · rfl
    · exact absurd rfl (hshort a b c rest)

theorem hexDigit_lt {d : UInt8} {n : Nat} (h : hexDigit d = some n) : n < 16 ∧ d < 0x80 ∧ d ≠ percent := by
  have hall : ∀ k < 256, ∀ n ∈ hexDigit (UInt8.ofNat k),
      n < 16 ∧ UInt8.ofNat k < 0x80 ∧ UInt8.ofNat k ≠ percent := by
    decide +kernel
  have hd : UInt8.ofNat d.toNat = d := UInt8.ofNat_toNat
  rw [← hd] at h ⊢
  exact hall _ d.toNat_lt n h

/-- A signed escape is one character for the one reader and three for the other. -/
theorem lossyChars_signed (xs ys : List UInt8) {d : UInt8} (hd : (hexDigit d).isSome = true) :
    ∃ v, lossyChars (unescapeWith fromStrRadix (xs ++ percent :: plus :: d :: ys)) =
        lossyChars (unescapeWith fromStrRadix xs) ++ v :: lossyChars (unescapeWith fromStrRadix ys) ∧
      lossyChars (unescapeWith hexPair (xs ++ percent :: plus :: d :: ys)) =
        lossyChars (unescapeWith hexPair xs) ++ '%' :: '+' :: Char.ofNat d.toNat ::
          lossyChars (unescapeWith hexPair ys) := by
  obtain ⟨n, hn⟩ := Option.isSome_iff_exists.mp hd
  obtain ⟨hsmall, hascii, hne⟩ := hexDigit_lt hn
  have hsigned : fromStrRadix plus d = some (UInt8.ofNat n) := by
    rw [fromStrRadix, if_pos rfl, hn]
    rfl
  have hunsigned : hexPair plus d = none := rfl
  refine ⟨Char.ofNat (UInt8.ofNat n).toNat, ?_, ?_⟩
  · have hbyte : UInt8.ofNat n < 0x80 := by
      rw [UInt8.lt_iff_toNat_lt, UInt8.toNat_ofNat']
      show n % 256 < 128
      omega
    rw [unescapeWith_split fromStrRadix_percent_left fromStrRadix_percent_right, unescapeWith, if_pos rfl, hsigned]
    exact lossyChars_append hbyte _ _
  · rw [unescapeWith_split hexPair_percent_left hexPair_percent_right, unescapeWith, if_pos rfl, hunsigned]
    dsimp only
    rw [unescapeWith_cons (by decide), unescapeWith_cons hne, lossyChars_append (by decide)]
    have hplus := lossyChars_append (a := plus) (by decide) [] (d :: unescapeWith hexPair ys)
    have hdigit := lossyChars_append hascii [] (unescapeWith hexPair ys)
    rw [List.nil_append] at hplus hdigit
    rw [hplus, hdigit]
    rfl

/-- The engine never reads more characters than are written, and fewer if there is a signed
escape. -/
theorem length_lossyChars (bytes : List UInt8) :
    (lossyChars (unescapeWith fromStrRadix bytes)).length ≤ (lossyChars (unescapeWith hexPair bytes)).length ∧
      (Signed bytes → (lossyChars (unescapeWith fromStrRadix bytes)).length <
        (lossyChars (unescapeWith hexPair bytes)).length) := by
  induction hn : bytes.length using Nat.strong_induction_on generalizing bytes with
  | _ n ih =>
    by_cases hsigned : Signed bytes
    · obtain ⟨d, hd, xs, ys, hbytes⟩ := hsigned
      have hsplit : bytes = xs ++ percent :: plus :: d :: ys := by rw [← hbytes]; simp
      have hlen : xs.length + ys.length + 3 = n := by
        rw [← hn, hsplit]
        simp only [List.length_append, List.length_cons]
        omega
      obtain ⟨v, hengine, hwritten⟩ := lossyChars_signed xs ys hd
      have hxs := (ih _ (by omega) xs rfl).1
      have hys := (ih _ (by omega) ys rfl).1
      have hless : (lossyChars (unescapeWith fromStrRadix bytes)).length <
          (lossyChars (unescapeWith hexPair bytes)).length := by
        rw [hsplit, hengine, hwritten]
        simp only [List.length_append, List.length_cons]
        omega
      exact ⟨hless.le, fun _ => hless⟩
    · rw [unescapeWith_of_not_signed hsigned]
      exact ⟨Nat.le_refl _, fun hs => absurd hs hsigned⟩

theorem toList_percentDecode (value : String) :
    (percentDecode value).toList = lossyChars (unescapeWith fromStrRadix (toUtf8 value)) := String.toList_ofList

theorem toList_decoded (value : String) :
    (decoded value).toList = lossyChars (unescapeWith hexPair (toUtf8 value)) := String.toList_ofList

/-- The engine reads what is written exactly if no escape is signed. -/
theorem percentDecode_eq_iff (value : String) : percentDecode value = decoded value ↔ ¬ Signed (toUtf8 value) := by
  constructor
  · intro heq hsigned
    have hless := (length_lossyChars (toUtf8 value)).2 hsigned
    rw [← toList_percentDecode, ← toList_decoded, heq] at hless
    exact Nat.lt_irrefl _ hless
  · intro hsigned
    rw [percentDecode, decoded, unescapeWith_of_not_signed hsigned]

/-- Only the percent sign has its byte. -/
theorem percent_notMem_utf8EncodeChar {c : Char} (hc : c ≠ '%') : ∀ a ∈ String.utf8EncodeChar c, a ≠ percent := by
  have hlow : ∀ v < 128, UInt8.ofNat v = percent → v = 37 := by decide +kernel
  have hcont : ∀ v < 64, UInt8.ofNat (v + 128) ≠ percent := by decide +kernel
  have htwo : ∀ v < 32, UInt8.ofNat (v + 192) ≠ percent := by decide +kernel
  have hthree : ∀ v < 16, UInt8.ofNat (v + 224) ≠ percent := by decide +kernel
  have hfour : ∀ v < 8, UInt8.ofNat (v + 240) ≠ percent := by decide +kernel
  intro a ha
  rw [String.utf8EncodeChar] at ha
  split at ha
  case isTrue hv =>
    rw [List.mem_singleton] at ha
    rw [ha]
    intro heq
    apply hc
    apply Char.ext
    apply UInt32.toNat.inj
    exact hlow _ (by omega) heq
  case isFalse =>
    split at ha
    case isTrue =>
      simp only [List.mem_cons, List.not_mem_nil, or_false] at ha
      rcases ha with rfl | rfl
      · exact htwo _ (Nat.mod_lt _ (by decide))
      · exact hcont _ (Nat.mod_lt _ (by decide))
    case isFalse =>
      split at ha
      case isTrue =>
        simp only [List.mem_cons, List.not_mem_nil, or_false] at ha
        rcases ha with rfl | rfl | rfl
        · exact hthree _ (Nat.mod_lt _ (by decide))
        · exact hcont _ (Nat.mod_lt _ (by decide))
        · exact hcont _ (Nat.mod_lt _ (by decide))
      case isFalse =>
        simp only [List.mem_cons, List.not_mem_nil, or_false] at ha
        rcases ha with rfl | rfl | rfl | rfl
        · exact hfour _ (Nat.mod_lt _ (by decide))
        · exact hcont _ (Nat.mod_lt _ (by decide))
        · exact hcont _ (Nat.mod_lt _ (by decide))
        · exact hcont _ (Nat.mod_lt _ (by decide))

/-- Characters in front of the first percent sign stand for themselves. -/
theorem decoded_append {s : List Char} (h : '%' ∉ s) (t : String) :
    (decoded (String.ofList s ++ t)).toList = s ++ (decoded t).toList := by
  rw [toList_decoded, toList_decoded, toUtf8, toUtf8, String.toList_append, String.toList_ofList]
  induction s with
  | nil => rfl
  | cons c s ih =>
    rw [List.mem_cons, not_or] at h
    rw [List.cons_append, List.flatMap_cons,
      unescapeWith_append (percent_notMem_utf8EncodeChar (Ne.symm h.1)), lossyChars_utf8EncodeChar, ih h.2]
    rfl

end Aether.Upstream
