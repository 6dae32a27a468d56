import Aether.Rust.AddressText
import Aether.Rust.Blanks
import Aether.Upstream.Setting

/-! The text of an upstream proxy.

`Upstream::parse` reads kind, credentials, host and port from a text, and `Upstream::url`
writes a text without the credentials. A host is read up to the last colon, or between
brackets, and the credentials up to the last `@`; so neither the host nor the credentials
have to be free of colons, slashes or `://` (`parse_parts`). -/
namespace Aether.Upstream
open Rust (toUtf8)

/-! ### Percent-encoding -/

/-- Each byte is escaped with two hexadecimal digits, in either case. -/
inductive Escaped : List UInt8 → List Char → Prop
  | nil : Escaped [] []
  | cons {b : UInt8} {hi lo : Char} {bytes : List UInt8} {text : List Char}
      (hhi : Rust.toDigit 16 hi = some (b.toNat / 16)) (hlo : Rust.toDigit 16 lo = some (b.toNat % 16))
      (rest : Escaped bytes text) : Escaped (b :: bytes) ('%' :: hi :: lo :: text)

/-- A text that stands for a value: a character may be escaped, and it is where it is a percent sign
or separates parts of the credentials. -/
inductive Encoded : List Char → List Char → Prop
  | nil : Encoded [] []
  | plain {c : Char} {text value : List Char} (hc : c ∉ ['%', ':', '@']) (rest : Encoded text value) :
      Encoded (c :: text) (c :: value)
  | escaped {c : Char} {front text value : List Char} (hfront : Escaped (String.utf8EncodeChar c) front)
      (rest : Encoded text value) : Encoded (front ++ text) (c :: value)

theorem digit_byte {c : Char} {d : Nat} (h : Rust.toDigit 16 c = some d) :
    String.utf8EncodeChar c = [UInt8.ofNat c.toNat] ∧ hexDigit (UInt8.ofNat c.toNat) = some d ∧
      UInt8.ofNat c.toNat ≠ plus ∧ c ∉ [':', '@'] := by
  have hascii : c.toNat < 128 := by
    have hbounds := Rust.literal_bounds (.inl (Option.isSome_of_eq_some h))
    omega
  have hall : ∀ n < 128, (Rust.toDigit 16 (Char.ofNat n)).isSome = true →
      String.utf8EncodeChar (Char.ofNat n) = [UInt8.ofNat n] ∧ (UInt8.ofNat n).toNat = n ∧
        UInt8.ofNat n ≠ plus ∧ Char.ofNat n ∉ [':', '@'] := by decide +kernel
  have hc : Char.ofNat c.toNat = c := Char.ofNat_toNat c
  obtain ⟨hencode, hback, hplus, hmarks⟩ := hall c.toNat hascii (by rw [hc, h]; rfl)
  rw [hc] at hencode hmarks
  refine ⟨hencode, ?_, hplus, hmarks⟩
  rw [hexDigit, hback, hc, h]

theorem unescape_escaped {bytes : List UInt8} {text : List Char} (h : Escaped bytes text) (rest : List UInt8) :
    unescapeWith fromStrRadix (text.flatMap String.utf8EncodeChar ++ rest) =
      bytes ++ unescapeWith fromStrRadix rest := by
  induction h with
  | nil => rfl
  | @cons b hi lo bytes text hhi hlo _ ih =>
    obtain ⟨hencodeHi, hdigitHi, hplus, -⟩ := digit_byte hhi
    obtain ⟨hencodeLo, hdigitLo, -, -⟩ := digit_byte hlo
    have hbyte : UInt8.ofNat (16 * (b.toNat / 16) + b.toNat % 16) = b := by
      rw [Nat.div_add_mod, UInt8.ofNat_toNat]
    have hpair : fromStrRadix (UInt8.ofNat hi.toNat) (UInt8.ofNat lo.toNat) = some b := by
      rw [fromStrRadix, if_neg hplus, hexPair, hdigitHi, hdigitLo]
      exact congrArg some hbyte
    have hpercent : String.utf8EncodeChar '%' = [percent] := rfl
    rw [List.flatMap_cons, List.flatMap_cons, List.flatMap_cons, hpercent, hencodeHi, hencodeLo]
    show unescapeWith fromStrRadix (percent :: UInt8.ofNat hi.toNat :: UInt8.ofNat lo.toNat ::
      (text.flatMap String.utf8EncodeChar ++ rest)) = _
    rw [unescapeWith, if_pos rfl, hpair]
    exact congrArg (b :: ·) ih

theorem unescape_encoded {text value : List Char} (h : Encoded text value) :
    unescapeWith fromStrRadix (text.flatMap String.utf8EncodeChar) = value.flatMap String.utf8EncodeChar := by
  induction h with
  | nil => rfl
  | plain hc _ ih =>
    rw [List.flatMap_cons, List.flatMap_cons,
      unescapeWith_append (percent_notMem_utf8EncodeChar fun he => hc (by rw [he]; decide)), ih]
  | escaped hfront _ ih => rw [List.flatMap_append, List.flatMap_cons, unescape_escaped hfront, ih]

/-- What is percent-encoded is read back. -/
theorem percentDecode_encoded {text value : String} (h : Encoded text.toList value.toList) :
    percentDecode text = value := by
  rw [percentDecode, toUtf8, unescape_encoded h]
  exact Rust.fromUtf8Lossy_toUtf8 value

theorem Escaped.notMem {bytes : List UInt8} {text : List Char} (h : Escaped bytes text) : ':' ∉ text := by
  induction h with
  | nil => exact List.not_mem_nil
  | cons hhi hlo _ ih =>
    have hmarksHi := (digit_byte hhi).2.2.2
    have hmarksLo := (digit_byte hlo).2.2.2
    simp only [List.mem_cons, List.not_mem_nil, or_false, not_or] at hmarksHi hmarksLo ⊢
    exact ⟨by decide, Ne.symm hmarksHi.1, Ne.symm hmarksLo.1, ih⟩

theorem Encoded.notMem {text value : List Char} (h : Encoded text value) : ':' ∉ text := by
  induction h with
  | nil => exact List.not_mem_nil
  | plain hc _ ih =>
    rw [List.mem_cons, not_or]
    refine ⟨fun he => hc ?_, ih⟩
    rw [← he]
    decide
  | escaped hfront _ ih => simp [hfront.notMem, ih]

end Aether.Upstream

namespace Aether.Setting

/-- `Upstream::url` -/
def Upstream.url (u : Upstream) : String :=
  let host := if Rust.containsChar ':' u.host then "[" ++ u.host ++ "]" else u.host
  let scheme := match u.kind with
    | .socks5 => "socks5h"
    | .http => "http"
  scheme ++ "://" ++ host ++ ":" ++ Rust.showU16 u.port

/-! ### The parts of a text -/

/-- A host as it stands in a text: any text that keeps clear of the marks around it. -/
structure Plain (host : String) : Prop where
  nonempty : host ≠ ""
  mark : '@' ∉ host.toList
  left : '[' ∉ host.toList
  right : ']' ∉ host.toList

/-- A host in brackets or not, and a port. -/
def endpointText (bracketed : Bool) (host : String) (port : UInt16) : String :=
  (if bracketed then "[" ++ host ++ "]" else host) ++ ":" ++ Rust.showU16 port

/-- Credentials as they stand in front of an endpoint. -/
def credentialsText : Option String → Option String → Option String
  | none, none => none
  | some user, none => some user
  | user, some password => some (user.getD "" ++ ":" ++ password)

/-- The text behind the scheme. -/
def authorityText (credentials : Option String) (endpoint : String) : String :=
  match credentials with
  | some credentials => credentials ++ "@" ++ endpoint
  | none => endpoint

theorem digit_ne {c d : Char} (hc : c.isDigit = true) (hd : d.isDigit = false) : c ≠ d := by
  intro he
  rw [he, hd] at hc
  cases hc

theorem showU16_notMem (port : UInt16) {d : Char} (hd : d.isDigit = false) : d ∉ (Rust.showU16 port).toList :=
  fun hmem => digit_ne (Rust.showU16_digits port d hmem) hd rfl

theorem guard_plain {host : String} (hhost : host ≠ "") {port : UInt16} (hport : port ≠ 0) (message : String) :
    (if (host.isEmpty || port == 0) = true then (throw message : Except String (String × UInt16)) else return (host, port)) =
      .ok (host, port) := by
  rw [if_neg (by simp [hhost, hport])]
  rfl

theorem okOr_bind {α β : Type} {message : String} {x : Option α} {a : α} (h : x = some a) (f : α → Except String β) :
    (okOr message x >>= f) = f a := by
  rw [h]
  rfl

theorem splitEndpoint_text (bracketed : Bool) {host : String} (hhost : Plain host) {port : UInt16} (hport : port ≠ 0) :
    splitEndpoint (endpointText bracketed host port) = .ok (host, port) := by
  have hopen : "[" = String.singleton '[' := rfl
  have hclose : "]" = String.singleton ']' := rfl
  have hcolon : ":" = String.singleton ':' := rfl
  have hread := Rust.parseU16_showU16 port
  rw [splitEndpoint, endpointText, hopen, hclose, hcolon]
  cases bracketed with
  | true =>
    have hassoc : (String.singleton '[' ++ host ++ String.singleton ']') ++ String.singleton ':' ++ Rust.showU16 port =
        String.singleton '[' ++ (host ++ String.singleton ']' ++ (String.singleton ':' ++ Rust.showU16 port)) := by
      simp only [String.append_assoc]
    rw [if_pos rfl, hassoc, Rust.stripStart_append]
    dsimp only
    rw [okOr_bind (Rust.splitOnce_append hhost.right _)]
    dsimp only
    rw [okOr_bind (Rust.stripStart_append _ _), okOr_bind hread]
    exact guard_plain hhost.nonempty hport _
  | false =>
    have hdigit : '[' ∉ (Rust.showU16 port).toList := showU16_notMem port rfl
    have hnot : '[' ∉ (host ++ String.singleton ':' ++ Rust.showU16 port).toList := by
      simp [hhost.left, hdigit]
    rw [if_neg (by decide), Rust.stripStart_of_notMem hnot]
    dsimp only
    rw [okOr_bind (Rust.rsplitOnce_append (showU16_notMem port rfl) host)]
    dsimp only
    rw [okOr_bind hread]
    exact guard_plain hhost.nonempty hport _

theorem endpoint_notMem (bracketed : Bool) {host : String} (hhost : Plain host) (port : UInt16) :
    '@' ∉ (endpointText bracketed host port).toList := by
  have hdigit : '@' ∉ (Rust.showU16 port).toList := showU16_notMem port rfl
  rw [endpointText]
  cases bracketed <;> simp [hhost.mark, hdigit]

/-- An endpoint ends in a digit. -/
theorem endpoint_end (before : List Char) (bracketed : Bool) (host : String) (port : UInt16) :
    ∀ c ∈ (before ++ (endpointText bracketed host port).toList).getLast?, c.isDigit = true := by
  have hne : (Rust.showU16 port).toList ≠ [] := by
    simpa [String.toList_eq_nil_iff] using Rust.showU16_ne_empty port
  intro c hc
  rw [endpointText, String.toList_append, ← List.append_assoc, List.getLast?_append_of_ne_nil _ hne] at hc
  exact Rust.showU16_digits port c (List.mem_of_mem_getLast? hc)

theorem trimEnd_endpoint (bracketed : Bool) (host : String) (port : UInt16) :
    Rust.trimEndMatches '/' (endpointText bracketed host port) = endpointText bracketed host port := by
  have hself : (endpointText bracketed host port).toList.rdropWhile (· == '/') =
      (endpointText bracketed host port).toList := by
    rw [List.rdropWhile_eq_self_iff]
    intro hne hlast
    have hdigit := endpoint_end [] bracketed host port _ (List.getLast?_eq_some_getLast hne)
    exact digit_ne hdigit rfl (eq_of_beq hlast)
  rw [Rust.trimEndMatches, hself, String.ofList_toList]

/-- A scheme that is understood is one word. -/
theorem scheme_chars {scheme : String} {kind : Kind} (h : kindOf (Rust.toLowercase scheme) = .ok kind) :
    ∀ c ∈ scheme.toList, Rust.isWhitespace c = false ∧ c ≠ ':' := by
  have hall : ((Rust.toLowercase scheme).toList.all fun c => !Rust.isWhitespace c && c != ':') = true := by
    rw [kindOf] at h
    split at h
    · rename_i hsocks
      obtain hs | hs | hs := hsocks <;> rw [hs] <;> rfl
    · split at h
      · rename_i hhttp
        obtain hs | hs := hhttp <;> rw [hs] <;> rfl
      · cases h
  have hlower : ∀ c ∈ (Rust.toLowercase scheme).toList, Rust.isWhitespace c = false ∧ c ≠ ':' := by
    intro c hc
    simpa using List.all_eq_true.mp hall c hc
  have hself : ∀ c : Char, Rust.isWhitespace c = true ∨ c = ':' →
      (if c = Char.ofNat 0x212A then 'k' else c.toLower) = c := by
    intro c hc
    have hbounds : c.toNat < 65 ∨ 90 < c.toNat ∧ c.toNat ≠ 0x212A := by
      obtain hwhite | hcolon := hc
      · simp only [Rust.isWhitespace, Bool.or_eq_true, Bool.and_eq_true, decide_eq_true_eq, beq_iff_eq] at hwhite
        omega
      · rw [hcolon]
        exact .inl (by decide)
    have hkelvin : c ≠ Char.ofNat 0x212A := by
      rintro rfl
      exact absurd hbounds (by decide)
    have hupper : ¬ (c.isUpper = true) := by
      rw [Char.isUpper, decide_eq_true_eq, ge_iff_le, UInt32.le_iff_toNat_le, UInt32.le_iff_toNat_le]
      show ¬ (65 ≤ c.toNat ∧ c.toNat ≤ 90)
      omega
    rw [if_neg hkelvin, Char.toLower_eq_of_not_isUpper hupper]
  intro c hc
  have hmem : (if c = Char.ofNat 0x212A then 'k' else c.toLower) ∈ (Rust.toLowercase scheme).toList := by
    rw [Rust.toLowercase, String.toList_ofList]
    exact List.mem_map_of_mem hc
  have himage := hlower _ hmem
  by_contra hnot
  rw [not_and_or, not_not, Bool.not_eq_false] at hnot
  rw [hself c hnot] at himage
  obtain hwhite | hcolon := hnot
  · rw [himage.1] at hwhite
    cases hwhite
  · exact himage.2 hcolon

theorem kindOf_ne_empty {scheme : String} {kind : Kind} (h : kindOf (Rust.toLowercase scheme) = .ok kind) :
    scheme ≠ "" := by
  rintro rfl
  have hnone : ∀ k, kindOf (Rust.toLowercase "") ≠ .ok k := by
    intro k
    cases k <;> decide +kernel
  exact hnone kind h

/-- A text that starts with a scheme and ends in a port is not trimmed. -/
theorem trim_parts {scheme : String} {kind : Kind} (hscheme : kindOf (Rust.toLowercase scheme) = .ok kind)
    (before : String) (bracketed : Bool) (host : String) (port : UInt16) :
    Rust.trim (scheme ++ before ++ endpointText bracketed host port) = scheme ++ before ++ endpointText bracketed host port := by
  have hend : ∀ c ∈ (scheme ++ before ++ endpointText bracketed host port).toList.getLast?, Rust.isWhitespace c = false := by
    intro c hc
    rw [String.toList_append] at hc
    exact Rust.isWhitespace_of_isDigit (endpoint_end _ _ _ _ c hc)
  have hne : scheme.toList ≠ [] := by
    simpa [String.toList_eq_nil_iff] using kindOf_ne_empty hscheme
  obtain ⟨c, cs, hcons⟩ := List.exists_cons_of_ne_nil hne
  have hc := (scheme_chars hscheme c (by rw [hcons]; exact List.mem_cons_self ..)).1
  have hstart : (scheme ++ before ++ endpointText bracketed host port).toList.dropWhile Rust.isWhitespace =
      (scheme ++ before ++ endpointText bracketed host port).toList := by
    rw [String.toList_append, String.toList_append, hcons]
    simp [hc]
  rw [trim_of_end hend, hstart, String.ofList_toList]

/-- What stands behind the scheme. -/
theorem parseRest_authority (kind : Kind) (credentials : Option String) (bracketed : Bool) {host : String}
    (hhost : Plain host) {port : UInt16} (hport : port ≠ 0) :
    parseRest kind (authorityText credentials (endpointText bracketed host port)) =
      .ok { kind, host, port, user := (splitCredentials credentials).1, password := (splitCredentials credentials).2 } := by
  have hmark := endpoint_notMem bracketed hhost port
  have hat : "@" = String.singleton '@' := rfl
  rw [parseRest]
  cases credentials with
  | none =>
    rw [authorityText, Rust.rsplitOnce_of_notMem hmark]
    dsimp only
    rw [trimEnd_endpoint, splitEndpoint_text bracketed hhost hport]
    rfl
  | some credentials =>
    rw [authorityText, hat, Rust.rsplitOnce_append hmark]
    dsimp only
    rw [trimEnd_endpoint, splitEndpoint_text bracketed hhost hport]
    rfl

/-- What is read from a text that is put together from a scheme, credentials, a host and a port. -/
theorem parse_parts {scheme : String} {kind : Kind} (hscheme : kindOf (Rust.toLowercase scheme) = .ok kind)
    (credentials : Option String) (bracketed : Bool) {host : String} (hhost : Plain host) {port : UInt16} (hport : port ≠ 0) :
    parse (scheme ++ "://" ++ authorityText credentials (endpointText bracketed host port)) =
      .ok { kind, host, port, user := (splitCredentials credentials).1, password := (splitCredentials credentials).2 } := by
  have htrim : Rust.trim (scheme ++ "://" ++ authorityText credentials (endpointText bracketed host port)) =
      scheme ++ "://" ++ authorityText credentials (endpointText bracketed host port) := by
    cases credentials with
    | none => exact trim_parts hscheme "://" bracketed host port
    | some credentials =>
      have hassoc : scheme ++ "://" ++ authorityText (some credentials) (endpointText bracketed host port) =
          scheme ++ ("://" ++ (credentials ++ "@")) ++ endpointText bracketed host port := by
        simp only [authorityText, String.append_assoc]
      rw [hassoc]
      exact trim_parts hscheme _ bracketed host port
  have hcolon : ':' ∉ scheme.toList := fun hmem => (scheme_chars hscheme ':' hmem).2 rfl
  have hsplit : splitOnceText "://".toList
      (scheme ++ "://" ++ authorityText credentials (endpointText bracketed host port)).toList =
      some (scheme.toList, (authorityText credentials (endpointText bracketed host port)).toList) := by
    rw [String.toList_append, String.toList_append, List.append_assoc]
    exact splitOnceText_append hcolon _
  rw [parse, htrim, hsplit]
  dsimp only
  rw [String.ofList_toList, String.ofList_toList, hscheme, Machine.ok_bind]
  exact parseRest_authority kind credentials bracketed hhost hport

/-- The texts of values. -/
def Spells (text value : String) : Prop := Upstream.Encoded text.toList value.toList

theorem splitCredentials_spells {userText passwordText user password : Option String}
    (huser : Option.Rel Spells userText user) (hpassword : Option.Rel Spells passwordText password) :
    splitCredentials (credentialsText userText passwordText) = (user.or (password.map fun _ => ""), password) := by
  have hcolon : ":" = String.singleton ':' := rfl
  have hempty : Upstream.percentDecode "" = "" := rfl
  cases huser with
  | none =>
    cases hpassword with
    | none => rfl
    | @some text value hp =>
      rw [credentialsText, hcolon]
      show splitCredentials (some ("" ++ String.singleton ':' ++ text)) = _
      rw [splitCredentials, Rust.splitOnce_append (by simp)]
      dsimp only
      rw [Upstream.percentDecode_encoded hp, hempty]
      rfl
  | @some text value hu =>
    have hmark : ':' ∉ text.toList := Upstream.Encoded.notMem hu
    cases hpassword with
    | none =>
      rw [credentialsText, splitCredentials, Rust.splitOnce_of_notMem hmark]
      dsimp only
      rw [Upstream.percentDecode_encoded hu]
      rfl
    | @some text' value' hp =>
      rw [credentialsText, hcolon]
      show splitCredentials (some (text ++ String.singleton ':' ++ text')) = _
      rw [splitCredentials, Rust.splitOnce_append hmark]
      dsimp only
      rw [Upstream.percentDecode_encoded hu, Upstream.percentDecode_encoded hp]
      rfl

/-! ### Back to the text -/

theorem ok_of_okOr {α β : Type} {message : String} {x : Option α} {f : α → Except String β} {b : β}
    (h : (okOr message x >>= f) = .ok b) : ∃ a, x = some a ∧ f a = .ok b := by
  cases x with
  | none => cases h
  | some a => exact ⟨a, rfl, h⟩

theorem splitOnce_subset {c : Char} {s front back : String} (h : Rust.splitOnce c s = some (front, back)) :
    front.toList ⊆ s.toList := by
  rw [Rust.splitOnce] at h
  split at h
  · cases h
  · obtain ⟨rfl, -⟩ := Prod.mk.inj (Option.some.inj h)
    rw [String.toList_ofList]
    exact List.takeWhile_subset _

theorem ok_of_guard {host host' : String} {port port' : UInt16} {message : String}
    (h : (if (host.isEmpty || port == 0) = true then (throw message : Except String (String × UInt16)) else return (host, port)) =
      .ok (host', port')) : host' = host ∧ host' ≠ "" ∧ port' ≠ 0 := by
  split at h
  · cases h
  · rename_i hguard
    obtain ⟨rfl, rfl⟩ := Prod.mk.inj (Except.ok.inj h)
    simpa using hguard

/-- A host is a part of the endpoint. -/
theorem of_splitEndpoint {endpoint host : String} {port : UInt16} (h : splitEndpoint endpoint = .ok (host, port)) :
    host.toList ⊆ endpoint.toList ∧ host ≠ "" ∧ port ≠ 0 := by
  rw [splitEndpoint] at h
  cases hstrip : Rust.stripStart "[" endpoint with
  | some rest =>
    rw [hstrip] at h
    obtain ⟨⟨name, tail⟩, hsplit, h⟩ := ok_of_okOr h
    obtain ⟨text, -, h⟩ := ok_of_okOr h
    obtain ⟨number, -, h⟩ := ok_of_okOr h
    obtain ⟨rfl, hhost, hport⟩ := ok_of_guard h
    refine ⟨?_, hhost, hport⟩
    rw [Rust.stripStart_eq_some.mp hstrip, String.toList_append]
    exact List.subset_append_of_subset_right _ (splitOnce_subset hsplit)
  | none =>
    rw [hstrip] at h
    obtain ⟨⟨name, text⟩, hsplit, h⟩ := ok_of_okOr h
    obtain ⟨number, -, h⟩ := ok_of_okOr h
    obtain ⟨rfl, hhost, hport⟩ := ok_of_guard h
    refine ⟨?_, hhost, hport⟩
    rw [(Rust.rsplitOnce_eq_some hsplit).1, String.toList_append, String.toList_append, List.append_assoc]
    exact List.subset_append_left _ _

theorem trimEnd_subset (c : Char) (s : String) : (Rust.trimEndMatches c s).toList ⊆ s.toList := by
  rw [Rust.trimEndMatches, String.toList_ofList]
  exact (List.rdropWhile_prefix (· == c) s.toList).subset

theorem of_parseRest {kind : Kind} {rest : String} {u : Upstream} (h : parseRest kind rest = .ok u) :
    '@' ∉ u.host.toList ∧ u.host ≠ "" ∧ u.port ≠ 0 := by
  have hread : ∃ endpoint : String, '@' ∉ endpoint.toList ∧
      splitEndpoint (Rust.trimEndMatches '/' endpoint) = .ok (u.host, u.port) := by
    rw [parseRest] at h
    cases hsplit : Rust.rsplitOnce '@' rest with
    | none =>
      rw [hsplit] at h
      obtain ⟨⟨host, port⟩, hendpoint, h⟩ := Machine.ok_of_bind h
      rw [← Except.ok.inj h]
      exact ⟨rest, Rust.rsplitOnce_eq_none.mp hsplit, hendpoint⟩
    | some parts =>
      obtain ⟨credentials, endpoint⟩ := parts
      rw [hsplit] at h
      obtain ⟨⟨host, port⟩, hendpoint, h⟩ := Machine.ok_of_bind h
      rw [← Except.ok.inj h]
      exact ⟨endpoint, (Rust.rsplitOnce_eq_some hsplit).2, hendpoint⟩
  obtain ⟨endpoint, hmark, hendpoint⟩ := hread
  obtain ⟨hsubset, hhost, hport⟩ := of_splitEndpoint hendpoint
  exact ⟨fun hmem => hmark (trimEnd_subset _ _ (hsubset hmem)), hhost, hport⟩

/-- The host of an upstream that was read stands in a text again, unless it has a bracket. -/
theorem plain_of_parse {raw : String} {u : Upstream} (h : parse raw = .ok u) (hleft : '[' ∉ u.host.toList)
    (hright : ']' ∉ u.host.toList) : Plain u.host ∧ u.port ≠ 0 := by
  have hrest : ∃ kind rest, parseRest kind rest = .ok u := by
    rw [parse] at h
    cases hsplit : splitOnceText "://".toList (Rust.trim raw).toList with
    | none =>
      rw [hsplit] at h
      obtain ⟨kind, -, h⟩ := Machine.ok_of_bind h
      exact ⟨kind, Rust.trim raw, h⟩
    | some parts =>
      obtain ⟨scheme, rest⟩ := parts
      rw [hsplit] at h
      obtain ⟨kind, -, h⟩ := Machine.ok_of_bind h
      exact ⟨kind, String.ofList rest, h⟩
  obtain ⟨kind, rest, hrest⟩ := hrest
  obtain ⟨hmark, hhost, hport⟩ := of_parseRest hrest
  exact ⟨⟨hhost, hmark, hleft, hright⟩, hport⟩

/-- `url` writes a scheme and an endpoint. -/
theorem url_eq (u : Upstream) : ∃ scheme, kindOf (Rust.toLowercase scheme) = .ok u.kind ∧
    u.url = scheme ++ "://" ++ authorityText none (endpointText (Rust.containsChar ':' u.host) u.host u.port) := by
  have hassoc (scheme : String) : scheme ++ "://" ++ (if Rust.containsChar ':' u.host then "[" ++ u.host ++ "]" else u.host) ++
      ":" ++ Rust.showU16 u.port =
      scheme ++ "://" ++ authorityText none (endpointText (Rust.containsChar ':' u.host) u.host u.port) := by
    simp only [authorityText, endpointText, String.append_assoc]
  rw [Upstream.url]
  cases u.kind with
  | socks5 => exact ⟨"socks5h", by decide +kernel, hassoc "socks5h"⟩
  | http => exact ⟨"http", by decide +kernel, hassoc "http"⟩

/-- A text gives back its parts, where a password without a user is read with an empty one; and what
`url` writes of an upstream that was read is read as the upstream without its credentials. -/
theorem url_parsing :
    (∀ scheme kind bracketed host port user password userText passwordText,
      kindOf (Rust.toLowercase scheme) = .ok kind → Plain host → port ≠ 0 →
      Option.Rel Spells userText user → Option.Rel Spells passwordText password →
      parse (scheme ++ "://" ++
          authorityText (credentialsText userText passwordText) (endpointText bracketed host port)) =
        .ok { kind, host, port, user := user.or (password.map fun _ => ""), password }) ∧
    ∀ raw u, parse raw = .ok u → '[' ∉ u.host.toList → ']' ∉ u.host.toList →
      parse u.url = .ok { u with user := none, password := none } := by
  refine ⟨?_, ?_⟩
  · intro scheme kind bracketed host port user password userText passwordText hscheme hhost hport huser hpassword
    rw [parse_parts hscheme _ bracketed hhost hport, splitCredentials_spells huser hpassword]
  · intro raw u h hleft hright
    obtain ⟨hhost, hport⟩ := plain_of_parse h hleft hright
    obtain ⟨scheme, hscheme, hurl⟩ := url_eq u
    rw [hurl, parse_parts hscheme none _ hhost hport]
    rfl

/-- A password without a user comes back with an empty one. -/
theorem password_alone :
    "http://" ++ authorityText (credentialsText none (some "p")) (endpointText false "h" 1) = "http://:p@h:1" ∧
      parse "http://:p@h:1" = .ok { kind := .http, host := "h", port := 1, user := some "", password := some "p" } ∧
      parse "http://:p@h:1" ≠ .ok { kind := .http, host := "h", port := 1, user := none, password := some "p" } := by
  decide +kernel

end Aether.Setting
