import Aether.Identity.Tokens
import Aether.Rust.Blanks
import Aether.Rust.Collections
import Aether.Rust.Utf8
import Aether.Upstream.Percent

/-! What a sign-in takes from the answers of the service.

`query_value` and `extract_jwt_from_cookie` look through parts of a text and end at the first
one that is not of the form they read, `extract_jwt_from_html` looks at the first place a
token may stand at. What they are after is found exactly if nothing of another form stands in
front of it. -/
namespace Aether.Identity
open Rust (cutAt cutAt_eq_some fromUtf8Lossy isWhitespace isWhitespace_of_visible lossyChars lossyChars_append passedOver search searchOrQuit searchOrQuit_eq
  searchOrQuit_eq_some_iff split splitOnce splitOnce_of_notMem splitOnceStr stripStart toUtf8 trim trim_of_solid)
open Upstream (Signed escape_of_not_signed fromStrRadix hexDigit hexPair length_lossyChars percent plus unescapeWith)

/-! ### Decoding a value -/

def space : UInt8 := 0x20

/-- A plus sign stands for a space. -/
def plusToSpace (a : UInt8) : UInt8 := if a = plus then space else a

/-- The loop of `percent_decode` of `zerotrust.rs`. -/
def unescapeValue : List UInt8 → List UInt8
  | a :: b :: c :: rest =>
    match (if a = percent then fromStrRadix b c else none) with
    | some byte => byte :: unescapeValue rest
    | none => plusToSpace a :: unescapeValue (b :: c :: rest)
  | bytes => bytes.map plusToSpace

/-- `percent_decode` of `zerotrust.rs`. -/
def percentDecode (raw : String) : String := fromUtf8Lossy (unescapeValue (toUtf8 raw))

/-- What a value of a query stands for: plus signs are spaces, and escapes their bytes. -/
def formDecoded (raw : String) : String := fromUtf8Lossy (unescapeWith hexPair ((toUtf8 raw).map plusToSpace))

/-- Some plus signs are replaced by spaces. -/
inductive Respaced : List UInt8 → List UInt8 → Prop where
  | refl (xs : List UInt8) : Respaced xs xs
  | space (before : List UInt8) {xs ys : List UInt8} (h : Respaced xs ys) :
      Respaced (before ++ plus :: xs) (before ++ space :: ys)

theorem Respaced.keep {xs ys : List UInt8} (h : Respaced xs ys) (a : UInt8) : Respaced (a :: xs) (a :: ys) := by
  cases h with
  | refl => exact .refl _
  | space before h => exact .space (a :: before) h

theorem Respaced.cons {xs ys : List UInt8} (h : Respaced xs ys) (a : UInt8) :
    Respaced (a :: xs) (plusToSpace a :: ys) := by
  rw [plusToSpace]
  split
  · rename_i ha
    rw [ha]
    exact .space [] h
  · exact h.keep a

theorem respaced_map (bytes : List UInt8) : Respaced bytes (bytes.map plusToSpace) := by
  induction bytes with
  | nil => exact .refl []
  | cons a bytes ih => exact ih.cons a

/-- Spaces for plus signs leave the number of characters as it is. -/
theorem Respaced.length {xs ys : List UInt8} (h : Respaced xs ys) : (lossyChars xs).length = (lossyChars ys).length := by
  induction h with
  | refl => rfl
  | space before h ih =>
    rw [lossyChars_append (by decide), lossyChars_append (by decide), List.length_append, List.length_append,
      List.length_cons, List.length_cons, ih]

/-- The loop is that of the other decoder, with spaces for the plus signs outside of escapes. -/
theorem respaced_unescapeValue (bytes : List UInt8) :
    Respaced (unescapeWith fromStrRadix bytes) (unescapeValue bytes) := by
  fun_induction unescapeWith fromStrRadix bytes with
  | case1 a b c rest byte hbyte ih =>
    rw [unescapeValue, hbyte]
    exact ih.keep byte
  | case2 a b c rest hnone ih =>
    rw [unescapeValue, hnone]
    exact ih.cons a
  | case3 bytes hshort =>
    rcases bytes with _ | ⟨a, _ | ⟨b, _ | ⟨c, rest⟩⟩⟩
    · exact .refl []
    · exact respaced_map [a]
    · exact respaced_map [a, b]
    · exact absurd rfl (hshort a b c rest)

theorem plusToSpace_eq_percent {a : UInt8} : plusToSpace a = percent ↔ a = percent := by
  rw [plusToSpace]
  split
  · rename_i ha
    rw [ha]
    decide
  · rfl

theorem hexDigit_plusToSpace (a : UInt8) : hexDigit (plusToSpace a) = hexDigit a := by
  rw [plusToSpace]
  split
  · rename_i ha
    rw [ha]
    rfl
  · rfl

/-- No digit is a plus sign or a space. -/
theorem hexPair_plusToSpace (b c : UInt8) : hexPair (plusToSpace b) (plusToSpace c) = hexPair b c := by
  rw [hexPair, hexPair, hexDigit_plusToSpace, hexDigit_plusToSpace]

theorem respaced_formDecoded (bytes : List UInt8) :
    Respaced (unescapeWith hexPair bytes) (unescapeWith hexPair (bytes.map plusToSpace)) := by
  fun_induction unescapeWith hexPair bytes with
  | case1 a b c rest byte hbyte ih =>
    rw [List.map_cons, List.map_cons, List.map_cons, unescapeWith, hexPair_plusToSpace,
      if_congr plusToSpace_eq_percent rfl rfl, hbyte]
    exact ih.keep byte
  | case2 a b c rest hnone ih =>
    rw [List.map_cons, List.map_cons, List.map_cons, unescapeWith, hexPair_plusToSpace,
      if_congr plusToSpace_eq_percent rfl rfl, hnone]
    exact ih.cons a
  | case3 bytes hshort =>
    rcases bytes with _ | ⟨a, _ | ⟨b, _ | ⟨c, rest⟩⟩⟩
    · exact .refl []
    · exact respaced_map [a]
    · exact respaced_map [a, b]
    · exact absurd rfl (hshort a b c rest)

/-- Without a signed escape the loop reads what is written. -/
theorem unescapeValue_of_not_signed {bytes : List UInt8} (h : ¬ Signed bytes) :
    unescapeValue bytes = unescapeWith hexPair (bytes.map plusToSpace) := by
  have hescape (a b c : UInt8) (rest : List UInt8) (h : ¬ Signed (a :: b :: c :: rest)) :
      (if plusToSpace a = percent then hexPair (plusToSpace b) (plusToSpace c) else none) =
        if a = percent then fromStrRadix b c else none := by
    rw [hexPair_plusToSpace, if_congr plusToSpace_eq_percent rfl rfl, escape_of_not_signed h]
  fun_induction unescapeValue bytes with
  | case1 a b c rest byte hbyte ih =>
    rw [List.map_cons, List.map_cons, List.map_cons, unescapeWith, hescape a b c rest h, hbyte]
    exact congrArg (byte :: ·) (ih fun hs => h (((hs.cons c).cons b).cons a))
  | case2 a b c rest hnone ih =>
    rw [List.map_cons, List.map_cons, List.map_cons, unescapeWith, hescape a b c rest h, hnone]
    exact congrArg (plusToSpace a :: ·) (ih fun hs => h (hs.cons a))
  | case3 bytes hshort =>
    rcases bytes with _ | ⟨a, _ | ⟨b, _ | ⟨c, rest⟩⟩⟩
    · rfl
    · rfl
    · rfl
    · exact absurd rfl (hshort a b c rest)

/-- A value is decoded to what it stands for exactly if no escape in it is signed. -/
theorem decodes_iff (raw : String) : percentDecode raw = formDecoded raw ↔ ¬ Signed (toUtf8 raw) := by
  constructor
  · intro heq hsigned
    have hless := (length_lossyChars (toUtf8 raw)).2 hsigned
    have hchars : lossyChars (unescapeValue (toUtf8 raw)) =
        lossyChars (unescapeWith hexPair ((toUtf8 raw).map plusToSpace)) := by
      have hlists := congrArg String.toList heq
      rwa [percentDecode, formDecoded, fromUtf8Lossy, fromUtf8Lossy, String.toList_ofList, String.toList_ofList] at hlists
    rw [(respaced_unescapeValue _).length, (respaced_formDecoded _).length, hchars] at hless
    exact Nat.lt_irrefl _ hless
  · intro hsigned
    rw [percentDecode, formDecoded, unescapeValue_of_not_signed hsigned]

/-! ### The query -/

/-- The parameters of the query of a URL. -/
def parameters (url : String) : List String := ((splitOnce '?' url).map fun parts => split '&' parts.2).getD []

/-- `query_value`. -/
def queryValue (url key : String) : Option String := do
  let parts ← splitOnce '?' url
  let pair ← searchOrQuit (splitOnce '=') (fun pair => pair.1 == key) (split '&' parts.2)
  return percentDecode pair.2

/-- The first pair with the key. -/
def firstPair (url key : String) : Option (String × String) :=
  search (splitOnce '=') (fun pair => pair.1 == key) (parameters url)

/-- The value of the first pair with the key is found. -/
def ValueFound (url key : String) : Prop :=
  ∀ pair ∈ firstPair url key, queryValue url key = some (formDecoded pair.2)

/-- Every parameter in front of the first pair with the key is a pair, and no escape in the
value is signed. -/
def ValueInReach (url key : String) : Prop :=
  ∀ pair ∈ firstPair url key,
    (∀ parameter ∈ passedOver (splitOnce '=') (fun pair => pair.1 == key) (parameters url), '=' ∈ parameter.toList) ∧
      ¬ Signed (toUtf8 pair.2)

theorem splitOnce_isSome_iff {c : Char} {s : String} : (splitOnce c s).isSome = true ↔ c ∈ s.toList := by
  constructor
  · intro h
    by_contra hnot
    rw [splitOnce_of_notMem hnot] at h
    cases h
  · intro h
    obtain ⟨before, after, hs⟩ := List.append_of_mem h
    rw [splitOnce]
    split
    · rename_i hnil
      exact absurd (List.dropWhile_eq_nil_iff.mp hnil c h) (by simp)
    · rfl

theorem valueFound_iff (url key : String) : ValueFound url key ↔ ValueInReach url key := by
  apply forall_congr'
  intro pair
  apply imp_congr_right
  intro hpair
  cases hurl : splitOnce '?' url with
  | none =>
    rw [Option.mem_def, firstPair, parameters, hurl] at hpair
    cases hpair
  | some parts =>
    have hparameters : parameters url = split '&' parts.2 := by rw [parameters, hurl]; rfl
    rw [Option.mem_def, firstPair, hparameters] at hpair
    have hfound := searchOrQuit_eq_some_iff _ _ hpair
    have hreach : (∀ parameter ∈ passedOver (splitOnce '=') (fun pair => pair.1 == key) (parameters url),
        '=' ∈ parameter.toList) ↔ searchOrQuit (splitOnce '=') (fun pair => pair.1 == key) (split '&' parts.2) = some pair := by
      rw [hfound, hparameters]
      exact forall_congr' fun parameter => imp_congr_right fun _ => splitOnce_isSome_iff.symm
    have hvalue : queryValue url key =
        (searchOrQuit (splitOnce '=') (fun pair => pair.1 == key) (split '&' parts.2)).map fun pair => percentDecode pair.2 := by
      rw [queryValue, hurl, Option.bind_eq_bind, Option.bind_some]
      cases searchOrQuit (splitOnce '=') (fun pair => pair.1 == key) (split '&' parts.2) <;> rfl
    rw [hreach, ← decodes_iff, hvalue]
    constructor
    · intro h
      have hsome : searchOrQuit (splitOnce '=') (fun pair => pair.1 == key) (split '&' parts.2) = some pair := by
        rw [searchOrQuit_eq, hpair] at h ⊢
        split
        · rfl
        · rename_i hnot
          rw [if_neg hnot] at h
          cases h
      rw [hsome, Option.map_some] at h
      exact ⟨hsome, Option.some.inj h⟩
    · intro h
      rw [h.1, Option.map_some, h.2]

/-! ### The cookie -/

/-- The value of an attribute that is called `CF_Authorization`, in either spelling. -/
def authorization (part : String) : Option String :=
  let entry := trim part
  (stripStart "CF_Authorization=" entry).or (stripStart "cf_authorization=" entry)

section Jwt
variable (jwt : Jwt)

def extractJwtFromCookie (header : String) : Option String :=
  searchOrQuit authorization (looksLikeJwt jwt) (split ';' header)

/-- The first token under the name is found. -/
def CookieFound (header : String) : Prop :=
  ∀ token ∈ search authorization (looksLikeJwt jwt) (split ';' header), extractJwtFromCookie jwt header = some token

/-- Every attribute in front of the token has the same name. -/
def CookieInReach (header : String) : Prop :=
  (search authorization (looksLikeJwt jwt) (split ';' header)).isSome = true →
    ∀ part ∈ passedOver authorization (looksLikeJwt jwt) (split ';' header), (authorization part).isSome = true

theorem cookieFound_iff (header : String) : CookieFound jwt header ↔ CookieInReach jwt header := by
  cases hsearch : search authorization (looksLikeJwt jwt) (split ';' header) with
  | none =>
    rw [CookieFound, CookieInReach, hsearch]
    exact iff_of_true nofun nofun
  | some token =>
    have hfound := searchOrQuit_eq_some_iff _ _ hsearch
    rw [CookieFound, CookieInReach, hsearch, extractJwtFromCookie, ← hfound]
    simp

/-! ### The page -/

/-- What ends a token on a page. -/
def isDelimiter (c : Char) : Bool := c == '"' || c == '\'' || c == '&' || c == '<' || isWhitespace c

def extractJwtFromHtml (html : String) : Option String :=
  (splitOnceStr "token=" html).bind fun parts =>
    let candidate := trim (String.ofList (parts.2.toList.takeWhile fun c => !isDelimiter c))
    if looksLikeJwt jwt candidate then some candidate else none

/-- A token, with nothing around it. -/
def IsJwt (token : String) : Prop := looksLikeJwt jwt token = true ∧ trim token = token

/-- A token and a delimiter stand behind some `token=` of the page. -/
def Offers (html : String) : Prop :=
  ∃ before token d after, html = before ++ "token=" ++ token ++ String.singleton d ++ after ∧ IsJwt jwt token ∧
    isDelimiter d = true

/-- The page that offers a token is found to have one. -/
def PageFound (html : String) : Prop :=
  Offers jwt html → ∃ token, extractJwtFromHtml jwt html = some token ∧ looksLikeJwt jwt token = true

/-- A token stands behind the first `token=` of the page, and then a delimiter or the end. -/
def FirstIsJwt (html : String) : Prop :=
  ∃ before token rest, cutAt "token=".toList html.toList = some (before, token.toList ++ rest) ∧ IsJwt jwt token ∧
    ∀ d ∈ rest.head?, isDelimiter d = true

variable {jwt}

/-- No character of a token ends it. -/
theorem isDelimiter_of_token {c : Char} (h : (c.isAlphanum || c == '.' || c == '-' || c == '_') = true) :
    isDelimiter c = false := by
  have hrange : 33 ≤ c.toNat ∧ c.toNat ≤ 126 ∧ c.toNat ≠ 34 ∧ c.toNat ≠ 39 ∧ c.toNat ≠ 38 ∧ c.toNat ≠ 60 := by
    simp only [Char.isAlphanum, Char.isAlpha, Char.isUpper, Char.isLower, Char.isDigit, Bool.or_eq_true,
      Bool.and_eq_true, decide_eq_true_eq, beq_iff_eq, UInt32.le_iff_toNat_le] at h
    rcases h with (((((h | h) | h) | rfl) | rfl) | rfl)
    · have hlow : 65 ≤ c.toNat := h.1
      have hhigh : c.toNat ≤ 90 := h.2
      omega
    · have hlow : 97 ≤ c.toNat := h.1
      have hhigh : c.toNat ≤ 122 := h.2
      omega
    · have hlow : 48 ≤ c.toNat := h.1
      have hhigh : c.toNat ≤ 57 := h.2
      omega
    all_goals decide
  obtain ⟨hlow, hhigh, hquote, hapostrophe, hamp, hless⟩ := hrange
  have hne (d : Char) (h : c.toNat ≠ d.toNat) : (c == d) = false := by
    apply beq_eq_false_iff_ne.mpr
    intro heq
    exact h (congrArg Char.toNat heq)
  rw [isDelimiter, isWhitespace_of_visible ⟨hlow, hhigh⟩, hne '"' hquote, hne '\'' hapostrophe,
    hne '&' hamp, hne '<' hless]
  rfl

theorem IsJwt.plain {token : String} (h : IsJwt jwt token) : ∀ c ∈ token.toList, isDelimiter c = false := by
  obtain ⟨hlooks, htrim⟩ := h
  rw [looksLikeJwt, htrim] at hlooks
  simp only [Bool.and_eq_true] at hlooks
  intro c hc
  exact isDelimiter_of_token (List.all_eq_true.mp hlooks.1.2 c hc)

theorem extractJwtFromHtml_iff (html : String) :
    (∃ token, extractJwtFromHtml jwt html = some token ∧ looksLikeJwt jwt token = true) ↔ FirstIsJwt jwt html := by
  rw [extractJwtFromHtml, splitOnceStr, FirstIsJwt]
  cases hcut : cutAt "token=".toList html.toList with
  | none =>
    refine iff_of_false ?_ ?_
    · intro h
      obtain ⟨token, htoken, -⟩ := h
      cases htoken
    · intro h
      obtain ⟨before, token, rest, hsome, -⟩ := h
      cases hsome
  | some parts =>
    obtain ⟨before, after⟩ := parts
    rw [Option.map_some, Option.bind_some]
    dsimp only
    rw [String.toList_ofList]
    constructor
    · intro h
      obtain ⟨token, htoken, hlooks⟩ := h
      have hsolid : trim (String.ofList (after.takeWhile fun c => !isDelimiter c)) =
          String.ofList (after.takeWhile fun c => !isDelimiter c) := by
        apply trim_of_solid
        intro c hc
        rw [String.toList_ofList] at hc
        have hnot := List.mem_takeWhile_imp hc
        simp only [isDelimiter, Bool.not_eq_true', Bool.or_eq_false_iff] at hnot
        exact hnot.2
      rw [hsolid] at htoken
      split at htoken
      · obtain rfl := Option.some.inj htoken
        refine ⟨before, _, after.dropWhile fun c => !isDelimiter c, ?_, ⟨hlooks, hsolid⟩, ?_⟩
        · rw [String.toList_ofList, List.takeWhile_append_dropWhile]
        · intro d hd
          have hnot := List.head?_dropWhile_not (fun c => !isDelimiter c) after
          rw [hd] at hnot
          simpa using hnot
      · cases htoken
    · intro h
      obtain ⟨before', token, rest, hparts, hjwt, hrest⟩ := h
      obtain ⟨rfl, rfl⟩ := Prod.mk.inj (Option.some.inj hparts)
      have htake : (token.toList ++ rest).takeWhile (fun c => !isDelimiter c) = token.toList := by
        rw [List.takeWhile_append_of_pos fun c hc => by rw [hjwt.plain c hc]; rfl]
        cases rest with
        | nil => exact List.append_nil _
        | cons d rest => rw [List.takeWhile_cons_of_neg (by rw [hrest d rfl]; decide), List.append_nil]
      refine ⟨token, ?_, hjwt.1⟩
      rw [htake, String.ofList_toList, hjwt.2, if_pos hjwt.1]

theorem pageFound_iff (html : String) : PageFound jwt html ↔ (Offers jwt html → FirstIsJwt jwt html) :=
  imp_congr_right fun _ => extractJwtFromHtml_iff html

end Jwt

/-- **What a sign-in looks for is found exactly where nothing of another form stands in front of
it.** -/
theorem artefacts_found_iff (jwt : Jwt) (url key header html : String) :
    (ValueFound url key ↔ ValueInReach url key) ∧ (CookieFound jwt header ↔ CookieInReach jwt header) ∧
      (PageFound jwt html ↔ (Offers jwt html → FirstIsJwt jwt html)) :=
  ⟨valueFound_iff url key, cookieFound_iff jwt header, pageFound_iff html⟩

/-! ### What is missed -/

/-- A reader of base64 that knows one segment. -/
def oneSegment : Jwt := ⟨fun segment => segment == "eyJhbGciOiJub25lIn0", fun _ => none⟩

/-- A parameter without a value, an attribute of another name and an empty `token=` each hide
what stands behind them. -/
theorem artefacts_missed :
    ¬ ValueFound "https://acme.cloudflareaccess.com/login?warp&nonce=abc123" "nonce" ∧
      ¬ CookieFound oneSegment "Path=/; CF_Authorization=eyJhbGciOiJub25lIn0.e30.c2lnbmF0dXJl" ∧
      ¬ PageFound oneSegment "<a href='?token='> token=eyJhbGciOiJub25lIn0.e30.c2lnbmF0dXJl\"" := by
  refine ⟨?_, ?_, ?_⟩
  · intro h
    have hvalue := h ("nonce", "abc123") (by decide +kernel)
    revert hvalue
    decide +kernel
  · intro h
    have htoken := h "eyJhbGciOiJub25lIn0.e30.c2lnbmF0dXJl" (by decide +kernel)
    revert htoken
    decide +kernel
  · intro h
    obtain ⟨token, htoken, -⟩ := h ⟨"<a href='?token='> ", "eyJhbGciOiJub25lIn0.e30.c2lnbmF0dXJl", '"', "",
      by decide +kernel, ⟨by decide +kernel, by decide +kernel⟩, by decide⟩
    have hnone : extractJwtFromHtml oneSegment
        "<a href='?token='> token=eyJhbGciOiJub25lIn0.e30.c2lnbmF0dXJl\"" = none := by decide +kernel
    rw [hnone] at htoken
    cases htoken

end Aether.Identity
