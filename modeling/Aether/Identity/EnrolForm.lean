import Aether.Account.ApiFront
import Aether.Rust.AddressText
import Aether.Rust.Display
import Aether.Rust.Find

/-! The action of the enrolment form.

`extract_totp_form_action` finds the start tag that the form's id stands in, backwards from
the id, and decodes the references of its action in one pass: a reference is looked for
behind every ampersand, and where there is none the ampersand stands for itself. A URL whose
characters are written as themselves or as references of any kind is read back from the page
(`action_found`). -/
namespace Aether.Identity
open ApiFront (hexValue hexValue_digits)
open Machine (Ends ends_of_fuel)
open Rust (Unbordered byteLen cutAt cutAtLast cutAtLast_last cutAt_eq_some cutAt_first cutAt_missing cutAt_singleton
  cutAt_skip decimalValue decimalValue_digits isWhitespace parseUnsigned parseUnsigned_digits startsWith stripStart
  stripStart_eq_some toDigit)

/-! ### References -/

/-- `char::from_u32`. -/
def fromU32 (n : Nat) : Option Char := if n.isValidChar then some (Char.ofNat n) else none

/-- `u32::from_str_radix(hex, 16)`. -/
def hexNumber (hex : String) : Option Nat :=
  let digits := match hex.toList with
    | '+' :: cs => cs
    | cs => cs
  (hexValue digits).filter (· < 2 ^ 32)

/-- The character that a reference stands for. -/
def entityChar (entity : String) : Option Char :=
  match entity with
  | "amp" => some '&'
  | "lt" => some '<'
  | "gt" => some '>'
  | "quot" => some '"'
  | "apos" => some '\''
  | "#39" => some '\''
  | other =>
    ((((stripStart "#x" other).or (stripStart "#X" other)).bind hexNumber).or
      ((stripStart "#" other).bind (parseUnsigned 32))).bind fromU32

/-- The character of the reference that an ampersand begins, and what follows the reference. Its
semicolon is within eight bytes of the ampersand. -/
def referenceAt (behind : List Char) : Option (Char × List Char) :=
  (cutAt [';'] behind).bind fun parts =>
    if 1 + byteLen parts.1 ≤ 8 then (entityChar (String.ofList parts.1)).map fun c => (c, parts.2) else none

/-! ### The pass -/

/-- A turn of the loop in `decode_entities`, with what is written and what is left. -/
def entityTurn (s : List Char × List Char) : (List Char × List Char) ⊕ List Char :=
  match cutAt ['&'] s.2 with
  | none => .inr (s.1 ++ s.2)
  | some (before, behind) =>
    match referenceAt behind with
    | some (c, rest) => .inl (s.1 ++ before ++ [c], rest)
    | none => .inl (s.1 ++ before ++ ['&'], behind)

def entityLoop : Nat → List Char × List Char → List Char
  | 0, s => s.1 ++ s.2
  | fuel + 1, s => (entityTurn s).elim (entityLoop fuel) id

/-- `decode_entities`. -/
def decodeEntities (raw : String) : String := String.ofList (entityLoop raw.toList.length ([], raw.toList))

theorem length_referenceAt {behind rest : List Char} {c : Char} (h : referenceAt behind = some (c, rest)) :
    rest.length < behind.length := by
  obtain ⟨parts, hcut, h⟩ := Option.bind_eq_some_iff.mp h
  split at h
  · obtain ⟨d, -, hpair⟩ := Option.map_eq_some_iff.mp h
    obtain ⟨-, rfl⟩ := Prod.mk.inj hpair
    rw [cutAt_eq_some hcut, List.length_append, List.length_append, List.length_singleton]
    omega
  · cases h

theorem length_entityTurn {s t : List Char × List Char} (h : entityTurn s = .inl t) : t.2.length < s.2.length := by
  rw [entityTurn] at h
  split at h
  · cases h
  · rename_i before behind hcut
    have hlen := congrArg List.length (cutAt_eq_some hcut)
    rw [List.length_append, List.length_append, List.length_singleton] at hlen
    split at h
    · rename_i c rest href
      cases h
      have := length_referenceAt href
      dsimp only
      omega
    · cases h
      dsimp only
      omega

/-- The pass ends on every text. -/
theorem entityLoop_ends (raw : String) : Ends entityTurn ([], raw.toList) (decodeEntities raw).toList := by
  rw [decodeEntities, String.toList_ofList]
  apply ends_of_fuel (fun s => s.2.length)
  · intro fuel s
    rfl
  · intro s hs
    rw [entityTurn, List.length_eq_zero_iff.mp hs]
    exact congrArg Sum.inr (congrArg (s.1 ++ ·) (List.length_eq_zero_iff.mp hs).symm)
  · intro s t
    exact length_entityTurn
  · exact Nat.le_refl _

theorem decodeEntities_eq {raw : String} {decoded : List Char} (h : Ends entityTurn ([], raw.toList) decoded) :
    decodeEntities raw = String.ofList decoded := by
  rw [h.unique (entityLoop_ends raw), String.ofList_toList]

/-- A text without an ampersand is left as it is. -/
theorem decodeEntities_plain {raw : String} (h : '&' ∉ raw.toList) : decodeEntities raw = raw := by
  have hturn : entityTurn ([], raw.toList) = .inr raw.toList := by
    rw [entityTurn, cutAt_missing h]
    rfl
  rw [decodeEntities_eq (.stop hturn), String.ofList_toList]

/-! ### What is decoded -/

/-- The references that have a name. -/
def namedReferences : List (String × Char) :=
  [("amp", '&'), ("lt", '<'), ("gt", '>'), ("quot", '"'), ("apos", '\'')]

/-- What stands between the ampersand and the semicolon of a reference to a character. -/
inductive Reference (c : Char) : List Char → Prop
  | named (name : String) (h : (name, c) ∈ namedReferences) : Reference c name.toList
  | decimal (digits : List Char) (hlen : digits.length ≤ 5) (h : decimalValue digits = some c.toNat) :
      Reference c ('#' :: digits)
  | hexadecimal (x : Char) (hx : x = 'x' ∨ x = 'X') (digits : List Char) (hlen : digits.length ≤ 4)
      (h : hexValue digits = some c.toNat) : Reference c ('#' :: x :: digits)

/-- The characters that are always written as references. -/
def markup : List Char := ['&', '<', '>', '"', '\'']

/-- A text with some of its characters written as references. -/
inductive Encodes : List Char → List Char → Prop
  | nil : Encodes [] []
  | literal {c : Char} (hc : c ∉ markup) {text value : List Char} (h : Encodes text value) :
      Encodes (c :: text) (c :: value)
  | reference {c : Char} {entity : List Char} (hc : Reference c entity) {text value : List Char}
      (h : Encodes text value) : Encodes (c :: text) ('&' :: (entity ++ ';' :: value))

/-- The number sign, the digits and the letters. -/
def EntityChar (c : Char) : Prop := 35 ≤ c.toNat ∧ c.toNat ≤ 122 ∧ c.toNat ≠ 38 ∧ c.toNat ≠ 39 ∧ c.toNat ≠ 59

instance (c : Char) : Decidable (EntityChar c) := inferInstanceAs (Decidable (_ ∧ _))

theorem digit_entityChar {c : Char} (h : c.isDigit = true) : EntityChar c := by
  rw [Char.isDigit, Bool.and_eq_true, decide_eq_true_eq, decide_eq_true_eq] at h
  have hlow : 48 ≤ c.toNat := h.1
  have hhigh : c.toNat ≤ 57 := h.2
  refine ⟨?_, ?_, ?_, ?_, ?_⟩ <;> omega

theorem hexDigit_range {c : Char} (h : (toDigit 16 c).isSome = true) : 46 ≤ c.toNat ∧ c.toNat ≤ 102 ∧ c.toNat ≠ 59 := by
  have hbounds := Rust.literal_bounds (.inl h)
  omega

theorem Reference.chars {c : Char} {entity : List Char} (h : Reference c entity) : ∀ d ∈ entity, EntityChar d := by
  have hsign : EntityChar '#' := by decide
  cases h with
  | named name h =>
    have hall : (namedReferences.all fun entry => entry.1.toList.all fun d => decide (EntityChar d)) = true := by
      decide +kernel
    intro d hd
    exact of_decide_eq_true (List.all_eq_true.mp (List.all_eq_true.mp hall _ h) d hd)
  | decimal digits hlen h =>
    intro d hd
    obtain rfl | hd := List.mem_cons.mp hd
    · exact hsign
    · exact digit_entityChar ((decimalValue_digits h).2 d hd)
  | hexadecimal x hx digits hlen h =>
    intro d hd
    obtain rfl | hd := List.mem_cons.mp hd
    · exact hsign
    · obtain rfl | hd := List.mem_cons.mp hd
      · obtain rfl | rfl := hx <;> decide
      · have hd := hexDigit_range ((hexValue_digits h).2 d hd)
        refine ⟨?_, ?_, ?_, ?_, ?_⟩ <;> omega

theorem Reference.length {c : Char} {entity : List Char} (h : Reference c entity) : entity.length ≤ 6 := by
  cases h with
  | named name h =>
    have hall : (namedReferences.all fun entry => decide (entry.1.toList.length ≤ 6)) = true := by decide +kernel
    exact of_decide_eq_true (List.all_eq_true.mp hall _ h)
  | decimal digits hlen h =>
    rw [List.length_cons]
    omega
  | hexadecimal x hx digits hlen h =>
    rw [List.length_cons, List.length_cons]
    omega

theorem byteLen_entity {entity : List Char} (h : ∀ d ∈ entity, EntityChar d) : byteLen entity = entity.length := by
  induction entity with
  | nil => rfl
  | cons d entity ih =>
    have hd := h d (List.mem_cons_self ..)
    have hsize : d.utf8Size = 1 := by
      rw [Char.utf8Size_eq_one_iff, UInt32.le_iff_toNat_le]
      have hhigh : d.val.toNat ≤ 122 := hd.2.1
      have hlimit : (127 : UInt32).toNat = 127 := rfl
      omega
    rw [Rust.byteLen_cons, hsize, ih fun d hd => h d (List.mem_cons_of_mem _ hd), List.length_cons]
    omega

theorem fromU32_toNat (c : Char) : fromU32 c.toNat = some c := by
  have hvalid : c.toNat.isValidChar := c.valid
  rw [fromU32, if_pos hvalid, Char.ofNat_toNat]

theorem toNat_lt (c : Char) : c.toNat < 2 ^ 32 := c.val.toNat_lt

/-- A numeric reference other than the one that is looked up. -/
theorem entityChar_number {digits : List Char} (h : digits ≠ ['3', '9']) :
    entityChar (String.ofList ('#' :: digits)) =
      ((((stripStart "#x" (String.ofList ('#' :: digits))).or (stripStart "#X" (String.ofList ('#' :: digits)))).bind
          hexNumber).or ((stripStart "#" (String.ofList ('#' :: digits))).bind (parseUnsigned 32))).bind fromU32 := by
  have hne (name : String) (hname : name.toList.head? ≠ some '#') : String.ofList ('#' :: digits) ≠ name := by
    intro heq
    apply hname
    rw [← heq, String.toList_ofList]
    rfl
  rw [entityChar.eq_def]
  split
  · exact absurd (by assumption) (hne _ (by decide +kernel))
  · exact absurd (by assumption) (hne _ (by decide +kernel))
  · exact absurd (by assumption) (hne _ (by decide +kernel))
  · exact absurd (by assumption) (hne _ (by decide +kernel))
  · exact absurd (by assumption) (hne _ (by decide +kernel))
  · rename_i heq
    have hlist := congrArg String.toList heq
    rw [String.toList_ofList] at hlist
    exact absurd (List.cons.inj hlist).2 h
  · rfl

theorem hexNumber_digits {digits : List Char} {n : Nat} (h : hexValue digits = some n) (hn : n < 2 ^ 32) :
    hexNumber (String.ofList digits) = some n := by
  rw [hexNumber, String.toList_ofList]
  split
  · exact absurd ((hexValue_digits h).2 '+' (List.mem_cons_self ..)) (by decide)
  · rw [h, Option.filter_some, if_pos (by simpa using hn)]

theorem stripStart_ofList (start cs : List Char) :
    stripStart (String.ofList start) (String.ofList (start ++ cs)) = some (String.ofList cs) := by
  rw [String.ofList_append, Rust.stripStart_append]

theorem stripStart_sign {x y : Char} (h : x ≠ y) (cs : List Char) :
    stripStart (String.ofList ['#', x]) (String.ofList ('#' :: y :: cs)) = none := by
  rw [Option.eq_none_iff_forall_ne_some]
  intro rest hrest
  have hlist := congrArg String.toList (stripStart_eq_some.mp hrest)
  rw [String.toList_append, String.toList_ofList, String.toList_ofList] at hlist
  exact h (List.cons.inj (List.cons.inj hlist).2).1.symm

/-- Every reference is read as the character that it stands for. -/
theorem Reference.decoded {c : Char} {entity : List Char} (h : Reference c entity) :
    entityChar (String.ofList entity) = some c := by
  cases h with
  | named name h =>
    have hall : (namedReferences.all fun entry => entityChar entry.1 == some entry.2) = true := by decide +kernel
    rw [String.ofList_toList]
    exact eq_of_beq (List.all_eq_true.mp hall _ h)
  | decimal digits hlen h =>
    by_cases hquote : digits = ['3', '9']
    · rw [hquote] at h ⊢
      have hcode : c.toNat = 39 := (Option.some.inj h).symm
      have hc : c = '\'' := by rw [← Char.ofNat_toNat c, hcode]
      rw [hc]
      decide +kernel
    · obtain ⟨hne, hdigits⟩ := decimalValue_digits h
      obtain ⟨d, rest, rfl⟩ := List.exists_cons_of_ne_nil hne
      have hd := hdigits d (List.mem_cons_self ..)
      have hx (x : Char) (hx : x.isDigit = false) : x ≠ d := by
        intro heq
        rw [heq, hd] at hx
        cases hx
      have hlower : stripStart "#x" _ = none := stripStart_sign (hx 'x' (by decide)) rest
      have hupper : stripStart "#X" _ = none := stripStart_sign (hx 'X' (by decide)) rest
      have hstrip : stripStart "#" _ = some _ := stripStart_ofList ['#'] (d :: rest)
      rw [List.singleton_append] at hstrip
      have hvalue : decimalValue (String.ofList (d :: rest)).toList = some c.toNat := by rw [String.toList_ofList, h]
      rw [entityChar_number hquote, hlower, hupper, hstrip, Option.or_self, Option.bind_none, Option.none_or,
        Option.bind_some, parseUnsigned_digits hvalue (toNat_lt c), Option.bind_some, fromU32_toNat]
  | hexadecimal x hx digits hlen h =>
    have hquote : x :: digits ≠ ['3', '9'] := by
      intro heq
      rw [(List.cons.inj heq).1] at hx
      revert hx
      decide
    have hstrip : (stripStart "#x" (String.ofList ('#' :: x :: digits))).or
        (stripStart "#X" (String.ofList ('#' :: x :: digits))) = some (String.ofList digits) := by
      obtain rfl | rfl := hx
      · have hlower : stripStart "#x" _ = some _ := stripStart_ofList ['#', 'x'] digits
        rw [List.cons_append, List.singleton_append] at hlower
        rw [hlower, Option.some_or]
      · have hlower : stripStart "#x" _ = none := stripStart_sign (by decide : 'x' ≠ 'X') digits
        have hupper : stripStart "#X" _ = some _ := stripStart_ofList ['#', 'X'] digits
        rw [List.cons_append, List.singleton_append] at hupper
        rw [hlower, hupper, Option.none_or]
    rw [entityChar_number hquote, hstrip, Option.bind_some, hexNumber_digits h (toNat_lt c), Option.some_or,
      Option.bind_some, fromU32_toNat]

theorem Reference.read {c : Char} {entity : List Char} (h : Reference c entity) (rest : List Char) :
    referenceAt (entity ++ ';' :: rest) = some (c, rest) := by
  have hfree : ';' ∉ entity := fun hmem => (h.chars _ hmem).2.2.2.2 rfl
  have hnear : 1 + byteLen entity ≤ 8 := by
    have := h.length
    rw [byteLen_entity h.chars]
    omega
  rw [referenceAt, cutAt_singleton hfree, Option.bind_some, if_pos hnear, h.decoded]
  rfl

/-! ### The value -/

/-- A character that is no ampersand is written as it is. -/
theorem entityTurn_literal {c : Char} (hc : c ≠ '&') (out value : List Char) :
    entityTurn (out, c :: value) = entityTurn (out ++ [c], value) := by
  have hnone : '&' ∉ [c] := by simpa using hc.symm
  have hskip : cutAt ['&'] (c :: value) = _ := cutAt_skip hnone value
  rw [entityTurn, entityTurn, hskip]
  cases cutAt ['&'] value with
  | none =>
    dsimp only [Option.map_none]
    rw [List.append_assoc, List.singleton_append]
  | some parts =>
    dsimp only [Option.map_some]
    cases referenceAt parts.2 with
    | none =>
      dsimp only
      rw [List.append_assoc out [c]]
    | some read =>
      dsimp only
      rw [List.append_assoc out [c]]

theorem entityTurn_reference {c : Char} {entity : List Char} (h : Reference c entity) (out value : List Char) :
    entityTurn (out, '&' :: (entity ++ ';' :: value)) = .inl (out ++ [c], value) := by
  have hcut : cutAt ['&'] ('&' :: (entity ++ ';' :: value)) = some ([], entity ++ ';' :: value) := rfl
  rw [entityTurn, hcut]
  dsimp only
  rw [h.read]
  dsimp only
  rw [List.append_nil]

/-- The pass decodes what is encoded, character by character. -/
theorem Encodes.ends {text value : List Char} (h : Encodes text value) (out : List Char) :
    Ends entityTurn (out, value) (out ++ text) := by
  induction h generalizing out with
  | nil => exact .stop rfl
  | @literal c hc text value h ih =>
    have hturn := entityTurn_literal (c := c) (fun heq => hc (by rw [heq]; exact List.mem_cons_self ..)) out value
    have hrest := ih (out ++ [c])
    rw [List.append_assoc, List.singleton_append] at hrest
    cases hrest with
    | stop hstop => exact .stop (hturn.trans hstop)
    | next hnext hends => exact .next (hturn.trans hnext) hends
  | @reference c entity hc text value h ih =>
    have hrest := ih (out ++ [c])
    rw [List.append_assoc, List.singleton_append] at hrest
    exact .next (entityTurn_reference hc out value) hrest

theorem Encodes.decoded {text value : List Char} (h : Encodes text value) :
    decodeEntities (String.ofList value) = String.ofList text := by
  apply decodeEntities_eq
  rw [String.toList_ofList]
  exact h.ends []

theorem Encodes.append_plain (plain : List Char) (hplain : (plain.all fun c => decide (c ∉ markup)) = true)
    {text value : List Char} (h : Encodes text value) : Encodes (plain ++ text) (plain ++ value) := by
  induction plain with
  | nil => exact h
  | cons c plain ih =>
    rw [List.all_cons, Bool.and_eq_true, decide_eq_true_eq] at hplain
    exact .literal hplain.1 (ih hplain.2)

/-- No quote is left in a value. -/
theorem Encodes.unquoted {text value : List Char} (h : Encodes text value) {quote : Char}
    (hquote : quote = '\'' ∨ quote = '"') : quote ∉ value := by
  have hmarkup : quote ∈ markup := by
    obtain rfl | rfl := hquote <;> decide
  have hentity : ¬ EntityChar quote ∧ quote ≠ '&' ∧ quote ≠ ';' := by
    obtain rfl | rfl := hquote <;> decide
  induction h with
  | nil => exact List.not_mem_nil
  | literal hc h ih =>
    rw [List.mem_cons, not_or]
    refine ⟨?_, ih⟩
    intro heq
    rw [heq] at hmarkup
    exact hc hmarkup
  | reference hc h ih =>
    rw [List.mem_cons, List.mem_append, List.mem_cons, not_or, not_or, not_or]
    exact ⟨hentity.2.1, fun hmem => hentity.1 (hc.chars _ hmem), hentity.2.2, ih⟩

/-! ### The form -/

def formId : List Char := "id=\"totp-form\"".toList

def formStart : List Char := "<form".toList

def actionKey : List Char := "action=".toList

/-- The start tag that the form's id stands in, without its closing bracket. -/
def formTag (html : List Char) : Option (List Char) :=
  (cutAt formId html).bind fun parts =>
    (cutAtLast formStart parts.1).bind fun head => (cutAt ['>'] (html.drop head.1.length)).map (·.1)

/-- The quoted value of the action of a tag. -/
def actionValue (tag : List Char) : Option (List Char) :=
  (cutAt actionKey tag).bind fun parts =>
    match parts.2.dropWhile isWhitespace with
    | [] => none
    | quote :: body => if quote ≠ '\'' ∧ quote ≠ '"' then none else (cutAt [quote] body).map (·.1)

/-- `extract_totp_form_action`. -/
def extractTotpFormAction (html : String) : Option String :=
  (formTag html.toList).bind fun tag =>
    (actionValue tag).bind fun value =>
      let action := decodeEntities (String.ofList value)
      if startsWith "https://" action then some action else none

/-- A page with the enrolment form. The form's id is in a start tag, and nowhere in front of it;
the tag has one action, with the URL as its value, and no other `<form` or closing bracket. -/
structure EnrolPage (url : List Char) where
  before : List Char
  attributes : List Char
  after : List Char
  idFront : List Char
  idBack : List Char
  id_eq : attributes = idFront ++ (formId ++ idBack)
  id_first : ¬ formId <:+: before ++ (formStart ++ idFront)
  front : List Char
  blank : List Char
  quote : Char
  value : List Char
  back : List Char
  action_eq : attributes = front ++ (actionKey ++ (blank ++ quote :: (value ++ quote :: back)))
  action_first : ¬ actionKey <:+: front
  blank_white : ∀ c ∈ blank, isWhitespace c = true
  quotes : quote = '\'' ∨ quote = '"'
  encodes : Encodes url value
  plain : '>' ∉ attributes
  single : ¬ formStart <:+: attributes

namespace EnrolPage
variable {url : List Char} (page : EnrolPage url)

def html : List Char := page.before ++ (formStart ++ (page.attributes ++ '>' :: page.after))

theorem formTag_html : formTag page.html = some (formStart ++ page.attributes) := by
  have hid : cutAt formId page.html =
      some (page.before ++ (formStart ++ page.idFront), page.idBack ++ '>' :: page.after) := by
    have hfirst := cutAt_first (by decide +kernel : Unbordered formId) (by decide +kernel) page.id_first
      (page.idBack ++ '>' :: page.after)
    rw [html, page.id_eq]
    simpa only [List.append_assoc] using hfirst
  have hfree : ¬ formStart <:+: page.idFront := by
    intro hin
    apply page.single
    rw [page.id_eq]
    exact hin.trans (List.prefix_append ..).isInfix
  have hform := cutAtLast_last (by decide +kernel : Unbordered formStart) (by decide +kernel) hfree page.before
  have hend : '>' ∉ formStart ++ page.attributes := by
    rw [List.mem_append, not_or]
    exact ⟨by decide +kernel, page.plain⟩
  have htag : cutAt ['>'] (page.html.drop page.before.length) = some (formStart ++ page.attributes, page.after) := by
    rw [html, List.drop_left, ← List.append_assoc]
    exact cutAt_singleton hend page.after
  rw [formTag, hid, Option.bind_some, hform, Option.bind_some, htag]
  rfl

theorem actionValue_tag : actionValue (formStart ++ page.attributes) = some page.value := by
  have hskip : cutAt actionKey (formStart ++ page.attributes) =
      some (formStart ++ page.front, page.blank ++ page.quote :: (page.value ++ page.quote :: page.back)) := by
    have hnone : 'a' ∉ formStart := by decide +kernel
    have hfirst := cutAt_first (by decide +kernel : Unbordered actionKey) (by decide +kernel) page.action_first
      (page.blank ++ page.quote :: (page.value ++ page.quote :: page.back))
    have hkey : actionKey = 'a' :: "ction=".toList := by decide +kernel
    rw [page.action_eq]
    rw [hkey] at hfirst ⊢
    rw [cutAt_skip hnone, hfirst]
    rfl
  have hquote : isWhitespace page.quote = false := by
    obtain h | h := page.quotes <;> rw [h] <;> decide
  have hdrop : (page.blank ++ page.quote :: (page.value ++ page.quote :: page.back)).dropWhile isWhitespace =
      page.quote :: (page.value ++ page.quote :: page.back) := by
    rw [List.dropWhile_append_of_pos page.blank_white, List.dropWhile_cons_of_neg (by rw [hquote]; decide)]
  have hnot : ¬ (page.quote ≠ '\'' ∧ page.quote ≠ '"') := by
    intro h
    obtain hq | hq := page.quotes
    · exact h.1 hq
    · exact h.2 hq
  rw [actionValue, hskip, Option.bind_some, hdrop]
  dsimp only
  rw [if_neg hnot, cutAt_singleton (page.encodes.unquoted page.quotes)]
  rfl

theorem action_html (hurl : "https://".toList <+: url) :
    extractTotpFormAction (String.ofList page.html) = some (String.ofList url) := by
  have hstart : startsWith "https://" (String.ofList url) = true := by
    have hlist : (String.ofList url).toList = url := String.toList_ofList
    rw [startsWith, hlist]
    exact List.isPrefixOf_iff_prefix.mpr hurl
  rw [extractTotpFormAction, String.toList_ofList, page.formTag_html, Option.bind_some, page.actionValue_tag,
    Option.bind_some]
  dsimp only
  rw [page.encodes.decoded, if_pos hstart]

end EnrolPage

/-- **The action of the form is the URL that is written in it, the decoding ends on every text,
and it changes none that has no ampersand.** -/
theorem action_found :
    (∀ (url : List Char) (page : EnrolPage url), "https://".toList <+: url →
      extractTotpFormAction (String.ofList page.html) = some (String.ofList url)) ∧
    (∀ raw : String, Ends entityTurn ([], raw.toList) (decodeEntities raw).toList) ∧
    ∀ raw : String, '&' ∉ raw.toList → decodeEntities raw = raw :=
  ⟨fun _ page => page.action_html, entityLoop_ends, fun _ => decodeEntities_plain⟩

/-- A slash and an equals sign in hexadecimal, a slash in decimal and an ampersand by its name. -/
theorem action_enrolment :
    extractTotpFormAction
        "<p><form action= 'https:&#x2F;&#47;t.example?kid&#X3d;abc&amp;meta' id=\"totp-form\"><input name=\"email\">"
      = some "https://t.example?kid=abc&meta" := by
  have hmeta := Encodes.nil.append_plain "meta".toList (by decide +kernel)
  have hamp := (Encodes.reference (c := '&') (.named "amp" (by decide)) hmeta).append_plain "abc".toList
    (by decide +kernel)
  have hkey := (Encodes.reference (c := '=') (.hexadecimal 'X' (.inr rfl) ['3', 'd'] (by decide) (by decide +kernel))
    hamp).append_plain "t.example?kid".toList (by decide +kernel)
  have hslash := Encodes.reference (c := '/') (.decimal ['4', '7'] (by decide) (by decide +kernel)) hkey
  have hurl := (Encodes.reference (c := '/') (.hexadecimal 'x' (.inl rfl) ['2', 'F'] (by decide) (by decide +kernel))
    hslash).append_plain "https:".toList (by decide +kernel)
  have hread := action_found.1 _
    { before := "<p>".toList
      attributes := " action= 'https:&#x2F;&#47;t.example?kid&#X3d;abc&amp;meta' id=\"totp-form\"".toList
      after := "<input name=\"email\">".toList
      idFront := " action= 'https:&#x2F;&#47;t.example?kid&#X3d;abc&amp;meta' ".toList
      idBack := []
      id_eq := by decide +kernel
      id_first := by decide +kernel
      front := [' ']
      blank := [' ']
      quote := '\''
      value := _
      back := " id=\"totp-form\"".toList
      action_eq := by decide +kernel
      action_first := by decide +kernel
      blank_white := fun c hc => by rw [List.mem_singleton.mp hc]; rfl
      quotes := .inl rfl
      encodes := hurl
      plain := by decide +kernel
      single := by decide +kernel } (by decide +kernel)
  refine Eq.trans (congrArg extractTotpFormAction ?_) (hread.trans (congrArg some ?_))
  · dsimp only [EnrolPage.html]
    decide +kernel
  · decide +kernel

end Aether.Identity
