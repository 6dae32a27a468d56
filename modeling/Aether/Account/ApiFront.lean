import Aether.Account.Api
import Aether.Machine.Loop
import Aether.Masque.Capsule
import Aether.Rust.Lines
import Aether.Rust.Net
import Aether.Rust.Slices

/-! What a camouflaged response is read as.

The bytes of a response are read as a text, whatever they are, and the chunks of its body are
cut out of the text by the numbers of bytes that they had. Where a slice ends inside a
character, or a size leads round the end of the numbers, the task panics; the loop over the
chunks then ends with `none` (`dechunk_isSome_iff`). -/
namespace Aether.ApiFront
open Masque (Target asUsize)
open Machine (Ends ends_of_fuel)
open Rust
open Account (Outcome failed)

def crlf : List Char := ['\r', '\n']

/-! ### Chunks -/

/-- The number that digits write in radix sixteen. -/
def hexValue (digits : List Char) : Option Nat :=
  if digits = [] then none else (digits.mapM (toDigit 16)).map fun ds => Nat.ofDigits 16 ds.reverse

theorem isSome_of_mapM {α β : Type} {f : α → Option β} {as : List α} {bs : List β} (h : as.mapM f = some bs) :
    ∀ a ∈ as, (f a).isSome = true := by
  induction as generalizing bs with
  | nil =>
    intro a ha
    cases ha
  | cons b as ih =>
    rw [List.mapM_cons] at h
    obtain ⟨value, hvalue, h⟩ := Option.bind_eq_some_iff.mp h
    obtain ⟨values, hvalues, -⟩ := Option.bind_eq_some_iff.mp h
    intro a ha
    obtain rfl | ha := List.mem_cons.mp ha
    · rw [hvalue]
      rfl
    · exact ih hvalues a ha

theorem hexValue_digits {digits : List Char} {n : Nat} (h : hexValue digits = some n) :
    digits ≠ [] ∧ ∀ c ∈ digits, (toDigit 16 c).isSome = true := by
  rw [hexValue] at h
  split at h
  · cases h
  · rename_i hne
    obtain ⟨values, hvalues, -⟩ := Option.map_eq_some_iff.mp h
    exact ⟨hne, isSome_of_mapM hvalues⟩

/-- `usize::from_str_radix(token, 16)`. -/
def fromStrRadix (t : Target) (token : List Char) : Option Nat :=
  let digits := match token with
    | '+' :: cs => cs
    | cs => cs
  (hexValue digits).filter (· < 2 ^ t.usizeBits)

/-- What a line has before its extension. -/
def sizeToken (line : List Char) : List Char := (trim (String.ofList (line.takeWhile (· != ';')))).toList

/-- The size that a line gives to its chunk; zero and what is no size end the chunks. -/
def chunkSize (t : Target) (line : List Char) : Option Nat := (fromStrRadix t (sizeToken line)).filter (· ≠ 0)

section
variable (t : Target) (body : List Char)

/-- A turn from the end of the chunk's line on. -/
def chunkTurn (start size : Nat) (out : List Char) : (Nat × List Char) ⊕ Option (List Char) :=
  let stop := asUsize t (start + size)
  if byteLen body < stop then .inr (some out)
  else
    match sliceBetween start stop body with
    | none => .inr none
    | some data => .inl (stop + 2, out ++ data)

/-- A turn of the loop in `dechunk`. -/
def dechunkTurn : Nat × List Char → (Nat × List Char) ⊕ Option (List Char)
  | (cursor, out) =>
    if byteLen body ≤ cursor then .inr (some out)
    else
      match sliceFrom cursor body with
      | none => .inr none
      | some rest =>
        match cutAt crlf rest with
        | none => .inr (some out)
        | some (line, _) =>
          match chunkSize t line with
          | none => .inr (some out)
          | some size => chunkTurn t body (cursor + byteLen line + 2) size out

def dechunkFrom : Nat → Nat × List Char → Option (List Char)
  | 0, s => some s.2
  | fuel + 1, s => (dechunkTurn t body s).elim (dechunkFrom fuel) id

/-- `dechunk`. Each turn goes forward in the body, so that its length is enough fuel. -/
def dechunk : Option (List Char) := dechunkFrom t body (byteLen body) (0, [])

end

/-! ### Responses -/

/-- The second word of a status line. -/
def parseStatus (statusLine : List Char) : Option UInt16 :=
  (splitWhitespace (String.ofList statusLine))[1]?.bind parseU16

/-- A line of the head that asks for chunks. -/
def isChunked (line : List Char) : Bool :=
  let lowered := toLowercase (String.ofList line)
  startsWith "transfer-encoding:" lowered && contains "chunked" lowered

/-- `parse_response`. -/
def parseResponse (t : Target) (raw : List UInt8) : Outcome (UInt16 × String) :=
  match cutAt (crlf ++ crlf) (lossyChars raw) with
  | none => failed (.api "truncated response head")
  | some (head, body) =>
    match cutLines '\r' '\n' head with
    | [] => failed (.api "empty response")
    | statusLine :: lines =>
      match parseStatus statusLine with
      | none => failed (.api ("bad status line: " ++ String.ofList statusLine))
      | some status =>
        if lines.any isChunked then
          match dechunk t body with
          | none => .error .panicked
          | some body => .ok (status, String.ofList body)
        else .ok (status, String.ofList body)

/-! ### Turns -/

section
variable {t : Target} {front rest out line after : List Char} {size : Nat}

@[simp] theorem byteLen_crlf : byteLen crlf = 2 := by decide

theorem byteLen_line : byteLen (front ++ line ++ crlf) = byteLen front + byteLen line + 2 := by
  rw [byteLen_append, byteLen_append, byteLen_crlf]

theorem behind_line (h : cutAt crlf rest = some (line, after)) : front ++ rest = front ++ line ++ crlf ++ after := by
  rw [cutAt_eq_some h]
  simp only [List.append_assoc]

theorem dechunkTurn_past {body : List Char} {cursor : Nat} (h : byteLen body ≤ cursor) :
    dechunkTurn t body (cursor, out) = .inr (some out) := by
  rw [dechunkTurn, if_pos h]

theorem dechunkTurn_last (h : cutAt crlf rest = none) :
    dechunkTurn t (front ++ rest) (byteLen front, out) = .inr (some out) := by
  rw [dechunkTurn, sliceFrom_append]
  split
  · rfl
  · dsimp only
    rw [h]

theorem dechunkTurn_line (h : cutAt crlf rest = some (line, after)) :
    dechunkTurn t (front ++ rest) (byteLen front, out) =
      match chunkSize t line with
      | none => .inr (some out)
      | some size => chunkTurn t (front ++ line ++ crlf ++ after) (byteLen (front ++ line ++ crlf)) size out := by
  have hbody : front ++ rest = front ++ line ++ crlf ++ after := behind_line h
  have hlonger : ¬ byteLen (front ++ rest) ≤ byteLen front := by
    rw [hbody, byteLen_append, byteLen_line]
    omega
  rw [dechunkTurn, if_neg hlonger, sliceFrom_append, ← hbody, byteLen_line]
  dsimp only
  rw [h]

theorem chunkTurn_fits (h : byteLen front + size < 2 ^ t.usizeBits) :
    chunkTurn t (front ++ after) (byteLen front) size out =
      if byteLen after < size then .inr (some out)
      else
        match takeBytes size after with
        | none => .inr none
        | some data => .inl (byteLen front + size + 2, out ++ data) := by
  rw [chunkTurn, asUsize, Nat.mod_eq_of_lt h, byteLen_append, sliceBetween_append]
  simp only [Nat.add_lt_add_iff_left]

theorem chunkTurn_wraps (hsize : size < 2 ^ t.usizeBits) (h : 2 ^ t.usizeBits ≤ byteLen front + size) :
    chunkTurn t (front ++ after) (byteLen front) size out = .inr none := by
  have hless : asUsize t (byteLen front + size) < byteLen front := by
    rw [asUsize, Nat.mod_eq_sub_mod h]
    have := Nat.mod_le (byteLen front + size - 2 ^ t.usizeBits) (2 ^ t.usizeBits)
    omega
  have hnone : sliceBetween (byteLen front) (asUsize t (byteLen front + size)) (front ++ after) = none := by
    rw [sliceBetween, if_neg (by omega)]
  rw [chunkTurn, hnone, byteLen_append, if_neg (by omega)]

/-- A chunk that is taken lies behind its line, and the reading goes on two bytes further. -/
theorem chunkTurn_cases (body : List Char) (start size : Nat) (out : List Char) :
    chunkTurn t body start size out = .inr none ∨ chunkTurn t body start size out = .inr (some out) ∨
      ∃ cursor data, chunkTurn t body start size out = .inl (cursor, out ++ data) ∧ start + 2 ≤ cursor := by
  rw [chunkTurn]
  split
  · exact .inr (.inl rfl)
  · cases hdata : sliceBetween start (asUsize t (start + size)) body with
    | none => exact .inl rfl
    | some data =>
      refine .inr (.inr ⟨_, data, rfl, ?_⟩)
      rw [sliceBetween] at hdata
      split at hdata
      · omega
      · cases hdata

theorem dechunkTurn_cases (t : Target) (body : List Char) (cursor : Nat) (out : List Char) :
    dechunkTurn t body (cursor, out) = .inr none ∨ dechunkTurn t body (cursor, out) = .inr (some out) ∨
      ∃ next data, dechunkTurn t body (cursor, out) = .inl (next, out ++ data) ∧
        cursor < byteLen body ∧ cursor < next := by
  rw [dechunkTurn]
  split
  · exact .inr (.inl rfl)
  · rename_i hbefore
    cases sliceFrom cursor body with
    | none => exact .inl rfl
    | some rest =>
      dsimp only
      cases cutAt crlf rest with
      | none => exact .inr (.inl rfl)
      | some cut =>
        obtain ⟨line, after⟩ := cut
        dsimp only
        cases chunkSize t line with
        | none => exact .inr (.inl rfl)
        | some size =>
          obtain h | h | ⟨next, data, h, hnext⟩ := chunkTurn_cases body (cursor + byteLen line + 2) size out
          · exact .inl h
          · exact .inr (.inl h)
          · exact .inr (.inr ⟨next, data, h, by omega, by omega⟩)

theorem dechunk_ends (t : Target) (body : List Char) : Ends (dechunkTurn t body) (0, []) (dechunk t body) := by
  apply ends_of_fuel fun s => byteLen body - s.1
  · intro fuel s
    rfl
  · intro s hleft
    rw [dechunkTurn, if_pos (by omega)]
    rfl
  · intro ⟨cursor, out⟩ next hnext
    obtain h | h | ⟨later, data, h, hbefore, hlater⟩ := dechunkTurn_cases t body cursor out
    · cases h.symm.trans hnext
    · cases h.symm.trans hnext
    · rw [← Sum.inl.inj (h.symm.trans hnext)]
      dsimp only
      omega
  · exact Nat.sub_le ..

/-- What is read is added to what was. -/
theorem exists_of_ends {body : List Char} {s : Nat × List Char} {r : Option (List Char)}
    (h : Ends (dechunkTurn t body) s r) {text : List Char} (hr : r = some text) : ∃ data, text = s.2 ++ data := by
  induction h with
  | @stop s r hturn =>
    obtain h | h | ⟨next, data, h, -⟩ := dechunkTurn_cases t body s.1 s.2
    · cases (h.symm.trans hturn).trans (congrArg Sum.inr hr)
    · have hsame := Option.some.inj (Sum.inr.inj ((h.symm.trans hturn).trans (congrArg Sum.inr hr)))
      exact ⟨[], by rw [List.append_nil, hsame]⟩
    · cases h.symm.trans hturn
  | @next s next r hturn rest ih =>
    obtain ⟨data, hdata⟩ := ih hr
    obtain h | h | ⟨cursor, front, h, -⟩ := dechunkTurn_cases t body s.1 s.2
    · cases h.symm.trans hturn
    · cases h.symm.trans hturn
    · rw [← Sum.inl.inj (h.symm.trans hturn)] at hdata
      exact ⟨front ++ data, by rw [hdata, List.append_assoc]⟩

end

/-! ### What can be read -/

/-- From a byte of a text on, its chunks end with whole characters, two bytes before others, as
far as they are read. -/
inductive Divides (t : Target) : Nat → List Char → Prop
  | last {start rest} (hcut : cutAt crlf rest = none) : Divides t start rest
  | ended {start rest line after} (hcut : cutAt crlf rest = some (line, after)) (hsize : chunkSize t line = none) :
    Divides t start rest
  | short {start rest line after size} (hcut : cutAt crlf rest = some (line, after))
    (hsize : chunkSize t line = some size) (hfits : start + byteLen line + 2 + size < 2 ^ t.usizeBits)
    (hshort : byteLen after < size) : Divides t start rest
  | final {start rest line data more} (hcut : cutAt crlf rest = some (line, data ++ more))
    (hsize : chunkSize t line = some (byteLen data))
    (hfits : start + byteLen line + 2 + byteLen data < 2 ^ t.usizeBits) (hmore : byteLen more ≤ 2) :
    Divides t start rest
  | next {start rest line data mark more} (hcut : cutAt crlf rest = some (line, data ++ (mark ++ more)))
    (hsize : chunkSize t line = some (byteLen data))
    (hfits : start + byteLen line + 2 + byteLen data < 2 ^ t.usizeBits) (hmark : byteLen mark = 2)
    (hmore : Divides t (start + byteLen line + 2 + byteLen data + 2) more) : Divides t start rest

section
variable {t : Target} {front rest out line : List Char}

/-- The reading may not go on inside a character. -/
theorem dechunkTurn_inside {more : List Char} (hmore : 2 < byteLen more) (h : sliceFrom 2 more = none) :
    dechunkTurn t (front ++ more) (byteLen front + 2, out) = .inr none := by
  rw [dechunkTurn, if_neg (by rw [byteLen_append]; omega), sliceFrom_add, h]

/-- A chunk of characters. -/
theorem dechunkTurn_chunk {data more : List Char} (hcut : cutAt crlf rest = some (line, data ++ more))
    (hsize : chunkSize t line = some (byteLen data))
    (hfits : byteLen front + byteLen line + 2 + byteLen data < 2 ^ t.usizeBits) :
    dechunkTurn t (front ++ rest) (byteLen front, out) =
      .inl (byteLen front + byteLen line + 2 + byteLen data + 2, out ++ data) := by
  rw [← byteLen_line] at hfits ⊢
  rw [dechunkTurn_line hcut, hsize]
  dsimp only
  rw [chunkTurn_fits hfits, byteLen_append, if_neg (by omega), takeBytes_append]

theorem ends_of_divides {start : Nat} (h : Divides t start rest) (hstart : start = byteLen front) :
    ∃ text, Ends (dechunkTurn t (front ++ rest)) (start, out) (some text) := by
  induction h generalizing front out with
  | last hcut =>
    rw [hstart]
    exact ⟨out, .stop (dechunkTurn_last hcut)⟩
  | ended hcut hsize =>
    rw [hstart]
    refine ⟨out, .stop ?_⟩
    rw [dechunkTurn_line hcut, hsize]
  | @short start rest line after size hcut hsize hfits hshort =>
    rw [hstart] at hfits ⊢
    refine ⟨out, .stop ?_⟩
    rw [dechunkTurn_line hcut, hsize]
    dsimp only
    rw [chunkTurn_fits (by rw [byteLen_line]; exact hfits), if_pos hshort]
  | @final start rest line data more hcut hsize hfits hmore =>
    rw [hstart] at hfits ⊢
    refine ⟨out ++ data, .next (dechunkTurn_chunk hcut hsize hfits) (.stop (dechunkTurn_past ?_))⟩
    rw [behind_line hcut, byteLen_append, byteLen_line, byteLen_append]
    omega
  | @next start rest line data mark more hcut hsize hfits hmark hmore ih =>
    rw [hstart] at hfits hmore ih ⊢
    have hbody : front ++ rest = front ++ line ++ crlf ++ data ++ mark ++ more := by
      rw [behind_line hcut]
      simp only [List.append_assoc]
    obtain ⟨text, htext⟩ := @ih (front ++ line ++ crlf ++ data ++ mark) (out ++ data) (by
      rw [byteLen_append, byteLen_append, byteLen_line, hmark])
    rw [← hbody] at htext
    exact ⟨text, .next (dechunkTurn_chunk hcut hsize hfits) htext⟩

theorem divides_of_ends {text : List Char} (h : Ends (dechunkTurn t (front ++ rest)) (byteLen front, out) (some text)) :
    Divides t (byteLen front) rest := by
  induction hn : rest.length using Nat.strong_induction_on generalizing front rest out with
  | _ n ih =>
    cases hcut : cutAt crlf rest with
    | none => exact .last hcut
    | some cut =>
      obtain ⟨line, after⟩ := cut
      cases hsize : chunkSize t line with
      | none => exact .ended hcut hsize
      | some size =>
        have hbound : size < 2 ^ t.usizeBits := by
          obtain ⟨hread, -⟩ := Option.filter_eq_some_iff.mp hsize
          exact of_decide_eq_true (Option.filter_eq_some_iff.mp hread).2
        have hturn := @dechunkTurn_line t front rest out line after hcut
        rw [hsize] at hturn
        dsimp only at hturn
        by_cases hfits : byteLen (front ++ line ++ crlf) + size < 2 ^ t.usizeBits
        · rw [chunkTurn_fits hfits] at hturn
          split at hturn
          · rename_i hshort
            rw [byteLen_line] at hfits
            exact .short hcut hsize hfits hshort
          · cases htaken : takeBytes size after with
            | none =>
              rw [htaken] at hturn
              cases h.unique (.stop hturn)
            | some data =>
              obtain ⟨⟨more, hmore⟩, hlen⟩ := takeBytes_eq_some.mp htaken
              rw [htaken] at hturn
              dsimp only at hturn
              have hnext := h.rest hturn
              have hbody : front ++ rest = front ++ line ++ crlf ++ data ++ more := by
                rw [behind_line hcut, ← hmore]
                simp only [List.append_assoc]
              have hcursor : byteLen (front ++ line ++ crlf) + size + 2 =
                  byteLen (front ++ line ++ crlf ++ data) + 2 := by
                rw [byteLen_append _ data, hlen]
              rw [byteLen_line, ← hlen] at hfits
              rw [← hlen] at hsize
              rw [← hmore] at hcut
              by_cases hlast : byteLen more ≤ 2
              · exact .final hcut hsize hfits hlast
              · -- The next turn begins two bytes behind the chunk.
                rw [hbody, hcursor] at hnext
                cases hslice : sliceFrom 2 more with
                | none => cases hnext.unique (.stop (dechunkTurn_inside (Nat.not_le.mp hlast) hslice))
                | some later =>
                  obtain ⟨mark, hmark, rfl⟩ := sliceFrom_eq_some.mp hslice
                  have hlength : rest.length = line.length + 2 + (data ++ (mark ++ later)).length := by
                    rw [cutAt_eq_some hcut, List.length_append, List.length_append]
                    rfl
                  rw [← hmark, ← byteLen_append, ← List.append_assoc] at hnext
                  rw [List.length_append, List.length_append] at hlength
                  have hlater := ih later.length (by omega) hnext rfl
                  rw [byteLen_append, byteLen_append, byteLen_line, hmark] at hlater
                  exact .next hcut hsize hfits hmark hlater
        · rw [chunkTurn_wraps hbound (Nat.not_lt.mp hfits)] at hturn
          cases h.unique (.stop hturn)

/-- The reading of chunks does not panic exactly if they can be cut. -/
theorem dechunk_isSome_iff (body : List Char) : (dechunk t body).isSome = true ↔ Divides t 0 body := by
  have hends := dechunk_ends t body
  rw [Option.isSome_iff_exists]
  apply Iff.intro
  · intro ⟨text, htext⟩
    rw [htext] at hends
    exact @divides_of_ends t [] body [] text hends
  · intro h
    obtain ⟨text, htext⟩ := @ends_of_divides t [] body [] 0 h rfl
    exact ⟨text, hends.unique htext⟩

end

end Aether.ApiFront
