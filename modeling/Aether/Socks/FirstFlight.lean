import Aether.Socks.ClientHello
import Aether.Socks.HostText

/-! The name in a part of a first flight.

The proxy reads a first flight once and looks for a name in what has arrived. A ClientHello
gives its name or none (`tlsSni_below`). A request gives what its `Host` line names, also if
that line has not arrived whole: `stable_iff` says where the line may be cut. -/
namespace Aether.Socks.Sniff
open Routing (Externs)
open Decoding

variable (X : Externs)

/-- The value of a `Host` line. -/
def hostValue (line : Bytes) : Option Bytes :=
  (Rust.cutAt [58] line).bind fun cut =>
    if Rust.eqIgnoreAsciiCase (Rust.fromUtf8Lossy cut.1) "host" then some cut.2 else none

/-- The value of the `Host` line that header lines end in, if the search gets there. -/
def openValue : List Bytes → Option Bytes
  | [] => none
  | line :: lines =>
    if lines.isEmpty then hostValue line
    else if line.isEmpty || (hostValue line).isSome then none
    else openValue lines

/-- What has arrived of the `Host` value that a request ends in. -/
def openHost (flight : Bytes) : Option Bytes :=
  match Rust.cutLines 13 10 flight with
  | [] => none
  | requestLine :: lines => if looksLikeHttp (Rust.fromUtf8Lossy requestLine) then openValue lines else none

/-! ### Lines of bytes -/

theorem fromUtf8Lossy_eq (bytes : Bytes) : Rust.fromUtf8Lossy bytes = String.ofList (Rust.lossyChars bytes) := rfl

theorem isEmpty_fromUtf8Lossy (bytes : Bytes) : (Rust.fromUtf8Lossy bytes).isEmpty = bytes.isEmpty := by
  cases bytes with
  | nil => rfl
  | cons b bytes =>
    rw [fromUtf8Lossy_eq, Rust.lossyChars_cons]
    simp

theorem splitCrlf_eq (cs : List Char) : splitCrlf cs = Rust.cutLines '\r' '\n' cs := by
  induction cs using Rust.cutLines.induct '\r' '\n' with
  | case1 => rfl
  | case2 x =>
    rw [splitCrlf]
    · rfl
    · intro rest _ hnil
      cases hnil
  | case3 x y cs h ih =>
    simp only [Bool.and_eq_true, beq_iff_eq] at h
    obtain ⟨rfl, rfl⟩ := h
    rw [splitCrlf, Rust.cutLines, if_pos (by decide), ih]
  | case4 x y cs h ih =>
    rw [splitCrlf, Rust.cutLines, if_neg h, ih]
    intro rest hx hy
    apply h
    rw [hx, (List.cons.inj hy).1]
    rfl

/-- The search of the header lines, on their bytes. -/
def hostIn : List Bytes → Option String
  | [] => none
  | line :: lines =>
    if line.isEmpty then none
    else
      match hostValue line with
      | none => hostIn lines
      | some value => nameOf X value

theorem hostHeader_eq (lines : List Bytes) : hostHeader X (lines.map Rust.fromUtf8Lossy) = hostIn X lines := by
  induction lines with
  | nil => rfl
  | cons line lines ih =>
    have hempty : (Rust.fromUtf8Lossy line).isEmpty = line.isEmpty := isEmpty_fromUtf8Lossy line
    rw [List.map_cons, hostHeader, hostIn, hempty]
    split
    · rfl
    have hcut := @Rust.cutAt_lossyChars [58] (by simp) (by simp) line
    have hword : Rust.asciiWord [58] = [':'] := by decide
    rw [hword] at hcut
    rw [fromUtf8Lossy_eq line, Rust.splitOnce_ofList, hcut, hostValue]
    cases Rust.cutAt [58] line with
    | none => exact ih
    | some cut =>
      dsimp only [Option.map_some, Option.bind_some]
      by_cases hhost : Rust.eqIgnoreAsciiCase (Rust.fromUtf8Lossy cut.1) "host"
      · rw [if_pos hhost, ← fromUtf8Lossy_eq, ← fromUtf8Lossy_eq, hhost, if_neg (by decide)]
        dsimp only
        cases hport : Rust.rsplitOnce ':' (Rust.trim (Rust.fromUtf8Lossy cut.2)) with
        | none => simp only [nameOf, withoutPort, hport]
        | some parts => simp only [nameOf, withoutPort, hport]
      · rw [if_neg hhost, ← fromUtf8Lossy_eq, Bool.of_not_eq_true hhost, if_pos (by decide)]
        exact ih

theorem httpHost_eq {buf : Bytes} (hbuf : buf.length ≤ peekBudget) {requestLine : Bytes} {lines : List Bytes}
    (h : Rust.cutLines 13 10 buf = requestLine :: lines) :
    httpHost X buf = if looksLikeHttp (Rust.fromUtf8Lossy requestLine) then hostIn X lines else none := by
  have hlines : (splitCrlf (Rust.fromUtf8Lossy (buf.take peekBudget)).toList).map String.ofList =
      Rust.fromUtf8Lossy requestLine :: lines.map Rust.fromUtf8Lossy := by
    rw [List.take_of_length_le hbuf, fromUtf8Lossy_eq, String.toList_ofList, splitCrlf_eq, Rust.cutLines_lossyChars, h,
      List.map_map]
    rfl
  rw [httpHost, hlines, ← hostHeader_eq]

/-! ### The line that a part ends in -/

/-- A line up to a byte that is in no line end. -/
theorem lineOf_behind {front : Bytes} (h : Rust.cutAt [13, 10] front = none) (rest : Bytes) :
    Rust.lineOf 13 10 (front ++ 58 :: rest) = front ++ 58 :: Rust.lineOf 13 10 rest := by
  have hcut := @Rust.cutAt_behind _ _ _ 13 10 58 (by decide) (by decide) front h rest
  rw [Rust.lineOf, Rust.lineOf, hcut]
  cases Rust.cutAt [13, 10] rest with
  | none => rfl
  | some cut => rfl

theorem cutAt_none_left {front rest : Bytes} (h : Rust.cutAt [13, 10] (front ++ rest) = none) :
    Rust.cutAt [13, 10] front = none := by
  cases hcut : Rust.cutAt [13, 10] front with
  | none => rfl
  | some cut =>
    rw [Rust.cutAt_append hcut] at h
    cases h

theorem hostValue_eq_some {line value : Bytes} (h : hostValue line = some value) :
    ∃ name, Rust.cutAt [58] line = some (name, value) ∧ line = name ++ 58 :: value ∧
      Rust.eqIgnoreAsciiCase (Rust.fromUtf8Lossy name) "host" = true := by
  obtain ⟨⟨name, found⟩, hcut, hhost⟩ := Option.bind_eq_some_iff.mp h
  dsimp only at hhost
  split at hhost
  case isTrue hname =>
    cases hhost
    refine ⟨name, hcut, ?_, hname⟩
    rw [Rust.cutAt_eq_some hcut, List.append_assoc]
    rfl
  case isFalse => cases hhost

/-- A `Host` line that goes on is one with a longer value. -/
theorem hostValue_goes_on {last value : Bytes} (hlast : Rust.cutAt [13, 10] last = none)
    (h : hostValue last = some value)
    (more : Bytes) :
    hostValue (Rust.lineOf 13 10 (last ++ more)) = some (Rust.lineOf 13 10 (value ++ more)) := by
  obtain ⟨name, hcut, rfl, hname⟩ := hostValue_eq_some h
  have hfree := Rust.notMem_of_cutAt hcut
  rw [List.append_assoc, List.cons_append, lineOf_behind (cutAt_none_left hlast), hostValue, Rust.cutAt_skip hfree]
  simp [Rust.cutAt, hname]

/-- The lines before the last one settle the search, or leave it to what follows. -/
theorem hostIn_whole (whole : List Bytes) (last : Bytes) :
    (openValue (whole ++ [last]) = none ∧ ∀ lines, hostIn X (whole ++ lines) = hostIn X (whole ++ [])) ∨
      (openValue (whole ++ [last]) = hostValue last ∧ ∀ lines, hostIn X (whole ++ lines) = hostIn X lines) := by
  induction whole with
  | nil => exact .inr ⟨rfl, fun _ => rfl⟩
  | cons line whole ih =>
    have hmore : (whole ++ [last]).isEmpty = false := by simp
    simp only [List.cons_append, hostIn, openValue, hmore]
    by_cases hline : line.isEmpty
    · left
      simp [hline]
    · cases hvalue : hostValue line with
      | none => simpa [hline] using ih
      | some value =>
        left
        simp [hline]

theorem hostIn_open (last : Bytes) : hostIn X [last] = (hostValue last).bind (nameOf X) := by
  rw [hostIn]
  cases last with
  | nil => rfl
  | cons b last =>
    rw [if_neg (by simp)]
    cases hostValue (b :: last) with
    | none => rfl
    | some value => rfl

theorem hostIn_host {line value : Bytes} (h : hostValue line = some value) (lines : List Bytes) :
    hostIn X (line :: lines) = nameOf X value := by
  cases line with
  | nil => cases h
  | cons b line => rw [hostIn, if_neg (by simp), h]

/-- The value of a line is a part of it. -/
theorem cutAt_value {last value : Bytes} (hlast : Rust.cutAt [13, 10] last = none) (h : hostValue last = some value) :
    Rust.cutAt [13, 10] value = none := by
  obtain ⟨name, -, rfl, -⟩ := hostValue_eq_some h
  have hvalue := @Rust.cutAt_behind _ _ _ 13 10 58 (by decide) (by decide) name (cutAt_none_left hlast) value
  rw [hlast] at hvalue
  exact Option.map_eq_none_iff.mp hvalue.symm

/-- What a part of the header lines names, and what all of them do. -/
theorem hostIn_stable_iff (hlower : ∀ s, Rust.isAscii s = true → X.toLowercase s = Rust.toAsciiLowercase s)
    (whole : List Bytes) {last : Bytes} (hlast : Rust.cutAt [13, 10] last = none) (more : Bytes) :
    (hostIn X (whole ++ [last]) = none ∨
        hostIn X (whole ++ [last]) = hostIn X (whole ++ Rust.cutLines 13 10 (last ++ more))) ↔
      ∀ value, openValue (whole ++ [last]) = some value → NamesHost X (Rust.lossyChars value) →
        HostArrived (Rust.lossyChars value) (Rust.lossyChars (Rust.lineOf 13 10 (value ++ more))) := by
  rcases hostIn_whole X whole last with ⟨hopen, hsame⟩ | ⟨hopen, hsame⟩
  · rw [hsame, hsame (Rust.cutLines 13 10 (last ++ more)), hopen]
    simp
  · rw [hsame, hsame, hopen, hostIn_open]
    cases hvalue : hostValue last with
    | none => simp
    | some value =>
      obtain ⟨rest, hlines⟩ := @Rust.cutLines_head _ _ _ 13 10 (last ++ more)
      rw [hlines, hostIn_host X (hostValue_goes_on hlast hvalue more)]
      have hcut := cut_iff X hlower (cutAt_value hlast hvalue) more
      simpa using hcut

/-! ### A request and a ClientHello -/

theorem httpHost_stable_iff (hlower : ∀ s, Rust.isAscii s = true → X.toLowercase s = Rust.toAsciiLowercase s)
    {part more : Bytes} (hlength : (part ++ more).length ≤ peekBudget) :
    (httpHost X part = none ∨ httpHost X part = httpHost X (part ++ more)) ↔
      ∀ value, openHost part = some value → NamesHost X (Rust.lossyChars value) →
        HostArrived (Rust.lossyChars value) (Rust.lossyChars (Rust.lineOf 13 10 (value ++ more))) := by
  have hpart : part.length ≤ peekBudget := by
    rw [List.length_append] at hlength
    omega
  obtain ⟨whole, last, hlines, hlast, hmore⟩ := @Rust.cutLines_append _ _ _ 13 10 part more
  cases whole with
  | nil =>
    rw [openHost, hlines, httpHost_eq X hpart hlines]
    simp [hostIn, openValue]
  | cons requestLine whole =>
    rw [List.cons_append] at hlines hmore
    rw [openHost, hlines, httpHost_eq X hpart hlines, httpHost_eq X hlength hmore]
    dsimp only
    split
    · exact hostIn_stable_iff X hlower whole hlast more
    · simp

/-- What begins as a TLS record is no request. -/
theorem not_http_of_tls (rest : Bytes) : looksLikeHttp (Rust.fromUtf8Lossy (0x16 :: rest)) = false := by
  rw [fromUtf8Lossy_eq, Rust.lossyChars_low (by decide), looksLikeHttp]
  simp only [Rust.startsWith, String.toList_ofList]
  rfl

theorem cutLines_tls (rest : Bytes) : ∃ line lines, Rust.cutLines 13 10 (0x16 :: rest) = (0x16 :: line) :: lines := by
  obtain ⟨lines, hlines⟩ := @Rust.cutLines_head _ _ _ 13 10 (0x16 :: rest)
  have hcut := @Rust.cutAt_mark _ _ _ 13 10 0x16 (by decide) rest
  refine ⟨Rust.lineOf 13 10 rest, lines, ?_⟩
  rw [hlines, Rust.lineOf, hcut, Rust.lineOf]
  cases Rust.cutAt [13, 10] rest with
  | none => rfl
  | some cut => rfl

theorem openHost_tls (rest : Bytes) : openHost (0x16 :: rest) = none := by
  obtain ⟨line, lines, hlines⟩ := cutLines_tls rest
  rw [openHost, hlines]
  dsimp only
  rw [not_http_of_tls]
  rfl

theorem httpHost_tls {rest : Bytes} (h : (0x16 :: rest).length ≤ peekBudget) : httpHost X (0x16 :: rest) = none := by
  obtain ⟨line, lines, hlines⟩ := cutLines_tls rest
  rw [httpHost_eq X h hlines, not_http_of_tls]
  rfl

theorem tlsSni_other {b : UInt8} (hb : b ≠ 0x16) (rest : Bytes) : tlsSni X (b :: rest) = none := by
  rw [tlsSni]
  dsimp only [List.getElem?_cons_zero, Option.bind_eq_bind, Option.bind_some]
  rw [if_pos (by simpa using hb)]
  rfl

/-- **A part of a first flight gives the name that all of it gives, or none, exactly if it does
not end in a `Host` value whose host text is cut**: if what has arrived of the value is a name
by itself, then all of its host text has arrived, dots at its end aside, and nothing but blanks
and a port follows that in the whole value. -/
theorem stable_iff (hlower : ∀ s, Rust.isAscii s = true → X.toLowercase s = Rust.toAsciiLowercase s)
    {flight part : Bytes} (hlength : flight.length ≤ peekBudget) (hpart : part <+: flight) :
    (hostname X part = none ∨ hostname X part = hostname X flight) ↔
      ∀ value, openHost part = some value → NamesHost X (Rust.lossyChars value) →
        HostArrived (Rust.lossyChars value)
          (Rust.lossyChars (Rust.lineOf 13 10 (value ++ flight.drop part.length))) := by
  obtain ⟨more, rfl⟩ := hpart
  rw [List.drop_left, hostname, hostname]
  have hpart : part.length ≤ peekBudget := by
    rw [List.length_append] at hlength
    omega
  cases part with
  | nil =>
    have hnone : openHost [] = none := by rfl
    have hhost : httpHost X [] = none := by rfl
    have htls : tlsSni X [] = none := rfl
    rw [hnone, hhost, htls]
    simp
  | cons b part =>
    by_cases hb : b = 0x16
    · rw [hb] at hlength hpart ⊢
      have hbelow := below_iff.mp (tlsSni_below X (List.prefix_append (0x16 :: part) more))
      rw [List.cons_append] at hlength hbelow ⊢
      rw [openHost_tls, httpHost_tls X hpart, httpHost_tls X hlength, Option.or_none, Option.or_none]
      simpa using hbelow
    · rw [tlsSni_other X hb, List.cons_append, tlsSni_other X hb, Option.none_or, Option.none_or]
      exact httpHost_stable_iff X hlower hlength

/-! ### A cut in the name -/

/-- `GET / HTTP/1.1` for a host. -/
def getFor (host : String) : Bytes := Rust.toUtf8 ("GET / HTTP/1.1\r\nHost: " ++ host)

/-- A part that ends in the port of a host names it. -/
theorem stable_port :
    hostname Routing.plain (getFor "a.b:8") = none ∨
      hostname Routing.plain (getFor "a.b:8") = hostname Routing.plain (getFor "a.b:80\r\n\r\n") :=
  (@stable_iff Routing.plain (fun _ _ => rfl) (getFor "a.b:80\r\n\r\n") _ (by decide +kernel)
    (by decide +kernel)).mpr (by
    intro value hvalue _
    have hopen : openHost (getFor "a.b:8") = some (Rust.toUtf8 " a.b:8") := by decide +kernel
    rw [hopen] at hvalue
    rw [← Option.some.inj hvalue]
    exact ⟨⟨0, by decide +kernel⟩, by decide +kernel, by decide +kernel⟩)

/-- One that ends in the host names another. -/
theorem cut_host :
    getFor "www.example.co" <+: getFor "www.example.com\r\n\r\n" ∧
    (getFor "www.example.com\r\n\r\n").length ≤ peekBudget ∧
    hostname Routing.plain (getFor "www.example.co") = some "www.example.co" ∧
    ¬ (hostname Routing.plain (getFor "www.example.co") = none ∨
      hostname Routing.plain (getFor "www.example.co") = hostname Routing.plain (getFor "www.example.com\r\n\r\n"))
        := by
  decide +kernel

end Aether.Socks.Sniff
