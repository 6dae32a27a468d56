import Aether.Account.ApiFront
import Aether.Rust.AddressText
import Aether.Rust.Blanks

/-! Which responses are read as they were sent.

A chunk whose bytes are a text takes as many bytes in the text of the response, and one that
begins or ends inside a character does not. So a body in chunks is read right exactly if each
chunk is a text by itself, and a body without chunks always (`decoded_iff`). -/
namespace Aether.ApiFront
open Masque (Target asUsize)
open Machine (Ends)
open Rust

/-! ### Lines of chunks -/

theorem digit_range {c : Char} (h : (toDigit 16 c).isSome = true) :
    33 ≤ c.toNat ∧ c.toNat ≤ 126 ∧ c.toNat ≠ '+'.toNat ∧ c.toNat ≠ ';'.toNat := by
  have hbounds := literal_bounds (.inl h)
  have hplus : '+'.toNat = 43 := rfl
  have hsemi : ';'.toNat = 59 := rfl
  omega

/-- The line of a chunk: its size in digits of either case, also behind zeros, and extensions. -/
structure ChunkLine (size : Nat) where
  digits : List Char
  blanks : List Char
  extension : List UInt8
  value : hexValue digits = some size
  blank : ∀ c ∈ blanks, c = ' ' ∨ c = '\t'
  shape : extension = [] ∨ ∃ more, extension = 59 :: more ∧ 13 ∉ more

namespace ChunkLine
variable {size : Nat} (line : ChunkLine size)

def bytes : List UInt8 := (line.digits ++ line.blanks).flatMap String.utf8EncodeChar ++ line.extension

/-- What the line is read as. -/
def text : List Char := line.digits ++ line.blanks ++ lossyChars line.extension

theorem lossyChars_bytes : lossyChars line.bytes = line.text := lossyChars_encode ..

theorem digits_range : line.digits ≠ [] ∧ ∀ c ∈ line.digits, (toDigit 16 c).isSome = true := hexValue_digits line.value

theorem front_solid : ∀ c ∈ line.digits ++ line.blanks, c ≠ ';' ∧ c ≠ '\r' := by
  intro c hc
  obtain hc | hc := List.mem_append.mp hc
  · obtain ⟨hlo, -, -, hsemi⟩ := digit_range (line.digits_range.2 c hc)
    refine ⟨fun heq => hsemi (congrArg Char.toNat heq), fun heq => ?_⟩
    rw [heq] at hlo
    exact absurd hlo (by decide)
  · obtain rfl | rfl := line.blank c hc
    · decide
    · decide

theorem notMem_text : '\r' ∉ line.text := by
  intro hmem
  obtain hmem | hmem := List.mem_append.mp hmem
  · exact (line.front_solid _ hmem).2 rfl
  · have hbyte := (@mem_lossyChars_iff 13 (by decide) line.extension).mp hmem
    obtain hnil | ⟨more, hmore, hfree⟩ := line.shape
    · rw [hnil] at hbyte
      cases hbyte
    · rw [hmore] at hbyte
      obtain h | h := List.mem_cons.mp hbyte
      · cases h
      · exact hfree h

theorem sizeToken_text : sizeToken line.text = line.digits := by
  have htake : line.text.takeWhile (· != ';') = line.digits ++ line.blanks := by
    have hall : ∀ c ∈ line.digits ++ line.blanks, (c != ';') = true :=
      fun c hc => bne_iff_ne.mpr (line.front_solid c hc).1
    rw [text, List.takeWhile_append_of_pos hall]
    obtain hnil | ⟨more, hmore, -⟩ := line.shape
    · rw [hnil]
      exact List.append_nil _
    · rw [hmore, lossyChars_low (by decide), List.takeWhile_cons_of_neg (by decide), List.append_nil]
  have hblank : ∀ c ∈ line.blanks, isWhitespace c = true := by
    intro c hc
    obtain rfl | rfl := line.blank c hc
    · decide
    · decide
  have hsolid : ∀ c ∈ (String.ofList line.digits).toList, isWhitespace c = false := by
    intro c hc
    rw [String.toList_ofList] at hc
    have hrange := digit_range (line.digits_range.2 c hc)
    exact isWhitespace_of_visible ⟨hrange.1, hrange.2.1⟩
  rw [sizeToken, htake, trim_append_blank hblank, trim_of_solid hsolid, String.toList_ofList]

theorem fromStrRadix_digits (t : Target) : fromStrRadix t line.digits = (some size).filter (· < 2 ^ t.usizeBits) := by
  obtain ⟨-, hdigits⟩ := line.digits_range
  have hplain : ∀ cs, line.digits = '+' :: cs → False := by
    intro cs hcs
    have hplus := hdigits '+' (by rw [hcs]; exact List.mem_cons_self ..)
    cases hplus
  rw [fromStrRadix, line.value]
  exact hplain

theorem chunkSize_text (t : Target) :
    chunkSize t line.text = if size < 2 ^ t.usizeBits ∧ size ≠ 0 then some size else none := by
  rw [chunkSize, line.sizeToken_text, line.fromStrRadix_digits]
  by_cases hsize : size < 2 ^ t.usizeBits
  · simp [Option.filter_some, hsize]
  · simp [Option.filter_some, hsize]

theorem cutAt_line (more : List UInt8) :
    cutAt crlf (lossyChars (line.bytes ++ [13, 10] ++ more)) = some (line.text, lossyChars more) := by
  have hcrlf : asciiWord [13, 10] = crlf := by decide
  have hcut : cutAt crlf (crlf ++ lossyChars more) = some ([], lossyChars more) := by
    show cutAt crlf ('\r' :: '\n' :: lossyChars more) = _
    rw [crlf, cutAt_pair, if_pos (by decide)]
  rw [lossyChars_around (by simp) (by simp), hcrlf, line.lossyChars_bytes, List.append_assoc]
  show cutAt crlf (line.text ++ (crlf ++ lossyChars more)) = _
  rw [crlf, cutAt_skip line.notMem_text, ← crlf, hcut, Option.map_some]
  dsimp only
  rw [List.append_nil]

end ChunkLine

/-! ### Bodies in chunks -/

structure Chunk where
  data : List UInt8
  line : ChunkLine data.length
  nonempty : data ≠ []

/-- Chunks, the chunk of size zero that closes them, and what follows it. -/
def encodeChunks (closing : ChunkLine 0) (trailer : List UInt8) : List Chunk → List UInt8
  | [] => closing.bytes ++ [13, 10] ++ trailer
  | c :: chunks => c.line.bytes ++ [13, 10] ++ (c.data ++ [13, 10] ++ encodeChunks closing trailer chunks)

section
variable {t : Target} {closing : ChunkLine 0} {trailer : List UInt8} {chunks : List Chunk} {front out cs : List Char}

theorem lossyChars_data (data more : List UInt8) :
    lossyChars (data ++ [13, 10] ++ more) = lossyChars data ++ (crlf ++ lossyChars more) := by
  have hcrlf : asciiWord [13, 10] = crlf := by decide
  rw [lossyChars_around (by simp) (by simp), hcrlf, List.append_assoc]

/-- Chunks that are texts are read right. -/
theorem ends_of_texts (hchunks : ∀ c ∈ chunks, (fromUtf8 c.data).isSome = true)
    (hfits : byteLen (front ++ lossyChars (encodeChunks closing trailer chunks)) < 2 ^ t.usizeBits) :
    Ends (dechunkTurn t (front ++ lossyChars (encodeChunks closing trailer chunks))) (byteLen front, out)
      (some (out ++ chunks.flatMap fun c => lossyChars c.data)) := by
  induction chunks generalizing front out with
  | nil =>
    rw [List.flatMap_nil, List.append_nil]
    apply Ends.stop
    rw [encodeChunks, dechunkTurn_line (closing.cutAt_line trailer), closing.chunkSize_text, if_neg (by simp)]
  | cons c chunks ih =>
    have htext := encode_lossyChars (hchunks c (List.mem_cons_self ..))
    have hlen : c.data.length = byteLen (lossyChars c.data) := by rw [← length_encode, htext]
    have hcut := c.line.cutAt_line (c.data ++ [13, 10] ++ encodeChunks closing trailer chunks)
    rw [lossyChars_data c.data] at hcut
    have hbody : front ++ lossyChars (encodeChunks closing trailer (c :: chunks)) =
        front ++ c.line.text ++ crlf ++ lossyChars c.data ++ crlf ++
          lossyChars (encodeChunks closing trailer chunks) := by
      rw [encodeChunks, behind_line hcut]
      simp only [List.append_assoc]
    have hstart : byteLen (front ++ c.line.text ++ crlf ++ lossyChars c.data ++ crlf) =
        byteLen front + byteLen c.line.text + 2 + byteLen (lossyChars c.data) + 2 := by
      rw [byteLen_append, byteLen_append, byteLen_line, byteLen_crlf]
    rw [hbody] at hfits
    have hnext := @ih (front ++ c.line.text ++ crlf ++ lossyChars c.data ++ crlf) (out ++ lossyChars c.data)
      (fun d hd => hchunks d (List.mem_cons_of_mem _ hd)) hfits
    rw [byteLen_append, hstart] at hfits
    rw [← hbody, hstart] at hnext
    rw [List.flatMap_cons, ← List.append_assoc]
    refine .next (dechunkTurn_chunk hcut ?_ (by omega)) hnext
    rw [c.line.chunkSize_text, if_pos ⟨by omega, fun h => c.nonempty (List.length_eq_zero_iff.mp h)⟩, hlen]

/-- Chunks that are read right are texts. -/
theorem texts_of_ends
    (h : Ends (dechunkTurn t (front ++ lossyChars (encodeChunks closing trailer chunks))) (byteLen front, out)
      (some (out ++ cs))) (hdata : chunks.flatMap (·.data) = cs.flatMap String.utf8EncodeChar) :
    ∀ c ∈ chunks, (fromUtf8 c.data).isSome = true := by
  induction chunks generalizing front out cs with
  | nil =>
    intro c hc
    cases hc
  | cons c chunks ih =>
    rw [List.flatMap_cons] at hdata
    have hcut := c.line.cutAt_line (c.data ++ [13, 10] ++ encodeChunks closing trailer chunks)
    have hturn := @dechunkTurn_line t front (lossyChars (encodeChunks closing trailer (c :: chunks))) out _ _ hcut
    -- A reading that ends here has not read the chunk.
    have hmore : ¬ Ends (dechunkTurn t (front ++ lossyChars (encodeChunks closing trailer (c :: chunks))))
        (byteLen front, out) (some out) := by
      intro hstop
      have hnil := List.self_eq_append_right.mp (Option.some.inj (hstop.unique h))
      rw [hnil] at hdata
      exact c.nonempty (List.append_eq_nil_iff.mp hdata).1
    rw [c.line.chunkSize_text] at hturn
    by_cases hsize : c.data.length < 2 ^ t.usizeBits ∧ c.data.length ≠ 0
    · rw [if_pos hsize] at hturn
      dsimp only at hturn
      by_cases hfits : byteLen (front ++ c.line.text ++ crlf) + c.data.length < 2 ^ t.usizeBits
      · rw [chunkTurn_fits hfits] at hturn
        split at hturn
        · exact absurd (.stop hturn) hmore
        · cases htaken : takeBytes c.data.length
            (lossyChars (c.data ++ [13, 10] ++ encodeChunks closing trailer chunks)) with
          | none =>
            rw [htaken] at hturn
            cases h.unique (.stop hturn)
          | some data =>
            obtain ⟨-, hlen⟩ := takeBytes_eq_some.mp htaken
            rw [htaken] at hturn
            dsimp only at hturn
            have hnext := h.rest hturn
            obtain ⟨more, hmore⟩ := exists_of_ends hnext rfl
            rw [List.append_assoc] at hmore
            have hcs := List.append_cancel_left hmore
            rw [hcs, List.flatMap_append] at hdata
            obtain ⟨hchunk, hchunks⟩ := List.append_inj hdata (by rw [length_encode, hlen])
            have hutf8 : c.data = toUtf8 (String.ofList data) := by rw [toUtf8, String.toList_ofList, hchunk]
            have hself : lossyChars c.data = data := by rw [hutf8, lossyChars_toUtf8, String.toList_ofList]
            have hbody : front ++ lossyChars (encodeChunks closing trailer (c :: chunks)) =
                front ++ c.line.text ++ crlf ++ data ++ crlf ++ lossyChars (encodeChunks closing trailer chunks) := by
              rw [encodeChunks, behind_line hcut, lossyChars_data c.data, hself]
              simp only [List.append_assoc]
            have hcursor : byteLen (front ++ c.line.text ++ crlf) + c.data.length + 2 =
                byteLen (front ++ c.line.text ++ crlf ++ data ++ crlf) := by
              rw [byteLen_append (_ ++ data), byteLen_append _ data, hlen, byteLen_crlf]
            rw [hbody, hcursor, hcs, ← List.append_assoc] at hnext
            intro d hd
            obtain rfl | hd := List.mem_cons.mp hd
            · rw [Option.isSome_iff_exists]
              exact ⟨_, fromUtf8_eq_some.mpr hutf8⟩
            · exact ih hnext hchunks d hd
      · rw [chunkTurn_wraps hsize.1 (Nat.not_lt.mp hfits)] at hturn
        cases h.unique (.stop hturn)
    · rw [if_neg hsize] at hturn
      exact absurd (.stop hturn) hmore

/-- The chunks of a text are read right exactly if each is a text. -/
theorem dechunk_eq_iff {body : String} (hbody : chunks.flatMap (·.data) = toUtf8 body)
    (hfits : byteLen (lossyChars (encodeChunks closing trailer chunks)) < 2 ^ t.usizeBits) :
    dechunk t (lossyChars (encodeChunks closing trailer chunks)) = some body.toList ↔
      ∀ c ∈ chunks, (fromUtf8 c.data).isSome = true := by
  have hends := dechunk_ends t (lossyChars (encodeChunks closing trailer chunks))
  apply Iff.intro
  · intro h
    rw [h] at hends
    exact @texts_of_ends t closing trailer chunks [] [] body.toList hends hbody
  · intro h
    have hread := @ends_of_texts t closing trailer chunks [] [] h hfits
    have hsame : (chunks.flatMap fun c => lossyChars c.data).flatMap String.utf8EncodeChar = toUtf8 body := by
      rw [← hbody, List.flatMap_assoc]
      exact List.flatMap_congr fun c hc => encode_lossyChars (h c hc)
    have htext := lossyChars_toUtf8 (String.ofList (chunks.flatMap fun c => lossyChars c.data))
    rw [toUtf8, String.toList_ofList, hsame, lossyChars_toUtf8] at htext
    rw [hends.unique hread, List.nil_append, htext]

end

/-! ### Heads -/

/-- The head of a response: a status line, whose reason stands behind a space, and other lines. -/
structure Head where
  version : String
  status : UInt16
  reason : List UInt8
  headers : List (List UInt8)
  version_visible : version ≠ "" ∧ ∀ c ∈ version.toList, 33 ≤ c.toNat ∧ c.toNat ≤ 126
  reason_shape : reason = [] ∨ ∃ words, reason = 32 :: words ∧ 13 ∉ words
  headers_plain : ∀ line ∈ headers, line ≠ [] ∧ 13 ∉ line

section
variable {line : List UInt8} {headers : List (List UInt8)}

theorem cutAt_head (hline : 13 ∉ line) (hheaders : ∀ h ∈ headers, h ≠ [] ∧ 13 ∉ h) (payload : List UInt8) :
    cutAt [13, 10, 13, 10] (line ++ headers.flatMap ([13, 10] ++ ·) ++ [13, 10, 13, 10] ++ payload) =
      some (line ++ headers.flatMap ([13, 10] ++ ·), payload) := by
  induction headers generalizing line with
  | nil =>
    have hend : cutAt [13, 10, 13, 10] ([13, 10, 13, 10] ++ payload) = some ([], payload) := by
      show cutAt [13, 10, 13, 10] (13 :: ([10, 13, 10] ++ payload)) = _
      rw [cutAt, if_pos (by simp [List.isPrefixOf])]
      rfl
    rw [List.flatMap_nil, List.append_nil, List.append_assoc, cutAt_skip hline, hend]
    exact congrArg (fun front => some (front, payload)) (List.append_nil line)
  | cons h headers ih =>
    obtain ⟨hne, hfree⟩ := hheaders h (List.mem_cons_self ..)
    obtain ⟨x, tail, rfl⟩ := List.exists_cons_of_ne_nil hne
    rw [List.mem_cons, not_or] at hfree
    have hnext := @ih (10 :: x :: tail) (by simp [hfree]) fun g hg => hheaders g (List.mem_cons_of_mem _ hg)
    have hbytes : line ++ ((x :: tail) :: headers).flatMap ([13, 10] ++ ·) ++ [13, 10, 13, 10] ++ payload =
        line ++ 13 :: (10 :: x :: tail ++ headers.flatMap ([13, 10] ++ ·) ++ [13, 10, 13, 10] ++ payload) := by
      simp
    have hpre : ¬ [13, 10, 13, 10].isPrefixOf
        (13 :: (10 :: x :: tail ++ headers.flatMap ([13, 10] ++ ·) ++ [13, 10, 13, 10] ++ payload)) = true := by
      simp [List.isPrefixOf, hfree.1]
    rw [hbytes, cutAt_skip hline, cutAt, if_neg hpre, hnext]
    simp

theorem cutLines_head_lines (hline : 13 ∉ line) (hheaders : ∀ h ∈ headers, h ≠ [] ∧ 13 ∉ h) :
    cutLines 13 10 (line ++ headers.flatMap ([13, 10] ++ ·)) = line :: headers := by
  induction headers generalizing line with
  | nil =>
    have hnone : cutAt [13, 10] (line ++ []) = none := cutAt_skip hline []
    rw [List.flatMap_nil, cutLines_eq, hnone]
    exact congrArg (· :: []) (List.append_nil line)
  | cons h headers ih =>
    have hcut : cutAt [13, 10] (line ++ (h :: headers).flatMap ([13, 10] ++ ·)) =
        some (line, h ++ headers.flatMap ([13, 10] ++ ·)) := by
      rw [List.flatMap_cons, cutAt_skip hline, List.append_assoc]
      show Option.map _ (cutAt [13, 10] (13 :: 10 :: (h ++ headers.flatMap ([13, 10] ++ ·)))) = _
      rw [cutAt_pair, if_pos (by decide), Option.map_some]
      exact congrArg (fun front => some (front, _)) (List.append_nil line)
    rw [cutLines_eq, hcut]
    have hrest := @ih h (hheaders h (List.mem_cons_self ..)).2 fun g hg => hheaders g (List.mem_cons_of_mem _ hg)
    exact congrArg (line :: ·) hrest

end

namespace Head
variable (head : Head)

def statusLine : List UInt8 := toUtf8 (head.version ++ " " ++ showU16 head.status) ++ head.reason

def bytes : List UInt8 := head.statusLine ++ head.headers.flatMap ([13, 10] ++ ·) ++ [13, 10, 13, 10]

/-- A line of the head asks for chunks. -/
def chunked : Bool := head.headers.any fun line => isChunked (lossyChars line)

theorem lossyChars_statusLine :
    lossyChars head.statusLine =
      head.version.toList ++ ' ' :: (showU16 head.status).toList ++ lossyChars head.reason := by
  rw [statusLine, toUtf8, lossyChars_encode]
  simp

theorem version_solid : ∀ c ∈ head.version.toList, isWhitespace c = false :=
  fun c hc => isWhitespace_of_visible (head.version_visible.2 c hc)

theorem status_solid : ∀ c ∈ (showU16 head.status).toList, isWhitespace c = false :=
  fun c hc => isWhitespace_of_isDigit (showU16_digits _ c hc)

theorem parseStatus_statusLine : parseStatus (lossyChars head.statusLine) = some head.status := by
  have hwords : ∃ words, splitWhitespace (String.ofList (lossyChars head.statusLine)) =
      head.version :: showU16 head.status :: words := by
    have hversion := splitWhitespace_cons head.version_visible.1 head.version_solid
    have hstatus := splitWhitespace_of_solid (showU16_ne_empty head.status) head.status_solid
    obtain hnil | ⟨words, hreason, -⟩ := head.reason_shape
    · refine ⟨[], ?_⟩
      have htext : String.ofList (lossyChars head.statusLine) = head.version ++ " " ++ showU16 head.status := by
        have hempty : lossyChars [] = [] := rfl
        rw [lossyChars_statusLine, hnil, hempty, ← String.toList_inj]
        simp
      rw [htext, hversion, hstatus]
    · refine ⟨splitWhitespace (String.ofList (lossyChars words)), ?_⟩
      have htext : String.ofList (lossyChars head.statusLine) =
          head.version ++ " " ++ (showU16 head.status ++ " " ++ String.ofList (lossyChars words)) := by
        rw [lossyChars_statusLine, hreason, lossyChars_low (by decide), ← String.toList_inj]
        simp
      rw [htext, hversion, splitWhitespace_cons (showU16_ne_empty head.status) head.status_solid]
  obtain ⟨words, hwords⟩ := hwords
  rw [parseStatus, hwords]
  exact parseU16_showU16 head.status

theorem notMem_statusLine : 13 ∉ head.statusLine := by
  intro hmem
  have hchar := (@mem_lossyChars_iff 13 (by decide) head.statusLine).mpr hmem
  rw [lossyChars_statusLine, List.mem_append, List.mem_append, List.mem_cons] at hchar
  obtain (h | h | h) | h := hchar
  · have := head.version_visible.2 _ h
    revert this
    decide
  · cases h
  · cases showU16_digits _ _ h
  · have hbyte := (@mem_lossyChars_iff 13 (by decide) head.reason).mp h
    obtain hnil | ⟨words, hreason, hfree⟩ := head.reason_shape
    · rw [hnil] at hbyte
      cases hbyte
    · rw [hreason] at hbyte
      obtain h | h := List.mem_cons.mp hbyte
      · cases h
      · exact hfree h

/-- A head is read as what it says. -/
theorem parseResponse_bytes (t : Target) (payload : List UInt8) :
    parseResponse t (head.bytes ++ payload) =
      if head.chunked = true then
        (dechunk t (lossyChars payload)).elim (.error .panicked) fun body => .ok (head.status, String.ofList body)
      else .ok (head.status, String.ofList (lossyChars payload)) := by
  have hcut := @cutAt_lossyChars [13, 10, 13, 10] (by simp) (by simp) (head.bytes ++ payload)
  have hmark : asciiWord [13, 10, 13, 10] = crlf ++ crlf := by decide
  have hany : (head.headers.map lossyChars).any isChunked = head.chunked := by
    rw [List.any_map, chunked, Function.comp_def]
  rw [hmark, bytes, cutAt_head head.notMem_statusLine head.headers_plain] at hcut
  rw [parseResponse, bytes, hcut]
  dsimp only [Option.map_some]
  rw [cutLines_lossyChars, cutLines_head_lines head.notMem_statusLine head.headers_plain, List.map_cons]
  dsimp only
  rw [head.parseStatus_statusLine]
  dsimp only
  rw [hany]
  cases dechunk t (lossyChars payload) with
  | none => rfl
  | some body => rfl

end Head

/-! ### Responses that are read -/

/-- The head gives a status and asks for chunks. -/
def opensChunks (head : List Char) : Bool :=
  match cutLines '\r' '\n' head with
  | [] => false
  | statusLine :: lines => (parseStatus statusLine).isSome && lines.any isChunked

/-- Where the head asks for chunks, the text behind it can be cut at them. -/
def Readable (t : Target) (raw : List UInt8) : Prop :=
  ∀ head body, cutAt (crlf ++ crlf) (lossyChars raw) = some (head, body) → opensChunks head = true → Divides t 0 body

/-- The text of a response is held in memory. -/
def Held (t : Target) (raw : List UInt8) : Prop := byteLen (lossyChars raw) < 2 ^ t.usizeBits

theorem held_payload {t : Target} {head : Head} {payload : List UInt8} (h : Held t (head.bytes ++ payload)) :
    byteLen (lossyChars payload) < 2 ^ t.usizeBits := by
  rw [Held, Head.bytes, lossyChars_around (by simp) (by simp), byteLen_append] at h
  omega

theorem parseResponse_chunks_iff {t : Target} {head : Head} (hchunked : head.chunked = true) {closing : ChunkLine 0}
    {trailer : List UInt8} {chunks : List Chunk} {body : String} (hbody : chunks.flatMap (·.data) = toUtf8 body)
    (hheld : Held t (head.bytes ++ encodeChunks closing trailer chunks)) :
    parseResponse t (head.bytes ++ encodeChunks closing trailer chunks) = .ok (head.status, body) ↔
      ∀ c ∈ chunks, (fromUtf8 c.data).isSome = true := by
  rw [← dechunk_eq_iff hbody (held_payload hheld), head.parseResponse_bytes, if_pos hchunked]
  cases dechunk t (lossyChars (encodeChunks closing trailer chunks)) with
  | none =>
    rw [Option.elim_none]
    apply iff_of_false
    · intro h
      cases h
    · intro h
      cases h
  | some text =>
    rw [Option.elim_some, Except.ok.injEq, Prod.mk.injEq, Option.some_inj, ← String.toList_inj, String.toList_ofList]
    exact and_iff_right rfl

theorem parseResponse_plain {t : Target} {head : Head} (hchunked : head.chunked = false) (body : String) :
    parseResponse t (head.bytes ++ toUtf8 body) = .ok (head.status, body) := by
  rw [head.parseResponse_bytes, hchunked, if_neg Bool.false_ne_true, lossyChars_toUtf8, String.ofList_toList]

theorem parseResponse_panicked_iff {t : Target} {raw : List UInt8} {head body : List Char}
    (h : cutAt (crlf ++ crlf) (lossyChars raw) = some (head, body)) :
    parseResponse t raw = .error .panicked ↔ opensChunks head = true ∧ dechunk t body = none := by
  rw [parseResponse, h, opensChunks]
  dsimp only
  cases cutLines '\r' '\n' head with
  | nil => simp [Account.failed]
  | cons statusLine lines =>
    dsimp only
    cases parseStatus statusLine with
    | none => simp [Account.failed]
    | some status =>
      dsimp only
      cases lines.any isChunked with
      | false => simp
      | true =>
        cases dechunk t body with
        | none => simp
        | some text => simp

theorem parseResponse_returns_iff (t : Target) (raw : List UInt8) :
    parseResponse t raw ≠ .error .panicked ↔ Readable t raw := by
  rw [Readable]
  cases hcut : cutAt (crlf ++ crlf) (lossyChars raw) with
  | none =>
    rw [parseResponse, hcut]
    simp [Account.failed]
  | some cut =>
    obtain ⟨head, body⟩ := cut
    rw [ne_eq, parseResponse_panicked_iff hcut, not_and, ← ne_eq, Option.ne_none_iff_isSome, dechunk_isSome_iff]
    apply Iff.intro
    · intro h head' body' hsame
      cases hsame
      exact h
    · intro h
      exact h head body rfl

/-- A chunked body is read as it was sent exactly if no chunk begins or ends inside a character, a
body without chunks always; and the reading, which ends, does not panic exactly if the text of
the response can be cut at its chunks. -/
theorem decoded_iff (t : Target) :
    (∀ (head : Head) (closing : ChunkLine 0) (trailer : List UInt8) (chunks : List Chunk) (body : String),
      head.chunked = true → chunks.flatMap (·.data) = toUtf8 body →
      Held t (head.bytes ++ encodeChunks closing trailer chunks) →
      (parseResponse t (head.bytes ++ encodeChunks closing trailer chunks) = .ok (head.status, body) ↔
        ∀ c ∈ chunks, (fromUtf8 c.data).isSome = true)) ∧
    (∀ (head : Head) (body : String), head.chunked = false →
      parseResponse t (head.bytes ++ toUtf8 body) = .ok (head.status, body)) ∧
    (∀ body, Ends (dechunkTurn t body) (0, []) (dechunk t body)) ∧
    ∀ raw, parseResponse t raw ≠ .error .panicked ↔ Readable t raw :=
  ⟨fun _ _ _ _ _ hchunked hbody hheld => parseResponse_chunks_iff hchunked hbody hheld,
    fun _ body hchunked => parseResponse_plain hchunked body, dechunk_ends t, parseResponse_returns_iff t⟩

/-- A response in chunks. -/
def answer (payload : List UInt8) : List UInt8 :=
  toUtf8 "HTTP/1.1 200 OK\r\nTransfer-Encoding: chunked\r\n\r\n" ++ payload

/-- A letter of two bytes in two chunks, and a size of all ones, end in a panic; a sign of four bytes
in two chunks is read as two others, without the letters behind it. -/
theorem letter_cut :
    toUtf8 "\u0633" = [0xD8, 0xB3] ∧
      parseResponse .aarch64
          (answer (toUtf8 "1\r\n" ++ [0xD8] ++ toUtf8 "\r\n1\r\n" ++ [0xB3] ++ toUtf8 "\r\n0\r\n\r\n")) =
        .error .panicked ∧
      parseResponse .aarch64 (answer (toUtf8 "ffffffffffffffff\r\nab\r\n0\r\n\r\n")) = .error .panicked ∧
      toUtf8 (String.ofList [Char.ofNat 0x1F600, 'a', 'b']) = [0xF0, 0x9F, 0x98] ++ [0x80, 97, 98] ∧
      parseResponse .aarch64
          (answer (toUtf8 "3\r\n" ++ [0xF0, 0x9F, 0x98] ++ toUtf8 "\r\n3\r\n" ++ [0x80, 97, 98] ++
            toUtf8 "\r\n0\r\n\r\n")) =
        .ok (200, "\uFFFD\uFFFD") := by
  decide +kernel

end Aether.ApiFront
