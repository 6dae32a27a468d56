import Aether.Socks.Sniff
import Aether.Octets.Wire
import Aether.Decoding.Below
import Aether.Machine.Loop

/-! The server name of a ClientHello.

A ClientHello is a list of lists, each behind its length; the names that a client asks for
are entries of an extension among others. `tls_sni` walks to them with every length cut
to what has arrived. On a whole record it returns the first host name of the first server
name extension (`tlsSni_record`); on a part of any byte string it returns what it returns
on all of it, or nothing (`tlsSni_below`). -/
namespace Aether.Socks.Sniff
open Routing (Externs)
open Octets Decoding Machine

/-! ### The message -/

/-- An entry of a server name list. -/
structure NameEntry where
  kind : UInt8
  name : Bytes
  short : name.length < 2 ^ 16

def NameEntry.bytes (entry : NameEntry) : Bytes := entry.kind :: (u16 entry.name.length ++ entry.name)

def namesBytes (names : List NameEntry) : Bytes := names.flatMap NameEntry.bytes

inductive Extension where
  | serverName (names : List NameEntry) (short : (namesBytes names).length + 2 < 2 ^ 16)
  | other (kind : Nat) (isKind : 0 < kind ∧ kind < 2 ^ 16) (data : Bytes) (short : data.length < 2 ^ 16)

def Extension.kind : Extension → Nat
  | serverName .. => 0
  | other kind .. => kind

def Extension.data : Extension → Bytes
  | serverName names _ => u16 (namesBytes names).length ++ namesBytes names
  | other _ _ data _ => data

theorem Extension.kind_lt (e : Extension) : e.kind < 2 ^ 16 := by
  cases e with
  | serverName => exact Nat.two_pow_pos 16
  | other kind isKind => exact isKind.2

theorem Extension.data_lt (e : Extension) : e.data.length < 2 ^ 16 := by
  cases e with
  | serverName names short =>
    rw [Extension.data, List.length_append, length_u16]
    omega
  | other kind isKind data short => exact short

def Extension.bytes (e : Extension) : Bytes := u16 e.kind ++ (u16 e.data.length ++ e.data)

def extensionsBytes (extensions : List Extension) : Bytes := extensions.flatMap Extension.bytes

/-- The names of a server name extension. -/
def Extension.names : Extension → Option (List NameEntry)
  | serverName names _ => some names
  | other .. => none

/-- A ClientHello. The extensions may be missing with their length. -/
structure ClientHello where
  version : UInt8 × UInt8
  random : Bytes
  isRandom : random.length = 32
  sessionId : Bytes
  shortSession : sessionId.length < 2 ^ 8
  ciphers : Bytes
  shortCiphers : ciphers.length < 2 ^ 16
  compression : Bytes
  shortCompression : compression.length < 2 ^ 8
  extensions : Option (List Extension)
  shortExtensions : ∀ list ∈ extensions, (extensionsBytes list).length < 2 ^ 16

namespace ClientHello

variable (hello : ClientHello)

/-- What stands before the extensions. -/
def front : Bytes :=
  [hello.version.1, hello.version.2] ++ (hello.random ++ ([UInt8.ofNat hello.sessionId.length] ++ (hello.sessionId ++
    (u16 hello.ciphers.length ++ (hello.ciphers ++
      ([UInt8.ofNat hello.compression.length] ++ hello.compression))))))

def block : Bytes :=
  match hello.extensions with
  | none => []
  | some extensions => u16 (extensionsBytes extensions).length ++ extensionsBytes extensions

/-- The message without its type and length. -/
def content : Bytes := hello.front ++ hello.block

/-- The message. -/
def body : Bytes := 0x01 :: (u24 hello.content.length ++ hello.content)

/-- The first host name of the first server name extension. -/
def announced : Option Bytes := do
  let extensions ← hello.extensions
  let names ← extensions.findSome? Extension.names
  let entry ← names.find? (·.kind == 0)
  some entry.name

end ClientHello

/-- A record that holds one ClientHello. -/
structure HelloRecord where
  version : UInt8 × UInt8
  hello : ClientHello
  short : hello.body.length < 2 ^ 16

def HelloRecord.bytes (record : HelloRecord) : Bytes :=
  0x16 :: record.version.1 :: record.version.2 :: (u16 record.hello.body.length ++ record.hello.body)

/-! ### Reading at a position -/

theorem be16_of_standsAt {buf : Bytes} {pos n : Nat} (h : StandsAt (u16 n) buf pos) (hn : n < 2 ^ 16) :
    be16 buf pos = some n := by
  obtain ⟨hhigh, hlow⟩ := h.u16_bytes
  rw [be16, hhigh, hlow]
  exact congrArg some (value_u16 hn)

theorem be24_of_standsAt {buf : Bytes} {pos n : Nat} (h : StandsAt (u24 n) buf pos) (hn : n < 2 ^ 24) :
    be24 buf pos = some n := by
  rw [u24, standsAt_cons, standsAt_cons, standsAt_cons] at h
  obtain ⟨ha, hb, hc, -⟩ := h
  rw [be24, ha, hb, hc]
  exact congrArg some (value_u24 hn)

theorem slice_of_standsAt {buf part : Bytes} {pos : Nat} (h : StandsAt part buf pos) (hpos : pos ≤ buf.length) :
    slice buf pos (pos + part.length) = some part := by
  rw [slice, if_pos ⟨Nat.le_add_right .., h.length_le hpos⟩, h.slice]

variable (X : Externs)

/-! ### The names -/

/-- The entries of a list are walked in order. -/
theorem serverName_walk {data : Bytes} {stop : Nat} (hstop : stop ≤ data.length) (names : List NameEntry) {fuel pos : Nat}
    (hfuel : names.length < fuel) (hat : StandsAt (namesBytes names) data pos)
    (hend : stop = pos + (namesBytes names).length) :
    serverName X data stop fuel pos = (names.find? (·.kind == 0)).bind fun entry => plausibleHost X entry.name := by
  induction names generalizing fuel pos with
  | nil =>
    obtain ⟨fuel, rfl⟩ : ∃ n, fuel = n + 1 := ⟨fuel - 1, by omega⟩
    have hshort : ¬ pos + 3 ≤ stop := by
      rw [hend]
      simp [namesBytes]
    rw [serverName, if_neg hshort]
    rfl
  | cons entry names ih =>
    obtain ⟨fuel, rfl⟩ : ∃ n, fuel = n + 1 := ⟨fuel - 1, by omega⟩
    rw [List.length_cons] at hfuel
    have hlength : (namesBytes (entry :: names)).length = 3 + entry.name.length + (namesBytes names).length := by
      simp only [namesBytes, List.flatMap_cons, NameEntry.bytes, List.length_append, List.length_cons, length_u16]
      omega
    rw [namesBytes, List.flatMap_cons, NameEntry.bytes, List.cons_append, standsAt_cons, List.append_assoc,
      standsAt_append, standsAt_append] at hat
    obtain ⟨hkind, hlen, hname, hrest⟩ := hat
    rw [length_u16] at hname hrest
    have hroom : pos + 3 ≤ stop := by omega
    have hfits : ¬ pos + 3 + entry.name.length > stop := by omega
    rw [serverName, if_pos hroom, hkind, be16_of_standsAt hlen entry.short]
    dsimp only [Option.bind_eq_bind, Option.bind_some]
    rw [if_neg hfits, List.find?_cons]
    by_cases hhost : entry.kind == 0
    · rw [if_pos hhost, hhost, slice_of_standsAt hname (by omega)]
      rfl
    · rw [if_neg hhost, Bool.of_not_eq_true hhost]
      exact ih (by omega) hrest (by omega)

theorem length_le_namesBytes (names : List NameEntry) : names.length ≤ (namesBytes names).length := by
  induction names with
  | nil => exact Nat.zero_le _
  | cons entry names ih =>
    simp only [namesBytes, List.flatMap_cons, NameEntry.bytes, List.length_append, List.length_cons] at ih ⊢
    omega

theorem firstServerName_names (names : List NameEntry) (hshort : (namesBytes names).length + 2 < 2 ^ 16) :
    firstServerName X (u16 (namesBytes names).length ++ namesBytes names) =
      (names.find? (·.kind == 0)).bind fun entry => plausibleHost X entry.name := by
  obtain ⟨hlen, hnames⟩ := standsAt_append.mp (@standsAt_self _ (u16 (namesBytes names).length ++ namesBytes names))
  rw [length_u16, Nat.zero_add] at hnames
  have hlength := length_le_namesBytes names
  have hdata : (u16 (namesBytes names).length ++ namesBytes names).length = 2 + (namesBytes names).length := by
    rw [List.length_append, length_u16]
  rw [firstServerName, be16_of_standsAt hlen (by omega)]
  show serverName X _ _ _ 2 = _
  rw [hdata, Nat.min_self]
  exact serverName_walk X (Nat.le_of_eq hdata.symm) names (by omega) hnames rfl

/-! ### The extensions -/

/-- What the first server name extension gives. -/
theorem extension_walk {buf : Bytes} {stop : Nat} (hstop : stop ≤ buf.length) (extensions : List Extension) {fuel pos : Nat}
    (hfuel : extensions.length < fuel) (hat : StandsAt (extensionsBytes extensions) buf pos)
    (hend : stop = pos + (extensionsBytes extensions).length) :
    extension X buf stop fuel pos =
      (extensions.findSome? Extension.names).bind fun names =>
        (names.find? (·.kind == 0)).bind fun entry => plausibleHost X entry.name := by
  induction extensions generalizing fuel pos with
  | nil =>
    obtain ⟨fuel, rfl⟩ : ∃ n, fuel = n + 1 := ⟨fuel - 1, by omega⟩
    have hshort : ¬ pos + 4 ≤ stop := by
      rw [hend]
      simp [extensionsBytes]
    rw [extension, if_neg hshort]
    rfl
  | cons e extensions ih =>
    obtain ⟨fuel, rfl⟩ : ∃ n, fuel = n + 1 := ⟨fuel - 1, by omega⟩
    rw [List.length_cons] at hfuel
    have hlength : (extensionsBytes (e :: extensions)).length = 4 + e.data.length + (extensionsBytes extensions).length := by
      simp only [extensionsBytes, List.flatMap_cons, Extension.bytes, List.length_append, length_u16]
      omega
    rw [extensionsBytes, List.flatMap_cons, Extension.bytes, List.append_assoc, List.append_assoc, standsAt_append,
      standsAt_append, standsAt_append] at hat
    obtain ⟨hkind, hlen, hdata, hrest⟩ := hat
    simp only [length_u16] at hlen hdata hrest
    have hroom : pos + 4 ≤ stop := by omega
    have hfits : ¬ pos + 4 + e.data.length > stop := by omega
    rw [extension, if_pos hroom, be16_of_standsAt hkind e.kind_lt, be16_of_standsAt hlen e.data_lt]
    dsimp only [Option.bind_eq_bind, Option.bind_some]
    rw [if_neg hfits, List.findSome?_cons]
    cases e with
    | serverName names short =>
      rw [if_pos (by rfl), slice_of_standsAt hdata (by omega)]
      exact firstServerName_names X names short
    | other kind isKind data short =>
      have hother : ¬ ((Extension.other kind isKind data short).kind == 0) = true := by
        simp only [Extension.kind, beq_iff_eq]
        omega
      rw [if_neg hother]
      exact ih (by omega) hrest (by omega)

theorem length_le_extensionsBytes (extensions : List Extension) :
    extensions.length ≤ (extensionsBytes extensions).length := by
  induction extensions with
  | nil => exact Nat.zero_le _
  | cons e extensions ih =>
    simp only [extensionsBytes, List.flatMap_cons, Extension.bytes, List.length_append, List.length_cons,
      length_u16] at ih ⊢
    omega

/-! ### The record -/

theorem getElem?_of_standsAt_singleton {buf : Bytes} {pos : Nat} {b : UInt8} (h : StandsAt [b] buf pos) :
    buf[pos]? = some b := (standsAt_cons.mp h).1

theorem toNat_ofNat_of_lt {n : Nat} (h : n < 2 ^ 8) : (UInt8.ofNat n).toNat = n := by
  rw [UInt8.toNat_ofNat']
  omega

/-- Where the parts of the message stand. -/
structure Layout (hello : ClientHello) (buf : Bytes) : Prop where
  sessionLen : buf[34]? = some (UInt8.ofNat hello.sessionId.length)
  ciphersLen : StandsAt (u16 hello.ciphers.length) buf (34 + (1 + hello.sessionId.length))
  compressionLen : buf[34 + (1 + hello.sessionId.length) + (2 + hello.ciphers.length)]? =
    some (UInt8.ofNat hello.compression.length)
  block : StandsAt hello.block buf hello.front.length

theorem ClientHello.length_front (hello : ClientHello) :
    hello.front.length =
      34 + (1 + hello.sessionId.length) + (2 + hello.ciphers.length) + (1 + hello.compression.length) := by
  have hrandom := hello.isRandom
  simp only [ClientHello.front, List.length_append, List.length_cons, List.length_nil, length_u16]
  omega

theorem ClientHello.layout (hello : ClientHello) : Layout hello hello.content := by
  have hself := @standsAt_self _ hello.content
  rw [content, standsAt_append, Nat.zero_add] at hself
  obtain ⟨hfront, hblock⟩ := hself
  rw [front] at hfront
  simp only [standsAt_append, List.length_cons, List.length_nil, length_u16, hello.isRandom] at hfront
  simp only [Nat.reduceAdd] at hfront
  obtain ⟨-, -, hsession, -, hciphers, -, hcompression, -⟩ := hfront
  constructor
  · exact getElem?_of_standsAt_singleton hsession
  · rw [show 34 + (1 + hello.sessionId.length) = 35 + hello.sessionId.length by omega]
    exact hciphers
  · rw [show 34 + (1 + hello.sessionId.length) + (2 + hello.ciphers.length) =
      35 + hello.sessionId.length + 2 + hello.ciphers.length by omega]
    exact getElem?_of_standsAt_singleton hcompression
  · exact hblock

/-- What the message announces, from its content. -/
theorem extensions_walk (hello : ClientHello) :
    ((be16 hello.content hello.front.length).bind fun extensionsLen =>
      extension X hello.content (min (hello.front.length + 2 + extensionsLen) hello.content.length)
        hello.content.length (hello.front.length + 2)) = hello.announced.bind (plausibleHost X) := by
  have hblock := hello.layout.block
  cases hsome : hello.extensions with
  | none =>
    have hnone : hello.content[hello.front.length]? = none := by
      simp [ClientHello.content, ClientHello.block, hsome]
    simp [be16, hnone, ClientHello.announced, hsome]
  | some extensions =>
    have hshort := hello.shortExtensions extensions hsome
    have hcontent : hello.content.length = hello.front.length + 2 + (extensionsBytes extensions).length := by
      simp only [ClientHello.content, ClientHello.block, hsome, List.length_append, length_u16]
      omega
    rw [ClientHello.block, hsome, standsAt_append, length_u16] at hblock
    have hcount := length_le_extensionsBytes extensions
    rw [be16_of_standsAt hblock.1 hshort, Option.bind_some, ← hcontent, Nat.min_self,
      extension_walk X Nat.le.refl extensions (by omega) hblock.2 hcontent, ClientHello.announced, hsome]
    simp only [Option.bind_eq_bind, Option.bind_some, Option.bind_assoc]

theorem tlsSni_record (record : HelloRecord) (rest : Bytes) :
    tlsSni X (record.bytes ++ rest) = record.hello.announced.bind (plausibleHost X) := by
  have hbody : record.hello.body.length = 4 + record.hello.content.length := by
    simp only [ClientHello.body, List.length_cons, List.length_append, length_u24]
    omega
  have hshort := record.short
  have hat : StandsAt record.bytes (record.bytes ++ rest) 0 := List.prefix_append ..
  have hlength : 5 + record.hello.body.length ≤ (record.bytes ++ rest).length := by
    simp only [HelloRecord.bytes, List.length_append, List.length_cons, length_u16]
    omega
  generalize record.bytes ++ rest = buf at hat hlength ⊢
  rw [HelloRecord.bytes, standsAt_cons, standsAt_cons, standsAt_cons, standsAt_append, length_u16] at hat
  obtain ⟨hkind, -, -, hlen, hcarried⟩ := hat
  have hslice := slice_of_standsAt hcarried (by omega)
  have hself := @standsAt_self _ record.hello.body
  obtain ⟨htype, hhelloLen⟩ := standsAt_cons.mp (show StandsAt (0x01 :: _) record.hello.body 0 from hself)
  obtain ⟨hhelloLen, hcontent⟩ := standsAt_append.mp hhelloLen
  rw [length_u24] at hcontent
  have hslice' := slice_of_standsAt hcontent (by omega)
  obtain ⟨hsession, hciphers, hcompression, -⟩ := record.hello.layout
  rw [tlsSni, hkind]
  dsimp only [Option.bind_eq_bind, Option.bind_some]
  rw [if_neg (by decide), be16_of_standsAt hlen record.short, Option.bind_some, Nat.min_eq_left hlength, hslice,
    Option.bind_some, htype, Option.bind_some, if_neg (by decide), be24_of_standsAt hhelloLen (by omega),
    Option.bind_some, ← hbody, Nat.min_self, hbody, hslice', Option.bind_some, hsession, Option.bind_some,
    toNat_ofNat_of_lt record.hello.shortSession, be16_of_standsAt hciphers record.hello.shortCiphers, Option.bind_some,
    hcompression, Option.bind_some, toNat_ofNat_of_lt record.hello.shortCompression, ← ClientHello.length_front]
  exact extensions_walk X record.hello

/-! ### A part of a message -/

section
variable {xs ys : Bytes}

theorem be16_below (h : xs <+: ys) (pos : Nat) : Below (be16 xs pos) (be16 ys pos) :=
  (below_getElem? h pos).bind fun _ => (below_getElem? h (pos + 1)).bind fun _ => below_rfl

theorem be24_below (h : xs <+: ys) (pos : Nat) : Below (be24 xs pos) (be24 ys pos) :=
  (below_getElem? h pos).bind fun _ => (below_getElem? h (pos + 1)).bind fun _ =>
    (below_getElem? h (pos + 2)).bind fun _ => below_rfl

/-- What has arrived of a part is the front of what will have. -/
theorem slice_arrived (h : xs <+: ys) {start stop : Nat} {part : Bytes}
    (hpart : slice xs start (min stop xs.length) = some part) :
    ∃ whole, slice ys start (min stop ys.length) = some whole ∧ part <+: whole := by
  have hle := h.length_le
  rw [slice] at hpart
  split at hpart
  case isFalse => cases hpart
  case isTrue hin =>
    cases hpart
    refine ⟨_, if_pos ⟨by omega, Nat.min_le_right ..⟩, List.IsPrefix.drop ?_ start⟩
    rw [← List.take_take, ← List.take_take, List.take_length, List.take_length]
    exact h.take stop

theorem slice_whole (h : xs <+: ys) {start stop : Nat} (hstop : stop ≤ xs.length) :
    slice xs start stop = slice ys start stop := by
  have hle := h.length_le
  obtain ⟨rest, rfl⟩ := h
  rw [slice, slice, List.take_append_of_le_length hstop]
  simp only [hstop, Nat.le_trans hstop hle]

theorem extension_below (h : xs <+: ys) {stop stop' : Nat} (hstop : stop ≤ xs.length) (hle : stop ≤ stop')
    {fuel fuel' : Nat} (hfuel : fuel ≤ fuel') (pos : Nat) :
    Below (extension X xs stop fuel pos) (extension X ys stop' fuel' pos) := by
  induction fuel generalizing fuel' pos with
  | zero => exact below_none
  | succ fuel ih =>
    obtain ⟨fuel', rfl⟩ : ∃ n, fuel' = n + 1 := ⟨fuel' - 1, by omega⟩
    rw [extension, extension]
    by_cases hroom : pos + 4 ≤ stop
    case neg =>
      rw [if_neg hroom]
      exact below_none
    rw [if_pos hroom, if_pos (by omega)]
    apply (be16_below h pos).bind
    intro kind
    apply (be16_below h (pos + 2)).bind
    intro len
    by_cases hfits : pos + 4 + len > stop
    · rw [if_pos hfits]
      exact below_none
    · have hfits' : ¬ pos + 4 + len > stop' := by omega
      rw [if_neg hfits, if_neg hfits']
      dsimp only
      split
      · rw [slice_whole h (by omega)]
        exact below_rfl
      · exact ih (by omega) _

end

/-- A part of a first flight gives the name that all of it gives, or none. -/
theorem tlsSni_below {xs ys : Bytes} (h : xs <+: ys) : Below (tlsSni X xs) (tlsSni X ys) := by
  rw [tlsSni, tlsSni]
  apply (below_getElem? h 0).bind
  intro kind
  split
  · exact below_none
  apply (be16_below h 3).bind
  intro recordLen
  apply below_bind fun part hpart => slice_arrived h hpart
  intro body body' hbody
  apply (below_getElem? hbody 0).bind
  intro type
  split
  · exact below_none
  apply (be24_below hbody 1).bind
  intro helloLen
  apply below_bind fun part hpart => slice_arrived hbody hpart
  intro hello hello' hhello
  have hlength := hhello.length_le
  apply (below_getElem? hhello _).bind
  intro sessionLen
  apply (be16_below hhello _).bind
  intro cipherLen
  apply (below_getElem? hhello _).bind
  intro compressionLen
  apply (be16_below hhello _).bind
  intro extensionsLen
  exact extension_below X hhello (Nat.min_le_right ..) (by omega) hlength _

/-! ### The loops end -/

/-- One turn of the loop in `first_server_name`. -/
def serverNameTurn (data : Bytes) (stop pos : Nat) : Nat ⊕ Option String :=
  if pos + 3 ≤ stop then
    match data[pos]?, be16 data (pos + 1) with
    | some kind, some len =>
      if pos + 3 + len > stop then .inr none
      else if kind == 0 then .inr ((slice data (pos + 3) (pos + 3 + len)).bind (plausibleHost X))
      else .inl (pos + 3 + len)
    | _, _ => .inr none
  else .inr none

/-- One turn of the loop in `tls_sni`. -/
def extensionTurn (hello : Bytes) (stop pos : Nat) : Nat ⊕ Option String :=
  if pos + 4 ≤ stop then
    match be16 hello pos, be16 hello (pos + 2) with
    | some kind, some len =>
      if pos + 4 + len > stop then .inr none
      else if kind == 0 then .inr ((slice hello (pos + 4) (pos + 4 + len)).bind (firstServerName X))
      else .inl (pos + 4 + len)
    | _, _ => .inr none
  else .inr none

theorem serverName_turn (data : Bytes) (stop fuel pos : Nat) :
    serverName X data stop (fuel + 1) pos =
      (serverNameTurn X data stop pos).elim (serverName X data stop fuel) id := by
  rw [serverName, serverNameTurn]
  split
  case isFalse => rfl
  cases data[pos]? with
  | none => rfl
  | some kind =>
    cases be16 data (pos + 1) with
    | none => rfl
    | some len =>
      dsimp only [Option.bind_eq_bind, Option.bind_some]
      split
      · rfl
      · split <;> rfl

theorem extension_turn (hello : Bytes) (stop fuel pos : Nat) :
    extension X hello stop (fuel + 1) pos =
      (extensionTurn X hello stop pos).elim (extension X hello stop fuel) id := by
  rw [extension, extensionTurn]
  split
  case isFalse => rfl
  cases be16 hello pos with
  | none => rfl
  | some kind =>
    cases be16 hello (pos + 2) with
    | none => rfl
    | some len =>
      dsimp only [Option.bind_eq_bind, Option.bind_some]
      split
      · rfl
      · split <;> rfl

theorem serverNameTurn_inl {data : Bytes} {stop pos next : Nat} (h : serverNameTurn X data stop pos = .inl next) :
    pos < next ∧ next ≤ stop := by
  rw [serverNameTurn] at h
  split at h
  case isFalse => cases h
  split at h
  · split at h
    · cases h
    · split at h
      · cases h
      · cases h
        omega
  · cases h

theorem extensionTurn_inl {hello : Bytes} {stop pos next : Nat} (h : extensionTurn X hello stop pos = .inl next) :
    pos < next ∧ next ≤ stop := by
  rw [extensionTurn] at h
  split at h
  case isFalse => cases h
  split at h
  · split at h
    · cases h
    · split at h
      · cases h
      · cases h
        omega
  · cases h

theorem serverName_walks (data : Bytes) {stop : Nat} (hstop : stop ≤ data.length) :
    Walks (serverNameTurn X data stop) stop (serverName X data stop data.length) := by
  apply walks_of_fuel hstop (serverName_turn X data stop)
  · intro pos hpos
    rw [serverNameTurn, if_neg (by omega)]
    rfl
  · intro pos next hnext
    exact serverNameTurn_inl X hnext

theorem extension_walks (hello : Bytes) {stop : Nat} (hstop : stop ≤ hello.length) :
    Walks (extensionTurn X hello stop) stop (extension X hello stop hello.length) := by
  apply walks_of_fuel hstop (extension_turn X hello stop)
  · intro pos hpos
    rw [extensionTurn, if_neg (by omega)]
    rfl
  · intro pos next hnext
    exact extensionTurn_inl X hnext

/-- On a record that holds a ClientHello, `tls_sni` gives the name that it announces if it is
plausible; on a part of it that name or none; and its two loops end on all bytes. -/
theorem hello_name (record : HelloRecord) :
    tlsSni X record.bytes = record.hello.announced.bind (plausibleHost X) ∧
    (∀ part, part <+: record.bytes →
      tlsSni X part = none ∨ tlsSni X part = record.hello.announced.bind (plausibleHost X)) ∧
    (∀ hello stop, stop ≤ hello.length →
      Walks (extensionTurn X hello stop) stop (extension X hello stop hello.length)) ∧
    (∀ data stop, stop ≤ data.length →
      Walks (serverNameTurn X data stop) stop (serverName X data stop data.length)) := by
  have hrecord := tlsSni_record X record []
  rw [List.append_nil] at hrecord
  refine ⟨hrecord, fun part hpart => ?_, fun hello _ => extension_walks X hello, fun data _ => serverName_walks X data⟩
  rw [← hrecord]
  exact below_iff.mp (tlsSni_below X hpart)

/-- A ClientHello for `a.b`, behind an extension without data and a name that is no host name. -/
def abHello : ClientHello where
  version := (3, 3)
  random := List.replicate 32 7
  isRandom := List.length_replicate
  sessionId := []
  shortSession := by decide
  ciphers := [0x13, 0x01]
  shortCiphers := by decide
  compression := [0]
  shortCompression := by decide
  extensions := some [.other 23 (by decide) [] (by decide),
    .serverName [⟨1, [0x78], by decide⟩, ⟨0, [0x41, 0x2e, 0x62], by decide⟩] (by decide)]
  shortExtensions := by decide

def abRecord : HelloRecord := ⟨(3, 1), abHello, by decide⟩

theorem hello_name_part :
    abRecord.hello.announced = some [0x41, 0x2e, 0x62] ∧
      (tlsSni Routing.plain (abRecord.bytes.take 40) = none ∨
        tlsSni Routing.plain (abRecord.bytes.take 40) = abRecord.hello.announced.bind (plausibleHost Routing.plain)) :=
  ⟨by decide, (hello_name Routing.plain abRecord).2.1 _ (List.take_prefix ..)⟩

end Aether.Socks.Sniff
