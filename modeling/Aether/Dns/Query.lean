import Aether.Dns.Answers
import Aether.Rust.Text

/-! DNS queries and the answers to them.

The proxy and the bootstrap each write a query for a name and compare an answer with the
name. Both cut the name at its dots and write the length of a label in one byte, whatever
it is; the proxy also writes the empty labels, and nothing is refused. `agrees_iff` says
for which names the query asks for the name and the comparison accepts its answers. -/
namespace Aether.Dns
open Octets Octets.Dns

/-! ### Writing -/

/-- `q.push(label.len() as u8); q.extend_from_slice(label.as_bytes())` -/
def pushLabel (label : String) : Bytes := UInt8.ofNat (Rust.toUtf8 label).length :: Rust.toUtf8 label

/-- What both writers write, for the labels that each of them takes from the name. -/
def queryFor (labels : List String) (qtype id : UInt16) : Bytes :=
  u16 id.toNat ++ ([0x01, 0x00] ++ ([0x00, 0x01] ++ ([0x00, 0x00, 0x00, 0x00, 0x00, 0x00] ++
    (labels.flatMap pushLabel ++ ([0x00] ++ (u16 qtype.toNat ++ [0x00, 0x01]))))))

/-- `build_dns_query` of the proxy, with the id that was drawn. -/
def buildDnsQuery (name : String) (qtype id : UInt16) : Bytes := queryFor (Rust.split '.' name) qtype id

/-- `build_query` of the bootstrap, which leaves out empty labels. -/
def buildQuery (name : String) (qtype id : UInt16) : Bytes :=
  queryFor ((Rust.split '.' name).filter fun label => !label.isEmpty) qtype id

/-! ### Comparing -/

/-- `u8::to_ascii_lowercase` -/
def toAsciiLowercase (b : UInt8) : UInt8 := if 0x41 ≤ b && b ≤ 0x5A then b + 0x20 else b

/-- `<[u8]>::eq_ignore_ascii_case` -/
def eqIgnoreAsciiCase (a b : Bytes) : Bool := a.map toAsciiLowercase == b.map toAsciiLowercase

/-- The loop over the labels. -/
def matchLabels (resp : Bytes) : List String → (pos : Nat) → Reads (Option Nat)
  | [], pos => .ok (some pos)
  | label :: labels, pos =>
    if label.isEmpty then matchLabels resp labels pos
    else
      match resp[pos]? with
      | none => .ok none
      | some value => do
        let len := value.toNat
        if len ≠ (Rust.toUtf8 label).length then return none
        let pos := pos + 1
        let stop := pos + len
        if stop > resp.length then return none
        let written ← indexSlice resp pos stop
        if !eqIgnoreAsciiCase written (Rust.toUtf8 label) then return none
        matchLabels resp labels stop

/-- `dns_response_matches` and `response_matches`, which are the same. -/
def matchesQuestion (resp : Bytes) (expectedId : UInt16) (expectedName : String) (expectedQtype : UInt16) :
    Reads Bool := do
  if resp.length < 12 then return false
  let id ← index16 resp 0
  if id ≠ expectedId.toNat then return false
  let flags ← index resp 2
  if flags &&& 0x80 == 0 then return false
  let questions ← index16 resp 4
  if questions ≠ 1 then return false
  match ← matchLabels resp (Rust.split '.' expectedName) 12 with
  | none => return false
  | some pos =>
    if resp[pos]? ≠ some 0 then return false
    let pos := pos + 1
    if pos + 4 > resp.length then return false
    let qtype ← index16 resp pos
    return qtype == expectedQtype.toNat

/-- `dns_response_matches` of the proxy. -/
def dnsResponseMatches := matchesQuestion

/-- `response_matches` of the bootstrap. -/
def responseMatches := matchesQuestion

/-! ### Asking -/

/-- `QTYPE_A` -/
def qtypeA : UInt16 := 1

/-- How the wait for a reply ends if none decides it. -/
inductive Waiting where
  | timeout
  | closed

/-- One resolver: how it is shown, the id of its query, what `send_to` fails with, and the
messages that arrive until the wait ends. -/
structure Attempt where
  server : String
  id : UInt16
  sendError : Option String
  replies : List Bytes
  waiting : Waiting

/-- What the wait for a resolver comes to. -/
inductive Answer where
  | address (ip : Rust.IpAddr)
  | failed (error : String)
  | timedOut

def awaitAnswer (name : String) (id : UInt16) (waiting : Waiting) : List Bytes → Reads Answer
  | [] =>
    match waiting with
    | .timeout => .ok .timedOut
    | .closed => .ok (.failed "dns channel closed")
  | resp :: replies => do
    if !(← dnsResponseMatches resp id name qtypeA) then awaitAnswer name id waiting replies
    else
      match ← attempt (parseDnsA resp) with
      | some ip => return .address ip
      | none => return .failed ("no A record for " ++ name)

/-- What is sent, and the result. -/
structure Exchange where
  sent : List (String × Bytes)
  result : Reads (Except String Rust.IpAddr)

/-- `dns_exchange` from a resolver on, with the last error. -/
def dnsExchange (name : String) : List Attempt → (last : String) → Exchange
  | [], last => ⟨[], .ok (.error last)⟩
  | a :: attempts, _ =>
    let query := buildDnsQuery name qtypeA a.id
    let goOn (last : String) : Exchange :=
      let rest := dnsExchange name attempts last
      ⟨(a.server, query) :: rest.sent, rest.result⟩
    match a.sendError with
    | some error => goOn error
    | none =>
      match awaitAnswer name a.id a.waiting a.replies with
      | .error halt => ⟨[(a.server, query)], .error halt⟩
      | .ok (.address ip) => ⟨[(a.server, query)], .ok (.ok ip)⟩
      | .ok (.failed error) => ⟨[(a.server, query)], .ok (.error error)⟩
      | .ok .timedOut => goOn ("dns timeout from " ++ a.server)

/-! ### What a query asks -/

/-- A name is written as labels, with or without a dot behind them. -/
def Spells (name : String) (labels : List Label) : Prop :=
  ∃ words : List String, (∀ word ∈ words, '.' ∉ word.toList) ∧ labels.map (·.bytes) = words.map Rust.toUtf8 ∧
    (name = ".".intercalate words ∨ name = ".".intercalate words ++ ".")

/-- The query of a name: a message with the one question for it, of class IN, that asks for
recursion. -/
def question (labels : List Label) (qtype id : UInt16) : Message where
  id := id.toFin
  flags := 0x0100
  questions := [⟨⟨labels, .root⟩, qtype.toFin, 1⟩]
  fewQuestions := Nat.one_lt_two_pow (by decide)
  answers := []
  fewAnswers := Nat.two_pow_pos 16
  counts := [0, 0, 0, 0]
  isCounts := rfl
  rest := []

/-- A name has at most 255 bytes on the wire. -/
def FitsName (labels : List Label) : Prop := (Name.mk labels .root).wire.length ≤ 255

/-- Labels that differ in the case of their letters only stand in a message. -/
def HasLabels (labels : List Label) (msg : Bytes) (pos : Nat) : Prop :=
  ∃ written : List Label, List.Forall₂ (fun a b => eqIgnoreAsciiCase a.bytes b.bytes = true) written labels ∧
    StandsAt (written.flatMap Label.wire) msg pos

/-- The message is a response to the question: it has its id, one question, and the name up to
the case of its letters and the type in it. -/
structure Echoes (msg : Bytes) (labels : List Label) (qtype id : UInt16) : Prop where
  header : 12 ≤ msg.length
  sameId : StandsAt (u16 id.toNat) msg 0
  isResponse : ∃ flags, msg[2]? = some flags ∧ 0x80 ≤ flags.toNat
  oneQuestion : StandsAt (u16 1) msg 4
  sameName : HasLabels labels msg 12
  sameType : ∃ netClass : Bytes, netClass.length = 2 ∧
    StandsAt ([0] ++ (u16 qtype.toNat ++ netClass)) msg (12 + (labels.flatMap Label.wire).length)

/-- Nothing is ever sent for the name. -/
def Refused (name : String) : Prop := ∀ attempts last, (dnsExchange name attempts last).sent = []

/-- The query asks for the name, its answers are accepted and others are not, and the
bootstrap does the same. -/
def AsksFor (name : String) : Prop :=
  ∃ labels, Spells name labels ∧ FitsName labels ∧ ∀ qtype id,
    buildDnsQuery name qtype id = (question labels qtype id).wire ∧
    buildQuery name qtype id = buildDnsQuery name qtype id ∧
    ∀ msg,
      (dnsResponseMatches msg id name qtype = .ok true ↔ Echoes msg labels qtype id) ∧
      (dnsResponseMatches msg id name qtype = .ok false ↔ ¬ Echoes msg labels qtype id) ∧
      responseMatches msg id name qtype = dnsResponseMatches msg id name qtype

def Agrees (name : String) : Prop := Refused name ∨ AsksFor name

/-- Labels of 1 to 63 bytes and at most 253 bytes in all. -/
def Encodable (name : String) : Prop :=
  (∀ label ∈ Rust.split '.' name, 1 ≤ (Rust.toUtf8 label).length ∧ (Rust.toUtf8 label).length ≤ 63) ∧
    (Rust.toUtf8 name).length ≤ 253

theorem not_refused (name : String) : ¬ Refused name := by
  intro h
  have hsent := h [⟨"1.1.1.1:53", 0, some "", [], .timeout⟩] ""
  cases hsent

/-! ### The labels of a name -/

theorem notMem_of_mem_splitOn {x : Char} (xs : List Char) : ∀ part ∈ xs.splitOn x, x ∉ part := by
  induction xs with
  | nil => simp
  | cons y ys ih =>
    rw [List.splitOn_cons_eq_if_modifyHead]
    split
    case isTrue =>
      intro part hpart
      obtain rfl | hpart := List.mem_cons.mp hpart
      · exact List.not_mem_nil
      · exact ih part hpart
    case isFalse hy =>
      obtain ⟨first, rest, hparts⟩ := List.exists_cons_of_ne_nil (List.splitOn_ne_nil x ys)
      rw [hparts] at ih
      rw [hparts, List.modifyHead_cons]
      intro part hpart
      obtain rfl | hpart := List.mem_cons.mp hpart
      · rw [List.mem_cons, not_or]
        exact ⟨fun h => hy (beq_iff_eq.mpr h.symm), ih first (List.mem_cons_self ..)⟩
      · exact ih part (List.mem_cons_of_mem _ hpart)

theorem split_free (name : String) : ∀ word ∈ Rust.split '.' name, '.' ∉ word.toList := by
  intro word hword
  obtain ⟨part, hpart, rfl⟩ := List.mem_map.mp hword
  rw [String.toList_ofList]
  exact notMem_of_mem_splitOn name.toList part hpart

theorem split_ne_nil (name : String) : Rust.split '.' name ≠ [] := by
  rw [Rust.split, ne_eq, List.map_eq_nil_iff]
  exact List.splitOn_ne_nil _ _

theorem toList_intercalate_dot (words : List String) :
    (".".intercalate words).toList = ['.'].intercalate (words.map String.toList) := by
  rw [String.toList_intercalate]
  rfl

theorem intercalate_split (name : String) : ".".intercalate (Rust.split '.' name) = name := by
  apply String.toList_inj.mp
  rw [toList_intercalate_dot, Rust.split, List.map_map]
  simp only [Function.comp_def, String.toList_ofList, List.map_id']
  exact List.intercalate_splitOn '.'

theorem split_intercalate {words : List String} (hfree : ∀ word ∈ words, '.' ∉ word.toList) (hne : words ≠ []) :
    Rust.split '.' (".".intercalate words) = words := by
  rw [Rust.split, toList_intercalate_dot, List.splitOn_intercalate '.' (by simpa using hfree) (by simpa using hne),
    List.map_map]
  simp

/-! ### How long a query is -/

theorem length_toUtf8_append (s t : String) : (Rust.toUtf8 (s ++ t)).length = (Rust.toUtf8 s).length + (Rust.toUtf8 t).length := by
  rw [Rust.toUtf8, String.toList_append, List.flatMap_append, List.length_append]
  rfl

/-- The labels take one byte more than the name. -/
theorem length_pushed {words : List String} (hne : words ≠ []) :
    (words.flatMap pushLabel).length = (Rust.toUtf8 (".".intercalate words)).length + 1 := by
  induction words with
  | nil => exact absurd rfl hne
  | cons word words ih =>
    cases words with
    | nil => simp [pushLabel, String.intercalate_singleton]
    | cons next words =>
      rw [List.flatMap_cons, List.length_append, ih (List.cons_ne_nil _ _), String.intercalate_cons_cons, length_toUtf8_append,
        length_toUtf8_append, pushLabel, List.length_cons]
      have hdot : (Rust.toUtf8 ".").length = 1 := by decide
      omega

theorem flatMap_wire {labels : List Label} {words : List String} (h : labels.map (·.bytes) = words.map Rust.toUtf8) :
    labels.flatMap Label.wire = words.flatMap pushLabel := by
  have hlabels : labels.flatMap Label.wire =
      (labels.map (·.bytes)).flatMap fun bytes => UInt8.ofNat bytes.length :: bytes := by
    rw [List.flatMap_map]
    rfl
  rw [hlabels, h, List.flatMap_map]
  rfl

theorem question_wire (labels : List Label) (qtype id : UInt16) :
    (question labels qtype id).wire =
      u16 id.toNat ++ ([0x01, 0x00] ++ ([0x00, 0x01] ++ ([0x00, 0x00, 0x00, 0x00, 0x00, 0x00] ++
        (labels.flatMap Label.wire ++ ([0x00] ++ (u16 qtype.toNat ++ [0x00, 0x01])))))) := by
  simp only [question, Message.wire, Message.header, Question.wire, Name.wire, Ending.wire, List.flatMap_cons,
    List.flatMap_nil, List.append_nil, List.append_assoc, List.length_singleton, List.length_nil]
  rfl

/-! ### The names that are asked for -/

theorem encodable_of_asksFor {name : String} (h : AsksFor name) : Encodable name := by
  obtain ⟨labels, ⟨words, hfree, hbytes, hname⟩, hfits, hasks⟩ := h
  have hwire := congrArg List.length (hasks qtypeA 0).1
  rw [buildDnsQuery, queryFor, question_wire, flatMap_wire hbytes] at hwire
  simp only [List.length_append, length_u16, List.length_cons, List.length_nil] at hwire
  rw [FitsName, Name.wire, flatMap_wire hbytes, List.length_append] at hfits
  have hsplit := length_pushed (split_ne_nil name)
  rw [intercalate_split] at hsplit
  have hnonempty : words ≠ [] := by
    intro hnil
    rw [hnil, List.flatMap_nil, List.length_nil] at hwire
    omega
  have hlength := length_pushed hnonempty
  rcases hname with hname | hname
  · have hwords : Rust.split '.' name = words := by rw [hname, split_intercalate hfree hnonempty]
    rw [← hname] at hlength
    refine ⟨?_, ?_⟩
    · intro word hword
      rw [hwords] at hword
      have hmem : Rust.toUtf8 word ∈ labels.map (·.bytes) := by
        rw [hbytes]
        exact List.mem_map_of_mem hword
      obtain ⟨label, -, hlabel⟩ := List.mem_map.mp hmem
      have hrange := label.range
      rw [hlabel] at hrange
      omega
    · have hroot : (Name.mk labels .root).ending.wire.length = 1 := rfl
      omega
  · have hdot : (Rust.toUtf8 ".").length = 1 := by decide
    have hlonger : (Rust.toUtf8 name).length = (Rust.toUtf8 (".".intercalate words)).length + 1 := by
      rw [hname, length_toUtf8_append, hdot]
    omega

/-! ### Comparing the labels -/

theorem length_of_eqIgnoreAsciiCase {a b : Bytes} (h : eqIgnoreAsciiCase a b = true) : a.length = b.length := by
  have hmap := congrArg List.length (beq_iff_eq.mp h)
  rwa [List.length_map, List.length_map] at hmap

theorem Label.length_wire (label : Label) : label.wire.length = 1 + label.bytes.length := by
  rw [Label.wire, List.length_cons, Nat.add_comm]

theorem hasLabels_cons {label : Label} {labels : List Label} {msg : Bytes} {pos : Nat} :
    HasLabels (label :: labels) msg pos ↔
      msg[pos]? = some (UInt8.ofNat label.bytes.length) ∧
        pos + 1 + label.bytes.length ≤ msg.length ∧
        eqIgnoreAsciiCase ((msg.take (pos + 1 + label.bytes.length)).drop (pos + 1)) label.bytes = true ∧
        HasLabels labels msg (pos + 1 + label.bytes.length) := by
  constructor
  · intro h
    obtain ⟨written, hsame, hstands⟩ := h
    cases hsame with
    | @cons first _ rest _ hfirst hrest =>
      have hlength := length_of_eqIgnoreAsciiCase hfirst
      rw [List.flatMap_cons, standsAt_append, Label.wire, standsAt_cons, List.length_cons, hlength] at hstands
      obtain ⟨⟨hbyte, hbytes⟩, hlater⟩ := hstands
      have hpos : pos + 1 ≤ msg.length := (List.getElem?_eq_some_iff.mp hbyte).1
      have hend := hbytes.length_le hpos
      have hslice := hbytes.slice
      rw [hlength] at hend hslice
      refine ⟨hbyte, hend, ?_, rest, hrest, ?_⟩
      · rw [hslice]
        exact hfirst
      · rw [Nat.add_right_comm]
        exact hlater
  · intro h
    obtain ⟨hbyte, hend, hfirst, rest, hrest, hlater⟩ := h
    have hlength := length_of_eqIgnoreAsciiCase hfirst
    have hbytes : StandsAt ((msg.take (pos + 1 + label.bytes.length)).drop (pos + 1)) msg (pos + 1) := by
      rw [StandsAt, ← List.take_drop]
      exact List.take_prefix ..
    generalize (msg.take (pos + 1 + label.bytes.length)).drop (pos + 1) = bytes at hfirst hlength hbytes
    have hrange : 0 < bytes.length ∧ bytes.length < 2 ^ 6 := by
      rw [hlength]
      exact label.range
    rw [← hlength] at hbyte hlater
    refine ⟨⟨bytes, hrange⟩ :: rest, .cons hfirst hrest, ?_⟩
    rw [List.flatMap_cons, standsAt_append, Label.wire, standsAt_cons, List.length_cons]
    refine ⟨⟨hbyte, hbytes⟩, ?_⟩
    rw [Nat.add_right_comm] at hlater
    exact hlater

/-- The loop finds the end of the name where it stands, and nothing elsewhere. -/
theorem matchLabels_eq (resp : Bytes) {words : List String} {labels : List Label}
    (h : labels.map (·.bytes) = words.map Rust.toUtf8) (pos : Nat) :
    (HasLabels labels resp pos → matchLabels resp words pos = .ok (some (pos + (labels.flatMap Label.wire).length))) ∧
      (¬ HasLabels labels resp pos → matchLabels resp words pos = .ok none) := by
  induction words generalizing labels pos with
  | nil =>
    obtain rfl := List.map_eq_nil_iff.mp h
    exact ⟨fun _ => rfl, fun hnot => absurd ⟨[], .nil, standsAt_nil⟩ hnot⟩
  | cons word words ih =>
    cases labels with
    | nil => cases h
    | cons label labels =>
      obtain ⟨hword, hrest⟩ := List.cons.inj h
      change label.bytes = Rust.toUtf8 word at hword
      have hrange := label.range
      have hempty : ¬ word.isEmpty = true := by
        intro hempty
        rw [hword, String.isEmpty_iff.mp hempty] at hrange
        exact absurd hrange.1 (by decide)
      rw [hasLabels_cons, matchLabels, if_neg hempty, ← hword]
      cases hbyte : resp[pos]? with
      | none =>
        refine ⟨fun h => ?_, fun _ => rfl⟩
        cases h.1
      | some value =>
        dsimp only
        by_cases hlen : value.toNat = label.bytes.length
        case neg =>
          rw [if_pos hlen]
          refine ⟨fun h => absurd ?_ hlen, fun _ => rfl⟩
          rw [Option.some.inj h.1, label.toNat_length]
        rw [if_neg (not_not.mpr hlen), hlen]
        by_cases hend : pos + 1 + label.bytes.length > resp.length
        case pos =>
          rw [if_pos hend]
          refine ⟨fun h => absurd h.2.1 (by omega), fun _ => rfl⟩
        have hslice : indexSlice resp (pos + 1) (pos + 1 + label.bytes.length) =
            .ok ((resp.take (pos + 1 + label.bytes.length)).drop (pos + 1)) := by
          rw [indexSlice, if_pos ⟨by omega, by omega⟩]
        rw [if_neg hend, hslice]
        show (_ → (if _ then _ else _) = _) ∧ (_ → (if _ then _ else _) = _)
        generalize (resp.take (pos + 1 + label.bytes.length)).drop (pos + 1) = written
        by_cases hsame : eqIgnoreAsciiCase written label.bytes = true
        case neg =>
          rw [if_pos (by simpa using hsame)]
          exact ⟨fun h => absurd h.2.2.1 hsame, fun _ => rfl⟩
        rw [if_neg (by simpa using hsame)]
        obtain ⟨hfound, hmissed⟩ := ih hrest (pos + 1 + label.bytes.length)
        refine ⟨fun h => ?_, fun h => hmissed fun hlater => h ⟨?_, by omega, hsame, hlater⟩⟩
        · rw [hfound h.2.2.2, List.flatMap_cons, List.length_append, Label.length_wire]
          congr 2
          omega
        · rw [← hlen, UInt8.ofNat_toNat]

/-! ### Comparing a message -/

theorem isResponse_iff : ∀ n < 2 ^ 8, (UInt8.ofNat n &&& 0x80 == 0) = true ↔ n < 0x80 := by decide +kernel

theorem standsAt_u16_iff {msg : Bytes} {pos n : Nat} (hn : n < 2 ^ 16) (hpos : pos + 1 < msg.length) :
    StandsAt (u16 n) msg pos ↔ index16 msg pos = .ok n := by
  refine ⟨fun h => index16_of_standsAt h hn, fun h => ?_⟩
  rw [index16, index_of_getElem? (List.getElem?_eq_getElem (by omega)), index_of_getElem? (List.getElem?_eq_getElem hpos)] at h
  have hvalue : msg[pos].toNat * 2 ^ 8 + msg[pos + 1].toNat = n := Except.ok.inj h
  have hlow := msg[pos + 1].toNat_lt
  have hhigh : UInt8.ofNat (n / 2 ^ 8) = msg[pos] := by
    rw [← UInt8.toNat_inj, UInt8.toNat_ofNat']
    omega
  have hlast : UInt8.ofNat n = msg[pos + 1] := by
    rw [← UInt8.toNat_inj, UInt8.toNat_ofNat']
    omega
  rw [u16, standsAt_cons, standsAt_cons, hhigh, hlast]
  exact ⟨List.getElem?_eq_getElem (by omega), List.getElem?_eq_getElem hpos, standsAt_nil⟩

theorem exists_index16 {msg : Bytes} {pos : Nat} (hpos : pos + 1 < msg.length) : ∃ n, index16 msg pos = .ok n := by
  rw [index16, index_of_getElem? (List.getElem?_eq_getElem (by omega)), index_of_getElem? (List.getElem?_eq_getElem hpos)]
  exact ⟨_, rfl⟩

/-- The type of the question stands behind the name. -/
theorem sameType_iff {msg : Bytes} {pos : Nat} {qtype : UInt16} :
    (∃ netClass : Bytes, netClass.length = 2 ∧ StandsAt ([0] ++ (u16 qtype.toNat ++ netClass)) msg pos) ↔
      msg[pos]? = some 0 ∧ pos + 1 + 4 ≤ msg.length ∧ index16 msg (pos + 1) = .ok qtype.toNat := by
  have hqtype : qtype.toNat < 2 ^ 16 := qtype.toNat_lt
  simp only [List.singleton_append, standsAt_cons, standsAt_append, length_u16]
  constructor
  · intro h
    obtain ⟨netClass, hclass, hroot, htype, hstands⟩ := h
    have hpos : pos + 1 ≤ msg.length := (List.getElem?_eq_some_iff.mp hroot).1
    have hend := hstands.length_le (by simpa using htype.length_le hpos)
    refine ⟨hroot, by omega, index16_of_standsAt htype hqtype⟩
  · intro h
    obtain ⟨hroot, hend, htype⟩ := h
    refine ⟨(msg.drop (pos + 3)).take 2, ?_, hroot, ?_, List.take_prefix ..⟩
    · rw [List.length_take, List.length_drop]
      omega
    · exact (standsAt_u16_iff hqtype (by omega)).mpr htype

/-- A message is accepted exactly if it echoes the question, and refused otherwise. -/
theorem matchesQuestion_eq {name : String} {labels : List Label}
    (hbytes : labels.map (·.bytes) = (Rust.split '.' name).map Rust.toUtf8) (msg : Bytes) (qtype id : UInt16) :
    (Echoes msg labels qtype id → matchesQuestion msg id name qtype = .ok true) ∧
      (¬ Echoes msg labels qtype id → matchesQuestion msg id name qtype = .ok false) := by
  rw [matchesQuestion]
  by_cases hheader : msg.length < 12
  case pos =>
    rw [if_pos hheader]
    exact ⟨fun h => absurd h.header (by omega), fun _ => rfl⟩
  obtain ⟨found, hfound⟩ := @exists_index16 msg 0 (by omega)
  have hid : StandsAt (u16 id.toNat) msg 0 ↔ found = id.toNat := by
    rw [standsAt_u16_iff id.toNat_lt (by omega), hfound, Except.ok.injEq]
  rw [if_neg hheader, hfound]
  show (_ → (if _ then _ else _) = _) ∧ (_ → (if _ then _ else _) = _)
  by_cases hsame : found = id.toNat
  case neg =>
    rw [if_pos hsame]
    exact ⟨fun h => absurd (hid.mp h.sameId) hsame, fun _ => rfl⟩
  have hflags : msg[2]? = some msg[2] := List.getElem?_eq_getElem (by omega)
  have hresponse := isResponse_iff msg[2].toNat msg[2].toNat_lt
  rw [UInt8.ofNat_toNat] at hresponse
  rw [if_neg (not_not.mpr hsame), index_of_getElem? hflags]
  show (_ → (if _ then _ else _) = _) ∧ (_ → (if _ then _ else _) = _)
  by_cases hquery : (msg[2] &&& 0x80 == 0) = true
  case pos =>
    rw [if_pos hquery]
    refine ⟨fun h => ?_, fun _ => rfl⟩
    obtain ⟨flags, hmem, hbit⟩ := h.isResponse
    rw [hflags, Option.some.injEq] at hmem
    rw [← hmem] at hbit
    exact absurd (hresponse.mp hquery) (Nat.not_lt.mpr hbit)
  obtain ⟨count, hcount⟩ := @exists_index16 msg 4 (by omega)
  have hone : StandsAt (u16 1) msg 4 ↔ count = 1 := by
    rw [standsAt_u16_iff (by decide) (by omega), hcount, Except.ok.injEq]
  rw [if_neg hquery, hcount]
  show (_ → (if _ then _ else _) = _) ∧ (_ → (if _ then _ else _) = _)
  by_cases hsingle : count = 1
  case neg =>
    rw [if_pos hsingle]
    exact ⟨fun h => absurd (hone.mp h.oneQuestion) hsingle, fun _ => rfl⟩
  rw [if_neg (not_not.mpr hsingle)]
  obtain ⟨hfoundName, hmissed⟩ := matchLabels_eq msg hbytes 12
  by_cases hname : HasLabels labels msg 12
  case neg =>
    rw [hmissed hname]
    exact ⟨fun h => absurd h.sameName hname, fun _ => rfl⟩
  have hbit : 0x80 ≤ msg[2].toNat := Nat.not_lt.mp (mt hresponse.mpr hquery)
  have hrest : Echoes msg labels qtype id ↔
      ∃ netClass : Bytes, netClass.length = 2 ∧
        StandsAt ([0] ++ (u16 qtype.toNat ++ netClass)) msg (12 + (labels.flatMap Label.wire).length) :=
    ⟨fun h => h.sameType, fun h => ⟨by omega, hid.mpr hsame, ⟨_, hflags, hbit⟩, hone.mpr hsingle, hname, h⟩⟩
  rw [hfoundName hname, hrest, sameType_iff]
  generalize 12 + (labels.flatMap Label.wire).length = pos
  show (_ → (if _ then _ else _) = _) ∧ (_ → (if _ then _ else _) = _)
  by_cases hroot : msg[pos]? = some 0
  case neg =>
    rw [if_pos hroot]
    exact ⟨fun h => absurd h.1 hroot, fun _ => rfl⟩
  rw [if_neg (not_not.mpr hroot)]
  by_cases hend : pos + 1 + 4 > msg.length
  case pos =>
    rw [if_pos hend]
    exact ⟨fun h => absurd h.2.1 (by omega), fun _ => rfl⟩
  obtain ⟨kind, hkind⟩ := @exists_index16 msg (pos + 1) (by omega)
  rw [if_neg hend, hkind]
  show (_ → Except.ok (kind == qtype.toNat) = _) ∧ (_ → Except.ok (kind == qtype.toNat) = _)
  by_cases htype : kind = qtype.toNat
  · rw [beq_iff_eq.mpr htype]
    exact ⟨fun _ => rfl, fun h => absurd ⟨hroot, by omega, congrArg _ htype⟩ h⟩
  · rw [beq_eq_false_iff_ne.mpr htype]
    exact ⟨fun h => absurd (Except.ok.inj h.2.2) htype, fun _ => rfl⟩

/-! ### Agreement -/

theorem asksFor_of_encodable {name : String} (h : Encodable name) : AsksFor name := by
  obtain ⟨hlabels, hlength⟩ := h
  have hrange : ∀ word ∈ Rust.split '.' name, 0 < (Rust.toUtf8 word).length ∧ (Rust.toUtf8 word).length < 2 ^ 6 := by
    intro word hword
    have := hlabels word hword
    omega
  generalize hsome : (Rust.split '.' name).pmap (fun word hword => (⟨Rust.toUtf8 word, hword⟩ : Label)) hrange = labels
  have hbytes : labels.map (·.bytes) = (Rust.split '.' name).map Rust.toUtf8 := by
    rw [← hsome, List.map_pmap, List.pmap_eq_map]
  have hwire := flatMap_wire hbytes
  have hpushed := length_pushed (split_ne_nil name)
  rw [intercalate_split] at hpushed
  refine ⟨labels, ⟨_, split_free name, hbytes, .inl (intercalate_split name).symm⟩, ?_, fun qtype id => ⟨?_, ?_, fun msg => ?_⟩⟩
  · have hroot : (Name.mk labels .root).ending.wire.length = 1 := rfl
    rw [FitsName, Name.wire, List.length_append, hwire]
    omega
  · rw [buildDnsQuery, queryFor, question_wire, hwire]
  · have hkept : ((Rust.split '.' name).filter fun label => !label.isEmpty) = Rust.split '.' name := by
      apply List.filter_eq_self.mpr
      intro word hword
      by_contra hempty
      have hnil : word = "" := by simpa using hempty
      have hpos := (hrange word hword).1
      rw [hnil] at hpos
      exact absurd hpos (by decide)
    rw [buildQuery, hkept, buildDnsQuery]
  · obtain ⟨haccept, hreject⟩ := matchesQuestion_eq hbytes msg qtype id
    refine ⟨⟨fun h => ?_, haccept⟩, ⟨fun h hechoes => ?_, hreject⟩, rfl⟩
    · by_contra hnot
      rw [dnsResponseMatches, hreject hnot] at h
      cases h
    · rw [dnsResponseMatches, haccept hechoes] at h
      cases h

/-- Query and comparison agree exactly on the names whose labels have 1 to 63 bytes and that
have at most 253. -/
theorem agrees_iff (name : String) : Agrees name ↔ Encodable name := by
  refine ⟨fun h => ?_, fun h => .inr (asksFor_of_encodable h)⟩
  rcases h with hrefused | hasks
  · exact absurd hrefused (not_refused name)
  · exact encodable_of_asksFor hasks

/-- A dot behind the name becomes a label of no bytes. -/
theorem dot_disagrees : ¬ Agrees "example.com." := by
  intro h
  have hencodable : Encodable "example.com." := h.elim (fun h => absurd h (not_refused _)) encodable_of_asksFor
  exact absurd (hencodable.1 "" (by decide)) (by decide)

end Aether.Dns
