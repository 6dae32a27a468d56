import Aether.Octets.DnsMessage
import Aether.Octets.Reading
import Aether.Rust.Net

/-! What is taken from a DNS answer.

`parse_dns_a` of the proxy and `parse_https_ech` of the bootstrap walk the answers of a message
in the same way, over names of any form, and take the first address or the first ECH
configuration. `answers_read` says that they do so on every well-formed message, and that on all
bytes they stay inside and end. -/
namespace Aether.Dns
open Octets Octets.Dns

abbrev Bytes := List UInt8

/-! ### The functions -/

def skipNameFrom (buf : Bytes) : (fuel pos : Nat) → Reads Nat
  | 0, _ => .error .endless
  | fuel + 1, pos => do
    let len ← orNothing buf[pos]?
    if len &&& 0xC0 == 0xC0 then .ok (pos + 2)
    else if len == 0 then .ok (pos + 1)
    else skipNameFrom buf fuel (pos + (1 + len.toNat))

/-- `skip_name`, the same in both files. -/
def skipName (buf : Bytes) (pos : Nat) : Reads Nat := skipNameFrom buf (buf.length + 1) pos

/-- The loop over the questions. -/
def skipQuestions (buf : Bytes) : (count pos : Nat) → Reads Nat
  | 0, pos => .ok pos
  | n + 1, pos => do
    let pos ← skipName buf pos
    skipQuestions buf n (pos + 4)

section
variable {α : Type} (found : (rtype pos rdlen : Nat) → Reads (Option α))

/-- The loop over the answers, with what is found in the data of one. -/
def firstAnswer (buf : Bytes) : (count pos : Nat) → Reads α
  | 0, _ => .error .nothing
  | n + 1, pos => do
    let pos ← skipName buf pos
    if pos + 10 > buf.length then .error .nothing
    else
      let rtype ← index16 buf pos
      let rdlen ← index16 buf (pos + 8)
      let pos := pos + 10
      if pos + rdlen > buf.length then .error .nothing
      else
        match ← found rtype pos rdlen with
        | some a => .ok a
        | none => firstAnswer buf n (pos + rdlen)

def parseAnswers (buf : Bytes) : Reads α :=
  if buf.length < 12 then .error .nothing
  else do
    let qd ← index16 buf 4
    let an ← index16 buf 6
    let pos ← skipQuestions buf qd 12
    firstAnswer found buf an pos

end

/-- What `parse_dns_a` takes from a record. -/
def foundA (resp : Bytes) (rtype pos rdlen : Nat) : Reads (Option Rust.IpAddr) :=
  if rtype = 1 ∧ rdlen = 4 then do
    let a ← index resp pos
    let b ← index resp (pos + 1)
    let c ← index resp (pos + 2)
    let d ← index resp (pos + 3)
    .ok (some (.v4 (Rust.ipv4 a b c d)))
  else .ok none

def parseDnsA (resp : Bytes) : Reads Rust.IpAddr := parseAnswers (foundA resp) resp

/-- The loop over the parameters of a service. -/
def svcparamsEch (msg : Bytes) (stop : Nat) : (fuel p : Nat) → Reads Bytes
  | 0, _ => .error .endless
  | fuel + 1, p =>
    if p + 4 ≤ stop then do
      let key ← index16 msg p
      let len ← index16 msg (p + 2)
      let p := p + 4
      if p + len > stop then .error .nothing
      -- SVCPARAM_ECH
      else if key = 5 then indexSlice msg p (p + len)
      else svcparamsEch msg stop fuel (p + len)
    else .error .nothing

def parseSvcparamsEch (msg : Bytes) (rdataStart rdlen : Nat) : Reads Bytes :=
  let stop := rdataStart + rdlen
  if rdataStart + 2 > stop then .error .nothing
  else do
    let p ← skipName msg (rdataStart + 2)
    svcparamsEch msg stop (msg.length + 1) p

/-- What `parse_https_ech` takes from a record. -/
def foundEch (msg : Bytes) (rtype pos rdlen : Nat) : Reads (Option Bytes) :=
  -- RR_HTTPS
  if rtype = 65 then attempt (parseSvcparamsEch msg pos rdlen) else .ok none

def parseHttpsEch (msg : Bytes) : Reads Bytes := parseAnswers (foundEch msg) msg

/-! ### What a message holds -/

/-- The address of a record of type A. -/
def addressOf (record : Record) : Option Rust.IpAddr :=
  match record.data with
  | .other kind _ [a, b, c, d] _ => if kind.val = 1 then some (.v4 (Rust.ipv4 a b c d)) else none
  | _ => none

/-- The first ECH parameter of an HTTPS record. -/
def echOf (record : Record) : Option Bytes :=
  match record.data with
  | .service svc _ => (svc.params.find? (·.key.val == 5)).map (·.value)
  | .other .. => none

/-! ### A name is passed over -/

theorem isPointer_iff : ∀ n < 2 ^ 8, (UInt8.ofNat n &&& 0xC0 == 0xC0) = true ↔ 0xC0 ≤ n := by decide +kernel

/-- A name is stepped over to its end, at a pointer too; each label takes one turn. -/
theorem skipNameFrom_name {buf : Bytes} {name : Name} {fuel pos : Nat} (hfuel : name.labels.length < fuel)
    (hat : StandsAt name.wire buf pos) : skipNameFrom buf fuel pos = .ok (pos + name.wire.length) := by
  obtain ⟨labels, ending⟩ := name
  induction labels generalizing fuel pos with
  | nil =>
    obtain ⟨fuel, rfl⟩ : ∃ n, fuel = n + 1 := ⟨fuel - 1, by omega⟩
    cases ending with
    | root =>
      have hbyte := (standsAt_cons.mp hat).1
      rw [skipNameFrom, hbyte]
      rfl
    | pointer offset =>
      have hbyte := (standsAt_cons.mp hat).1
      have hoffset := offset.isLt
      have hpointer := (isPointer_iff (0xC0 + offset / 2 ^ 8) (by omega)).mpr (by omega)
      rw [skipNameFrom, hbyte]
      show (if _ then _ else _) = _
      rw [if_pos hpointer]
      rfl
  | cons label labels ih =>
    obtain ⟨fuel, rfl⟩ : ∃ n, fuel = n + 1 := ⟨fuel - 1, by omega⟩
    have hrange := label.range
    rw [Name.wire, List.flatMap_cons, List.append_assoc, Label.wire, List.cons_append, standsAt_cons,
      standsAt_append] at hat
    obtain ⟨hbyte, -, hrest⟩ := hat
    have hnot : ¬ (UInt8.ofNat label.bytes.length &&& 0xC0 == 0xC0) = true := by
      rw [isPointer_iff _ (by omega)]
      omega
    have hpos : ¬ (UInt8.ofNat label.bytes.length == 0) = true := by
      rw [beq_iff_eq, ← UInt8.toNat_inj, label.toNat_length]
      simp only [UInt8.toNat_zero]
      omega
    rw [skipNameFrom, hbyte]
    show (if _ then _ else if _ then _ else _) = _
    rw [if_neg hnot, if_neg hpos, label.toNat_length, ← Nat.add_assoc, ih (Nat.lt_of_succ_lt_succ hfuel) hrest]
    simp only [Name.wire, Label.wire, List.flatMap_cons, List.length_append, List.length_cons]
    congr 1
    omega

/-- The bytes behind a place are as many turns as a name there can take. -/
theorem skipName_name {buf : Bytes} {name : Name} {pos : Nat} (hat : StandsAt name.wire buf pos) :
    skipName buf pos = .ok (pos + name.wire.length) := by
  apply skipNameFrom_name _ hat
  have hcount := length_le_flatMap Label.wire_ne_nil name.labels
  have hlength := List.IsPrefix.length_le hat
  rw [Name.wire, List.length_append, List.length_drop] at hlength
  omega

/-- The questions are stepped over one by one, with four bytes behind each name. -/
theorem skipQuestions_questions {buf : Bytes} (questions : List Question) {pos : Nat}
    (hat : StandsAt (questions.flatMap Question.wire) buf pos) :
    skipQuestions buf questions.length pos = .ok (pos + (questions.flatMap Question.wire).length) := by
  induction questions generalizing pos with
  | nil => rfl
  | cons question questions ih =>
    rw [List.flatMap_cons, standsAt_append, Question.wire, standsAt_append] at hat
    obtain ⟨⟨hname, -⟩, hrest⟩ := hat
    have hlength : (question.name.wire ++ (u16 question.kind ++ u16 question.netClass)).length =
        question.name.wire.length + 4 := by simp
    rw [hlength, ← Nat.add_assoc] at hrest
    rw [List.length_cons, skipQuestions, skipName_name hname]
    show skipQuestions buf questions.length (pos + question.name.wire.length + 4) = _
    rw [ih hrest, List.flatMap_cons, List.length_append, Question.wire, hlength]
    congr 1
    omega

/-! ### The first answer that gives something -/

section
variable {α : Type} {found : (rtype pos rdlen : Nat) → Reads (Option α)} {spec : Record → Option α} {buf : Bytes}

/-- The loop ends at the first record that gives something; those in front of it are stepped over.
-/
theorem firstAnswer_answers
    (hfound : ∀ (record : Record) pos, pos ≤ buf.length → StandsAt record.data.wire buf pos →
      found record.data.kind pos record.data.wire.length = .ok (spec record))
    (answers : List Record) {pos : Nat} (hpos : pos ≤ buf.length)
      (hat : StandsAt (answers.flatMap Record.wire) buf pos) :
    firstAnswer found buf answers.length pos = orNothing (answers.findSome? spec) := by
  induction answers generalizing pos with
  | nil => rfl
  | cons record answers ih =>
    rw [List.flatMap_cons, standsAt_append] at hat
    have hend := hat.1.length_le hpos
    have hlength : record.wire.length = record.owner.wire.length + 10 + record.data.wire.length := by
      rw [Record.wire, List.length_append, List.length_append, Record.length_fields]
      omega
    have hrecord := Record.stands hat.1
    have hfields : ¬ pos + record.owner.wire.length + 10 > buf.length := by omega
    have hdata : ¬ pos + record.owner.wire.length + 10 + record.data.wire.length > buf.length := by omega
    rw [List.length_cons, firstAnswer, skipName_name hrecord.owner]
    show (if pos + record.owner.wire.length + 10 > buf.length then _ else _) = _
    rw [if_neg hfields, index16_of_standsAt hrecord.kind record.data.kind_lt,
      index16_of_standsAt hrecord.length record.data.wire_lt]
    show (if pos + record.owner.wire.length + 10 + record.data.wire.length > buf.length then _ else _) = _
    rw [if_neg hdata, hfound record _ (by omega) hrecord.data, List.findSome?_cons]
    cases spec record with
    | some a => rfl
    | none =>
      rw [hlength, ← Nat.add_assoc, ← Nat.add_assoc] at hat
      exact ih (by omega) hat.2

/-- On a message as it is written the reader gives what its first answer to give anything gives. -/
theorem parseAnswers_message (m : Message)
    (hfound : ∀ (record : Record) pos, pos ≤ m.wire.length → StandsAt record.data.wire m.wire pos →
      found record.data.kind pos record.data.wire.length = .ok (spec record)) :
    parseAnswers found m.wire = orNothing (m.answers.findSome? spec) := by
  have hstands := m.stands
  have hheader : ¬ m.wire.length < 12 := by
    rw [Message.wire, List.length_append, Message.length_header]
    omega
  have hquestions := hstands.questions.length_le (by omega)
  rw [parseAnswers, if_neg hheader, index16_of_standsAt hstands.questionCount m.fewQuestions,
    index16_of_standsAt hstands.answerCount m.fewAnswers]
  show (skipQuestions m.wire m.questions.length 12 >>= _) = _
  rw [skipQuestions_questions m.questions hstands.questions]
  exact firstAnswer_answers hfound m.answers hquestions hstands.answers

end

/-! ### What the data gives -/

theorem foundA_data {buf : Bytes} (record : Record) {pos : Nat} (hat : StandsAt record.data.wire buf pos) :
    foundA buf record.data.kind pos record.data.wire.length = .ok (addressOf record) := by
  rw [foundA, addressOf]
  cases hdata : record.data with
  | service svc short =>
    rw [if_neg (by simp [Data.kind, httpsKind])]
  | other kind isOther bytes short =>
    rw [hdata] at hat
    by_cases hfour : bytes.length = 4
    · obtain ⟨a, b, c, d, rfl⟩ := List.length_eq_four.mp hfour
      by_cases hkind : kind.val = 1
      · rw [if_pos ⟨hkind, hfour⟩]
        simp only [Data.wire, standsAt_cons] at hat
        obtain ⟨ha, hb, hc, hd, -⟩ := hat
        rw [index_of_getElem? ha, index_of_getElem? hb, index_of_getElem? hc, index_of_getElem? hd]
        simp only [if_pos hkind]
        rfl
      · rw [if_neg fun h => hkind h.1]
        simp only [if_neg hkind]
    · rw [if_neg fun h => hfour h.2]
      split
      case h_1 heq =>
        cases heq
        exact absurd rfl hfour
      case h_2 => rfl

/-- The value of the parameter 5, behind whatever others there are. -/
theorem svcparamsEch_params {buf : Bytes} {stop : Nat} (hstop : stop ≤ buf.length) (params : List Param) {fuel p : Nat}
    (hfuel : params.length < fuel) (hat : StandsAt (params.flatMap Param.wire) buf p)
    (hend : stop = p + (params.flatMap Param.wire).length) :
    svcparamsEch buf stop fuel p = orNothing ((params.find? (·.key.val == 5)).map (·.value)) := by
  induction params generalizing fuel p with
  | nil =>
    obtain ⟨fuel, rfl⟩ : ∃ n, fuel = n + 1 := ⟨fuel - 1, by omega⟩
    rw [List.flatMap_nil, List.length_nil] at hend
    rw [svcparamsEch, if_neg (by omega)]
    rfl
  | cons param params ih =>
    obtain ⟨fuel, rfl⟩ : ∃ n, fuel = n + 1 := ⟨fuel - 1, by omega⟩
    rw [List.length_cons] at hfuel
    rw [List.flatMap_cons, List.length_append] at hend
    have hlength : param.wire.length = 4 + param.value.length := by
      simp only [Param.wire, List.length_append, length_u16]
      omega
    rw [List.flatMap_cons, standsAt_append, hlength, Param.wire, standsAt_append, standsAt_append, length_u16,
      length_u16] at hat
    obtain ⟨⟨hkey, hlen, hvalue⟩, hrest⟩ := hat
    have hroom : p + 4 ≤ stop := by omega
    have hfits : ¬ p + 4 + param.value.length > stop := by omega
    rw [svcparamsEch, if_pos hroom, index16_of_standsAt hkey param.key.isLt, index16_of_standsAt hlen param.short]
    show (if p + 4 + param.value.length > stop then _ else _) = _
    rw [if_neg hfits, List.find?_cons]
    by_cases hech : param.key.val = 5
    · rw [if_pos hech, indexSlice_of_standsAt hvalue (by omega), beq_iff_eq.mpr hech]
      rfl
    · rw [if_neg hech, beq_eq_false_iff_ne.mpr hech]
      rw [← Nat.add_assoc] at hrest
      exact ih (by omega) hrest (by omega)

/-- A parameter takes at least a byte, so that the loop has turns enough. -/
theorem Param.wire_ne_nil (param : Param) : param.wire ≠ [] := List.cons_ne_nil _ _

theorem attempt_orNothing {α : Type} (x : Option α) : attempt (orNothing x) = .ok x := by
  cases x <;> rfl

/-- A record of the service gives its ECH configuration, and any other nothing. -/
theorem foundEch_data {buf : Bytes} (record : Record) {pos : Nat} (hpos : pos ≤ buf.length)
    (hat : StandsAt record.data.wire buf pos) :
    foundEch buf record.data.kind pos record.data.wire.length = .ok (echOf record) := by
  rw [foundEch, echOf]
  have hend := hat.length_le hpos
  cases hdata : record.data with
  | other kind isOther bytes short =>
    have hkind : ¬ (Data.other kind isOther bytes short).kind = 65 := isOther
    rw [if_neg hkind]
  | service svc short =>
    rw [hdata] at hat hend
    have hlength : svc.wire.length = 2 + svc.target.wire.length + (svc.params.flatMap Param.wire).length := by
      simp only [Service.wire, List.length_append, length_u16]
      omega
    rw [Data.wire, Service.wire, standsAt_append, standsAt_append, length_u16] at hat
    obtain ⟨-, htarget, hparams⟩ := hat
    have hcount := length_le_flatMap Param.wire_ne_nil svc.params
    have hroom : ¬ pos + 2 > pos + svc.wire.length := by omega
    rw [if_pos (by rfl), Data.wire, parseSvcparamsEch, if_neg hroom, skipName_name htarget]
    show attempt (svcparamsEch buf (pos + svc.wire.length) (buf.length + 1) (pos + 2 + svc.target.wire.length)) = _
    rw [Data.wire] at hend
    rw [svcparamsEch_params hend svc.params (by omega) hparams (by omega), attempt_orNothing]

/-! ### All bytes -/

theorem skipNameFrom_safe (buf : Bytes) {fuel pos : Nat} (hfuel : buf.length - pos < fuel) :
    Safe (skipNameFrom buf fuel pos) := by
  induction fuel generalizing pos with
  | zero => omega
  | succ fuel ih =>
    rw [skipNameFrom]
    apply safe_bind (safe_orNothing _)
    intro len hlen
    have hpos := lt_of_orNothing hlen
    split
    · exact safe_ok _
    · split
      · exact safe_ok _
      · exact ih (by omega)

theorem skipName_safe (buf : Bytes) (pos : Nat) : Safe (skipName buf pos) := skipNameFrom_safe buf (by omega)

/-- Each name is stepped over safely, wherever the one in front of it has led. -/
theorem skipQuestions_safe (buf : Bytes) (count pos : Nat) : Safe (skipQuestions buf count pos) := by
  induction count generalizing pos with
  | zero => exact safe_ok _
  | succ n ih => exact safe_bind (skipName_safe buf pos) fun pos _ => ih (pos + 4)

section
variable {α : Type} {found : (rtype pos rdlen : Nat) → Reads (Option α)} {buf : Bytes}

/-- No record is looked into that does not lie in the message. -/
theorem firstAnswer_safe (hfound : ∀ rtype pos rdlen, pos + rdlen ≤ buf.length → Safe (found rtype pos rdlen))
    (count pos : Nat) : Safe (firstAnswer found buf count pos) := by
  induction count generalizing pos with
  | zero => exact safe_nothing
  | succ n ih =>
    rw [firstAnswer]
    apply safe_bind (skipName_safe buf pos)
    intro pos _
    split
    · exact safe_nothing
    apply safe_bind (safe_index16 (by omega))
    intro rtype _
    apply safe_bind (safe_index16 (by omega))
    intro rdlen _
    dsimp only
    split
    · exact safe_nothing
    apply safe_bind (hfound rtype (pos + 10) rdlen (by omega))
    intro a _
    cases a with
    | some a => exact safe_ok a
    | none => exact ih _

/-- Whatever the message is, the reader stays inside of it and ends. -/
theorem parseAnswers_safe (hfound : ∀ rtype pos rdlen, pos + rdlen ≤ buf.length → Safe (found rtype pos rdlen)) :
    Safe (parseAnswers found buf) := by
  rw [parseAnswers]
  split
  · exact safe_nothing
  apply safe_bind (safe_index16 (by omega))
  intro qd _
  apply safe_bind (safe_index16 (by omega))
  intro an _
  apply safe_bind (skipQuestions_safe buf qd 12)
  intro pos _
  exact firstAnswer_safe hfound an pos

end

theorem foundA_safe {buf : Bytes} {pos rdlen : Nat} (h : pos + rdlen ≤ buf.length) (rtype : Nat) :
    Safe (foundA buf rtype pos rdlen) := by
  rw [foundA]
  split
  · apply safe_bind (safe_index (by omega))
    intro a _
    apply safe_bind (safe_index (by omega))
    intro b _
    apply safe_bind (safe_index (by omega))
    intro c _
    apply safe_bind (safe_index (by omega))
    intro d _
    exact safe_ok _
  · exact safe_ok _

/-- Each turn of the loop comes nearer to the end of the parameters. -/
theorem svcparamsEch_safe {buf : Bytes} {stop fuel p : Nat} (hstop : stop ≤ buf.length) (hfuel : stop - p < fuel) :
    Safe (svcparamsEch buf stop fuel p) := by
  induction fuel generalizing p with
  | zero => omega
  | succ fuel ih =>
    rw [svcparamsEch]
    split
    case isFalse => exact safe_nothing
    apply safe_bind (safe_index16 (by omega))
    intro key _
    apply safe_bind (safe_index16 (by omega))
    intro len _
    dsimp only
    split
    · exact safe_nothing
    split
    · exact safe_indexSlice (by omega) (by omega)
    · exact ih (by omega)

theorem foundEch_safe {buf : Bytes} {pos rdlen : Nat} (h : pos + rdlen ≤ buf.length) (rtype : Nat) :
    Safe (foundEch buf rtype pos rdlen) := by
  rw [foundEch]
  split
  · apply safe_attempt
    rw [parseSvcparamsEch]
    split
    · exact safe_nothing
    apply safe_bind (skipName_safe buf _)
    intro p _
    exact svcparamsEch_safe h (by omega)
  · exact safe_ok _

/-- On a message the first address and the first ECH configuration of its answers are found, or
nothing where there is none; on all bytes the functions stay inside and end. -/
theorem answers_read :
    (∀ m : Message,
      parseDnsA m.wire = orNothing (m.answers.findSome? addressOf) ∧
        parseHttpsEch m.wire = orNothing (m.answers.findSome? echOf)) ∧
    ∀ buf : Bytes, Safe (parseDnsA buf) ∧ Safe (parseHttpsEch buf) := by
  refine ⟨fun m => ⟨?_, ?_⟩, fun buf => ⟨?_, ?_⟩⟩
  · exact parseAnswers_message m fun record _ _ hat => foundA_data record hat
  · exact parseAnswers_message m fun record _ hpos hat => foundEch_data record hpos hat
  · exact parseAnswers_safe fun rtype _ _ h => foundA_safe h rtype
  · exact parseAnswers_safe fun rtype _ _ h => foundEch_safe h rtype

end Aether.Dns
