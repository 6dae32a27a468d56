import Aether.Octets.Wire

/-! DNS messages on the wire.

A name is labels, each behind its length, and ends in the root or in a pointer to another
name. A message is a header with the counts of its sections, questions, answers, and what
follows them. The data of an HTTPS record is a priority, a name and parameters; that of
other records is not looked into. -/
namespace Aether.Octets.Dns

/-! ### Names -/

structure Label where
  bytes : List UInt8
  range : 0 < bytes.length ∧ bytes.length < 2 ^ 6

def Label.wire (label : Label) : List UInt8 := UInt8.ofNat label.bytes.length :: label.bytes

/-- How a name ends. -/
inductive Ending where
  | root
  | pointer (offset : Fin (2 ^ 14))

def Ending.wire : Ending → List UInt8
  | root => [0]
  | pointer offset => [UInt8.ofNat (0xC0 + offset / 2 ^ 8), UInt8.ofNat offset]

structure Name where
  labels : List Label
  ending : Ending

def Name.wire (name : Name) : List UInt8 := name.labels.flatMap Label.wire ++ name.ending.wire

/-! ### Records -/

structure Question where
  name : Name
  kind : Fin (2 ^ 16)
  netClass : Fin (2 ^ 16)

def Question.wire (question : Question) : List UInt8 :=
  question.name.wire ++ (u16 question.kind ++ u16 question.netClass)

/-- A parameter of a service. -/
structure Param where
  key : Fin (2 ^ 16)
  value : List UInt8
  short : value.length < 2 ^ 16

def Param.wire (param : Param) : List UInt8 := u16 param.key ++ (u16 param.value.length ++ param.value)

/-- The data of an HTTPS record. -/
structure Service where
  priority : Fin (2 ^ 16)
  target : Name
  params : List Param

def Service.wire (service : Service) : List UInt8 :=
  u16 service.priority ++ (service.target.wire ++ service.params.flatMap Param.wire)

/-- The type of HTTPS records. -/
def httpsKind : Nat := 65

inductive Data where
  | service (svc : Service) (short : svc.wire.length < 2 ^ 16)
  | other (kind : Fin (2 ^ 16)) (isOther : kind ≠ httpsKind) (bytes : List UInt8) (short : bytes.length < 2 ^ 16)

def Data.kind : Data → Nat
  | service .. => httpsKind
  | other kind .. => kind

def Data.wire : Data → List UInt8
  | service svc _ => svc.wire
  | other _ _ bytes _ => bytes

theorem Data.kind_lt (data : Data) : data.kind < 2 ^ 16 := by
  cases data with
  | service => exact (by decide : httpsKind < 2 ^ 16)
  | other kind => exact kind.isLt

theorem Data.wire_lt (data : Data) : data.wire.length < 2 ^ 16 := by
  cases data with
  | service svc short => exact short
  | other kind isOther bytes short => exact short

structure Record where
  owner : Name
  netClass : Fin (2 ^ 16)
  timeToLive : List UInt8
  isTime : timeToLive.length = 4
  data : Data

/-- What stands between the owner and the data. -/
def Record.fields (record : Record) : List UInt8 :=
  u16 record.data.kind ++ (u16 record.netClass ++ (record.timeToLive ++ u16 record.data.wire.length))

def Record.wire (record : Record) : List UInt8 := record.owner.wire ++ (record.fields ++ record.data.wire)

@[simp] theorem Record.length_fields (record : Record) : record.fields.length = 10 := by
  simp [Record.fields, record.isTime]

/-! ### Messages -/

structure Message where
  id : Fin (2 ^ 16)
  flags : Fin (2 ^ 16)
  questions : List Question
  fewQuestions : questions.length < 2 ^ 16
  answers : List Record
  fewAnswers : answers.length < 2 ^ 16
  /-- The counts of the two sections that follow. -/
  counts : List UInt8
  isCounts : counts.length = 4
  /-- The records of the two sections that follow. -/
  rest : List UInt8

def Message.header (message : Message) : List UInt8 :=
  u16 message.id ++ (u16 message.flags ++ (u16 message.questions.length ++ (u16 message.answers.length ++ message.counts)))

def Message.wire (message : Message) : List UInt8 :=
  message.header ++ (message.questions.flatMap Question.wire ++ (message.answers.flatMap Record.wire ++ message.rest))

@[simp] theorem Message.length_header (message : Message) : message.header.length = 12 := by
  simp [Message.header, message.isCounts]

/-! ### What a reader meets -/

/-- Every item takes a byte or more. -/
theorem length_le_flatMap {α : Type} {f : α → List UInt8} (hf : ∀ x, f x ≠ []) (xs : List α) :
    xs.length ≤ (xs.flatMap f).length := by
  induction xs with
  | nil => exact Nat.zero_le _
  | cons x xs ih =>
    have hx := List.length_pos_iff.mpr (hf x)
    rw [List.flatMap_cons, List.length_append, List.length_cons]
    omega

theorem Label.wire_ne_nil (label : Label) : label.wire ≠ [] := List.cons_ne_nil _ _

theorem Ending.wire_ne_nil (ending : Ending) : ending.wire ≠ [] := by
  cases ending <;> exact List.cons_ne_nil _ _

theorem Label.toNat_length (label : Label) : (UInt8.ofNat label.bytes.length).toNat = label.bytes.length := by
  have hrange := label.range
  rw [UInt8.toNat_ofNat', Nat.mod_eq_of_lt (by omega)]

/-- Where a label stands, its length does, and behind it what follows. -/
theorem Label.stands {label : Label} {rest message : List UInt8} {pos : Nat}
    (h : StandsAt (label.wire ++ rest) message pos) :
    message[pos]? = some (UInt8.ofNat label.bytes.length) ∧ StandsAt rest message (pos + (label.bytes.length + 1)) := by
  rw [standsAt_append, Label.wire, standsAt_cons] at h
  exact ⟨h.1.1, h.2⟩

/-- Where the parts of a record stand. -/
structure Record.Stands (record : Record) (message : List UInt8) (pos : Nat) : Prop where
  owner : StandsAt record.owner.wire message pos
  kind : StandsAt (u16 record.data.kind) message (pos + record.owner.wire.length)
  length : StandsAt (u16 record.data.wire.length) message (pos + record.owner.wire.length + 8)
  data : StandsAt record.data.wire message (pos + record.owner.wire.length + 10)

/-- Where a record stands, its owner, its fields and its data do, one behind the other. -/
theorem Record.stands {record : Record} {message : List UInt8} {pos : Nat} (h : StandsAt record.wire message pos) :
    record.Stands message pos := by
  rw [Record.wire, standsAt_append, standsAt_append, Record.length_fields] at h
  obtain ⟨howner, hfields, hdata⟩ := h
  rw [Record.fields, standsAt_append, standsAt_append, standsAt_append, length_u16, length_u16,
    record.isTime] at hfields
  exact ⟨howner, hfields.1, hfields.2.2.2, hdata⟩

/-- Where the parts of a message stand. -/
structure Message.Stands (m : Message) : Prop where
  flags : StandsAt (u16 m.flags) m.wire 2
  questionCount : StandsAt (u16 m.questions.length) m.wire 4
  answerCount : StandsAt (u16 m.answers.length) m.wire 6
  questions : StandsAt (m.questions.flatMap Question.wire) m.wire 12
  answers : StandsAt (m.answers.flatMap Record.wire) m.wire (12 + (m.questions.flatMap Question.wire).length)

/-- So do the parts of a message. -/
theorem Message.stands (m : Message) : m.Stands := by
  have hself := @standsAt_self _ m.wire
  rw [Message.wire, standsAt_append, standsAt_append, standsAt_append, Message.length_header] at hself
  obtain ⟨hheader, hquestions, hanswers, -⟩ := hself
  rw [Message.header, standsAt_append, standsAt_append, standsAt_append, standsAt_append] at hheader
  obtain ⟨-, hflags, hquestionCount, hanswerCount, -⟩ := hheader
  exact ⟨hflags, hquestionCount, hanswerCount, hquestions, hanswers⟩

end Aether.Octets.Dns
