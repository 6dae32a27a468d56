import Aether.Machine.Run
import Aether.Masque.CapsuleStream

/-! The capsule parser and the boundaries of the stream it is fed.

The transports push what they receive and call `next` whenever they like, often
after several pushes. A chunk that overflows the buffer is dropped together with
what was buffered, and parsing goes on with the byte after it, whatever it is.

`InStep` says that the buffer starts where a capsule of the stream starts, and
that what was returned is a subsequence of the capsules before that point. A run
stays in step exactly when every chunk that overflows ends at the end of a
capsule (`inStep_iff_cut_at_boundary`); after any other overflow the parser takes
bytes from the middle of a capsule for a header. -/
namespace Aether.Masque

/-! ### The machine -/

/-- A parser, the part of its stream that is still to be pushed, and what it has
returned. -/
structure Session where
  parser : CapsuleParser := {}
  remaining : List UInt8
  returned : List Capsule := []

inductive Session.Action where
  /-- The next `n` bytes of the stream are pushed as one chunk. -/
  | push (n : Nat)
  | next

def Session.next (t : Target) (a : Session.Action) (s : Session) : Session :=
  match a with
  | .push n => {s with
      parser := s.parser.push (s.remaining.take n), remaining := s.remaining.drop n}
  | .next =>
    match s.parser.next t with
    | (.ok (some c), p) => {s with parser := p, returned := s.returned ++ [c]}
    | (_, p) => {s with parser := p}

section Stream
variable {t : Target}

def encodeAll (frames : List (Frame t)) : List UInt8 := frames.flatMap Frame.encode

/-- The capsules of a stream: those of its frames whose values parse. -/
def capsulesOf (frames : List (Frame t)) : List Capsule :=
  frames.filterMap fun f => f.capsule.toOption

def Session.initial (frames : List (Frame t)) : Session := {remaining := encodeAll frames}

/-- The buffer starts at the first byte of a capsule, and the capsules returned are
among those before it, in order. -/
def InStep (frames : List (Frame t)) (s : Session) : Prop :=
  ∃ past todo, frames = past ++ todo ∧ encodeAll todo = s.parser.buf ++ s.remaining ∧
    s.returned.Sublist (capsulesOf past)

/-- What is left of the stream starts with a capsule, or is empty. -/
def AtBoundary (frames : List (Frame t)) (rest : List UInt8) : Prop :=
  ∃ todo, todo <:+ frames ∧ encodeAll todo = rest

/-- The condition on a step: a chunk that overflows the buffer ends with a capsule. -/
def CutAtBoundary (frames : List (Frame t)) (a : Session.Action) (s : Session) : Prop :=
  match a with
  | .push n =>
    maxCapsuleBuf < s.parser.buf.length + (s.remaining.take n).length →
      AtBoundary frames (s.remaining.drop n)
  | .next => True

/-! ### Boundaries -/

@[simp] theorem encodeAll_cons (f : Frame t) (fs : List (Frame t)) :
    encodeAll (f :: fs) = f.encode ++ encodeAll fs := List.flatMap_cons

@[simp] theorem encodeAll_append (fs gs : List (Frame t)) :
    encodeAll (fs ++ gs) = encodeAll fs ++ encodeAll gs := List.flatMap_append

theorem capsulesOf_append (fs gs : List (Frame t)) :
    capsulesOf (fs ++ gs) = capsulesOf fs ++ capsulesOf gs := List.filterMap_append

theorem eq_nil_of_encodeAll {fs : List (Frame t)} (h : (encodeAll fs).length = 0) : fs = [] := by
  cases fs with
  | nil => rfl
  | cons f fs =>
    have hne := List.length_pos_iff.mpr f.encode_ne_nil
    rw [encodeAll_cons, List.length_append] at h
    omega

/-- Of two boundaries, the one with less of the stream left is the later. -/
theorem earlier_boundary {past todo past' todo' : List (Frame t)} (h : past ++ todo = past' ++ todo')
    (hlen : (encodeAll todo').length ≤ (encodeAll todo).length) : past <+: past' := by
  obtain ⟨between, hpast, -⟩ | ⟨between, hpast, htodo⟩ := List.append_eq_append_iff.mp h
  · exact ⟨between, hpast.symm⟩
  · rw [htodo, encodeAll_append, List.length_append] at hlen
    have hnil : between = [] := eq_nil_of_encodeAll (by omega)
    rw [hpast, hnil, List.append_nil]

/-! ### Steps -/

/-- A push keeps the parser in step unless it overflows in the middle of a capsule. -/
theorem inStep_push (frames : List (Frame t)) (n : Nat) (s : Session) (h : InStep frames s) :
    InStep frames (s.next t (.push n)) ↔ CutAtBoundary frames (.push n) s := by
  obtain ⟨past, todo, hframes, htodo, hreturned⟩ := h
  by_cases hover : maxCapsuleBuf < s.parser.buf.length + (s.remaining.take n).length
  · have hpush : s.parser.push (s.remaining.take n) = ⟨[]⟩ := if_pos hover
    constructor
    · intro ⟨past', todo', hframes', htodo', _⟩ _
      simp only [Session.next, hpush, List.nil_append] at htodo'
      exact ⟨todo', ⟨past', hframes'.symm⟩, htodo'⟩
    · intro hcut
      obtain ⟨todo', ⟨past', hframes'⟩, htodo'⟩ := hcut hover
      have hlen : (encodeAll todo').length ≤ (encodeAll todo).length := by
        rw [htodo', htodo, List.length_drop, List.length_append]
        omega
      obtain ⟨between, rfl⟩ := earlier_boundary (hframes.symm.trans hframes'.symm) hlen
      refine ⟨past ++ between, todo', hframes'.symm, ?_, ?_⟩
      · simp only [Session.next, hpush, List.nil_append, htodo']
      · rw [capsulesOf_append]
        exact hreturned.trans (List.sublist_append_left ..)
  · have hpush := push_of_fits (Nat.not_lt.mp hover)
    refine iff_of_true ⟨past, todo, hframes, ?_, hreturned⟩ fun h => absurd h hover
    simp only [Session.next, hpush]
    rw [htodo, List.append_assoc, List.take_append_drop]

theorem session_next_none {s : Session} (h : readHeader t s.parser.buf = none) :
    s.next t .next = s := by
  have hnext : s.parser.next t = (.ok none, s.parser) := by rw [CapsuleParser.next, h]
  simp only [Session.next, hnext]

theorem session_next_some {s : Session} {kind : Nat} {value rest : List UInt8}
    (h : readHeader t s.parser.buf = some ((kind, value), rest)) :
    s.next t .next = {s with
      parser := ⟨rest⟩, returned := s.returned ++ (interpret kind value).toOption.toList} := by
  have hnext : s.parser.next t = ((interpret kind value).map some, ⟨rest⟩) := by
    rw [CapsuleParser.next, h]
  simp only [Session.next, hnext]
  cases interpret kind value with
  | error e => simp [Except.map, Except.toOption]
  | ok c => rfl

/-- What `next` takes off the buffer is the next capsule of the stream. -/
theorem inStep_next (frames : List (Frame t)) (s : Session) (h : InStep frames s) :
    InStep frames (s.next t .next) := by
  cases hread : readHeader t s.parser.buf with
  | none =>
    rw [session_next_none hread]
    exact h
  | some item =>
    obtain ⟨past, todo, hframes, htodo, hreturned⟩ := h
    obtain ⟨⟨kind, value⟩, rest⟩ := item
    rw [session_next_some hread]
    have hlater := (headers t).stable hread s.remaining
    rw [← htodo] at hlater
    cases todo with
    | nil => cases hlater
    | cons f todo =>
      have hfirst : (headers t).decode (encodeAll (f :: todo)) =
          some ((f.kind, f.value), encodeAll todo) := by
        rw [encodeAll_cons]
        exact f.readHeader_encode _
      obtain ⟨hitem, hrest⟩ := Prod.mk.inj (Option.some.inj (hfirst.symm.trans hlater))
      obtain ⟨rfl, rfl⟩ := Prod.mk.inj hitem
      refine ⟨past ++ [f], todo, by rw [hframes, List.append_assoc]; rfl, hrest, ?_⟩
      have hcapsule : capsulesOf [f] = (interpret f.kind f.value).toOption.toList := by
        rw [← Frame.capsule]
        cases hf : f.capsule.toOption <;> simp [capsulesOf, hf]
      rw [capsulesOf_append, hcapsule]
      exact hreturned.append (List.Sublist.refl _)

theorem inStep_step (frames : List (Frame t)) (a : Session.Action) (s : Session) (h : InStep frames s) :
    InStep frames (s.next t a) ↔ CutAtBoundary frames a s := by
  cases a with
  | push n => exact inStep_push frames n s h
  | next => exact iff_of_true (inStep_next frames s h) trivial

/-- What was returned is a subsequence of the stream's capsules. -/
theorem InStep.returned_sublist {frames : List (Frame t)} {s : Session} (h : InStep frames s) :
    s.returned.Sublist (capsulesOf frames) := by
  obtain ⟨past, todo, rfl, -, hreturned⟩ := h
  rw [capsulesOf_append]
  exact hreturned.trans (List.sublist_append_left ..)

/-- **The parser stays in step with its stream exactly if every overflow ends with a
capsule**: then, in every state of every run of pushes and `next` calls, headers are
read at the first byte of a capsule only and the capsules returned are a subsequence of
the stream's. -/
theorem inStep_iff_cut_at_boundary (t : Target) (frames : List (Frame t)) (as : List Session.Action) :
    (∀ s ∈ Machine.visited (Session.next t) (Session.initial frames) as,
        InStep frames s ∧ s.returned.Sublist (capsulesOf frames)) ↔
      Machine.Along (Session.next t) (CutAtBoundary frames) (Session.initial frames) as := by
  have hstart : InStep frames (Session.initial frames) := ⟨[], frames, rfl, rfl, List.nil_sublist _⟩
  rw [← Machine.visited_iff_along_of_step (fun a s => inStep_step frames a s) hstart as]
  exact ⟨fun h s hs => (h s hs).1, fun h s hs => ⟨h s hs, (h s hs).returned_sublist⟩⟩

end Stream

/-- Five body reads of the HTTP/3 transport before a drain: the fifth overflows. -/
theorem five_pushes (t : Target) (w : List UInt8) (h : w.length = 400005) :
    Machine.run (Session.next t) {remaining := w} (List.replicate 5 (.push 65535)) =
      {remaining := w.drop 327675} := by
  simp [Machine.run, Session.next, CapsuleParser.push, maxCapsuleBuf, h, List.replicate]

/-- A datagram of zeros, larger than the buffer. -/
def zeros : Frame .aarch64 :=
  { kind := 0, kindSize := .one, kind_fits := by decide
    value := List.replicate 400000 0, lenSize := .four
    len_fits := by rw [List.length_replicate]; decide
    addressable := by rw [List.length_replicate]; decide }

theorem zeros_encode : zeros.encode = [0, 0x80, 0x06, 0x1a, 0x80] ++ List.replicate 400000 0 := by
  have hvalue : zeros.value = List.replicate 400000 0 := rfl
  have hlen : zeros.value.length = 400000 := by rw [hvalue, List.length_replicate]
  rw [Frame.encode, hlen, hvalue]
  rfl

/-- After the overflow two bytes from the middle of the datagram are returned as an
empty datagram, which the stream does not have. -/
theorem overflow_fabricates : ¬ ∀ s ∈ Machine.visited (Session.next .aarch64) (Session.initial [zeros])
    (List.replicate 5 (.push 65535) ++ [.push 2, .next]),
    ∀ c ∈ s.returned, c ∈ capsulesOf [zeros] := by
  intro h
  have hlast := h _ (Machine.run_visited ..) (.datagram [])
  have hstream : encodeAll [zeros] = [0, 0x80, 0x06, 0x1a, 0x80] ++ List.replicate 400000 0 := by
    rw [encodeAll_cons, zeros_encode]
    exact List.append_nil _
  have hdrop : (encodeAll [zeros]).drop 327675 = 0 :: 0 :: List.replicate 72328 0 := by
    rw [hstream, List.drop_append, List.drop_replicate]
    rfl
  have hlength : (encodeAll [zeros]).length = 400005 := by
    rw [hstream, List.length_append, List.length_replicate]
    rfl
  have hfive := five_pushes .aarch64 (encodeAll [zeros]) hlength
  rw [Machine.run_append, Session.initial, hfive, hdrop] at hlast
  have hmem := hlast (by decide)
  have hcapsule : capsulesOf [zeros] = [.datagram (List.replicate 400000 0)] := rfl
  rw [hcapsule, List.mem_singleton] at hmem
  cases hmem

end Aether.Masque
