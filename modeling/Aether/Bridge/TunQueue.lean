import Aether.Machine.Run

/-! The queue in front of the TUN, and the streams that go through it.

Every packet for the device passes one bounded queue. Upstream data is cut into
segments by the reader thread of its session (`readFromSocks`) and offered; when
the queue is full the segment is gone, and `mySeq` moves on all the same. Control
packets are critical: one that finds the queue full takes the oldest packet out and
tries again. The two halves of that, and the writer thread that drains the queue,
are separate steps of separate threads, so any number of sessions may interleave.

`Gapless k` says that the data segments of session `k` that have left for the TUN,
followed by the queued ones, are consecutive from its first sequence number and
that no byte a number was consumed for is missing. A run keeps it exactly when no
segment of the session is discarded (`gapless_iff_kept`): none meets a full queue,
and none is the oldest packet when a critical one makes room. -/
namespace Aether.Bridge.Tun

/-! ### Packets -/

/-- Bytes to send: at least one. -/
abbrev Chunk := {bytes : List UInt8 // bytes ≠ []}

inductive Packet where
  /-- A data segment of a session, flags PSH and ACK. -/
  | data (session : Nat) (seq : BitVec 32) (payload : Chunk)
  /-- A segment of a session without payload: SYN-ACK, ACK, RST, FIN. -/
  | control (session : Nat) (seq : BitVec 32) (flags : BitVec 8)
  /-- A packet of no TCP session: a datagram, a DNS answer, the reset of a blocked flow. -/
  | other (bytes : List UInt8)
  deriving DecidableEq

def Packet.isData : Packet → Bool
  | .data .. => true
  | _ => false

/-- A packet that is enqueued as critical carries no stream data. -/
abbrev Critical := {p : Packet // p.isData = false}

/-! ### The machine -/

/-- Where the reader thread of a session is. -/
inductive Reader where
  /-- At the test of the outer loop. -/
  | head
  /-- In `ins.read`. -/
  | reading
  /-- In the inner loop, with what is left of the last read. -/
  | sending (rest : Chunk)
  /-- The loop is left and the session closed. -/
  | ended

/-- A session, as its reader thread sees it. -/
structure Upstream where
  isV6 : Bool
  mySeq : BitVec 32
  isClosed : Bool := false
  reader : Reader := .head
  /-- The sequence number of the first data byte. -/
  start : BitVec 32 := mySeq
  /-- Everything read from upstream. -/
  read : List UInt8 := []

structure State where
  mtu : Nat
  queue : List Packet := []
  /-- The packets that have left for the TUN. -/
  sent : List Packet := []
  upstream : Nat → Upstream
  /-- Critical packets whose first offer failed. -/
  evicting : List Critical := []
  /-- Critical packets that have made room and are offered again. -/
  retrying : List Critical := []

/-- The capacity of `tunOutputQueue`. -/
def queueCapacity : Nat := 32768

/-- The size of the buffer of `readFromSocks`. -/
def readSize : Nat := 131072

def maxPayload (mtu : Nat) (isV6 : Bool) : Nat :=
  if isV6 then max (mtu - 60) 20 else max (mtu - 40) 20

theorem maxPayload_pos (mtu : Nat) (isV6 : Bool) : 0 < maxPayload mtu isV6 := by
  unfold maxPayload
  split <;> omega

/-- The next segment of a chunk. -/
def Chunk.segment (n : Nat) (hn : 0 < n) (c : Chunk) : Chunk :=
  ⟨c.val.take n, by simp [List.take_eq_nil_iff, c.property]; omega⟩

/-- The inner loop goes on while bytes are left. -/
def Reader.rest (bytes : List UInt8) : Reader :=
  if h : bytes = [] then .head else .sending ⟨bytes, h⟩

def setUpstream (k : Nat) (u : Upstream) (s : State) : State :=
  {s with upstream := Function.update s.upstream k u}

/-- `offer`: a full queue refuses. -/
def offer (p : Packet) (s : State) : State :=
  if s.queue.length < queueCapacity then {s with queue := s.queue ++ [p]} else s

/-- The first offer of a critical packet. -/
def offerCritical (p : Critical) (s : State) : State :=
  if s.queue.length < queueCapacity then {s with queue := s.queue ++ [p.val]}
  else {s with evicting := s.evicting ++ [p]}

/-- The test of the outer loop. -/
def test (k : Nat) (s : State) : State :=
  let u := s.upstream k
  match u.reader with
  | .head => setUpstream k {u with reader := if u.isClosed then .ended else .reading} s
  | _ => s

/-- `ins.read` returned; no bytes is the end of the stream, answered with a FIN. -/
def read (k : Nat) (bytes : List UInt8) (s : State) : State :=
  let u := s.upstream k
  match u.reader with
  | .reading =>
    if h : bytes.take readSize = [] then
      setUpstream k {u with mySeq := u.mySeq + 1, reader := .ended, isClosed := true}
        (offerCritical ⟨.control k u.mySeq 0x11, rfl⟩ s)
    else
      setUpstream k
        {u with reader := .sending ⟨bytes.take readSize, h⟩, read := u.read ++ bytes.take readSize} s
  | _ => s

/-- `ins.read` threw. -/
def readFails (k : Nat) (s : State) : State :=
  let u := s.upstream k
  match u.reader with
  | .reading => setUpstream k {u with reader := .ended, isClosed := true} s
  | _ => s

/-- The session after `n` bytes of a chunk were made a segment. -/
def Upstream.cut (n : Nat) (c : Chunk) (u : Upstream) : Upstream :=
  {u with reader := .rest (c.val.drop n), mySeq := u.mySeq + BitVec.ofNat 32 (c.val.take n).length}

/-- One turn of the inner loop: a segment is offered, and `mySeq` moves past it
whether or not it was taken. -/
def segment (k : Nat) (s : State) : State :=
  let u := s.upstream k
  match u.reader with
  | .sending c =>
    let n := maxPayload s.mtu u.isV6
    setUpstream k (u.cut n c) (offer (.data k u.mySeq (c.segment n (maxPayload_pos ..))) s)
  | _ => s

/-- `poll` by a critical packet that met a full queue: the oldest packet goes. -/
def evict (i : Nat) (s : State) : State :=
  match s.evicting[i]? with
  | none => s
  | some p => {s with
      queue := s.queue.tail, evicting := s.evicting.eraseIdx i, retrying := s.retrying ++ [p]}

/-- The second offer of a critical packet; its result is not looked at. -/
def retry (i : Nat) (s : State) : State :=
  match s.retrying[i]? with
  | none => s
  | some p => {offer p.val s with retrying := s.retrying.eraseIdx i}

/-- The TUN writer takes a packet. -/
def drain (s : State) : State :=
  match s.queue with
  | [] => s
  | p :: rest => {s with queue := rest, sent := s.sent ++ [p]}

inductive Action where
  | test (k : Nat)
  | read (k : Nat) (bytes : List UInt8)
  | readFails (k : Nat)
  | segment (k : Nat)
  /-- Session `k` is closed by another thread. -/
  | close (k : Nat)
  /-- A datagram, offered without a second try. -/
  | datagram (bytes : List UInt8)
  | critical (p : Critical)
  | evict (i : Nat)
  | retry (i : Nat)
  | drain

def next (a : Action) (s : State) : State :=
  match a with
  | .test k => test k s
  | .read k bytes => read k bytes s
  | .readFails k => readFails k s
  | .segment k => segment k s
  | .close k => setUpstream k {s.upstream k with isClosed := true} s
  | .datagram bytes => offer (.other bytes) s
  | .critical p => offerCritical p s
  | .evict i => evict i s
  | .retry i => retry i s
  | .drain => drain s

/-- Sessions about to read from upstream, with an empty queue. -/
def initial (mtu : Nat) (isV6 : Nat → Bool) (seq : Nat → BitVec 32) : State :=
  {mtu := mtu, upstream := fun k => {isV6 := isV6 k, mySeq := seq k}}

/-! ### Streams without a gap -/

/-- A data segment of session `k`. -/
def Packet.dataOf? (k : Nat) : Packet → Option (BitVec 32 × Chunk)
  | .data j seq payload => if j = k then some (seq, payload) else none
  | _ => none

/-- The data segments of session `k`, in the order of the packets. -/
def segments (k : Nat) (ps : List Packet) : List (BitVec 32 × Chunk) := ps.filterMap (Packet.dataOf? k)

/-- The bytes of these segments. -/
def bytesOf (gs : List (BitVec 32 × Chunk)) : List UInt8 := (gs.map fun g => g.2.val).flatten

/-- Each segment starts at the sequence number after the last byte of the one before. -/
def Consecutive : BitVec 32 → List (BitVec 32 × Chunk) → Prop
  | _, [] => True
  | seq, g :: rest => g.1 = seq ∧ Consecutive (seq + BitVec.ofNat 32 g.2.val.length) rest

/-- What the reader thread has read and not cut into segments. -/
def Upstream.buffer (u : Upstream) : List UInt8 :=
  match u.reader with
  | .sending c => c.val
  | _ => []

/-- The segments of session `k` that have left for the TUN, and those still queued. -/
def issued (k : Nat) (s : State) : List (BitVec 32 × Chunk) := segments k s.sent ++ segments k s.queue

/-- The segments are consecutive, they are a first part of what was read, all of it
but the thread's own buffer, and `mySeq` stands after them (after the FIN at the
end). -/
structure Covers (u : Upstream) (gs : List (BitVec 32 × Chunk)) : Prop where
  consecutive : Consecutive u.start gs
  complete : bytesOf gs ++ u.buffer = u.read
  number : u.reader ≠ .ended → u.mySeq = u.start + BitVec.ofNat 32 (bytesOf gs).length

def Gapless (k : Nat) (s : State) : Prop := Covers (s.upstream k) (issued k s)

/-- The condition on a step: a data segment of session `k` finds a free slot, and the
packet that makes room for a critical one is not a data segment of session `k`. -/
def Keeps (k : Nat) (a : Action) (s : State) : Prop :=
  match a with
  | .segment j => j = k → (s.upstream k).buffer ≠ [] → s.queue.length < queueCapacity
  | .evict i => i < s.evicting.length → segments k (s.queue.take 1) = []
  | _ => True

/-! ### Segments -/

@[simp] theorem bytesOf_append (gs hs : List (BitVec 32 × Chunk)) :
    bytesOf (gs ++ hs) = bytesOf gs ++ bytesOf hs := by
  simp [bytesOf]

@[simp] theorem bytesOf_singleton (g : BitVec 32 × Chunk) : bytesOf [g] = g.2.val := by
  simp [bytesOf]

theorem bytesOf_eq_nil {gs : List (BitVec 32 × Chunk)} (h : bytesOf gs = []) : gs = [] := by
  cases gs with
  | nil => rfl
  | cons g rest => simp [bytesOf, g.2.property] at h

@[simp] theorem segments_append (k : Nat) (ps qs : List Packet) :
    segments k (ps ++ qs) = segments k ps ++ segments k qs := List.filterMap_append

theorem segments_cons (k : Nat) (p : Packet) (ps : List Packet) :
    segments k (p :: ps) = segments k [p] ++ segments k ps := segments_append k [p] ps

/-- A segment that starts where the others end goes on with them. -/
theorem Consecutive.append {seq : BitVec 32} {gs hs : List (BitVec 32 × Chunk)} :
    Consecutive seq (gs ++ hs) ↔
      Consecutive seq gs ∧ Consecutive (seq + BitVec.ofNat 32 (bytesOf gs).length) hs := by
  induction gs generalizing seq with
  | nil => simp [Consecutive, bytesOf]
  | cons g rest ih =>
    have hlen : (bytesOf (g :: rest)).length = g.2.val.length + (bytesOf rest).length := by
      simp [bytesOf]
    simp only [List.cons_append, Consecutive, ih, hlen, BitVec.ofNat_add, BitVec.add_assoc, and_assoc]

/-! ### What a step does to a session -/

theorem issued_offer {k : Nat} {p : Packet} (hp : segments k [p] = []) (s : State) :
    issued k (offer p s) = issued k s := by
  unfold offer
  split
  · simp [issued, hp]
  · rfl

theorem Critical.segments_eq (k : Nat) (p : Critical) : segments k [p.val] = [] := by
  obtain ⟨p, hp⟩ := p
  cases p with
  | data => cases hp
  | control => rfl
  | other => rfl

theorem issued_offerCritical (k : Nat) (p : Critical) (s : State) :
    issued k (offerCritical p s) = issued k s := by
  unfold offerCritical
  split
  · simp [issued, p.segments_eq]
  · rfl

theorem upstream_offer (p : Packet) (s : State) : (offer p s).upstream = s.upstream := by
  unfold offer
  split <;> rfl

theorem upstream_offerCritical (p : Critical) (s : State) :
    (offerCritical p s).upstream = s.upstream := by
  unfold offerCritical
  split <;> rfl

/-- A step that changes neither the session nor its segments. -/
theorem gapless_congr {k : Nat} {s t : State} (hu : t.upstream k = s.upstream k)
    (hg : issued k t = issued k s) : Gapless k t ↔ Gapless k s := by
  rw [Gapless, Gapless, hu, hg]

theorem upstream_self (k : Nat) (u : Upstream) (s : State) : (setUpstream k u s).upstream k = u :=
  Function.update_self ..

theorem upstream_other {j k : Nat} (h : j ≠ k) (u : Upstream) (s : State) :
    (setUpstream j u s).upstream k = s.upstream k :=
  Function.update_of_ne (Ne.symm h) ..

theorem issued_setUpstream (j k : Nat) (u : Upstream) (s : State) :
    issued k (setUpstream j u s) = issued k s := rfl

/-- What a session does leaves the others alone. -/
theorem gapless_other {j k : Nat} (h : j ≠ k) (u : Upstream) {s t : State}
    (hu : t.upstream = s.upstream) (hg : issued k t = issued k s) :
    Gapless k (setUpstream j u t) ↔ Gapless k s :=
  gapless_congr (by rw [upstream_other h, hu]) hg

/-- The thread of the session moves on without a segment. -/
theorem Covers.moved {u v : Upstream} {gs : List (BitVec 32 × Chunk)} (h : Covers u gs)
    (hstart : v.start = u.start) (hbytes : ∃ more, v.buffer = u.buffer ++ more ∧ v.read = u.read ++ more)
    (hseq : v.reader ≠ .ended → u.reader ≠ .ended ∧ v.mySeq = u.mySeq) : Covers v gs := by
  obtain ⟨more, hbuffer, hread⟩ := hbytes
  refine ⟨hstart ▸ h.consecutive, ?_, fun hv => ?_⟩
  · rw [hbuffer, hread, ← List.append_assoc, h.complete]
  · rw [(hseq hv).2, hstart, h.number (hseq hv).1]

theorem test_gapless (j k : Nat) (s : State) (h : Gapless k s) : Gapless k (test j s) := by
  unfold test
  dsimp only
  split
  · rename_i hr
    by_cases hj : j = k
    · subst hj
      rw [Gapless, upstream_self, issued_setUpstream]
      refine h.moved rfl ⟨[], ?_, by simp⟩ fun _ => ⟨by simp [hr], rfl⟩
      cases hc : (s.upstream j).isClosed <;> simp [Upstream.buffer, hr]
    · exact (gapless_other hj _ rfl rfl).mpr h
  · exact h

theorem read_gapless (j k : Nat) (bytes : List UInt8) (s : State) (h : Gapless k s) :
    Gapless k (read j bytes s) := by
  unfold read
  dsimp only
  split
  · rename_i hr
    split
    · have hu := upstream_offerCritical ⟨.control j (s.upstream j).mySeq 0x11, rfl⟩ s
      have hg := issued_offerCritical k ⟨.control j (s.upstream j).mySeq 0x11, rfl⟩ s
      by_cases hj : j = k
      · subst hj
        rw [Gapless, upstream_self, issued_setUpstream, hg]
        exact h.moved rfl ⟨[], by simp [Upstream.buffer, hr], by simp⟩ fun hv => absurd rfl hv
      · exact (gapless_other hj _ hu hg).mpr h
    · by_cases hj : j = k
      · subst hj
        rw [Gapless, upstream_self, issued_setUpstream]
        refine h.moved rfl ⟨bytes.take readSize, by simp [Upstream.buffer, hr], rfl⟩ fun _ => ?_
        exact ⟨by simp [hr], rfl⟩
      · exact (gapless_other hj _ rfl rfl).mpr h
  · exact h

theorem readFails_gapless (j k : Nat) (s : State) (h : Gapless k s) : Gapless k (readFails j s) := by
  unfold readFails
  dsimp only
  split
  · rename_i hr
    by_cases hj : j = k
    · subst hj
      rw [Gapless, upstream_self, issued_setUpstream]
      exact h.moved rfl ⟨[], by simp [Upstream.buffer, hr], by simp⟩ fun hv => absurd rfl hv
    · exact (gapless_other hj _ rfl rfl).mpr h
  · exact h

theorem close_gapless (j k : Nat) (s : State) (h : Gapless k s) :
    Gapless k (setUpstream j {s.upstream j with isClosed := true} s) := by
  by_cases hj : j = k
  · subst hj
    rw [Gapless, upstream_self, issued_setUpstream]
    exact h.moved rfl ⟨[], by simp [Upstream.buffer], by simp⟩ fun hv => ⟨hv, rfl⟩
  · exact (gapless_other hj _ rfl rfl).mpr h

theorem drain_gapless (k : Nat) (s : State) (h : Gapless k s) : Gapless k (drain s) := by
  unfold drain
  split
  · exact h
  · rename_i p rest hq
    refine (gapless_congr ?_ ?_).mpr h
    · rfl
    · simp only [issued, hq, segments_append, List.append_assoc]
      rw [← segments_cons k p rest]

theorem retry_gapless (i k : Nat) (s : State) (h : Gapless k s) : Gapless k (retry i s) := by
  unfold retry
  split
  · exact h
  · rename_i p hp
    exact (gapless_congr (congrFun (upstream_offer p.val s) k) (issued_offer (p.segments_eq k) s)).mpr h

/-! ### The two ways to lose a segment -/

/-- Evicting keeps the stream exactly when the packet is not one of its segments. -/
theorem evict_gapless (i k : Nat) (s : State) (h : Gapless k s) :
    Gapless k (evict i s) ↔ (i < s.evicting.length → segments k (s.queue.take 1) = []) := by
  unfold evict
  split
  · rename_i hi
    have hlen := List.getElem?_eq_none_iff.mp hi
    exact ⟨fun _ hlt => by omega, fun _ => h⟩
  · rename_i p hi
    have hlt : i < s.evicting.length := (List.getElem?_eq_some_iff.mp hi).1
    have hqueue : segments k s.queue = segments k (s.queue.take 1) ++ segments k s.queue.tail := by
      cases s.queue with
      | nil => rfl
      | cons p rest => exact segments_cons k p rest
    constructor
    · intro hafter _
      have hbefore := h.complete
      have hnow : bytesOf (segments k s.sent ++ segments k s.queue.tail) ++ (s.upstream k).buffer =
        (s.upstream k).read := hafter.complete
      rw [issued, hqueue, ← hnow] at hbefore
      have hlength := congrArg List.length hbefore
      simp only [bytesOf_append, List.length_append] at hlength
      exact bytesOf_eq_nil (List.eq_nil_of_length_eq_zero (by omega))
    · intro hoff
      refine (gapless_congr ?_ ?_).mpr h
      · rfl
      · rw [issued, issued, hqueue, hoff hlt, List.nil_append]

/-- What is left after a segment is what the thread goes on with. -/
theorem cut_buffer (n : Nat) (c : Chunk) (u : Upstream) : (u.cut n c).buffer = c.val.drop n := by
  unfold Upstream.buffer Upstream.cut Reader.rest
  by_cases h : c.val.drop n = [] <;> simp [h]

/-- The thread's next segment is its stream's next one, if the queue takes it. -/
theorem own_segment_gapless (k : Nat) (s : State) (c : Chunk) (hr : (s.upstream k).reader = .sending c)
    (h : Gapless k s) (n : Nat) (hn : 0 < n) :
    Gapless k (setUpstream k ((s.upstream k).cut n c)
      (offer (.data k (s.upstream k).mySeq (c.segment n hn)) s)) ↔ s.queue.length < queueCapacity := by
  have hcomplete : bytesOf (issued k s) ++ c.val = (s.upstream k).read := by
    simpa [Upstream.buffer, hr] using h.complete
  have hnumber := h.number (by simp [hr])
  rw [Gapless, upstream_self, issued_setUpstream]
  constructor
  · intro hafter
    by_contra hfull
    have hnow := hafter.complete
    rw [cut_buffer, offer, if_neg hfull] at hnow
    replace hnow := hnow.trans hcomplete.symm
    have hlength := congrArg List.length hnow
    have hpos := List.length_pos_iff.mpr c.property
    simp only [List.length_append, List.length_drop] at hlength
    omega
  · intro hroom
    have hissued : issued k (offer (.data k (s.upstream k).mySeq (c.segment n hn)) s) =
        issued k s ++ [((s.upstream k).mySeq, c.segment n hn)] := by
      simp [offer, hroom, issued, segments, Packet.dataOf?]
    rw [hissued]
    refine ⟨?_, ?_, fun _ => ?_⟩
    · exact Consecutive.append.mpr ⟨h.consecutive, hnumber, trivial⟩
    · rw [cut_buffer, bytesOf_append, bytesOf_singleton, List.append_assoc]
      show _ ++ (c.val.take n ++ c.val.drop n) = (s.upstream k).read
      rw [List.take_append_drop, hcomplete]
    · show (s.upstream k).mySeq + BitVec.ofNat 32 (c.val.take n).length = (s.upstream k).start + _
      rw [hnumber, bytesOf_append, bytesOf_singleton, List.length_append, BitVec.ofNat_add,
        BitVec.add_assoc]
      rfl

/-- The segment of a session is its stream's next one, if the queue takes it. -/
theorem segment_gapless (j k : Nat) (s : State) (h : Gapless k s) :
    Gapless k (segment j s) ↔
      (j = k → (s.upstream k).buffer ≠ [] → s.queue.length < queueCapacity) := by
  by_cases hj : j = k
  · subst hj
    unfold segment
    dsimp only
    split
    · rename_i c hr
      have hbuffer : (s.upstream j).buffer = c.val := by simp [Upstream.buffer, hr]
      simp only [hbuffer, forall_const]
      exact (own_segment_gapless j s c hr h _ _).trans ⟨fun hq _ => hq, fun hq => hq c.property⟩
    · rename_i hr
      have hbuffer : (s.upstream j).buffer = [] := by
        unfold Upstream.buffer
        split
        · exact absurd ‹_› (hr _)
        · rfl
      exact iff_of_true h fun _ hne => absurd hbuffer hne
  · refine iff_of_true ?_ fun he => absurd he hj
    unfold segment
    dsimp only
    split
    · refine (gapless_other hj _ (upstream_offer _ s) (issued_offer ?_ s)).mpr h
      simp [segments, Packet.dataOf?, hj]
    · exact h

/-- A step keeps the stream of session `k` exactly when it discards none of its segments. -/
theorem gapless_step (k : Nat) (a : Action) (s : State) (h : Gapless k s) :
    Gapless k (next a s) ↔ Keeps k a s := by
  cases a with
  | test j => exact iff_of_true (test_gapless j k s h) trivial
  | read j bytes => exact iff_of_true (read_gapless j k bytes s h) trivial
  | readFails j => exact iff_of_true (readFails_gapless j k s h) trivial
  | segment j => exact segment_gapless j k s h
  | close j => exact iff_of_true (close_gapless j k s h) trivial
  | datagram bytes =>
    have hs : Gapless k (offer (.other bytes) s) :=
      (gapless_congr (congrFun (upstream_offer _ s) k) (issued_offer rfl s)).mpr h
    exact iff_of_true hs trivial
  | critical p =>
    have hs : Gapless k (offerCritical p s) :=
      (gapless_congr (congrFun (upstream_offerCritical p s) k) (issued_offerCritical k p s)).mpr h
    exact iff_of_true hs trivial
  | evict i => exact evict_gapless i k s h
  | retry i => exact iff_of_true (retry_gapless i k s h) trivial
  | drain => exact iff_of_true (drain_gapless k s h) trivial

/-! ### Whole runs -/

/-- What has left for the TUN is a gap-free first part of what was read. -/
theorem Gapless.left {k : Nat} {s : State} (h : Gapless k s) :
    Consecutive (s.upstream k).start (segments k s.sent) ∧
      bytesOf (segments k s.sent) <+: (s.upstream k).read := by
  refine ⟨(Consecutive.append.mp h.consecutive).1, ?_⟩
  rw [← h.complete, issued, bytesOf_append, List.append_assoc]
  exact List.prefix_append ..

theorem initial_gapless (mtu : Nat) (isV6 : Nat → Bool) (seq : Nat → BitVec 32) (k : Nat) :
    Gapless k (initial mtu isV6 seq) :=
  ⟨trivial, rfl, fun _ => by simp [initial, issued, segments, bytesOf]⟩

/-- **The stream of a session stays whole exactly in the runs that discard none of its
segments**: at every moment of every interleaving, what the client can get is a gap-free
first part of what was read, if and only if each segment of the session found a slot in
the queue and none was evicted for a control packet. -/
theorem gapless_iff_kept (mtu : Nat) (isV6 : Nat → Bool) (seq : Nat → BitVec 32) (k : Nat)
    (as : List Action) :
    (∀ s ∈ Machine.visited next (initial mtu isV6 seq) as, Gapless k s) ↔
      Machine.Along next (Keeps k) (initial mtu isV6 seq) as :=
  Machine.visited_iff_along_of_step (gapless_step k) (initial_gapless mtu isV6 seq k) as

/-- Datagrams fill the queue. -/
theorem run_datagrams (n : Nat) (s : State) (h : s.queue.length + n ≤ queueCapacity) :
    Machine.run next s (List.replicate n (.datagram [])) =
      {s with queue := s.queue ++ List.replicate n (.other [])} := by
  induction n generalizing s with
  | zero => simp [Machine.run]
  | succ n ih =>
    have hroom : s.queue.length < queueCapacity := by omega
    have hoffer : next (.datagram []) s = {s with queue := s.queue ++ [.other []]} := if_pos hroom
    rw [List.replicate_succ, Machine.run, hoffer, ih _ (by simp; omega)]
    simp [List.replicate_succ]

/-- In front of a full queue a session reads a byte and sends it. -/
theorem full_queue_refuses (q : List Packet) (hfull : q.length = queueCapacity)
    (hq : segments 0 q = []) :
    ¬ Gapless 0 (Machine.run next {initial 1280 (fun _ => false) (fun _ => 100001) with queue := q}
      [.test 0, .read 0 [65], .segment 0]) := by
  intro h
  have hcomplete := h.complete
  simp [Machine.run, next, test, read, segment, initial, offer, setUpstream, readSize, issued,
    Upstream.cut, Upstream.buffer, Reader.rest, maxPayload, hfull] at hcomplete
  rw [hq] at hcomplete
  simp [segments, bytesOf] at hcomplete

/-- A full queue refuses the first segment of a session: its byte has a sequence number
and will never arrive. -/
theorem segment_refused : ¬ ∀ s ∈ Machine.visited next (initial 1280 (fun _ => false) fun _ => 100001)
    (List.replicate queueCapacity (.datagram []) ++ [.test 0, .read 0 [65], .segment 0]),
    Gapless 0 s := by
  intro h
  have hlast := h _ (Machine.run_visited ..)
  rw [Machine.run_append, run_datagrams _ _ (by simp [initial])] at hlast
  refine full_queue_refuses _ (by simp [initial]) ?_ hlast
  simp [segments, initial, List.filterMap_replicate, Packet.dataOf?]

end Aether.Bridge.Tun
