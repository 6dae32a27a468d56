import Aether.Bridge.TcpSession

/-! What the acknowledgements of a session promise the client.

A segment occupies one sequence number for each payload byte and one more for its
FIN. When a session answers a segment by moving its acknowledgement forward, the
numbers in between tell the client which bytes it need not send again: `Client`
keeps those bytes and counts the FINs among them, from the acknowledgement
numbers alone.

`Intact` says that these bytes are the ones the session has: written upstream, in
the writer's hand, or queued, in this order. It survives every interleaving of the
two threads as long as no in-order segment carries both payload and FIN and no write
throws with bytes left, and it fails as soon as either happens (`intact_iff_clean`):
the session acknowledges the first payload byte in the place of the FIN and drops it;
and the rest of the chunk that a write throws in is in nobody's hand. -/
namespace Aether.Bridge.Session

/-! ### The client's view -/

/-- What the acknowledgements have covered so far. -/
structure Client where
  covered : List UInt8 := []
  fins : Nat := 0

/-- The acknowledgement moved from `before` to `after` in answer to `g`, whose first
sequence number is `before`: that many of the segment's bytes are covered, and its
FIN when the move goes past all of them. -/
def Client.acked (g : Segment) (before after : BitVec 32) (c : Client) : Client :=
  { covered := c.covered ++ g.bytes.take (after - before).toNat
    fins := c.fins + if g.isFin ∧ g.bytes.length < (after - before).toNat then 1 else 0 }

/-- A session and its client's view of it. -/
structure System where
  session : State
  client : Client := {}

def System.next (a : Action) (y : System) : System :=
  let s := Session.next a y.session
  { session := s
    client := match a, y.session.reader with
      | .segment g, .idle => y.client.acked g y.session.myAck s.myAck
      | .acknowledge, .offered g _ => y.client.acked g y.session.myAck s.myAck
      | _, _ => y.client }

def System.initial (seq : BitVec 32) : System := {session := Session.initial seq}

/-! ### What the session holds -/

/-- The chunk the session's thread has taken from the queue and not written. -/
def inHand (s : State) : List UInt8 :=
  match s.writer with
  | .sniffing (some first) => first
  | .writing data _ => data
  | _ => []

/-- Everything taken from the client: written, in hand, queued. -/
def accepted (s : State) : List UInt8 := s.written ++ inHand s ++ s.queue.flatten

/-- The payload queued by the segment that is being handled, until it is acknowledged. -/
def unacknowledged (s : State) : List UInt8 :=
  match s.reader with
  | .idle => []
  | .offered _ payload => payload

/-- The acknowledged bytes, followed by those of a segment that is still being
handled, are exactly the accepted ones; the acknowledgement number counts them
and the FINs from the first sequence number on. -/
structure Intact (y : System) : Prop where
  bytes : y.client.covered ++ unacknowledged y.session = accepted y.session
  number : y.session.myAck =
    y.session.initialSeq + 1 + BitVec.ofNat 32 (y.client.covered.length + y.client.fins)

/-- Between segments and between writes: acknowledged is written, then queued. -/
theorem Intact.settled {y : System} (h : Intact y) (hr : y.session.reader = .idle)
    (hw : inHand y.session = []) :
    y.client.covered = y.session.written ++ y.session.queue.flatten := by
  have hbytes := h.bytes
  simpa [unacknowledged, hr, accepted, hw] using hbytes

/-- The segment being handled starts at the acknowledgement number. -/
def InOrder (y : System) : Prop :=
  ∀ g payload, y.session.reader = .offered g payload →
    g.seq = y.session.myAck ∧ g.payload = some payload ∧ g.isFin = false

/-- The segment is acknowledged for its FIN while it also carries payload. -/
def FinWithPayload (g : Segment) (s : State) : Prop :=
  s.reader = .idle ∧ s.isClosed = false ∧ s.connected = true ∧ g.isRst = false ∧ g.isFin = true ∧
    g.seq = s.myAck ∧ g.bytes ≠ []

/-- The write throws before all of its chunk is written. -/
def CutShort (fails : Option Nat) (s : State) : Prop :=
  ∃ data count written, s.writer = .writing data count ∧ fails = some written ∧ written < data.length

/-- The condition on a step: no in-order segment with both payload and FIN, and no write
that throws with bytes left. -/
def Clean (a : Action) (y : System) : Prop :=
  match a with
  | .segment g => ¬ FinWithPayload g y.session
  | .write fails => ¬ CutShort fails y.session
  | _ => True

/-! ### The session's thread keeps what was accepted -/

/-- What the steps of `run` leave alone. -/
structure Kept (s t : State) : Prop where
  accepted : accepted t = accepted s
  myAck : t.myAck = s.myAck
  initialSeq : t.initialSeq = s.initialSeq
  reader : t.reader = s.reader

theorem Kept.refl (s : State) : Kept s s := ⟨rfl, rfl, rfl, rfl⟩

theorem kept_of_hand {s t : State} (hw : t.written ++ inHand t = s.written ++ inHand s)
    (hq : t.queue = s.queue) (ha : t.myAck = s.myAck) (hi : t.initialSeq = s.initialSeq)
    (hr : t.reader = s.reader) : Kept s t :=
  ⟨by rw [accepted, accepted, hw, hq], ha, hi, hr⟩

theorem shutdownIfDone_fields (s : State) : (shutdownIfDone s).written = s.written ∧
    (shutdownIfDone s).queue = s.queue ∧ (shutdownIfDone s).myAck = s.myAck ∧
    (shutdownIfDone s).initialSeq = s.initialSeq ∧ (shutdownIfDone s).reader = s.reader := by
  unfold shutdownIfDone
  split <;> exact ⟨rfl, rfl, rfl, rfl, rfl⟩

theorem sniff_kept (s : State) (h : s.writer = .routing) : Kept s (sniff s) := by
  unfold sniff
  split
  · exact kept_of_hand (by simp [inHand, h]) rfl rfl rfl rfl
  · rename_i first rest hq
    exact ⟨by simp [accepted, inHand, h, hq], rfl, rfl, rfl⟩

/-- There is no packet to put back. -/
theorem putBack_kept {s : State} (hs : Starved s) (first : Option (List UInt8)) (h : s.writer = .sniffing first) :
    Kept s (putBack first s) := by
  obtain ⟨rfl, -⟩ := hs.sniffing first h
  exact kept_of_hand (by simp [putBack, inHand, h]) rfl rfl rfl rfl

theorem finish_kept (s : State) (h : inHand s = []) : Kept s (finish s) :=
  kept_of_hand (by rw [h]; rfl) rfl rfl rfl rfl

theorem connect_kept (s : State) (h : inHand s = []) : Kept s (connect s) := by
  unfold connect
  dsimp only
  split
  · exact kept_of_hand (by rw [h]; rfl) rfl rfl rfl rfl
  · exact kept_of_hand (by rw [h]; rfl) rfl rfl rfl rfl

theorem head_kept (s : State) (h : inHand s = []) : Kept s {shutdownIfDone s with writer := .head} := by
  obtain ⟨hw, hq, ha, hi, hr⟩ := shutdownIfDone_fields s
  refine kept_of_hand ?_ hq ha hi hr
  show (shutdownIfDone s).written ++ [] = _
  rw [hw, h]

theorem pollHead_kept (s : State) (h : s.writer = .head) : Kept s (pollHead s) := by
  have hand : inHand s = [] := by simp [inHand, h]
  unfold pollHead
  split
  · exact finish_kept s hand
  · split
    · exact head_kept s hand
    · rename_i data rest hq
      exact ⟨by simp [accepted, inHand, h, hq], rfl, rfl, rfl⟩

theorem pollBatch_kept (s : State) (count : Nat) (h : s.writer = .batch count) :
    Kept s (pollBatch count s) := by
  unfold pollBatch
  split
  · split
    · exact kept_of_hand (by simp [inHand, h]) rfl rfl rfl rfl
    · rename_i data rest hq
      exact ⟨by simp [accepted, inHand, h, hq], rfl, rfl, rfl⟩
  · exact kept_of_hand (by simp [inHand, h]) rfl rfl rfl rfl

theorem write_kept (s : State) (data : List UInt8) (count : Nat) (fails : Option Nat)
    (h : s.writer = .writing data count) (hwhole : ¬ CutShort fails s) : Kept s (write data count fails s) := by
  cases fails with
  | none => exact kept_of_hand (by simp [write, inHand, h]) rfl rfl rfl rfl
  | some k =>
    have hall : data.length ≤ k := by
      by_contra hlt
      exact hwhole ⟨data, count, k, h, rfl, Nat.lt_of_not_le hlt⟩
    exact kept_of_hand (by simp [write, inHand, h, finish, close, List.take_of_length_le hall]) rfl rfl rfl rfl

theorem flush_kept (s : State) (fails : Bool) (h : s.writer = .flushing) : Kept s (flush fails s) := by
  have hand : inHand s = [] := by simp [inHand, h]
  unfold flush
  split
  · exact finish_kept s hand
  · exact head_kept s hand

/-- A step that is not the TUN reader's leaves the accepted bytes and the
acknowledgement as they are, unless it is a write that is cut short. -/
theorem next_kept (a : Action) (s : State) (hs : Starved s) (hseg : ∀ g, a ≠ .segment g) (hack : a ≠ .acknowledge)
    (hwhole : ∀ fails, a = .write fails → ¬ CutShort fails s) : Kept s (next a s) := by
  unfold next
  split
  · exact absurd rfl (hseg _)
  · exact absurd rfl hack
  · exact sniff_kept s ‹_›
  · exact putBack_kept hs _ ‹_›
  · exact finish_kept s (by simp [inHand, *])
  · exact finish_kept s (by simp [inHand, *])
  · exact connect_kept s (by simp [inHand, *])
  · exact connect_kept s (by simp [inHand, *])
  · exact pollHead_kept s ‹_›
  · exact pollBatch_kept s _ ‹_›
  · exact write_kept s _ _ _ ‹_› (hwhole _ rfl)
  · exact flush_kept s _ ‹_›
  · exact finish_kept s (by simp [inHand, *])
  · exact ⟨rfl, rfl, rfl, rfl⟩
  · exact ⟨rfl, rfl, rfl, rfl⟩
  · exact Kept.refl s

/-! ### The TUN reader -/

theorem next_segment_idle (g : Segment) (s : State) (h : s.reader = .idle) :
    next (.segment g) s = handleFromTun g s := by
  simp only [next, h]

theorem next_segment_busy (g : Segment) (s : State) (h : s.reader ≠ .idle) :
    next (.segment g) s = s := by
  cases hr : s.reader with
  | idle => exact absurd hr h
  | offered g' p => simp only [next, hr]

/-- What handling a segment can do to the acknowledgement and the accepted bytes. -/
theorem handleFromTun_cases (g : Segment) (s : State) (hr : s.reader = .idle) :
    -- nothing is acknowledged or queued
    (Kept s (handleFromTun g s) ∧ ¬ (s.isClosed = false ∧ s.connected = true ∧ g.isRst = false ∧
        g.isFin = true ∧ g.seq = s.myAck)) ∨
    -- the FIN is acknowledged
    (s.isClosed = false ∧ s.connected = true ∧ g.isRst = false ∧ g.isFin = true ∧ g.seq = s.myAck ∧
      accepted (handleFromTun g s) = accepted s ∧ (handleFromTun g s).myAck = s.myAck + 1 ∧
      (handleFromTun g s).initialSeq = s.initialSeq ∧ (handleFromTun g s).reader = .idle) ∨
    -- the payload is queued
    (g.isFin = false ∧ g.seq = s.myAck ∧ ∃ payload, g.payload = some payload ∧
      accepted (handleFromTun g s) = accepted s ++ payload ∧
      (handleFromTun g s).myAck = s.myAck ∧ (handleFromTun g s).initialSeq = s.initialSeq ∧
      (handleFromTun g s).reader = .offered g payload) := by
  unfold handleFromTun
  cases hc : s.isClosed
  · cases hrst : g.isRst
    · cases hcon : s.connected
      · left
        refine ⟨?_, by simp⟩
        cases g.isFin <;> exact ⟨rfl, rfl, rfl, rfl⟩
      · cases hfin : g.isFin
        · cases hp : g.payload with
          | none => exact .inl ⟨⟨rfl, rfl, rfl, rfl⟩, by simp⟩
          | some payload =>
            by_cases hseq : g.seq = s.myAck
            · by_cases hq : s.queue.length < queueCapacity
              · right; right
                refine ⟨rfl, hseq, payload, rfl, ?_⟩
                simp [hseq, hq, accepted, inHand]
              · left
                simp only [Bool.false_eq_true, if_false, Bool.not_true, hseq, if_true, hq]
                exact ⟨Kept.refl s, by simp⟩
            · left
              simp only [Bool.false_eq_true, if_false, Bool.not_true, hseq]
              exact ⟨⟨rfl, rfl, rfl, rfl⟩, by simp⟩
        · by_cases hseq : g.seq = s.myAck
          · right; left
            simp only [Bool.false_eq_true, if_false, Bool.not_true, if_true, hseq]
            exact ⟨trivial, trivial, trivial, trivial, trivial, rfl, rfl, rfl, hr⟩
          · left
            simp only [Bool.false_eq_true, if_false, Bool.not_true, if_true, hseq]
            exact ⟨⟨rfl, rfl, rfl, rfl⟩, by simp⟩
    · exact .inl ⟨⟨rfl, rfl, rfl, rfl⟩, by simp⟩
  · exact .inl ⟨Kept.refl s, by simp⟩

/-! ### One step -/

@[simp] theorem acked_same (g : Segment) (ack : BitVec 32) (c : Client) : c.acked g ack ack = c := by
  simp [Client.acked]

/-- An acknowledgement that moves by one covers a lone FIN, or the first byte. -/
theorem acked_one (g : Segment) (ack : BitVec 32) (c : Client) (hfin : g.isFin = true) :
    c.acked g ack (ack + 1) =
      ⟨c.covered ++ g.bytes.take 1, c.fins + if g.bytes.length < 1 then 1 else 0⟩ := by
  have hmove : (ack + 1 - ack).toNat = 1 := by
    rw [BitVec.add_comm, BitVec.add_sub_cancel]
    rfl
  simp only [Client.acked, hmove, hfin, true_and]

/-- An acknowledgement of a payload covers it. -/
theorem acked_payload (g : Segment) (payload : List UInt8) (ack : BitVec 32) (c : Client)
    (hfin : g.isFin = false) (hp : g.payload = some payload) :
    c.acked g ack (ack + BitVec.ofNat 32 payload.length) = ⟨c.covered ++ payload, c.fins⟩ := by
  have hbytes : g.bytes = payload := by simp [Segment.bytes, hp]
  have hlength := g.size payload hp
  have hmove : (ack + BitVec.ofNat 32 payload.length - ack).toNat = payload.length := by
    rw [BitVec.add_comm, BitVec.add_sub_cancel, BitVec.toNat_ofNat]
    exact Nat.mod_eq_of_lt (by omega)
  rw [Client.acked, hmove, hbytes]
  simp [hfin]

theorem intact_of_kept {y : System} {s : State} (hk : Kept y.session s) :
    Intact ⟨s, y.client⟩ ↔ Intact y := by
  have hu : unacknowledged s = unacknowledged y.session := by rw [unacknowledged, hk.reader, unacknowledged]
  constructor
  · intro h
    exact ⟨by rw [← hu, ← hk.accepted]; exact h.bytes, by rw [← hk.myAck, ← hk.initialSeq]; exact h.number⟩
  · intro h
    exact ⟨by rw [hu, hk.accepted]; exact h.bytes, by rw [hk.myAck, hk.initialSeq]; exact h.number⟩

/-- Handling a segment keeps the promise, unless it carries payload and FIN in order. -/
theorem intact_segment (g : Segment) (y : System) (hr : y.session.reader = .idle) (h : Intact y) :
    Intact (y.next (.segment g)) ↔ ¬ FinWithPayload g y.session := by
  have hnext : y.next (.segment g) =
      ⟨handleFromTun g y.session, y.client.acked g y.session.myAck (handleFromTun g y.session).myAck⟩ := by
    simp only [System.next, next_segment_idle g _ hr, hr]
  have hcovered : y.client.covered = accepted y.session := by
    simpa [unacknowledged, hr] using h.bytes
  rw [hnext]
  rcases handleFromTun_cases g y.session hr with ⟨hk, hno⟩ | ⟨hc, hcon, hrst, hfin, hseq, hacc, hack, hinit, hr'⟩ |
    ⟨hfin, hseq, payload, hp, hacc, hack, hinit, hr'⟩
  · rw [hk.myAck, acked_same, intact_of_kept hk]
    refine ⟨fun _ hf => hno ?_, fun _ => h⟩
    exact ⟨hf.2.1, hf.2.2.1, hf.2.2.2.1, hf.2.2.2.2.1, hf.2.2.2.2.2.1⟩
  · rw [hack, acked_one g _ _ hfin]
    have hiff : ¬ FinWithPayload g y.session ↔ g.bytes = [] := by
      simp [FinWithPayload, hr, hc, hcon, hrst, hfin, hseq]
    rw [hiff]
    constructor
    · intro h'
      have hbytes := h'.bytes
      simp only [unacknowledged, hr', hacc, hcovered, List.append_nil] at hbytes
      have htake : g.bytes.take 1 = [] := List.append_right_eq_self.mp hbytes
      simpa using htake
    · intro hempty
      refine ⟨?_, ?_⟩
      · simp [unacknowledged, hr', hacc, hcovered, hempty]
      · rw [hack, hinit, h.number]
        simp [hempty, BitVec.ofNat_add, BitVec.add_assoc]
  · rw [hack, acked_same]
    refine ⟨fun _ hf => ?_, fun _ => ⟨?_, ?_⟩⟩
    · exact absurd hf.2.2.2.2.1 (by rw [hfin]; decide)
    · simp only [unacknowledged, hr', hacc, hcovered]
    · rw [hack, hinit]
      exact h.number

/-- Acknowledging the queued payload keeps the promise. -/
theorem intact_acknowledge (y : System) (ho : InOrder y) (h : Intact y) :
    Intact (y.next .acknowledge) := by
  cases hr : y.session.reader with
  | idle =>
    have hnext : y.next .acknowledge = y := by simp only [System.next, next, hr]
    rw [hnext]
    exact h
  | offered g payload =>
    obtain ⟨hseq, hp, hfin⟩ := ho g payload hr
    have hnext : y.next .acknowledge = ⟨acknowledge g payload y.session,
        ⟨y.client.covered ++ payload, y.client.fins⟩⟩ := by
      simp only [System.next, next, hr]
      rw [← acked_payload g payload y.session.myAck y.client hfin hp]
      simp only [acknowledge, sendAck, hseq]
    rw [hnext]
    refine ⟨?_, ?_⟩
    · have hbytes := h.bytes
      simp only [unacknowledged, hr] at hbytes
      simpa [unacknowledged, acknowledge, sendAck, accepted, inHand] using hbytes
    · have hnumber := h.number
      simp only [acknowledge, sendAck, hseq, hnumber, List.length_append]
      rw [BitVec.add_assoc, ← BitVec.ofNat_add]
      congr 2
      omega

/-- The steps of the session's thread and of the bridge. -/
theorem intact_kept {a : Action} {y : System} (hs : Starved y.session) (hseg : ∀ g, a ≠ .segment g)
    (hack : a ≠ .acknowledge) (hwhole : ∀ fails, a = .write fails → ¬ CutShort fails y.session) (h : Intact y) :
    Intact (y.next a) := by
  have hkept := next_kept a y.session hs hseg hack hwhole
  have hnext : y.next a = ⟨next a y.session, y.client⟩ := by
    cases a with
    | segment g => exact absurd rfl (hseg g)
    | acknowledge => exact absurd rfl hack
    | _ => rfl
  rw [hnext]
  exact (intact_of_kept hkept).mpr h

/-- A write that is cut short breaks the promise: what is left of its chunk was acknowledged. -/
theorem not_intact_write {fails : Option Nat} {y : System} (h : Intact y) (hcut : CutShort fails y.session) :
    ¬ Intact (y.next (.write fails)) := by
  obtain ⟨data, count, k, hwriter, rfl, hk⟩ := hcut
  intro hnext
  have hbytes := congrArg List.length h.bytes
  have hcutBytes := congrArg List.length hnext.bytes
  have hstep : (y.next (.write (some k))).session = write data count (some k) y.session := by
    simp only [System.next, next, hwriter]
  have hclient : (y.next (.write (some k))).client = y.client := rfl
  rw [hstep, hclient] at hcutBytes
  simp only [accepted, inHand, unacknowledged, write, finish, close, hwriter, List.length_append,
    List.length_take, List.length_nil] at hbytes hcutBytes
  omega

/-- A step keeps the promise exactly when it is clean. -/
theorem intact_next (a : Action) (y : System) (ho : InOrder y) (hs : Starved y.session) (h : Intact y) :
    Intact (y.next a) ↔ Clean a y := by
  cases a with
  | segment g =>
    by_cases hr : y.session.reader = .idle
    · exact intact_segment g y hr h
    · have hnext : y.next (.segment g) = y := by
        simp only [System.next, next_segment_busy g _ hr]
        split
        · exact absurd ‹_› hr
        · cases ‹Action.segment g = Action.acknowledge›
        · rfl
      rw [hnext]
      exact ⟨fun _ hf => hr hf.1, fun _ => h⟩
  | acknowledge => exact ⟨fun _ => trivial, fun _ => intact_acknowledge y ho h⟩
  | write fails =>
    constructor
    · intro hnext hcut
      exact not_intact_write h hcut hnext
    · intro hwhole
      apply intact_kept hs (by simp) (by simp) _ h
      rintro _ ⟨⟩
      exact hwhole
  | _ => exact ⟨fun _ => trivial, fun _ => intact_kept hs (by simp) (by simp) (by simp) h⟩

theorem inOrder_of_kept {y : System} {s : State} (hk : Kept y.session s) (ho : InOrder y) {g : Segment}
    {payload : List UInt8} (hr : s.reader = .offered g payload) :
    g.seq = s.myAck ∧ g.payload = some payload ∧ g.isFin = false := by
  rw [hk.reader] at hr
  rw [hk.myAck]
  exact ho g payload hr

/-- The segment being handled stays the in-order one it was. -/
theorem inOrder_next (a : Action) (y : System) (hs : Starved y.session) (hclean : Clean a y) (ho : InOrder y) :
    InOrder (y.next a) := by
  have hsession : (y.next a).session = next a y.session := rfl
  intro g payload hr
  rw [hsession] at hr ⊢
  cases a with
  | segment g' =>
    by_cases hidle : y.session.reader = .idle
    · rw [next_segment_idle g' _ hidle] at hr ⊢
      rcases handleFromTun_cases g' y.session hidle with ⟨hk, _⟩ | ⟨_, _, _, _, _, _, _, _, hr'⟩ |
        ⟨hfin, hseq, payload', hp, _, hack, _, hr'⟩
      · rw [hk.reader, hidle] at hr
        cases hr
      · rw [hr'] at hr
        cases hr
      · rw [hr'] at hr
        cases hr
        exact ⟨by rw [hack]; exact hseq, hp, hfin⟩
    · rw [next_segment_busy g' _ hidle] at hr ⊢
      exact ho g payload hr
  | acknowledge =>
    cases hr' : y.session.reader with
    | idle =>
      simp only [next, hr'] at hr
      cases hr
    | offered g' payload' =>
      simp only [next, hr', acknowledge] at hr
      cases hr
  | write fails =>
    have hwhole : ∀ f, Action.write fails = .write f → ¬ CutShort f y.session := by
      rintro _ ⟨⟩
      exact hclean
    exact inOrder_of_kept (next_kept _ y.session hs (by simp) (by simp) hwhole) ho hr
  | _ => exact inOrder_of_kept (next_kept _ y.session hs (by intros; simp) (by simp) (by simp)) ho hr

/-! ### Whole runs -/

/-- What carries the promise through a run. -/
structure Sound (y : System) : Prop where
  intact : Intact y
  inOrder : InOrder y
  starved : Starved y.session

theorem sound_initial (seq : BitVec 32) : Sound (.initial seq) where
  intact := ⟨rfl, by simp [System.initial, Session.initial]⟩
  inOrder := by
    intro g payload h
    cases h
  starved := starved_initial seq

theorem sound_next (a : Action) (y : System) (h : Sound y) (hclean : Clean a y) : Sound (y.next a) where
  intact := (intact_next a y h.inOrder h.starved h.intact).mpr hclean
  inOrder := inOrder_next a y h.starved hclean h.inOrder
  starved := starved_next a y.session h.starved

/-- **The acknowledged bytes are the accepted bytes, in every state of every
interleaving, exactly when no in-order segment carries both payload and FIN and no write
throws with bytes left.** -/
theorem intact_iff_clean (seq : BitVec 32) (as : List Action) :
    (∀ y ∈ Machine.visited System.next (.initial seq) as, Intact y) ↔
      Machine.Along System.next Clean (.initial seq) as := by
  apply Machine.visited_iff_along_of_strong (fun y (h : Sound y) => h.intact) sound_next _ (sound_initial seq) as
  intro a y h hnot hnext
  exact hnot ((intact_next a y h.inOrder h.starved h.intact).mp hnext)

/-- One byte with a FIN, on a connected session: the byte is acknowledged, and lost. -/
theorem fin_payload_lost :
    let g : Segment := ⟨1, some [65], 0x11, by simp⟩
    let y := Machine.run System.next (.initial 0) [.connect, .segment g]
    y.client.covered = [65] ∧ accepted y.session = [] ∧ y.session.reader = .idle ∧ ¬ Intact y := by
  refine ⟨rfl, rfl, rfl, fun h => ?_⟩
  have hbytes := h.bytes
  exact absurd hbytes (by decide)

end Aether.Bridge.Session
