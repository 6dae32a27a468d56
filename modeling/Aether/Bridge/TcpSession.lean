import Aether.Machine.Run

/-! A bridged TCP session, from the client to upstream.

`SocksTunBridge.TcpSession` ends the client's TCP connection inside the app: the
TUN reader thread hands every segment to `handleFromTun`, which acknowledges
in-order bytes and puts them into a bounded queue, and the session's own thread
(`run`) connects upstream and drains the queue into the output stream. The two
threads share the queue and a few flags; an action is one access of one of them,
so a list of actions is an interleaving.

Only the order of accesses to shared data matters: the bookkeeping of
`lastActivity` appears as the choice to time out, and the packets of `sendAck` as
the numbers they carry. -/
namespace Aether.Bridge.Session

/-! ### Segments -/

/-- A TCP segment as `processIpv4` and `processIpv6` hand it over; sequence
numbers are 32 bits wide. -/
structure Segment where
  seq : BitVec 32
  payload : Option (List UInt8)
  flags : BitVec 8
  /-- A byte array has fewer than 2³¹ elements. -/
  size : ∀ bytes ∈ payload, bytes.length < 2 ^ 31

namespace Segment

def isFin (g : Segment) : Bool := g.flags &&& 0x01 != 0

def isRst (g : Segment) : Bool := g.flags &&& 0x04 != 0

/-- The payload, empty when there is none. -/
def bytes (g : Segment) : List UInt8 := g.payload.getD []

end Segment

/-! ### The session -/

/-- Where the TUN reader thread is: between segments, or inside `handleFromTun`
with a payload queued whose acknowledgement is not set yet. -/
inductive Reader where
  | idle
  | offered (g : Segment) (payload : List UInt8)

/-- Where the session's thread is in `run`. -/
inductive Writer where
  /-- Before the upstream connection, nothing taken from the queue. -/
  | routing
  /-- The first packet was polled to look for a host name. -/
  | sniffing (first : Option (List UInt8))
  | connecting
  /-- At the head of the writer loop. -/
  | head
  /-- A chunk is polled and being written; `count` is the batch counter after it. -/
  | writing (data : List UInt8) (count : Nat)
  /-- In the inner loop that takes what else is queued. -/
  | batch (count : Nat)
  | flushing
  /-- `run` has returned. -/
  | ended

structure State where
  initialSeq : BitVec 32
  myAck : BitVec 32
  queue : List (List UInt8) := []
  isClosed : Bool := false
  isRunning : Bool := true
  connected : Bool := false
  clientClosed : Bool := false
  outputShutdown : Bool := false
  reader : Reader := .idle
  writer : Writer := .routing
  /-- The acknowledgement numbers sent to the client. -/
  acks : List (BitVec 32) := []
  /-- The bytes written to the upstream output stream. -/
  written : List UInt8 := []

/-- A session as the SYN with sequence number `seq` creates it. -/
def initial (seq : BitVec 32) : State := {initialSeq := seq, myAck := seq + 1}

/-- The capacity of the session queue. -/
def queueCapacity : Nat := 8192

def close (s : State) : State := {s with isClosed := true}

def sendAck (s : State) : State := {s with acks := s.acks ++ [s.myAck]}

/-- `handleFromTun`, up to the point where a payload is queued; `acknowledge` is the
rest of that branch. A payload the queue refuses is not acknowledged. -/
def handleFromTun (g : Segment) (s : State) : State :=
  if s.isClosed then s
  else if g.isRst then close s
  else if !s.connected then
    if g.isFin then close s else s
  else if g.isFin then
    -- the segment's payload is not looked at on this branch
    if g.seq = s.myAck then {sendAck {s with myAck := g.seq + 1} with clientClosed := true}
    else sendAck s
  else match g.payload with
    | none => s
    | some payload =>
      if g.seq = s.myAck then
        if s.queue.length < queueCapacity then
          {s with queue := s.queue ++ [payload], reader := .offered g payload}
        else s
      else sendAck s

/-- The acknowledgement of a queued payload. -/
def acknowledge (g : Segment) (payload : List UInt8) (s : State) : State :=
  {sendAck {s with myAck := g.seq + BitVec.ofNat 32 payload.length} with reader := .idle}

/-! ### The session's thread -/

/-- `run` returns: its `finally` closes the session. -/
def finish (s : State) : State := {close s with writer := .ended}

/-- The client has closed and nothing is left to write: shut the output down once. -/
def shutdownIfDone (s : State) : State :=
  if s.clientClosed && s.queue.isEmpty && !s.outputShutdown then {s with outputShutdown := true} else s

/-- `queue.poll` for the first packet, before connecting. -/
def sniff (s : State) : State :=
  match s.queue with
  | [] => {s with writer := .sniffing none}
  | first :: rest => {s with queue := rest, writer := .sniffing (some first)}

/-- `queue.addFirst` of the packet looked at; on a full queue it throws and `run` ends. -/
def putBack (first : Option (List UInt8)) (s : State) : State :=
  match first with
  | none => {s with writer := .connecting}
  | some first =>
    if s.queue.length < queueCapacity then {s with queue := first :: s.queue, writer := .connecting}
    else finish s

/-- The upstream connection stands. -/
def connect (s : State) : State :=
  let s := {s with connected := true}
  if s.isClosed then finish s else {s with writer := .head}

/-- The blocking poll at the head of the writer loop. -/
def pollHead (s : State) : State :=
  if s.isClosed || !s.isRunning then finish s
  else match s.queue with
    | [] => {shutdownIfDone s with writer := .head}
    | data :: rest => {s with queue := rest, writer := .writing data 0}

/-- The poll of the inner loop: at most 64 more chunks before a flush. -/
def pollBatch (count : Nat) (s : State) : State :=
  if count < 64 then
    match s.queue with
    | [] => {s with writer := .flushing}
    | data :: rest => {s with queue := rest, writer := .writing data (count + 1)}
  else {s with writer := .flushing}

/-- `out.write`: all of the chunk, or an exception after some of it, with which `run` ends
and the rest of the chunk is gone. -/
def write (data : List UInt8) (count : Nat) (fails : Option Nat) (s : State) : State :=
  match fails with
  | none => {s with written := s.written ++ data, writer := .batch count}
  | some k => finish {s with written := s.written ++ data.take k}

/-- `out.flush`, then the head of the loop again. -/
def flush (fails : Bool) (s : State) : State :=
  if fails then finish s else {shutdownIfDone s with writer := .head}

/-! ### Interleavings -/

/-- One step of one thread, with what the network answers. -/
inductive Action where
  /-- The TUN reader handles a segment. -/
  | segment (g : Segment)
  | acknowledge
  | sniff
  | putBack
  /-- Routing refuses the flow, or the upstream connection fails. -/
  | refuse
  | connect
  | poll
  | write (fails : Option Nat)
  | flush (fails : Bool)
  /-- 300 seconds without activity. -/
  | idleTimeout
  /-- `close` from the upstream reader, a blocked owner or a replaced session. -/
  | close
  /-- The bridge stops. -/
  | stop

/-- A step of the TUN reader is taken where that thread is, a step of `run` where
`run` is; any other action leaves the state alone. -/
def next (a : Action) (s : State) : State :=
  match a, s.reader, s.writer with
  | .segment g, .idle, _ => handleFromTun g s
  | .acknowledge, .offered g payload, _ => acknowledge g payload s
  | .sniff, _, .routing => sniff s
  | .putBack, _, .sniffing first => putBack first s
  | .refuse, _, .routing => finish s
  | .refuse, _, .connecting => finish s
  | .connect, _, .routing => connect s
  | .connect, _, .connecting => connect s
  | .poll, _, .head => pollHead s
  | .poll, _, .batch count => pollBatch count s
  | .write fails, _, .writing data count => write data count fails s
  | .flush fails, _, .flushing => flush fails s
  | .idleTimeout, _, .head => finish s
  | .close, _, _ => close s
  | .stop, _, _ => close {s with isRunning := false}
  | _, _, _ => s

/-! ### Before the connection -/

/-- Nothing is taken from the client before the connection. -/
structure Starved (s : State) : Prop where
  queue : s.connected = false → s.queue = []
  routing : s.writer = .routing → s.connected = false
  sniffing : ∀ first, s.writer = .sniffing first → first = none ∧ s.connected = false
  connecting : s.writer = .connecting → s.connected = false

theorem starved_initial (seq : BitVec 32) : Starved (initial seq) where
  queue _ := rfl
  routing _ := rfl
  sniffing _ h := Writer.noConfusion h
  connecting h := Writer.noConfusion h

/-- Steps of the other threads. -/
theorem Starved.beside {s t : State} (h : Starved s) (hconnected : t.connected = s.connected)
    (hwriter : t.writer = s.writer)
    (hqueue : s.connected = false → t.queue = s.queue) : Starved t where
  queue hc := by
    rw [hconnected] at hc
    rw [hqueue hc, h.queue hc]
  routing hw := by
    rw [hconnected, h.routing (hwriter.symm.trans hw)]
  sniffing first hw := by
    rw [hconnected]
    exact h.sniffing first (hwriter.symm.trans hw)
  connecting hw := by
    rw [hconnected, h.connecting (hwriter.symm.trans hw)]

/-- `run` is behind the connection, or has returned. -/
def Writer.settled : Writer → Bool
  | routing | sniffing _ | connecting => false
  | _ => true

/-- Steps of `run` behind the connection, and to it. -/
theorem starved_settled {s : State} (hwriter : s.writer.settled = true) (hqueue : s.connected = false → s.queue = []) :
    Starved s where
  queue := hqueue
  routing hw := by
    rw [hw] at hwriter
    cases hwriter
  sniffing first hw := by
    rw [hw] at hwriter
    cases hwriter
  connecting hw := by
    rw [hw] at hwriter
    cases hwriter

theorem handleFromTun_beside (g : Segment) (s : State) :
    (handleFromTun g s).connected = s.connected ∧ (handleFromTun g s).writer = s.writer := by
  rw [handleFromTun]
  split
  · exact ⟨rfl, rfl⟩
  · split
    · exact ⟨rfl, rfl⟩
    · split
      · split <;> exact ⟨rfl, rfl⟩
      · split
        · split <;> exact ⟨rfl, rfl⟩
        · split
          · exact ⟨rfl, rfl⟩
          · split
            · split <;> exact ⟨rfl, rfl⟩
            · exact ⟨rfl, rfl⟩

/-- A payload is refused before the connection. -/
theorem handleFromTun_refused (g : Segment) {s : State} (h : s.connected = false) :
    handleFromTun g s = s ∨ handleFromTun g s = close s := by
  rw [handleFromTun, h]
  cases s.isClosed
  · cases g.isRst
    · cases g.isFin
      · exact .inl rfl
      · exact .inr rfl
    · exact .inr rfl
  · exact .inl rfl

theorem starved_segment {s : State} (h : Starved s) (g : Segment) : Starved (handleFromTun g s) := by
  obtain ⟨hconnected, hwriter⟩ := handleFromTun_beside g s
  apply h.beside hconnected hwriter
  intro hc
  obtain hsame | hclosed := handleFromTun_refused g hc
  · rw [hsame]
  · rw [hclosed]
    rfl

/-- The wait for a first packet ends with nothing. -/
theorem sniff_none {s : State} (h : Starved s) (hw : s.writer = .routing) :
  sniff s = {s with writer := .sniffing none} := by
  rw [sniff, h.queue (h.routing hw)]

theorem starved_sniff {s : State} (h : Starved s) (hw : s.writer = .routing) : Starved (sniff s) := by
  have hc := h.routing hw
  rw [sniff_none h hw]
  refine ⟨h.queue, fun hw => Writer.noConfusion hw, fun first hw => ?_, fun hw => Writer.noConfusion hw⟩
  exact ⟨(Writer.sniffing.inj hw).symm, hc⟩

theorem starved_putBack {s : State} (h : Starved s) {first : Option (List UInt8)} (hw : s.writer = .sniffing first) :
    Starved (putBack first s) := by
  obtain ⟨rfl, hc⟩ := h.sniffing first hw
  exact ⟨h.queue, fun hw => Writer.noConfusion hw, fun _ hw => Writer.noConfusion hw, fun _ => hc⟩

theorem starved_connect (s : State) : Starved (connect s) := by
  rw [connect]
  dsimp only
  split
  · exact starved_settled rfl fun hc => Bool.noConfusion hc
  · exact starved_settled rfl fun hc => Bool.noConfusion hc

theorem shutdownIfDone_connected (s : State) :
    (shutdownIfDone s).connected = s.connected ∧ (shutdownIfDone s).queue = s.queue := by
  rw [shutdownIfDone]
  split <;> exact ⟨rfl, rfl⟩

theorem starved_head {s : State} (h : Starved s) : Starved {shutdownIfDone s with writer := .head} := by
  obtain ⟨hc, hq⟩ := shutdownIfDone_connected s
  apply starved_settled rfl
  show (shutdownIfDone s).connected = false → (shutdownIfDone s).queue = []
  rw [hc, hq]
  exact h.queue

/-- A queue that something was taken from belongs to a connected session. -/
theorem Starved.connected_of_cons {s : State} (h : Starved s) {data : List UInt8} {rest : List (List UInt8)}
    (hq : s.queue = data :: rest) : s.connected ≠ false := by
  intro hc
  rw [h.queue hc] at hq
  cases hq

theorem starved_pollHead {s : State} (h : Starved s) : Starved (pollHead s) := by
  rw [pollHead]
  split
  · exact starved_settled rfl h.queue
  · split
    · exact starved_head h
    · rename_i data rest hq
      exact starved_settled rfl fun hc => absurd hc (h.connected_of_cons hq)

theorem starved_pollBatch {s : State} (h : Starved s) (count : Nat) : Starved (pollBatch count s) := by
  rw [pollBatch]
  split
  · split
    · exact starved_settled rfl h.queue
    · rename_i data rest hq
      exact starved_settled rfl fun hc => absurd hc (h.connected_of_cons hq)
  · exact starved_settled rfl h.queue

theorem starved_write {s : State} (h : Starved s) (data : List UInt8) (count : Nat) (fails : Option Nat) :
    Starved (write data count fails s) := by
  cases fails with
  | none => exact starved_settled rfl h.queue
  | some k => exact starved_settled rfl h.queue

theorem starved_flush {s : State} (h : Starved s) (fails : Bool) : Starved (flush fails s) := by
  cases fails with
  | false => exact starved_head h
  | true => exact starved_settled rfl h.queue

theorem starved_next (a : Action) (s : State) (h : Starved s) : Starved (next a s) := by
  unfold next
  split
  · exact starved_segment h _
  · exact h.beside rfl rfl fun _ => rfl
  · exact starved_sniff h ‹_›
  · exact starved_putBack h ‹_›
  · exact starved_settled rfl h.queue
  · exact starved_settled rfl h.queue
  · exact starved_connect s
  · exact starved_connect s
  · exact starved_pollHead h
  · exact starved_pollBatch h _
  · exact starved_write h _ _ _
  · exact starved_flush h _
  · exact starved_settled rfl h.queue
  · exact h.beside rfl rfl fun _ => rfl
  · exact h.beside rfl rfl fun _ => rfl
  · exact h

end Aether.Bridge.Session
