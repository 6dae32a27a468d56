import Aether.Socks.Gateway
import Aether.Streams.Flow
import Aether.Machine.Run

/-! Half-closed connections in the three relays.

A relay has two pipes. Each reads what its side sends until the side half-closes, and ends
once all of it is written; it fails when a write fails. The relays differ in when they are
torn down. `handle_connect` and `handle_direct` wait for the upstream's pipe and abort the
client's; `ShareBridge.relay` waits for the client's, and then one second for the
upstream's.

So a relay does not wait for both (`half_close_cut`). What it keeps in every run is
`keeps_half_close`: a pipe that ended delivered all of it, one that still runs has lost
nothing and delivers the rest unless the relay is torn down first, and the pipe that the
relay waits for is over before that. -/
namespace Aether.Socks.Relay
open Machine Streams

inductive Kind where
  | connect
  | direct
  | share
  deriving DecidableEq, Repr

/-- The side that sends into a pipe. -/
inductive Side where
  | client
  | upstream
  deriving DecidableEq, Repr

inductive Status where
  | running
  | ended
  | failed
  deriving DecidableEq, Repr

/-! ### One pipe -/

structure Pipe where
  /-- What the side has sent so far. -/
  sent : Bytes := []
  halfClosed : Bool := false
  flow : Flow UInt8 := {}
  status : Status := .running

namespace Pipe

/-- Sent but not yet read. -/
def unread (p : Pipe) : Bytes := p.sent.drop p.flow.read.length

def isOver (p : Pipe) : Bool := p.status != .running

def send (bytes : Bytes) (p : Pipe) : Pipe := if p.halfClosed then p else {p with sent := p.sent ++ bytes}

def halfClose (p : Pipe) : Pipe := {p with halfClosed := true}

/-- A read; the loops read with nothing in hand, `tokio::io::copy` may read ahead. -/
def read (ahead : Bool) (n : Nat) (p : Pipe) : Pipe :=
  if p.isOver || (!ahead && !p.flow.held.isEmpty) then p
  else {p with flow := p.flow.take (p.unread.take n)}

/-- Some of what is held is written; a chunk that is handed over at once is all of it. -/
def write (n : Nat) (p : Pipe) : Pipe := if p.isOver then p else {p with flow := p.flow.give n}

/-- The end is read once nothing is left to read or to write. -/
def finish (p : Pipe) : Pipe :=
  if !p.isOver && p.halfClosed && p.unread.isEmpty && p.flow.held.isEmpty then {p with status := .ended} else p

/-- A write fails. -/
def fail (p : Pipe) : Pipe :=
  if !p.isOver && !p.flow.held.isEmpty then {p with status := .failed} else p

/-- Nothing was lost on the way, and a pipe that ended has delivered everything. -/
structure Sound (p : Pipe) : Prop where
  conserved : p.flow.Conserved
  readFirst : p.flow.read <+: p.sent
  ended : p.status = .ended → p.halfClosed = true ∧ p.flow.written = p.sent

theorem sound_empty : ({} : Pipe).Sound := ⟨Flow.conserved_empty, List.prefix_refl _, nofun⟩

theorem read_append_unread {p : Pipe} (h : p.flow.read <+: p.sent) : p.flow.read ++ p.unread = p.sent := by
  obtain ⟨rest, hrest⟩ := h
  rw [unread, ← hrest, List.drop_left]

/-- What was written, what is held and what is not yet read are what was sent. -/
theorem Sound.kept {p : Pipe} (h : p.Sound) : p.flow.written ++ p.flow.held ++ p.unread = p.sent := by
  rw [h.conserved, read_append_unread h.readFirst]

variable {p : Pipe}

theorem Sound.send (h : p.Sound) (bytes : Bytes) : (p.send bytes).Sound := by
  unfold Pipe.send
  split
  · exact h
  · rename_i hopen
    refine ⟨h.conserved, h.readFirst.trans (List.prefix_append ..), ?_⟩
    intro hended
    exact absurd (h.ended hended).1 hopen

theorem Sound.halfClose (h : p.Sound) : p.halfClose.Sound :=
  ⟨h.conserved, h.readFirst, fun hended => ⟨rfl, (h.ended hended).2⟩⟩

theorem not_ended (h : p.isOver = false) : p.status ≠ .ended := by
  intro hended
  rw [isOver, hended] at h
  cases h

theorem Sound.read (h : p.Sound) (ahead : Bool) (n : Nat) : (p.read ahead n).Sound := by
  unfold Pipe.read
  split
  · exact h
  · rename_i hgo
    have hrun : p.isOver = false := by
      rw [Bool.or_eq_true, not_or] at hgo
      exact Bool.eq_false_iff.mpr hgo.1
    refine ⟨h.conserved.take _, ?_, fun hended => absurd hended (not_ended hrun)⟩
    show p.flow.read ++ p.unread.take n <+: p.sent
    rw [← read_append_unread h.readFirst, List.prefix_append_right_inj]
    exact List.take_prefix n p.unread

theorem Sound.write (h : p.Sound) (n : Nat) : (p.write n).Sound := by
  unfold Pipe.write
  split
  · exact h
  · rename_i hrun
    exact ⟨h.conserved.give n, h.readFirst, fun hended => absurd hended (not_ended (Bool.eq_false_iff.mpr hrun))⟩

theorem Sound.finish (h : p.Sound) : p.finish.Sound := by
  unfold Pipe.finish
  split
  · rename_i hgo
    simp only [Bool.and_eq_true, List.isEmpty_iff] at hgo
    obtain ⟨⟨⟨-, hclosed⟩, hunread⟩, hheld⟩ := hgo
    refine ⟨h.conserved, h.readFirst, fun _ => ⟨hclosed, ?_⟩⟩
    have hkept := h.kept
    rw [hunread, hheld, List.append_nil, List.append_nil] at hkept
    exact hkept
  · exact h

/-- The pipe reads and writes what is left, and reads the end. -/
def drained (ahead : Bool) (p : Pipe) : Pipe :=
  (((p.write p.flow.held.length).read ahead p.unread.length).write p.unread.length).finish

/-- A pipe that runs delivers what was sent. -/
theorem Sound.drained (h : p.Sound) (hrun : p.status = .running) (ahead : Bool) :
    (p.drained ahead).flow.written = p.sent ∧ (p.halfClosed = true → (p.drained ahead).status = .ended) := by
  have hwrite : p.write p.flow.held.length =
      {p with flow := ⟨p.flow.read, [], p.flow.written ++ p.flow.held⟩} := by
    simp [Pipe.write, isOver, hrun, Flow.give]
  have hread : Pipe.read ahead p.unread.length {p with flow := ⟨p.flow.read, [], p.flow.written ++ p.flow.held⟩} =
      {p with flow := ⟨p.sent, p.unread, p.flow.written ++ p.flow.held⟩} := by
    rw [Pipe.read, if_neg (by simp [isOver, hrun])]
    show ({p with flow := ⟨p.flow.read ++ p.unread.take p.unread.length, p.unread.take p.unread.length, _⟩} : Pipe) = _
    rw [List.take_length, read_append_unread h.readFirst]
  have hlast : Pipe.write p.unread.length {p with flow := ⟨p.sent, p.unread, p.flow.written ++ p.flow.held⟩} =
      {p with flow := ⟨p.sent, [], p.sent⟩} := by
    rw [Pipe.write, if_neg (by simp [isOver, hrun])]
    show ({p with flow := ⟨p.sent, p.unread.drop p.unread.length,
      p.flow.written ++ p.flow.held ++ p.unread.take p.unread.length⟩} : Pipe) = _
    rw [List.drop_length, List.take_length, h.kept]
  rw [Pipe.drained, hwrite, hread, hlast]
  refine ⟨?_, ?_⟩
  · unfold Pipe.finish
    split <;> rfl
  · intro hclosed
    simp [Pipe.finish, isOver, hrun, hclosed, unread]

theorem Sound.fail (h : p.Sound) : p.fail.Sound := by
  unfold Pipe.fail
  split
  · exact ⟨h.conserved, h.readFirst, nofun⟩
  · exact h

end Pipe

/-! ### A relay -/

structure Duplex where
  /-- From the client to the upstream. -/
  up : Pipe := {}
  /-- From the upstream to the client. -/
  down : Pipe := {}
  /-- `reverse.join(1_000)` has timed out. -/
  joinTimedOut : Bool := false
  /-- The sockets are closed and the tasks aborted. -/
  torn : Bool := false

inductive Action where
  | send (side : Side) (bytes : Bytes)
  | halfClose (side : Side)
  | read (side : Side) (n : Nat)
  | write (side : Side) (n : Nat)
  | finish (side : Side)
  | fail (side : Side)
  | joinTimeout
  | tearDown
  deriving DecidableEq, Repr

namespace Duplex

/-- The pipe that a side sends into. -/
def pipe : Side → Duplex → Pipe
  | .client, r => r.up
  | .upstream, r => r.down

def onPipe (f : Pipe → Pipe) : Side → Duplex → Duplex
  | .client, r => {r with up := f r.up}
  | .upstream, r => {r with down := f r.down}

/-- A step of the relay's own, while it is there. -/
def work (f : Pipe → Pipe) (side : Side) (r : Duplex) : Duplex := if r.torn then r else r.onPipe f side

/-- What the relay waits for before it is torn down. -/
def waited (kind : Kind) (r : Duplex) : Bool :=
  match kind with
  | .connect | .direct => r.down.isOver
  | .share => r.up.isOver && (r.down.isOver || r.joinTimedOut)

def next (kind : Kind) (action : Action) (r : Duplex) : Duplex :=
  match action with
  | .send side bytes => r.onPipe (.send bytes) side
  | .halfClose side => r.onPipe .halfClose side
  | .read side n => r.work (.read (kind == .direct) n) side
  | .write side n => r.work (.write n) side
  | .finish side => r.work .finish side
  | .fail side => r.work .fail side
  | .joinTimeout => if kind == .share && r.up.isOver && !r.torn then {r with joinTimedOut := true} else r
  | .tearDown => if r.waited kind then {r with torn := true} else r

/-- Both pipes are sound, and a relay that was torn down had waited. -/
structure Sound (kind : Kind) (r : Duplex) : Prop where
  pipes : ∀ side, (r.pipe side).Sound
  torn : r.torn = true → r.waited kind = true

theorem sound_empty (kind : Kind) : ({} : Duplex).Sound kind := by
  refine ⟨?_, nofun⟩
  intro side
  cases side <;> exact Pipe.sound_empty

variable {kind : Kind} {r : Duplex}

theorem pipe_onPipe (f : Pipe → Pipe) (side side' : Side) (r : Duplex) :
    (r.onPipe f side).pipe side' = if side' = side then f (r.pipe side') else r.pipe side' := by
  cases side <;> cases side' <;> rfl

/-- Only the pipes of a side and what it has sent matter to the teardown. -/
theorem waited_onPipe {f : Pipe → Pipe} (hf : ∀ p, (f p).status = p.status) (side : Side) :
    (r.onPipe f side).waited kind = r.waited kind := by
  cases side <;> cases kind <;> simp [onPipe, waited, Pipe.isOver, hf]

theorem torn_onPipe (f : Pipe → Pipe) (side : Side) : (r.onPipe f side).torn = r.torn := by
  cases side <;> rfl

theorem pipes_onPipe (h : r.Sound kind) {f : Pipe → Pipe} (hf : ∀ p : Pipe, p.Sound → (f p).Sound) (side : Side) :
    ∀ side', ((r.onPipe f side).pipe side').Sound := by
  intro side'
  rw [pipe_onPipe]
  split
  · exact hf _ (h.pipes side')
  · exact h.pipes side'

/-- The sides send and close as they like. -/
theorem Sound.side (h : r.Sound kind) {f : Pipe → Pipe} (hf : ∀ p : Pipe, p.Sound → (f p).Sound)
    (hstatus : ∀ p, (f p).status = p.status) (side : Side) : (r.onPipe f side).Sound kind := by
  refine ⟨pipes_onPipe h hf side, ?_⟩
  rw [torn_onPipe, waited_onPipe hstatus]
  exact h.torn

theorem Sound.work (h : r.Sound kind) {f : Pipe → Pipe} (hf : ∀ p : Pipe, p.Sound → (f p).Sound) (side : Side) :
    (r.work f side).Sound kind := by
  unfold Duplex.work
  split
  · exact h
  · rename_i htorn
    refine ⟨pipes_onPipe h hf side, fun ht => ?_⟩
    rw [torn_onPipe] at ht
    exact absurd ht htorn

theorem Sound.next (action : Action) (r : Duplex) (h : r.Sound kind) : (r.next kind action).Sound kind := by
  cases action with
  | send side bytes =>
    refine h.side (fun p hp => hp.send bytes) ?_ side
    intro p
    unfold Pipe.send
    split <;> rfl
  | halfClose side => exact h.side (fun p hp => hp.halfClose) (fun p => rfl) side
  | read side n => exact h.work (fun p hp => hp.read _ n) side
  | write side n => exact h.work (fun p hp => hp.write n) side
  | finish side => exact h.work (fun p hp => hp.finish) side
  | fail side => exact h.work (fun p hp => hp.fail) side
  | joinTimeout =>
    unfold Duplex.next
    dsimp only
    split
    · rename_i hgo
      refine ⟨?_, ?_⟩
      · intro side
        cases side
        · exact h.pipes .client
        · exact h.pipes .upstream
      · intro ht
        have htorn : r.torn = true := ht
        simp [htorn] at hgo
    · exact h
  | tearDown =>
    unfold Duplex.next
    dsimp only
    split
    · rename_i hwaited
      refine ⟨?_, fun _ => ?_⟩
      · intro side
        cases side
        · exact h.pipes .client
        · exact h.pipes .upstream
      · cases kind <;> exact hwaited
    · exact h

/-- The relay's own steps by which a pipe is drained. -/
def drain (side : Side) (p : Pipe) : List Action :=
  [.write side p.flow.held.length, .read side p.unread.length, .write side p.unread.length, .finish side]

theorem pipe_work (htorn : r.torn = false) (f : Pipe → Pipe) (side : Side) :
    (r.work f side).pipe side = f (r.pipe side) ∧ (r.work f side).torn = false := by
  have hwork : r.work f side = r.onPipe f side := by
    rw [Duplex.work, htorn]
    rfl
  rw [hwork, pipe_onPipe, if_pos rfl, torn_onPipe]
  exact ⟨rfl, htorn⟩

theorem pipe_drain (htorn : r.torn = false) (side : Side) :
    (run (Duplex.next kind) r (drain side (r.pipe side))).pipe side = (r.pipe side).drained (kind == .direct) := by
  let p := r.pipe side
  obtain ⟨h1, t1⟩ := pipe_work htorn (.write p.flow.held.length) side
  obtain ⟨h2, t2⟩ := pipe_work t1 (.read (kind == .direct) p.unread.length) side
  obtain ⟨h3, t3⟩ := pipe_work t2 (.write p.unread.length) side
  obtain ⟨h4, -⟩ := pipe_work t3 .finish side
  rw [h3, h2, h1] at h4
  exact h4

end Duplex

/-! ### What a relay keeps -/

/-- The relay is torn down only when both pipes are over, and one that did not fail has
delivered everything. -/
def Survives (r : Duplex) : Prop :=
  r.torn = true → ∀ side, (r.pipe side).isOver = true ∧
    ((r.pipe side).status = .failed ∨ (r.pipe side).flow.written = (r.pipe side).sent)

/-- What a side sent is delivered when its pipe has ended; while the pipe runs nothing of it
is lost, and the relay, if it is not torn down, delivers the rest and then ends the pipe. -/
def Delivers (kind : Kind) (r : Duplex) (side : Side) : Prop :=
  ((r.pipe side).status = .ended →
    (r.pipe side).halfClosed = true ∧ (r.pipe side).flow.written = (r.pipe side).sent) ∧
  ((r.pipe side).status = .running →
    (r.pipe side).flow.written ++ (r.pipe side).flow.held ++ (r.pipe side).unread = (r.pipe side).sent ∧
    (r.torn = false →
      ((run (Duplex.next kind) r (Duplex.drain side (r.pipe side))).pipe side).flow.written = (r.pipe side).sent ∧
      ((r.pipe side).halfClosed = true →
        ((run (Duplex.next kind) r (Duplex.drain side (r.pipe side))).pipe side).status = .ended)))

/-- **In every state of a run, a relay that was torn down had waited for its pipe, and what
a side sent is delivered unless a write failed or the relay was torn down first.** -/
theorem keeps_half_close (kind : Kind) (actions : List Action) :
    ∀ r ∈ visited (Duplex.next kind) {} actions,
      (r.torn = true → r.waited kind = true) ∧ ∀ side, Delivers kind r side := by
  intro r hr
  have h : r.Sound kind := visited_invariant Duplex.Sound.next (Duplex.sound_empty kind) actions r hr
  refine ⟨h.torn, fun side => ⟨(h.pipes side).ended, fun hrun => ⟨(h.pipes side).kept, fun htorn => ?_⟩⟩⟩
  rw [Duplex.pipe_drain htorn]
  exact (h.pipes side).drained hrun _

/-- The client half-closes and the upstream's answer is still on its way when the join times
out: half of it is delivered. -/
def cutAnswer : List Action :=
  [.send .client [1], .halfClose .client, .read .client 1, .write .client 1, .finish .client,
    .send .upstream [2, 3], .read .upstream 2, .write .upstream 1, .joinTimeout, .tearDown]

theorem keeps_cutAnswer :
    (run (Duplex.next .share) {} cutAnswer).torn = true ∧
      (run (Duplex.next .share) {} cutAnswer).waited .share = true ∧
      ∀ side, Delivers .share (run (Duplex.next .share) {} cutAnswer) side := by
  have htorn : (run (Duplex.next .share) {} cutAnswer).torn = true := by decide
  obtain ⟨hwaited, hsides⟩ := keeps_half_close .share cutAnswer _ (run_visited _ _ _)
  exact ⟨htorn, hwaited htorn, hsides⟩

/-- The upstream half-closes while something of the client is not yet read. -/
def cutUpload : List Action := [.send .client [1], .halfClose .upstream, .finish .upstream, .tearDown]

/-- None of the relays survives every half-close. -/
theorem half_close_cut :
    (¬ ∀ r ∈ visited (Duplex.next .connect) {} cutUpload, Survives r) ∧
    (¬ ∀ r ∈ visited (Duplex.next .direct) {} cutUpload, Survives r) ∧
    (¬ ∀ r ∈ visited (Duplex.next .share) {} cutAnswer, Survives r) := by
  refine ⟨?_, ?_, ?_⟩
  · intro h
    have hclient := (h _ (run_visited _ _ _) (by decide) .client).1
    exact absurd hclient (by decide)
  · intro h
    have hclient := (h _ (run_visited _ _ _) (by decide) .client).1
    exact absurd hclient (by decide)
  · intro h
    have hupstream := (h _ (run_visited _ _ _) (by decide) .upstream).1
    exact absurd hupstream (by decide)

end Aether.Socks.Relay
