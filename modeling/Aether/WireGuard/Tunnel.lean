import Aether.Machine.Run

/-! `WgTunnel::run`, and the verified session that it starts from.

The protocol is boringtun's: a `Tunn` is only called, and what it owes its callers is
`Contract`. Without a session `encapsulate` queues the packet, and the queue is flushed by
calls of `decapsulate` with an empty datagram, which a caller has to make once
`decapsulate` has returned something for the network.

Four tasks share the `Tunn` under a lock. The receive task calls `decapsulate` once for a
datagram, and so does `verify_endpoint_keep_session`; neither goes on to flush. -/
namespace Aether.WireGuard
open Machine

/-! ### The library -/

inductive TunnResult where
  | done
  | err
  | writeToNetwork (packet : List UInt8)
  | writeToTunnelV4 (packet : List UInt8)
  | writeToTunnelV6 (packet : List UInt8)
  deriving DecidableEq

/-- What is called of a `Tunn`, at a time, and what its queue and its session are. -/
structure Library (T : Type) where
  new : T
  encapsulate : Nat → List UInt8 → T → TunnResult × T
  decapsulate : Nat → List UInt8 → T → TunnResult × T
  updateTimers : Nat → T → TunnResult × T
  queue : T → List (List UInt8)
  established : T → Bool

/-- `MAX_QUEUE_DEPTH`. -/
def maxQueueDepth : Nat := 256

/-- What the library owes its callers. -/
structure Contract {T : Type} (lib : Library T) : Prop where
  new_established : lib.established lib.new = false
  new_queue : lib.queue lib.new = []
  /-- A packet is sent under the session, or queued if there is none. -/
  encapsulate_session : ∀ now packet t, lib.established t = true →
    lib.queue (lib.encapsulate now packet t).2 = lib.queue t
  encapsulate_queues : ∀ now packet t, lib.established t = false →
    lib.queue (lib.encapsulate now packet t).2 =
      if (lib.queue t).length < maxQueueDepth then lib.queue t ++ [packet] else lib.queue t
  encapsulate_established : ∀ now packet t, lib.established t = false →
    lib.established (lib.encapsulate now packet t).2 = false
  /-- Only an empty datagram flushes, and only under a session, one packet at a time. -/
  decapsulate_keeps : ∀ now datagram t, datagram ≠ [] →
    lib.queue (lib.decapsulate now datagram t).2 = lib.queue t
  decapsulate_flushes : ∀ now t, lib.established t = true →
    lib.queue (lib.decapsulate now [] t).2 = (lib.queue t).tail
  decapsulate_established : ∀ now t, lib.established t = false →
    lib.established (lib.decapsulate now [] t).2 = false
  /-- The timers may end a session and drop what is queued. -/
  timers_queue : ∀ now t, ∀ packet ∈ lib.queue (lib.updateTimers now t).2, packet ∈ lib.queue t
  timers_established : ∀ now t, lib.established t = false → lib.established (lib.updateTimers now t).2 = false

/-! ### The machine -/

structure Config where
  staleTimeout : Nat
  dataCheck : Bool
  /-- `build_dataplane_probe`. -/
  probe : List UInt8

/-- `strip_client_id`. -/
def stripClientId : List UInt8 → List UInt8
  | kind :: a :: b :: c :: rest => if kind < 1 || kind > 4 then kind :: a :: b :: c :: rest else kind :: 0 :: 0 :: 0 :: rest
  | pkt => pkt

/-- `MAX_TRANSIENT_RECV_ERRORS`. -/
def maxTransientRecvErrors : Nat := 64

/-- `DATAPLANE_REQUIRED_SUCCESSES`. -/
def dataplaneRequiredSuccesses : Nat := 2

inductive Phase where
  | start
  /-- In the loop of `verify_endpoint_keep_session`. -/
  | verifying
  /-- In the loop of `verify_dataplane`. -/
  | dataplane (successes : Nat)
  /-- In `WgTunnel::run`. -/
  | running
  | stopped
  deriving DecidableEq

/-- The receive task. -/
inductive Recv where
  /-- In `sock_r.recv`. -/
  | idle
  /-- It has let go of the lock and sends what it has got; the datagram did, or did not,
  establish the session. -/
  | handling (establishing : Bool)
  deriving DecidableEq

structure State (T : Type) where
  tunn : T
  phase : Phase := .start
  recv : Recv := .idle
  /-- The send, timer and health tasks are sending; the health task does so under the
  lock. -/
  sending : Bool := false
  ticking : Bool := false
  probing : Bool := false
  lastValidRx : Nat := 0
  transientErrors : Nat := 0

inductive Event where
  /-- `WgTunnel::new` and `run`. -/
  | new (now : Nat)
  /-- `verify_endpoint_keep_session`, up to its loop. -/
  | verify (now : Nat) (sendOk : Bool)
  /-- A datagram; in the loops that verify, what it calls for is sent or not. -/
  | received (now : Nat) (datagram : List UInt8) (sendOk probeOk : Bool)
  | recvFailed (transient : Bool)
  | recvDone
  /-- The timer. -/
  | tick (now : Nat) (sendOk : Bool)
  | tickDone
  /-- A packet of the stack, or the channel closed. -/
  | outbound (now : Nat) (packet : Option (List UInt8))
  | sendDone
  /-- `WG_HEALTHCHECK_INTERVAL`. -/
  | health (now : Nat)
  | healthDone
  /-- A probe of `verify_dataplane` is sent again. -/
  | resend (now : Nat)
  /-- The deadline of `verify_endpoint_keep_session`, or a retransmission that fails. -/
  | timeout

section Machine

variable {T : Type} (lib : Library T) (cfg : Config)

namespace State

/-- `from_established` and `run`. -/
def begin (now : Nat) (s : State T) : State T := {s with phase := .running, recv := .idle, lastValidRx := now}

/-- The first probe of `verify_dataplane`, whose failure ends it. -/
def verifyDataplane (now : Nat) (probeOk : Bool) (s : State T) : State T :=
  let result := lib.encapsulate now cfg.probe s.tunn
  match result.1 with
  | .writeToNetwork _ => {s with tunn := result.2, phase := if probeOk then .dataplane 0 else .stopped}
  | .err => {s with tunn := result.2, phase := .stopped}
  | _ => {s with tunn := result.2, phase := .dataplane 0}

/-- The handshake is over, or taken to be. -/
def verified (now : Nat) (probeOk : Bool) (s : State T) : State T :=
  if cfg.dataCheck then s.verifyDataplane lib cfg now probeOk else s.begin now

/-- A datagram in `verify_endpoint_keep_session`. -/
def verifies (now : Nat) (datagram : List UInt8) (sendOk probeOk : Bool) (s : State T) : State T :=
  let result := lib.decapsulate now (stripClientId datagram) s.tunn
  let s := {s with tunn := result.2}
  match result.1 with
  | .done => s.verified lib cfg now probeOk
  | .writeToNetwork _ => if sendOk then s.verified lib cfg now probeOk else {s with phase := .stopped}
  | _ => s

/-- A datagram in `verify_dataplane`. -/
def confirms (now successes : Nat) (datagram : List UInt8) (s : State T) : State T :=
  let result := lib.decapsulate now (stripClientId datagram) s.tunn
  let s := {s with tunn := result.2}
  match result.1 with
  | .writeToTunnelV4 _ | .writeToTunnelV6 _ =>
    if successes + 1 ≥ dataplaneRequiredSuccesses then s.begin now
    else {s with tunn := (lib.encapsulate now cfg.probe s.tunn).2, phase := .dataplane (successes + 1)}
  | _ => s

/-- A datagram in the receive task: one call of `decapsulate`. -/
def receives (now : Nat) (datagram : List UInt8) (s : State T) : State T :=
  let result := lib.decapsulate now (stripClientId datagram) s.tunn
  let establishing := !lib.established s.tunn && lib.established result.2
  let s := {s with tunn := result.2, transientErrors := 0}
  match result.1 with
  | .done => {s with lastValidRx := now}
  | .err => s
  | _ => {s with lastValidRx := now, recv := .handling establishing}

/-- A step inside `run`. The tasks wait for the lock while the health task holds it. -/
def runs (event : Event) (s : State T) : State T :=
  match event with
  | .received now datagram _ _ => if s.recv = .idle && !s.probing then s.receives lib now datagram else s
  | .recvFailed transient =>
    if s.recv = .idle then
      if transient && s.transientErrors + 1 ≤ maxTransientRecvErrors then
        {s with transientErrors := s.transientErrors + 1}
      else {s with phase := .stopped}
    else s
  | .recvDone => {s with recv := .idle}
  | .outbound now packet =>
    if s.sending || s.probing then s
    else
      match packet with
      | none => {s with phase := .stopped}
      | some packet =>
        let result := lib.encapsulate now packet s.tunn
        match result.1 with
        | .writeToNetwork _ => {s with tunn := result.2, sending := true}
        | _ => {s with tunn := result.2}
  | .sendDone => {s with sending := false}
  | .tick now _ =>
    if s.ticking || s.probing then s
    else
      let result := lib.updateTimers now s.tunn
      match result.1 with
      | .writeToNetwork _ => {s with tunn := result.2, ticking := true}
      | _ => {s with tunn := result.2}
  | .tickDone => {s with ticking := false}
  | .health now =>
    if s.probing then s
    else if now - s.lastValidRx ≥ cfg.staleTimeout then {s with phase := .stopped}
    else
      let result := lib.encapsulate now cfg.probe s.tunn
      match result.1 with
      | .writeToNetwork _ => {s with tunn := result.2, probing := true}
      | _ => {s with tunn := result.2}
  | .healthDone => {s with probing := false}
  | _ => s

def next (event : Event) (s : State T) : State T :=
  match s.phase, event with
  | .start, .new now => s.begin now
  | .start, .verify now sendOk =>
    let result := lib.encapsulate now [] s.tunn
    match result.1 with
    | .writeToNetwork _ => {s with tunn := result.2, phase := if sendOk then .verifying else .stopped}
    | _ => {s with tunn := result.2, phase := .stopped}
  | .verifying, .received now datagram sendOk probeOk => s.verifies lib cfg now datagram sendOk probeOk
  | .verifying, .recvFailed _ => {s with phase := .stopped}
  | .verifying, .tick now sendOk =>
    let result := lib.updateTimers now s.tunn
    match result.1 with
    | .writeToNetwork _ => {s with tunn := result.2, phase := if sendOk then .verifying else .stopped}
    | .err => {s with tunn := result.2, phase := .stopped}
    | _ => {s with tunn := result.2}
  | .verifying, .timeout => {s with phase := .stopped}
  | .dataplane successes, .received now datagram _ _ => s.confirms lib cfg now successes datagram
  | .dataplane _, .recvFailed _ => {s with phase := .stopped}
  | .dataplane _, .resend now => {s with tunn := (lib.encapsulate now cfg.probe s.tunn).2}
  | .dataplane _, .timeout => {s with phase := .stopped}
  | .running, event => s.runs lib cfg event
  | _, _ => s

end State

/-- Before anything is called. -/
def State.init : State T := {tunn := lib.new}

/-! ### Stranded packets -/

/-- A packet is queued in a running tunnel with a session, and the datagram that
established the session has been handled. -/
def Stranded (s : State T) : Prop :=
  s.phase = .running ∧ lib.established s.tunn = true ∧ s.recv ≠ .handling true ∧ lib.queue s.tunn ≠ []

instance (s : State T) : Decidable (Stranded lib s) := inferInstanceAs (Decidable (_ ∧ _ ∧ _ ∧ _))

/-- The datagram establishes the session. -/
def establishes (now : Nat) (datagram : List UInt8) (t : T) : Bool :=
  !lib.established t && lib.established (lib.decapsulate now (stripClientId datagram) t).2

/-- A `Tunn` with a session has nothing queued. -/
def Flushed (t : T) : Prop := lib.established t = true → lib.queue t = []

/-- The session that `run` is started with has nothing queued, and neither has the `Tunn`
when the receive task takes a datagram that establishes one. -/
def Unqueued (event : Event) (s : State T) : Prop :=
  match s.phase with
  | .running =>
    match event with
    | .received now datagram _ _ =>
      s.recv = .idle → s.probing = false → establishes lib now datagram s.tunn = true → lib.queue s.tunn = []
    | _ => True
  | _ => (s.next lib cfg event).phase = .running → Flushed lib (s.next lib cfg event).tunn

end Machine

section Flushing

variable {T : Type} {lib : Library T} {cfg : Config}

/-! ### What the calls do to the queue -/

theorem Flushed.encapsulate (hc : Contract lib) {t : T} (h : Flushed lib t) (now : Nat) (packet : List UInt8) :
    Flushed lib (lib.encapsulate now packet t).2 := by
  intro hafter
  cases hbefore : lib.established t with
  | true => rw [hc.encapsulate_session now packet t hbefore, h hbefore]
  | false =>
    rw [hc.encapsulate_established now packet t hbefore] at hafter
    cases hafter

theorem Flushed.updateTimers (hc : Contract lib) {t : T} (h : Flushed lib t) (now : Nat) :
    Flushed lib (lib.updateTimers now t).2 := by
  intro hafter
  cases hbefore : lib.established t with
  | true =>
    rw [List.eq_nil_iff_forall_not_mem]
    intro packet hmem
    have hold := hc.timers_queue now t packet hmem
    rw [h hbefore] at hold
    cases hold
  | false =>
    rw [hc.timers_established now t hbefore] at hafter
    cases hafter

/-- A datagram that establishes a session is not empty, and leaves the queue as it is. -/
theorem queue_of_establishes (hc : Contract lib) {now : Nat} {datagram : List UInt8} {t : T}
    (h : establishes lib now datagram t = true) :
    lib.queue (lib.decapsulate now (stripClientId datagram) t).2 = lib.queue t := by
  obtain ⟨hbefore, hafter⟩ := Bool.and_eq_true_iff.mp h
  apply hc.decapsulate_keeps
  intro hnil
  rw [hnil, hc.decapsulate_established now t (by simpa using hbefore)] at hafter
  cases hafter

theorem Flushed.decapsulate (hc : Contract lib) {t : T} (h : Flushed lib t) {now : Nat} {datagram : List UInt8}
    (hnew : establishes lib now datagram t = true → lib.queue t = []) :
    Flushed lib (lib.decapsulate now (stripClientId datagram) t).2 := by
  intro hafter
  cases hbefore : lib.established t with
  | true =>
    by_cases hnil : stripClientId datagram = []
    · rw [hnil, hc.decapsulate_flushes now t hbefore, h hbefore]
      rfl
    · rw [hc.decapsulate_keeps now _ t hnil, h hbefore]
  | false =>
    have hestablishes : establishes lib now datagram t = true := by
      rw [establishes, hbefore, hafter]
      rfl
    rw [queue_of_establishes hc hestablishes, hnew hestablishes]

/-! ### What a step does to the queue -/

theorem receives_tunn (now : Nat) (datagram : List UInt8) (s : State T) :
    (s.receives lib now datagram).tunn = (lib.decapsulate now (stripClientId datagram) s.tunn).2 ∧
      (s.receives lib now datagram).phase = s.phase := by
  dsimp only [State.receives]
  split
  · exact ⟨rfl, rfl⟩
  · exact ⟨rfl, rfl⟩
  · exact ⟨rfl, rfl⟩

/-- A step inside `run` keeps what the calls keep. -/
theorem flushed_runs (hc : Contract lib) {s : State T} (h : Flushed lib s.tunn) (hphase : s.phase = .running)
    {event : Event} (hok : Unqueued lib cfg event s) : Flushed lib (s.runs lib cfg event).tunn := by
  cases event with
  | received now datagram sendOk probeOk =>
    rw [State.runs]
    split
    case isTrue hguard =>
      simp only [Bool.and_eq_true, decide_eq_true_eq, Bool.not_eq_true'] at hguard
      simp only [Unqueued, hphase] at hok
      rw [(receives_tunn now datagram s).1]
      exact h.decapsulate hc (hok hguard.1 hguard.2)
    case isFalse => exact h
  | recvFailed transient =>
    rw [State.runs]
    split
    · split
      · exact h
      · exact h
    · exact h
  | outbound now packet =>
    rw [State.runs.eq_def]
    dsimp only
    split
    · exact h
    · cases packet with
      | none => exact h
      | some packet =>
        dsimp only
        split
        · exact h.encapsulate hc now packet
        · exact h.encapsulate hc now packet
  | tick now sendOk =>
    rw [State.runs]
    split
    · exact h
    · dsimp only
      split
      · exact h.updateTimers hc now
      · exact h.updateTimers hc now
  | health now =>
    rw [State.runs]
    split
    · exact h
    · split
      · exact h
      · dsimp only
        split
        · exact h.encapsulate hc now cfg.probe
        · exact h.encapsulate hc now cfg.probe
  | _ => exact h

/-- In `run` a `Tunn` with a session has nothing queued. -/
def Clear (lib : Library T) (s : State T) : Prop := s.phase = .running → Flushed lib s.tunn

theorem clear_step (hc : Contract lib) (event : Event) (s : State T) (h : Clear lib s)
    (hok : Unqueued lib cfg event s) : Clear lib (s.next lib cfg event) := by
  cases hphase : s.phase with
  | running =>
    intro _
    have hnext : s.next lib cfg event = s.runs lib cfg event := by simp only [State.next, hphase]
    rw [hnext]
    exact flushed_runs hc (h hphase) hphase hok
  | _ =>
    simp only [Unqueued, hphase] at hok
    exact hok

theorem not_stranded_of_clear {s : State T} (h : Clear lib s) : ¬ Stranded lib s :=
  fun hs => hs.2.2.2 (h hs.1 hs.2.1)

/-- The receive task is done with its datagram. -/
theorem stranded_recvDone {s : State T} (hphase : s.phase = .running) (hsession : lib.established s.tunn = true)
    (hqueue : lib.queue s.tunn ≠ []) : Stranded lib (s.next lib cfg .recvDone) := by
  have hnext : s.next lib cfg .recvDone = {s with recv := .idle} := by simp only [State.next, hphase, State.runs]
  rw [hnext]
  exact ⟨hphase, hsession, by simp, hqueue⟩

/-- A step that does not meet the condition strands what is queued. -/
theorem stranded_of_queued (hc : Contract lib) {event : Event} {s : State T} (h : ¬ Unqueued lib cfg event s) :
    Stranded lib ((s.next lib cfg event).next lib cfg .recvDone) := by
  cases hphase : s.phase with
  | running =>
    simp only [Unqueued, hphase] at h
    split at h
    case h_1 now datagram sendOk probeOk =>
      simp only [Classical.not_imp] at h
      obtain ⟨hidle, hfree, hestablishes, hqueue⟩ := h
      have hnext : s.next lib cfg (.received now datagram sendOk probeOk) = s.receives lib now datagram := by
        simp [State.next, hphase, State.runs, hidle, hfree]
      obtain ⟨htunn, hrunning⟩ := @receives_tunn T lib now datagram s
      rw [hnext]
      apply stranded_recvDone (hrunning.trans hphase)
      · rw [htunn]
        exact (Bool.and_eq_true_iff.mp hestablishes).2
      · rw [htunn, queue_of_establishes hc hestablishes]
        exact hqueue
    case h_2 => exact absurd trivial h
  | _ =>
    simp only [Unqueued, hphase, Flushed, Classical.not_imp] at h
    exact stranded_recvDone h.1 h.2.1 h.2.2

/-- **When no packet is stranded**: if the session that `run` begins with has nothing
queued, and no session is established while something is. A step that is not so strands
what is queued as soon as the receive task is done. -/
theorem not_stranded_of_unqueued (hc : Contract lib) (events : List Event) :
    (Along (State.next lib cfg) (Unqueued lib cfg) (State.init lib) events →
        ∀ s ∈ visited (State.next lib cfg) (State.init lib) events, ¬ Stranded lib s) ∧
      ∀ event, ¬ Unqueued lib cfg event (run (State.next lib cfg) (State.init lib) events) →
        Stranded lib (run (State.next lib cfg) (State.init lib) (events ++ [event, .recvDone])) := by
  constructor
  · intro halong s hs
    have hclear : Clear lib (State.init lib) := fun hphase => by cases hphase
    have hkeeps : ∀ (event : Event) (s : State T), True → True := fun _ _ h => h
    apply not_stranded_of_clear
    exact visited_of_along hkeeps (fun event s _ => clear_step hc event s) trivial hclear events halong s hs
  · intro event hqueued
    rw [run_append]
    exact stranded_of_queued hc hqueued

end Flushing

/-! ### A library that keeps the contract -/

/-- The queue, and since when there is a session. -/
structure Sketch where
  queue : List (List UInt8) := []
  session : Option Nat := none

namespace Sketch

def push (packet : List UInt8) (t : Sketch) : Sketch :=
  if t.queue.length < maxQueueDepth then {t with queue := t.queue ++ [packet]} else t

/-- A handshake response is message 2 and answered with a keepalive, data is message 4,
and a session is over after 180 seconds. -/
def library : Library Sketch where
  new := {}
  encapsulate _ packet t :=
    match t.session with
    | some _ => (.writeToNetwork (4 :: packet), t)
    | none => (.writeToNetwork [1], t.push packet)
  decapsulate now datagram t :=
    match datagram, t.session, t.queue with
    | [], some _, packet :: rest => (.writeToNetwork (4 :: packet), {t with queue := rest})
    | [], _, _ => (.done, t)
    | kind :: rest, session, _ =>
      if kind = 2 then (.writeToNetwork [4], {t with session := some now})
      else if kind = 4 && session.isSome then (.writeToTunnelV4 rest, t)
      else (.err, t)
  updateTimers now t := (.done, {t with session := t.session.filter fun since => decide (now < since + 180)})
  queue := Sketch.queue
  established t := t.session.isSome

theorem contract : Contract library where
  new_established := rfl
  new_queue := rfl
  encapsulate_session now packet t h := by
    obtain ⟨since, hsince⟩ := Option.isSome_iff_exists.mp h
    simp only [library, hsince]
  encapsulate_queues now packet t h := by
    have hnone : t.session = none := Option.isNone_iff_eq_none.mp (Option.isSome_eq_false_iff.mp h)
    by_cases hroom : t.queue.length < maxQueueDepth
    · simp [library, hnone, push, hroom]
    · simp [library, hnone, push, hroom]
  encapsulate_established now packet t h := by
    have hnone : t.session = none := Option.isNone_iff_eq_none.mp (Option.isSome_eq_false_iff.mp h)
    by_cases hroom : t.queue.length < maxQueueDepth
    · simp [library, hnone, push, hroom]
    · simp [library, hnone, push, hroom]
  decapsulate_keeps now datagram t h := by
    cases datagram with
    | nil => exact absurd rfl h
    | cons kind rest =>
      dsimp only [library]
      split
      · rfl
      · split
        · rfl
        · rfl
  decapsulate_flushes now t h := by
    obtain ⟨since, hsince⟩ := Option.isSome_iff_exists.mp h
    cases hqueue : t.queue with
    | nil => simp [library, hsince, hqueue]
    | cons packet rest => simp [library, hsince, hqueue]
  decapsulate_established now t h := by
    have hnone : t.session = none := Option.isNone_iff_eq_none.mp (Option.isSome_eq_false_iff.mp h)
    simp [library, hnone]
  timers_queue now t packet h := h
  timers_established now t h := by
    have hnone : t.session = none := Option.isNone_iff_eq_none.mp (Option.isSome_eq_false_iff.mp h)
    simp [library, hnone]

end Sketch

/-- The tunnel is verified, and an empty datagram of the peer flushes the packet that
began the handshake before the session is handed to `run`. -/
theorem not_stranded_sketch :
    ¬ ∃ s ∈ visited (State.next Sketch.library ⟨10, true, [69]⟩) (State.init Sketch.library)
      [.verify 0 true, .received 1 [2, 0, 0, 0] true true, .received 2 [] true true,
        .received 3 [4, 0, 0, 0, 69] true true, .received 4 [4, 0, 0, 0, 69] true true, .outbound 5 (some [69])],
      Stranded Sketch.library s := by
  intro hstranded
  obtain ⟨s, hs, hstranded⟩ := hstranded
  have halong : Along (State.next Sketch.library ⟨10, true, [69]⟩) (Unqueued Sketch.library ⟨10, true, [69]⟩)
      (State.init Sketch.library)
      [.verify 0 true, .received 1 [2, 0, 0, 0] true true, .received 2 [] true true,
        .received 3 [4, 0, 0, 0, 69] true true, .received 4 [4, 0, 0, 0, 69] true true, .outbound 5 (some [69])] := by
    refine ⟨?_, ?_, ?_, ?_, ?_, ?_, trivial⟩
    · exact fun h => absurd h (by decide)
    · exact fun h => absurd h (by decide)
    · exact fun h => absurd h (by decide)
    · exact fun h => absurd h (by decide)
    · exact fun _ _ => rfl
    · trivial
  exact (not_stranded_of_unqueued Sketch.contract _).1 halong s hs hstranded

/-- The session has expired, a packet is queued and begins a handshake, and the receive
task handles the response: the packet stays in the queue. -/
theorem packet_stranded :
    Stranded Sketch.library
      (run (State.next Sketch.library ⟨10, false, [69]⟩) (State.init Sketch.library)
        [.verify 0 true, .received 1 [2, 0, 0, 0] true true, .tick 200 true, .outbound 201 (some [69, 1]), .sendDone,
          .received 202 [2, 0, 0, 0] true true, .recvDone]) ∧
      [69, 1] ∈ (run (State.next Sketch.library ⟨10, false, [69]⟩) (State.init Sketch.library)
        [.verify 0 true, .received 1 [2, 0, 0, 0] true true, .tick 200 true, .outbound 201 (some [69, 1]), .sendDone,
          .received 202 [2, 0, 0, 0] true true, .recvDone]).tunn.queue := by
  decide

end Aether.WireGuard
