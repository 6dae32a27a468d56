import Aether.Masque.Drain
import Aether.Masque.Readiness

/-! `masque_h2::run`.

The run connects, asks for the tunnel, and refuses any answer but a success. Then it
either signals at once or sends a probe first, and enters its loop: the deadlines are
looked at, and `select!` waits for the first of a timer, a pong, a control message, a
packet to send or a chunk of the body. A send waits inside its branch until the stream
has capacity.

An `Event` is what one of these waits ends with; one that is not waited for, because the
run is elsewhere or its branch is disabled, changes nothing. -/
namespace Aether.Masque.H2
open Machine

/-! ### The machine -/

structure Config where
  target : Target
  dataCheck : Bool
  /-- `validation_timeout`; both timeouts are positive. -/
  validationTimeout : Nat
  validation_pos : 0 < validationTimeout
  keepaliveTimeout : Nat
  keepalive_pos : 0 < keepaliveTimeout
  /-- `build_dns_probe_packet`. -/
  probePacket : List UInt8

/-- Why a capsule is sent. -/
inductive Sending where
  | initial
  | probe
  | followUp
  | outbound
  deriving DecidableEq

inductive Phase where
  /-- Up to `send_request`. -/
  | connecting
  | awaitingResponse
  /-- In `send_capsule`, with a capsule of this length, waiting for capacity. -/
  | sending (what : Sending) (len : Nat)
  /-- In `select!`. -/
  | select
  | ended (outcome : Outcome)
  deriving DecidableEq

structure State where
  phase : Phase := .connecting
  readyFired : Bool := false
  validateSuccesses : Nat := 0
  validateDeadline : Option Nat := none
  awaitingPong : Bool := false
  pongDeadline : Option Nat := none
  capsules : CapsuleParser := {}
  journal : Journal := []

/-- What the run meets when it takes a step: the time, the capacity of the stream and
whether it takes data. -/
structure Io where
  now : Nat
  capacity : Nat
  sendOk : Bool

inductive Control where
  | close
  | migrate

inductive Capacity where
  | more
  | error
  | closed

inductive Event where
  /-- Dialling, the handshakes and `send_request`, or one of them failing. -/
  | connected (ok : Bool)
  /-- The status of the response, or an error. -/
  | response (status : Option Nat)
  /-- `poll_capacity`. -/
  | capacity (result : Capacity)
  | keepaliveTick (pingOk : Bool)
  | pong (ok : Bool)
  | probeTick
  /-- A control message, or the channel closed. -/
  | ctrl (message : Option Control)
  /-- A packet of the stack, or the channel closed. -/
  | outbound (packet : Option (List UInt8))
  /-- A chunk of the body, with the channels it is drained into. -/
  | chunk (bytes : List UInt8) (sinks : Sinks)
  | bodyError
  | bodyEnd

/-- The length of `encode_datagram_capsule`. -/
def framedLength (packet : List UInt8) : Nat :=
  varintLen capsuleDatagram + varintLen packet.length + packet.length

namespace State

def record (a : Act) (s : State) : State := {s with journal := s.journal ++ [a]}

/-- The head of the loop: the deadlines, then `select!`. -/
def loopTop (cfg : Config) (now : Nat) (s : State) : State :=
  if cfg.dataCheck && !s.readyFired && s.validateDeadline.any (· ≤ now) then {s with phase := .ended .error}
  else if s.pongDeadline.any (· ≤ now) then {s with phase := .ended .error}
  else {s with phase := .select}

/-- Behind `send_capsule`; only an outbound packet that cannot be sent ends the run. -/
def sent (cfg : Config) (what : Sending) (ok : Bool) (now : Nat) (s : State) : State :=
  match what with
  | .initial =>
    let s := if ok then s.record .probe else s
    {s with validateDeadline := some (now + cfg.validationTimeout)}.loopTop cfg now
  | .outbound => if ok then s.loopTop cfg now else {s with phase := .ended .error}
  | _ =>
    let s := if ok then s.record .probe else s
    s.loopTop cfg now

/-- `send_capsule`. -/
def sendCapsule (cfg : Config) (what : Sending) (len : Nat) (io : Io) (s : State) : State :=
  if io.capacity < len then {s with phase := .sending what len} else s.sent cfg what io.sendOk io.now

/-- The response is there. -/
def accepted (cfg : Config) (io : Io) (s : State) : State :=
  if cfg.dataCheck then s.sendCapsule cfg .initial (framedLength cfg.probePacket) io
  else ({s with readyFired := true}.record .ready).loopTop cfg io.now

/-- A chunk is drained, and its packets may validate the tunnel. -/
def received (cfg : Config) (bytes : List UInt8) (sinks : Sinks) (io : Io) (s : State) : State :=
  let drained := drainCapsules .h2 cfg.target (s.capsules.push bytes) {sinks with delivered := false}
  let s := {s with capsules := drained.1}
  if drained.2.delivered then
    let s := s.record .reception
    if s.readyFired then s.loopTop cfg io.now
    else
      let s := {s with validateSuccesses := s.validateSuccesses + 1}
      if s.validateSuccesses ≥ dataProbeRequiredSuccesses then
        ({s with readyFired := true, validateDeadline := none}.record .ready).loopTop cfg io.now
      else s.sendCapsule cfg .followUp (framedLength cfg.probePacket) io
  else s.loopTop cfg io.now

/-- What a branch of `select!` does; a branch that is disabled does nothing. -/
def selected (cfg : Config) (io : Io) (event : Event) (s : State) : State :=
  match event with
  | .keepaliveTick pingOk =>
    if s.readyFired && !s.awaitingPong then
      let s := if pingOk then {s with awaitingPong := true, pongDeadline := some (io.now + cfg.keepaliveTimeout)} else s
      s.loopTop cfg io.now
    else s
  | .pong ok =>
    if s.awaitingPong then
      if ok then {s with awaitingPong := false, pongDeadline := none}.loopTop cfg io.now
      else {s with phase := .ended .error}
    else s
  | .probeTick =>
    if cfg.dataCheck && !s.readyFired then s.sendCapsule cfg .probe (framedLength cfg.probePacket) io else s
  | .ctrl message =>
    match message with
    | some .migrate => s.loopTop cfg io.now
    | _ => {s with phase := .ended .ok}
  | .outbound packet =>
    match packet with
    | some packet => s.sendCapsule cfg .outbound (framedLength packet) io
    | none => {s with phase := .ended .ok}
  | .chunk bytes sinks => s.received cfg bytes sinks io
  | .bodyError => {s with phase := .ended .error}
  | .bodyEnd => {s with phase := .ended .ok}
  | _ => s

def next (cfg : Config) (step : Event × Io) (s : State) : State :=
  match s.phase, step.1 with
  | .connecting, .connected ok =>
    if ok then {s with phase := .awaitingResponse}.record .request else {s with phase := .ended .error}
  | .awaitingResponse, .response status =>
    match status with
    | none => {s with phase := .ended .error}
    | some code =>
      let s := s.record (.status code)
      if isSuccess code then s.accepted cfg step.2 else {s with phase := .ended .error}
  | .sending what len, .capacity result =>
    match result with
    | .more => s.sendCapsule cfg what len step.2
    | _ => s.sent cfg what false step.2.now
  | .select, event => s.selected cfg step.2 event
  | _, _ => s

end State

/-- How the run ended, if it did. -/
def State.outcome (s : State) : Option Outcome :=
  match s.phase with
  | .ended outcome => some outcome
  | _ => none

/-! ### What the parts of a step can do -/

section Parts

variable {cfg : Config} {s : State}

/-- The head of the loop only ends the run or waits. -/
theorem loopTop_cases (cfg : Config) (now : Nat) (s : State) :
    s.loopTop cfg now = {s with phase := .ended .error} ∨ s.loopTop cfg now = {s with phase := .select} := by
  rw [State.loopTop]
  split
  · exact .inl rfl
  · split
    · exact .inl rfl
    · exact .inr rfl

/-- A send that is over: the run ends with an error, or it goes on at the head of the loop,
with a probe in the journal or without. -/
theorem sent_cases (cfg : Config) (what : Sending) (ok : Bool) (now : Nat) (s : State) :
    s.sent cfg what ok now = {s with phase := .ended .error} ∨
      ∃ s' deadline, (s' = s ∨ s' = s.record .probe) ∧
        s.sent cfg what ok now = {s' with validateDeadline := deadline}.loopTop cfg now := by
  cases what with
  | outbound =>
    cases ok with
    | false => exact .inl rfl
    | true => exact .inr ⟨s, s.validateDeadline, .inl rfl, rfl⟩
  | initial =>
    cases ok with
    | false => exact .inr ⟨s, _, .inl rfl, rfl⟩
    | true => exact .inr ⟨s.record .probe, _, .inr rfl, rfl⟩
  | _ =>
    cases ok with
    | false => exact .inr ⟨s, s.validateDeadline, .inl rfl, rfl⟩
    | true => exact .inr ⟨s.record .probe, s.validateDeadline, .inr rfl, rfl⟩

theorem sendCapsule_cases (cfg : Config) (what : Sending) (len : Nat) (io : Io) (s : State) :
    s.sendCapsule cfg what len io = {s with phase := .sending what len} ∨
      s.sendCapsule cfg what len io = s.sent cfg what io.sendOk io.now := by
  rw [State.sendCapsule]
  split
  · exact .inl rfl
  · exact .inr rfl

end Parts

/-! ### The signal -/

/-- What holds once the edge has accepted the request. -/
structure Live (cfg : Config) (s : State) : Prop where
  granted : s.journal.granted = true
  unready : s.readyFired = false →
    .ready ∉ s.journal ∧ s.journal.count .reception = s.validateSuccesses ∧
      s.validateSuccesses < dataProbeRequiredSuccesses ∧ cfg.dataCheck = true

def Inv (cfg : Config) (s : State) : Prop :=
  match s.phase with
  | .connecting => s.journal = [] ∧ s.readyFired = false ∧ s.validateSuccesses = 0
  | .awaitingResponse => s.journal = [.request] ∧ s.readyFired = false ∧ s.validateSuccesses = 0
  | .ended _ => True
  | _ => Live cfg s

section Signal

variable {cfg : Config} {s : State}

theorem granted_of_snoc {j : Journal} (h : j.granted = true) (a : Act) : Journal.granted (j ++ [a]) = true := by
  rw [Journal.granted_snoc, h, Bool.true_or]

/-- A probe changes nothing about the signal. -/
theorem Live.probe (h : Live cfg s) : Live cfg (s.record .probe) where
  granted := granted_of_snoc h.granted .probe
  unready hready := by
    obtain ⟨hnot, hcount, hrest⟩ := h.unready hready
    refine ⟨?_, ?_, hrest⟩
    · intro hmem
      obtain hmem | hmem := List.mem_append.mp hmem
      · exact hnot hmem
      · exact absurd (List.mem_singleton.mp hmem) (by simp)
    · show (s.journal ++ [Act.probe]).count .reception = _
      rw [List.count_append]
      exact hcount

theorem Live.loopTop (h : Live cfg s) (now : Nat) : Inv cfg (s.loopTop cfg now) := by
  obtain htop | htop := loopTop_cases cfg now s
  · rw [htop]
    trivial
  · rw [htop]
    exact ⟨h.granted, h.unready⟩

theorem Live.sent (h : Live cfg s) (what : Sending) (ok : Bool) (now : Nat) : Inv cfg (s.sent cfg what ok now) := by
  obtain hsent | ⟨s', deadline, hs', hsent⟩ := sent_cases cfg what ok now s
  · rw [hsent]
    trivial
  · rw [hsent]
    have hlive : Live cfg s' := by
      obtain rfl | rfl := hs'
      · exact h
      · exact h.probe
    have hdeadline : Live cfg {s' with validateDeadline := deadline} := ⟨hlive.granted, hlive.unready⟩
    exact hdeadline.loopTop now

theorem Live.sendCapsule (h : Live cfg s) (what : Sending) (len : Nat) (io : Io) :
    Inv cfg (s.sendCapsule cfg what len io) := by
  obtain hsend | hsend := sendCapsule_cases cfg what len io s
  · rw [hsend]
    exact ⟨h.granted, h.unready⟩
  · rw [hsend]
    exact h.sent what io.sendOk io.now

/-- Whether a chunk brings packets for the stack. -/
def delivers (cfg : Config) (s : State) (bytes : List UInt8) (sinks : Sinks) : Bool :=
  (drainCapsules .h2 cfg.target (s.capsules.push bytes) {sinks with delivered := false}).2.delivered

/-- A chunk without packets, or one that comes after the signal, only goes into the
journal; otherwise it is counted, and the last one required gives the signal. -/
theorem received_cases (cfg : Config) (bytes : List UInt8) (sinks : Sinks) (io : Io) (s : State) :
    ∃ capsules,
      (delivers cfg s bytes sinks = false ∧ s.received cfg bytes sinks io = {s with capsules}.loopTop cfg io.now) ∨
      (delivers cfg s bytes sinks = true ∧ s.readyFired = true ∧
        s.received cfg bytes sinks io = ({s with capsules}.record .reception).loopTop cfg io.now) ∨
      (delivers cfg s bytes sinks = true ∧ s.readyFired = false ∧
        dataProbeRequiredSuccesses ≤ s.validateSuccesses + 1 ∧
        s.received cfg bytes sinks io =
          (({{s with capsules}.record .reception with
            validateSuccesses := s.validateSuccesses + 1, readyFired := true, validateDeadline := none}).record
              .ready).loopTop cfg io.now) ∨
      (delivers cfg s bytes sinks = true ∧ s.readyFired = false ∧
        s.validateSuccesses + 1 < dataProbeRequiredSuccesses ∧
        s.received cfg bytes sinks io =
          {{s with capsules}.record .reception with validateSuccesses := s.validateSuccesses + 1}.sendCapsule cfg
            .followUp (framedLength cfg.probePacket) io) := by
  refine ⟨(drainCapsules .h2 cfg.target (s.capsules.push bytes) {sinks with delivered := false}).1, ?_⟩
  cases hd : delivers cfg s bytes sinks with
  | false =>
    refine .inl ⟨rfl, ?_⟩
    rw [delivers] at hd
    simp only [State.received, hd, Bool.false_eq_true, if_false]
  | true =>
    rw [delivers] at hd
    cases hready : s.readyFired with
    | true =>
      refine .inr (.inl ⟨rfl, rfl, ?_⟩)
      simp only [State.received, hd, if_true, State.record, hready]
    | false =>
      by_cases hlast : dataProbeRequiredSuccesses ≤ s.validateSuccesses + 1
      · refine .inr (.inr (.inl ⟨rfl, rfl, hlast, ?_⟩))
        simp only [State.received, hd, if_true, State.record, hready, Bool.false_eq_true, if_false, ge_iff_le, hlast]
      · refine .inr (.inr (.inr ⟨rfl, rfl, by omega, ?_⟩))
        simp only [State.received, hd, if_true, State.record, hready, Bool.false_eq_true, if_false, ge_iff_le, hlast]

theorem Live.received (h : Live cfg s) (bytes : List UInt8) (sinks : Sinks) (io : Io) :
    Inv cfg (s.received cfg bytes sinks io) := by
  obtain ⟨capsules, ⟨-, hrec⟩ | ⟨-, hready, hrec⟩ | ⟨-, hready, -, hrec⟩ | ⟨-, hready, hless, hrec⟩⟩ :=
    received_cases cfg bytes sinks io s
  · have hlive : Live cfg {s with capsules} := ⟨h.granted, h.unready⟩
    rw [hrec]
    exact hlive.loopTop io.now
  · have hlive : Live cfg ({s with capsules}.record .reception) :=
      ⟨granted_of_snoc h.granted .reception, fun hfalse => absurd (hready.symm.trans hfalse) (by simp)⟩
    rw [hrec]
    exact hlive.loopTop io.now
  · rw [hrec]
    apply Live.loopTop
    exact ⟨granted_of_snoc (granted_of_snoc h.granted .reception) .ready, fun hfalse => absurd hfalse (by simp [State.record])⟩
  · obtain ⟨hnot, hcount, -, hcheck⟩ := h.unready hready
    rw [hrec]
    apply Live.sendCapsule
    refine ⟨granted_of_snoc h.granted .reception, fun _ => ⟨?_, ?_, hless, hcheck⟩⟩
    · intro hmem
      obtain hmem | hmem := List.mem_append.mp hmem
      · exact hnot hmem
      · exact absurd (List.mem_singleton.mp hmem) (by simp)
    · show (s.journal ++ [Act.reception]).count .reception = s.validateSuccesses + 1
      rw [List.count_append, hcount]
      rfl

/-- What an enabled branch of `select!` does keeps the invariant. -/
theorem Live.selected (h : Live cfg s) (hphase : s.phase = .select) (io : Io) (event : Event) :
    Inv cfg (s.selected cfg io event) := by
  have hstay : Inv cfg s := by
    rw [Inv, hphase]
    exact h
  cases event with
  | keepaliveTick pingOk =>
    dsimp only [State.selected]
    split
    · have hlive : Live cfg (if pingOk then
          {s with awaitingPong := true, pongDeadline := some (io.now + cfg.keepaliveTimeout)} else s) := by
        split
        · exact ⟨h.granted, h.unready⟩
        · exact h
      exact hlive.loopTop io.now
    · exact hstay
  | pong ok =>
    dsimp only [State.selected]
    split
    · split
      · have hlive : Live cfg {s with awaitingPong := false, pongDeadline := none} := ⟨h.granted, h.unready⟩
        exact hlive.loopTop io.now
      · trivial
    · exact hstay
  | probeTick =>
    dsimp only [State.selected]
    split
    · exact h.sendCapsule _ _ io
    · exact hstay
  | ctrl message =>
    rcases message with _ | _ | _
    · trivial
    · trivial
    · exact h.loopTop io.now
  | outbound packet =>
    cases packet with
    | none => trivial
    | some packet => exact h.sendCapsule _ _ io
  | chunk bytes sinks => exact h.received bytes sinks io
  | bodyError => trivial
  | bodyEnd => trivial
  | connected ok => exact hstay
  | response status => exact hstay
  | capacity result => exact hstay

/-- The edge has accepted the request: the run sends its first probe, or signals. -/
theorem Live.accepted (hgranted : s.journal.granted = true) (hready : .ready ∉ s.journal)
    (hcount : s.journal.count .reception = s.validateSuccesses) (hzero : s.validateSuccesses = 0) (io : Io) :
    Inv cfg (s.accepted cfg io) := by
  rw [State.accepted]
  split
  case isTrue hcheck =>
    have hlive : Live cfg s := ⟨hgranted, fun _ => ⟨hready, hcount, by rw [hzero]; decide, hcheck⟩⟩
    exact hlive.sendCapsule _ _ io
  case isFalse hcheck =>
    apply Live.loopTop
    exact ⟨granted_of_snoc hgranted .ready, fun hfalse => absurd hfalse (by simp [State.record])⟩

theorem inv_step (step : Event × Io) (s : State) (h : Inv cfg s) : Inv cfg (s.next cfg step) := by
  obtain ⟨event, io⟩ := step
  cases hphase : s.phase with
  | connecting =>
    rw [Inv, hphase] at h
    cases event
    case connected ok =>
      rw [State.next, hphase]
      dsimp only
      split
      · exact ⟨by rw [State.record, h.1]; rfl, h.2⟩
      · trivial
    all_goals
      simp only [State.next, hphase]
      rw [Inv, hphase]
      exact h
  | awaitingResponse =>
    rw [Inv, hphase] at h
    cases event
    case response status =>
      rw [State.next, hphase]
      cases status with
      | none => trivial
      | some code =>
        dsimp only
        split
        case isTrue hsuccess =>
          apply Live.accepted
          · show Journal.granted (s.journal ++ [.status code]) = true
            rw [h.1]
            simp [Journal.granted, hsuccess]
          · show .ready ∉ s.journal ++ [.status code]
            rw [h.1]
            simp
          · show (s.journal ++ [Act.status code]).count .reception = s.validateSuccesses
            rw [h.1, h.2.2]
            rfl
          · exact h.2.2
        case isFalse => trivial
    all_goals
      simp only [State.next, hphase]
      rw [Inv, hphase]
      exact h
  | sending what len =>
    have hlive : Live cfg s := by
      rw [Inv, hphase] at h
      exact h
    cases event
    case capacity result =>
      rw [State.next, hphase]
      cases result with
      | more => exact hlive.sendCapsule what len io
      | error => exact hlive.sent what false io.now
      | closed => exact hlive.sent what false io.now
    all_goals
      simp only [State.next, hphase]
      exact h
  | select =>
    have hlive : Live cfg s := by
      rw [Inv, hphase] at h
      exact h
    rw [State.next, hphase]
    exact hlive.selected hphase io event
  | ended outcome =>
    simp only [State.next, hphase]
    exact h

end Signal

/-! ### The contract -/

/-- The journal of the run meets the contract. -/
def Sound (cfg : Config) (s : State) : Prop := Accepted cfg.dataCheck s.journal s.outcome

/-- The reception that gives the signal comes after a probe, and so did those before it. -/
def Solicited (cfg : Config) (step : Event × Io) (s : State) : Prop :=
  match s.phase, step.1 with
  | .select, .chunk bytes sinks =>
    delivers cfg s bytes sinks = true → s.readyFired = false →
      dataProbeRequiredSuccesses ≤ s.validateSuccesses + 1 → s.journal.ProbeFirst
  | _, _ => True

section Contract

variable {cfg : Config} {s : State}

theorem journal_loopTop (cfg : Config) (now : Nat) (s : State) : (s.loopTop cfg now).journal = s.journal := by
  obtain htop | htop := loopTop_cases cfg now s
  · rw [htop]
  · rw [htop]

/-- The head of the loop asks nothing. -/
theorem sound_loopTop (h : Accepted cfg.dataCheck s.journal none) (now : Nat) : Sound cfg (s.loopTop cfg now) := by
  obtain htop | htop := loopTop_cases cfg now s
  · rw [htop]
    exact h.finish _
  · rw [htop]
    exact h

theorem sound_sent (h : Accepted cfg.dataCheck s.journal none) (what : Sending) (ok : Bool) (now : Nat) :
    Sound cfg (s.sent cfg what ok now) := by
  obtain hsent | ⟨s', deadline, hs', hsent⟩ := sent_cases cfg what ok now s
  · rw [hsent]
    exact h.finish _
  · rw [hsent]
    apply sound_loopTop
    obtain rfl | rfl := hs'
    · exact h
    · exact h.snoc_plain (by simp) rfl

theorem sound_sendCapsule (h : Accepted cfg.dataCheck s.journal none) (what : Sending) (len : Nat) (io : Io) :
    Sound cfg (s.sendCapsule cfg what len io) := by
  obtain hsend | hsend := sendCapsule_cases cfg what len io s
  · rw [hsend]
    exact h
  · rw [hsend]
    exact sound_sent h what io.sendOk io.now

/-- A signal, and the head of the loop. -/
theorem sound_signal_iff {j : Journal} (h : Accepted cfg.dataCheck j none) (hfirst : .ready ∉ j)
    (hj : s.journal = j ++ [.ready]) (now : Nat) :
    Sound cfg (s.loopTop cfg now) ↔ MaySignal cfg.dataCheck j := by
  rw [Sound, journal_loopTop, hj]
  exact accepted_snoc_ready_iff h hfirst _

/-- The last reception required may signal exactly if the probe was first. -/
theorem maySignal_reception_iff (hlive : Live cfg s) (hready : s.readyFired = false)
    (hlast : dataProbeRequiredSuccesses ≤ s.validateSuccesses + 1) :
    MaySignal cfg.dataCheck (s.journal ++ [.reception]) ↔ s.journal.ProbeFirst := by
  obtain ⟨-, hcount, hless, hcheck⟩ := hlive.unready hready
  have hreceptions : s.journal.count .reception + 1 = dataProbeRequiredSuccesses := by
    rw [hcount]
    omega
  rw [← Journal.probed_snoc_reception hreceptions, MaySignal, hcheck]
  exact ⟨fun h => h.2 rfl, fun h => ⟨granted_of_snoc hlive.granted .reception, fun _ => h⟩⟩

theorem notMem_ready_reception (h : .ready ∉ s.journal) : Act.ready ∉ s.journal ++ [.reception] := by
  rw [List.mem_append, List.mem_singleton]
  rintro (hmem | hmem)
  · exact h hmem
  · cases hmem

theorem sound_received_iff (hlive : Live cfg s) (h : Accepted cfg.dataCheck s.journal none) (bytes : List UInt8)
    (sinks : Sinks) (io : Io) :
    Sound cfg (s.received cfg bytes sinks io) ↔
      (delivers cfg s bytes sinks = true → s.readyFired = false →
        dataProbeRequiredSuccesses ≤ s.validateSuccesses + 1 → s.journal.ProbeFirst) := by
  have hreception : Accepted cfg.dataCheck (s.journal ++ [.reception]) none := h.snoc_plain (by simp) rfl
  obtain ⟨capsules, ⟨hd, hrec⟩ | ⟨-, hready, hrec⟩ | ⟨hd, hready, hlast, hrec⟩ | ⟨-, -, hless, hrec⟩⟩ :=
    received_cases cfg bytes sinks io s
  · have hsound : Sound cfg (s.received cfg bytes sinks io) := by
      rw [hrec]
      apply sound_loopTop
      exact h
    exact iff_of_true hsound fun htrue => absurd (hd.symm.trans htrue) (by simp)
  · have hsound : Sound cfg (s.received cfg bytes sinks io) := by
      rw [hrec]
      exact sound_loopTop hreception io.now
    exact iff_of_true hsound fun _ hfalse => absurd (hready.symm.trans hfalse) (by simp)
  · have hfirst := notMem_ready_reception (hlive.unready hready).1
    rw [hrec, sound_signal_iff hreception hfirst rfl, maySignal_reception_iff hlive hready hlast]
    exact ⟨fun hp _ _ _ => hp, fun hp => hp hd hready hlast⟩
  · have hsound : Sound cfg (s.received cfg bytes sinks io) := by
      rw [hrec]
      exact sound_sendCapsule hreception _ _ io
    exact iff_of_true hsound fun _ _ hlast => absurd hlast (by omega)

/-- Only a chunk of the body asks something of the contract. -/
theorem sound_selected (h : Accepted cfg.dataCheck s.journal none) (hphase : s.phase = .select) (io : Io)
    {event : Event} (hchunk : ∀ bytes sinks, event ≠ .chunk bytes sinks) : Sound cfg (s.selected cfg io event) := by
  have hstay : Sound cfg s := by
    rw [Sound, State.outcome, hphase]
    exact h
  cases event with
  | keepaliveTick pingOk =>
    dsimp only [State.selected]
    split
    · apply sound_loopTop
      split
      · exact h
      · exact h
    · exact hstay
  | pong ok =>
    dsimp only [State.selected]
    split
    · split
      · apply sound_loopTop
        exact h
      · exact h.finish _
    · exact hstay
  | probeTick =>
    dsimp only [State.selected]
    split
    · exact sound_sendCapsule h _ _ io
    · exact hstay
  | ctrl message =>
    rcases message with _ | _ | _
    · exact h.finish _
    · exact h.finish _
    · exact sound_loopTop h io.now
  | outbound packet =>
    cases packet with
    | none => exact h.finish _
    | some packet => exact sound_sendCapsule h _ _ io
  | chunk bytes sinks => exact absurd rfl (hchunk bytes sinks)
  | bodyError => exact h.finish _
  | bodyEnd => exact h.finish _
  | connected ok => exact hstay
  | response status => exact hstay
  | capacity result => exact hstay

/-- A response is recorded; a success lets the run go on and anything else ends it. -/
theorem sound_response (h : Accepted cfg.dataCheck s.journal none) (hready : .ready ∉ s.journal) (code : Nat)
    (io : Io) :
    Sound cfg (if isSuccess code then (s.record (.status code)).accepted cfg io
      else {s.record (.status code) with phase := .ended .error}) := by
  cases hsuccess : isSuccess code with
  | false =>
    exact (accepted_snoc_status_iff h code _).mpr fun _ => ⟨rfl, hready⟩
  | true =>
    have hrefusal : isRefusal code = false := by
      rw [isRefusal, hsuccess]
      rfl
    have hstatus : Accepted cfg.dataCheck (s.journal ++ [.status code]) none :=
      (accepted_snoc_status_iff h code none).mpr fun hr => absurd (hrefusal.symm.trans hr) (by simp)
    rw [if_pos rfl, State.accepted]
    split
    case isTrue => exact sound_sendCapsule hstatus _ _ io
    case isFalse hcheck =>
      have hfirst : Act.ready ∉ s.journal ++ [.status code] := by
        rw [List.mem_append, List.mem_singleton]
        rintro (hmem | hmem)
        · exact hready hmem
        · cases hmem
      rw [sound_signal_iff hstatus hfirst rfl]
      refine ⟨?_, fun htrue => absurd htrue hcheck⟩
      rw [Journal.granted_snoc]
      simp [Journal.granted, hsuccess]

theorem sound_step (step : Event × Io) (s : State) (hinv : Inv cfg s) (h : Sound cfg s) :
    Sound cfg (s.next cfg step) ↔ Solicited cfg step s := by
  obtain ⟨event, io⟩ := step
  cases hphase : s.phase with
  | connecting =>
    have haccepted : Accepted cfg.dataCheck s.journal none := by
      rw [Sound, State.outcome, hphase] at h
      exact h
    simp only [Solicited, hphase, iff_true]
    cases event
    case connected ok =>
      rw [State.next, hphase]
      dsimp only
      split
      · exact haccepted.snoc_plain (by simp) rfl
      · exact haccepted.finish _
    all_goals
      simp only [State.next, hphase]
      exact h
  | awaitingResponse =>
    have haccepted : Accepted cfg.dataCheck s.journal none := by
      rw [Sound, State.outcome, hphase] at h
      exact h
    have hready : .ready ∉ s.journal := by
      rw [Inv, hphase] at hinv
      rw [hinv.1]
      simp
    simp only [Solicited, hphase, iff_true]
    cases event
    case response status =>
      rw [State.next, hphase]
      cases status with
      | none => exact haccepted.finish _
      | some code => exact sound_response haccepted hready code io
    all_goals
      simp only [State.next, hphase]
      exact h
  | sending what len =>
    have haccepted : Accepted cfg.dataCheck s.journal none := by
      rw [Sound, State.outcome, hphase] at h
      exact h
    simp only [Solicited, hphase, iff_true]
    cases event
    case capacity result =>
      rw [State.next, hphase]
      cases result with
      | more => exact sound_sendCapsule haccepted what len io
      | error => exact sound_sent haccepted what false io.now
      | closed => exact sound_sent haccepted what false io.now
    all_goals
      simp only [State.next, hphase]
      exact h
  | select =>
    have haccepted : Accepted cfg.dataCheck s.journal none := by
      rw [Sound, State.outcome, hphase] at h
      exact h
    have hlive : Live cfg s := by
      rw [Inv, hphase] at hinv
      exact hinv
    rw [State.next, hphase]
    cases event
    case chunk bytes sinks =>
      simp only [Solicited, hphase]
      exact sound_received_iff hlive haccepted bytes sinks io
    all_goals
      simp only [Solicited, hphase, iff_true]
      exact sound_selected haccepted hphase io (by simp)
  | ended outcome =>
    simp only [State.next, Solicited, hphase, iff_true]
    exact h

/-- Every state of a run meets the contract exactly if the signal is given to a reception
that was asked for. -/
theorem sound_run_iff (cfg : Config) (events : List (Event × Io)) :
    (∀ s ∈ visited (State.next cfg) {} events, Sound cfg s) ↔ Along (State.next cfg) (Solicited cfg) {} events := by
  have hinv : Inv cfg {} := ⟨rfl, rfl, rfl⟩
  exact visited_iff_along inv_step sound_step hinv (accepted_nil _ _) events

end Contract

end Aether.Masque.H2
