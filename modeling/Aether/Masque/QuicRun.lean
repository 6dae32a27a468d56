import Aether.Masque.H2Run

/-! `quic::run`.

A turn of the loop looks at the validation deadline, waits in `select!`, sends the request
once the handshake is over, polls the HTTP/3 events, drains the datagrams and flushes. The
status of the answer is only logged, and without the data check the signal is given as soon
as the request is sent.

What the connection does is not modelled: an `Event` is what it returns at the point the
run is at, in any order and with any content. -/
namespace Aether.Masque.Quic
open Machine Octets
open H2 (Control)

/-! ### Datagrams -/

def quarterStreamId (streamId : Nat) : Nat := streamId / 4

/-- `decode_ip_datagram`: the packet, or nothing if the datagram belongs to another stream
or another context. -/
def decodeIpDatagram (datagram : List UInt8) (expectStreamId : Nat) : Except AetherError (Option (List UInt8)) := do
  let (qsid, b) ← oct (getVarint datagram)
  if qsid ≠ quarterStreamId expectStreamId then return none
  let (ctx, b) ← oct (getVarint b)
  if ctx ≠ connectIpContextId then return none
  return some b

/-- A datagram that `drain_datagrams` counts. -/
def carriesPacket (streamId : Nat) (datagram : List UInt8) : Bool :=
  match decodeIpDatagram datagram streamId with
  | .ok (some _) => true
  | _ => false

/-! ### The machine -/

structure Config where
  target : Target
  dataCheck : Bool
  validationTimeout : Nat
  /-- An ECH configuration is given. -/
  ech : Bool

inductive Phase where
  /-- At the head of the loop. -/
  | top
  /-- In `select!`. -/
  | select
  /-- Behind `select!`. -/
  | turned
  /-- In `poll_h3`. -/
  | polling (streamId : Nat)
  /-- In `drain_datagrams`, with what it will return. -/
  | draining (streamId : Nat) (delivered : Bool)
  /-- In `flush` and behind it. -/
  | flushing
  | ended (outcome : Outcome)
  deriving DecidableEq

structure State where
  phase : Phase := .top
  readyFired : Bool := false
  validateSuccesses : Nat := 0
  validateDeadline : Option Nat := none
  /-- `req_stream`; `h3_conn` is set and cleared with it. -/
  reqStream : Option Nat := none
  establishedEver : Bool := false
  echRetried : Bool := false
  ctrlOpen : Bool := true
  outboundOpen : Bool := true
  capsules : CapsuleParser := {}
  journal : Journal := []

/-- What `is_closed` and `extract_ech_retry_configs` find behind `flush`. -/
inductive Closing where
  | alive
  | closed
  /-- Closed with retry configurations; the second `connect` and its `flush` may fail. -/
  | retry (ok : Bool)
  deriving DecidableEq

inductive Event where
  /-- `Instant::now()` at the head of the loop. -/
  | head (now : Nat)
  | keepaliveTick
  /-- `probe_interval`, and whether `dgram_send` takes the probe. -/
  | probeTick (sendOk : Bool)
  /-- A packet of the edge for `conn.recv`. -/
  | packet
  | ctrl (message : Option Control)
  | outbound (packet : Option (List UInt8))
  /-- The timeout of the connection. -/
  | timeout
  /-- `is_established`, the stream of the request or an error, and the time then. -/
  | handshake (established : Bool) (stream : Option Nat) (now : Nat)
  /-- A header block on a stream, with its `:status`. -/
  | headers (streamId : Nat) (status : Option Nat)
  /-- The chunks of the body that are read, with the channels they are drained into. -/
  | data (streamId : Nat) (chunks : List (List UInt8)) (sinks : Sinks)
  /-- `Finished`, `Reset` and the other events. -/
  | otherH3
  | h3Done
  | h3Error
  /-- A datagram, and whether `inbound_tx` is still open. -/
  | datagram (bytes : List UInt8) (inboundOpen : Bool)
  | dgramDone
  | flushed (ok : Bool) (closing : Closing)

namespace State

def record (a : Act) (s : State) : State := {s with journal := s.journal ++ [a]}

/-- The head of the loop. -/
def loopTop (cfg : Config) (now : Nat) (s : State) : State :=
  if cfg.dataCheck && !s.readyFired && s.validateDeadline.any (· ≤ now) then {s with phase := .ended .error}
  else {s with phase := .select}

/-- The branches of `select!`; one that is disabled does nothing. -/
def selected (cfg : Config) (event : Event) (s : State) : State :=
  match event with
  | .keepaliveTick => {s with phase := .turned}
  | .probeTick sendOk =>
    if cfg.dataCheck && !s.readyFired then
      let s := if s.reqStream.isSome && sendOk then s.record .probe else s
      {s with phase := .turned}
    else s
  | .packet => {s with phase := .turned}
  | .ctrl message =>
    if s.ctrlOpen then
      match message with
      | some .migrate => {s with phase := .turned}
      | _ => {s with ctrlOpen := false, phase := .turned}
    else s
  | .outbound packet =>
    if s.outboundOpen then {s with outboundOpen := packet.isSome, phase := .turned} else s
  | .timeout => {s with phase := .turned}
  | _ => s

/-- Without a request there is nothing to poll or to drain. -/
def polls (s : State) : State :=
  match s.reqStream with
  | some sid => {s with phase := .polling sid}
  | none => {s with phase := .flushing}

/-- The request is sent once the connection is established. -/
def requests (cfg : Config) (established : Bool) (stream : Option Nat) (now : Nat) (s : State) : State :=
  if established && s.reqStream.isNone then
    let s := {s with establishedEver := true}
    match stream with
    | none => {s with phase := .ended .error}
    | some sid =>
      let s := {s with reqStream := some sid}.record .request
      if cfg.dataCheck then {s with validateDeadline := some (now + cfg.validationTimeout)}.polls
      else if !s.readyFired then ({s with readyFired := true}.record .ready).polls
      else s.polls
  else s.polls

/-- One event of `poll_h3`. -/
def polled (cfg : Config) (sid : Nat) (event : Event) (s : State) : State :=
  match event with
  | .headers streamId status =>
    match status with
    | some code => if streamId = sid then s.record (.status code) else s
    | none => s
  | .data streamId chunks sinks =>
    if streamId = sid then
      let capsules := chunks.foldl (fun p chunk => p.push chunk) s.capsules
      {s with capsules := (drainCapsules .h3 cfg.target capsules sinks).1}
    else s
  | .h3Done => {s with phase := .draining sid false}
  | .h3Error => {s with phase := .ended .error}
  | _ => s

/-- The datagrams of a turn may validate the tunnel. -/
def drained (delivered : Bool) (s : State) : State :=
  if delivered then
    let s := s.record .reception
    if s.readyFired then {s with phase := .flushing}
    else
      let s := {s with validateSuccesses := s.validateSuccesses + 1}
      if s.validateSuccesses ≥ dataProbeRequiredSuccesses then
        {s with readyFired := true, validateDeadline := none, phase := .flushing}.record .ready
      else {s with phase := .flushing}
  else {s with phase := .flushing}

/-- Behind `flush`: a handshake that was never established may be tried once more. -/
def flushes (cfg : Config) (ok : Bool) (closing : Closing) (s : State) : State :=
  if ok then
    match closing with
    | .alive => {s with phase := .top}
    | .closed => {s with phase := .ended .ok}
    | .retry ok =>
      if !s.establishedEver && !s.echRetried && cfg.ech then
        if ok then {s with echRetried := true, reqStream := none, capsules := {}, phase := .top}
        else {s with phase := .ended .error}
      else {s with phase := .ended .ok}
  else {s with phase := .ended .error}

def next (cfg : Config) (event : Event) (s : State) : State :=
  match s.phase, event with
  | .top, .head now => s.loopTop cfg now
  | .select, event => s.selected cfg event
  | .turned, .handshake established stream now => s.requests cfg established stream now
  | .polling sid, event => s.polled cfg sid event
  | .draining sid delivered, .datagram bytes inboundOpen =>
    if carriesPacket sid bytes then
      if inboundOpen then {s with phase := .draining sid true} else s.drained true
    else {s with phase := .draining sid delivered}
  | .draining _ delivered, .dgramDone => s.drained delivered
  | .flushing, .flushed ok closing => s.flushes cfg ok closing
  | _, _ => s

end State

/-- How the run ended, if it did. -/
def State.outcome (s : State) : Option Outcome :=
  match s.phase with
  | .ended outcome => some outcome
  | _ => none

/-! ### The signal -/

/-- What holds while the run goes on. -/
structure Live (cfg : Config) (s : State) : Prop where
  fresh : s.reqStream = none → s.journal = [] ∧ s.readyFired = false ∧ s.validateSuccesses = 0
  idle : s.establishedEver = false → s.reqStream = none
  unready : s.readyFired = false →
    .ready ∉ s.journal ∧ s.journal.count .reception = s.validateSuccesses ∧
      s.validateSuccesses < dataProbeRequiredSuccesses ∧ (s.reqStream.isSome = true → cfg.dataCheck = true)

def Inv (cfg : Config) (s : State) : Prop :=
  match s.phase with
  | .ended _ => True
  | .polling sid => Live cfg s ∧ s.reqStream = some sid
  | .draining sid _ => Live cfg s ∧ s.reqStream = some sid
  | _ => Live cfg s

section Signal

variable {cfg : Config} {s : State} {sid : Nat}

/-- An act that is neither a reception nor the signal changes nothing about the signal. -/
theorem Live.record (h : Live cfg s) (hsid : s.reqStream = some sid) {a : Act} (hready : a ≠ .ready)
    (hreception : a ≠ .reception) : Live cfg (s.record a) where
  fresh hnone := absurd (hsid.symm.trans hnone) (by simp)
  idle := h.idle
  unready hfalse := by
    obtain ⟨hnot, hcount, hrest⟩ := h.unready hfalse
    refine ⟨?_, ?_, hrest⟩
    · show Act.ready ∉ s.journal ++ [a]
      rw [List.mem_append, List.mem_singleton]
      rintro (hmem | hmem)
      · exact hnot hmem
      · exact hready hmem.symm
    · show (s.journal ++ [a]).count .reception = s.validateSuccesses
      have hnone : [a].count .reception = 0 := by
        rw [List.count_eq_zero, List.mem_singleton]
        exact fun he => hreception he.symm
      rw [List.count_append, hnone]
      exact hcount

theorem Live.loopTop (h : Live cfg s) (now : Nat) : Inv cfg (s.loopTop cfg now) := by
  rw [State.loopTop]
  split
  · trivial
  · exact ⟨h.fresh, h.idle, h.unready⟩

/-- Any phase but those that stand for a stream. -/
theorem Live.turned (h : Live cfg s) : Inv cfg {s with phase := .turned} := ⟨h.fresh, h.idle, h.unready⟩

theorem Live.selected (h : Live cfg s) (hphase : s.phase = .select) (event : Event) :
    Inv cfg (s.selected cfg event) := by
  have hstay : Inv cfg s := by
    rw [Inv, hphase]
    exact h
  cases event with
  | keepaliveTick => exact h.turned
  | packet => exact h.turned
  | timeout => exact h.turned
  | probeTick sendOk =>
    dsimp only [State.selected]
    split
    · split
      case isTrue hsend =>
        obtain ⟨sid, hsid⟩ := Option.isSome_iff_exists.mp (Bool.and_eq_true_iff.mp hsend).1
        exact (h.record hsid (by simp) (by simp)).turned
      case isFalse => exact h.turned
    · exact hstay
  | ctrl message =>
    dsimp only [State.selected]
    split
    · split
      · exact h.turned
      · exact ⟨h.fresh, h.idle, h.unready⟩
    · exact hstay
  | outbound packet =>
    dsimp only [State.selected]
    split
    · exact ⟨h.fresh, h.idle, h.unready⟩
    · exact hstay
  | _ => exact hstay

theorem polls_cases (s : State) :
    s.polls = {s with phase := .flushing} ∨
      ∃ sid, s.reqStream = some sid ∧ s.polls = {s with phase := .polling sid} := by
  rw [State.polls]
  split
  · exact .inr ⟨_, ‹_›, rfl⟩
  · exact .inl rfl

theorem Live.polls (h : Live cfg s) : Inv cfg s.polls := by
  obtain hpolls | ⟨sid, hsid, hpolls⟩ := polls_cases s
  · rw [hpolls]
    exact ⟨h.fresh, h.idle, h.unready⟩
  · rw [hpolls]
    exact ⟨⟨h.fresh, h.idle, h.unready⟩, hsid⟩

theorem Live.requests (h : Live cfg s) (established : Bool) (stream : Option Nat) (now : Nat) :
    Inv cfg (s.requests cfg established stream now) := by
  rw [State.requests]
  split
  case isFalse => exact h.polls
  case isTrue hnew =>
    obtain ⟨hjournal, hready, hzero⟩ := h.fresh (Option.isNone_iff_eq_none.mp (Bool.and_eq_true_iff.mp hnew).2)
    cases stream with
    | none => trivial
    | some sid =>
      dsimp only
      split
      case isTrue hcheck =>
        apply Live.polls
        refine ⟨fun hnone => absurd hnone (by simp [State.record]),
          fun hfalse => absurd hfalse (by simp [State.record]), fun _ => ⟨?_, ?_, ?_, fun _ => hcheck⟩⟩
        · show Act.ready ∉ s.journal ++ [.request]
          rw [hjournal]
          simp
        · show (s.journal ++ [Act.request]).count .reception = s.validateSuccesses
          rw [hjournal, hzero]
          rfl
        · show s.validateSuccesses < dataProbeRequiredSuccesses
          rw [hzero]
          decide
      case isFalse =>
        rw [State.record, hready, if_pos (by rfl)]
        apply Live.polls
        exact ⟨fun hnone => absurd hnone (by simp [State.record]),
          fun hfalse => absurd hfalse (by simp [State.record]),
          fun hfalse => absurd hfalse (by simp [State.record])⟩

theorem Live.polled (h : Live cfg s) (hphase : s.phase = .polling sid) (hsid : s.reqStream = some sid)
    (event : Event) : Inv cfg (s.polled cfg sid event) := by
  have hstay : Inv cfg s := by
    rw [Inv, hphase]
    exact ⟨h, hsid⟩
  cases event with
  | headers streamId status =>
    cases status with
    | none => exact hstay
    | some code =>
      dsimp only [State.polled]
      split
      · have hlive : Live cfg (s.record (.status code)) := h.record hsid (by simp) (by simp)
        show Inv cfg (s.record (.status code))
        rw [Inv, show (s.record (.status code)).phase = .polling sid from hphase]
        exact ⟨hlive, hsid⟩
      · exact hstay
  | data streamId chunks sinks =>
    dsimp only [State.polled]
    split
    · rw [Inv]
      dsimp only
      rw [hphase]
      exact ⟨⟨h.fresh, h.idle, h.unready⟩, hsid⟩
    · exact hstay
  | h3Done => exact ⟨⟨h.fresh, h.idle, h.unready⟩, hsid⟩
  | h3Error => trivial
  | _ => exact hstay

/-- The reception is counted while the run is not ready, and the last one gives the signal. -/
theorem drained_cases (delivered : Bool) (s : State) :
    (delivered = false ∧ s.drained delivered = {s with phase := .flushing}) ∨
    (delivered = true ∧ s.readyFired = true ∧
      s.drained delivered = {s.record .reception with phase := .flushing}) ∨
    (delivered = true ∧ s.readyFired = false ∧ dataProbeRequiredSuccesses ≤ s.validateSuccesses + 1 ∧
      s.drained delivered =
        {s.record .reception with
          validateSuccesses := s.validateSuccesses + 1, readyFired := true, validateDeadline := none,
          phase := .flushing}.record .ready) ∨
    (delivered = true ∧ s.readyFired = false ∧ s.validateSuccesses + 1 < dataProbeRequiredSuccesses ∧
      s.drained delivered =
        {s.record .reception with validateSuccesses := s.validateSuccesses + 1, phase := .flushing}) := by
  cases delivered with
  | false => exact .inl ⟨rfl, rfl⟩
  | true =>
    cases hready : s.readyFired with
    | true =>
      refine .inr (.inl ⟨rfl, rfl, ?_⟩)
      simp only [State.drained, State.record, hready, if_true]
    | false =>
      by_cases hlast : dataProbeRequiredSuccesses ≤ s.validateSuccesses + 1
      · refine .inr (.inr (.inl ⟨rfl, rfl, hlast, ?_⟩))
        simp only [State.drained, State.record, hready, if_true, Bool.false_eq_true, if_false, ge_iff_le, hlast]
      · refine .inr (.inr (.inr ⟨rfl, rfl, by omega, ?_⟩))
        simp only [State.drained, State.record, hready, if_true, Bool.false_eq_true, if_false, ge_iff_le, hlast]

theorem Live.drained (h : Live cfg s) (hsid : s.reqStream = some sid) (delivered : Bool) :
    Inv cfg (s.drained delivered) := by
  have hsome : ∀ {p : Prop}, s.reqStream = none → p := fun hnone => absurd (hsid.symm.trans hnone) (by simp)
  obtain ⟨-, hdrained⟩ | ⟨-, hready, hdrained⟩ | ⟨-, hready, -, hdrained⟩ | ⟨-, hready, hless, hdrained⟩ :=
    drained_cases delivered s
  · rw [hdrained]
    exact ⟨h.fresh, h.idle, h.unready⟩
  · rw [hdrained]
    exact ⟨fun hnone => hsome hnone, h.idle, fun hfalse => absurd (hready.symm.trans hfalse) (by simp)⟩
  · rw [hdrained]
    exact ⟨fun hnone => hsome hnone, h.idle, fun hfalse => absurd hfalse (by simp [State.record])⟩
  · obtain ⟨hnot, hcount, -, hcheck⟩ := h.unready hready
    rw [hdrained]
    refine ⟨fun hnone => hsome hnone, h.idle, fun _ => ⟨?_, ?_, hless, hcheck⟩⟩
    · show Act.ready ∉ s.journal ++ [.reception]
      rw [List.mem_append, List.mem_singleton]
      rintro (hmem | hmem)
      · exact hnot hmem
      · cases hmem
    · show (s.journal ++ [Act.reception]).count .reception = s.validateSuccesses + 1
      rw [List.count_append, hcount]
      rfl

theorem Live.flushes (h : Live cfg s) (ok : Bool) (closing : Closing) : Inv cfg (s.flushes cfg ok closing) := by
  rw [State.flushes.eq_def]
  split
  case isFalse => trivial
  case isTrue =>
    cases closing with
    | alive => exact ⟨h.fresh, h.idle, h.unready⟩
    | closed => trivial
    | retry again =>
      dsimp only
      split
      case isFalse => trivial
      case isTrue hretry =>
        split
        · have hidle : s.reqStream = none := by
            apply h.idle
            simp only [Bool.and_eq_true, Bool.not_eq_true'] at hretry
            exact hretry.1.1
          refine ⟨fun _ => h.fresh hidle, fun _ => rfl, fun hfalse => ?_⟩
          obtain ⟨hnot, hcount, hless, -⟩ := h.unready hfalse
          exact ⟨hnot, hcount, hless, fun hsome => absurd hsome (by simp)⟩
        · trivial

theorem inv_step (event : Event) (s : State) (h : Inv cfg s) : Inv cfg (s.next cfg event) := by
  cases hphase : s.phase with
  | top =>
    have hlive : Live cfg s := by
      rw [Inv, hphase] at h
      exact h
    cases event
    case head now =>
      simp only [State.next, hphase]
      exact hlive.loopTop now
    all_goals
      simp only [State.next, hphase]
      exact h
  | select =>
    have hlive : Live cfg s := by
      rw [Inv, hphase] at h
      exact h
    simp only [State.next, hphase]
    exact hlive.selected hphase event
  | turned =>
    have hlive : Live cfg s := by
      rw [Inv, hphase] at h
      exact h
    cases event
    case handshake established stream now =>
      simp only [State.next, hphase]
      exact hlive.requests established stream now
    all_goals
      simp only [State.next, hphase]
      exact h
  | polling sid =>
    rw [Inv, hphase] at h
    simp only [State.next, hphase]
    exact h.1.polled hphase h.2 event
  | draining sid delivered =>
    have hlive : Live cfg s ∧ s.reqStream = some sid := by
      rw [Inv, hphase] at h
      exact h
    cases event
    case datagram bytes inboundOpen =>
      simp only [State.next, hphase]
      split
      · split
        · exact ⟨⟨hlive.1.fresh, hlive.1.idle, hlive.1.unready⟩, hlive.2⟩
        · exact hlive.1.drained hlive.2 true
      · exact ⟨⟨hlive.1.fresh, hlive.1.idle, hlive.1.unready⟩, hlive.2⟩
    case dgramDone =>
      simp only [State.next, hphase]
      exact hlive.1.drained hlive.2 delivered
    all_goals
      simp only [State.next, hphase]
      exact h
  | flushing =>
    have hlive : Live cfg s := by
      rw [Inv, hphase] at h
      exact h
    cases event
    case flushed ok closing =>
      simp only [State.next, hphase]
      exact hlive.flushes ok closing
    all_goals
      simp only [State.next, hphase]
      exact h
  | ended outcome =>
    simp only [State.next, hphase]
    exact h

end Signal

/-! ### The contract -/

/-- The journal of the run meets the contract. -/
def Sound (cfg : Config) (s : State) : Prop := Accepted cfg.dataCheck s.journal s.outcome

/-- The next reception gives the signal. -/
def signals (s : State) : Bool := !s.readyFired && decide (dataProbeRequiredSuccesses ≤ s.validateSuccesses + 1)

/-- The request goes out under the data check, the edge does not refuse it, and the
reception that gives the signal comes after a success and, as those before it, after a
probe. -/
def Solicited (cfg : Config) (event : Event) (s : State) : Prop :=
  match s.phase, event with
  | .turned, .handshake true (some _) _ => s.reqStream = none → cfg.dataCheck = true
  | .polling sid, .headers streamId (some code) => streamId = sid → isRefusal code = false
  | .draining sid _, .datagram bytes false =>
    carriesPacket sid bytes = true → signals s = true → s.journal.granted = true ∧ s.journal.ProbeFirst
  | .draining _ true, .dgramDone => signals s = true → s.journal.granted = true ∧ s.journal.ProbeFirst
  | _, _ => True

section Contract

variable {cfg : Config} {s : State} {sid : Nat}

theorem sound_loopTop (h : Accepted cfg.dataCheck s.journal none) (now : Nat) : Sound cfg (s.loopTop cfg now) := by
  rw [State.loopTop]
  split
  · exact h.finish _
  · exact h

theorem sound_selected (h : Accepted cfg.dataCheck s.journal none) (hphase : s.phase = .select) (event : Event) :
    Sound cfg (s.selected cfg event) := by
  have hstay : Sound cfg s := by
    rw [Sound, State.outcome, hphase]
    exact h
  cases event with
  | keepaliveTick => exact h
  | packet => exact h
  | timeout => exact h
  | probeTick sendOk =>
    dsimp only [State.selected]
    split
    · split
      · exact h.snoc_plain (by simp) rfl
      · exact h
    · exact hstay
  | ctrl message =>
    dsimp only [State.selected]
    split
    · split
      · exact h
      · exact h
    · exact hstay
  | outbound packet =>
    dsimp only [State.selected]
    split
    · exact h
    · exact hstay
  | _ => exact hstay

theorem sound_polls_iff (s : State) : Sound cfg s.polls ↔ Accepted cfg.dataCheck s.journal none := by
  obtain hpolls | ⟨sid, -, hpolls⟩ := polls_cases s
  · rw [hpolls]
    rfl
  · rw [hpolls]
    rfl

/-- Without the data check the signal is given before any answer. -/
theorem sound_requests_iff (hlive : Live cfg s) (h : Accepted cfg.dataCheck s.journal none) (established : Bool)
    (stream : Option Nat) (now : Nat) :
    Sound cfg (s.requests cfg established stream now) ↔
      (established = true → stream.isSome = true → s.reqStream = none → cfg.dataCheck = true) := by
  rw [State.requests]
  split
  case isFalse hold =>
    rw [sound_polls_iff]
    refine iff_of_true h fun hestablished _ hnone => absurd ?_ hold
    rw [hestablished, hnone]
    rfl
  case isTrue hnew =>
    obtain ⟨hestablished, hnone⟩ := Bool.and_eq_true_iff.mp hnew
    rw [Option.isNone_iff_eq_none] at hnone
    obtain ⟨hjournal, hready, -⟩ := hlive.fresh hnone
    cases stream with
    | none => exact iff_of_true (h.finish _) fun _ hsome => absurd hsome (by simp)
    | some sid =>
      have hrequest : Accepted cfg.dataCheck (s.journal ++ [.request]) none := h.snoc_plain (by simp) rfl
      dsimp only
      split
      case isTrue hcheck =>
        rw [sound_polls_iff]
        exact iff_of_true hrequest fun _ _ _ => hcheck
      case isFalse hcheck =>
        have hearly : ¬ Accepted cfg.dataCheck ((s.journal ++ [.request]) ++ [.ready]) none := by
          rw [accepted_snoc_ready_iff hrequest (by rw [hjournal]; simp), MaySignal, hjournal]
          exact fun hmay => absurd hmay.1 (by decide)
        rw [State.record, hready, if_pos (by rfl), sound_polls_iff]
        exact iff_of_false hearly fun hall => hcheck (hall hestablished rfl hnone)

/-- A status goes into the journal and nowhere else. -/
theorem sound_headers_iff (h : Accepted cfg.dataCheck s.journal none) (hphase : s.phase = .polling sid)
    (streamId code : Nat) :
    Sound cfg (s.polled cfg sid (.headers streamId (some code))) ↔ (streamId = sid → isRefusal code = false) := by
  have hnone : s.outcome = none := by rw [State.outcome, hphase]
  dsimp only [State.polled]
  split
  case isTrue hsid =>
    show Accepted cfg.dataCheck (s.journal ++ [.status code]) s.outcome ↔ _
    rw [accepted_snoc_status_iff h, hnone]
    constructor
    · intro hend _
      cases hr : isRefusal code with
      | false => rfl
      | true => exact absurd (hend hr).1 (by simp)
    · intro hr hrefusal
      exact absurd ((hr hsid).symm.trans hrefusal) (by simp)
  case isFalse hsid =>
    rw [Sound, hnone]
    exact iff_of_true h fun he => absurd he hsid

/-- The other events of `poll_h3` leave the journal as it is. -/
theorem sound_polled (h : Accepted cfg.dataCheck s.journal none) (hphase : s.phase = .polling sid) {event : Event}
    (hheaders : ∀ streamId code, event ≠ .headers streamId (some code)) : Sound cfg (s.polled cfg sid event) := by
  have hstay : Sound cfg s := by
    rw [Sound, State.outcome, hphase]
    exact h
  cases event with
  | headers streamId status =>
    cases status with
    | none => exact hstay
    | some code => exact absurd rfl (hheaders streamId code)
  | data streamId chunks sinks =>
    dsimp only [State.polled]
    split
    · exact hstay
    · exact hstay
  | h3Done => exact h
  | h3Error => exact h.finish _
  | _ => exact hstay

/-- The last reception required may signal exactly after a success and if the probe was
first. -/
theorem maySignal_reception_iff (hlive : Live cfg s) (hsid : s.reqStream = some sid) (hready : s.readyFired = false)
    (hlast : dataProbeRequiredSuccesses ≤ s.validateSuccesses + 1) :
    MaySignal cfg.dataCheck (s.journal ++ [.reception]) ↔ s.journal.granted = true ∧ s.journal.ProbeFirst := by
  obtain ⟨-, hcount, hless, hcheck⟩ := hlive.unready hready
  have hreceptions : s.journal.count .reception + 1 = dataProbeRequiredSuccesses := by
    rw [hcount]
    omega
  have hgranted : Journal.granted (s.journal ++ [.reception]) = s.journal.granted := by
    rw [Journal.granted_snoc]
    exact Bool.or_false _
  rw [← Journal.probed_snoc_reception hreceptions, MaySignal, hgranted, hcheck (by rw [hsid]; rfl)]
  exact and_congr_right fun _ => ⟨fun h => h rfl, fun h _ => h⟩

theorem sound_drained_iff (hlive : Live cfg s) (hsid : s.reqStream = some sid)
    (h : Accepted cfg.dataCheck s.journal none) (delivered : Bool) :
    Sound cfg (s.drained delivered) ↔
      (delivered = true → signals s = true → s.journal.granted = true ∧ s.journal.ProbeFirst) := by
  have hreception : Accepted cfg.dataCheck (s.journal ++ [.reception]) none := h.snoc_plain (by simp) rfl
  obtain ⟨hd, hdrained⟩ | ⟨-, hready, hdrained⟩ | ⟨hd, hready, hlast, hdrained⟩ | ⟨-, -, hless, hdrained⟩ :=
    drained_cases delivered s
  · rw [hdrained]
    exact iff_of_true h fun htrue => absurd (hd.symm.trans htrue) (by simp)
  · rw [hdrained]
    refine iff_of_true hreception fun _ hs => ?_
    rw [signals, hready] at hs
    cases hs
  · have hsignals : signals s = true := by
      rw [signals, hready]
      exact decide_eq_true hlast
    have hfirst : Act.ready ∉ s.journal ++ [.reception] := by
      rw [List.mem_append, List.mem_singleton]
      rintro (hmem | hmem)
      · exact (hlive.unready hready).1 hmem
      · cases hmem
    have hjournal : Sound cfg (s.drained delivered) ↔
        Accepted cfg.dataCheck ((s.journal ++ [.reception]) ++ [.ready]) none := by
      rw [hdrained]
      rfl
    rw [hjournal, accepted_snoc_ready_iff hreception hfirst, maySignal_reception_iff hlive hsid hready hlast]
    exact ⟨fun hp _ _ => hp, fun hp => hp hd hsignals⟩
  · rw [hdrained]
    refine iff_of_true hreception fun _ hs => ?_
    rw [signals, Bool.and_eq_true_iff, decide_eq_true_eq] at hs
    omega

theorem sound_flushes (h : Accepted cfg.dataCheck s.journal none) (ok : Bool) (closing : Closing) :
    Sound cfg (s.flushes cfg ok closing) := by
  rw [State.flushes.eq_def]
  split
  case isFalse => exact h.finish _
  case isTrue =>
    cases closing with
    | alive => exact h
    | closed => exact h.finish _
    | retry again =>
      dsimp only
      split
      · split
        · exact h
        · exact h.finish _
      · exact h.finish _

theorem sound_step (event : Event) (s : State) (hinv : Inv cfg s) (h : Sound cfg s) :
    Sound cfg (s.next cfg event) ↔ Solicited cfg event s := by
  cases hphase : s.phase with
  | ended outcome =>
    simp only [State.next, Solicited, hphase, iff_true]
    exact h
  | top =>
    rw [Sound, State.outcome, hphase] at h
    simp only [Solicited, hphase, iff_true]
    cases event
    case head now =>
      simp only [State.next, hphase]
      exact sound_loopTop h now
    all_goals
      simp only [State.next, hphase]
      rw [Sound, State.outcome, hphase]
      exact h
  | select =>
    rw [Sound, State.outcome, hphase] at h
    simp only [State.next, Solicited, hphase, iff_true]
    exact sound_selected h hphase event
  | turned =>
    rw [Sound, State.outcome, hphase] at h
    rw [Inv, hphase] at hinv
    cases event
    case handshake established stream now =>
      simp only [State.next, hphase]
      rw [sound_requests_iff hinv h]
      cases established <;> cases stream <;> simp [Solicited, hphase]
    all_goals
      simp only [State.next, Solicited, hphase, iff_true]
      rw [Sound, State.outcome, hphase]
      exact h
  | polling sid =>
    rw [Sound, State.outcome, hphase] at h
    simp only [State.next, hphase]
    by_cases hheaders : ∃ streamId code, event = .headers streamId (some code)
    · obtain ⟨streamId, code, rfl⟩ := hheaders
      simp only [Solicited, hphase]
      exact sound_headers_iff h hphase streamId code
    · have hother : ∀ streamId code, event ≠ .headers streamId (some code) :=
        fun streamId code he => hheaders ⟨streamId, code, he⟩
      refine iff_of_true (sound_polled h hphase hother) ?_
      simp only [Solicited, hphase]
      split <;> simp_all
  | draining sid delivered =>
    rw [Sound, State.outcome, hphase] at h
    rw [Inv, hphase] at hinv
    cases event
    case datagram bytes inboundOpen =>
      simp only [State.next, hphase]
      cases hpacket : carriesPacket sid bytes with
      | false =>
        cases inboundOpen
        · simp only [Solicited, hphase, hpacket]
          exact iff_of_true h fun he => by cases he
        · simp only [Solicited, hphase]
          exact iff_of_true h trivial
      | true =>
        cases inboundOpen
        · simp only [Solicited, hphase, hpacket, if_true, Bool.false_eq_true, if_false]
          rw [sound_drained_iff hinv.1 hinv.2 h]
          exact ⟨fun hs _ => hs rfl, fun hs _ => hs trivial⟩
        · simp only [Solicited, hphase]
          exact iff_of_true h trivial
    case dgramDone =>
      simp only [State.next, hphase]
      rw [sound_drained_iff hinv.1 hinv.2 h]
      cases delivered
      · simp [Solicited, hphase]
      · simp [Solicited, hphase]
    all_goals
      simp only [State.next, Solicited, hphase, iff_true]
      rw [Sound, State.outcome, hphase]
      exact h
  | flushing =>
    rw [Sound, State.outcome, hphase] at h
    simp only [Solicited, hphase, iff_true]
    cases event
    case flushed ok closing =>
      simp only [State.next, hphase]
      exact sound_flushes h ok closing
    all_goals
      simp only [State.next, hphase]
      rw [Sound, State.outcome, hphase]
      exact h

/-- Every state of a run meets the contract exactly if each of its steps is solicited. -/
theorem sound_run_iff (cfg : Config) (events : List Event) :
    (∀ s ∈ visited (State.next cfg) {} events, Sound cfg s) ↔ Along (State.next cfg) (Solicited cfg) {} events := by
  have hinv : Inv cfg {} := by
    refine ⟨fun _ => ⟨rfl, rfl, rfl⟩, fun _ => rfl, fun _ => ⟨by simp, rfl, by decide, fun h => ?_⟩⟩
    cases h
  exact visited_iff_along inv_step sound_step hinv (accepted_nil _ _) events

end Contract

end Aether.Masque.Quic

namespace Aether.Masque
open Machine

/-- **When the two transports report a tunnel ready only as accepted**: over HTTP/2 if the
signal is given to a reception that was asked for; over QUIC only under the data check, if
the edge does not refuse, and if its success and a probe came before the receptions. -/
theorem reports_ready_iff (h2 : H2.Config) (steps : List (H2.Event × H2.Io)) (quic : Quic.Config)
    (events : List Quic.Event) :
    ((∀ s ∈ visited (H2.State.next h2) {} steps, H2.Sound h2 s) ∧
        ∀ s ∈ visited (Quic.State.next quic) {} events, Quic.Sound quic s) ↔
      Along (H2.State.next h2) (H2.Solicited h2) {} steps ∧
        Along (Quic.State.next quic) (Quic.Solicited quic) {} events := by
  rw [H2.sound_run_iff, Quic.sound_run_iff]

/-- The data check is on and the edge answers the request with 403: the run goes on. -/
theorem refusal_ignored :
    ¬ Quic.Sound ⟨.aarch64, true, 10, false⟩
      (run (Quic.State.next ⟨.aarch64, true, 10, false⟩) {}
        [.head 0, .packet, .handshake true (some 0) 0, .headers 0 (some 403)]) := by
  intro h
  have hrefused := h.refusal (by decide)
  exact absurd hrefused.1 (by decide)

end Aether.Masque
