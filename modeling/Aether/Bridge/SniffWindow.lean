import Aether.Bridge.TcpSession
import Aether.Bridge.TrafficSniffer
import Aether.Bridge.DecisionCache
import Aether.Bridge.DnsMap
import Aether.Socks.Framing

/-! The first second of a session.

A flow to port 80 or 443 that no name is known for is answered before it is connected, so that
the client sends its first payload; `run` waits a second for it in the queue, and takes the name
in it for the decision and for the request. But the queue is filled by `handleFromTun`, which
refuses every payload until the session is connected, and connected it is only after the
request. The wait ends with nothing in every run (`nameless_run`), and the name has no effect.

A run here is one of `run` up to the connection, with the steps of the other threads in between;
the session in it is one of the session's own machine (`run_session`). -/
namespace Aether.Bridge.SniffWindow
open Kotlin (Platform)
open Machine
open RoutingEngine (Query RoutingDecision)
open Session (Segment)
open Socks.Framing (socksRequest)
open TrafficSniffer (sniffDomain)

/-! ### The flow -/

/-- What a session is made for, and what it asks. -/
structure Flow where
  platform : Platform
  /-- `routingEngine.resolve` -/
  resolve : Query → RoutingDecision
  /-- What `DnsMap` has for the address. -/
  cachedDomain : Option String
  serverIp : List UInt8
  serverPort : Int32
  initialSeq : BitVec 32

variable (flow : Flow)

def Flow.targetIpStr : String := flow.platform.hostAddress flow.serverIp

/-- The question that `run` begins with. -/
def Flow.firstQuery : Query := ⟨flow.targetIpStr, flow.serverPort, flow.cachedDomain, none, none⟩

/-- The question when a name was seen in the first packet. -/
def Flow.sniffedQuery (sniffedDomain : String) : Query :=
  ⟨flow.targetIpStr, flow.serverPort, none, if flow.serverPort = 443 then some sniffedDomain else none,
    if flow.serverPort = 80 then some sniffedDomain else none⟩

/-- The request to upstream. -/
def Flow.request (domain : Option String) : List UInt8 := socksRequest 1 domain flow.serverIp flow.serverPort

/-- `run` answers the client early and waits for its first packet. -/
def Flow.LooksInside : Prop :=
  (flow.resolve flow.firstQuery).mode = .tunnel ∧ flow.cachedDomain = none ∧
    (flow.serverPort = 80 ∨ flow.serverPort = 443)

instance : Decidable flow.LooksInside := inferInstanceAs (Decidable (_ ∧ _ ∧ (_ ∨ _)))

/-! ### The session's thread -/

/-- Where `run` is. -/
inductive Stage where
  | starting
  /-- The SYN-ACK is sent, and `run` waits for the first packet. -/
  | window
  /-- The wait is done, and the packet is to be put back. -/
  | looked
  /-- The decision stands. -/
  | decided
  /-- The request is written. -/
  | requested
  /-- Behind the connection, or returned: the rest is the session's. -/
  | settled
  deriving DecidableEq

structure State where
  session : Session.State
  stage : Stage := .starting
  sniffedDomain : Option String := none
  decision : Option RoutingDecision := none
  /-- What was written to upstream to ask for the connection. -/
  request : Option (List UInt8) := none
  /-- What was put into `DnsMap`. -/
  puts : List (String × String) := []

def initial : State := {session := Session.initial flow.initialSeq}

/-- The first decision. -/
def route (s : State) : State :=
  {s with
    decision := some (flow.resolve flow.firstQuery)
    stage := if flow.LooksInside then .window else .decided}

/-- `queue.poll`, which returns a packet or after a second, and what is done with the packet. -/
def poll (s : State) : State :=
  let looked := {s with session := Session.next .sniff s.session, stage := .looked}
  match s.session.queue.head?.bind fun firstPacket => sniffDomain flow.platform firstPacket flow.serverPort with
  | none => looked
  | some sniffedDomain =>
    {looked with
      sniffedDomain := some sniffedDomain
      puts := s.puts ++ [(flow.targetIpStr, sniffedDomain)]
      decision := some (flow.resolve (flow.sniffedQuery sniffedDomain))}

/-- `queue.addFirst`; when it throws, `run` has returned. -/
def putBack (s : State) : State :=
  let session := Session.next .putBack s.session
  {s with session := session, stage := if session.writer.settled then .settled else .decided}

/-- `out.write` of the request, when the decision is for the tunnel. -/
def request (s : State) : State :=
  if s.decision.any (·.mode == .tunnel) then
    {s with request := some (flow.request (s.sniffedDomain.or flow.cachedDomain)), stage := .requested}
  else s

/-- The flow is refused, or something on the way to upstream fails. -/
def refuse (s : State) : State := {s with session := Session.next .refuse s.session, stage := .settled}

/-- Upstream has accepted the request, or the server the direct connection. -/
def connect (s : State) : State :=
  if s.stage = .requested ∨ s.decision.any (·.mode == .direct) then
    {s with session := Session.next .connect s.session, stage := .settled}
  else s

/-! ### Interleavings -/

inductive Action where
  | route
  | poll
  | putBack
  | request
  | refuse
  | connect
  /-- A step of another thread, or of `run` behind the connection. -/
  | session (a : Session.Action)

/-- The step is another thread's. -/
def ofOthers : Session.Action → Bool
  | .segment _ | .acknowledge | .close | .stop => true
  | _ => false

def next (a : Action) (s : State) : State :=
  match a, s.stage with
  | .route, .starting => route flow s
  | .poll, .window => poll flow s
  | .putBack, .looked => putBack s
  | .request, .decided => request flow s
  | .refuse, .decided => refuse s
  | .refuse, .requested => refuse s
  | .connect, .decided => connect s
  | .connect, .requested => connect s
  | .session a, stage =>
    if ofOthers a || stage == .settled then {s with session := Session.next a s.session} else s
  | _, _ => s

/-- The state after a run. -/
def runOf (as : List Action) : State := run (next flow) (initial flow) as

/-! ### What the claim of the window is -/

/-- The client's segment is in order and has a name in its payload. -/
structure Carries (g : Segment) (d : String) : Prop where
  inOrder : g.seq = flow.initialSeq + 1
  named : ∃ payload ∈ g.payload, sniffDomain flow.platform payload flow.serverPort = some d

/-- No payload has come. -/
def NoPayload (as : List Action) : Prop := ∀ g, Action.session (.segment g) ∈ as → g.payload = none

/-- The decision and the request are those for the name. -/
structure ForName (d : String) (s : State) : Prop where
  decision : s.stage = .decided ∨ s.stage = .requested ∨ s.stage = .settled →
    s.decision = some (flow.resolve (flow.sniffedQuery d))
  request : ∀ request ∈ s.request, request = flow.request (some d)

/-- Whenever the segment carries the name, is the first with a payload and comes while `run`
waits for it, the decision and the request are those for the name. -/
def TakesEffect (g : Segment) (d : String) : Prop :=
  Carries flow g d → ∀ before after, (runOf flow before).stage = .window → NoPayload before →
    ForName flow d (runOf flow (before ++ .session (.segment g) :: after))

/-! ### What is so -/

/-- The session knows no name but that of `DnsMap`. -/
structure Nameless (s : State) : Prop where
  session : Session.Starved s.session
  waiting : s.stage = .starting ∨ s.stage = .window → s.session.writer = .routing
  sniffed : s.sniffedDomain = none
  puts : s.puts = []
  decision : ∀ decision ∈ s.decision, decision = flow.resolve flow.firstQuery
  request : ∀ request ∈ s.request, request = flow.request flow.cachedDomain

variable {flow} {s : State}

theorem nameless_initial : Nameless flow (initial flow) where
  session := Session.starved_initial flow.initialSeq
  waiting _ := rfl
  sniffed := rfl
  puts := rfl
  decision _ h := by cases h
  request _ h := by cases h

theorem writer_ofOthers {a : Session.Action} (ha : ofOthers a = true) (s : Session.State) :
    (Session.next a s).writer = s.writer := by
  cases a with
  | segment g =>
    cases hreader : s.reader with
    | idle =>
      simp only [Session.next, hreader]
      exact (Session.handleFromTun_beside g s).2
    | offered g' payload => simp only [Session.next, hreader]
  | acknowledge =>
    cases hreader : s.reader with
    | idle => simp only [Session.next, hreader]
    | offered g' payload =>
      simp only [Session.next, hreader]
      rfl
  | close => rfl
  | stop => rfl
  | _ => cases ha

theorem nameless_route (h : Nameless flow s) (hs : s.stage = .starting) : Nameless flow (route flow s) where
  session := h.session
  waiting _ := h.waiting (.inl hs)
  sniffed := h.sniffed
  puts := h.puts
  decision _ hd := (Option.some.inj hd).symm
  request := h.request

theorem poll_empty (h : s.session.queue = []) :
    poll flow s = {s with session := Session.next .sniff s.session, stage := .looked} := by
  simp only [poll, h, List.head?_nil, Option.bind_none]

/-- The queue is empty whenever it is polled for the first packet. -/
theorem nameless_poll (h : Nameless flow s) (hs : s.stage = .window) : Nameless flow (poll flow s) := by
  have hw := h.waiting (.inr hs)
  rw [poll_empty (h.session.queue (h.session.routing hw))]
  refine ⟨Session.starved_next .sniff s.session h.session, fun hstage => ?_, h.sniffed, h.puts, h.decision, h.request⟩
  obtain hstage | hstage := hstage
  · cases hstage
  · cases hstage

theorem nameless_later (h : Nameless flow s) (a : Session.Action) {stage : Stage}
    (hstage : stage ≠ .starting ∧ stage ≠ .window) :
    Nameless flow {s with session := Session.next a s.session, stage := stage} where
  session := Session.starved_next a s.session h.session
  waiting hs := by
    obtain hs | hs := hs
    · exact absurd hs hstage.1
    · exact absurd hs hstage.2
  sniffed := h.sniffed
  puts := h.puts
  decision := h.decision
  request := h.request

theorem nameless_putBack (h : Nameless flow s) : Nameless flow (putBack s) := by
  apply nameless_later h .putBack
  split
  · exact ⟨Stage.noConfusion, Stage.noConfusion⟩
  · exact ⟨Stage.noConfusion, Stage.noConfusion⟩

theorem nameless_request (h : Nameless flow s) : Nameless flow (request flow s) := by
  rw [request]
  split
  · refine ⟨h.session, fun hstage => ?_, h.sniffed, h.puts, h.decision, fun r hr => ?_⟩
    · obtain hstage | hstage := hstage
      · cases hstage
      · cases hstage
    · rw [← Option.some.inj hr, h.sniffed, Option.none_or]
  · exact h

theorem nameless_refuse (h : Nameless flow s) : Nameless flow (refuse s) :=
  nameless_later h .refuse ⟨Stage.noConfusion, Stage.noConfusion⟩

theorem nameless_connect (h : Nameless flow s) : Nameless flow (connect s) := by
  rw [connect]
  split
  · exact nameless_later h .connect ⟨Stage.noConfusion, Stage.noConfusion⟩
  · exact h

theorem nameless_session (h : Nameless flow s) {a : Session.Action} (ha : ofOthers a = true ∨ s.stage = .settled) :
    Nameless flow {s with session := Session.next a s.session} := by
  refine ⟨Session.starved_next a s.session h.session, fun hstage => ?_, h.sniffed, h.puts, h.decision, h.request⟩
  obtain ha | hsettled := ha
  · rw [← h.waiting hstage]
    exact writer_ofOthers ha s.session
  · rw [hsettled] at hstage
    obtain hstage | hstage := hstage
    · cases hstage
    · cases hstage

theorem nameless_next (a : Action) (s : State) (h : Nameless flow s) : Nameless flow (next flow a s) := by
  unfold next
  split
  · exact nameless_route h ‹_›
  · exact nameless_poll h ‹_›
  · exact nameless_putBack h
  · exact nameless_request h
  · exact nameless_refuse h
  · exact nameless_refuse h
  · exact nameless_connect h
  · exact nameless_connect h
  · split
    · rename_i hstep
      rw [Bool.or_eq_true, beq_iff_eq] at hstep
      exact nameless_session h hstep
    · exact h
  · exact h

/-- In every run, whatever the client sends and when. -/
theorem nameless_run (as : List Action) : Nameless flow (runOf flow as) :=
  run_invariant nameless_next nameless_initial as

/-! ### The session's own machine -/

/-- A step is one of the session, or none. -/
theorem next_session (a : Action) (s : State) :
    ∃ bs, (next flow a s).session = run Session.next s.session bs := by
  have hstay : ∃ bs, s.session = run Session.next s.session bs := ⟨[], rfl⟩
  have hconnect : ∃ bs, (connect s).session = run Session.next s.session bs := by
    rw [connect]
    split
    · exact ⟨[.connect], rfl⟩
    · exact hstay
  unfold next
  split
  · exact hstay
  · refine ⟨[.sniff], ?_⟩
    rw [poll]
    dsimp only
    split <;> rfl
  · exact ⟨[.putBack], rfl⟩
  · rw [request]
    split <;> exact hstay
  · exact ⟨[.refuse], rfl⟩
  · exact ⟨[.refuse], rfl⟩
  · exact hconnect
  · exact hconnect
  · split
    · exact ⟨[_], rfl⟩
    · exact hstay
  · exact hstay

/-- The session of a run is one that its own machine reaches. -/
theorem run_session (as : List Action) :
    ∃ bs, (runOf flow as).session = run Session.next (Session.initial flow.initialSeq) bs := by
  have hstep : ∀ a s, (∃ bs, s.session = run Session.next (Session.initial flow.initialSeq) bs) →
      ∃ bs, (next flow a s).session = run Session.next (Session.initial flow.initialSeq) bs := by
    intro a s h
    obtain ⟨earlier, hearlier⟩ := h
    obtain ⟨later, hlater⟩ := @next_session flow a s
    exact ⟨earlier ++ later, by rw [hlater, hearlier, run_append]⟩
  exact run_invariant hstep ⟨[], rfl⟩ as

/-! ### The name has no effect -/

theorem request_ne (d : String) : flow.request none ≠ flow.request (some d) := by
  intro h
  have hkind := congrArg (fun bytes => bytes.getD 3 0) h
  change (if flow.serverIp.length == 4 then (0x01 : UInt8) else 0x04) = 0x03 at hkind
  split at hkind
  · exact absurd hkind (by decide)
  · exact absurd hkind (by decide)

/-- `run` waits for the first packet. -/
def waiting (flow : Flow) (session : Session.State) : State :=
  {session := session, stage := .window, decision := some (flow.resolve flow.firstQuery)}

/-- After a wait for nothing the request is sent. -/
theorem request_sent (hflow : flow.LooksInside) {session : Session.State} (hqueue : session.queue = [])
    (hwriter : session.writer = .routing) :
    (run (next flow) (waiting flow session) [.poll, .putBack, .request]).request = some (flow.request none) := by
  have hsniff : Session.next .sniff session = {session with writer := .sniffing none} := by
    simp only [Session.next, hwriter, Session.sniff, hqueue]
  have hpoll : next flow .poll (waiting flow session) =
      {waiting flow session with session := {session with writer := .sniffing none}, stage := .looked} := by
    show poll flow (waiting flow session) = _
    rw [poll_empty hqueue]
    show {waiting flow session with session := Session.next .sniff session, stage := .looked} = _
    rw [hsniff]
  have htunnel : (some (flow.resolve flow.firstQuery)).any (·.mode == .tunnel) = true := beq_iff_eq.mpr hflow.1
  have hdone : (request flow
      {waiting flow session with session := {session with writer := .connecting}, stage := .decided}).request =
        some (flow.request flow.cachedDomain) :=
    congrArg State.request (if_pos htunnel)
  rw [hflow.2.1] at hdone
  rw [run, hpoll]
  exact hdone

/-- The segment comes while `run` waits for it, and is refused. -/
theorem segment_sent (hflow : flow.LooksInside) (g : Segment) :
    (runOf flow [.route]).stage = .window ∧
      (runOf flow ([.route] ++ .session (.segment g) :: [.poll, .putBack, .request])).request = some (flow.request none)
        := by
  have hroute : next flow .route (initial flow) = waiting flow (Session.initial flow.initialSeq) := by
    show route flow (initial flow) = _
    rw [route, if_pos hflow]
    rfl
  refine ⟨congrArg State.stage hroute, ?_⟩
  rw [runOf, List.cons_append, List.nil_append, run, hroute, run]
  show (run (next flow) (waiting flow (Session.handleFromTun g (Session.initial flow.initialSeq)))
    [.poll, .putBack, .request]).request = _
  obtain hsame | hclosed :=
    Session.handleFromTun_refused g (show (Session.initial flow.initialSeq).connected = false from rfl)
  · rw [hsame]
    exact request_sent hflow rfl rfl
  · rw [hclosed]
    exact request_sent hflow rfl rfl

/-- The name in the first payload never has an effect: in the run where it is in time the
request goes out without it, and in every run no name is seen and none is asked for. -/
theorem sniff_never (hflow : flow.LooksInside) (g : Segment) (d : String) (hname : Carries flow g d) :
    ¬ TakesEffect flow g d ∧
      ∀ as, (runOf flow as).sniffedDomain = none ∧
        ∀ request ∈ (runOf flow as).request, request ≠ flow.request (some d) := by
  constructor
  · intro heffect
    obtain ⟨hwindow, hsent⟩ := segment_sent hflow g
    have hnone : NoPayload [.route] := fun g hg => by simp at hg
    have hforName := heffect hname [.route] [.poll, .putBack, .request] hwindow hnone
    exact request_ne d (hforName.request _ hsent)
  · intro as
    have hrun := @nameless_run flow as
    refine ⟨hrun.sniffed, fun request hrequest => ?_⟩
    rw [hrun.request request hrequest, hflow.2.1]
    exact request_ne d

/-- A browser's flow to port 80. -/
def webFlow : Flow where
  platform := DnsMap.asciiPlatform
  resolve := RoutingEngine.own RoutingEngine.plain []
  cachedDomain := none
  serverIp := [93, 184, 216, 34]
  serverPort := 80
  initialSeq := 1000

def hostSegment : Segment where
  seq := 1001
  payload := some [72, 111, 115, 116, 58, 32, 97, 46, 98]
  flags := 0x18
  size := fun bytes hbytes => by
    rw [← Option.some.inj hbytes]
    decide

theorem carries_host : Carries webFlow hostSegment "a.b" := ⟨rfl, _, rfl, by decide +kernel⟩

/-- The host in the payload is not asked for. -/
theorem sniff_never_web :
    ¬ TakesEffect webFlow hostSegment "a.b" ∧
      ∀ as, (runOf webFlow as).sniffedDomain = none ∧
        ∀ request ∈ (runOf webFlow as).request, request ≠ webFlow.request (some "a.b") :=
  sniff_never ⟨rfl, rfl, .inl rfl⟩ hostSegment "a.b" carries_host

/-- The payload `Host: a.b` comes while `run` waits for it, and upstream is asked for the address. -/
theorem host_without_effect :
    (runOf webFlow [.route]).stage = .window ∧
      (runOf webFlow [.route, .session (.segment hostSegment), .poll, .putBack, .request]).request =
        some [5, 1, 0, 1, 93, 184, 216, 34, 0, 80] ∧
      ¬ TakesEffect webFlow hostSegment "a.b" := by
  have hflow : webFlow.LooksInside := ⟨rfl, rfl, .inl rfl⟩
  obtain ⟨hwindow, hsent⟩ := segment_sent hflow hostSegment
  have hnone : NoPayload [.route] := fun g hg => by simp at hg
  refine ⟨hwindow, hsent, fun heffect => ?_⟩
  have hforName := heffect carries_host [.route] [.poll, .putBack, .request] hwindow hnone
  exact request_ne "a.b" (hforName.request _ hsent)

end Aether.Bridge.SniffWindow
