import Aether.Netstack.Tables

/-! What a step can do to a TCP connection.

`live_next` says it once for all steps: a connection that is in the table after a
step was opened by it, or was there before and is changed in one of a few ways: its
socket was polled, the app read a chunk, a message was handled, or it was served.
Facts about connections are proved from these cases and not from the steps. -/
namespace Aether.Netstack

/-- The connection is in the table, with this socket. -/
def Live (s : State) (id : Nat) (st : TcpState) (k : TcpSocket) : Prop :=
  s.tcpConns id = some st ∧ tcpSocket s st.handle = some k

/-! ### What happens on the stack's side only -/

/-- What the messages and the app's ends of the connections are. -/
structure AppKept (s t : State) : Prop where
  tier : t.tier = s.tier
  dataIn : t.dataIn = s.dataIn
  deferred : t.deferred = s.deferred
  tcpApp : t.tcpApp = s.tcpApp
  udpApp : t.udpApp = s.udpApp
  sent : t.sent = s.sent
  history : t.history = s.history
  servedSinceDrop : t.servedSinceDrop = s.servedSinceDrop

theorem AppKept.refl (s : State) : AppKept s s := ⟨rfl, rfl, rfl, rfl, rfl, rfl, rfl, rfl⟩

/-- The steps that send, handle and drop nothing. -/
def Action.ofStack : Action → Bool
  | .openTcp .. | .pollTcp .. | .pollUdp .. | .serviceUdp .. | .recv .. | .recvUdp .. => true
  | _ => false

theorem ofStack_kept {x : Action} (hx : x.ofStack = true) (s : State) : AppKept s (next x s) := by
  cases x with
  | openTcp n connects =>
    show AppKept s (openTcp n connects s)
    unfold openTcp
    split
    · exact .refl s
    · dsimp only
      split <;> constructor <;> rfl
  | pollTcp n state more =>
    show AppKept s (pollTcp n state more s)
    unfold pollTcp
    split
    · exact .refl s
    · split <;> constructor <;> rfl
  | pollUdp n more =>
    show AppKept s (pollUdp n more s)
    unfold pollUdp
    split <;> constructor <;> rfl
  | serviceUdp id =>
    show AppKept s (serviceUdp id s)
    unfold serviceUdp
    split
    · exact .refl s
    · split <;> constructor <;> rfl
  | recv id =>
    show AppKept s (recv id s)
    unfold recv
    split
    · split <;> constructor <;> rfl
    · exact .refl s
  | recvUdp id =>
    show AppKept s (recvUdp id s)
    unfold recvUdp
    split
    · split <;> constructor <;> rfl
    · exact .refl s
  | _ => cases hx

theorem tryHandleData_kept (d : DataIn) (s : State) : AppKept s (tryHandleData d s).1 := by
  unfold tryHandleData
  cases d with
  | tcp id data =>
    dsimp only
    split
    · exact .refl s
    · split
      · exact .refl s
      · split <;> constructor <;> rfl
  | tcpClose id =>
    dsimp only
    split <;> constructor <;> rfl
  | udp id dst data => exact .refl s
  | udpClose id =>
    dsimp only
    split <;> constructor <;> rfl

/-- Serving only adds to the history. -/
theorem serve_kept (id n : Nat) (s : State) : AppKept {s with history := (serve id n s).history} (serve id n s) := by
  unfold serve
  split
  · exact .refl s
  · split
    · exact .refl s
    · split
      · constructor <;> rfl
      · dsimp only
        split <;> constructor <;> rfl

/-! ### Which connections are there after an update -/

section Updates
variable {s t : State} {id : Nat} {a : TcpState} {b : TcpSocket}

theorem Live.same (hl : Live t id a b) (htcp : t.tcpConns = s.tcpConns) (hsockets : t.sockets = s.sockets) :
    Live s id a b := by
  obtain ⟨ha, hb⟩ := hl
  rw [htcp] at ha
  rw [tcpSocket, hsockets, ← tcpSocket] at hb
  exact ⟨ha, hb⟩

/-- The entry of connection `j` and its socket were written. -/
theorem Live.update (hl : Live t id a b) (hs : Tables s) {j : Nat} {st st' : TcpState} {k' : TcpSocket}
    (hst : s.tcpConns j = some st) (hh : st'.handle = st.handle)
    (htcp : t.tcpConns = Function.update s.tcpConns j (some st'))
    (hsockets : t.sockets = Function.update s.sockets st.handle (some (.tcp k'))) :
    (id = j ∧ a = st' ∧ b = k') ∨ (id ≠ j ∧ Live s id a b) := by
  obtain ⟨ha, hb⟩ := hl
  by_cases hj : id = j
  · subst hj
    rw [htcp, Function.update_self] at ha
    obtain rfl : st' = a := Option.some.inj ha
    rw [tcpSocket_eq_some, hsockets, hh, Function.update_self] at hb
    obtain rfl : k' = b := by simpa using hb
    exact .inl ⟨rfl, rfl, rfl⟩
  · rw [htcp, Function.update_of_ne hj] at ha
    rw [tcpSocket_eq_some, hsockets, Function.update_of_ne (hs.handle_ne ha hst hj)] at hb
    exact .inr ⟨hj, ha, tcpSocket_eq_some.mpr hb⟩

/-- The entry of connection `j` was written. -/
theorem Live.entry (hl : Live t id a b) (hs : Tables s) {j : Nat} {st : TcpState} (st' : TcpState)
    (hst : s.tcpConns j = some st) (hh : st'.handle = st.handle)
    (htcp : t.tcpConns = Function.update s.tcpConns j (some st')) (hsockets : t.sockets = s.sockets) :
    (id = j ∧ a = st' ∧ Live s id st b) ∨ (id ≠ j ∧ Live s id a b) := by
  obtain ⟨k, hk⟩ := hs.socket hst
  have hsame : t.sockets = Function.update s.sockets st.handle (some (.tcp k)) := by
    rw [hsockets, ← tcpSocket_eq_some.mp hk, Function.update_eq_self]
  rcases hl.update hs hst hh htcp hsame with ⟨rfl, rfl, rfl⟩ | hother
  · exact .inl ⟨rfl, rfl, hst, hk⟩
  · exact .inr hother

theorem Live.remove (hl : Live t id a b) {j n : Nat} (htcp : t.tcpConns = Function.update s.tcpConns j none)
    (hsockets : t.sockets = Function.update s.sockets n none) : id ≠ j ∧ Live s id a b := by
  obtain ⟨ha, hb⟩ := hl
  have hj : id ≠ j := by
    intro hj
    rw [htcp, hj, Function.update_self] at ha
    cases ha
  have hn : a.handle ≠ n := by
    intro hn
    rw [tcpSocket_eq_some, hsockets, hn, Function.update_self] at hb
    cases hb
  rw [htcp, Function.update_of_ne hj] at ha
  rw [tcpSocket_eq_some, hsockets, Function.update_of_ne hn] at hb
  exact ⟨hj, ha, tcpSocket_eq_some.mpr hb⟩

/-- One socket was written. -/
theorem Live.socket (hl : Live t id a b) {n : Nat} {x : Option Socket} (htcp : t.tcpConns = s.tcpConns)
    (hsockets : t.sockets = Function.update s.sockets n x) :
    (s.tcpConns id = some a ∧ a.handle = n ∧ x = some (.tcp b)) ∨ Live s id a b := by
  obtain ⟨ha, hb⟩ := hl
  rw [htcp] at ha
  by_cases hn : a.handle = n
  · rw [tcpSocket_eq_some, hsockets, hn, Function.update_self] at hb
    exact .inl ⟨ha, hn, hb⟩
  · rw [tcpSocket_eq_some, hsockets, Function.update_of_ne hn] at hb
    exact .inr ⟨ha, tcpSocket_eq_some.mpr hb⟩

/-- An entry and a socket with a free handle were added. -/
theorem Live.add (hl : Live t id a b) (hs : Tables s) {j n : Nat} {st : TcpState} {k : TcpSocket}
    (hn : s.sockets n = none) (hh : st.handle = n)
    (htcp : t.tcpConns = Function.update s.tcpConns j (some st))
    (hsockets : t.sockets = Function.update s.sockets n (some (.tcp k))) :
    (id = j ∧ a = st ∧ b = k) ∨ Live s id a b := by
  obtain ⟨ha, hb⟩ := hl
  by_cases hj : id = j
  · subst hj
    rw [htcp, Function.update_self] at ha
    obtain rfl : st = a := Option.some.inj ha
    rw [tcpSocket_eq_some, hsockets, hh, Function.update_self] at hb
    obtain rfl : k = b := by simpa using hb
    exact .inl ⟨rfl, rfl, rfl⟩
  · rw [htcp, Function.update_of_ne hj] at ha
    rw [tcpSocket_eq_some, hsockets, Function.update_of_ne (hs.ne_free hn ha)] at hb
    exact .inr ⟨ha, tcpSocket_eq_some.mpr hb⟩

end Updates

/-! ### The ways to change -/

/-- The connection the step serves. -/
def Action.serves : Action → Option Nat
  | .serviceTcp id .. => some id
  | _ => none

/-- The step handles messages. -/
def Action.handles : Action → Bool
  | .retryDeferred | .receive => true
  | _ => false

/-- The connection after it was handed over, if it is. -/
def TcpState.handedOver (st : TcpState) (k : TcpSocket) : TcpState :=
  if !st.established && k.state == .established then {st with established := true} else st

/-- The connection was opened by the step. -/
def Opened (s : State) (id : Nat) (st : TcpState) (k : TcpSocket) : Prop :=
  id = s.nextId ∧ ∃ handle localPort, st = {handle} ∧ k = {state := .synSent, localPort}

/-- What step `x` does to connection `id` that stays in the table. -/
inductive Change (x : Action) (s : State) (id : Nat) (st : TcpState) (k : TcpSocket) :
    TcpState → TcpSocket → Prop where
  | same (hx : x.serves ≠ some id) : Change x s id st k st k
  | polled {n : Nat} {state : TcpSocketState} {more : List Slice} (hx : x = .pollTcp n state more)
      (ho : state.opening = true → k.state.opening = true) : Change x s id st k st {k with
        state := state, rx := k.rx ++ more, received := k.received ++ (more.map Subtype.val).flatten}
  | read (hx : x = .recv id) : Change x s id st k {st with toApp := st.toApp.tail} k
  | message (hx : x.handles = true) (pending : List UInt8) (half : Bool) :
      Change x s id st k {st with pending := pending, halfClosed := half} k
  | served {n : Nat} {waiting : Bool} (hx : x = .serviceTcp id n waiting) {gone : Bool}
      (hgone : gone = appGone (next x s) id (st.handedOver k))
      (hover : k.state.isOver = true → (st.handedOver k).established = true)
      (hstays : (Pass.run s.tier gone n {st := st.handedOver k, socket := k}).2 = false) :
      Change x s id st k (Pass.run s.tier gone n {st := st.handedOver k, socket := k}).1.st
        (Pass.run s.tier gone n {st := st.handedOver k, socket := k}).1.socket

/-- Where a connection comes from. -/
def Origin (x : Action) (s : State) (id : Nat) (st' : TcpState) (k' : TcpSocket) : Prop :=
  Opened s id st' k' ∨ ∃ st k, Live s id st k ∧ Change x s id st k st' k'

theorem Live.origin {x : Action} {s : State} {id : Nat} {st : TcpState} {k : TcpSocket} (hl : Live s id st k)
    (hx : x.serves ≠ some id) : Origin x s id st k := .inr ⟨st, k, hl, .same hx⟩

/-! ### Serving -/

/-- Handing over writes the entry and leaves the sockets alone. -/
theorem handOver_kept (id : Nat) (waiting : Bool) (s : State) :
    (handOver id waiting s).sockets = s.sockets ∧ (handOver id waiting s).tier = s.tier ∧
      (handOver id waiting s).history = s.history ∧ (handOver id waiting s).nextPort = s.nextPort := by
  unfold handOver
  split
  · exact ⟨rfl, rfl, rfl, rfl⟩
  · rename_i st hst
    split
    · exact ⟨rfl, rfl, rfl, rfl⟩
    · split
      · dsimp only
        split
        · exact ⟨rfl, rfl, rfl, rfl⟩
        · have hdrop := dropTcpConn_kept id
            (setTcpApp id ⟨true, true⟩ (setTcp id {st with established := true} s))
          exact ⟨hdrop.sockets, hdrop.tier, hdrop.history, hdrop.nextPort⟩
      · exact ⟨rfl, rfl, rfl, rfl⟩

theorem handOver_tcpConns {s : State} {id : Nat} {st : TcpState} {k : TcpSocket} (hl : Live s id st k)
    (waiting : Bool) : (handOver id waiting s).tcpConns = Function.update s.tcpConns id (some (st.handedOver k)) := by
  obtain ⟨hst, hk⟩ := hl
  unfold handOver TcpState.handedOver
  rw [hst]
  dsimp only
  rw [hk]
  dsimp only
  split
  · split
    · rfl
    · exact (dropTcpConn_kept ..).tcpConns
  · rw [← hst, Function.update_eq_self]

theorem handOver_of_none {s : State} {id : Nat} (h : s.tcpConns id = none) (waiting : Bool) :
    handOver id waiting s = s := by
  simp [handOver, h]

theorem Live.handedOver {s : State} {id : Nat} {st : TcpState} {k : TcpSocket} (hl : Live s id st k)
    (waiting : Bool) : Live (markServed id (handOver id waiting s)) id (st.handedOver k) k := by
  have hhandle : (st.handedOver k).handle = st.handle := by
    unfold TcpState.handedOver
    split <;> rfl
  refine ⟨?_, ?_⟩
  · show (handOver id waiting s).tcpConns id = _
    rw [handOver_tcpConns hl, Function.update_self]
  · rw [tcpSocket_eq_some, hhandle, ← tcpSocket_eq_some.mp hl.2]
    exact congrFun (handOver_kept id waiting s).1 st.handle

theorem tables_markServed {s : State} (hs : Tables s) (id : Nat) (waiting : Bool) :
    Tables (markServed id (handOver id waiting s)) := by
  obtain ⟨hslot, hused, hid⟩ := handOver_layout id waiting s
  exact (Layout.same (s := s) (t := markServed id (handOver id waiting s)) hslot hused hid).tables hs

/-- The connections that are there after one was served. -/
theorem live_serve {s : State} (hs : Tables s) {id n j : Nat} {a : TcpState} {b : TcpSocket}
    (hl : Live (serve id n s) j a b) : (j ≠ id ∧ Live s j a b) ∨ (j = id ∧ ∃ st k, Live s id st k ∧
      (k.state.isOver = true → st.established = true) ∧
      (Pass.run s.tier (appGone s id st) n {st, socket := k}).2 = false ∧
      a = (Pass.run s.tier (appGone s id st) n {st, socket := k}).1.st ∧
      b = (Pass.run s.tier (appGone s id st) n {st, socket := k}).1.socket) := by
  unfold serve at hl
  split at hl
  · rename_i hnone
    refine .inl ⟨?_, hl⟩
    intro hj
    rw [hj] at hl
    rw [hl.1] at hnone
    cases hnone
  · rename_i st hst
    split at hl
    · rename_i hnone
      obtain ⟨k, hk⟩ := hs.socket hst
      rw [hk] at hnone
      cases hnone
    · rename_i k hk
      split at hl
      · exact .inl (hl.remove rfl rfl)
      · rename_i hover
        dsimp only at hl
        split at hl
        · exact .inl (hl.remove rfl rfl)
        · rename_i hstays
          have hstays' := Bool.eq_false_iff.mpr hstays
          have hover' : (!st.established && k.state.isOver) = false := by simpa using hover
          rcases hl.update hs hst (run_handle hover' hstays') rfl rfl with ⟨rfl, rfl, rfl⟩ | hother
          · refine .inr ⟨rfl, st, k, ⟨hst, hk⟩, fun ho => ?_, hstays', rfl, rfl⟩
            simpa [ho] using hover
          · exact .inl hother

theorem live_serviceTcp {s : State} (hs : Tables s) {id n : Nat} {waiting : Bool} {j : Nat} {a : TcpState}
    {b : TcpSocket} (hl : Live (serviceTcp id n waiting s) j a b) :
    Origin (.serviceTcp id n waiting) s j a b := by
  have hother : j ≠ id → (Action.serviceTcp id n waiting).serves ≠ some j :=
    fun hj he => hj (Option.some.inj he).symm
  rcases live_serve (tables_markServed hs id waiting) hl with
    ⟨hj, hl'⟩ | ⟨rfl, st₁, k, hl₁, hover, hstays, rfl, rfl⟩
  · refine Live.origin ⟨?_, ?_⟩ (hother hj)
    · cases hst : s.tcpConns id with
      | none =>
        have h := hl'.1
        rw [markServed, handOver_of_none hst] at h
        exact h
      | some st =>
        obtain ⟨k, hk⟩ := hs.socket hst
        have h : (handOver id waiting s).tcpConns j = some a := hl'.1
        rw [handOver_tcpConns ⟨hst, hk⟩, Function.update_of_ne hj] at h
        exact h
    · have h := tcpSocket_eq_some.mp hl'.2
      rw [tcpSocket_eq_some, ← (handOver_kept id waiting s).1]
      exact h
  · have hst : ∃ st, s.tcpConns j = some st := by
      cases hst : s.tcpConns j with
      | none =>
        have h := hl₁.1
        rw [markServed, handOver_of_none hst] at h
        exact absurd (hst.symm.trans h) nofun
      | some st => exact ⟨st, rfl⟩
    obtain ⟨st, hst⟩ := hst
    obtain ⟨k₀, hk₀⟩ := hs.socket hst
    have hl₀ := Live.handedOver ⟨hst, hk₀⟩ waiting
    obtain rfl : st.handedOver k₀ = st₁ := Option.some.inj (hl₀.1.symm.trans hl₁.1)
    obtain rfl : k₀ = k := Option.some.inj (hl₀.2.symm.trans hl₁.2)
    have htier : (markServed j (handOver j waiting s)).tier = s.tier := (handOver_kept j waiting s).2.1
    rw [htier] at hstays ⊢
    refine .inr ⟨st, k₀, ⟨hst, hk₀⟩, .served rfl ?_ hover hstays⟩
    exact congrArg (fun app => (st.handedOver k₀).established && !(app j).receiver)
      (serve_kept j n (markServed j (handOver j waiting s))).tcpApp.symm

/-! ### The other steps -/

section Steps
variable {s : State} {id : Nat} {a : TcpState} {b : TcpSocket}

theorem live_pollTcp {n : Nat} {state : TcpSocketState} {more : List Slice}
    (hl : Live (pollTcp n state more s) id a b) : Origin (.pollTcp n state more) s id a b := by
  unfold pollTcp at hl
  split at hl
  · exact hl.origin nofun
  · rename_i k hk
    split at hl
    · exact hl.origin nofun
    · rename_i ho
      rcases hl.socket (s := s) rfl rfl with ⟨hst, hn, hx⟩ | hsame
      · cases hx
        refine .inr ⟨a, k, ⟨hst, hn ▸ hk⟩, .polled rfl fun hopening => ?_⟩
        simpa [hopening] using ho
      · exact hsame.origin nofun

theorem live_tryHandleData (hs : Tables s) (d : DataIn) (hl : Live (tryHandleData d s).1 id a b) :
    ∃ st pending half, Live s id st b ∧ a = {st with pending := pending, halfClosed := half} := by
  have hsame (h : Live s id a b) : ∃ st pending half, Live s id st b ∧
    a = {st with pending := pending, halfClosed := half} := ⟨a, a.pending, a.halfClosed, h, rfl⟩
  have hentry {j : Nat} {st : TcpState} (pending : List UInt8) (half : Bool) (hst : s.tcpConns j = some st)
      (h : Live (setTcp j {st with pending := pending, halfClosed := half} s) id a b) :
      ∃ st pending half, Live s id st b ∧ a = {st with pending := pending, halfClosed := half} := by
    rcases h.entry hs {st with pending := pending, halfClosed := half} hst rfl rfl rfl with
      ⟨rfl, rfl, h'⟩ | ⟨-, h'⟩
    · exact ⟨st, pending, half, h', rfl⟩
    · exact hsame h'
  unfold tryHandleData at hl
  cases d with
  | tcp j data =>
    dsimp only at hl
    split at hl
    · exact hsame hl
    · rename_i st hst
      split at hl
      · exact hsame hl
      · split at hl <;> exact hentry _ st.halfClosed hst hl
  | tcpClose j =>
    dsimp only at hl
    split at hl
    · exact hsame hl
    · rename_i st hst
      exact hentry st.pending true hst hl
  | udp j dst data => exact hsame hl
  | udpClose j =>
    dsimp only at hl
    split at hl
    · exact hsame hl
    · rename_i st hst
      rcases Live.socket (s := s) hl rfl rfl with ⟨-, -, hx⟩ | h
      · cases hx
      · exact hsame h

theorem live_retryDeferred (hs : Tables s) (hl : Live (retryDeferred s) id a b) :
    Origin .retryDeferred s id a b := by
  unfold retryDeferred at hl
  split at hl
  · exact hl.origin nofun
  · rename_i d rest hd
    have htables : Tables {s with deferred := rest} :=
      (Layout.same (s := s) (t := {s with deferred := rest}) rfl rfl rfl).tables hs
    obtain ⟨st, pending, half, h, rfl⟩ := live_tryHandleData htables d hl
    exact .inr ⟨st, b, h, .message rfl pending half⟩

theorem live_receive (hs : Tables s) (hl : Live (receive s) id a b) : Origin .receive s id a b := by
  unfold receive at hl
  split at hl
  · exact hl.origin nofun
  · split at hl
    · exact hl.origin nofun
    · rename_i d rest hd
      have htables : Tables {s with dataIn := rest} :=
        (Layout.same (s := s) (t := {s with dataIn := rest}) rfl rfl rfl).tables hs
      obtain ⟨st, pending, half, h, rfl⟩ := live_tryHandleData htables d hl
      exact .inr ⟨st, b, h, .message rfl pending half⟩

theorem live_openTcp (hs : Tables s) {n : Nat} {connects : Bool} (hl : Live (openTcp n connects s) id a b) :
    Origin (.openTcp n connects) s id a b := by
  unfold openTcp at hl
  split at hl
  · exact hl.origin nofun
  · rename_i hfree
    dsimp only at hl
    split at hl
    · exact Live.origin (hl.same (s := s) rfl rfl) nofun
    · have hn : s.sockets n = none := by simpa using hfree
      rcases hl.add hs hn rfl rfl rfl with ⟨hid, ha, hb⟩ | h
      · exact .inl ⟨hid, n, s.nextPort, ha, hb⟩
      · exact h.origin nofun

theorem live_openUdp {n : Nat} {binds waiting : Bool} (hl : Live (openUdp n binds waiting s) id a b) :
    Origin (.openUdp n binds waiting) s id a b := by
  have hadd (h : Live (addUdp n s.nextPort {s with nextPort := allocPort s.nextPort}) id a b) :
      Origin (.openUdp n binds waiting) s id a b := by
    rcases Live.socket (s := s) h rfl rfl with ⟨-, -, hx⟩ | h
    · cases hx
    · exact h.origin nofun
  unfold openUdp at hl
  split at hl
  · exact hl.origin nofun
  · dsimp only at hl
    split at hl
    · exact Live.origin (hl.same (s := s) rfl rfl) nofun
    · split at hl
      · exact hadd hl
      · have hdrop := dropUdpConn_kept s.nextId (addUdp n s.nextPort {s with nextPort := allocPort s.nextPort})
        exact hadd (hl.same hdrop.tcpConns hdrop.sockets)

theorem live_recv (hs : Tables s) {j : Nat} (hl : Live (recv j s) id a b) : Origin (.recv j) s id a b := by
  unfold recv at hl
  split at hl
  · rename_i st hst
    split at hl
    · rcases hl.entry hs {st with toApp := st.toApp.tail} hst rfl rfl rfl with ⟨rfl, rfl, h⟩ | ⟨-, h⟩
      · exact .inr ⟨st, b, h, .read rfl⟩
      · exact h.origin nofun
    · exact hl.origin nofun
  · exact hl.origin nofun

/-- A step that writes no TCP entry and no TCP socket. -/
def UdpOnly (s t : State) : Prop := t.tcpConns = s.tcpConns ∧ (t.sockets = s.sockets ∨
  ∃ n k, t.sockets = Function.update s.sockets n (some (.udp k)))

theorem UdpOnly.live {t : State} (h : UdpOnly s t) (hl : Live t id a b) : Live s id a b := by
  obtain ⟨htcp, hsockets | ⟨n, k, hsockets⟩⟩ := h
  · exact hl.same htcp hsockets
  · rcases hl.socket htcp hsockets with ⟨-, -, hk⟩ | h
    · cases hk
    · exact h

theorem StackKept.udpOnly {t : State} (h : StackKept s t) : UdpOnly s t := ⟨h.tcpConns, .inl h.sockets⟩

theorem pollUdp_only (n : Nat) (more : List (SocketAddr × List UInt8)) (s : State) :
    UdpOnly s (pollUdp n more s) := by
  unfold pollUdp
  split
  · exact ⟨rfl, .inr ⟨_, _, rfl⟩⟩
  · exact ⟨rfl, .inl rfl⟩

theorem serviceUdp_only (j : Nat) (s : State) : UdpOnly s (serviceUdp j s) := by
  unfold serviceUdp
  split
  · exact ⟨rfl, .inl rfl⟩
  · split
    · exact ⟨rfl, .inr ⟨_, _, rfl⟩⟩
    · exact ⟨rfl, .inl rfl⟩

theorem recvUdp_only (j : Nat) (s : State) : UdpOnly s (recvUdp j s) := by
  unfold recvUdp
  split
  · split <;> exact ⟨rfl, .inl rfl⟩
  · exact ⟨rfl, .inl rfl⟩

end Steps

/-- **What a step can do to a connection.** -/
theorem live_next {x : Action} {s : State} (hs : Tables s) {id : Nat} {st' : TcpState} {k' : TcpSocket}
    (hl : Live (next x s) id st' k') : Origin x s id st' k' := by
  cases x with
  | openTcp n connects => exact live_openTcp hs hl
  | openUdp n binds waiting => exact live_openUdp hl
  | pollTcp n state more => exact live_pollTcp hl
  | pollUdp n more => exact Live.origin ((pollUdp_only n more s).live hl) nofun
  | serviceTcp id n waiting => exact live_serviceTcp hs hl
  | serviceUdp id => exact Live.origin ((serviceUdp_only id s).live hl) nofun
  | retryDeferred => exact live_retryDeferred hs hl
  | receive => exact live_receive hs hl
  | recv id => exact live_recv hs hl
  | recvUdp id => exact Live.origin ((recvUdp_only id s).live hl) nofun
  | _ => exact Live.origin (UdpOnly.live (ofApp_kept rfl s).udpOnly hl) nofun

end Aether.Netstack
