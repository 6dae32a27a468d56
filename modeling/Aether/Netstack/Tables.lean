import Aether.Machine.Slots
import Aether.Netstack.Service

/-! The tables of the stack and the socket set agree.

Every connection owns its socket: the handle in its entry names a socket of its
kind, no two connections share one, and no socket is left that no connection
owns. Ids are given out in order and never again. Both hold in every state of
every run (`tables_next`), since a step leaves the layout as it is, adds one
connection with a free handle, or removes one with its socket. -/
namespace Aether.Netstack
open Machine

inductive Kind where
  | tcp
  | udp
  deriving DecidableEq

/-- A connection. -/
structure Key where
  kind : Kind
  id : Nat
  deriving DecidableEq

def Socket.kind : Socket → Kind
  | .tcp _ => .tcp
  | .udp _ => .udp

/-- The handle of a connection. -/
def slot (s : State) (x : Key) : Option Nat :=
  match x.kind with
  | .tcp => (s.tcpConns x.id).map TcpState.handle
  | .udp => (s.udpConns x.id).map UdpState.handle

def used (s : State) (h : Nat) : Option Kind := (s.sockets h).map Socket.kind

structure Tables (s : State) : Prop where
  owned : Owned Key.kind (slot s) (used s)
  fresh : ∀ {x h}, slot s x = some h → x.id < s.nextId

/-- What a step does to the layout. -/
inductive Layout (s t : State) : Prop where
  | same (slots : slot t = slot s) (sockets : used t = used s) (ids : t.nextId = s.nextId)
  | add (kind : Kind) (h : Nat) (free : used s h = none)
      (slots : slot t = Function.update (slot s) ⟨kind, s.nextId⟩ (some h))
      (sockets : used t = Function.update (used s) h (some kind)) (ids : t.nextId = s.nextId + 1)
  | remove (x : Key) (h : Nat) (owned : slot s x = some h)
      (slots : slot t = Function.update (slot s) x none)
      (sockets : used t = Function.update (used s) h none) (ids : t.nextId = s.nextId)

theorem Layout.refl (s : State) : Layout s s := .same rfl rfl rfl

/-- Two steps, the first of which leaves the layout as it is. -/
theorem Layout.after {s t u : State} (hslot : slot t = slot s) (hused : used t = used s)
    (hid : t.nextId = s.nextId) (l : Layout t u) : Layout s u := by
  cases l with
  | same slots sockets ids =>
    exact .same (slots.trans hslot) (sockets.trans hused) (ids.trans hid)
  | add kind h free slots sockets ids =>
    rw [hused] at free sockets
    rw [hslot, hid] at slots
    exact .add kind h free slots sockets (hid ▸ ids)
  | remove x h owned slots sockets ids =>
    rw [hslot] at owned slots
    rw [hused] at sockets
    exact .remove x h owned slots sockets (ids.trans hid)

/-- Two steps, the second of which leaves the layout as it is. -/
theorem Layout.then {s t u : State} (l : Layout s t) (hslot : slot u = slot t) (hused : used u = used t)
    (hid : u.nextId = t.nextId) : Layout s u := by
  cases l with
  | same slots sockets ids =>
    exact .same (hslot.trans slots) (hused.trans sockets) (hid.trans ids)
  | add kind h free slots sockets ids =>
    exact .add kind h free (hslot.trans slots) (hused.trans sockets) (hid.trans ids)
  | remove x h owned slots sockets ids =>
    exact .remove x h owned (hslot.trans slots) (hused.trans sockets) (hid.trans ids)

/-- Whatever the step does to the layout, the two tables still agree. -/
theorem Layout.tables {s t : State} (l : Layout s t) (h : Tables s) : Tables t := by
  cases l with
  | same slots sockets ids =>
    refine ⟨by rw [slots, sockets]; exact h.owned, fun hx => ?_⟩
    rw [slots] at hx
    rw [ids]
    exact h.fresh hx
  | add kind n free slots sockets ids =>
    have hnew : slot s ⟨kind, s.nextId⟩ = none := by
      cases hslot : slot s ⟨kind, s.nextId⟩ with
      | none => rfl
      | some m => exact absurd (h.fresh hslot) (Nat.lt_irrefl _)
    refine ⟨?_, fun {x m} hx => ?_⟩
    · rw [slots, sockets]
      exact h.owned.add hnew free
    · rw [slots] at hx
      rw [ids]
      by_cases hxn : x = ⟨kind, s.nextId⟩
      · rw [hxn]
        exact Nat.lt_succ_self _
      · rw [Function.update_of_ne hxn] at hx
        exact Nat.lt_succ_of_lt (h.fresh hx)
  | remove x n owned slots sockets ids =>
    refine ⟨?_, fun {y m} hy => ?_⟩
    · rw [slots, sockets]
      exact h.owned.remove owned
    · rw [slots] at hy
      rw [ids]
      by_cases hyx : y = x
      · rw [hyx, Function.update_self] at hy
        cases hy
      · rw [Function.update_of_ne hyx] at hy
        exact h.fresh hy

/-! ### What the app does -/

/-- What the steps of the app leave alone. -/
structure StackKept (s t : State) : Prop where
  tier : t.tier = s.tier
  sockets : t.sockets = s.sockets
  tcpConns : t.tcpConns = s.tcpConns
  udpConns : t.udpConns = s.udpConns
  nextId : t.nextId = s.nextId
  nextPort : t.nextPort = s.nextPort
  deferred : t.deferred = s.deferred
  history : t.history = s.history

theorem StackKept.refl (s : State) : StackKept s s := ⟨rfl, rfl, rfl, rfl, rfl, rfl, rfl, rfl⟩

theorem StackKept.trans {s t u : State} (h : StackKept s t) (h' : StackKept t u) : StackKept s u :=
  ⟨h'.tier.trans h.tier, h'.sockets.trans h.sockets, h'.tcpConns.trans h.tcpConns,
    h'.udpConns.trans h.udpConns, h'.nextId.trans h.nextId, h'.nextPort.trans h.nextPort,
    h'.deferred.trans h.deferred, h'.history.trans h.history⟩

theorem StackKept.slot_eq {s t : State} (h : StackKept s t) : slot t = slot s := by
  funext x
  rw [slot, slot, h.tcpConns, h.udpConns]

theorem StackKept.used_eq {s t : State} (h : StackKept s t) : used t = used s := by
  funext n
  rw [used, used, h.sockets]

theorem Layout.kept {s t u : State} (l : Layout s t) (h : StackKept t u) : Layout s u :=
  l.then h.slot_eq h.used_eq h.nextId

theorem StackKept.layout {s t : State} (h : StackKept s t) : Layout s t :=
  .same h.slot_eq h.used_eq h.nextId

theorem trySend_kept (d : DataIn) (s : State) : StackKept s (trySend d s) := by
  unfold trySend
  split <;> exact ⟨rfl, rfl, rfl, rfl, rfl, rfl, rfl, rfl⟩

theorem sendWith_kept (sender : Bool) (d : DataIn) (s : State) : StackKept s (sendWith sender d s) := by
  unfold sendWith
  split
  · exact trySend_kept d s
  · exact .refl s

theorem setTcpApp_kept (id : Nat) (a : AppSide) (s : State) : StackKept s (setTcpApp id a s) :=
  ⟨rfl, rfl, rfl, rfl, rfl, rfl, rfl, rfl⟩

theorem setUdpApp_kept (id : Nat) (a : AppSide) (s : State) : StackKept s (setUdpApp id a s) :=
  ⟨rfl, rfl, rfl, rfl, rfl, rfl, rfl, rfl⟩

theorem dropTcpSender_kept (id : Nat) (s : State) : StackKept s (dropTcpSender id s) := by
  unfold dropTcpSender
  split
  · exact (setTcpApp_kept ..).trans (trySend_kept ..)
  · exact .refl s

theorem dropTcpReceiver_kept (id : Nat) (s : State) : StackKept s (dropTcpReceiver id s) := by
  unfold dropTcpReceiver
  split <;> exact ⟨rfl, rfl, rfl, rfl, rfl, rfl, rfl, rfl⟩

theorem dropUdpSender_kept (id : Nat) (s : State) : StackKept s (dropUdpSender id s) := by
  unfold dropUdpSender
  split
  · exact (setUdpApp_kept ..).trans (trySend_kept ..)
  · exact .refl s

theorem dropUdpReceiver_kept (id : Nat) (s : State) : StackKept s (dropUdpReceiver id s) := by
  unfold dropUdpReceiver
  split <;> exact ⟨rfl, rfl, rfl, rfl, rfl, rfl, rfl, rfl⟩

theorem dropTcpConn_kept (id : Nat) (s : State) : StackKept s (dropTcpConn id s) :=
  (dropTcpSender_kept id s).trans (dropTcpReceiver_kept id _)

theorem dropUdpConn_kept (id : Nat) (s : State) : StackKept s (dropUdpConn id s) :=
  (dropUdpSender_kept id s).trans (dropUdpReceiver_kept id _)

/-- The steps that only send or drop an end of a connection. -/
def Action.ofApp : Action → Bool
  | .send .. | .close .. | .sendTo .. | .closeUdp .. => true
  | .dropTcpSender .. | .dropTcpReceiver .. | .dropUdpSender .. | .dropUdpReceiver .. => true
  | _ => false

/-- What an app does reaches the stack only through the channel. -/
theorem ofApp_kept {a : Action} (ha : a.ofApp) (s : State) : StackKept s (next a s) := by
  cases a with
  | send id data => exact sendWith_kept ..
  | close id => exact sendWith_kept ..
  | sendTo id dst data => exact sendWith_kept ..
  | closeUdp id => exact sendWith_kept ..
  | dropTcpSender id => exact dropTcpSender_kept id s
  | dropTcpReceiver id => exact dropTcpReceiver_kept id s
  | dropUdpSender id => exact dropUdpSender_kept id s
  | dropUdpReceiver id => exact dropUdpReceiver_kept id s
  | _ => cases ha

/-! ### The pieces of the steps -/

theorem slot_setTcp {s : State} {id : Nat} {st st' : TcpState} (h : s.tcpConns id = some st)
    (hh : st'.handle = st.handle) : slot (setTcp id st' s) = slot s := by
  funext x
  obtain ⟨kind, j⟩ := x
  cases kind with
  | tcp =>
    by_cases hj : j = id
    · subst hj
      simp [slot, setTcp, h, hh]
    · simp [slot, setTcp, hj]
  | udp => rfl

/-- A socket that stays of its kind leaves the kinds as they are. -/
theorem used_update {s : State} {h : Nat} {x y : Socket} (hx : s.sockets h = some x)
    (hk : y.kind = x.kind) :
    (fun m => (Function.update s.sockets h (some y) m).map Socket.kind) = used s := by
  funext m
  by_cases hm : m = h
  · subst hm
    simp [used, hx, hk]
  · simp [used, hm]

theorem tcpSocket_eq_some {s : State} {h : Nat} {k : TcpSocket} :
    tcpSocket s h = some k ↔ s.sockets h = some (.tcp k) := by
  unfold tcpSocket
  split <;> simp_all

theorem Layout.setTcp {s : State} {id : Nat} {st st' : TcpState} (h : s.tcpConns id = some st)
    (hh : st'.handle = st.handle) : Layout s (setTcp id st' s) := .same (slot_setTcp h hh) rfl rfl

/-- A socket changes and stays of its kind. -/
theorem Layout.socket {s : State} {h : Nat} {x y : Socket} (hx : s.sockets h = some x)
    (hk : y.kind = x.kind) : Layout s {s with sockets := Function.update s.sockets h (some y)} :=
  .same rfl (used_update hx hk) rfl

/-- A connection goes together with its socket. -/
theorem Layout.removeTcp {s : State} {id : Nat} {st : TcpState} (h : s.tcpConns id = some st) :
    Layout s (removeTcp id st.handle s) := by
  refine .remove ⟨.tcp, id⟩ st.handle (by simp [slot, h]) ?_ ?_ rfl
  · funext x
    obtain ⟨kind, j⟩ := x
    cases kind with
    | tcp =>
      by_cases hj : j = id
      · subst hj
        simp [slot, Netstack.removeTcp]
      · simp [slot, Netstack.removeTcp, hj]
    | udp => simp [slot, Netstack.removeTcp]
  · funext m
    by_cases hm : m = st.handle
    · subst hm
      simp [used, Netstack.removeTcp]
    · simp [used, Netstack.removeTcp, hm]

theorem tryHandleData_layout (d : DataIn) (s : State) : Layout s (tryHandleData d s).1 := by
  unfold tryHandleData
  cases d with
  | tcp id data =>
    dsimp only
    split
    · exact .refl s
    · rename_i st h
      split
      · exact .refl s
      · split <;> exact .setTcp h rfl
  | tcpClose id =>
    dsimp only
    split
    · exact .refl s
    · rename_i st h
      exact .setTcp h rfl
  | udp id dst data => exact .refl s
  | udpClose id =>
    dsimp only
    split
    · exact .refl s
    · rename_i st h
      refine .remove ⟨.udp, id⟩ st.handle (by simp [slot, h]) ?_ ?_ rfl
      · funext x
        obtain ⟨kind, j⟩ := x
        cases kind with
        | tcp => simp [slot]
        | udp =>
          by_cases hj : j = id
          · subst hj
            simp [slot]
          · simp [slot, hj]
      · funext m
        by_cases hm : m = st.handle
        · subst hm
          simp [used]
        · simp [used, hm]

theorem Layout.retryDeferred (s : State) : Layout s (retryDeferred s) := by
  unfold Netstack.retryDeferred
  split
  · exact .refl s
  · rename_i d rest h
    have l := tryHandleData_layout d {s with deferred := rest}
    exact Layout.after (t := {s with deferred := rest}) rfl rfl rfl (l.then rfl rfl rfl)

/-- A message from the channel opens no socket; one that ends a UDP connection takes its socket
away. -/
theorem Layout.receive (s : State) : Layout s (receive s) := by
  unfold Netstack.receive
  split
  · exact .refl s
  · split
    · exact .refl s
    · rename_i d rest h
      have l := tryHandleData_layout d {s with dataIn := rest}
      exact Layout.after (t := {s with dataIn := rest}) rfl rfl rfl (l.then rfl rfl rfl)

theorem slot_addTcp (handle localPort : Nat) (s : State) :
    slot (addTcp handle localPort s) = Function.update (slot s) ⟨.tcp, s.nextId⟩ (some handle) := by
  funext x
  obtain ⟨kind, j⟩ := x
  cases kind with
  | tcp => by_cases hj : j = s.nextId <;> simp [slot, addTcp, hj]
  | udp => simp [slot, addTcp]

theorem slot_addUdp (handle localPort : Nat) (s : State) :
    slot (addUdp handle localPort s) = Function.update (slot s) ⟨.udp, s.nextId⟩ (some handle) := by
  funext x
  obtain ⟨kind, j⟩ := x
  cases kind with
  | tcp => simp [slot, addUdp, setUdpApp]
  | udp => by_cases hj : j = s.nextId <;> simp [slot, addUdp, setUdpApp, hj]

theorem Layout.addTcp {s : State} {handle : Nat} (h : s.sockets handle = none) (localPort : Nat) :
    Layout s (addTcp handle localPort s) := by
  refine .add .tcp handle (by simp [used, h]) (slot_addTcp ..) ?_ rfl
  funext m
  by_cases hm : m = handle <;> simp [used, Netstack.addTcp, hm, Socket.kind]

theorem Layout.addUdp {s : State} {handle : Nat} (h : s.sockets handle = none) (localPort : Nat) :
    Layout s (addUdp handle localPort s) := by
  refine .add .udp handle (by simp [used, h]) (slot_addUdp ..) ?_ rfl
  funext m
  by_cases hm : m = handle <;> simp [used, Netstack.addUdp, setUdpApp, hm, Socket.kind]

/-- A connection that is opened comes with a socket of its own. -/
theorem Layout.openTcp (handle : Nat) (connects : Bool) (s : State) : Layout s (openTcp handle connects s) := by
  unfold Netstack.openTcp
  split
  · exact .refl s
  · rename_i hfree
    dsimp only
    split
    · exact .same rfl rfl rfl
    · exact Layout.after (t := {s with nextPort := allocPort s.nextPort}) rfl rfl rfl
        (.addTcp (by simpa using hfree) _)

theorem Layout.openUdp (handle : Nat) (binds waiting : Bool) (s : State) :
    Layout s (openUdp handle binds waiting s) := by
  unfold Netstack.openUdp
  split
  · exact .refl s
  · rename_i hfree
    have hadd : Layout s (Netstack.addUdp handle s.nextPort {s with nextPort := allocPort s.nextPort}) :=
      Layout.after (t := {s with nextPort := allocPort s.nextPort}) rfl rfl rfl
        (.addUdp (by simpa using hfree) _)
    dsimp only
    split
    · exact .same rfl rfl rfl
    · split
      · exact hadd
      · exact hadd.kept (dropUdpConn_kept ..)

/-- Polling changes what a socket holds, and not which there are. -/
theorem Layout.pollTcp (handle : Nat) (state : TcpSocketState) (more : List Slice) (s : State) :
    Layout s (pollTcp handle state more s) := by
  unfold Netstack.pollTcp
  split
  · exact .refl s
  · rename_i k hk
    split
    · exact .refl s
    · exact .socket (tcpSocket_eq_some.mp hk) rfl

theorem Layout.pollUdp (handle : Nat) (more : List (SocketAddr × List UInt8)) (s : State) :
    Layout s (pollUdp handle more s) := by
  unfold Netstack.pollUdp
  split
  · rename_i k hk
    exact .socket hk rfl
  · exact .refl s

theorem slot_setUdp {s : State} {id : Nat} {st st' : UdpState} (h : s.udpConns id = some st)
    (hh : st'.handle = st.handle) :
    slot {s with udpConns := Function.update s.udpConns id (some st')} = slot s := by
  funext x
  obtain ⟨kind, j⟩ := x
  cases kind with
  | tcp => rfl
  | udp =>
    by_cases hj : j = id
    · subst hj
      simp [slot, h, hh]
    · simp [slot, hj]

/-- A delivery moves no handle and no port. -/
theorem deliverUdp_keeps (capacity : Nat) (gone : Bool) (budget : Nat) (st : UdpState) (k : UdpSocket) :
    (deliverUdp capacity gone budget st k).1.handle = st.handle ∧
      (deliverUdp capacity gone budget st k).2.localPort = k.localPort := by
  induction budget generalizing st k with
  | zero => exact ⟨rfl, rfl⟩
  | succ budget ih =>
    rw [deliverUdp]
    split
    · exact ⟨rfl, rfl⟩
    · split
      · exact ⟨rfl, rfl⟩
      · split
        · exact ⟨rfl, rfl⟩
        · exact ih _ _

theorem Layout.serviceUdp (id : Nat) (s : State) : Layout s (serviceUdp id s) := by
  unfold Netstack.serviceUdp
  split
  · exact .refl s
  · rename_i st h
    split
    · rename_i k hk
      exact .same (slot_setUdp h (deliverUdp_keeps ..).1) (used_update hk rfl) rfl
    · exact .refl s

theorem Layout.recv (id : Nat) (s : State) : Layout s (recv id s) := by
  unfold Netstack.recv
  split
  · rename_i st h
    split
    · exact .setTcp h rfl
    · exact .refl s
  · exact .refl s

theorem Layout.recvUdp (id : Nat) (s : State) : Layout s (recvUdp id s) := by
  unfold Netstack.recvUdp
  split
  · rename_i st h
    split
    · exact .same (slot_setUdp h rfl) rfl rfl
    · exact .refl s
  · exact .refl s

theorem handOver_layout (id : Nat) (waiting : Bool) (s : State) : slot (handOver id waiting s) = slot s ∧
    used (handOver id waiting s) = used s ∧ (handOver id waiting s).nextId = s.nextId := by
  unfold handOver
  split
  · exact ⟨rfl, rfl, rfl⟩
  · rename_i st h
    split
    · exact ⟨rfl, rfl, rfl⟩
    · split
      · have hslot : slot (setTcpApp id ⟨true, true⟩ (Netstack.setTcp id {st with established := true} s)) =
          slot s := slot_setTcp h rfl
        dsimp only
        split
        · exact ⟨hslot, rfl, rfl⟩
        · have hdrop := dropTcpConn_kept id
            (setTcpApp id ⟨true, true⟩ (Netstack.setTcp id {st with established := true} s))
          exact ⟨hdrop.slot_eq.trans hslot, hdrop.used_eq, hdrop.nextId⟩
      · exact ⟨rfl, rfl, rfl⟩

/-- A served connection that is not removed keeps its handle. -/
theorem run_handle {s : State} {id n : Nat} {st : TcpState} {k : TcpSocket}
    (hover : (!st.established && k.state.isOver) = false)
    (hstays : (Pass.run s.tier (appGone s id st) n {st, socket := k}).2 = false) :
    (Pass.run s.tier (appGone s id st) n {st, socket := k}).1.st.handle = st.handle := by
  have hp : k.state.isOver = true → st.established = true := by
    intro h
    rw [h] at hover
    simpa using hover
  have hframe := Pass.run_frame (p := {st, socket := k}) hp hstays
  rw [hframe.handle, (Pass.upload_kept n _).1]

theorem Layout.serve (id n : Nat) (s : State) : Layout s (serve id n s) := by
  unfold Netstack.serve
  split
  · exact .refl s
  · rename_i st h
    split
    · exact .refl s
    · rename_i k hk
      split
      · exact .removeTcp h
      · rename_i hover
        dsimp only
        split
        · exact (Layout.removeTcp h).then rfl rfl rfl
        · rename_i hstays
          have hhandle := run_handle (by simpa using hover) (Bool.eq_false_iff.mpr hstays)
          refine .same ?_ (used_update (tcpSocket_eq_some.mp hk) rfl) rfl
          exact (slot_setTcp h hhandle : slot (Netstack.setTcp id _ s) = slot s)

theorem Layout.serviceTcp (id n : Nat) (waiting : Bool) (s : State) :
    Layout s (serviceTcp id n waiting s) := by
  obtain ⟨hslot, hused, hid⟩ := handOver_layout id waiting s
  exact .after (t := markServed id (handOver id waiting s)) hslot hused hid (.serve id n _)

theorem layout_next (a : Action) (s : State) : Layout s (next a s) := by
  cases a with
  | openTcp handle connects => exact .openTcp ..
  | openUdp handle binds waiting => exact .openUdp ..
  | pollTcp handle state more => exact .pollTcp ..
  | pollUdp handle more => exact .pollUdp ..
  | serviceTcp id n waiting => exact .serviceTcp ..
  | serviceUdp id => exact .serviceUdp ..
  | retryDeferred => exact .retryDeferred s
  | receive => exact .receive s
  | recv id => exact .recv id s
  | recvUdp id => exact .recvUdp id s
  | _ => exact (ofApp_kept rfl s).layout

/-- A TCP connection has a TCP socket. -/
theorem Tables.socket {s : State} (h : Tables s) {id : Nat} {st : TcpState} (hst : s.tcpConns id = some st) :
    ∃ k, tcpSocket s st.handle = some k := by
  have hused := h.owned.inUse (x := ⟨.tcp, id⟩) (show slot s ⟨.tcp, id⟩ = some st.handle by simp [slot, hst])
  obtain ⟨x, hx, hkind⟩ := Option.map_eq_some_iff.mp hused
  cases x with
  | tcp k => exact ⟨k, tcpSocket_eq_some.mpr hx⟩
  | udp k => cases hkind

/-- Two TCP connections have two sockets. -/
theorem Tables.handle_ne {s : State} (h : Tables s) {i j : Nat} {a b : TcpState}
    (ha : s.tcpConns i = some a) (hb : s.tcpConns j = some b) (hij : i ≠ j) : a.handle ≠ b.handle := by
  intro he
  have hi : slot s ⟨.tcp, i⟩ = some a.handle := by simp [slot, ha]
  have hj : slot s ⟨.tcp, j⟩ = some a.handle := by simp [slot, hb, he]
  exact hij (congrArg Key.id (h.owned.unshared hi hj))

theorem Tables.lt_nextId {s : State} (h : Tables s) {id : Nat} {st : TcpState}
    (hst : s.tcpConns id = some st) : id < s.nextId :=
  h.fresh (x := ⟨.tcp, id⟩) (show slot s ⟨.tcp, id⟩ = some st.handle by simp [slot, hst])

/-- A handle that is free is no connection's. -/
theorem Tables.ne_free {s : State} (h : Tables s) {n id : Nat} {st : TcpState} (hn : s.sockets n = none)
    (hst : s.tcpConns id = some st) : st.handle ≠ n := by
  intro he
  obtain ⟨k, hk⟩ := h.socket hst
  rw [tcpSocket_eq_some, he, hn] at hk
  cases hk

theorem Layout.nextId_le {s t : State} (l : Layout s t) : s.nextId ≤ t.nextId := by
  cases l with
  | same _ _ ids => exact Nat.le_of_eq ids.symm
  | add _ _ _ _ _ ids => omega
  | remove _ _ _ _ _ ids => exact Nat.le_of_eq ids.symm

theorem tables_next (a : Action) (s : State) (h : Tables s) : Tables (next a s) := (layout_next a s).tables h

theorem tables_initial (tier : Tier) : Tables (initial tier) := by
  have hslot (x : Key) : slot (initial tier) x = none := by
    obtain ⟨kind, id⟩ := x
    cases kind <;> rfl
  refine ⟨⟨?_, ?_, ?_⟩, ?_⟩
  · intro x h hx
    rw [hslot] at hx
    cases hx
  · intro x y h hx
    rw [hslot] at hx
    cases hx
  · intro h c hc
    cases hc
  · intro x h hx
    rw [hslot] at hx
    cases hx

end Aether.Netstack
