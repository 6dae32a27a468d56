import Aether.Machine.Run

/-! The userspace TCP/IP stack between the tunnel and the local proxies.

One task owns the sockets and two tables of connections. The app side of a
connection sends messages through one bounded channel, `dataIn`, shared by all
connections, and receives through a bounded channel of the connection. A chunk
that finds its connection's `pending` buffer full is split, and the remainder
waits in `deferred`, which keeps the task from taking more messages.

The sockets are smoltcp's. What the stack relies on is modelled and the rest is
left open: a poll may change the state of a socket and append to what it has
received, and `send_slice` accepts any number of bytes from the front. -/
namespace Aether.Netstack

/-! ### Tuning -/

inductive Tier where
  | low
  | medium
  | high
  deriving DecidableEq

def Tier.netstackTcpBuf : Tier → Nat
  | .low => 128 * 1024
  | .medium => 256 * 1024
  | .high => 512 * 1024

def Tier.channelCapacity : Tier → Nat
  | .low => 128
  | .medium => 512
  | .high => 1024

def maxTcpPending (tier : Tier) : Nat := max (tier.netstackTcpBuf * 2) (64 * 1024)

def maxRecvChunks : Nat := 128

/-! ### Sockets -/

inductive TcpSocketState where
  | closed
  | listen
  | synSent
  | synReceived
  | established
  | finWait1
  | finWait2
  | closeWait
  | closing
  | lastAck
  | timeWait
  deriving DecidableEq

/-- The connection is still being opened. -/
def TcpSocketState.opening : TcpSocketState → Bool
  | .listen | .synSent | .synReceived => true
  | _ => false

/-- `close`: the transmit half is closed where it is open. -/
def TcpSocketState.close : TcpSocketState → TcpSocketState
  | .listen | .synSent => .closed
  | .synReceived | .established => .finWait1
  | .closeWait => .lastAck
  | state => state

/-- `may_send`. -/
def TcpSocketState.maySend : TcpSocketState → Bool
  | .established | .closeWait => true
  | _ => false

/-- What the connection is gone by. -/
def TcpSocketState.isOver : TcpSocketState → Bool
  | .closed | .timeWait => true
  | _ => false

/-- A contiguous part of the receive buffer, as `recv` hands it out. -/
abbrev Slice := {bytes : List UInt8 // bytes ≠ []}

structure TcpSocket where
  state : TcpSocketState
  localPort : Nat
  /-- Received and not read. -/
  rx : List Slice := []
  /-- Everything that was received. -/
  received : List UInt8 := []
  /-- Everything `send_slice` accepted. -/
  accepted : List UInt8 := []
  /-- `close` was called. -/
  closeAsked : Bool := false

structure SocketAddr where
  ip : List UInt8
  port : UInt16
  deriving DecidableEq

structure UdpSocket where
  localPort : Nat
  rx : List (SocketAddr × List UInt8) := []

inductive Socket where
  | tcp (k : TcpSocket)
  | udp (k : UdpSocket)

/-! ### Connections -/

inductive DataIn where
  | tcp (id : Nat) (data : List UInt8)
  | tcpClose (id : Nat)
  | udp (id : Nat) (dst : SocketAddr) (data : List UInt8)
  | udpClose (id : Nat)
  deriving DecidableEq

structure TcpState where
  handle : Nat
  /-- The chunks in the channel to the app. -/
  toApp : List (List UInt8) := []
  pending : List UInt8 := []
  established : Bool := false
  halfClosed : Bool := false
  /-- Everything that was put into the channel to the app. -/
  delivered : List UInt8 := []

structure UdpState where
  handle : Nat
  toApp : List (SocketAddr × List UInt8) := []

/-- The ends of a connection the app holds: `TcpConn` is both, `into_split` gives
them out one by one. -/
structure AppSide where
  sender : Bool := false
  receiver : Bool := false
  deriving DecidableEq

/-- What the app sent on a connection, byte by byte. -/
inductive Item where
  | byte (b : UInt8)
  | close
  deriving DecidableEq

/-- What happened to a connection. -/
inductive Event where
  /-- `close` was called with these bytes pending. -/
  | closeCalled (established appGone : Bool) (pending : List UInt8)
  /-- The connection left the table. -/
  | removed (established appGone : Bool) (received delivered : List UInt8)

structure State where
  tier : Tier
  sockets : Nat → Option Socket := fun _ => none
  tcpConns : Nat → Option TcpState := fun _ => none
  udpConns : Nat → Option UdpState := fun _ => none
  nextId : Nat := 1
  nextPort : Nat := 49152
  dataIn : List DataIn := []
  deferred : List DataIn := []
  tcpApp : Nat → AppSide := fun _ => {}
  udpApp : Nat → AppSide := fun _ => {}
  /-- What the app has put into `dataIn` for each TCP connection. -/
  sent : Nat → List Item := fun _ => []
  history : List Event := []
  /-- The connection was served after its receiver was dropped. -/
  servedSinceDrop : Nat → Bool := fun _ => false

def tcpSocket (s : State) (handle : Nat) : Option TcpSocket :=
  match s.sockets handle with
  | some (.tcp k) => some k
  | _ => none

/-! ### The app -/

/-- The messages of a chunk, or of a close, as items of its connection. -/
def DataIn.items (id : Nat) : DataIn → List Item
  | .tcp j data => if j = id then data.map .byte else []
  | .tcpClose j => if j = id then [.close] else []
  | _ => []

/-- `try_send`: a full channel refuses. `send` waits instead, so that for it this is
the step at which there is room. -/
def trySend (d : DataIn) (s : State) : State :=
  if s.dataIn.length < s.tier.channelCapacity then
    {s with dataIn := s.dataIn ++ [d], sent := fun id => s.sent id ++ d.items id}
  else s

/-- A message can only be sent with the sender the connection gave out. -/
def sendWith (sender : Bool) (d : DataIn) (s : State) : State := if sender then trySend d s else s

def setTcpApp (id : Nat) (a : AppSide) (s : State) : State :=
  {s with tcpApp := Function.update s.tcpApp id a}

def setUdpApp (id : Nat) (a : AppSide) (s : State) : State :=
  {s with udpApp := Function.update s.udpApp id a}

/-- The drop of a `TcpSender`, and the first half of that of a `TcpConn`. -/
def dropTcpSender (id : Nat) (s : State) : State :=
  if (s.tcpApp id).sender then
    trySend (.tcpClose id) (setTcpApp id {s.tcpApp id with sender := false} s)
  else s

def dropTcpReceiver (id : Nat) (s : State) : State :=
  if (s.tcpApp id).receiver then
    {setTcpApp id {s.tcpApp id with receiver := false} s with
      servedSinceDrop := Function.update s.servedSinceDrop id false}
  else s

def dropUdpSender (id : Nat) (s : State) : State :=
  if (s.udpApp id).sender then
    trySend (.udpClose id) (setUdpApp id {s.udpApp id with sender := false} s)
  else s

def dropUdpReceiver (id : Nat) (s : State) : State :=
  if (s.udpApp id).receiver then setUdpApp id {s.udpApp id with receiver := false} s else s

def dropTcpConn (id : Nat) (s : State) : State := dropTcpReceiver id (dropTcpSender id s)

def dropUdpConn (id : Nat) (s : State) : State := dropUdpReceiver id (dropUdpSender id s)

/-! ### Commands -/

def allocPort (port : Nat) : Nat := if port ≥ 65000 then 49152 else port + 1

def addTcp (handle localPort : Nat) (s : State) : State :=
  {s with
    sockets := Function.update s.sockets handle (some (.tcp {state := .synSent, localPort}))
    tcpConns := Function.update s.tcpConns s.nextId (some {handle})
    nextId := s.nextId + 1}

def addUdp (handle localPort : Nat) (s : State) : State :=
  setUdpApp s.nextId ⟨true, true⟩ {s with
    sockets := Function.update s.sockets handle (some (.udp {localPort}))
    udpConns := Function.update s.udpConns s.nextId (some {handle})
    nextId := s.nextId + 1}

/-- `OpenTcp`. The socket set gives out a handle that is free; a socket that cannot
connect is dropped again, its port stays used. -/
def openTcp (handle : Nat) (connects : Bool) (s : State) : State :=
  if (s.sockets handle).isSome then s
  else
    let ported := {s with nextPort := allocPort s.nextPort}
    if !connects then ported else addTcp handle s.nextPort ported

/-- `OpenUdp`. When the one who asked is gone, the connection is dropped on the spot. -/
def openUdp (handle : Nat) (binds waiting : Bool) (s : State) : State :=
  if (s.sockets handle).isSome then s
  else
    let ported := {s with nextPort := allocPort s.nextPort}
    if !binds then ported
    else if waiting then addUdp handle s.nextPort ported
    else dropUdpConn s.nextId (addUdp handle s.nextPort ported)

/-! ### Messages -/

def setTcp (id : Nat) (st : TcpState) (s : State) : State :=
  {s with tcpConns := Function.update s.tcpConns id (some st)}

/-- `try_handle_data`: the message, or what is left of it, comes back when it must be
deferred. -/
def tryHandleData (d : DataIn) (s : State) : State × Option DataIn :=
  match d with
  | .tcp id data =>
    match s.tcpConns id with
    | none => (s, none)
    | some st =>
      let max := maxTcpPending s.tier
      if st.pending.length ≥ max then (s, some (.tcp id data))
      else
        let space := max - st.pending.length
        if data.length ≤ space then (setTcp id {st with pending := st.pending ++ data} s, none)
        else
          (setTcp id {st with pending := st.pending ++ data.take space} s,
            some (.tcp id (data.drop space)))
  | .tcpClose id =>
    match s.tcpConns id with
    | none => (s, none)
    | some st => (setTcp id {st with halfClosed := true} s, none)
  -- Whether the socket takes the datagram is up to it, and its result is not looked at.
  | .udp .. => (s, none)
  | .udpClose id =>
    match s.udpConns id with
    | none => (s, none)
    | some st => ({s with
        udpConns := Function.update s.udpConns id none
        sockets := Function.update s.sockets st.handle none}, none)

/-- One turn of the deferred-retry loop; what comes back is pushed to the front. -/
def retryDeferred (s : State) : State :=
  match s.deferred with
  | [] => s
  | d :: rest =>
    let r := tryHandleData d {s with deferred := rest}
    {r.1 with deferred := r.2.toList ++ r.1.deferred}

/-- One message is received, which the guard allows only when none is deferred; what
comes back is pushed to the back. -/
def receive (s : State) : State :=
  if !s.deferred.isEmpty then s
  else
    match s.dataIn with
    | [] => s
    | d :: rest =>
      let r := tryHandleData d {s with dataIn := rest}
      {r.1 with deferred := r.1.deferred ++ r.2.toList}

/-! ### Serving a TCP connection -/

/-- The channel to the app is closed: the receiver was given out and dropped. -/
def appGone (s : State) (id : Nat) (st : TcpState) : Bool := st.established && !(s.tcpApp id).receiver

/-- A connection that has just become established is given to the one who asked for
it, and dropped on the spot when nobody waits any more. -/
def handOver (id : Nat) (waiting : Bool) (s : State) : State :=
  match s.tcpConns id with
  | none => s
  | some st =>
    match tcpSocket s st.handle with
    | none => s
    | some k =>
      if !st.established && k.state == .established then
        let given := setTcpApp id ⟨true, true⟩ (setTcp id {st with established := true} s)
        if waiting then given else dropTcpConn id given
      else s

/-- A connection and its socket while they are served. -/
structure Pass where
  st : TcpState
  socket : TcpSocket
  events : List Event := []

def Pass.close (gone : Bool) (p : Pass) : Pass :=
  {p with
    socket := {p.socket with state := p.socket.state.close, closeAsked := true}
    events := p.events ++ [.closeCalled p.st.established gone p.st.pending]}

/-- `send_slice`: a socket that may send accepts up to `n` bytes from the front. -/
def Pass.upload (n : Nat) (p : Pass) : Pass :=
  if p.socket.state.maySend then
    {p with
      st := {p.st with pending := p.st.pending.drop n}
      socket := {p.socket with accepted := p.socket.accepted ++ p.st.pending.take n}}
  else p

def Pass.closeHalf (gone : Bool) (p : Pass) : Pass :=
  if p.st.halfClosed && p.st.pending.isEmpty then p.close gone else p

/-- The delivery loop with this many chunks of its budget left; the second component
is its `app_gone`. -/
def Pass.deliver (capacity : Nat) (gone : Bool) : Nat → Pass → Pass × Bool
  | 0, p => (p, false)
  | budget + 1, p =>
    if gone then (p, true)
    else if p.st.toApp.length ≥ capacity then (p, false)
    else
      match p.socket.rx with
      | [] => (p, false)
      | chunk :: rest => deliver capacity gone budget {p with
          st := {p.st with
            toApp := p.st.toApp ++ [chunk.val], delivered := p.st.delivered ++ chunk.val}
          socket := {p.socket with rx := rest}}

def Pass.clearPending (p : Pass) : Pass := {p with st := {p.st with pending := []}}

/-- The end of the pass, in the state that the socket is then in; the second component
says that the connection is removed. -/
def Pass.finishIn (state : TcpSocketState) (gone : Bool) (p : Pass) : Pass × Bool :=
  let closed := if state == .closeWait then p.close gone else p
  let cleared := if state == .timeWait then closed.clearPending else closed
  if state.isOver && cleared.st.established then
    ({cleared with events := cleared.events ++
      [.removed cleared.st.established gone cleared.socket.received cleared.st.delivered]}, true)
  else (cleared, false)

/-- What follows the delivery. -/
def Pass.finish (gone : Bool) (p : Pass) : Pass × Bool :=
  let closed := if gone then p.close gone else p
  closed.finishIn closed.socket.state gone

/-- The connection from sending on, when its socket accepts `n` bytes. -/
def Pass.run (tier : Tier) (gone : Bool) (n : Nat) (p : Pass) : Pass × Bool :=
  let delivered := ((p.upload n).closeHalf gone).deliver tier.channelCapacity gone maxRecvChunks
  delivered.1.finish delivered.2

def removeTcp (id handle : Nat) (s : State) : State :=
  {s with
    tcpConns := Function.update s.tcpConns id none
    sockets := Function.update s.sockets handle none}

/-- A connection that is handed over or still opening. -/
def serve (id n : Nat) (s : State) : State :=
  match s.tcpConns id with
  | none => s
  | some st =>
    match tcpSocket s st.handle with
    | none => s
    | some k =>
      -- The connection was refused.
      if !st.established && k.state.isOver then removeTcp id st.handle s
      else
        let r := Pass.run s.tier (appGone s id st) n {st, socket := k}
        let s := {s with history := s.history ++ r.1.events}
        if r.2 then removeTcp id st.handle s
        else {setTcp id r.1.st s with
          sockets := Function.update s.sockets st.handle (some (.tcp r.1.socket))}

def markServed (id : Nat) (s : State) : State :=
  {s with servedSinceDrop := Function.update s.servedSinceDrop id true}

/-- One turn of the loop of `service_tcp`. Its result only sets how long the task
sleeps. -/
def serviceTcp (id n : Nat) (waiting : Bool) (s : State) : State :=
  serve id n (markServed id (handOver id waiting s))

/-- The delivery loop of `service_udp`; a dropped receiver only ends it. -/
def deliverUdp (capacity : Nat) (gone : Bool) : Nat → UdpState → UdpSocket → UdpState × UdpSocket
  | 0, st, k => (st, k)
  | budget + 1, st, k =>
    if gone then (st, k)
    else if st.toApp.length ≥ capacity then (st, k)
    else
      match k.rx with
      | [] => (st, k)
      | d :: rest => deliverUdp capacity gone budget {st with toApp := st.toApp ++ [d]} {k with rx := rest}

def serviceUdp (id : Nat) (s : State) : State :=
  match s.udpConns id with
  | none => s
  | some st =>
    match s.sockets st.handle with
    | some (.udp k) =>
      let r := deliverUdp s.tier.channelCapacity (!(s.udpApp id).receiver) maxRecvChunks st k
      {s with
        udpConns := Function.update s.udpConns id (some r.1)
        sockets := Function.update s.sockets st.handle (some (.udp r.2))}
    | _ => s

/-! ### Polls -/

/-- A poll moves a TCP socket to a state and adds to what it has received. A socket
that has left the handshake does not return to it. -/
def pollTcp (handle : Nat) (state : TcpSocketState) (more : List Slice) (s : State) : State :=
  match tcpSocket s handle with
  | none => s
  | some k =>
    if state.opening && !k.state.opening then s
    else {s with sockets := Function.update s.sockets handle (some (.tcp {k with
      state := state
      rx := k.rx ++ more
      received := k.received ++ (more.map Subtype.val).flatten}))}

def pollUdp (handle : Nat) (more : List (SocketAddr × List UInt8)) (s : State) : State :=
  match s.sockets handle with
  | some (.udp k) =>
    {s with sockets := Function.update s.sockets handle (some (.udp {k with rx := k.rx ++ more}))}
  | _ => s

/-! ### The machine -/

inductive Action where
  | openTcp (handle : Nat) (connects : Bool)
  | openUdp (handle : Nat) (binds waiting : Bool)
  | pollTcp (handle : Nat) (state : TcpSocketState) (more : List Slice)
  | pollUdp (handle : Nat) (more : List (SocketAddr × List UInt8))
  | serviceTcp (id n : Nat) (waiting : Bool)
  | serviceUdp (id : Nat)
  | retryDeferred
  | receive
  | send (id : Nat) (data : List UInt8)
  | close (id : Nat)
  | sendTo (id : Nat) (dst : SocketAddr) (data : List UInt8)
  | closeUdp (id : Nat)
  | recv (id : Nat)
  | recvUdp (id : Nat)
  | dropTcpSender (id : Nat)
  | dropTcpReceiver (id : Nat)
  | dropUdpSender (id : Nat)
  | dropUdpReceiver (id : Nat)

/-- The app takes a chunk out of its channel. -/
def recv (id : Nat) (s : State) : State :=
  match s.tcpConns id with
  | some st => if (s.tcpApp id).receiver then setTcp id {st with toApp := st.toApp.tail} s else s
  | none => s

def recvUdp (id : Nat) (s : State) : State :=
  match s.udpConns id with
  | some st =>
    if (s.udpApp id).receiver then
      {s with udpConns := Function.update s.udpConns id (some {st with toApp := st.toApp.tail})}
    else s
  | none => s

/-- The steps of the task, of the app and of the network. -/
def next (a : Action) (s : State) : State :=
  match a with
  | .openTcp handle connects => openTcp handle connects s
  | .openUdp handle binds waiting => openUdp handle binds waiting s
  | .pollTcp handle state more => pollTcp handle state more s
  | .pollUdp handle more => pollUdp handle more s
  | .serviceTcp id n waiting => serviceTcp id n waiting s
  | .serviceUdp id => serviceUdp id s
  | .retryDeferred => retryDeferred s
  | .receive => receive s
  | .send id data => sendWith (s.tcpApp id).sender (.tcp id data) s
  | .close id => sendWith (s.tcpApp id).sender (.tcpClose id) s
  | .sendTo id dst data => sendWith (s.udpApp id).sender (.udp id dst data) s
  | .closeUdp id => sendWith (s.udpApp id).sender (.udpClose id) s
  | .recv id => recv id s
  | .recvUdp id => recvUdp id s
  | .dropTcpSender id => dropTcpSender id s
  | .dropTcpReceiver id => dropTcpReceiver id s
  | .dropUdpSender id => dropUdpSender id s
  | .dropUdpReceiver id => dropUdpReceiver id s

def initial (tier : Tier) : State := {tier}

end Aether.Netstack
