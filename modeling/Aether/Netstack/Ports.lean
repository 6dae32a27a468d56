import Aether.Machine.History
import Aether.Netstack.Connections

/-! The local ports of the connections.

`alloc_port` counts from 49152 to 65000 and starts over, whatever ports are still taken: a
turn of the counter is 15849 allocations. `ports_next` says what a step can do to the ports,
`localPort_born` where a port comes from, and `uniquePorts_iff_goneAfterTurns` which runs keep
the ports of the connections in a table distinct: those in which a connection is gone by the
time that another of its kind is opened a whole number of turns after it. -/
namespace Aether.Netstack
open Machine

def Socket.localPort : Socket → Nat
  | .tcp k => k.localPort
  | .udp k => k.localPort

/-- The local port of a connection's socket. -/
def localPort (s : State) (x : Key) : Option Nat := ((slot s x).bind s.sockets).map Socket.localPort

/-- No two connections of a table have the same local port. -/
def UniquePorts (s : State) : Prop :=
  ∀ kind i j port, localPort s ⟨kind, i⟩ = some port → localPort s ⟨kind, j⟩ = some port → i = j

/-- The socket that a command adds, and its handle. -/
def Action.opens : Action → Option (Kind × Nat)
  | .openTcp h true => some (.tcp, h)
  | .openUdp h true _ => some (.udp, h)
  | _ => none

/-- The step calls `alloc_port`. -/
def allocates (a : Action) (s : State) : Bool :=
  match a with
  | .openTcp h _ => (s.sockets h).isNone
  | .openUdp h _ _ => (s.sockets h).isNone
  | _ => false

/-- How many times a run calls `alloc_port`. -/
def allocations (s : State) : List Action → Nat
  | [] => 0
  | a :: rest => (allocates a s).toNat + allocations (next a s) rest

/-! ### What keeps its port -/

/-- A socket that is there was there before, with the same port, and the counter stands still. -/
structure PortsKept (s t : State) : Prop where
  sockets : ∀ h x, t.sockets h = some x → ∃ y, s.sockets h = some y ∧ y.localPort = x.localPort
  nextPort : t.nextPort = s.nextPort

section
variable {s t u : State}

theorem PortsKept.of_eq (h : t.sockets = s.sockets) (hn : t.nextPort = s.nextPort) : PortsKept s t := by
  refine ⟨?_, hn⟩
  intro n x hx
  rw [h] at hx
  exact ⟨x, hx, rfl⟩

theorem PortsKept.trans (h : PortsKept s t) (h' : PortsKept t u) : PortsKept s u := by
  refine ⟨?_, h'.nextPort.trans h.nextPort⟩
  intro n x hx
  obtain ⟨y, hy, hyx⟩ := h'.sockets n x hx
  obtain ⟨z, hz, hzy⟩ := h.sockets n y hy
  exact ⟨z, hz, hzy.trans hyx⟩

/-- A socket is changed, but for its port. -/
theorem PortsKept.update {n : Nat} {x y : Socket} (hx : s.sockets n = some x)
    (h : t.sockets = Function.update s.sockets n (some y)) (hport : x.localPort = y.localPort)
    (hn : t.nextPort = s.nextPort) : PortsKept s t := by
  refine ⟨?_, hn⟩
  intro m z hz
  rw [h] at hz
  by_cases hm : m = n
  · subst hm
    rw [Function.update_self] at hz
    obtain rfl := Option.some.inj hz
    exact ⟨x, hx, hport⟩
  · rw [Function.update_of_ne hm] at hz
    exact ⟨z, hz, rfl⟩

/-- A socket is dropped. -/
theorem PortsKept.remove {n : Nat} (h : t.sockets = Function.update s.sockets n none)
    (hn : t.nextPort = s.nextPort) : PortsKept s t := by
  refine ⟨?_, hn⟩
  intro m z hz
  rw [h] at hz
  by_cases hm : m = n
  · subst hm
    rw [Function.update_self] at hz
    cases hz
  · rw [Function.update_of_ne hm] at hz
    exact ⟨z, hz, rfl⟩

end

theorem Pass.upload_localPort (n : Nat) (p : Pass) : (p.upload n).socket.localPort = p.socket.localPort := by
  rw [(upload_kept n p).2.1]

theorem Pass.closeHalf_localPort (gone : Bool) (p : Pass) :
    (p.closeHalf gone).socket.localPort = p.socket.localPort := by
  rw [closeHalf]
  split <;> rfl

theorem Pass.deliver_localPort (capacity : Nat) (gone : Bool) (budget : Nat) (p : Pass) :
    (p.deliver capacity gone budget).1.socket.localPort = p.socket.localPort := by
  induction budget generalizing p with
  | zero => rfl
  | succ budget ih =>
    rw [deliver]
    split
    · rfl
    · split
      · rfl
      · split
        · rfl
        · exact ih _

theorem Pass.finishIn_localPort (state : TcpSocketState) (gone : Bool) (p : Pass) :
    (p.finishIn state gone).1.socket.localPort = p.socket.localPort := by
  cases hover : state.isOver with
  | false =>
    by_cases hw : state = .closeWait
    · rw [hw, finishIn_closeWait]
      rfl
    · rw [finishIn_open hover hw]
  | true =>
    cases state with
    | closed => cases hest : p.st.established <;> simp [finishIn, TcpSocketState.isOver, hest]
    | timeWait => cases hest : p.st.established <;> simp [finishIn, TcpSocketState.isOver, clearPending, hest]
    | _ => cases hover

theorem Pass.run_localPort (tier : Tier) (gone : Bool) (n : Nat) (p : Pass) :
    (p.run tier gone n).1.socket.localPort = p.socket.localPort := by
  have hdelivered : (p.delivered tier gone n).socket.localPort = p.socket.localPort := by
    rw [delivered, deliver_localPort, closeHalf_localPort, upload_localPort]
  rw [run_eq, finish, finishIn_localPort, ← hdelivered]
  split <;> rfl

/-! ### The steps -/

theorem portsKept_tryHandleData (d : DataIn) (s : State) : PortsKept s (tryHandleData d s).1 := by
  cases d with
  | tcp id data =>
    rw [tryHandleData]
    split
    · exact .of_eq rfl rfl
    · dsimp only
      split
      · exact .of_eq rfl rfl
      · split <;> exact .of_eq rfl rfl
  | tcpClose id =>
    rw [tryHandleData]
    split <;> exact .of_eq rfl rfl
  | udp id dst data => exact .of_eq rfl rfl
  | udpClose id =>
    rw [tryHandleData]
    split
    · exact .of_eq rfl rfl
    · exact .remove rfl rfl

theorem portsKept_retryDeferred (s : State) : PortsKept s (retryDeferred s) := by
  rw [retryDeferred]
  split
  · exact .of_eq rfl rfl
  · rename_i d rest hd
    have hkept := portsKept_tryHandleData d {s with deferred := rest}
    exact ⟨hkept.sockets, hkept.nextPort⟩

theorem portsKept_receive (s : State) : PortsKept s (receive s) := by
  rw [receive]
  split
  · exact .of_eq rfl rfl
  · split
    · exact .of_eq rfl rfl
    · rename_i d rest hd
      have hkept := portsKept_tryHandleData d {s with dataIn := rest}
      exact ⟨hkept.sockets, hkept.nextPort⟩

theorem portsKept_serve (id n : Nat) (s : State) : PortsKept s (serve id n s) := by
  rw [serve]
  split
  · exact .of_eq rfl rfl
  · rename_i st hst
    split
    · exact .of_eq rfl rfl
    · rename_i k hk
      split
      · exact .remove rfl rfl
      · dsimp only
        split
        · exact .remove rfl rfl
        · exact .update (tcpSocket_eq_some.mp hk) rfl
            (Pass.run_localPort s.tier (appGone s id st) n {st, socket := k}).symm rfl

theorem portsKept_serviceTcp (id n : Nat) (waiting : Bool) (s : State) :
    PortsKept s (serviceTcp id n waiting s) := by
  obtain ⟨hsockets, -, -, hport⟩ := handOver_kept id waiting s
  have hmarked : PortsKept s (markServed id (handOver id waiting s)) := .of_eq hsockets hport
  exact hmarked.trans (portsKept_serve id n _)

theorem portsKept_serviceUdp (id : Nat) (s : State) : PortsKept s (serviceUdp id s) := by
  rw [serviceUdp]
  split
  · exact .of_eq rfl rfl
  · split
    · rename_i k hk
      exact .update hk rfl (deliverUdp_keeps ..).2.symm rfl
    · exact .of_eq rfl rfl

theorem portsKept_pollTcp (n : Nat) (state : TcpSocketState) (more : List Slice) (s : State) :
    PortsKept s (pollTcp n state more s) := by
  rw [pollTcp]
  split
  · exact .of_eq rfl rfl
  · rename_i k hk
    split
    · exact .of_eq rfl rfl
    · exact .update (tcpSocket_eq_some.mp hk) rfl rfl rfl

theorem portsKept_pollUdp (n : Nat) (more : List (SocketAddr × List UInt8)) (s : State) :
    PortsKept s (pollUdp n more s) := by
  rw [pollUdp]
  split
  · rename_i k hk
    exact .update hk rfl rfl rfl
  · exact .of_eq rfl rfl

theorem portsKept_recv (id : Nat) (s : State) : PortsKept s (recv id s) := by
  rw [recv]
  split
  · split <;> exact .of_eq rfl rfl
  · exact .of_eq rfl rfl

theorem portsKept_recvUdp (id : Nat) (s : State) : PortsKept s (recvUdp id s) := by
  rw [recvUdp]
  split
  · split <;> exact .of_eq rfl rfl
  · exact .of_eq rfl rfl

/-- Without a port that is given out, all is kept. -/
theorem portsKept_next {a : Action} {s : State} (h : allocates a s = false) : PortsKept s (next a s) := by
  cases a with
  | openTcp n connects =>
    have hused : (s.sockets n).isSome = true := by simpa [allocates] using h
    show PortsKept s (openTcp n connects s)
    rw [openTcp, if_pos hused]
    exact .of_eq rfl rfl
  | openUdp n binds waiting =>
    have hused : (s.sockets n).isSome = true := by simpa [allocates] using h
    show PortsKept s (openUdp n binds waiting s)
    rw [openUdp, if_pos hused]
    exact .of_eq rfl rfl
  | pollTcp n state more => exact portsKept_pollTcp n state more s
  | pollUdp n more => exact portsKept_pollUdp n more s
  | serviceTcp id n waiting => exact portsKept_serviceTcp id n waiting s
  | serviceUdp id => exact portsKept_serviceUdp id s
  | retryDeferred => exact portsKept_retryDeferred s
  | receive => exact portsKept_receive s
  | recv id => exact portsKept_recv id s
  | recvUdp id => exact portsKept_recvUdp id s
  | _ => exact .of_eq (ofApp_kept rfl s).sockets (ofApp_kept rfl s).nextPort

/-- An open that gets no socket only moves the counter. -/
theorem next_refused {a : Action} {s : State} (h : allocates a s = true) (hopens : a.opens = none) :
    next a s = {s with nextPort := allocPort s.nextPort} := by
  cases a with
  | openTcp n connects =>
    have hfree : ¬ (s.sockets n).isSome = true := by simpa [allocates] using h
    cases connects with
    | false =>
      show openTcp n false s = _
      rw [openTcp, if_neg hfree]
      rfl
    | true => cases hopens
  | openUdp n binds waiting =>
    have hfree : ¬ (s.sockets n).isSome = true := by simpa [allocates] using h
    cases binds with
    | false =>
      show openUdp n false waiting s = _
      rw [openUdp, if_neg hfree]
      rfl
    | true => cases hopens
  | _ => cases h

/-- What an open adds. -/
theorem added_next {a : Action} {s : State} {kind : Kind} {n : Nat} (ha : a.opens = some (kind, n))
    (hfree : s.sockets n = none) : slot (next a s) = Function.update (slot s) ⟨kind, s.nextId⟩ (some n) ∧
      (next a s).nextPort = allocPort s.nextPort ∧
      ∃ x, x.localPort = s.nextPort ∧ (next a s).sockets = Function.update s.sockets n (some x) := by
  have hnot : ¬ (s.sockets n).isSome = true := by rw [hfree]; exact Bool.false_ne_true
  cases a with
  | openTcp m connects =>
    cases connects with
    | false => cases ha
    | true =>
      cases ha
      have hnext : next (.openTcp n true) s = addTcp n s.nextPort {s with nextPort := allocPort s.nextPort} := by
        show openTcp n true s = _
        rw [openTcp, if_neg hnot]
        rfl
      rw [hnext]
      exact ⟨slot_addTcp .., rfl, _, rfl, rfl⟩
  | openUdp m binds waiting =>
    cases binds with
    | false => cases ha
    | true =>
      cases ha
      have hadd : slot (addUdp n s.nextPort {s with nextPort := allocPort s.nextPort}) =
        Function.update (slot s) ⟨.udp, s.nextId⟩ (some n) := slot_addUdp ..
      show slot (openUdp n true waiting s) = _ ∧ (openUdp n true waiting s).nextPort = _ ∧
        ∃ x, _ ∧ (openUdp n true waiting s).sockets = _
      rw [openUdp, if_neg hnot]
      cases waiting with
      | true => exact ⟨hadd, rfl, _, rfl, rfl⟩
      | false =>
        have hdrop := dropUdpConn_kept s.nextId (addUdp n s.nextPort {s with nextPort := allocPort s.nextPort})
        exact ⟨hdrop.slot_eq.trans hadd, hdrop.nextPort, .udp {localPort := s.nextPort}, rfl, hdrop.sockets⟩
  | _ => cases ha

theorem free_of_allocates {a : Action} {s : State} {kind : Kind} {n : Nat} (h : allocates a s = true)
    (ha : a.opens = some (kind, n)) : s.sockets n = none := by
  cases a with
  | openTcp m connects =>
    cases connects <;> cases ha
    simpa [allocates] using h
  | openUdp m binds waiting =>
    cases binds <;> cases ha
    simpa [allocates] using h
  | _ => cases ha

/-- The counter moves with the calls and with nothing else. -/
theorem nextPort_next (a : Action) (s : State) :
    (next a s).nextPort = allocPort^[(allocates a s).toNat] s.nextPort := by
  cases halloc : allocates a s with
  | false => exact (portsKept_next halloc).nextPort
  | true =>
    cases hopens : a.opens with
    | none =>
      rw [next_refused halloc hopens]
      rfl
    | some opened =>
      obtain ⟨kind, n⟩ := opened
      exact (added_next hopens (free_of_allocates halloc hopens)).2.1

theorem nextPort_run (s : State) (as : List Action) :
    (run next s as).nextPort = allocPort^[allocations s as] s.nextPort := by
  induction as generalizing s with
  | nil => rfl
  | cons a rest ih =>
    rw [run, ih, nextPort_next, allocations, Nat.add_comm, Function.iterate_add_apply]

/-! ### The ports of the connections -/

theorem localPort_eq_some {s : State} {x : Key} {port : Nat} :
    localPort s x = some port ↔ ∃ h k, slot s x = some h ∧ s.sockets h = some k ∧ k.localPort = port := by
  simp [localPort, Option.bind_eq_some_iff]

/-- Where the sockets keep their ports, so do the connections. -/
theorem PortsKept.localPort {s t : State} (h : PortsKept s t) (l : Layout s t)
    {x : Key} {port : Nat} (hx : localPort t x = some port) : localPort s x = some port := by
  obtain ⟨n, k, hslot, hk, hport⟩ := localPort_eq_some.mp hx
  obtain ⟨k', hk', hkk⟩ := h.sockets n k hk
  have hold : slot s x = some n := by
    cases l with
    | same slots sockets ids => rwa [slots] at hslot
    | add kind m free slots sockets ids =>
      rw [slots] at hslot
      by_cases hxm : x = ⟨kind, s.nextId⟩
      · rw [hxm, Function.update_self] at hslot
        obtain rfl := Option.some.inj hslot
        rw [used, hk'] at free
        cases free
      · rwa [Function.update_of_ne hxm] at hslot
    | remove y m owned slots sockets ids =>
      rw [slots] at hslot
      by_cases hxy : x = y
      · rw [hxy, Function.update_self] at hslot
        cases hslot
      · rwa [Function.update_of_ne hxy] at hslot
  exact localPort_eq_some.mpr ⟨n, k', hold, hk', hkk.trans hport⟩

/-- The connection that an open adds has the port of the counter, the others keep theirs. -/
theorem localPort_added {a : Action} {s : State} (ht : Tables s) {kind : Kind} {n : Nat}
    (ha : a.opens = some (kind, n)) (hfree : s.sockets n = none) :
    localPort (next a s) = Function.update (localPort s) ⟨kind, s.nextId⟩ (some s.nextPort) := by
  obtain ⟨hslot, -, k, hk, hsockets⟩ := added_next ha hfree
  funext x
  by_cases hx : x = ⟨kind, s.nextId⟩
  · subst hx
    rw [localPort, hslot, hsockets, Function.update_self, Function.update_self, Option.bind_some, Function.update_self,
      Option.map_some, hk]
  · rw [localPort, hslot, hsockets, Function.update_of_ne hx, Function.update_of_ne hx, localPort]
    cases hold : slot s x with
    | none => rfl
    | some m =>
      have hm : m ≠ n := by
        rintro rfl
        have hused := ht.owned.inUse hold
        rw [used, hfree] at hused
        cases hused
      rw [Option.bind_some, Function.update_of_ne hm, Option.bind_some]

theorem localPort_nextId {s : State} (ht : Tables s) (kind : Kind) : localPort s ⟨kind, s.nextId⟩ = none := by
  cases hslot : slot s ⟨kind, s.nextId⟩ with
  | none => rw [localPort, hslot]; rfl
  | some h => exact absurd (ht.fresh hslot) (Nat.lt_irrefl _)

/-- A step gets a socket in this state: it opens a connection. -/
def Opens (a : Action) (s : State) (kind : Kind) : Prop := ∃ n, a.opens = some (kind, n) ∧ s.sockets n = none

theorem Opens.kind_eq {a : Action} {s : State} {kind kind' : Kind} (h : Opens a s kind) (h' : Opens a s kind') :
    kind = kind' := by
  obtain ⟨n, ha, -⟩ := h
  obtain ⟨n', ha', -⟩ := h'
  exact congrArg Prod.fst (Option.some.inj (ha.symm.trans ha'))

/-- An open takes a port that no connection of its table has. -/
def TakesFreePort (a : Action) (s : State) : Prop :=
  ∀ kind, Opens a s kind → ∀ id, localPort s ⟨kind, id⟩ ≠ some s.nextPort

/-- What a step can do to the ports: it opens a connection, which has the port of the counter,
or no connection gets a port. -/
theorem ports_next (a : Action) {s : State} (ht : Tables s) :
    (∃ kind, Opens a s kind ∧
      localPort (next a s) = Function.update (localPort s) ⟨kind, s.nextId⟩ (some s.nextPort)) ∨
    ((∀ kind, ¬ Opens a s kind) ∧
      ∀ x port, localPort (next a s) x = some port → localPort s x = some port) := by
  by_cases hopen : ∃ kind, Opens a s kind
  · obtain ⟨kind, n, ha, hfree⟩ := hopen
    exact .inl ⟨kind, ⟨n, ha, hfree⟩, localPort_added ht ha hfree⟩
  · refine .inr ⟨not_exists.mp hopen, ?_⟩
    intro x port hx
    cases halloc : allocates a s with
    | false => exact (portsKept_next halloc).localPort (layout_next a s) hx
    | true =>
      cases hopens : a.opens with
      | none =>
        rw [next_refused halloc hopens] at hx
        exact hx
      | some opened =>
        obtain ⟨kind, n⟩ := opened
        exact absurd ⟨kind, n, hopens, free_of_allocates halloc hopens⟩ hopen

/-- A step keeps the ports distinct exactly if it takes a free one. -/
theorem uniquePorts_next (a : Action) (s : State) (ht : Tables s) (h : UniquePorts s) :
    UniquePorts (next a s) ↔ TakesFreePort a s := by
  rcases ports_next a ht with ⟨kind, hopens, hport⟩ | ⟨hnone, hkept⟩
  · have hnew : localPort s ⟨kind, s.nextId⟩ = none := localPort_nextId ht kind
    constructor
    · intro hnext kind' hopens' id hid
      obtain rfl : kind' = kind := hopens'.kind_eq hopens
      have hne : id ≠ s.nextId := by
        rintro rfl
        rw [hnew] at hid
        cases hid
      apply hne
      apply hnext kind' id s.nextId s.nextPort
      · rw [hport, Function.update_of_ne (by simpa using hne), hid]
      · rw [hport, Function.update_self]
    · intro hfresh kind' i j port hi hj
      rw [hport] at hi hj
      by_cases hik : (⟨kind', i⟩ : Key) = ⟨kind, s.nextId⟩
      · by_cases hjk : (⟨kind', j⟩ : Key) = ⟨kind, s.nextId⟩
        · exact congrArg Key.id (hik.trans hjk.symm)
        · rw [hik, Function.update_self] at hi
          rw [Function.update_of_ne hjk, ← hi] at hj
          obtain rfl : kind' = kind := congrArg Key.kind hik
          exact absurd hj (hfresh _ hopens j)
      · rw [Function.update_of_ne hik] at hi
        by_cases hjk : (⟨kind', j⟩ : Key) = ⟨kind, s.nextId⟩
        · rw [hjk, Function.update_self] at hj
          rw [← hj] at hi
          obtain rfl : kind' = kind := congrArg Key.kind hjk
          exact absurd hi (hfresh _ hopens i)
        · rw [Function.update_of_ne hjk] at hj
          exact h kind' i j port hi hj
  · refine iff_of_true ?_ fun kind hopens => absurd hopens (hnone kind)
    intro kind i j port hi hj
    exact h kind i j port (hkept _ _ hi) (hkept _ _ hj)

theorem uniquePorts_initial (tier : Tier) : UniquePorts (initial tier) := by
  intro kind i j port hi
  cases kind <;> cases hi

/-! ### Where a port comes from -/

/-- A connection that was there keeps its port as long as it is there. -/
theorem localPort_run {s : State} (ht : Tables s) (as : List Action) {x : Key} (hx : x.id < s.nextId) {port : Nat}
    (h : localPort (run next s as) x = some port) : localPort s x = some port := by
  induction as generalizing s with
  | nil => exact h
  | cons a rest ih =>
    have hid : s.nextId ≤ (next a s).nextId := (layout_next a s).nextId_le
    have hnext : localPort (next a s) x = some port := ih (tables_next a s ht) (Nat.lt_of_lt_of_le hx hid) h
    rcases ports_next a ht with ⟨kind, -, hport⟩ | ⟨-, hkept⟩
    · have hne : x ≠ ⟨kind, s.nextId⟩ := by
        rintro rfl
        exact Nat.lt_irrefl _ hx
      rwa [hport, Function.update_of_ne hne] at hnext
    · exact hkept x port hnext

/-- A connection that was opened has the port that the counter stood at, as long as it is there. -/
theorem localPort_of_opened {s : State} (ht : Tables s) {a : Action} {kind : Kind} (ha : Opens a s kind)
    (rest : List Action) {n : Nat} (hslot : slot (run next s (a :: rest)) ⟨kind, s.nextId⟩ = some n) :
    localPort (run next s (a :: rest)) ⟨kind, s.nextId⟩ = some s.nextPort := by
  obtain ⟨m, hopens, hfree⟩ := ha
  have hnext : Tables (next a s) := tables_next a s ht
  have hadded : slot (next a s) ⟨kind, s.nextId⟩ = some m := by
    rw [(added_next hopens hfree).1, Function.update_self]
  have hused : used (run next s (a :: rest)) n = some kind :=
    (run_invariant tables_next ht (a :: rest)).owned.inUse hslot
  obtain ⟨k, hk, -⟩ := Option.map_eq_some_iff.mp hused
  have hport : localPort (run next s (a :: rest)) ⟨kind, s.nextId⟩ = some k.localPort :=
    localPort_eq_some.mpr ⟨n, k, hslot, hk, rfl⟩
  have hfirst : localPort (next a s) ⟨kind, s.nextId⟩ = some k.localPort :=
    localPort_run hnext rest (hnext.fresh hadded) hport
  rw [localPort_added ht hopens hfree, Function.update_self] at hfirst
  rw [hport, hfirst]

/-- A connection was opened at some step, and has the port that the counter stood at. -/
theorem localPort_born (tier : Tier) (as : List Action) {kind : Kind} {id port : Nat}
    (h : localPort (run next (initial tier) as) ⟨kind, id⟩ = some port) :
    ∃ first a rest, as = first ++ a :: rest ∧ Opens a (run next (initial tier) first) kind ∧
      (run next (initial tier) first).nextId = id ∧ (run next (initial tier) first).nextPort = port := by
  induction as using List.reverseRecOn with
  | nil => cases kind <;> cases h
  | append_singleton as a ih =>
    have ht : Tables (run next (initial tier) as) := run_invariant tables_next (tables_initial tier) as
    rw [run_append] at h
    have hold (hp : localPort (run next (initial tier) as) ⟨kind, id⟩ = some port) :
        ∃ first b rest, as ++ [a] = first ++ b :: rest ∧ Opens b (run next (initial tier) first) kind ∧
          (run next (initial tier) first).nextId = id ∧ (run next (initial tier) first).nextPort = port := by
      obtain ⟨first, b, rest, rfl, hb⟩ := ih hp
      exact ⟨first, b, rest ++ [a], by simp, hb⟩
    rcases ports_next a ht with ⟨kind', hopens, hport⟩ | ⟨-, hkept⟩
    · by_cases hx : (⟨kind, id⟩ : Key) = ⟨kind', (run next (initial tier) as).nextId⟩
      · cases hx
        have hsame : localPort (next a (run next (initial tier) as)) _ = some port := h
        rw [hport, Function.update_self] at hsame
        exact ⟨as, a, [], rfl, hopens, rfl, Option.some.inj hsame⟩
      · have hsame : localPort (next a (run next (initial tier) as)) _ = some port := h
        rw [hport, Function.update_of_ne hx] at hsame
        exact hold hsame
    · exact hold (hkept _ _ h)

/-! ### A turn of the counter -/

/-- The counter after `n` calls. -/
theorem allocPort_iterate (n : Nat) : allocPort^[n] 49152 = 49152 + n % 15849 := by
  induction n with
  | zero => rfl
  | succ n ih =>
    have hlt : n % 15849 < 15849 := Nat.mod_lt _ (by omega)
    rw [Function.iterate_succ_apply', ih, allocPort]
    split <;> omega

/-- Two calls give the same port exactly a whole number of turns apart. -/
theorem allocPort_iterate_eq_iff (n k : Nat) :
    allocPort^[n + k] 49152 = allocPort^[n] 49152 ↔ 15849 ∣ k := by
  rw [allocPort_iterate, allocPort_iterate]
  omega

theorem allocations_append (s : State) (as bs : List Action) :
    allocations s (as ++ bs) = allocations s as + allocations (run next s as) bs := by
  induction as generalizing s with
  | nil => exact (Nat.zero_add _).symm
  | cons a rest ih => rw [List.cons_append, allocations, ih, allocations, run, Nat.add_assoc]

/-- The counter stands where it stood exactly a whole number of turns later. -/
theorem nextPort_eq_iff (tier : Tier) (as bs : List Action) :
    (run next (initial tier) (as ++ bs)).nextPort = (run next (initial tier) as).nextPort ↔
      15849 ∣ allocations (run next (initial tier) as) bs := by
  rw [nextPort_run, nextPort_run, allocations_append]
  exact allocPort_iterate_eq_iff ..

/-! ### Which runs keep the ports distinct -/

/-- A connection is opened by a step, and those of its kind that were opened a whole number
of turns before it have left their table. -/
def GoneAfterTurns (tier : Tier) (before : List Action) (a : Action) : Prop :=
  ∀ kind, Opens a (run next (initial tier) before) kind →
    ∀ first b rest, before = first ++ b :: rest → Opens b (run next (initial tier) first) kind →
      15849 ∣ allocations (run next (initial tier) first) (b :: rest) →
      slot (run next (initial tier) before) ⟨kind, (run next (initial tier) first).nextId⟩ = none

/-- A step takes a free port exactly if the connections opened whole turns before are gone. -/
theorem takesFreePort_iff (tier : Tier) (before : List Action) (a : Action) :
    TakesFreePort a (run next (initial tier) before) ↔ GoneAfterTurns tier before a := by
  constructor
  · intro h kind hopens first b rest heq hb hturns
    obtain rfl := heq
    have ht : Tables (run next (initial tier) first) := run_invariant tables_next (tables_initial tier) first
    have hport : (run next (initial tier) (first ++ b :: rest)).nextPort = (run next (initial tier) first).nextPort :=
      (nextPort_eq_iff ..).mpr hturns
    have hnot := h kind hopens (run next (initial tier) first).nextId
    rw [hport, run_append] at hnot
    rw [run_append]
    cases hslot : slot (run next (run next (initial tier) first) (b :: rest)) ⟨kind, _⟩ with
    | none => rfl
    | some n => exact absurd (localPort_of_opened ht hb rest hslot) hnot
  · intro h kind hopens id hid
    obtain ⟨first, b, rest, rfl, hb, rfl, hport⟩ := localPort_born tier before hid
    have hgone := h kind hopens first b rest rfl hb ((nextPort_eq_iff ..).mp hport.symm)
    rw [localPort, hgone] at hid
    cases hid

/-- **The ports of the TCP connections are distinct in every state of a run, and so are those
of the UDP connections, exactly when no connection is in its table when another of its kind is
opened a whole number of turns of the counter after it.** -/
theorem uniquePorts_iff_goneAfterTurns (tier : Tier) (as : List Action) :
    (∀ s ∈ visited next (initial tier) as, UniquePorts s) ↔ Always (GoneAfterTurns tier) as := by
  have halong := visited_iff_along tables_next uniquePorts_next (tables_initial tier) (uniquePorts_initial tier) as
  rw [halong, along_iff_always]
  exact always_congr (takesFreePort_iff tier)

/-! ### A turn of the counter -/

/-- A connection is opened and refused by its peer. -/
def refused (handle id : Nat) : List Action :=
  [.openTcp handle true, .pollTcp handle .closed [], .serviceTcp id 0 false]

/-- So many of them, one after another. -/
def refusals (handle id : Nat) : Nat → List Action
  | 0 => []
  | n + 1 => refused handle id ++ refusals handle (id + 1) n

/-- A refused connection leaves nothing but its mark on the counters. -/
theorem run_refused {s : State} (ht : Tables s) {handle : Nat} (h : s.sockets handle = none) :
    run next s (refused handle s.nextId) = {s with
      nextId := s.nextId + 1
      nextPort := allocPort s.nextPort
      servedSinceDrop := Function.update s.servedSinceDrop s.nextId true} := by
  have hid : s.tcpConns s.nextId = none := by
    cases hst : s.tcpConns s.nextId with
    | none => rfl
    | some st => exact absurd (ht.lt_nextId hst) (Nat.lt_irrefl _)
  have hsockets : Function.update s.sockets handle none = s.sockets := by
    rw [← h, Function.update_eq_self]
  have htcpConns : Function.update s.tcpConns s.nextId none = s.tcpConns := by
    rw [← hid, Function.update_eq_self]
  simp [refused, run, next, openTcp, h, addTcp, pollTcp, tcpSocket, serviceTcp, handOver, markServed, serve,
    TcpSocketState.opening, TcpSocketState.isOver, removeTcp, hsockets, htcpConns]

theorem run_refusals {handle : Nat} (n : Nat) {s : State} (ht : Tables s) (h : s.sockets handle = none) :
    ∃ served, run next s (refusals handle s.nextId n) = {s with
      nextId := s.nextId + n
      nextPort := allocPort^[n] s.nextPort
      servedSinceDrop := served} := by
  induction n generalizing s with
  | zero => exact ⟨s.servedSinceDrop, rfl⟩
  | succ n ih =>
    have hrun := run_refused ht h
    have hnext : Tables (run next s (refused handle s.nextId)) := run_invariant tables_next ht _
    rw [hrun] at hnext
    obtain ⟨served, hrest⟩ := ih hnext h
    refine ⟨served, ?_⟩
    rw [refusals, run_append, hrun, hrest, Function.iterate_succ_apply, Nat.add_assoc, Nat.add_comm 1]

/-- A connection stays while so many others are refused, and one more is opened. -/
def longLived (n : Nat) : List Action := .openTcp 0 true :: (refusals 1 2 n ++ [.openTcp 1 true])

theorem longLived_ports (n : Nat) :
    localPort (run next (initial .low) (longLived n)) ⟨.tcp, 1⟩ = some 49152 ∧
      localPort (run next (initial .low) (longLived n)) ⟨.tcp, 2 + n⟩ = some (allocPort^[n + 1] 49152) := by
  have hfirst : Tables (next (.openTcp 0 true) (initial .low)) := tables_next _ _ (tables_initial .low)
  have hfree : (next (.openTcp 0 true) (initial .low)).sockets 1 = none := rfl
  obtain ⟨served, hrun⟩ := run_refusals n hfirst hfree
  have hrefusals : run next (next (.openTcp 0 true) (initial .low)) (refusals 1 2 n) = _ := hrun
  rw [longLived, run, run_append, hrefusals, Function.iterate_succ_apply]
  have hne : (⟨.tcp, 1⟩ : Key) ≠ ⟨.tcp, 2 + n⟩ := by
    intro h
    have hid : 1 = 2 + n := congrArg Key.id h
    omega
  have htables : Tables (run next (next (.openTcp 0 true) (initial .low)) (refusals 1 2 n)) :=
    run_invariant tables_next hfirst _
  rw [hrefusals] at htables
  have hadded := localPort_added (a := .openTcp 1 true) htables rfl hfree
  rw [run, run, hadded]
  exact ⟨Function.update_of_ne hne .., Function.update_self ..⟩

/-- The first connection and the one after a turn share port 49152. -/
theorem port_shared : ¬ ∀ s ∈ visited next (initial .low) (longLived 15848), UniquePorts s := by
  intro h
  obtain ⟨hfirst, hlast⟩ := longLived_ports 15848
  rw [allocPort_iterate, Nat.mod_self] at hlast
  have hsame := h _ (run_visited next _ _) _ _ _ _ hfirst hlast
  exact absurd hsame (by decide)

end Aether.Netstack
