import Aether.Netstack.Connections

/-! When a connection that its app has dropped is left behind.

A TCP connection is noticed by the pass that finds the app's channel closed,
whatever became of its close notice. A UDP connection is only removed by its close
notice, and the notice is sent without waiting: a full channel refuses it, and no
pass of `service_udp` makes up for it. `reaped_of_heard` says that nothing is left
behind in a run whose UDP close notices all find room. -/
namespace Aether.Netstack
open Machine

/-- The messages of a UDP connection. -/
def DataIn.ofUdp (id : Nat) : DataIn → Bool
  | .udp j .. | .udpClose j => j == id
  | _ => false

/-- What the app has dropped is gone, or asked to go. -/
structure Reaped (s : State) : Prop where
  /-- None of its messages is left to be processed. -/
  udp : ∀ id, s.udpApp id = ⟨false, false⟩ → (∀ d ∈ s.deferred ++ s.dataIn, d.ofUdp id = false) →
    s.udpConns id = none
  /-- A UDP socket that is there belongs to a connection that is there. -/
  socket : ∀ h k, s.sockets h = some (.udp k) → ∃ id st, s.udpConns id = some st ∧ st.handle = h
  tcp : ∀ id st k, Live s id st k → st.established = true → s.tcpApp id = ⟨false, false⟩ →
    s.servedSinceDrop id = true → k.closeAsked = true

/-- A close notice is sent where it can be: when the sending end of a UDP connection is
dropped, there is room in the channel, unless the connection is gone or a notice is on
its way. -/
def Heard : Action → State → Prop
  | .dropUdpSender id, s => (s.udpApp id).sender = true → s.udpConns id = none ∨
    .udpClose id ∈ s.deferred ++ s.dataIn ∨ s.dataIn.length < s.tier.channelCapacity
  | .openUdp h binds waiting, s => s.sockets h = none → binds = true → waiting = false →
    s.dataIn.length < s.tier.channelCapacity
  | _, _ => True

/-! ### UDP -/

/-- A UDP connection whose sending end was dropped has a close notice on its way. -/
def Notified (s : State) : Prop :=
  ∀ id, s.udpConns id ≠ none → (s.udpApp id).sender = false → .udpClose id ∈ s.deferred ++ s.dataIn

/-- No UDP connection was added, dropped by its sender or lost its notice. -/
structure UdpKept (s t : State) : Prop where
  conns : ∀ id, t.udpConns id ≠ none → s.udpConns id ≠ none
  sender : ∀ id, (t.udpApp id).sender = (s.udpApp id).sender
  flight : ∀ id, .udpClose id ∈ s.deferred ++ s.dataIn → .udpClose id ∈ t.deferred ++ t.dataIn

theorem UdpKept.refl {s t : State} (hconns : t.udpConns = s.udpConns) (happ : t.udpApp = s.udpApp)
    (hdeferred : t.deferred = s.deferred) (hdata : t.dataIn = s.dataIn) : UdpKept s t :=
  ⟨fun id h => by rwa [hconns] at h, fun id => by rw [happ], fun id h => by rwa [hdeferred, hdata]⟩

theorem UdpKept.trans {s t u : State} (h : UdpKept s t) (h' : UdpKept t u) : UdpKept s u :=
  ⟨fun id hu => h.conns id (h'.conns id hu), fun id => (h'.sender id).trans (h.sender id),
    fun id hm => h'.flight id (h.flight id hm)⟩

theorem Notified.kept {s t : State} (h : Notified s) (hk : UdpKept s t) : Notified t :=
  fun id hconn hsender => hk.flight id (h id (hk.conns id hconn) ((hk.sender id).symm.trans hsender))

theorem trySend_udp (d : DataIn) (s : State) : UdpKept s (trySend d s) := by
  unfold trySend
  split
  · refine ⟨fun _ h => h, fun _ => rfl, fun id h => ?_⟩
    rw [List.mem_append] at h ⊢
    exact h.imp_right (List.mem_append_left _)
  · exact .refl rfl rfl rfl rfl

theorem trySend_mem {d : DataIn} {s : State} (h : s.dataIn.length < s.tier.channelCapacity) :
    d ∈ (trySend d s).deferred ++ (trySend d s).dataIn := by
  simp [trySend, h]

theorem sendWith_udp (sender : Bool) (d : DataIn) (s : State) : UdpKept s (sendWith sender d s) := by
  unfold sendWith
  split
  · exact trySend_udp d s
  · exact .refl rfl rfl rfl rfl

theorem dropTcpSender_udp (id : Nat) (s : State) : UdpKept s (dropTcpSender id s) := by
  unfold dropTcpSender
  split
  · have happ : UdpKept s (setTcpApp id {s.tcpApp id with sender := false} s) := .refl rfl rfl rfl rfl
    exact happ.trans (trySend_udp ..)
  · exact .refl rfl rfl rfl rfl

theorem dropTcpReceiver_udp (id : Nat) (s : State) : UdpKept s (dropTcpReceiver id s) := by
  unfold dropTcpReceiver
  split <;> exact .refl rfl rfl rfl rfl

theorem dropUdpReceiver_udp (id : Nat) (s : State) : UdpKept s (dropUdpReceiver id s) := by
  unfold dropUdpReceiver
  split
  · refine ⟨fun _ h => h, fun j => ?_, fun _ h => h⟩
    by_cases hj : j = id
    · subst hj
      simp [setUdpApp]
    · simp [setUdpApp, hj]
  · exact .refl rfl rfl rfl rfl

/-- A connection whose entry was written was there before. -/
theorem update_ne_none {α : Type} {f : Nat → Option α} {id j : Nat} {a b : α} (ha : f id = some a)
    (h : Function.update f id (some b) j ≠ none) : f j ≠ none := by
  by_cases hj : j = id
  · subst hj
    simp [ha]
  · rwa [Function.update_of_ne hj] at h

theorem handOver_udp (id : Nat) (waiting : Bool) (s : State) : UdpKept s (handOver id waiting s) := by
  unfold handOver
  split
  · exact .refl rfl rfl rfl rfl
  · rename_i st hst
    split
    · exact .refl rfl rfl rfl rfl
    · split
      · have hgiven : UdpKept s (setTcpApp id ⟨true, true⟩ (setTcp id {st with established := true} s)) :=
          .refl rfl rfl rfl rfl
        dsimp only
        split
        · exact hgiven
        · exact hgiven.trans ((dropTcpSender_udp id _).trans (dropTcpReceiver_udp id _))
      · exact .refl rfl rfl rfl rfl

theorem serve_udp (id n : Nat) (s : State) : UdpKept s (serve id n s) := by
  have hkept := serve_kept id n s
  refine .refl ?_ hkept.udpApp hkept.deferred hkept.dataIn
  unfold serve
  split
  · rfl
  · split
    · rfl
    · split
      · rfl
      · dsimp only
        split <;> rfl

theorem serviceTcp_udp (id n : Nat) (waiting : Bool) (s : State) : UdpKept s (serviceTcp id n waiting s) := by
  have hmark : UdpKept (handOver id waiting s) (markServed id (handOver id waiting s)) := .refl rfl rfl rfl rfl
  exact (handOver_udp id waiting s).trans (hmark.trans (serve_udp id n _))

theorem ofStack_udp {x : Action} (hx : x.ofStack = true) (s : State) : UdpKept s (next x s) := by
  have hkept := ofStack_kept hx s
  refine ⟨?_, fun id => by rw [hkept.udpApp], fun id h => by rwa [hkept.deferred, hkept.dataIn]⟩
  intro id h
  cases x with
  | openTcp n connects =>
    change (openTcp n connects s).udpConns id ≠ none at h
    unfold openTcp at h
    split at h
    · exact h
    · dsimp only at h
      split at h <;> exact h
  | pollTcp n state more =>
    change (pollTcp n state more s).udpConns id ≠ none at h
    unfold pollTcp at h
    split at h
    · exact h
    · split at h <;> exact h
  | pollUdp n more =>
    change (pollUdp n more s).udpConns id ≠ none at h
    unfold pollUdp at h
    split at h <;> exact h
  | serviceUdp j =>
    change (serviceUdp j s).udpConns id ≠ none at h
    unfold serviceUdp at h
    split at h
    · exact h
    · rename_i st hst
      split at h
      · exact update_ne_none hst h
      · exact h
  | recv j =>
    change (recv j s).udpConns id ≠ none at h
    unfold recv at h
    split at h
    · split at h <;> exact h
    · exact h
  | recvUdp j =>
    change (recvUdp j s).udpConns id ≠ none at h
    unfold recvUdp at h
    split at h
    · rename_i st hst
      split at h
      · exact update_ne_none hst h
      · exact h
    · exact h
  | _ => cases hx

/-- A sending end is dropped with room for the notice. -/
theorem notified_dropUdpSender {s : State} (h : Notified s) {id : Nat} (hid : Heard (.dropUdpSender id) s) :
    Notified (dropUdpSender id s) := by
  unfold dropUdpSender
  split
  · rename_i hsender
    have hkept := trySend_udp (.udpClose id) (setUdpApp id {s.udpApp id with sender := false} s)
    intro j hconn hdropped
    have hconn' : s.udpConns j ≠ none := hkept.conns j hconn
    by_cases hj : j = id
    · subst hj
      rcases hid hsender with hgone | hsent | hroom
      · exact absurd hgone hconn'
      · exact hkept.flight j hsent
      · exact trySend_mem hroom
    · rw [hkept.sender] at hdropped
      refine hkept.flight j (h j hconn' ?_)
      simpa [setUdpApp, hj] using hdropped
  · exact h

theorem notified_addUdp {s : State} (h : Notified s) (n port : Nat) : Notified (addUdp n port s) := by
  intro id hconn hsender
  by_cases hid : id = s.nextId
  · subst hid
    simp [addUdp, setUdpApp] at hsender
  · refine h id ?_ ?_
    · simpa [addUdp, setUdpApp, hid] using hconn
    · simpa [addUdp, setUdpApp, hid] using hsender

theorem notified_openUdp {s : State} (h : Notified s) {n : Nat} {binds waiting : Bool}
    (hx : Heard (.openUdp n binds waiting) s) : Notified (openUdp n binds waiting s) := by
  have hport : Notified {s with nextPort := allocPort s.nextPort} := h
  unfold openUdp
  split
  · exact h
  · rename_i hfree
    have hadd := notified_addUdp hport n s.nextPort
    dsimp only
    split
    · exact hport
    · rename_i hbinds
      split
      · exact hadd
      · rename_i hgone
        refine Notified.kept (notified_dropUdpSender hadd fun _ => ?_) (dropUdpReceiver_udp _ _)
        exact .inr (.inr (hx (by simpa using hfree) (by simpa using hbinds) (by simpa using hgone)))

/-- A close notice removes its connection. -/
theorem tryHandleData_udpConns {d : DataIn} {s : State} {id : Nat}
    (h : (tryHandleData d s).1.udpConns id ≠ none) : s.udpConns id ≠ none ∧ d ≠ .udpClose id := by
  unfold tryHandleData at h
  cases d with
  | tcp j data =>
    refine ⟨?_, nofun⟩
    dsimp only at h
    split at h
    · exact h
    · split at h
      · exact h
      · split at h <;> exact h
  | tcpClose j =>
    refine ⟨?_, nofun⟩
    dsimp only at h
    split at h <;> exact h
  | udp j dst data => exact ⟨h, nofun⟩
  | udpClose j =>
    dsimp only at h
    split at h
    · rename_i hnone
      refine ⟨h, ?_⟩
      rintro ⟨⟩
      exact h hnone
    · by_cases hj : id = j
      · subst hj
        simp at h
      · simp only [Function.update_of_ne hj] at h
        refine ⟨h, ?_⟩
        rintro ⟨⟩
        exact hj rfl

/-- The first message in flight is handled; what comes back of it stays in flight. -/
theorem notified_handled {s u : State} (h : Notified s) {d : DataIn} {rest : List DataIn}
    (hflight : s.deferred ++ s.dataIn = d :: rest) (happ : u.udpApp = s.udpApp) (hconns : u.udpConns = s.udpConns)
    {t : State} (ht : t.udpConns = (tryHandleData d u).1.udpConns) (hsame : t.udpApp = (tryHandleData d u).1.udpApp)
    (hrest : ∀ x ∈ rest, x ∈ t.deferred ++ t.dataIn) : Notified t := by
  intro id hconn hsender
  rw [ht] at hconn
  obtain ⟨hconn', hd⟩ := tryHandleData_udpConns hconn
  rw [hconns] at hconn'
  rw [hsame, (tryHandleData_kept d u).udpApp, happ] at hsender
  have hmem := h id hconn' hsender
  rw [hflight] at hmem
  rcases List.mem_cons.mp hmem with he | hmem
  · exact absurd he.symm hd
  · exact hrest _ hmem

theorem notified_retryDeferred {s : State} (h : Notified s) : Notified (retryDeferred s) := by
  unfold retryDeferred
  split
  · exact h
  · rename_i d rest hd
    have hkept := tryHandleData_kept d {s with deferred := rest}
    refine notified_handled (u := {s with deferred := rest}) h (by rw [hd]; rfl) rfl rfl rfl rfl fun x hx => ?_
    show x ∈ (_ ++ (tryHandleData d {s with deferred := rest}).1.deferred) ++ _
    rw [hkept.deferred, hkept.dataIn, List.append_assoc]
    exact List.mem_append_right _ hx

theorem notified_receive {s : State} (h : Notified s) : Notified (receive s) := by
  unfold receive
  split
  · exact h
  · rename_i hdeferred
    have hnone : s.deferred = [] := by simpa using hdeferred
    split
    · exact h
    · rename_i d rest hd
      have hkept := tryHandleData_kept d {s with dataIn := rest}
      refine notified_handled (u := {s with dataIn := rest}) h (by rw [hnone, hd]; rfl) rfl rfl rfl rfl fun x hx => ?_
      show x ∈ _ ++ (tryHandleData d {s with dataIn := rest}).1.dataIn
      rw [hkept.dataIn]
      exact List.mem_append_right _ hx

theorem notified_next (x : Action) (s : State) (h : Notified s) (hx : Heard x s) : Notified (next x s) := by
  cases x with
  | openUdp n binds waiting => exact notified_openUdp h hx
  | serviceTcp id n waiting => exact h.kept (serviceTcp_udp id n waiting s)
  | retryDeferred => exact notified_retryDeferred h
  | receive => exact notified_receive h
  | send | close | sendTo | closeUdp => exact h.kept (sendWith_udp ..)
  | dropTcpSender id => exact h.kept (dropTcpSender_udp id s)
  | dropTcpReceiver id => exact h.kept (dropTcpReceiver_udp id s)
  | dropUdpSender id => exact notified_dropUdpSender h hx
  | dropUdpReceiver id => exact h.kept (dropUdpReceiver_udp id s)
  | _ => exact h.kept (ofStack_udp rfl s)

/-! ### TCP -/

/-- A connection that was served after its receiver was dropped was asked to close. -/
def Closing (s : State) : Prop := ∀ id st k, Live s id st k → st.established = true →
  (s.tcpApp id).receiver = false → s.servedSinceDrop id = true → k.closeAsked = true

/-- What tells whether connection `id` was served after its receiver was dropped. -/
def Watched (id : Nat) (s t : State) : Prop := t.servedSinceDrop id = false ∨
  ((t.tcpApp id).receiver = (s.tcpApp id).receiver ∧ t.servedSinceDrop id = s.servedSinceDrop id)

theorem Watched.refl {id : Nat} {s t : State} (happ : t.tcpApp = s.tcpApp)
    (hserved : t.servedSinceDrop = s.servedSinceDrop) : Watched id s t :=
  .inr ⟨by rw [happ], by rw [hserved]⟩

theorem Watched.trans {id : Nat} {s t u : State} (h : Watched id s t) (h' : Watched id t u) : Watched id s u := by
  rcases h' with h' | ⟨happ', hserved'⟩
  · exact .inl h'
  · rcases h with h | ⟨happ, hserved⟩
    · exact .inl (hserved'.trans h)
    · exact .inr ⟨happ'.trans happ, hserved'.trans hserved⟩

theorem watched_trySend (id : Nat) (d : DataIn) (s : State) : Watched id s (trySend d s) := by
  unfold trySend
  split <;> exact .refl rfl rfl

theorem watched_sendWith (id : Nat) (sender : Bool) (d : DataIn) (s : State) :
    Watched id s (sendWith sender d s) := by
  unfold sendWith
  split
  · exact watched_trySend id d s
  · exact .refl rfl rfl

theorem watched_setTcpApp {id j : Nat} {a : AppSide} {s : State} (h : a.receiver = (s.tcpApp j).receiver) :
    Watched id s (setTcpApp j a s) := by
  refine .inr ⟨?_, rfl⟩
  by_cases hj : id = j
  · subst hj
    simpa [setTcpApp] using h
  · simp [setTcpApp, hj]

theorem watched_dropTcpSender (id j : Nat) (s : State) : Watched id s (dropTcpSender j s) := by
  unfold dropTcpSender
  split
  · have happ : Watched id s (setTcpApp j {s.tcpApp j with sender := false} s) := watched_setTcpApp rfl
    exact happ.trans (watched_trySend ..)
  · exact .refl rfl rfl

theorem watched_dropTcpReceiver (id j : Nat) (s : State) : Watched id s (dropTcpReceiver j s) := by
  unfold dropTcpReceiver
  split
  · by_cases hj : id = j
    · subst hj
      exact .inl (by simp)
    · exact .inr ⟨by simp [setTcpApp, hj], by simp [hj]⟩
  · exact .refl rfl rfl

theorem watched_dropUdpSender (id j : Nat) (s : State) : Watched id s (dropUdpSender j s) := by
  unfold dropUdpSender
  split
  · have happ : Watched id s (setUdpApp j {s.udpApp j with sender := false} s) := .refl rfl rfl
    exact happ.trans (watched_trySend ..)
  · exact .refl rfl rfl

theorem watched_dropUdpReceiver (id j : Nat) (s : State) : Watched id s (dropUdpReceiver j s) := by
  unfold dropUdpReceiver
  split <;> exact .refl rfl rfl

theorem watched_openUdp (id n : Nat) (binds waiting : Bool) (s : State) :
    Watched id s (openUdp n binds waiting s) := by
  unfold openUdp
  split
  · exact .refl rfl rfl
  · have hadd : Watched id s (addUdp n s.nextPort {s with nextPort := allocPort s.nextPort}) := .refl rfl rfl
    dsimp only
    split
    · exact .refl rfl rfl
    · split
      · exact hadd
      · exact hadd.trans ((watched_dropUdpSender ..).trans (watched_dropUdpReceiver ..))

/-- Another connection is handed over and served. -/
theorem watched_serviceTcp {id j : Nat} (hj : id ≠ j) (n : Nat) (waiting : Bool) (s : State) :
    Watched id s (serviceTcp j n waiting s) := by
  have hhanded : Watched id s (handOver j waiting s) := by
    unfold handOver
    split
    · exact .refl rfl rfl
    · rename_i st hst
      split
      · exact .refl rfl rfl
      · split
        · have hgiven : Watched id s (setTcpApp j ⟨true, true⟩ (setTcp j {st with established := true} s)) :=
            .inr ⟨by simp [setTcpApp, setTcp, hj], rfl⟩
          dsimp only
          split
          · exact hgiven
          · exact hgiven.trans ((watched_dropTcpSender ..).trans (watched_dropTcpReceiver ..))
        · exact .refl rfl rfl
  have hmark : Watched id (handOver j waiting s) (markServed j (handOver j waiting s)) :=
    .inr ⟨rfl, by simp [markServed, hj]⟩
  have hserve := serve_kept j n (markServed j (handOver j waiting s))
  exact hhanded.trans (hmark.trans (.refl hserve.tcpApp hserve.servedSinceDrop))

theorem watched_next {x : Action} {id : Nat} (hx : x.serves ≠ some id) (s : State) : Watched id s (next x s) := by
  cases x with
  | openUdp n binds waiting => exact watched_openUdp id n binds waiting s
  | serviceTcp j n waiting => exact watched_serviceTcp (fun hj => hx (by rw [hj]; rfl)) n waiting s
  | retryDeferred =>
    show Watched id s (retryDeferred s)
    unfold retryDeferred
    split
    · exact .refl rfl rfl
    · have hkept := tryHandleData_kept
      exact .refl (hkept _ _).tcpApp (hkept _ _).servedSinceDrop
  | receive =>
    show Watched id s (receive s)
    unfold receive
    split
    · exact .refl rfl rfl
    · split
      · exact .refl rfl rfl
      · have hkept := tryHandleData_kept
        exact .refl (hkept _ _).tcpApp (hkept _ _).servedSinceDrop
  | send | close | sendTo | closeUdp => exact watched_sendWith ..
  | dropTcpSender j => exact watched_dropTcpSender id j s
  | dropTcpReceiver j => exact watched_dropTcpReceiver id j s
  | dropUdpSender j => exact watched_dropUdpSender id j s
  | dropUdpReceiver j => exact watched_dropUdpReceiver id j s
  | _ => exact .refl (ofStack_kept rfl s).tcpApp (ofStack_kept rfl s).servedSinceDrop

/-- The pass that finds the app gone asks the socket to close. -/
theorem run_closeAsked (tier : Tier) (n : Nat) (p : Pass) : (p.run tier true n).1.socket.closeAsked = true := by
  rw [Pass.run_eq, Pass.finish]
  generalize (Pass.delivered tier true n p) = q
  rw [if_pos rfl]
  unfold Pass.finishIn
  dsimp only
  split <;> split <;> split <;> rfl

theorem serves_of_handles {x : Action} (hx : x.handles = true) : x.serves = none := by
  cases x <;> first | rfl | cases hx

theorem closing_next (x : Action) (s : State) (ht : Tables s) (h : Closing s) : Closing (next x s) := by
  intro id st' k' hl hest hreceiver hserved
  rcases live_next ht hl with ⟨-, n, port, rfl, -⟩ | ⟨st, k, hl, hc⟩
  · cases hest
  · have hrest (hx : x.serves ≠ some id) (hest : st.established = true) : k.closeAsked = true := by
      rcases watched_next hx s with hnot | ⟨happ, hsame⟩
      · rw [hnot] at hserved
        cases hserved
      · exact h id st k hl hest (happ ▸ hreceiver) (hsame ▸ hserved)
    cases hc with
    | same hx => exact hrest hx hest
    | polled hx => exact hrest (by rw [hx]; nofun) hest
    | read hx => exact hrest (by rw [hx]; nofun) hest
    | message hx => exact hrest (by rw [serves_of_handles hx]; nofun) hest
    | @served n waiting hx gone hgone hover hstays =>
      have hestablished : (st.handedOver k).established = true := by
        rw [← hest]
        exact (Pass.run_carries s.tier gone n {st := st.handedOver k, socket := k}).established.symm
      obtain rfl : gone = true := by
        rw [hgone, appGone, hestablished, hreceiver]
        rfl
      exact run_closeAsked ..

/-! ### Whole runs -/

structure Tended (s : State) : Prop where
  tables : Tables s
  closing : Closing s

theorem tended_next (x : Action) (s : State) (h : Tended s) : Tended (next x s) :=
  ⟨tables_next x s h.tables, closing_next x s h.tables h.closing⟩

theorem tended_initial (tier : Tier) : Tended (initial tier) := by
  refine ⟨tables_initial tier, fun id st k hl => ?_⟩
  cases hl.1

theorem Tended.reaped {s : State} (h : Tended s) (hn : Notified s) : Reaped s := by
  refine ⟨?_, ?_, ?_⟩
  · intro id happ hdone
    by_contra hconn
    have hclose := hn id hconn (by rw [happ])
    have hnot := hdone _ hclose
    simp [DataIn.ofUdp] at hnot
  · intro n k hk
    obtain ⟨⟨kind, id⟩, hslot⟩ := h.tables.owned.owner (h := n) (c := .udp) (by simp [used, hk, Socket.kind])
    have hkind := h.tables.owned.inUse hslot
    rw [used, hk] at hkind
    obtain rfl : Kind.udp = kind := Option.some.inj hkind
    obtain ⟨st, hst, hh⟩ := Option.map_eq_some_iff.mp hslot
    exact ⟨id, st, hst, hh⟩
  · intro id st k hl hest happ hserved
    exact h.closing id st k hl hest (by rw [happ]) hserved

/-- **Nothing is left behind when every close notice is heard**: in a run in which each UDP
connection's sending end is dropped while the channel has room, or its notice is already
on its way, every state visited has no UDP connection, no UDP socket and no TCP
connection that its app has dropped and the stack has not taken note of. -/
theorem reaped_of_heard (tier : Tier) (as : List Action) (h : Along next Heard (initial tier) as) :
    ∀ s ∈ visited next (initial tier) as, Reaped s := by
  intro s hs
  have htended := visited_invariant tended_next (tended_initial tier) as s hs
  have hnotified : Notified s := by
    have hinitial : Notified (initial tier) := fun id hconn => absurd rfl hconn
    exact visited_of_along tended_next (fun x s _ => notified_next x s) (tended_initial tier) hinitial as h s hs
  exact htended.reaped hnotified

/-- A UDP connection is opened and dropped, and its notice received. -/
def hangUp : List Action := [.openUdp 0 true true, .dropUdpSender 1, .dropUdpReceiver 1, .receive]

theorem reaped_of_heard_hangUp : Along next Heard (initial .low) hangUp ∧
    (run next (initial .low) hangUp).udpConns 1 = none := by
  have h : Along next Heard (initial .low) hangUp :=
    ⟨nofun, fun _ => .inr (.inr (by decide)), trivial, trivial, trivial⟩
  exact ⟨h, (reaped_of_heard .low hangUp h _ (run_visited ..)).udp 1 rfl nofun⟩

/-- A UDP connection fills the channel with datagrams and is dropped; the stack then takes
every message and serves it. -/
def hangUpFull : List Action :=
  .openUdp 0 true true :: List.replicate 128 (.sendTo 1 ⟨[10, 0, 0, 1], 53⟩ []) ++
    [.dropUdpSender 1, .dropUdpReceiver 1] ++ List.replicate 128 .receive ++ [.serviceUdp 1]

/-- The notice is refused and the connection stays. -/
theorem notice_refused : ¬ ∀ s ∈ visited next (initial .low) hangUpFull, Reaped s := by
  intro h
  have hreaped := h _ (run_visited next _ hangUpFull)
  have happ : (run next (initial .low) hangUpFull).udpApp 1 = ⟨false, false⟩ := by decide +kernel
  have hflight : (run next (initial .low) hangUpFull).deferred ++ (run next (initial .low) hangUpFull).dataIn = [] := by
    decide +kernel
  have hconn : ((run next (initial .low) hangUpFull).udpConns 1).isSome = true := by decide +kernel
  have hnone := hreaped.udp 1 happ fun d hd => by rw [hflight] at hd; cases hd
  rw [hnone] at hconn
  cases hconn

end Aether.Netstack
