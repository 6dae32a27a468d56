import Aether.Netstack.Connections

/-! When closing a TCP connection loses nothing.

The stack calls `close` on a socket in three places. The half-closed connection
waits until its buffer is sent; the connection whose app is gone has nobody to lose
anything. But a socket in `CloseWait` is closed whatever is still pending, and a
connection whose socket is `Closed` or `TimeWait` is removed whatever has been
delivered. `graceful_iff_clean` says exactly which passes go well: those in which
the rest of the buffer is accepted in the pass that sees `CloseWait`, and what the
socket holds fits the app's channel in the pass that sees the end. -/
namespace Aether.Netstack
open Machine

/-- Nothing of an established connection whose app is still there was lost. -/
def Event.Graceful : Event → Prop
  | .closeCalled established appGone pending => established = true → pending = [] ∨ appGone = true
  | .removed established appGone received delivered =>
    established = true → delivered = received ∨ appGone = true

def Graceful (s : State) : Prop := ∀ e ∈ s.history, e.Graceful

/-! ### One pass -/

/-- In `CloseWait` the socket accepts all that is pending, and at the end what it holds fits
the app's channel and the budget of the pass. -/
def CleanPass (tier : Tier) (n : Nat) (st : TcpState) (k : TcpSocket) : Prop :=
  (k.state = .closeWait → st.pending.length ≤ n) ∧ (k.state.isOver = true →
    k.rx.length ≤ min maxRecvChunks (tier.channelCapacity - st.toApp.length))

namespace Pass

def Graceful (p : Pass) : Prop := ∀ e ∈ p.events, e.Graceful

theorem close_graceful (gone : Bool) (p : Pass) : (p.close gone).Graceful ↔
    p.Graceful ∧ (p.st.established = true → p.st.pending = [] ∨ gone = true) := by
  simp only [Graceful, close, List.mem_append, List.mem_singleton, or_imp, forall_and, forall_eq]
  rfl

theorem closeHalf_graceful (gone : Bool) (p : Pass) : (p.closeHalf gone).Graceful ↔ p.Graceful := by
  unfold closeHalf
  split
  · rename_i h
    rw [Bool.and_eq_true, List.isEmpty_iff] at h
    rw [close_graceful]
    exact and_iff_left fun _ => .inl h.2
  · rfl

/-- Up to the end of the delivery nothing goes wrong. -/
theorem delivered_graceful (tier : Tier) (gone : Bool) (n : Nat) (p : Pass) :
    (p.delivered tier gone n).Graceful ↔ p.Graceful := by
  have hevents : (p.delivered tier gone n).events = ((p.upload n).closeHalf gone).events :=
    (deliver_spec ..).events
  rw [Graceful, hevents]
  refine (closeHalf_graceful gone (p.upload n)).trans ?_
  rw [Graceful, (upload_kept n p).2.2]
  rfl

theorem finishIn_graceful {state : TcpSocketState} {gone : Bool} {p : Pass} : (p.finishIn state gone).1.Graceful ↔
    p.Graceful ∧ (p.st.established = true → (state = .closeWait → p.st.pending = [] ∨ gone = true) ∧
      (state.isOver = true → p.st.delivered = p.socket.received ∨ gone = true)) := by
  cases hover : state.isOver with
  | false =>
    by_cases hw : state = .closeWait
    · rw [hw, finishIn_closeWait]
      simpa using close_graceful gone p
    · rw [finishIn_open hover hw]
      simp [hw]
  | true =>
    have hw : state ≠ .closeWait := fun h => by rw [h] at hover; cases hover
    cases hest : p.st.established with
    | true =>
      have hevents := (finishIn_over hover hest gone).2
      rw [Graceful, hevents]
      simp only [List.mem_append, List.mem_singleton, or_imp, forall_and, forall_eq, hw]
      simp [Graceful, Event.Graceful]
    | false =>
      have hevents : (p.finishIn state gone).1.events = p.events := by
        cases state with
        | closed => simp [finishIn, TcpSocketState.isOver, hest]
        | timeWait => simp [finishIn, TcpSocketState.isOver, clearPending, hest]
        | _ => cases hover
      simp [Graceful, hevents]

/-- Nothing is pending when a socket is closed in `CloseWait` exactly if the socket accepts
the rest. -/
theorem delivered_pending (tier : Tier) (gone : Bool) (n : Nat) (p : Pass) :
    ((p.delivered tier gone n).socket.state = .closeWait → (p.delivered tier gone n).st.pending = []) ↔
      (p.socket.state = .closeWait → p.st.pending.length ≤ n) := by
  have hpending := (delivered_frame tier gone n p).pending
  have hupload (hw : p.socket.state = .closeWait) : (p.upload n).st.pending = p.st.pending.drop n := by
    simp [upload, hw, TcpSocketState.maySend]
  rcases delivered_state tier gone n p with hs | ⟨hs, hnone⟩
  · rw [hs]
    refine imp_congr_right fun hw => ?_
    rw [hpending, hupload hw, List.drop_eq_nil_iff]
  · rw [hnone]
    refine iff_of_true (fun _ => rfl) fun hw => ?_
    rw [hpending, hupload hw] at hnone
    exact List.drop_eq_nil_iff.mp hnone

/-- Slices are not empty. -/
theorem flatten_slices_eq_nil {slices : List Slice} : (slices.map Subtype.val).flatten = [] ↔ slices = [] := by
  cases slices with
  | nil => simp
  | cons x rest => simp [x.property]

/-- Everything received is delivered exactly if it fits the channel and the budget. -/
theorem delivered_all {tier : Tier} {n : Nat} {p : Pass}
    (hbytes : p.socket.received = p.st.delivered ++ (p.socket.rx.map Subtype.val).flatten) :
    (p.delivered tier false n).st.delivered = (p.delivered tier false n).socket.received ↔
      p.socket.rx.length ≤ min maxRecvChunks (tier.channelCapacity - p.st.toApp.length) := by
  have hcarries := delivered_carries tier false n p
  have hreceived : (p.delivered tier false n).socket.received = (p.delivered tier false n).st.delivered ++
      ((p.delivered tier false n).socket.rx.map Subtype.val).flatten := by
    rw [hcarries.received, hbytes, hcarries.bytes]
  rw [hreceived, List.self_eq_append_right, flatten_slices_eq_nil]
  have hrx := deliver_rx tier.channelCapacity maxRecvChunks ((p.upload n).closeHalf false)
  refine hrx.trans ?_
  have hkept : ((p.upload n).closeHalf false).socket.rx = p.socket.rx ∧
      ((p.upload n).closeHalf false).st.toApp = p.st.toApp := by
    obtain ⟨hst, hsocket, -⟩ := upload_kept n p
    have hslices : (p.upload n).socket.rx = p.socket.rx := by rw [hsocket]
    have hchunks : (p.upload n).st.toApp = p.st.toApp := by rw [hst]
    unfold closeHalf
    split <;> exact ⟨hslices, hchunks⟩
  rw [hkept.1, hkept.2]

/-- **When a pass loses nothing.** -/
theorem run_graceful {tier : Tier} {gone : Bool} {n : Nat} {p : Pass} (hp : p.Graceful)
    (hopening : p.st.established = true → p.socket.state.opening = false)
    (hbytes : p.socket.received = p.st.delivered ++ (p.socket.rx.map Subtype.val).flatten) :
    (p.run tier gone n).1.Graceful ↔
      (p.st.established = true → gone = false → CleanPass tier n p.st p.socket) := by
  have hq : (p.delivered tier gone n).Graceful := (delivered_graceful tier gone n p).mpr hp
  rw [run_eq, finish]
  cases gone with
  | true =>
    refine iff_of_true (finishIn_graceful.mpr ⟨?_, ?_⟩) nofun
    · exact (close_graceful true _).mpr ⟨hq, fun _ => .inr rfl⟩
    · exact fun _ => ⟨fun _ => .inr rfl, fun _ => .inr rfl⟩
  | false =>
    refine finishIn_graceful.trans ((and_iff_right hq).trans ?_)
    rw [if_neg Bool.false_ne_true, (delivered_carries tier false n p).established]
    refine imp_congr_right fun hest => ?_
    have hover : (p.delivered tier false n).socket.state.isOver = p.socket.state.isOver := by
      rcases delivered_state tier false n p with hs | ⟨hs, -⟩
      · rw [hs]
      · rw [hs, isOver_close (hopening hest)]
    rw [hover]
    simp only [Bool.false_eq_true, or_false, true_imp_iff]
    exact and_congr (delivered_pending tier false n p) (imp_congr_right fun _ => delivered_all hbytes)

end Pass

/-! ### Every connection -/

/-- An established connection is past the handshake, and what its socket received is
delivered or still to be read. -/
structure Readable (st : TcpState) (k : TcpSocket) : Prop where
  opening : st.established = true → k.state.opening = false
  bytes : k.received = st.delivered ++ (k.rx.map Subtype.val).flatten

theorem Readable.handedOver {st : TcpState} {k : TcpSocket} (h : Readable st k) : Readable (st.handedOver k) k := by
  unfold TcpState.handedOver
  split
  · rename_i hhanded
    refine ⟨fun _ => ?_, h.bytes⟩
    have hstate : k.state = .established := by simpa using (Bool.and_eq_true_iff.mp hhanded).2
    rw [hstate]
    rfl
  · exact h

theorem Readable.change {x : Action} {s : State} {id : Nat} {st st' : TcpState} {k k' : TcpSocket}
    (h : Readable st k) (hc : Change x s id st k st' k') : Readable st' k' := by
  cases hc with
  | same | read | message => exact ⟨h.opening, h.bytes⟩
  | polled hx ho =>
    refine ⟨fun hest => ?_, ?_⟩
    · rw [← Bool.not_eq_true]
      intro hopening
      have hclosed := h.opening hest
      rw [ho hopening] at hclosed
      cases hclosed
    · show k.received ++ _ = _
      rw [h.bytes]
      simp
  | @served n waiting hx gone hgone hover hstays =>
    have hcarries := Pass.run_carries s.tier gone n {st := st.handedOver k, socket := k}
    refine ⟨fun hest => ?_, ?_⟩
    · rw [hcarries.established] at hest
      rw [← Bool.not_eq_true]
      intro hopening
      have hclosed := h.handedOver.opening hest
      rw [hcarries.opening hopening] at hclosed
      cases hclosed
    · rw [hcarries.received, hcarries.bytes]
      exact h.handedOver.bytes

structure Connected (s : State) : Prop where
  tables : Tables s
  readable : ∀ id st k, Live s id st k → Readable st k

theorem connected_next (x : Action) (s : State) (h : Connected s) : Connected (next x s) := by
  refine ⟨tables_next x s h.tables, fun id st' k' hl => ?_⟩
  rcases live_next h.tables hl with ⟨-, n, port, rfl, rfl⟩ | ⟨st, k, hl, hc⟩
  · exact ⟨nofun, rfl⟩
  · exact (h.readable id st k hl).change hc

theorem connected_initial (tier : Tier) : Connected (initial tier) := by
  refine ⟨tables_initial tier, fun id st k hl => ?_⟩
  cases hl.1

/-! ### One step -/

/-- A pass over an established connection whose app is there is clean. -/
def Clean : Action → State → Prop
  | .serviceTcp id n _, s => ∀ st k, Live s id st k → st.established = true →
    (s.tcpApp id).receiver = true → CleanPass s.tier n st k
  | _, _ => True

/-- Only a pass over a TCP connection closes or removes one. -/
theorem history_next {x : Action} (hx : x.serves = none) (s : State) : (next x s).history = s.history := by
  cases x with
  | openUdp n binds waiting =>
    show (openUdp n binds waiting s).history = s.history
    unfold openUdp
    split
    · rfl
    · dsimp only
      split
      · rfl
      · split
        · rfl
        · exact (dropUdpConn_kept ..).history
  | serviceTcp id n waiting => cases hx
  | retryDeferred =>
    show (retryDeferred s).history = s.history
    unfold retryDeferred
    split
    · rfl
    · exact (tryHandleData_kept ..).history
  | receive =>
    show (receive s).history = s.history
    unfold receive
    split
    · rfl
    · split
      · rfl
      · exact (tryHandleData_kept ..).history
  | openTcp | pollTcp | pollUdp | serviceUdp | recv | recvUdp => exact (ofStack_kept rfl s).history
  | _ => exact (ofApp_kept rfl s).history

theorem serve_history {s : State} {id : Nat} {st : TcpState} {k : TcpSocket} (hl : Live s id st k) (n : Nat) :
    (serve id n s).history = if !st.established && k.state.isOver then s.history
      else s.history ++ (Pass.run s.tier (appGone s id st) n {st, socket := k}).1.events := by
  obtain ⟨hst, hk⟩ := hl
  unfold serve
  rw [hst]
  dsimp only
  rw [hk]
  dsimp only
  split
  · rfl
  · split <;> rfl

theorem serve_of_none {s : State} {id : Nat} (hst : s.tcpConns id = none) (n : Nat) : serve id n s = s := by
  unfold serve
  rw [hst]

theorem appGone_eq_false_iff {s : State} {id : Nat} {st : TcpState} (hest : st.established = true) :
    appGone s id st = false ↔ (s.tcpApp id).receiver = true := by
  simp [appGone, hest]

theorem handOver_of_established {s : State} {id : Nat} {st : TcpState} {k : TcpSocket} (hl : Live s id st k)
    (hest : st.established = true) (waiting : Bool) : handOver id waiting s = s ∧ st.handedOver k = st := by
  simp [handOver, TcpState.handedOver, hl.1, hl.2, hest]

theorem graceful_serve {s : State} (hs : Graceful s) {id : Nat} {st : TcpState} {k : TcpSocket}
    (hl : Live s id st k) (hr : Readable st k) (n : Nat) : Graceful (serve id n s) ↔
      (st.established = true → appGone s id st = false → CleanPass s.tier n st k) := by
  rw [Graceful, serve_history hl]
  split
  · rename_i hrefused
    have hest : st.established = false := by simpa using (Bool.and_eq_true_iff.mp hrefused).1
    rw [hest]
    exact iff_of_true hs nofun
  · have hpass : (Pass.run s.tier (appGone s id st) n {st, socket := k}).1.Graceful ↔
        (st.established = true → appGone s id st = false → CleanPass s.tier n st k) :=
      Pass.run_graceful nofun hr.opening hr.bytes
    refine Iff.trans ?_ hpass
    simp only [List.mem_append, or_imp, forall_and]
    exact and_iff_right hs

theorem graceful_serviceTcp {s : State} (h : Connected s) (hs : Graceful s) (id n : Nat) (waiting : Bool) :
    Graceful (serviceTcp id n waiting s) ↔ Clean (.serviceTcp id n waiting) s := by
  cases hst : s.tcpConns id with
  | none =>
    have hnone : (serviceTcp id n waiting s).history = s.history := by
      have hserved : (markServed id s).tcpConns id = none := hst
      rw [serviceTcp, handOver_of_none hst, serve_of_none hserved, markServed]
    refine iff_of_true (by rw [Graceful, hnone]; exact hs) fun st k hl => ?_
    rw [hl.1] at hst
    cases hst
  | some st =>
    obtain ⟨k, hk⟩ := h.tables.socket hst
    have hl : Live s id st k := ⟨hst, hk⟩
    obtain ⟨-, htier, hhistory, -⟩ := handOver_kept id waiting s
    have hgraceful : Graceful (markServed id (handOver id waiting s)) := by
      intro e he
      rw [markServed, hhistory] at he
      exact hs e he
    have hclean : Clean (.serviceTcp id n waiting) s ↔ (st.established = true →
        (s.tcpApp id).receiver = true → CleanPass s.tier n st k) := by
      refine ⟨fun hc => hc st k hl, fun hc st' k' hl' => ?_⟩
      obtain rfl : st = st' := Option.some.inj (hst.symm.trans hl'.1)
      obtain rfl : k = k' := Option.some.inj (hk.symm.trans hl'.2)
      exact hc
    refine (graceful_serve hgraceful (hl.handedOver waiting) (h.readable id st k hl).handedOver n).trans ?_
    rw [hclean]
    cases hest : st.established with
    | true =>
      obtain ⟨hsame, hestablished⟩ := handOver_of_established hl hest waiting
      rw [hsame, hestablished, hest]
      exact imp_congr_right fun _ => imp_congr_left (appGone_eq_false_iff hest)
    | false =>
      -- The connection may be handed over in this pass, but then its socket is established.
      refine iff_of_true (fun hestablished _ => ?_) (fun hfalse => by cases hfalse)
      have hstate : k.state = .established := by
        unfold TcpState.handedOver at hestablished
        split at hestablished
        · rename_i hnew
          simpa using (Bool.and_eq_true_iff.mp hnew).2
        · rw [hest] at hestablished
          cases hestablished
      rw [CleanPass, hstate]
      refine ⟨?_, ?_⟩
      · intro hclose
        cases hclose
      · intro hover
        cases hover

theorem graceful_next (x : Action) (s : State) (h : Connected s) (hs : Graceful s) :
    Graceful (next x s) ↔ Clean x s := by
  cases x with
  | serviceTcp id n waiting => exact graceful_serviceTcp h hs id n waiting
  | _ =>
    refine iff_of_true ?_ trivial
    rw [Graceful, history_next rfl]
    exact hs

/-! ### Whole runs -/

/-- **Closing loses nothing exactly if every pass is clean**: in every state of a run no
socket was closed with bytes of a present app pending and no connection was removed before
its app got everything, if and only if each pass over an established connection whose app
is there has room for the rest in the socket, when the peer has closed, and in the app's
channel, when the connection is over. -/
theorem graceful_iff_clean (tier : Tier) (as : List Action) :
    (∀ s ∈ visited next (initial tier) as, Graceful s) ↔ Along next Clean (initial tier) as :=
  visited_iff_along connected_next graceful_next (connected_initial tier) nofun as

/-- A connection is opened and established, the app sends `data`, and the peer closes before
the pass in which the socket accepts `n` bytes. -/
def peerClosesFirst (n : Nat) (data : List UInt8) : List Action :=
  [.openTcp 0 true, .pollTcp 0 .established [], .serviceTcp 1 0 true, .send 1 data, .receive,
    .pollTcp 0 .closeWait [], .serviceTcp 1 n true]

/-- A chunk that fits is received whole. -/
theorem receive_fits {s : State} {id : Nat} {data : List UInt8} {rest : List DataIn} {st : TcpState}
    (hdeferred : s.deferred = []) (hd : s.dataIn = .tcp id data :: rest) (hst : s.tcpConns id = some st)
    (hroom : st.pending.length < maxTcpPending s.tier)
    (hfits : st.pending.length + data.length ≤ maxTcpPending s.tier) :
    receive s = {setTcp id {st with pending := st.pending ++ data} s with dataIn := rest, deferred := []} := by
  have hspace : data.length ≤ maxTcpPending s.tier - st.pending.length := by omega
  simp [receive, hdeferred, hd, tryHandleData, hst, Nat.not_le.mpr hroom, hspace, setTcp]

theorem peerClosesFirst_history (n : Nat) {data : List UInt8} (h : data.length ≤ maxTcpPending .low) :
    (run next (initial .low) (peerClosesFirst n data)).history = [.closeCalled true false (data.drop n)] := by
  have hst : (run next (initial .low) ((peerClosesFirst n data).take 4)).tcpConns 1 =
    some {handle := 0, established := true} := rfl
  have htier : (run next (initial .low) ((peerClosesFirst n data).take 4)).tier = .low := rfl
  have hreceive := receive_fits (by rfl) (by rfl) hst (by rw [htier]; decide) (by rw [htier]; simpa using h)
  have hsplit : peerClosesFirst n data =
    (peerClosesFirst n data).take 4 ++ .receive :: [.pollTcp 0 .closeWait [], .serviceTcp 1 n true] := rfl
  rw [hsplit, run_append, run, next, hreceive]
  rfl

/-- The socket takes 131072 of 131073 bytes in the pass that sees `CloseWait`, and is closed
with the last one pending. -/
theorem lastByte_lost : ¬ ∀ s ∈ visited next (initial .low) (peerClosesFirst 131072 (List.replicate 131073 65)),
    Graceful s := by
  intro h
  have hlost := h _ (run_visited next _ _)
  rw [Graceful, peerClosesFirst_history 131072 (by rw [List.length_replicate]; decide)] at hlost
  have hpending := hlost _ (List.mem_singleton.mpr rfl) rfl
  rw [List.drop_replicate] at hpending
  simp at hpending

end Aether.Netstack
