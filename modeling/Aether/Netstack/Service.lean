import Aether.Netstack.Stack

/-! What one pass over a TCP connection does.

The pass is a chain of small steps over the connection and its socket. Each comes
with what it leaves alone (`Pass.Frame`), and the chain with one lemma for each of
the questions asked of it: which bytes move from `pending` to the socket, which
received bytes reach the app, when `close` is called and when the connection is
removed. -/
namespace Aether.Netstack

/-! ### Socket states -/

theorem close_eq_timeWait {state : TcpSocketState} (h : state.close = .timeWait) : state = .timeWait := by
  cases state <;> first | rfl | cases h

/-- Once the handshake is over, `close` does not end the connection. -/
theorem isOver_close {state : TcpSocketState} (h : state.opening = false) :
    state.close.isOver = state.isOver := by
  cases state <;> first | rfl | cases h

theorem opening_close (state : TcpSocketState) : state.close.opening = false := by
  cases state <;> rfl

namespace Pass

/-! ### What the steps leave alone -/

structure Frame (p q : Pass) : Prop where
  handle : q.st.handle = p.st.handle
  established : q.st.established = p.st.established
  halfClosed : q.st.halfClosed = p.st.halfClosed
  pending : q.st.pending = p.st.pending
  accepted : q.socket.accepted = p.socket.accepted
  received : q.socket.received = p.socket.received

theorem Frame.refl (p : Pass) : Frame p p := ⟨rfl, rfl, rfl, rfl, rfl, rfl⟩

theorem Frame.trans {p q r : Pass} (h : Frame p q) (h' : Frame q r) : Frame p r :=
  ⟨h'.handle.trans h.handle, h'.established.trans h.established, h'.halfClosed.trans h.halfClosed,
    h'.pending.trans h.pending, h'.accepted.trans h.accepted, h'.received.trans h.received⟩

theorem close_frame (gone : Bool) (p : Pass) : Frame p (p.close gone) := ⟨rfl, rfl, rfl, rfl, rfl, rfl⟩

theorem closeHalf_frame (gone : Bool) (p : Pass) : Frame p (p.closeHalf gone) := by
  unfold closeHalf
  split
  · exact close_frame gone p
  · exact .refl p

/-- Delivery moves received bytes to the app, in order. -/
structure Delivered (p q : Pass) : Prop where
  frame : Frame p q
  state : q.socket.state = p.socket.state
  events : q.events = p.events
  closeAsked : q.socket.closeAsked = p.socket.closeAsked
  bytes : q.st.delivered ++ (q.socket.rx.map Subtype.val).flatten =
    p.st.delivered ++ (p.socket.rx.map Subtype.val).flatten

theorem Delivered.refl (p : Pass) : Delivered p p := ⟨.refl p, rfl, rfl, rfl, rfl⟩

theorem deliver_spec (capacity : Nat) (gone : Bool) (budget : Nat) (p : Pass) :
    Delivered p (p.deliver capacity gone budget).1 := by
  induction budget generalizing p with
  | zero => exact .refl p
  | succ budget ih =>
    unfold deliver
    split
    · exact .refl p
    · split
      · exact .refl p
      · split
        · exact .refl p
        · rename_i chunk rest hrx
          have h := ih {p with
            st := {p.st with
              toApp := p.st.toApp ++ [chunk.val], delivered := p.st.delivered ++ chunk.val}
            socket := {p.socket with rx := rest}}
          refine ⟨⟨h.frame.handle, h.frame.established, h.frame.halfClosed, h.frame.pending,
            h.frame.accepted, h.frame.received⟩, h.state, h.events, h.closeAsked, ?_⟩
          rw [h.bytes, hrx]
          simp

/-- The loop sees on its first turn whether the app is gone. -/
theorem deliver_gone (capacity : Nat) (gone : Bool) (budget : Nat) (p : Pass) :
    (p.deliver capacity gone (budget + 1)).2 = gone := by
  cases gone with
  | true => rfl
  | false =>
    generalize budget + 1 = budget
    induction budget generalizing p with
    | zero => rfl
    | succ budget ih =>
      unfold deliver
      rw [if_neg Bool.false_ne_true]
      split
      · rfl
      · split
        · rfl
        · exact ih _

/-- Everything received is delivered exactly when the chunks fit the free slots of the
channel and the budget. -/
theorem deliver_rx (capacity : Nat) (budget : Nat) (p : Pass) :
    (p.deliver capacity false budget).1.socket.rx = [] ↔
      p.socket.rx.length ≤ min budget (capacity - p.st.toApp.length) := by
  induction budget generalizing p with
  | zero =>
    rw [deliver, Nat.zero_min, Nat.le_zero, List.length_eq_zero_iff]
  | succ budget ih =>
    unfold deliver
    rw [if_neg Bool.false_ne_true]
    split
    · rename_i hfull
      rw [Nat.sub_eq_zero_of_le hfull, Nat.min_zero, Nat.le_zero, List.length_eq_zero_iff]
    · rename_i hroom
      split
      · rename_i hrx
        rw [hrx]
        exact iff_of_true rfl (Nat.zero_le _)
      · rename_i chunk rest hrx
        rw [ih, hrx]
        simp only [List.length_append, List.length_cons, List.length_nil]
        omega

/-- What an upload leaves alone. -/
theorem upload_kept (n : Nat) (p : Pass) :
    (p.upload n).st = {p.st with pending := (p.upload n).st.pending} ∧
      (p.upload n).socket = {p.socket with accepted := (p.upload n).socket.accepted} ∧
      (p.upload n).events = p.events := by
  unfold upload
  split <;> exact ⟨rfl, rfl, rfl⟩

/-! ### The whole pass -/

/-- The connection when its delivery loop has ended. -/
def delivered (tier : Tier) (gone : Bool) (n : Nat) (p : Pass) : Pass :=
  (((p.upload n).closeHalf gone).deliver tier.channelCapacity gone maxRecvChunks).1

theorem run_eq (tier : Tier) (gone : Bool) (n : Nat) (p : Pass) :
    p.run tier gone n = (p.delivered tier gone n).finish gone := by
  have hgone := deliver_gone tier.channelCapacity gone 127 ((p.upload n).closeHalf gone)
  exact congrArg (fun g => (p.delivered tier gone n).finish g) hgone

theorem delivered_frame (tier : Tier) (gone : Bool) (n : Nat) (p : Pass) :
    Frame (p.upload n) (p.delivered tier gone n) :=
  (closeHalf_frame gone _).trans (deliver_spec ..).frame

/-! ### The end of the pass -/

theorem finishIn_closeWait (gone : Bool) (p : Pass) : p.finishIn .closeWait gone = (p.close gone, false) :=
  rfl

theorem finishIn_open {state : TcpSocketState} (h : state.isOver = false) (hw : state ≠ .closeWait)
    (gone : Bool) (p : Pass) : p.finishIn state gone = (p, false) := by
  cases state <;> first | exact absurd rfl hw | rfl | cases h

/-- A connection that is over is removed. -/
theorem finishIn_over {state : TcpSocketState} {p : Pass} (h : state.isOver = true)
    (hest : p.st.established = true) (gone : Bool) :
    (p.finishIn state gone).2 = true ∧ (p.finishIn state gone).1.events =
      p.events ++ [.removed true gone p.socket.received p.st.delivered] := by
  cases state with
  | closed => simp [finishIn, TcpSocketState.isOver, hest]
  | timeWait => simp [finishIn, TcpSocketState.isOver, clearPending, hest]
  | _ => cases h

theorem finishIn_frame {state : TcpSocketState} {gone : Bool} {p : Pass}
    (h : (p.finishIn state gone).2 = false) (ht : state = .timeWait → p.st.established = true) :
    Frame p (p.finishIn state gone).1 := by
  cases hover : state.isOver with
  | false =>
    by_cases hw : state = .closeWait
    · rw [hw, finishIn_closeWait]
      exact close_frame gone p
    · rw [finishIn_open hover hw]
      exact .refl p
  | true =>
    cases hest : p.st.established with
    | true =>
      rw [(finishIn_over hover hest gone).1] at h
      cases h
    | false =>
      have hne : state ≠ .timeWait := fun he => by rw [ht he] at hest; cases hest
      cases state with
      | closed => simpa [finishIn, TcpSocketState.isOver, hest] using Frame.refl p
      | timeWait => exact absurd rfl hne
      | _ => cases hover

/-- The steps before the end of the pass only ever close the socket, with nothing
pending. -/
theorem delivered_state (tier : Tier) (gone : Bool) (n : Nat) (p : Pass) :
    (p.delivered tier gone n).socket.state = p.socket.state ∨
      ((p.delivered tier gone n).socket.state = p.socket.state.close ∧
        (p.delivered tier gone n).st.pending = []) := by
  have hupload : (p.upload n).socket.state = p.socket.state := by rw [(upload_kept n p).2.1]
  rw [delivered, (deliver_spec ..).state, (deliver_spec ..).frame.pending, ← hupload]
  unfold closeHalf
  split
  · rename_i hempty
    rw [Bool.and_eq_true, List.isEmpty_iff] at hempty
    exact .inr ⟨rfl, hempty.2⟩
  · exact .inl rfl

/-- A connection that stays in the table has lost no byte in the pass. -/
theorem run_frame {tier : Tier} {gone : Bool} {n : Nat} {p : Pass}
    (hp : p.socket.state.isOver = true → p.st.established = true)
    (h : (p.run tier gone n).2 = false) : Frame (p.upload n) (p.run tier gone n).1 := by
  have hstate := delivered_state tier gone n p
  have hframe := delivered_frame tier gone n p
  have hupload : (p.upload n).st.established = p.st.established := by rw [(upload_kept n p).1]
  rw [run_eq] at h ⊢
  generalize p.delivered tier gone n = q at h hstate hframe ⊢
  have htimeWait (state : TcpSocketState) (hs : state = q.socket.state ∨ state = q.socket.state.close)
      (ht : state = .timeWait) : q.st.established = true := by
    rw [hframe.established, hupload]
    apply hp
    have hq : q.socket.state = .timeWait := by
      rcases hs with hs | hs
      · rw [← hs, ht]
      · exact close_eq_timeWait (hs.symm.trans ht)
    rcases hstate with hs | ⟨hs, -⟩
    · rw [← hs, hq]
      rfl
    · rw [close_eq_timeWait (hs.symm.trans hq)]
      rfl
  unfold finish at h ⊢
  cases gone with
  | false => exact hframe.trans (finishIn_frame h (htimeWait _ (.inl rfl)))
  | true => exact hframe.trans ((close_frame true q).trans (finishIn_frame h (htimeWait _ (.inr rfl))))

/-- The bytes accepted and pending are the same before and after an upload. -/
theorem upload_bytes (n : Nat) (p : Pass) :
    (p.upload n).socket.accepted ++ (p.upload n).st.pending = p.socket.accepted ++ p.st.pending := by
  unfold upload
  split
  · show (p.socket.accepted ++ p.st.pending.take n) ++ p.st.pending.drop n = _
    rw [List.append_assoc, List.take_append_drop]
  · rfl

theorem upload_length (n : Nat) (p : Pass) : (p.upload n).st.pending.length ≤ p.st.pending.length := by
  unfold upload
  split
  · show (p.st.pending.drop n).length ≤ _
    rw [List.length_drop]
    omega
  · exact Nat.le_refl _

/-! ### Received bytes -/

/-- What was received is delivered or still to be read, and a socket past the handshake
stays there. -/
structure Carries (p q : Pass) : Prop where
  established : q.st.established = p.st.established
  received : q.socket.received = p.socket.received
  bytes : q.st.delivered ++ (q.socket.rx.map Subtype.val).flatten =
    p.st.delivered ++ (p.socket.rx.map Subtype.val).flatten
  opening : q.socket.state.opening = true → p.socket.state.opening = true

theorem Carries.refl (p : Pass) : Carries p p := ⟨rfl, rfl, rfl, fun h => h⟩

theorem Carries.trans {p q r : Pass} (h : Carries p q) (h' : Carries q r) : Carries p r :=
  ⟨h'.established.trans h.established, h'.received.trans h.received, h'.bytes.trans h.bytes,
    fun ho => h.opening (h'.opening ho)⟩

theorem upload_carries (n : Nat) (p : Pass) : Carries p (p.upload n) := by
  unfold upload
  split <;> exact ⟨rfl, rfl, rfl, fun h => h⟩

theorem close_carries (gone : Bool) (p : Pass) : Carries p (p.close gone) := by
  refine ⟨rfl, rfl, rfl, fun h => ?_⟩
  have hclosed : (p.close gone).socket.state.opening = false := opening_close p.socket.state
  rw [hclosed] at h
  cases h

theorem closeHalf_carries (gone : Bool) (p : Pass) : Carries p (p.closeHalf gone) := by
  unfold closeHalf
  split
  · exact close_carries gone p
  · exact .refl p

theorem Delivered.carries {p q : Pass} (h : Delivered p q) : Carries p q :=
  ⟨h.frame.established, h.frame.received, h.bytes, fun ho => by rw [← h.state]; exact ho⟩

theorem delivered_carries (tier : Tier) (gone : Bool) (n : Nat) (p : Pass) :
    Carries p (p.delivered tier gone n) :=
  (upload_carries n p).trans ((closeHalf_carries gone _).trans (deliver_spec ..).carries)

theorem finishIn_carries (state : TcpSocketState) (gone : Bool) (p : Pass) :
    Carries p (p.finishIn state gone).1 := by
  have hclosed : Carries p (if state == .closeWait then p.close gone else p) := by
    split
    · exact close_carries gone p
    · exact .refl p
  refine hclosed.trans ?_
  unfold finishIn
  dsimp only
  generalize (if state == .closeWait then p.close gone else p) = q
  split <;> split <;> exact ⟨rfl, rfl, rfl, fun h => h⟩

theorem run_carries (tier : Tier) (gone : Bool) (n : Nat) (p : Pass) : Carries p (p.run tier gone n).1 := by
  rw [run_eq]
  refine (delivered_carries tier gone n p).trans ?_
  unfold finish
  cases gone with
  | false => exact finishIn_carries _ false _
  | true => exact (close_carries true _).trans (finishIn_carries _ true _)

end Pass

end Aether.Netstack
