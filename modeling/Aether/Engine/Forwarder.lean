import Aether.Rust.Net
import Aether.Machine.Run

/-! The datagram forwarder between the two tunnels of warp-in-warp.

The inner tunnel sends to a socket on loopback. One task passes what arrives there to the
inner edge through the outer tunnel and remembers the sender; the other sends what the
outer stack receives to the sender remembered. They share the remembered peer through a
lock and run independently, so that a run is any order of their steps. Taking a datagram
and storing its sender is one step, and so is receiving from the stack and reading the
peer: nothing can be seen between the two halves.

Unlike the SOCKS relay the forwarder is not latched. It belongs to the inner tunnel's
socket, the first sender, exactly as long as nobody else sends to it
(`belongs_iff_undisturbed`). -/
namespace Aether.Engine.Forwarder
open Machine
open Rust (SocketAddr)

abbrev Bytes := List UInt8

/-- A datagram of the loopback socket. -/
structure Local where
  source : SocketAddr
  data : Bytes
  deriving DecidableEq

/-- A datagram of the outer stack on its way to a local socket. -/
structure Delivery where
  src : SocketAddr
  data : Bytes
  dst : SocketAddr
  deriving DecidableEq

/-- A datagram of the outer stack for which no peer was remembered. -/
structure Dropped where
  src : SocketAddr
  data : Bytes
  /-- A datagram had arrived at the loopback socket before. -/
  senderSeen : Bool
  deriving DecidableEq

structure State where
  /-- `inner_peer` -/
  innerPeer : Option SocketAddr := none
  /-- The up task is in its loop, and what it is about to send. -/
  upAlive : Bool := true
  upHeld : Option Local := none
  /-- The down task is in its loop, and what it is about to send. -/
  downAlive : Bool := true
  downHeld : Option Delivery := none
  passed : List Local := []
  delivered : List Delivery := []
  dropped : List Dropped := []
  /-- The sender of the first datagram. -/
  first : Option SocketAddr := none
  deriving DecidableEq

inductive Action where
  /-- `up_sock.recv_from` and the assignment of the peer. -/
  | arrive (source : SocketAddr) (data : Bytes)
  | arriveFailed
  /-- `udp_tx.send_to(remote, …)` -/
  | pass (ok : Bool)
  /-- `udp_rx.recv` and the reading of the peer. -/
  | receive (src : SocketAddr) (data : Bytes)
  | receiveClosed
  /-- `down_sock.send_to(&data, dst)` -/
  | deliver

/-- The up task takes the next datagram. -/
def upReady (s : State) : Bool := s.upAlive && s.upHeld.isNone

/-- The down task takes the next datagram. -/
def downReady (s : State) : Bool := s.downAlive && s.downHeld.isNone

def next : Action → State → State
  | .arrive source data, s =>
    if upReady s then
      {s with innerPeer := some source, upHeld := some {source, data}, first := s.first.or (some source)}
    else s
  | .arriveFailed, s => if upReady s then {s with upAlive := false} else s
  | .pass ok, s =>
    match s.upHeld with
    | none => s
    | some d =>
      if ok then {s with upHeld := none, passed := s.passed ++ [d]}
      else {s with upHeld := none, upAlive := false}
  | .receive src data, s =>
    if downReady s then
      match s.innerPeer with
      | some dst => {s with downHeld := some {src, data, dst}}
      | none => {s with dropped := s.dropped ++ [{src, data, senderSeen := s.first.isSome}]}
    else s
  | .receiveClosed, s => if downReady s then {s with downAlive := false} else s
  | .deliver, s =>
    match s.downHeld with
    | none => s
    | some d => {s with downHeld := none, delivered := s.delivered ++ [d]}

/-! ### Whose forwarder it is -/

/-- Only the first sender is passed on; what the inner edge sends goes to it and to nobody
else, and is dropped only before there is one; and it is where replies go. -/
structure Belongs (remote : SocketAddr) (s : State) : Prop where
  passed : ∀ d ∈ s.passed, s.first = some d.source
  delivered : ∀ d ∈ s.delivered, d.src = remote → s.first = some d.dst
  leaving : ∀ d ∈ s.downHeld, d.src = remote → s.first = some d.dst
  dropped : ∀ d ∈ s.dropped, d.src = remote → d.senderSeen = false
  replies : s.innerPeer = s.first

/-- A datagram that is taken comes from the first sender. -/
def Undisturbed : Action → State → Prop
  | .arrive source _, s => upReady s = true → s.first = none ∨ s.first = some source
  | _, _ => True

/-- What the up task is about to send came from the peer it has just remembered. -/
def Remembered (s : State) : Prop := ∀ d ∈ s.upHeld, s.innerPeer = some d.source

theorem remembered_next (a : Action) (s : State) (h : Remembered s) : Remembered (next a s) := by
  cases a with
  | arrive source data =>
    simp only [next]
    split_ifs
    · intro d hd
      rw [← Option.some.inj hd]
    · exact h
  | arriveFailed => simp only [next]; split_ifs <;> exact h
  | pass ok =>
    simp only [next]
    split
    · exact h
    · split_ifs <;> nofun
  | receive src data =>
    simp only [next]
    split_ifs
    · split <;> exact h
    · exact h
  | receiveClosed => simp only [next]; split_ifs <;> exact h
  | deliver => simp only [next]; split <;> exact h

/-- The first sender stays the first. -/
theorem belongs_arrive {remote : SocketAddr} {s : State} (hs : Belongs remote s) (source : SocketAddr)
    (data : Bytes) :
    Belongs remote (next (.arrive source data) s) ↔ Undisturbed (.arrive source data) s := by
  cases hready : upReady s with
  | false =>
    have hsame : next (.arrive source data) s = s := by simp only [next, hready, Bool.false_eq_true, if_false]
    rw [hsame]
    refine iff_of_true hs ?_
    intro h
    rw [hready] at h
    cases h
  | true =>
    have hnext : next (.arrive source data) s =
        {s with innerPeer := some source, upHeld := some {source, data}, first := s.first.or (some source)} := by
      simp only [next, hready, if_true]
    rw [hnext]
    constructor
    · intro hb _
      have hreplies : some source = s.first.or (some source) := hb.replies
      cases hfirst : s.first with
      | none => exact .inl rfl
      | some known =>
        rw [hfirst] at hreplies
        exact .inr hreplies.symm
    · intro hu
      have hfirst : s.first.or (some source) = some source := by
        rcases hu hready with h | h <;> rw [h] <;> rfl
      have hkept (a : SocketAddr) (ha : s.first = some a) : s.first.or (some source) = some a := by
        rw [ha]
        rfl
      exact {
        passed := fun d hd => hkept _ (hs.passed d hd)
        delivered := fun d hd hsrc => hkept _ (hs.delivered d hd hsrc)
        leaving := fun d hd hsrc => hkept _ (hs.leaving d hd hsrc)
        dropped := hs.dropped
        replies := hfirst.symm }

theorem belongs_pass {remote : SocketAddr} {s : State} (hr : Remembered s) (hs : Belongs remote s) (ok : Bool) :
    Belongs remote (next (.pass ok) s) := by
  simp only [next]
  split
  · exact hs
  · rename_i d hd
    split_ifs
    · refine ⟨?_, hs.delivered, hs.leaving, hs.dropped, hs.replies⟩
      intro e he
      rcases List.mem_append.mp he with he | he
      · exact hs.passed e he
      · rw [List.mem_singleton.mp he]
        exact hs.replies.symm.trans (hr d hd)
    · exact ⟨hs.passed, hs.delivered, hs.leaving, hs.dropped, hs.replies⟩

theorem belongs_receive {remote : SocketAddr} {s : State} (hs : Belongs remote s) (src : SocketAddr)
    (data : Bytes) : Belongs remote (next (.receive src data) s) := by
  simp only [next]
  split_ifs
  · split
    · rename_i dst hdst
      refine ⟨hs.passed, hs.delivered, ?_, hs.dropped, hs.replies⟩
      intro d hd _
      rw [← Option.some.inj hd]
      exact hs.replies.symm.trans hdst
    · rename_i hnone
      refine ⟨hs.passed, hs.delivered, hs.leaving, ?_, hs.replies⟩
      intro d hd hsrc
      rcases List.mem_append.mp hd with hd | hd
      · exact hs.dropped d hd hsrc
      · have hfirst : s.first = none := hs.replies.symm.trans hnone
        rw [List.mem_singleton.mp hd, hfirst]
        rfl
  · exact hs

theorem belongs_deliver {remote : SocketAddr} {s : State} (hs : Belongs remote s) :
    Belongs remote (next .deliver s) := by
  simp only [next]
  split
  · exact hs
  · rename_i d hd
    refine ⟨hs.passed, ?_, nofun, hs.dropped, hs.replies⟩
    intro e he hsrc
    rcases List.mem_append.mp he with he | he
    · exact hs.delivered e he hsrc
    · rw [List.mem_singleton.mp he] at hsrc ⊢
      exact hs.leaving d hd hsrc

theorem belongs_next {remote : SocketAddr} (a : Action) (s : State) (hr : Remembered s) (hs : Belongs remote s) :
    Belongs remote (next a s) ↔ Undisturbed a s := by
  cases a with
  | arrive source data => exact belongs_arrive hs source data
  | pass ok => exact iff_of_true (belongs_pass hr hs ok) trivial
  | receive src data => exact iff_of_true (belongs_receive hs src data) trivial
  | deliver => exact iff_of_true (belongs_deliver hs) trivial
  | arriveFailed | receiveClosed =>
    refine iff_of_true ?_ trivial
    simp only [next]
    split_ifs <;> exact ⟨hs.passed, hs.delivered, hs.leaving, hs.dropped, hs.replies⟩

theorem remembered_initial : Remembered {} := by
  intro d hd
  cases hd

theorem belongs_initial (remote : SocketAddr) : Belongs remote {} := ⟨nofun, nofun, nofun, nofun, rfl⟩

/-- **The forwarder belongs to the first sender exactly as long as nobody else sends to
it**: in every state of a run only its datagrams were passed on and only it was replied
to, if and only if every datagram taken from the loopback socket is its own. -/
theorem belongs_iff_undisturbed (remote : SocketAddr) (as : List Action) :
    (∀ s ∈ visited next {} as, Belongs remote s) ↔ Along next Undisturbed {} as :=
  visited_iff_along remembered_next belongs_next remembered_initial (belongs_initial remote) as

/-- The inner tunnel's socket and another process on loopback, and the inner edge. -/
def innerSocket : SocketAddr := .v4 (Rust.ipv4 127 0 0 1) 40000
def otherSocket : SocketAddr := .v4 (Rust.ipv4 127 0 0 1) 50000
def innerEdge : SocketAddr := .v4 (Rust.ipv4 162 159 192 1) 2408

/-- The inner tunnel sends, another process sends one datagram, and the edge answers. -/
def stray : List Action :=
  [.arrive innerSocket [1], .pass true, .arrive otherSocket [2], .pass true, .receive innerEdge [3], .deliver]

/-- The other process's datagram is passed to the edge, and the answer to the inner tunnel
is sent to the other process. -/
theorem stray_diverts : (run next {} stray).passed = [⟨innerSocket, [1]⟩, ⟨otherSocket, [2]⟩] ∧
    (run next {} stray).delivered = [⟨innerEdge, [3], otherSocket⟩] ∧
    ¬ ∀ s ∈ visited next {} stray, Belongs innerEdge s := by
  refine ⟨by decide, by decide, fun h => ?_⟩
  have hend := (h _ (run_visited next {} stray)).replies
  exact absurd hend (by decide)

end Aether.Engine.Forwarder
