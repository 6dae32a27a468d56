import Aether.Quic.RecvRun
import Aether.Quic.Sending

/-! A stream, from the application that writes it to the one that reads it.

The network loses, repeats and reorders the frames in both directions; the sender takes a frame
for lost whenever it likes. Still what is read is what was written (`stream_integrity`), no byte
is forgotten (`stream_settled`), and from wherever a run has come the rest of the stream arrives
once the network does what it should (`stream_recovers`). -/
namespace Aether.Quic
open Machine (run)

/-- A STREAM frame. -/
structure StreamFrame where
  off : Nat
  data : List UInt8
  fin : Bool

inductive StreamEvent where
  | write (data : List UInt8) (fin : Bool)
  | emit (room : Nat)
  | deliver (i : Nat)
  | acknowledge (i : Nat)
  | lose (i : Nat)
  | raise (now rtt : Nat)
  | grant (i : Nat)
  | read (cap : Nat)
  | discard (cap : Nat)

/-- Both ends of a stream, and what is and was between them: frames and limits that were sent stay
there and arrive any number of times or never. The sender is nothing after a panic. -/
structure Stream where
  written : List UInt8
  sender : Option SendBuf
  frames : List StreamFrame
  delivered : List Nat
  acked : List Nat
  lost : List Nat
  limits : List Nat
  receiver : Receiver

namespace Stream

def new (maxData initialWindow maxWindow : Nat) : Stream where
  written := []
  sender := some (.new maxData)
  frames := []
  delivered := []
  acked := []
  lost := []
  limits := []
  receiver := .new maxData initialWindow maxWindow

def afterWrite (data : List UInt8) (s : Stream) : Except Error (SendBuf × Nat) → Stream
  | .ok (sender, n) => {s with sender := some sender, written := s.written ++ data.take n}
  | .error _ => s

/-- The limit is sent as it is then. -/
def afterRaise (s : Stream) (receiver : Receiver) : Stream :=
  {s with receiver, limits := s.limits ++ (receiver.recv.map RecvBuf.maxData).toList}

def deliver (i : Nat) (s : Stream) (f : StreamFrame) : Stream :=
  {s with receiver := s.receiver.next (.frame f.off f.data f.fin), delivered := i :: s.delivered}

/-- Only what was delivered is acknowledged. -/
def acknowledge (i : Nat) (sender : SendBuf) (s : Stream) (f : StreamFrame) : Stream :=
  if i ∈ s.delivered then
    {s with sender := (sender.ackAndDrop f.off f.data.length).map (·.1), acked := i :: s.acked}
  else s

def lose (i : Nat) (sender : SendBuf) (s : Stream) (f : StreamFrame) : Stream :=
  {s with sender := (sender.retransmit f.off f.data.length).map (·.1), lost := i :: s.lost}

def emit (room : Nat) (sender : SendBuf) (s : Stream) : Stream :=
  let emitted := sender.emit room
  {s with sender := some emitted.1, frames := s.frames ++ [⟨sender.offFront, emitted.2.1, emitted.2.2⟩]}

def grant (sender : SendBuf) (s : Stream) (limit : Nat) : Stream := {s with sender := some (sender.updateMaxData limit)}

def receive (action : RecvAction) (s : Stream) : Stream := {s with receiver := s.receiver.next action}

def act (event : StreamEvent) (sender : SendBuf) (s : Stream) : Stream :=
  match event with
  | .write data fin => s.afterWrite data (sender.write data fin)
  | .emit room => s.emit room sender
  | .deliver i => (s.frames[i]?).elim s (s.deliver i)
  | .acknowledge i => (s.frames[i]?).elim s (s.acknowledge i sender)
  | .lose i => (s.frames[i]?).elim s (s.lose i sender)
  | .raise now rtt => s.afterRaise (s.receiver.next (.update now rtt))
  | .grant i => (s.limits[i]?).elim s (s.grant sender)
  | .read cap => s.receive (.read cap)
  | .discard cap => s.receive (.discard cap)

def next (event : StreamEvent) (s : Stream) : Stream :=
  match s.sender with
  | some sender => s.act event sender
  | none => s

/-! ### What every run keeps -/

/-- The offset was in a frame that was acknowledged. -/
def ackedSet (s : Stream) : Set Nat :=
  {x | ∃ i ∈ s.acked, ∃ f, s.frames[i]? = some f ∧ f.off ≤ x ∧ x < f.off + f.data.length}

/-- The frame carries what was written, and ends the stream where the sender does. -/
structure Carried (written : List UInt8) (finOff : Option Nat) (f : StreamFrame) : Prop where
  data : f.data <+: written.drop f.off
  inside : f.off + f.data.length ≤ written.length
  fin : f.fin = true → f.off + f.data.length = written.length ∧ finOff = some written.length

structure Kept (s : Stream) (sender : SendBuf) (r : RecvBuf) : Prop where
  sender_eq : s.sender = some sender
  sound : SendBuf.Sound s.written s.ackedSet sender
  frames : ∀ f ∈ s.frames, Carried s.written sender.finOff f
  acked : ∀ i ∈ s.acked, i ∈ s.delivered
  delivered : ∀ i ∈ s.delivered, i < s.frames.length
  lost : ∀ i ∈ s.lost, i < s.frames.length
  seen : Seen s.written s.receiver r
  unclosed : s.receiver.closed = false
  arrived : ∃ actions, Arrived actions r ∧ ∀ off data fin,
    RecvAction.frame off data fin ∈ actions ↔ ∃ i ∈ s.delivered, s.frames[i]? = some ⟨off, data, fin⟩
  limit : sender.maxData ≤ r.maxData
  limits : ∀ m ∈ s.limits, m ≤ r.maxData
  /-- What was sent was acknowledged, or is in a frame that was not given up. -/
  tracked : ∀ x, sender.Sent x → x ∈ s.ackedSet ∨
    ∃ i f, i ∉ s.lost ∧ s.frames[i]? = some f ∧ f.off ≤ x ∧ x < f.off + f.data.length

section Steps
variable {s : Stream} {sender : SendBuf} {r : RecvBuf}

theorem Carried.mono {written more : List UInt8} {finOff : Option Nat} {f : StreamFrame} (h : Carried written finOff f)
    (hend : ∀ e ∈ finOff, more = []) (finOff' : Option Nat) (hfin : ∀ e ∈ finOff, finOff' = some e) :
    Carried (written ++ more) finOff' f := by
  refine ⟨h.data.trans ((List.prefix_append written more).drop f.off), ?_, ?_⟩
  · rw [List.length_append]
    exact Nat.le_add_right_of_le h.inside
  · intro hf
    obtain ⟨he, hsome⟩ := h.fin hf
    rw [hend _ hsome, List.append_nil]
    exact ⟨he, hfin _ hsome⟩

theorem Kept.next_eq (h : Kept s sender r) (event : StreamEvent) : s.next event = s.act event sender := by
  rw [next, h.sender_eq]

/-- A frame that was sent is accepted. -/
theorem Kept.accepts (h : Kept s sender r) {f : StreamFrame} (hf : f ∈ s.frames) :
    (s.receiver.next (.frame f.off f.data f.fin)).closed = false := by
  obtain ⟨actions, harrived, hactions⟩ := h.arrived
  have hcarried := h.frames f hf
  have hmax : (RangeBuf.fromRaw f.data f.off f.fin).maxOff = f.off + f.data.length :=
    (RangeBuf.carries_fromRaw hcarried.data).maxOff_eq
  have hknown {off : Nat} {data : List UInt8} {fin : Bool} (hmem : RecvAction.frame off data fin ∈ actions) :
      Carried s.written sender.finOff ⟨off, data, fin⟩ := by
    obtain ⟨i, _, hget⟩ := (hactions off data fin).mp hmem
    exact h.frames _ (List.mem_of_getElem? hget)
  have hroom := h.sound.room
  have hwhole := h.sound.whole
  have hlimit := h.limit
  have hinside := hcarried.inside
  have haccepts (e : Error) : r.write (RangeBuf.fromRaw f.data f.off f.fin) ≠ some (.error e) := by
    apply RecvBuf.write_accepts
    · rw [hmax]
      omega
    · intro g hg
      obtain ⟨off, data, hmem, rfl⟩ := harrived.told g hg
      have hend := ((hknown hmem).fin rfl).1
      rw [hmax, hend]
      exact ⟨hinside, fun hfin => (hcarried.fin hfin).1.symm⟩
    · intro hfin
      rw [hmax, (hcarried.fin hfin).1]
      rcases harrived.reached with hzero | ⟨off, data, fin, hmem, hle⟩
      · omega
      · exact hle.trans (hknown hmem).inside
  rw [Receiver.next, h.seen.recv]
  show (if s.receiver.closed then s.receiver else
    s.receiver.afterWrite (r.write (RangeBuf.fromRaw f.data f.off f.fin))).closed = false
  rw [h.unclosed, if_neg Bool.false_ne_true]
  cases hwrite : r.write (RangeBuf.fromRaw f.data f.off f.fin) with
  | none => exact h.unclosed
  | some result =>
    cases result with
    | error e => exact absurd hwrite (haccepts e)
    | ok r' => exact h.unclosed

theorem Kept.ackOff_le (h : Kept s sender r) : sender.ackOff ≤ sender.off := by
  by_contra hlt
  obtain ⟨i, _, f, hf, _, hhigh⟩ := h.sound.of_lt_ackOff (show sender.off < sender.ackOff by omega)
  have := (h.frames f (List.mem_of_getElem? hf)).inside
  have := h.sound.whole
  omega

/-- The receiver knows the end only where the sender does. -/
theorem Kept.fin_none (h : Kept s sender r) (hfin : sender.finOff = none) : r.finOff = none := by
  obtain ⟨actions, harrived, hactions⟩ := h.arrived
  cases hr : r.finOff with
  | none => rfl
  | some g =>
    obtain ⟨off, data, hmem, _⟩ := harrived.told g hr
    obtain ⟨i, _, hget⟩ := (hactions off data true).mp hmem
    have := ((h.frames _ (List.mem_of_getElem? hget)).fin rfl).2
    rw [hfin] at this
    cases this

theorem Kept.write (h : Kept s sender r) (data : List UInt8) (fin : Bool) :
    ∃ sender' r', Kept (s.afterWrite data (sender.write data fin)) sender' r' := by
  cases hwrite : sender.write data fin with
  | error e => exact ⟨sender, r, h⟩
  | ok result =>
    obtain ⟨sender', n⟩ := result
    have hw := SendBuf.write_spec h.sound h.ackOff_le hwrite
    refine ⟨sender', r, rfl, hw.sound, ?_, h.acked, h.delivered, h.lost, ?_, h.unclosed, h.arrived, ?_, h.limits,
      fun x hx => h.tracked x (hw.sent x hx)⟩
    · intro f hf
      refine (h.frames f hf).mono ?_ _ (fun e he => (hw.ended e he).2)
      intro e he
      rw [(hw.ended e he).1, List.take_zero]
    · show Seen (s.written ++ data.take n) s.receiver r
      cases hfin : sender.finOff with
      | none => exact h.seen.mono (h.fin_none hfin) _
      | some e =>
        rw [(hw.ended e hfin).1, List.take_zero, List.append_nil]
        exact h.seen
    · rw [hw.maxData]
      exact h.limit

theorem Kept.emit (h : Kept s sender r) (room : Nat) : ∃ sender' r', Kept (s.emit room sender) sender' r' := by
  obtain ⟨hemitted, hfin, _⟩ := SendBuf.emit_spec h.sound room
  have hwhole := h.sound.whole
  have hinside := hemitted.inside
  obtain ⟨f, hf⟩ : ∃ f : StreamFrame, f = ⟨sender.offFront, (sender.emit room).2.1, (sender.emit room).2.2⟩ := ⟨_, rfl⟩
  have hact : s.emit room sender = {s with sender := some (sender.emit room).1, frames := s.frames ++ [f]} := by
    rw [hf]
    rfl
  have hold {i : Nat} {g : StreamFrame} (hg : s.frames[i]? = some g) : (s.frames ++ [f])[i]? = some g := by
    obtain ⟨hlt, _⟩ := List.getElem?_eq_some_iff.mp hg
    rw [List.getElem?_append_left hlt, hg]
  have hlength : (s.frames ++ [f]).length = s.frames.length + 1 := by rw [List.length_append]; rfl
  have hacked : s.ackedSet ⊆ (s.emit room sender).ackedSet := by
    rw [hact]
    intro x hx
    obtain ⟨i, hi, g, hg, hgx⟩ := hx
    exact ⟨i, hi, g, hold hg, hgx⟩
  rw [hact] at hacked ⊢
  refine ⟨(sender.emit room).1, r, rfl, hemitted.sound.mono hacked, ?_, h.acked, ?_, ?_, h.seen, h.unclosed, ?_, ?_,
    h.limits, ?_⟩
  · intro g hg
    show Carried s.written (sender.emit room).1.finOff g
    rw [hemitted.same.finOff]
    rcases List.mem_append.mp hg with hg | hg
    · exact h.frames g hg
    · rw [List.mem_singleton.mp hg, hf]
      refine ⟨?_, ?_, ?_⟩
      · show (sender.emit room).2.1 <+: s.written.drop sender.offFront
        rw [hemitted.got_eq]
        exact List.take_prefix _ _
      · show sender.offFront + (sender.emit room).2.1.length ≤ s.written.length
        omega
      · intro hend
        obtain ⟨hsome, he⟩ := hfin hend
        show sender.offFront + (sender.emit room).2.1.length = s.written.length ∧ sender.finOff = some s.written.length
        rw [hsome, ← hwhole]
        exact ⟨he, rfl⟩
  · intro i hi
    have := h.delivered i hi
    show i < (s.frames ++ [f]).length
    omega
  · intro i hi
    have := h.lost i hi
    show i < (s.frames ++ [f]).length
    omega
  · obtain ⟨actions, harrived, hactions⟩ := h.arrived
    refine ⟨actions, harrived, ?_⟩
    intro off data fin
    rw [hactions]
    apply exists_congr
    intro i
    apply and_congr_right
    intro hi
    show _ ↔ (s.frames ++ [f])[i]? = _
    rw [List.getElem?_append_left (h.delivered i hi)]
  · show (sender.emit room).1.maxData ≤ r.maxData
    rw [hemitted.same.maxData]
    exact h.limit
  · intro x hx
    rcases hemitted.sent x hx with hsent | hnew
    · rcases h.tracked x hsent with hack | ⟨i, g, hi, hg, hgx⟩
      · exact .inl (hacked hack)
      · exact .inr ⟨i, g, hi, hold hg, hgx⟩
    · refine .inr ⟨s.frames.length, f, fun hlost => absurd (h.lost _ hlost) (Nat.lt_irrefl _), ?_, ?_⟩
      · show (s.frames ++ [f])[s.frames.length]? = some f
        rw [List.getElem?_append_right (Nat.le_refl _), Nat.sub_self]
        rfl
      · rw [hf]
        exact hnew

theorem Kept.deliver (h : Kept s sender r) {i : Nat} {f : StreamFrame} (hf : s.frames[i]? = some f) :
    ∃ r', Kept (s.deliver i f) sender r' := by
  obtain ⟨actions, harrived, hactions⟩ := h.arrived
  have hmem := List.mem_of_getElem? hf
  have hcarried := h.frames f hmem
  have hfaithful : (RecvAction.frame f.off f.data f.fin).Faithful s.written :=
    ⟨hcarried.data, fun hfin => (hcarried.fin hfin).1⟩
  have hopen := h.accepts hmem
  obtain ⟨r', hseen, harrived', hmax⟩ := harrived.next h.seen hfaithful rfl hopen
  refine ⟨r', h.sender_eq, h.sound, h.frames, ?_, ?_, h.lost, hseen, hopen, ⟨_, harrived', ?_⟩, h.limit.trans hmax,
    ?_, h.tracked⟩
  · exact fun j hj => List.mem_cons_of_mem _ (h.acked j hj)
  · intro j hj
    rcases List.mem_cons.mp hj with rfl | hj
    · exact (List.getElem?_eq_some_iff.mp hf).1
    · exact h.delivered j hj
  · intro off data fin
    rw [List.mem_append, hactions, List.mem_singleton]
    apply Iff.intro
    · intro hx
      rcases hx with ⟨j, hj, hget⟩ | hx
      · exact ⟨j, List.mem_cons_of_mem _ hj, hget⟩
      · obtain ⟨rfl, rfl, rfl⟩ := RecvAction.frame.inj hx
        exact ⟨i, List.mem_cons_self .., hf⟩
    · intro hx
      obtain ⟨j, hj, hget⟩ := hx
      rcases List.mem_cons.mp hj with rfl | hj
      · obtain rfl : f = ⟨off, data, fin⟩ := Option.some.inj (hf.symm.trans hget)
        exact .inr rfl
      · exact .inl ⟨j, hj, hget⟩
  · exact fun m hm => (h.limits m hm).trans hmax

theorem Kept.acknowledge (h : Kept s sender r) {i : Nat} {f : StreamFrame} (hf : s.frames[i]? = some f) :
    ∃ sender', Kept (s.acknowledge i sender f) sender' r := by
  rw [Stream.acknowledge]
  by_cases hi : i ∈ s.delivered
  swap
  · rw [if_neg hi]
    exact ⟨sender, h⟩
  rw [if_pos hi]
  obtain ⟨sender', n, hack, hsound, hsame, hsent⟩ := SendBuf.ackAndDrop_spec h.sound f.off f.data.length
  have hmore : s.ackedSet ⊆ ackedSet {s with acked := i :: s.acked} := by
    intro x hx
    obtain ⟨j, hj, g, hg, hgx⟩ := hx
    exact ⟨j, List.mem_cons_of_mem _ hj, g, hg, hgx⟩
  have hset : SendBuf.withAcked s.ackedSet f.off f.data.length ⊆ ackedSet {s with acked := i :: s.acked} := by
    intro x hx
    rcases hx with hx | hx
    · exact hmore hx
    · exact ⟨i, List.mem_cons_self .., f, hf, hx⟩
  rw [hack]
  refine ⟨sender', rfl, hsound.mono hset, ?_, ?_, h.delivered, h.lost, h.seen, h.unclosed, h.arrived, ?_, h.limits, ?_⟩
  · rw [hsame.finOff]
    exact h.frames
  · intro j hj
    rcases List.mem_cons.mp hj with rfl | hj
    · exact hi
    · exact h.acked j hj
  · rw [hsame.maxData]
    exact h.limit
  · intro x hx
    exact (h.tracked x (hsent x hx)).imp_left (fun hx => hmore hx)

theorem Kept.lose (h : Kept s sender r) {i : Nat} {f : StreamFrame} (hf : s.frames[i]? = some f) :
    ∃ sender', Kept (s.lose i sender f) sender' r := by
  obtain ⟨sender', n, hlose, hsound, hsame, hsent⟩ := SendBuf.retransmit_spec h.sound f.off f.data.length
  rw [Stream.lose, hlose]
  refine ⟨sender', rfl, hsound, ?_, h.acked, h.delivered, ?_, h.seen, h.unclosed, h.arrived, ?_, h.limits, ?_⟩
  · rw [hsame.finOff]
    exact h.frames
  · intro j hj
    rcases List.mem_cons.mp hj with rfl | hj
    · exact (List.getElem?_eq_some_iff.mp hf).1
    · exact h.lost j hj
  · rw [hsame.maxData]
    exact h.limit
  · intro x hx
    obtain ⟨hold, hack⟩ := hsent x hx
    rcases h.tracked x hold with hx | ⟨j, g, hj, hg, hlow, hhigh⟩
    · exact .inl hx
    · by_cases hij : j = i
      · rw [hij, hf] at hg
        obtain rfl := Option.some.inj hg
        exact .inl (hack hlow hhigh)
      · refine .inr ⟨j, g, ?_, hg, hlow, hhigh⟩
        intro hmem
        rcases List.mem_cons.mp hmem with he | hmem
        · exact hij he
        · exact hj hmem

theorem Kept.receive (h : Kept s sender r) {action : RecvAction} (hfaithful : action.Faithful s.written)
    (hkeeps : action.Keeps = true) (hnot : ∀ off data fin, action ≠ .frame off data fin) :
    ∃ r', Kept (s.receive action) sender r' ∧ r.maxData ≤ r'.maxData := by
  obtain ⟨actions, harrived, hactions⟩ := h.arrived
  have hopen := Receiver.open_next h.unclosed hkeeps hnot
  obtain ⟨r', hseen, harrived', hmax⟩ := harrived.next h.seen hfaithful hkeeps hopen
  refine ⟨r', ⟨h.sender_eq, h.sound, h.frames, h.acked, h.delivered, h.lost, hseen, hopen, ⟨_, harrived', ?_⟩,
    h.limit.trans hmax, fun m hm => (h.limits m hm).trans hmax, h.tracked⟩, hmax⟩
  intro off data fin
  show _ ↔ ∃ i ∈ s.delivered, s.frames[i]? = some ⟨off, data, fin⟩
  rw [← hactions, List.mem_append, List.mem_singleton]
  exact or_iff_left (fun he => hnot off data fin he.symm)

theorem Kept.raise (h : Kept s sender r) (now rtt : Nat) :
    ∃ r', Kept (s.afterRaise (s.receiver.next (.update now rtt))) sender r' := by
  have hfaithful : (RecvAction.update now rtt).Faithful s.written := trivial
  obtain ⟨r', h', _⟩ := h.receive hfaithful rfl (fun _ _ _ he => by cases he)
  have hrecv : (s.receiver.next (.update now rtt)).recv = some r' := h'.seen.recv
  rw [afterRaise, hrecv]
  refine ⟨r', h'.sender_eq, h'.sound, h'.frames, h'.acked, h'.delivered, h'.lost, h'.seen, h'.unclosed,
    h'.arrived, h'.limit,
    ?_, h'.tracked⟩
  intro m hm
  rcases List.mem_append.mp hm with hm | hm
  · exact h'.limits m hm
  · rw [List.mem_singleton.mp hm]

theorem Kept.grant (h : Kept s sender r) {m : Nat} (hm : m ∈ s.limits) :
    Kept (s.grant sender m) (sender.updateMaxData m) r := by
  have hs := h.sound
  refine ⟨rfl, ⟨hs.chain, hs.pos_le, hs.sent, hs.buffered, ?_, hs.whole, hs.fin, hs.ranges, hs.acked⟩,
    h.frames, h.acked,
    h.delivered, h.lost, h.seen, h.unclosed, h.arrived, max_le h.limit (h.limits m hm), h.limits, h.tracked⟩
  exact hs.room.trans (Nat.le_max_left _ _)

theorem Kept.act (h : Kept s sender r) (event : StreamEvent) : ∃ sender' r', Kept (s.act event sender) sender' r' := by
  have hkeep (action : RecvAction) (hfaithful : action.Faithful s.written) (hkeeps : action.Keeps = true)
      (hnot : ∀ off data fin, action ≠ .frame off data fin) : ∃ sender' r', Kept (s.receive action) sender' r' := by
    obtain ⟨r', h', _⟩ := h.receive hfaithful hkeeps hnot
    exact ⟨sender, r', h'⟩
  cases event with
  | write data fin => exact h.write data fin
  | emit room => exact h.emit room
  | deliver i =>
    show ∃ sender' r', Kept ((s.frames[i]?).elim s (s.deliver i)) sender' r'
    cases hf : s.frames[i]? with
    | none => exact ⟨sender, r, h⟩
    | some f => exact ⟨sender, h.deliver hf⟩
  | acknowledge i =>
    show ∃ sender' r', Kept ((s.frames[i]?).elim s (s.acknowledge i sender)) sender' r'
    cases hf : s.frames[i]? with
    | none => exact ⟨sender, r, h⟩
    | some f =>
      obtain ⟨sender', h'⟩ := h.acknowledge hf
      exact ⟨sender', r, h'⟩
  | lose i =>
    show ∃ sender' r', Kept ((s.frames[i]?).elim s (s.lose i sender)) sender' r'
    cases hf : s.frames[i]? with
    | none => exact ⟨sender, r, h⟩
    | some f =>
      obtain ⟨sender', h'⟩ := h.lose hf
      exact ⟨sender', r, h'⟩
  | raise now rtt => exact ⟨sender, h.raise now rtt⟩
  | grant i =>
    show ∃ sender' r', Kept ((s.limits[i]?).elim s (s.grant sender)) sender' r'
    cases hm : s.limits[i]? with
    | none => exact ⟨sender, r, h⟩
    | some m => exact ⟨_, r, h.grant (List.mem_of_getElem? hm)⟩
  | read cap => exact hkeep (.read cap) trivial rfl (fun _ _ _ he => by cases he)
  | discard cap => exact hkeep (.discard cap) trivial rfl (fun _ _ _ he => by cases he)

theorem kept_new (maxData initialWindow maxWindow : Nat) :
    Kept (.new maxData initialWindow maxWindow) (.new maxData) (.new maxData initialWindow maxWindow) := by
  have hsound : SendBuf.Sound [] (ackedSet (.new maxData initialWindow maxWindow)) (.new maxData) := by
    refine ⟨⟨0, rfl, fun x hx => absurd hx (Nat.not_lt_zero x)⟩, Nat.le_refl 0, ?_, rfl, Nat.zero_le _, rfl,
      fun f hf => absurd hf (Option.not_mem_none f), ?_, ?_⟩
    · exact fun b hb => absurd hb List.not_mem_nil
    · exact RangeSet.sound_new _
    · exact fun x hx => absurd hx Intervals.not_covers_nil
  refine ⟨rfl, hsound, ?_, ?_, ?_, ?_, seen_new [] maxData initialWindow maxWindow, rfl,
    ⟨[], arrived_new maxData initialWindow maxWindow, ?_⟩, Nat.le_refl _, ?_, ?_⟩
  · exact fun f hf => absurd hf List.not_mem_nil
  · exact fun i hi => absurd hi List.not_mem_nil
  · exact fun i hi => absurd hi List.not_mem_nil
  · exact fun i hi => absurd hi List.not_mem_nil
  · intro off data fin
    apply Iff.intro
    · exact fun hmem => absurd hmem List.not_mem_nil
    · intro hx
      obtain ⟨i, hi, _⟩ := hx
      cases hi
  · exact fun m hm => absurd hm List.not_mem_nil
  · intro x hx
    obtain ⟨b, hb, _⟩ := hx
    cases hb

theorem run_kept (maxData initialWindow maxWindow : Nat) (events : List StreamEvent) :
    ∃ sender r, Kept (run next (.new maxData initialWindow maxWindow) events) sender r := by
  induction events using List.reverseRecOn with
  | nil => exact ⟨_, _, kept_new maxData initialWindow maxWindow⟩
  | append_singleton front event ih =>
    obtain ⟨sender, r, h⟩ := ih
    rw [Machine.run_append]
    show ∃ sender r, Kept (next event _) sender r
    rw [h.next_eq]
    exact h.act event

/-! ### What arrives -/

theorem Kept.has_delivered (h : Kept s sender r) {i : Nat} (hi : i ∈ s.delivered) {f : StreamFrame}
    (hf : s.frames[i]? = some f)
    {x : Nat} (hlow : f.off ≤ x) (hhigh : x < f.off + f.data.length) : r.Has x := by
  obtain ⟨actions, harrived, hactions⟩ := h.arrived
  exact harrived.has f.off f.data f.fin ((hactions f.off f.data f.fin).mpr ⟨i, hi, hf⟩) x hlow hhigh

theorem Kept.has_acked (h : Kept s sender r) {x : Nat} (hx : x ∈ s.ackedSet) : r.Has x := by
  obtain ⟨i, hi, f, hf, hlow, hhigh⟩ := hx
  exact h.has_delivered (h.acked i hi) hf hlow hhigh

/-- Once all that was written is there it can be read. -/
theorem Kept.reads (h : Kept s sender r) (hhas : ∀ x < s.written.length, r.Has x) :
    (s.next (.read s.written.length)).receiver.history.length = s.written.length := by
  obtain ⟨actions, harrived, _⟩ := h.arrived
  have hreads := h.seen.reads harrived.error harrived.drain hhas
  obtain ⟨sender', r', h'⟩ := h.act (.read s.written.length)
  obtain ⟨actions', harrived', hactions'⟩ := h'.arrived
  have hposition := h'.seen.position harrived'.error harrived'.drain
  rw [h.next_eq]
  refine Nat.le_antisymm ?_ hreads
  show (s.act (.read s.written.length) sender).receiver.history.length ≤
    (s.act (.read s.written.length) sender).written.length
  rw [hposition]
  have hoff : r'.off ≤ r'.len := by
    rcases h'.seen.sound with hsound | ⟨_, _, hne⟩
    · exact hsound.1.off_le
    · exact absurd harrived'.error hne
  rcases harrived'.reached with hzero | ⟨off, data, fin, hmem, hle⟩
  · omega
  · obtain ⟨i, _, hget⟩ := (hactions' off data fin).mp hmem
    have hinside : off + data.length ≤ _ := (h'.frames _ (List.mem_of_getElem? hget)).inside
    omega

/-- With nothing left to send and no frame under way, all has arrived. -/
theorem Kept.settles (h : Kept s sender r) (hframes : ∀ i < s.frames.length, i ∈ s.delivered ∨ i ∈ s.lost)
    (hsent : sender.bufferedBytes = 0) : ∀ x < s.written.length, r.Has x := by
  intro x hx
  obtain ⟨base, hchain, hbase⟩ := h.sound.chain
  by_cases hlow : x < base
  · exact h.has_acked (hbase x hlow)
  obtain ⟨b, hb, hboff, hbmax⟩ := hchain.find (not_lt.mp hlow) (by rw [h.sound.whole]; exact hx)
  have hlength : b.length = 0 := by
    have hpending := h.sound.buffered
    rw [hsent, SendBuf.pending] at hpending
    exact List.sum_eq_zero_iff.mp hpending.symm _ (List.mem_map_of_mem hb)
  have := b.length_eq
  have := b.offset_le_maxOff
  rcases h.tracked x ⟨b, hb, hboff, by omega⟩ with hack | ⟨i, f, hi, hf, hfx⟩
  · exact h.has_acked hack
  · have hdelivered := (hframes i (List.getElem?_eq_some_iff.mp hf).1).resolve_right hi
    exact h.has_delivered hdelivered hf hfx.1 hfx.2

/-- The sender takes a stream for complete only when all of it has arrived. -/
theorem Kept.completes (h : Kept s sender r) (hcomplete : sender.isComplete = true) :
    ∀ x < s.written.length, r.Has x := by
  rw [SendBuf.isComplete] at hcomplete
  cases hfin : sender.finOff with
  | none =>
    rw [hfin] at hcomplete
    cases hcomplete
  | some g =>
    rw [hfin, Option.any_some, beq_iff_eq] at hcomplete
    have hg := h.sound.fin g hfin
    have hwhole := h.sound.whole
    intro x hx
    apply h.has_acked
    apply h.sound.acked
    rw [hcomplete]
    exact ⟨(0, g), List.mem_singleton.mpr rfl, Nat.zero_le _, by show x < g; omega⟩

/-! ### Starting over -/

theorem Kept.lose_all (h : Kept s sender r) (is : List Nat) :
    ∃ sender' s', s' = run next s (is.map .lose) ∧ Kept s' sender' r ∧ s'.written = s.written ∧ s'.frames = s.frames ∧
      (∀ i ∈ s.lost, i ∈ s'.lost) ∧ ∀ i ∈ is, i < s.frames.length → i ∈ s'.lost := by
  induction is generalizing s sender with
  | nil => exact ⟨sender, s, rfl, h, rfl, rfl, fun _ hi => hi, fun _ hi => absurd hi List.not_mem_nil⟩
  | cons i is ih =>
    have hnext : run next s ((i :: is).map .lose) = run next (s.act (.lose i) sender) (is.map .lose) := by
      show run next (s.next (.lose i)) _ = _
      rw [h.next_eq]
    have hact : s.act (.lose i) sender = (s.frames[i]?).elim s (s.lose i sender) := rfl
    rw [hnext, hact]
    cases hf : s.frames[i]? with
    | none =>
      obtain ⟨sender', s', hs', h', hwritten, hframes, hlost, hmore⟩ := ih h
      refine ⟨sender', s', hs', h', hwritten, hframes, hlost, ?_⟩
      intro j hj hlt
      rcases List.mem_cons.mp hj with rfl | hj
      · rw [List.getElem?_eq_getElem hlt] at hf
        cases hf
      · exact hmore j hj hlt
    | some f =>
      obtain ⟨sender₁, h₁⟩ := h.lose hf
      obtain ⟨sender', s', hs', h', hwritten, hframes, hlost, hmore⟩ := ih h₁
      refine ⟨sender', s', hs', h', hwritten, hframes, fun j hj => hlost j (List.mem_cons_of_mem _ hj), ?_⟩
      intro j hj hlt
      rcases List.mem_cons.mp hj with rfl | hj
      · exact hlost _ (List.mem_cons_self ..)
      · exact hmore j hj hlt

/-- Each frame with room takes a byte, as long as there is one to send. -/
theorem Kept.emit_all (h : Kept s sender r) {rooms : List Nat} (hrooms : ∀ room ∈ rooms, room > 0)
    (hn : sender.bufferedBytes ≤ rooms.length) :
    ∃ sender' r' s', s' = run next s (rooms.map .emit) ∧ Kept s' sender' r' ∧ s'.written = s.written ∧
      s'.frames.length = s.frames.length + rooms.length ∧ (∀ i ∈ s.lost, i ∈ s'.lost) ∧
      sender'.bufferedBytes = 0 := by
  induction rooms generalizing s sender r with
  | nil => exact ⟨sender, r, s, rfl, h, rfl, rfl, fun _ hi => hi, Nat.le_zero.mp hn⟩
  | cons room rooms ih =>
    rw [List.length_cons] at hn
    have hroom : room > 0 := hrooms room (List.mem_cons_self ..)
    have hnext : run next s ((room :: rooms).map .emit) = run next (s.emit room sender) (rooms.map .emit) := by
      show run next (s.next (.emit room)) _ = _
      rw [h.next_eq]
      rfl
    obtain ⟨sender₁, r₁, h₁⟩ := h.emit room
    obtain ⟨hemitted, _, hgo⟩ := SendBuf.emit_spec h.sound room
    obtain rfl : (sender.emit room).1 = sender₁ := Option.some.inj h₁.sender_eq
    have hless : (sender.emit room).1.bufferedBytes ≤ rooms.length := by
      have hbuffered := hemitted.buffered
      by_cases hzero : sender.bufferedBytes = 0
      · omega
      · have := List.length_pos_iff.mpr (hgo hroom (Nat.pos_of_ne_zero hzero))
        omega
    obtain ⟨sender', r', s', hs', h', hwritten, hframes, hlost, hnone⟩ :=
      ih h₁ (fun room hmem => hrooms room (List.mem_cons_of_mem _ hmem)) hless
    refine ⟨sender', r', s', hs'.trans hnext.symm, h', hwritten, ?_, hlost, hnone⟩
    rw [hframes]
    show (s.frames ++ [_]).length + rooms.length = _
    rw [List.length_append, List.length_singleton, List.length_cons]
    omega

theorem Kept.deliver_all (h : Kept s sender r) (is : List Nat) :
    ∃ r' s', s' = run next s (is.map .deliver) ∧ Kept s' sender r' ∧ s'.written = s.written ∧ s'.frames = s.frames ∧
      s'.lost = s.lost ∧ (∀ i ∈ s.delivered, i ∈ s'.delivered) ∧ ∀ i ∈ is, i < s.frames.length → i ∈ s'.delivered := by
  induction is generalizing s r with
  | nil => exact ⟨r, s, rfl, h, rfl, rfl, rfl, fun _ hi => hi, fun _ hi => absurd hi List.not_mem_nil⟩
  | cons i is ih =>
    have hnext : run next s ((i :: is).map .deliver) = run next (s.act (.deliver i) sender) (is.map .deliver) := by
      show run next (s.next (.deliver i)) _ = _
      rw [h.next_eq]
    have hact : s.act (.deliver i) sender = (s.frames[i]?).elim s (s.deliver i) := rfl
    rw [hnext, hact]
    cases hf : s.frames[i]? with
    | none =>
      obtain ⟨r', s', hs', h', hwritten, hframes, hlost, hdelivered, hmore⟩ := ih h
      refine ⟨r', s', hs', h', hwritten, hframes, hlost, hdelivered, ?_⟩
      intro j hj hlt
      rcases List.mem_cons.mp hj with rfl | hj
      · rw [List.getElem?_eq_getElem hlt] at hf
        cases hf
      · exact hmore j hj hlt
    | some f =>
      obtain ⟨r₁, h₁⟩ := h.deliver hf
      obtain ⟨r', s', hs', h', hwritten, hframes, hlost, hdelivered, hmore⟩ := ih h₁
      refine ⟨r', s', hs', h', hwritten, hframes, hlost, fun j hj => hdelivered j (List.mem_cons_of_mem _ hj), ?_⟩
      intro j hj hlt
      rcases List.mem_cons.mp hj with rfl | hj
      · exact hdelivered _ (List.mem_cons_self ..)
      · exact hmore j hj hlt

/-- Every frame so far is given up, what is then to be sent is sent in frames with the room there
is for each, and only these arrive. -/
def startOver (rooms : List Nat) (s : Stream) : List StreamEvent :=
  (List.range s.frames.length).map .lose ++ (rooms.map .emit ++
    ((List.range' s.frames.length rooms.length).map .deliver ++ [.read s.written.length]))

theorem Kept.buffered_le (h : Kept s sender r) : sender.bufferedBytes ≤ s.written.length := by
  obtain ⟨base, hchain, _⟩ := h.sound.chain
  rw [h.sound.buffered, ← h.sound.whole]
  exact (SendBuf.pending_le hchain).trans (Nat.sub_le _ _)

theorem Kept.recovers (h : Kept s sender r) {rooms : List Nat} (hrooms : ∀ room ∈ rooms, room > 0)
    (hmany : s.written.length ≤ rooms.length) :
    (run next s (s.startOver rooms)).receiver.history.length = s.written.length := by
  obtain ⟨sender₁, s₁, hs₁, h₁, hwritten₁, hframes₁, _, hlost₁⟩ := h.lose_all (List.range s.frames.length)
  obtain ⟨sender₂, r₂, s₂, hs₂, h₂, hwritten₂, hframes₂, hlost₂, hnone⟩ :=
    h₁.emit_all hrooms ((hwritten₁ ▸ h₁.buffered_le : sender₁.bufferedBytes ≤ s.written.length).trans hmany)
  obtain ⟨r₃, s₃, hs₃, h₃, hwritten₃, hframes₃, hlost₃, _, hdelivered₃⟩ :=
    h₂.deliver_all (List.range' s.frames.length rooms.length)
  have hwritten : s₃.written = s.written := hwritten₃.trans (hwritten₂.trans hwritten₁)
  have hhas : ∀ x < s₃.written.length, r₃.Has x := by
    apply h₃.settles _ hnone
    intro i hi
    rw [hframes₃, hframes₂, hframes₁] at hi
    by_cases hold : i < s.frames.length
    · refine .inr ?_
      rw [hlost₃]
      exact hlost₂ i (hlost₁ i (List.mem_range.mpr hold) hold)
    · refine .inl (hdelivered₃ i ?_ ?_)
      · rw [List.mem_range'_1]
        omega
      · rw [hframes₂, hframes₁]
        exact hi
  have hreads := h₃.reads hhas
  rw [hwritten] at hreads
  rw [startOver, Machine.run_append, ← hs₁, Machine.run_append, ← hs₂, Machine.run_append, ← hs₃]
  exact hreads

end Steps

/-- No byte is forgotten: once nothing is left to send and each frame was delivered or given up, or
once the sender takes the stream for complete, all that was written can be read. -/
theorem stream_settled (maxData initialWindow maxWindow : Nat) (events : List StreamEvent) {sender : SendBuf}
    (hsender : (run next (.new maxData initialWindow maxWindow) events).sender = some sender)
    (hsettled : sender.isComplete = true ∨ sender.bufferedBytes = 0 ∧
      ∀ i < (run next (.new maxData initialWindow maxWindow) events).frames.length,
        i ∈ (run next (.new maxData initialWindow maxWindow) events).delivered ∨
          i ∈ (run next (.new maxData initialWindow maxWindow) events).lost) :
    (next (.read (run next (.new maxData initialWindow maxWindow) events).written.length)
      (run next (.new maxData initialWindow maxWindow) events)).receiver.history.length =
        (run next (.new maxData initialWindow maxWindow) events).written.length := by
  obtain ⟨sender', r, h⟩ := run_kept maxData initialWindow maxWindow events
  obtain rfl : sender' = sender := Option.some.inj (h.sender_eq.symm.trans hsender)
  apply h.reads
  rcases hsettled with hcomplete | ⟨hsent, hframes⟩
  · exact h.completes hcomplete
  · exact h.settles hframes hsent

/-- The end is written and sent, and sent again by a sender that is in doubt. -/
def repeated : List StreamEvent :=
  [.write [1, 2] false, .emit 8, .write [3] true, .emit 8, .lose 0, .emit 8, .deliver 2, .deliver 1]

theorem stream_settled_repeated :
    (next (.read 3) (run next (.new 8 8 8) repeated)).receiver.history.length = 3 :=
  stream_settled 8 8 8 repeated rfl (.inr ⟨by decide, by decide⟩)

/-- Wherever a run has come, and whatever was lost: give up what is under way, send again what is then
to be sent, in at least as many frames as bytes were written, each of any size, and deliver these; all
that was written can be read. -/
theorem stream_recovers (maxData initialWindow maxWindow : Nat) (events : List StreamEvent) {rooms : List Nat}
    (hrooms : ∀ room ∈ rooms, room > 0)
    (hmany : (run next (.new maxData initialWindow maxWindow) events).written.length ≤ rooms.length) :
    (run next (.new maxData initialWindow maxWindow)
      (events ++ (run next (.new maxData initialWindow maxWindow) events).startOver rooms)).receiver.history.length =
        (run next (.new maxData initialWindow maxWindow) events).written.length := by
  obtain ⟨sender, r, h⟩ := run_kept maxData initialWindow maxWindow events
  rw [Machine.run_append]
  exact h.recovers hrooms hmany

theorem stream_recovers_repeated :
    (run next (.new 8 8 8)
      (repeated ++ (run next (.new 8 8 8) repeated).startOver [1, 5, 2])).receiver.history.length = 3 :=
  stream_recovers 8 8 8 repeated (by decide) (by decide)

end Stream
end Aether.Quic
