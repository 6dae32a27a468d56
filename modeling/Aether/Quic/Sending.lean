import Aether.Quic.SendBuf

/-! What the sending end of a stream keeps.

The chunks follow one another without a gap, from an offset below which all is acknowledged up
to where the stream ends (`Chain`, `Sound`). Each operation keeps this; sending hands out what
the stream has (`emit_spec`), and of what was lost nothing counts as sent any more
(`retransmit_spec`). -/
namespace Aether.Quic

/-- Chunks of the stream, from one offset to another. -/
def Chain (stream : List UInt8) : Nat → List RangeBuf → Nat → Prop
  | start, [], stop => start = stop
  | start, b :: rest, stop => b.off = start ∧ 0 < b.len ∧ b.Carries stream ∧ Chain stream (start + b.len) rest stop

section Chain
variable {stream : List UInt8} {start stop : Nat} {data : List RangeBuf}

theorem Chain.mono (h : Chain stream start data stop) {more : List UInt8} (hmore : stream <+: more) :
    Chain more start data stop := by
  induction data generalizing start with
  | nil => exact h
  | cons b rest ih =>
    obtain ⟨hoff, hlen, hcarries, hrest⟩ := h
    exact ⟨hoff, hlen, hcarries.mono hmore, ih hrest⟩

theorem Chain.append {mid : Nat} {more : List RangeBuf} (h : Chain stream start data mid)
    (hmore : Chain stream mid more stop) : Chain stream start (data ++ more) stop := by
  induction data generalizing start with
  | nil =>
    obtain rfl : start = mid := h
    exact hmore
  | cons b rest ih =>
    obtain ⟨hoff, hlen, hcarries, hrest⟩ := h
    exact ⟨hoff, hlen, hcarries, ih hrest⟩

theorem Chain.split {front back : List RangeBuf} (h : Chain stream start (front ++ back) stop) :
    ∃ mid, Chain stream start front mid ∧ Chain stream mid back stop := by
  induction front generalizing start with
  | nil => exact ⟨start, rfl, h⟩
  | cons b rest ih =>
    obtain ⟨hoff, hlen, hcarries, hrest⟩ := h
    obtain ⟨mid, hfront, hback⟩ := ih hrest
    exact ⟨mid, ⟨hoff, hlen, hcarries, hfront⟩, hback⟩

theorem Chain.le (h : Chain stream start data stop) : start ≤ stop := by
  induction data generalizing start with
  | nil => exact Nat.le_of_eq h
  | cons b rest ih =>
    have := ih h.2.2.2
    omega

/-- Each chunk lies between the two ends. -/
theorem Chain.mem (h : Chain stream start data stop) {b : RangeBuf} (hb : b ∈ data) :
    b.Carries stream ∧ start ≤ b.off ∧ b.maxOff ≤ stop := by
  induction data generalizing start with
  | nil => cases hb
  | cons c rest ih =>
    obtain ⟨hoff, hlen, hcarries, hrest⟩ := h
    rcases List.mem_cons.mp hb with rfl | hb
    · have hmax := hcarries.maxOff_eq
      have := hrest.le
      exact ⟨hcarries, Nat.le_of_eq hoff.symm, by omega⟩
    · have := ih hrest hb
      exact ⟨this.1, by omega, this.2.2⟩

/-- Every offset between the two ends is in a chunk. -/
theorem Chain.find (h : Chain stream start data stop) {x : Nat} (hlow : start ≤ x) (hhigh : x < stop) :
    ∃ b ∈ data, b.off ≤ x ∧ x < b.maxOff := by
  induction data generalizing start with
  | nil =>
    have : start = stop := h
    omega
  | cons c rest ih =>
    obtain ⟨hoff, hlen, hcarries, hrest⟩ := h
    have hmax := hcarries.maxOff_eq
    by_cases hx : x < start + c.len
    · exact ⟨c, List.mem_cons_self .., by omega, by omega⟩
    · obtain ⟨b, hb, hbx⟩ := ih hrest (by omega)
      exact ⟨b, List.mem_cons_of_mem _ hb, hbx⟩

/-- A chunk can be replaced by one that shows more or less of the same. -/
theorem Chain.replace {front back : List RangeBuf} {b c : RangeBuf} (h : Chain stream start (front ++ b :: back) stop)
    (hc : c.Carries stream) (hoff : c.off = b.off) (hlen : c.len = b.len) :
    Chain stream start (front ++ c :: back) stop := by
  obtain ⟨mid, hfront, hboff, hblen, _, hback⟩ := h.split
  refine hfront.append ⟨hoff.trans hboff, ?_, hc, ?_⟩
  · omega
  · rw [hlen]
    exact hback

theorem Chain.behind {b c : RangeBuf} (h : Chain stream start (b :: data) stop) (hc : c ∈ data) : b.maxOff ≤ c.off := by
  obtain ⟨hoff, _, hcarries, hrest⟩ := h
  have hmax := hcarries.maxOff_eq
  have := (hrest.mem hc).2.1
  omega

end Chain

/-! ### The buffer -/

namespace SendBuf

/-- How many bytes of the chunks are still to be sent. -/
def pending (data : List RangeBuf) : Nat := (data.map RangeBuf.length).sum

/-- The offset is in a chunk, in the part that was sent. -/
def Sent (s : SendBuf) (x : Nat) : Prop := ∃ b ∈ s.data, b.off ≤ x ∧ x < b.offset

structure Sound (stream : List UInt8) (acked : Set Nat) (s : SendBuf) : Prop where
  chain : ∃ base, Chain stream base s.data s.off ∧ ∀ x < base, x ∈ acked
  pos_le : s.pos ≤ s.data.length
  sent : ∀ b ∈ s.data.take s.pos, b.length = 0
  buffered : s.bufferedBytes = pending s.data
  room : s.off ≤ s.maxData
  whole : s.off = stream.length
  fin : ∀ f ∈ s.finOff, f = s.off
  ranges : s.acked.Sound usizeMax
  acked : ∀ x, Intervals.Covers s.acked.iter x → x ∈ acked

variable {stream : List UInt8} {acked : Set Nat} {s : SendBuf}

theorem pending_append (front back : List RangeBuf) : pending (front ++ back) = pending front + pending back := by
  rw [pending, List.map_append, List.sum_append]
  rfl

theorem pending_cons (b : RangeBuf) (rest : List RangeBuf) : pending (b :: rest) = b.length + pending rest := by
  rw [pending, List.map_cons, List.sum_cons]
  rfl

theorem pending_le {start stop : Nat} {data : List RangeBuf} (h : Chain stream start data stop) :
    pending data ≤ stop - start := by
  induction data generalizing start with
  | nil => exact Nat.zero_le _
  | cons b rest ih =>
    have hlength : b.length ≤ b.len := Nat.sub_le _ _
    have := h.2.2.2.le
    have := ih h.2.2.2
    rw [pending_cons]
    omega

theorem frontOf_le {start : Nat} {data : List RangeBuf} (h : Chain stream start data s.off) :
    frontOf s.off data ≤ s.off := by
  induction data generalizing start with
  | nil => exact Nat.le_refl _
  | cons b rest ih =>
    rw [frontOf]
    split
    · exact ih h.2.2.2
    · have := (h.mem (List.mem_cons_self ..)).2.2
      have := b.offset_le_maxOff
      omega

/-- What is acknowledged without a gap is acknowledged. -/
theorem Sound.of_lt_ackOff (h : Sound stream acked s) {x : Nat} (hx : x < s.ackOff) : x ∈ acked := by
  rw [ackOff] at hx
  split at hx
  · rename_i stop rest hiter
    apply h.acked
    rw [hiter]
    exact ⟨(0, stop), List.mem_cons_self .., Nat.zero_le _, hx⟩
  · omega

/-! ### Sending -/

/-- What an operation on the chunks leaves alone. -/
structure SameStream (s s' : SendBuf) : Prop where
  off : s'.off = s.off
  maxData : s'.maxData = s.maxData
  finOff : s'.finOff = s.finOff

theorem SameStream.trans {s t u : SendBuf} (h : SameStream s t) (h' : SameStream t u) : SameStream s u :=
  ⟨h'.off.trans h.off, h'.maxData.trans h.maxData, h'.finOff.trans h.finOff⟩

theorem data_at {b : RangeBuf} (h : s.data[s.pos]? = some b) :
    s.data = s.data.take s.pos ++ b :: s.data.drop (s.pos + 1) ∧ s.data.drop s.pos = b :: s.data.drop (s.pos + 1) := by
  obtain ⟨hlt, hget⟩ := List.getElem?_eq_some_iff.mp h
  have hdrop : s.data.drop s.pos = b :: s.data.drop (s.pos + 1) := by rw [List.drop_eq_getElem_cons hlt, hget]
  refine ⟨?_, hdrop⟩
  rw [← hdrop, List.take_append_drop]

/-- What the loop has sent. -/
structure Emitted (stream : List UInt8) (acked : Set Nat) (outLen nextOff : Nat) (s s' : SendBuf) (got : List UInt8) :
    Prop where
  sound : Sound stream acked s'
  same : SameStream s s'
  got_eq : got = (stream.drop nextOff).take got.length
  length_le : got.length ≤ outLen
  inside : nextOff + got.length ≤ s.off
  sent : ∀ x, s'.Sent x → s.Sent x ∨ nextOff ≤ x ∧ x < nextOff + got.length
  buffered : s'.bufferedBytes + got.length = s.bufferedBytes

/-- A turn that sends nothing. -/
theorem Emitted.nothing {outLen nextOff : Nat} (h : Sound stream acked s) (hnext : nextOff ≤ s.off) :
    Emitted stream acked outLen nextOff s s [] :=
  ⟨h, ⟨rfl, rfl, rfl⟩, rfl, Nat.zero_le _, hnext, fun _ hx => .inl hx, rfl⟩

/-- What is sent in two parts. -/
theorem Emitted.trans {outLen nextOff n : Nat} {s t u : SendBuf} {got more : List UInt8}
    (h : Emitted stream acked n nextOff s t got) (hgot : got.length = n) (hn : n ≤ outLen)
    (h' : Emitted stream acked (outLen - n) (nextOff + n) t u more) :
    Emitted stream acked outLen nextOff s u (got ++ more) := by
  have hinside := h'.inside
  have hle := h'.length_le
  have hbuffered := h.buffered
  have hbuffered' := h'.buffered
  have hlength : (got ++ more).length = n + more.length := by rw [List.length_append, hgot]
  rw [h.same.off] at hinside
  refine ⟨h'.sound, h.same.trans h'.same, ?_, ?_, ?_, ?_, ?_⟩
  · rw [hlength, List.take_add, ← hgot, ← h.got_eq, List.drop_drop, hgot, ← h'.got_eq]
  · rw [hlength]
    omega
  · rw [hlength]
    omega
  · intro x hx
    rw [hlength]
    rcases h'.sent x hx with hx | hx
    · rcases h.sent x hx with hx | hx
      · exact .inl hx
      · exact .inr (by omega)
    · exact .inr (by omega)
  · rw [hlength]
    omega

theorem pending_of_front {start : Nat} {data : List RangeBuf} (h : Chain stream start data s.off)
    (hle : s.off ≤ frontOf s.off data) : pending data = 0 := by
  induction data generalizing start with
  | nil => rfl
  | cons b rest ih =>
    have hmem := h.mem (List.mem_cons_self ..)
    have hlength := b.length_eq
    rw [frontOf] at hle
    split at hle
    · rename_i hempty
      rw [RangeBuf.isEmpty, beq_iff_eq] at hempty
      rw [pending_cons, hempty, ih h.2.2.2 hle]
    · rename_i hempty
      rw [RangeBuf.isEmpty, beq_iff_eq] at hempty
      omega

theorem pending_of_sent {data : List RangeBuf} (h : ∀ b ∈ data, b.length = 0) : pending data = 0 := by
  rw [pending, List.sum_eq_zero_iff]
  intro n hn
  obtain ⟨b, hb, rfl⟩ := List.mem_map.mp hn
  exact h b hb

theorem Sound.chain_drop (h : Sound stream acked s) : ∃ start, Chain stream start (s.data.drop s.pos) s.off := by
  obtain ⟨base, hchain, _⟩ := h.chain
  rw [← List.take_append_drop s.pos s.data] at hchain
  obtain ⟨mid, _, hback⟩ := hchain.split
  exact ⟨mid, hback⟩

theorem Sound.offFront_le (h : Sound stream acked s) : s.offFront ≤ s.off := by
  obtain ⟨_, hchain⟩ := h.chain_drop
  exact frontOf_le hchain

/-- Where the front is where the stream ends, all has been sent. -/
theorem Sound.nothing_left (h : Sound stream acked s) (hle : s.off ≤ s.offFront) : s.bufferedBytes = 0 := by
  obtain ⟨_, hchain⟩ := h.chain_drop
  rw [h.buffered, ← List.take_append_drop s.pos s.data, pending_append, pending_of_front hchain hle,
    pending_of_sent h.sent]

/-- Behind the last chunk nothing is left. -/
theorem Sound.all_sent (h : Sound stream acked s) (hlen : s.data.length ≤ s.pos) : s.bufferedBytes = 0 := by
  rw [h.buffered]
  exact pending_of_sent (fun b hb => h.sent b (by rw [List.take_of_length_le hlen]; exact hb))

/-- An empty chunk is passed over. -/
theorem Sound.skip (h : Sound stream acked s) {b : RangeBuf} (hb : s.data[s.pos]? = some b) (hempty : b.length = 0) :
    Sound stream acked {s with pos := s.pos + 1} := by
  obtain ⟨hlt, hget⟩ := List.getElem?_eq_some_iff.mp hb
  refine ⟨h.chain, hlt, ?_, h.buffered, h.room, h.whole, h.fin, h.ranges, h.acked⟩
  intro c hc
  replace hc : c ∈ s.data.take (s.pos + 1) := hc
  rw [List.take_add_one, hb] at hc
  rcases List.mem_append.mp hc with hc | hc
  · exact h.sent c hc
  · rw [List.mem_singleton.mp hc]
    exact hempty

/-- The front of a chunk is sent. -/
theorem Sound.consume (h : Sound stream acked s) {b : RangeBuf} (hb : s.data[s.pos]? = some b) {n : Nat}
    (hn : n ≤ b.length) :
    Sound stream acked {s with bufferedBytes := s.bufferedBytes - n, data := s.data.set s.pos (b.consume n)} ∧
      n ≤ s.bufferedBytes ∧ (s.data.set s.pos (b.consume n))[s.pos]? = some (b.consume n) ∧
      ∀ x, SendBuf.Sent {s with bufferedBytes := s.bufferedBytes - n, data := s.data.set s.pos (b.consume n)} x →
        s.Sent x ∨ b.offset ≤ x ∧ x < b.offset + n := by
  obtain ⟨hlt, _⟩ := List.getElem?_eq_some_iff.mp hb
  obtain ⟨hdata, _⟩ := data_at hb
  obtain ⟨base, hchain, hbase⟩ := h.chain
  have hset : s.data.set s.pos (b.consume n) = s.data.take s.pos ++ b.consume n :: s.data.drop (s.pos + 1) := by
    rw [List.set_eq_take_append_cons_drop, if_pos hlt]
  have hcarries : b.Carries stream := (hchain.mem (List.mem_of_getElem? hb)).1
  have hpending : pending s.data = pending (s.data.take s.pos) + (b.length + pending (s.data.drop (s.pos + 1))) := by
    conv_lhs => rw [hdata]
    rw [pending_append, pending_cons]
  have hconsumed : (b.consume n).length = b.length - n := by
    have h1 := (b.consume n).length_eq
    have h2 := b.length_eq
    have h3 := hcarries.maxOff_consume hn
    have h4 := RangeBuf.offset_consume b n
    omega
  have hbuffered := h.buffered
  refine ⟨⟨⟨base, ?_, hbase⟩, ?_, ?_, ?_, h.room, h.whole, h.fin, h.ranges, h.acked⟩, by omega, ?_, ?_⟩
  · show Chain stream base (s.data.set s.pos (b.consume n)) s.off
    rw [hset]
    rw [hdata] at hchain
    exact hchain.replace (hcarries.consume hn) rfl rfl
  · show s.pos ≤ (s.data.set s.pos (b.consume n)).length
    rw [List.length_set]
    exact h.pos_le
  · intro c hc
    replace hc : c ∈ (s.data.set s.pos (b.consume n)).take s.pos := hc
    rw [List.take_set_of_le (Nat.le_refl _)] at hc
    exact h.sent c hc
  · show s.bufferedBytes - n = pending (s.data.set s.pos (b.consume n))
    rw [hset, pending_append, pending_cons, hconsumed]
    omega
  · rw [List.getElem?_set_self hlt]
  · intro x hx
    obtain ⟨c, hc, hlow, hhigh⟩ := hx
    replace hc : c ∈ s.data.set s.pos (b.consume n) := hc
    rw [hset] at hc
    have hold {c : RangeBuf} (hc : c ∈ s.data.take s.pos ∨ c ∈ s.data.drop (s.pos + 1)) : c ∈ s.data :=
      hc.elim List.mem_of_mem_take List.mem_of_mem_drop
    rcases List.mem_append.mp hc with hc | hc
    · exact .inl ⟨c, hold (.inl hc), hlow, hhigh⟩
    · rcases List.mem_cons.mp hc with rfl | hc
      · rw [RangeBuf.offset_consume] at hhigh
        by_cases hx : x < b.offset
        · exact .inl ⟨b, List.mem_of_getElem? hb, hlow, hx⟩
        · exact .inr ⟨not_lt.mp hx, hhigh⟩
      · exact .inl ⟨c, hold (.inr hc), hlow, hhigh⟩

theorem Sound.skipped (h : Sound stream acked s) {b : RangeBuf} (hb : s.data[s.pos]? = some b) (hempty : b.length = 0)
    {nextOff : Nat} (hnext : nextOff ≤ s.off) :
    Emitted stream acked 0 nextOff s {s with pos := s.pos + 1} [] :=
  ⟨h.skip hb hempty, ⟨rfl, rfl, rfl⟩, rfl, Nat.le_refl _, hnext, fun _ hx => .inl hx, rfl⟩

/-- The front of a chunk goes out. -/
theorem Sound.consumed (h : Sound stream acked s) {b : RangeBuf} (hb : s.data[s.pos]? = some b) {n : Nat}
    (hn : n ≤ b.length) :
    (b.bytes.take n).length = n ∧
      Emitted stream acked n b.offset s
        {s with bufferedBytes := s.bufferedBytes - n, data := s.data.set s.pos (b.consume n)} (b.bytes.take n) := by
  have hmem := h.chain.choose_spec.1.mem (List.mem_of_getElem? hb)
  have hmax : b.maxOff = b.offset + b.length := rfl
  obtain ⟨hsound, hle, _, hsent⟩ := h.consume hb hn
  have hlength : (b.bytes.take n).length = n := by
    rw [List.length_take, hmem.1.length_bytes]
    omega
  refine ⟨hlength, hsound, ⟨rfl, rfl, rfl⟩, ?_, hlength.le, ?_, ?_, ?_⟩
  · rw [hlength, hmem.1.bytes_eq, List.take_take, Nat.min_eq_left hn]
  · rw [hlength]
    omega
  · rw [hlength]
    exact hsent
  · rw [hlength]
    exact Nat.sub_add_cancel hle

/-- A chunk goes out whole, and the next turn looks behind it. -/
theorem Sound.consumed_whole (h : Sound stream acked s) {b : RangeBuf} (hb : s.data[s.pos]? = some b) :
    Emitted stream acked b.length b.offset s
      {s with
        bufferedBytes := s.bufferedBytes - b.length
        data := s.data.set s.pos (b.consume b.length)
        pos := s.pos + 1} (b.bytes.take b.length) := by
  obtain ⟨hlength, hemitted⟩ := h.consumed hb (Nat.le_refl _)
  obtain ⟨hsound, _, hat, _⟩ := h.consume hb (Nat.le_refl _)
  have hempty : (b.consume b.length).length = 0 := by
    have hcarries := (h.chain.choose_spec.1.mem (List.mem_of_getElem? hb)).1
    have hconsumed := (b.consume b.length).length_eq
    have hmax := hcarries.maxOff_consume (Nat.le_refl b.length)
    have hoffset := RangeBuf.offset_consume b b.length
    have hmaxOff : b.maxOff = b.offset + b.length := rfl
    omega
  have hinside := hemitted.inside
  rw [hlength] at hinside
  rw [← List.append_nil (b.bytes.take b.length)]
  refine hemitted.trans hlength (Nat.le_refl _) ?_
  rw [Nat.sub_self]
  exact hsound.skipped hat hempty hinside

theorem offFront_at {b : RangeBuf} (hb : s.data[s.pos]? = some b) :
    s.offFront = if b.isEmpty then frontOf s.off (s.data.drop (s.pos + 1)) else b.offset := by
  rw [offFront, (data_at hb).2, frontOf]

/-- Where the loop stops, there is no room or nothing to send at the front. -/
theorem Sound.stopped (h : Sound stream acked s) {nextOff : Nat}
    (hbreak : s.data = [] ∨ s.offFront ≥ s.off ∨ s.offFront ≠ nextOff ∨ s.offFront ≥ s.maxData)
    (hfront : s.offFront = nextOff) : s.bufferedBytes = 0 := by
  rcases hbreak with hnil | hoff | hne | hmax
  · rw [h.buffered, hnil]
    rfl
  · exact h.nothing_left hoff
  · exact absurd hfront hne
  · exact h.nothing_left (h.room.trans hmax)

/-- The loop stops with nothing sent where there is no room, or nothing left at the front. -/
theorem Sound.stop (h : Sound stream acked s) {outLen nextOff : Nat} (out : List UInt8) (hnext : nextOff ≤ s.off)
    (hnot : outLen > 0 → s.offFront = nextOff → s.bufferedBytes = 0) :
    ∃ got, out = out ++ got ∧ nextOff = nextOff + got.length ∧ Emitted stream acked outLen nextOff s s got ∧
      (outLen > 0 → s.offFront = nextOff → s.bufferedBytes > 0 → got ≠ []) := by
  refine ⟨[], (List.append_nil out).symm, rfl, .nothing h hnext, ?_⟩
  intro hroom hfront hbuffered
  have := hnot hroom hfront
  omega

/-- The loop sends what the stream has from the front on, as far as the room and the limit go. -/
theorem emitLoop_spec (turns outLen nextOff : Nat) (out : List UInt8) (h : Sound stream acked s)
    (hturns : s.data.length ≤ s.pos + turns) (hnext : nextOff ≤ s.off) :
    ∃ got, (emitLoop turns outLen nextOff out s).2.2 = out ++ got ∧
      (emitLoop turns outLen nextOff out s).2.1 = nextOff + got.length ∧
      Emitted stream acked outLen nextOff s (emitLoop turns outLen nextOff out s).1 got ∧
      (outLen > 0 → s.offFront = nextOff → s.bufferedBytes > 0 → got ≠ []) := by
  induction turns generalizing s outLen nextOff out with
  | zero => exact h.stop out hnext (fun _ _ => h.all_sent hturns)
  | succ turns ih =>
    rw [emitLoop]
    by_cases hroom : outLen > 0
    swap
    · rw [if_neg hroom]
      exact h.stop out hnext (fun hgo => absurd hgo hroom)
    rw [if_pos hroom]
    by_cases hbreak : s.data = [] ∨ s.offFront ≥ s.off ∨ s.offFront ≠ nextOff ∨ s.offFront ≥ s.maxData
    · rw [if_pos hbreak]
      exact h.stop out hnext (fun _ => h.stopped hbreak)
    rw [if_neg hbreak]
    rw [not_or, not_or, not_or, not_not] at hbreak
    obtain ⟨_, _, hfront, _⟩ := hbreak
    cases hb : s.data[s.pos]? with
    | none => exact h.stop out hnext (fun _ _ => h.all_sent (List.getElem?_eq_none_iff.mp hb))
    | some b =>
      have hfrontAt := offFront_at hb
      dsimp only
      by_cases hempty : b.isEmpty = true
      · -- The next turn looks behind the empty chunk.
        rw [if_pos hempty] at hfrontAt
        rw [if_pos hempty]
        rw [RangeBuf.isEmpty, beq_iff_eq] at hempty
        obtain ⟨got, hout, hoff, hemitted, hgo⟩ := ih outLen nextOff out (h.skip hb hempty)
          (by show s.data.length ≤ s.pos + 1 + turns; omega) hnext
        exact ⟨got, hout, hoff, (h.skipped hb hempty hnext).trans rfl (Nat.zero_le _) hemitted,
          fun hroom hnext hbuffered => hgo hroom (hfrontAt.symm.trans hnext) hbuffered⟩
      rw [if_neg hempty] at hfrontAt
      rw [if_neg hempty]
      rw [RangeBuf.isEmpty, beq_iff_eq] at hempty
      obtain rfl : b.offset = nextOff := hfrontAt.symm.trans hfront
      by_cases hpart : min b.length outLen < b.length
      · rw [if_pos hpart, show min b.length outLen = outLen by omega]
        obtain ⟨hlength, hemitted⟩ := h.consumed hb (show outLen ≤ b.length by omega)
        refine ⟨b.bytes.take outLen, rfl, ?_, hemitted, fun _ _ _ hnil => ?_⟩
        · rw [hlength]
        · rw [hnil, List.length_nil] at hlength
          omega
      · rw [if_neg hpart, show min b.length outLen = b.length by omega]
        have hwhole := h.consumed_whole hb
        have hlength := (h.consumed hb (Nat.le_refl _)).1
        have hinside := hwhole.inside
        rw [hlength] at hinside
        obtain ⟨got, hout, hoff, hemitted, _⟩ := ih (outLen - b.length) (b.offset + b.length)
          (out ++ b.bytes.take b.length) hwhole.sound
          (by
            show (s.data.set s.pos _).length ≤ s.pos + 1 + turns
            rw [List.length_set]
            omega) hinside
        refine ⟨b.bytes.take b.length ++ got, by rw [hout, List.append_assoc], ?_,
          hwhole.trans hlength (by omega) hemitted, fun _ _ _ hnil => ?_⟩
        · rw [hoff, List.length_append, hlength, Nat.add_assoc]
        · rw [(List.append_eq_nil_iff.mp hnil).1, List.length_nil] at hlength
          omega

/-- What is sent is what the stream has at the front, and something if there is room and something
is left; it ends the stream only where the stream ends. -/
theorem emit_spec (h : Sound stream acked s) (room : Nat) :
    Emitted stream acked room s.offFront s (s.emit room).1 (s.emit room).2.1 ∧
      ((s.emit room).2.2 = true → s.finOff = some s.off ∧ s.offFront + (s.emit room).2.1.length = s.off) ∧
      (room > 0 → s.bufferedBytes > 0 → (s.emit room).2.1 ≠ []) := by
  have hpos := h.pos_le
  obtain ⟨got, hout, hoff, hemitted, hgo⟩ := emitLoop_spec (s.data.length - s.pos) room s.offFront [] h (by omega)
    h.offFront_le
  rw [List.nil_append] at hout
  have hemit : s.emit room = ({(emitLoop (s.data.length - s.pos) room s.offFront [] s).1 with
      emitOff := max (emitLoop (s.data.length - s.pos) room s.offFront [] s).1.emitOff
        (emitLoop (s.data.length - s.pos) room s.offFront [] s).2.1}, got,
      (emitLoop (s.data.length - s.pos) room s.offFront [] s).1.finOff == some (s.offFront + got.length)) := by
    rw [emit, hout, hoff]
  rw [hemit]
  have hsound := hemitted.sound
  refine ⟨⟨⟨hsound.chain, hsound.pos_le, hsound.sent, hsound.buffered, hsound.room, hsound.whole, hsound.fin,
    hsound.ranges,
    hsound.acked⟩, ⟨hemitted.same.off, hemitted.same.maxData, hemitted.same.finOff⟩, hemitted.got_eq,
      hemitted.length_le,
    hemitted.inside, hemitted.sent, hemitted.buffered⟩, ?_, fun hr hb => hgo hr rfl hb⟩
  intro hfin
  rw [hemitted.same.finOff, beq_iff_eq] at hfin
  have := h.fin _ hfin
  exact ⟨by rw [hfin, this], this⟩

/-! ### Writing -/

theorem Sound.with_fin (h : Sound stream acked {s with finOff := none}) (hfin : ∀ f ∈ s.finOff, f = s.off) :
    Sound stream acked s :=
  ⟨h.chain, h.pos_le, h.sent, h.buffered, h.room, h.whole, hfin, h.ranges, h.acked⟩

/-- A chunk joins on to what was written; the end of the stream is looked at later. -/
theorem Sound.append (h : Sound stream acked {s with finOff := none}) {chunk : List UInt8}
    (hne : chunk ≠ []) (fin : Bool)
    (hroom : s.off + chunk.length ≤ s.maxData) :
    Sound (stream ++ chunk) acked {s.append chunk fin with finOff := none} ∧
      ∀ x, (s.append chunk fin).Sent x → s.Sent x := by
  obtain ⟨base, hchain, hbase⟩ := h.chain
  have hwhole : s.off = stream.length := h.whole
  have hlength : 0 < chunk.length := List.length_pos_iff.mpr hne
  have hraw : (RangeBuf.fromRaw chunk s.off fin).Carries (stream ++ chunk) := by
    apply RangeBuf.carries_fromRaw
    rw [hwhole, List.drop_left]
  have hrawLength : (RangeBuf.fromRaw chunk s.off fin).length = chunk.length := rfl
  refine ⟨⟨⟨base, ?_, hbase⟩, ?_, ?_, ?_, hroom, ?_, fun f hf => absurd hf (Option.not_mem_none f), h.ranges,
    h.acked⟩, ?_⟩
  · exact (hchain.mono (List.prefix_append stream chunk)).append ⟨rfl, hlength, hraw, rfl⟩
  · show s.pos ≤ (s.data ++ [_]).length
    rw [List.length_append]
    exact Nat.le_add_right_of_le h.pos_le
  · intro b hb
    replace hb : b ∈ (s.data ++ [RangeBuf.fromRaw chunk s.off fin]).take s.pos := hb
    rw [List.take_append_of_le_length h.pos_le] at hb
    exact h.sent b hb
  · have hbuffered : s.bufferedBytes = pending s.data := h.buffered
    show s.bufferedBytes + chunk.length = pending (s.data ++ [_])
    rw [pending_append, pending_cons, hrawLength, hbuffered]
    rfl
  · show s.off + chunk.length = (stream ++ chunk).length
    rw [List.length_append, hwhole]
  · intro x hx
    obtain ⟨b, hb, hlow, hhigh⟩ := hx
    rcases List.mem_append.mp hb with hb | hb
    · exact ⟨b, hb, hlow, hhigh⟩
    · rw [List.mem_singleton.mp hb] at hlow hhigh
      have hoffset : (RangeBuf.fromRaw chunk s.off fin).offset = s.off := by
        show s.off - 0 + 0 = s.off
        omega
      rw [hoffset] at hhigh
      exact absurd (Nat.lt_of_lt_of_le hhigh hlow) (Nat.lt_irrefl _)

theorem sound_appendChunks (fin : Bool) (turns : Nat) {data : List UInt8}
    (h : Sound stream acked {s with finOff := none})
    (hturns : data.length ≤ turns) (hroom : s.off + data.length ≤ s.maxData) :
    Sound (stream ++ data) acked {appendChunks fin turns data s with finOff := none} ∧
      (∀ x, (appendChunks fin turns data s).Sent x → s.Sent x) ∧
        (appendChunks fin turns data s).off = s.off + data.length ∧
      (appendChunks fin turns data s).finOff = s.finOff ∧ (appendChunks fin turns data s).maxData = s.maxData := by
  induction turns generalizing stream data s with
  | zero =>
    obtain rfl : data = [] := List.length_eq_zero_iff.mp (Nat.le_zero.mp hturns)
    rw [List.append_nil]
    exact ⟨h, fun _ hx => hx, rfl, rfl, rfl⟩
  | succ turns ih =>
    cases data with
    | nil =>
      rw [List.append_nil]
      exact ⟨h, fun _ hx => hx, rfl, rfl, rfl⟩
    | cons a data =>
      have hsplit := List.take_append_drop sendBufferSize (a :: data)
      have hne : (a :: data).take sendBufferSize ≠ [] := List.cons_ne_nil _ _
      have hlengths := congrArg List.length hsplit
      rw [List.length_append] at hlengths
      have hpositive := List.length_pos_iff.mpr hne
      obtain ⟨happend, hsent⟩ := h.append hne (((a :: data).take sendBufferSize).length == (data.length + 1) && fin)
        (by omega)
      have hturnsRest : ((a :: data).drop sendBufferSize).length ≤ turns := by omega
      rw [appendChunks]
      obtain ⟨hsound, hsentRest, hoff, hfin, hmax⟩ := ih happend hturnsRest (by
        show s.off + _ + _ ≤ s.maxData
        omega)
      rw [List.append_assoc, hsplit] at hsound
      refine ⟨hsound, fun x hx => hsent x (hsentRest x hx), ?_, hfin, hmax⟩
      rw [hoff]
      show s.off + _ + _ = s.off + _
      omega

/-- What may be written keeps to the limit, and the end is recorded where all of it is taken. -/
structure Reserved (len : Nat) (s s' : SendBuf) (n : Nat) : Prop where
  le : n ≤ len
  room : s.off + n ≤ s.maxData
  same : s' = {s with finOff := s'.finOff}
  finOff : s'.finOff = s.finOff ∨ n = len ∧ s'.finOff = some (s.off + len)
  ended : ∀ f ∈ s.finOff, n = 0 ∧ s'.finOff = some f

theorem reserve_spec {len : Nat} {fin ends : Bool} {s' : SendBuf} {n : Nat} (hroom : s.off ≤ s.maxData)
    (hfin : ∀ f ∈ s.finOff, f = s.off) (hacked : s.ackOff ≤ s.off)
    (h : s.reserveForWrite len fin = .ok (s', n, ends)) : Reserved len s s' n := by
  rw [reserveForWrite] at h
  cases hcap : s.cap with
  | error e =>
    rw [hcap] at h
    cases h
  | ok cap =>
    rw [hcap] at h
    dsimp only at h
    have hcapEq : cap = s.maxData - s.off := by
      rw [SendBuf.cap] at hcap
      cases herror : s.error with
      | some e =>
        rw [herror] at hcap
        cases hcap
      | none =>
        rw [herror] at hcap
        exact (Except.ok.inj hcap).symm
    obtain ⟨reserved, hreserved⟩ : ∃ reserved, reserved = if len > cap then cap else len := ⟨_, rfl⟩
    obtain ⟨fin', hfin'⟩ : ∃ fin', fin' = if len > cap then false else fin := ⟨_, rfl⟩
    rw [← hreserved, ← hfin'] at h
    have hwhole (he : fin' = true) : reserved = len := by
      by_cases hlong : len > cap
      · rw [if_pos hlong] at hfin'
        rw [hfin'] at he
        cases he
      · rw [hreserved, if_neg hlong]
    have hle : reserved ≤ len ∧ reserved ≤ cap := by
      rw [hreserved]
      split
      · omega
      · omega
    split at h
    · cases h
    rename_i hfinal
    -- Where the end is known, nothing can be added to it.
    have hended (f : Nat) (hf : f ∈ s.finOff) : len = 0 ∧ f = s.off ∧ fin' = true := by
      have := hfin f hf
      rw [Option.mem_def] at hf
      rw [hf, Option.any_some, Bool.or_eq_true, Bool.and_eq_true, decide_eq_true_eq, beq_iff_eq, Bool.not_eq_true',
        not_or, not_and, Bool.not_eq_false, not_lt] at hfinal
      exact ⟨by omega, this, hfinal.2 (by omega)⟩
    obtain ⟨t, ht⟩ : ∃ t, t = if fin' = true then {s with finOff := some (s.off + len)} else s := ⟨_, rfl⟩
    rw [← ht] at h
    have htSame : t = {s with finOff := t.finOff} ∧
        (t.finOff = s.finOff ∨ reserved = len ∧ t.finOff = some (s.off + len)) ∧
        (fin' = true → t.finOff = some (s.off + len)) := by
      by_cases he : fin' = true
      · rw [if_pos he] at ht
        rw [ht]
        exact ⟨rfl, .inr ⟨hwhole he, rfl⟩, fun _ => rfl⟩
      · rw [if_neg he] at ht
        rw [ht]
        exact ⟨rfl, .inl rfl, fun hc => absurd hc he⟩
    obtain ⟨hsame, hend, hset⟩ := htSame
    have hknown (f : Nat) (hf : f ∈ s.finOff) : t.finOff = some f := by
      obtain ⟨hzero, hoff, he⟩ := hended f hf
      rw [hset he, hzero, hoff]
      rfl
    have hackOff : t.ackOff = s.ackOff := by rw [hsame]; rfl
    split at h
    · rename_i hdone
      obtain ⟨rfl, hn, _⟩ : t = s' ∧ 0 = n ∧ fin' = ends := by
        have := Except.ok.inj h
        exact ⟨congrArg (·.1) this, congrArg (·.2.1) this, congrArg (·.2.2) this⟩
      have hzero : len = 0 := by omega
      subst hn
      refine ⟨Nat.zero_le _, by omega, hsame, ?_, fun f hf => ⟨rfl, hknown f hf⟩⟩
      exact hend.imp_right (fun he => ⟨hzero.symm, he.2⟩)
    · obtain ⟨rfl, rfl, _⟩ : t = s' ∧ reserved = n ∧ fin' = ends := by
        have := Except.ok.inj h
        exact ⟨congrArg (·.1) this, congrArg (·.2.1) this, congrArg (·.2.2) this⟩
      refine ⟨hle.1, by omega, hsame, hend, fun f hf => ⟨?_, hknown f hf⟩⟩
      have := (hended f hf).1
      omega

/-- What a write takes. -/
structure Wrote (stream : List UInt8) (acked : Set Nat) (data : List UInt8) (s s' : SendBuf) (n : Nat) : Prop where
  le : n ≤ data.length
  sound : Sound (stream ++ data.take n) acked s'
  maxData : s'.maxData = s.maxData
  sent : ∀ x, s'.Sent x → s.Sent x
  /-- Behind its end nothing is written, and the end stays. -/
  ended : ∀ f ∈ s.finOff, n = 0 ∧ s'.finOff = some f

theorem write_spec (h : Sound stream acked s) (hacked : s.ackOff ≤ s.off) {data : List UInt8} {fin : Bool}
    {s' : SendBuf} {n : Nat} (hwrite : s.write data fin = .ok (s', n)) : Wrote stream acked data s s' n := by
  rw [write] at hwrite
  cases hreserve : s.reserveForWrite data.length fin with
  | error e =>
    rw [hreserve] at hwrite
    cases hwrite
  | ok result =>
    obtain ⟨t, reserved, ends⟩ := result
    rw [hreserve] at hwrite
    have hr := reserve_spec h.room h.fin hacked hreserve
    have hbase : Sound stream acked {t with finOff := none} := by
      rw [hr.same]
      exact ⟨h.chain, h.pos_le, h.sent, h.buffered, h.room, h.whole,
        fun f hf => absurd hf (Option.not_mem_none f), h.ranges,
        h.acked⟩
    have hoff : t.off = s.off := by rw [hr.same]
    have hmax : t.maxData = s.maxData := by rw [hr.same]
    have hsentSame (x : Nat) (hx : t.Sent x) : s.Sent x := by
      rw [hr.same] at hx
      exact hx
    have hroom := hr.room
    have htakeLength : (data.take reserved).length = reserved := List.length_take_of_le hr.le
    obtain ⟨hsound, hsent, hoffEnd, hfinSame, hmaxSame⟩ := sound_appendChunks ends reserved hbase
      (Nat.le_of_eq htakeLength) (by omega)
    have hends (f : Nat) (hf : f ∈ t.finOff) : f = s.off + reserved := by
      rcases hr.finOff with hsame | ⟨hall, hset⟩
      · have hknown : f ∈ s.finOff := hsame ▸ hf
        have := (hr.ended f hknown).1
        have := h.fin f hknown
        omega
      · rw [hset] at hf
        rw [← Option.mem_some_iff.mp hf, hall]
    replace hwrite : (if reserved = 0 then pure (t, 0) else pure (appendChunks ends reserved (data.take reserved) t,
      reserved)) =
      (Except.ok (s', n) : Except Error _) := hwrite
    by_cases hzero : reserved = 0
    · rw [if_pos hzero] at hwrite
      obtain ⟨rfl, rfl⟩ := Prod.mk.inj (Except.ok.inj hwrite)
      rw [hzero] at hends
      refine ⟨Nat.zero_le _, ?_, hmax, hsentSame, fun f hf => ⟨rfl, (hr.ended f hf).2⟩⟩
      rw [List.take_zero, List.append_nil]
      exact hbase.with_fin (fun f hf => by rw [hends f hf, hoff]; rfl)
    · rw [if_neg hzero] at hwrite
      obtain ⟨rfl, rfl⟩ := Prod.mk.inj (Except.ok.inj hwrite)
      refine ⟨hr.le, hsound.with_fin ?_, hmaxSame.trans hmax, fun x hx => hsentSame x (hsent x hx), ?_⟩
      · intro f hf
        rw [hfinSame] at hf
        rw [hoffEnd, htakeLength, hoff, hends f hf]
      · intro f hf
        obtain ⟨hnone, hset⟩ := hr.ended f hf
        exact absurd hnone hzero

/-! ### Acknowledgements -/

/-- With a range that was acknowledged. -/
def withAcked (acked : Set Nat) (off len : Nat) : Set Nat := acked ∪ {x | off ≤ x ∧ x < off + len}

theorem Sound.mono (h : Sound stream acked s) {more : Set Nat} (hmore : acked ⊆ more) : Sound stream more s := by
  obtain ⟨base, hchain, hbase⟩ := h.chain
  exact ⟨⟨base, hchain, fun x hx => hmore (hbase x hx)⟩, h.pos_le, h.sent, h.buffered, h.room, h.whole, h.fin, h.ranges,
    fun x hx => hmore (h.acked x hx)⟩

/-- An acknowledgement does not panic. -/
theorem Sound.ack (h : Sound stream acked s) (off len : Nat) :
    ∃ ranges, s.ack off len = some {s with acked := ranges} ∧
      Sound stream (withAcked acked off len) {s with acked := ranges} := by
  have hle : (off, off + len).1 ≤ (off, off + len).2 := Nat.le_add_right off len
  obtain ⟨ranges, hinsert, hiter, hranges⟩ := RangeSet.insert_eq h.ranges (by decide) hle
  have hmore : acked ⊆ withAcked acked off len := Set.subset_union_left
  refine ⟨ranges, by rw [SendBuf.ack, hinsert]; rfl, ?_⟩
  obtain ⟨base, hchain, hbase⟩ := h.chain
  refine ⟨⟨base, hchain, fun x hx => hmore (hbase x hx)⟩, h.pos_le, h.sent, h.buffered, h.room, h.whole,
    h.fin, hranges, ?_⟩
  intro x hx
  replace hx : Intervals.Covers ranges.iter x := hx
  rw [hiter] at hx
  rcases Intervals.covers_cover.mp (hx.of_sublist coverWithin_sublist) with hnew | hold
  · exact .inr hnew
  · exact hmore (h.acked x hold)

theorem droppable_split (ackOff : Nat) (data : List RangeBuf) :
    data = droppable ackOff data ++ data.drop (droppable ackOff data).length ∧
      ∀ b ∈ droppable ackOff data, b.maxOff ≤ ackOff := by
  refine ⟨?_, ?_⟩
  · exact (List.prefix_iff_eq_append.mp (List.takeWhile_prefix _)).symm
  · intro b hb
    have hcond := List.mem_takeWhile_imp hb
    rw [Bool.and_eq_true, decide_eq_true_eq, Bool.not_eq_true', Bool.and_eq_false_iff, decide_eq_false_iff_not,
      decide_eq_false_iff_not] at hcond
    omega

theorem ackAndDrop_spec (h : Sound stream acked s) (off len : Nat) :
    ∃ s' n, s.ackAndDrop off len = some (s', n) ∧ Sound stream (withAcked acked off len) s' ∧ SameStream s s' ∧
      ∀ x, s'.Sent x → s.Sent x := by
  obtain ⟨ranges, hack, hsound⟩ := h.ack off len
  obtain ⟨t, ht⟩ : ∃ t, t = {s with acked := ranges} := ⟨_, rfl⟩
  rw [← ht] at hack hsound
  have htSame : SameStream s t := by rw [ht]; exact ⟨rfl, rfl, rfl⟩
  have htSent (x : Nat) (hx : t.Sent x) : s.Sent x := by
    rw [ht] at hx
    exact hx
  have hstay : ∃ s' n, (some (t, 0) : Option (SendBuf × Nat)) = some (s', n) ∧
    Sound stream (withAcked acked off len) s' ∧
      SameStream s s' ∧ ∀ x, s'.Sent x → s.Sent x := ⟨t, 0, rfl, hsound, htSame, htSent⟩
  rw [ackAndDrop, hack]
  show ∃ s' n, (if t.data = [] then _ else _) = some (s', n) ∧ _
  by_cases hnil : t.data = []
  · rw [if_pos hnil]
    exact hstay
  rw [if_neg hnil]
  by_cases hgap : off > t.ackOff
  · rw [if_pos hgap]
    exact hstay
  rw [if_neg hgap]
  dsimp only
  by_cases hnone : droppable t.ackOff t.data = []
  · rw [if_pos hnone]
    exact hstay
  rw [if_neg hnone]
  obtain ⟨hsplit, hbelow⟩ := droppable_split t.ackOff t.data
  obtain ⟨base, hchain, hbase⟩ := hsound.chain
  rw [hsplit] at hchain
  obtain ⟨mid, hfront, hback⟩ := hchain.split
  have hlength := congrArg List.length hsplit
  rw [List.length_append] at hlength
  have hpos := hsound.pos_le
  have hmem {b : RangeBuf} (hb : b ∈ t.data.drop (droppable t.ackOff t.data).length) : b ∈ t.data :=
    List.mem_of_mem_drop hb
  refine ⟨_, _, rfl, ⟨⟨mid, hback, ?_⟩, ?_, ?_, ?_, hsound.room, hsound.whole, hsound.fin, hsound.ranges, hsound.acked⟩,
    ⟨htSame.off, htSame.maxData, htSame.finOff⟩, ?_⟩
  · intro x hx
    by_cases hlow : x < base
    · exact hbase x hlow
    · obtain ⟨b, hb, _, hhigh⟩ := hfront.find (not_lt.mp hlow) hx
      have := hbelow b hb
      exact hsound.of_lt_ackOff (by omega)
  · show t.pos - (droppable t.ackOff t.data).length ≤ (t.data.drop (droppable t.ackOff t.data).length).length
    rw [List.length_drop]
    omega
  · intro b hb
    replace hb : b ∈ (t.data.drop (droppable t.ackOff t.data).length).take (t.pos - (droppable t.ackOff t.data).length)
      := hb
    rw [← List.drop_take] at hb
    exact hsound.sent b (List.mem_of_mem_drop hb)
  · have hbuffered := hsound.buffered
    rw [hsplit, pending_append] at hbuffered
    show t.bufferedBytes - pending (droppable t.ackOff t.data)
      = pending (t.data.drop (droppable t.ackOff t.data).length)
    omega
  · intro x hx
    obtain ⟨b, hb, hlow, hhigh⟩ := hx
    exact htSent x ⟨b, hmem hb, hlow, hhigh⟩

/-! ### Losses -/

/-- A chunk that is shown again shows all of it from the offset on. -/
theorem expand_spec {b : RangeBuf} (h : b.Carries stream) (off : Nat) :
    (expand off b).Carries stream ∧ (∀ x, b.off ≤ x → x < (expand off b).offset → x < off ∧ x < b.offset) ∧
      (expand off b).length = b.length + (b.pos - (expand off b).pos) := by
  have hstart := h.start_le
  have hpos := h.pos_le
  have hoffset := h.offset_eq
  have hmax := h.maxOff_eq
  obtain ⟨p, hp, hlow, hhigh, hshown⟩ : ∃ p, expand off b = {b with pos := p} ∧ b.start ≤ p ∧ p ≤ b.pos ∧
      (p = b.start ∨ b.off + (p - b.start) ≤ off) := by
    rw [expand]
    by_cases hin : off > b.off ∧ off ≤ b.maxOff
    · rw [if_pos hin]
      exact ⟨_, rfl, by omega, Nat.min_le_left _ _, .inr (by omega)⟩
    · rw [if_neg hin]
      exact ⟨_, rfl, Nat.le_refl _, hstart, .inl rfl⟩
  have hcarries : (expand off b).Carries stream := by
    rw [hp]
    exact ⟨hlow, hhigh.trans hpos, h.inside, h.off_le, h.agrees⟩
  refine ⟨hcarries, ?_, ?_⟩
  · intro x hx hlt
    rw [hcarries.offset_eq, hp] at hlt
    replace hlt : x < b.off + (p - b.start) := hlt
    omega
  · rw [hp]
    show b.len - (p - b.start) = b.len - (b.pos - b.start) + (b.pos - p)
    omega

/-- What the loop over the chunks from an index on leaves. -/
structure Rewound (stream : List UInt8) (start stop off maxOff i pos : Nat) (data data' : List RangeBuf)
    (pos' total : Nat) :
    Prop where
  chain : Chain stream start data' stop
  pos_le : pos' ≤ pos
  length_le : data.length ≤ data'.length
  sent : ∀ (j : Nat) (b : RangeBuf), i + j < pos' → data'[j]? = some b → b.length = 0
  pending_eq : pending data' = pending data + total
  /-- Nothing of the range counts as sent. -/
  unsent : ∀ x, (∃ b ∈ data', b.off ≤ x ∧ x < b.offset) → (∃ b ∈ data, b.off ≤ x ∧ x < b.offset) ∧
    ¬ (off ≤ x ∧ x < maxOff)

section Rewound
variable {start stop off maxOff i pos : Nat} {b : RangeBuf} {rest data' : List RangeBuf} {pos' total : Nat}

/-- A chunk that lies behind the range ends the loop. -/
theorem rewound_behind (h : Chain stream start (b :: rest) stop) (hbehind : b.off ≥ maxOff)
    (hsent : ∀ (j : Nat) (c : RangeBuf), i + j < pos → (b :: rest)[j]? = some c → c.length = 0) :
    Rewound stream start stop off maxOff i pos (b :: rest) (b :: rest) pos 0 := by
  refine ⟨h, Nat.le_refl _, Nat.le_refl _, hsent, rfl, ?_⟩
  intro x hx
  refine ⟨hx, ?_⟩
  obtain ⟨c, hc, hlow, _⟩ := hx
  rcases List.mem_cons.mp hc with rfl | hc
  · omega
  · have hmax := b.offset_le_maxOff
    have hoffset := h.2.2.1.offset_eq
    have hnext := h.behind hc
    omega

/-- A chunk in front of the range stays as it is. -/
theorem Rewound.pass (hr : Rewound stream (start + b.len) stop off maxOff (i + 1) pos rest data' pos' total)
    (h : Chain stream start (b :: rest) stop) (hfront : off > b.maxOff)
    (hsent : ∀ (j : Nat) (c : RangeBuf), i + j < pos → (b :: rest)[j]? = some c → c.length = 0) :
    Rewound stream start stop off maxOff i pos (b :: rest) (b :: data') pos' total := by
  obtain ⟨hoff, hlen, hcarries, _⟩ := h
  refine ⟨⟨hoff, hlen, hcarries, hr.chain⟩, hr.pos_le, Nat.succ_le_succ hr.length_le, ?_, ?_, ?_⟩
  · intro j c hj hc
    cases j with
    | zero => exact hsent 0 c (by have := hr.pos_le; omega) hc
    | succ j => exact hr.sent j c (by omega) hc
  · rw [pending_cons, pending_cons, hr.pending_eq, Nat.add_assoc]
  · intro x hx
    obtain ⟨c, hc, hlow, hhigh⟩ := hx
    rcases List.mem_cons.mp hc with rfl | hc
    · have := c.offset_le_maxOff
      exact ⟨⟨c, List.mem_cons_self .., hlow, hhigh⟩, by omega⟩
    · obtain ⟨⟨d, hd, hdx⟩, hout⟩ := hr.unsent x ⟨c, hc, hlow, hhigh⟩
      exact ⟨⟨d, List.mem_cons_of_mem _ hd, hdx⟩, hout⟩

/-- A chunk that the range reaches is shown again. -/
theorem Rewound.shown
    (hr : Rewound stream (start + b.len) stop off maxOff (i + 1) (min pos i) rest data' pos' total)
    (h : Chain stream start (b :: rest) stop) :
    Rewound stream start stop off maxOff i pos (b :: rest) (expand off b :: data') pos'
      (b.pos - (expand off b).pos + total) := by
  obtain ⟨hoff, hlen, hcarries, _⟩ := h
  have hpos := hr.pos_le
  obtain ⟨hshown, hunsent, hlength⟩ := expand_spec hcarries off
  refine ⟨⟨hoff, hlen, hshown, hr.chain⟩, hpos.trans (Nat.min_le_left _ _), Nat.succ_le_succ hr.length_le, ?_, ?_, ?_⟩
  · intro j c hj
    omega
  · rw [pending_cons, pending_cons, hr.pending_eq, hlength]
    omega
  · intro x hx
    obtain ⟨c, hc, hlow, hhigh⟩ := hx
    rcases List.mem_cons.mp hc with rfl | hc
    · have hlow' : b.off ≤ x := hlow
      have := hunsent x hlow' hhigh
      exact ⟨⟨b, List.mem_cons_self .., hlow', by omega⟩, by omega⟩
    · obtain ⟨⟨d, hd, hdx⟩, hout⟩ := hr.unsent x ⟨c, hc, hlow, hhigh⟩
      exact ⟨⟨d, List.mem_cons_of_mem _ hd, hdx⟩, hout⟩

/-- A chunk that the range ends in is split there, and its front is shown again. -/
theorem rewound_split (off i pos : Nat) (h : Chain stream start (b :: rest) stop)
    (hinside : b.off < maxOff ∧ maxOff < b.maxOff) :
    ∃ front back, b.splitOff (maxOff - b.off) = some (front, back) ∧
      Rewound stream start stop off maxOff i pos (b :: rest) (expand off front :: back :: rest) (min pos i)
        (front.pos - (expand off front).pos) := by
  have hbehind {c : RangeBuf} (hc : c ∈ rest) := h.behind hc
  obtain ⟨hoff, hlen, hcarries, hrest⟩ := h
  have hmax := hcarries.maxOff_eq
  have hoffset := hcarries.offset_eq
  obtain ⟨front, back, hsplit, hfrontCarries, hbackCarries, hfo, hfl, hbo, hbl, hfoff, hboff, _⟩ :=
    hcarries.splitOff (show maxOff - b.off ≤ b.len by omega)
  have hfrontMax := hfrontCarries.maxOff_eq
  have hbackMax := hbackCarries.maxOff_eq
  obtain ⟨hshown, hunsent, hlength⟩ := expand_spec hfrontCarries off
  refine ⟨front, back, hsplit, ⟨?_, ?_, hshown, ?_, ?_, hbackCarries, ?_⟩, Nat.min_le_left _ _, Nat.le_succ _, ?_, ?_,
    ?_⟩
  · exact hfo.trans hoff
  · show 0 < front.len
    omega
  · show back.off = start + front.len
    omega
  · omega
  · show Chain stream (start + front.len + back.len) rest stop
    rw [show start + front.len + back.len = start + b.len by omega]
    exact hrest
  · intro j c hj
    omega
  · have h1 := front.length_eq
    have h2 := back.length_eq
    have h3 := b.length_eq
    have h4 := b.offset_le_maxOff
    rw [pending_cons, pending_cons, pending_cons, hlength]
    omega
  · intro x hx
    obtain ⟨c, hc, hlow, hhigh⟩ := hx
    rcases List.mem_cons.mp hc with rfl | hc
    · have hlow' : front.off ≤ x := hlow
      have := hunsent x hlow' hhigh
      exact ⟨⟨b, List.mem_cons_self .., by omega, by omega⟩, by omega⟩
    · rcases List.mem_cons.mp hc with rfl | hc
      · exact ⟨⟨b, List.mem_cons_self .., by omega, by omega⟩, by omega⟩
      · have := hbehind hc
        exact ⟨⟨c, List.mem_cons_of_mem _ hc, hlow, hhigh⟩, by omega⟩

end Rewound

/-- The loop shows again what the range reaches. -/
theorem retransmitLoop_spec {start stop off maxOff i pos : Nat} {data : List RangeBuf}
    (h : Chain stream start data stop)
    (hsent : ∀ (j : Nat) (b : RangeBuf), i + j < pos → data[j]? = some b → b.length = 0) :
    ∃ data' pos' total, retransmitLoop off maxOff i data pos = some (data', pos', total) ∧
      Rewound stream start stop off maxOff i pos data data' pos' total := by
  induction data generalizing start i pos with
  | nil =>
    refine ⟨[], pos, 0, rfl, h, Nat.le_refl _, Nat.le_refl _, hsent, rfl, ?_⟩
    intro x hx
    obtain ⟨b, hb, _⟩ := hx
    cases hb
  | cons b rest ih =>
    have hrest : Chain stream (start + b.len) rest stop := h.2.2.2
    rw [retransmitLoop]
    by_cases hbehind : b.off ≥ maxOff
    · rw [if_pos hbehind]
      exact ⟨b :: rest, pos, 0, rfl, rewound_behind h hbehind hsent⟩
    rw [if_neg hbehind]
    by_cases hfront : off > b.maxOff
    · rw [if_pos hfront]
      have hsentRest : ∀ (j : Nat) (c : RangeBuf), i + 1 + j < pos → rest[j]? = some c → c.length = 0 :=
        fun j c hj hc => hsent (j + 1) c (by omega) hc
      obtain ⟨data', pos', total, hloop, hr⟩ := ih hrest hsentRest
      rw [hloop]
      exact ⟨b :: data', pos', total, rfl, hr.pass h hfront hsent⟩
    rw [if_neg hfront]
    by_cases hinside : b.off < maxOff ∧ maxOff < b.maxOff
    · rw [if_pos hinside]
      obtain ⟨front, back, hsplit, hr⟩ := rewound_split off i pos h hinside
      rw [hsplit]
      exact ⟨_, _, _, rfl, hr⟩
    · rw [if_neg hinside]
      have hsentRest : ∀ (j : Nat) (c : RangeBuf), i + 1 + j < min pos i → rest[j]? = some c → c.length = 0 :=
        fun j c hj => by omega
      obtain ⟨data', pos', total, hloop, hr⟩ := ih hrest hsentRest
      rw [hloop]
      exact ⟨_, _, _, rfl, hr.shown h⟩

/-- Of a range that was lost nothing counts as sent any more, but for what was acknowledged. -/
theorem retransmit_spec (h : Sound stream acked s) (off len : Nat) :
    ∃ s' n, s.retransmit off len = some (s', n) ∧ Sound stream acked s' ∧ SameStream s s' ∧
      ∀ x, s'.Sent x → s.Sent x ∧ (off ≤ x → x < off + len → x ∈ acked) := by
  rw [retransmit]
  by_cases hnil : s.data = []
  · rw [if_pos hnil]
    refine ⟨s, 0, rfl, h, ⟨rfl, rfl, rfl⟩, fun x hx => ?_⟩
    obtain ⟨b, hb, _⟩ := hx
    rw [hnil] at hb
    cases hb
  rw [if_neg hnil]
  dsimp only
  by_cases hdone : off + len ≤ s.ackOff
  · rw [if_pos hdone]
    exact ⟨s, 0, rfl, h, ⟨rfl, rfl, rfl⟩, fun x hx => ⟨hx, fun _ hlt => h.of_lt_ackOff (by omega)⟩⟩
  rw [if_neg hdone]
  obtain ⟨base, hchain, hbase⟩ := h.chain
  have hindex : ∀ (j : Nat) (b : RangeBuf), 0 + j < s.pos → s.data[j]? = some b → b.length = 0 := by
    intro j b hj hb
    apply h.sent
    rw [List.mem_take_iff_getElem]
    obtain ⟨hlt, hget⟩ := List.getElem?_eq_some_iff.mp hb
    exact ⟨j, by omega, hget⟩
  obtain ⟨data, pos, total, hloop, hr⟩ := @retransmitLoop_spec _ _ _ off (off + len) _ _ _ hchain hindex
  have hposLe := hr.pos_le
  have hlengthLe := hr.length_le
  have hpos := h.pos_le
  rw [hloop]
  refine ⟨_, total, rfl, ⟨⟨base, hr.chain, hbase⟩, ?_, ?_, ?_, h.room, h.whole, h.fin, h.ranges, h.acked⟩,
    ⟨rfl, rfl, rfl⟩, ?_⟩
  · show pos ≤ data.length
    omega
  · intro b hb
    replace hb : b ∈ data.take pos := hb
    obtain ⟨j, hj, hget⟩ := List.mem_take_iff_getElem.mp hb
    exact hr.sent j b (by omega) (List.getElem?_eq_some_iff.mpr ⟨_, hget⟩)
  · show s.bufferedBytes + total = pending data
    rw [hr.pending_eq, h.buffered]
  · intro x hx
    obtain ⟨hsent, hout⟩ := hr.unsent x hx
    exact ⟨hsent, fun hlow hhigh => absurd ⟨hlow, hhigh⟩ hout⟩

end SendBuf
end Aether.Quic
