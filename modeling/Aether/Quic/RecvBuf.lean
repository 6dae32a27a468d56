import Aether.Machine.Run
import Aether.Quic.RangeBuf
import Aether.Rust.BTreeMap

/-! The receiving end of a stream.

Pieces of the stream arrive in any order, repeated and overlapping. `write` cuts out of a piece
what is already there and keeps the rest under its last offset; `emit` hands out what joins
on to what was handed out before. -/
namespace Aether.Quic
open Rust (BTreeMap)

/-! ### Flow control -/

def windowIncreaseFactor : Nat := 2

def windowTriggerFactor : Nat := 2

/-- Times are in nanoseconds. -/
structure FlowControl where
  consumed : Nat
  maxData : Nat
  window : Nat
  maxWindow : Nat
  lastUpdate : Option Nat

namespace FlowControl

def new (maxData window maxWindow : Nat) : FlowControl := ⟨0, maxData, min window maxWindow, maxWindow, none⟩

def addConsumed (consumed : Nat) (f : FlowControl) : FlowControl := {f with consumed := f.consumed + consumed}

def shouldUpdateMaxData (f : FlowControl) : Bool := f.maxData - f.consumed < f.window / 2

def maxDataNext (f : FlowControl) : Nat := f.consumed + f.window

def updateMaxData (now : Nat) (f : FlowControl) : FlowControl :=
  {f with maxData := f.maxDataNext, lastUpdate := some now}

def setWindow (window : Nat) (f : FlowControl) : FlowControl := {f with window := min window f.maxWindow}

def autotuneWindow (now rtt : Nat) (f : FlowControl) : FlowControl :=
  match f.lastUpdate with
  | some lastUpdate =>
    if now - lastUpdate < rtt * windowTriggerFactor then f.setWindow (f.window * windowIncreaseFactor) else f
  | none => f

end FlowControl

/-! ### The buffer -/

inductive Error where
  | flowControl
  | finalSize
  | done
  | streamReset (code : Nat)
  | streamStopped (code : Nat)
deriving DecidableEq

structure RecvBuf where
  data : BTreeMap Nat RangeBuf
  off : Nat
  len : Nat
  flowControl : FlowControl
  finOff : Option Nat
  error : Option Nat
  drain : Bool

namespace RecvBuf

def new (maxData initialWindow maxWindow : Nat) : RecvBuf where
  data := BTreeMap.empty
  off := 0
  len := 0
  flowControl := FlowControl.new maxData initialWindow maxWindow
  finOff := none
  error := none
  drain := false

def maxData (r : RecvBuf) : Nat := r.flowControl.maxData

def isFin (r : RecvBuf) : Bool := r.finOff == some r.off

def almostFull (r : RecvBuf) : Bool := r.finOff.isNone && r.flowControl.shouldUpdateMaxData

/-- There is something to be read. -/
def ready (r : RecvBuf) : Bool :=
  match r.data.first with
  | some entry => entry.2.offset == r.off
  | none => false

/-! ### Writing -/

/-- The loop over the pieces that may overlap `buf`: what is left of it, if anything, and what was
split off behind a piece and is looked at later. -/
def carve : List RangeBuf → (buf : RangeBuf) → (tmp : List RangeBuf) → Option (Option RangeBuf × List RangeBuf)
  | [], buf, tmp => some (some buf, tmp)
  | b :: rest, buf, tmp =>
    -- We are past the current buffer.
    if b.offset > buf.maxOff then some (some buf, tmp)
    -- New buffer is fully contained in existing buffer.
    else if buf.offset ≥ b.offset ∧ buf.maxOff ≤ b.maxOff then some (none, tmp)
    -- New buffer's start overlaps existing buffer.
    else if buf.offset ≥ b.offset ∧ buf.offset < b.maxOff then do
      let parts ← buf.splitOff (b.maxOff - buf.offset)
      carve rest parts.2 tmp
    -- New buffer's end overlaps existing buffer.
    else if buf.offset < b.offset ∧ buf.maxOff > b.offset then do
      let parts ← buf.splitOff (b.offset - buf.offset)
      carve rest parts.1 (tmp ++ [parts.2])
    else carve rest buf tmp

/-- What was handed out already is not kept again. -/
def trimFront (off : Nat) (buf : RangeBuf) : Option RangeBuf :=
  if off > buf.offset then (buf.splitOff (off - buf.offset)).map (·.2) else some buf

def overlapping (r : RecvBuf) (buf : RangeBuf) (tmp : List RangeBuf) : Option (Option RangeBuf × List RangeBuf) :=
  if buf.offset < r.len ∨ buf.isEmpty = true then carve ((r.data.rangeFrom buf.offset).map (·.2)) buf tmp
  else some (some buf, tmp)

def store (buf : RangeBuf) (r : RecvBuf) : RecvBuf :=
  let len := max r.len buf.maxOff
  if r.drain then {r with len, off := len} else {r with len, data := r.data.insert buf.maxOff buf}

/-- The loop over the pieces still to be looked at. It fails where a split fails, or for want of
turns. -/
def absorb : (turns : Nat) → (tmp : List RangeBuf) → RecvBuf → Option RecvBuf
  | _, [], r => some r
  | 0, _ :: _, _ => none
  | turns + 1, buf :: tmp, r => do
    let buf ← trimFront r.off buf
    let left ← r.overlapping buf tmp
    match left.1 with
    | none => absorb turns left.2 r
    | some buf => absorb turns left.2 (r.store buf)

/-- The checks in front of the loop, and which pieces they let pass: an error, or what is left to
be done with the piece. -/
def accept (buf : RangeBuf) (r : RecvBuf) : Except Error (RecvBuf × Bool) :=
  if buf.maxOff > r.maxData then .error .flowControl
  else if r.finOff.any (fun finOff => decide (buf.maxOff > finOff) || (buf.fin && finOff != buf.maxOff)) then
    .error .finalSize
  else if buf.fin ∧ buf.maxOff < r.len then .error .finalSize
  else if r.finOff.isSome ∧ buf.isEmpty then .ok (r, false)
  else
    let r := if buf.fin then {r with finOff := some buf.maxOff} else r
    if ¬ buf.fin ∧ buf.isEmpty then .ok (r, false)
    else if r.off ≥ buf.maxOff ∧ ¬ buf.isEmpty then .ok (r, false)
    else .ok (r, true)

/-- `write`, which panics where a split does. -/
def write (buf : RangeBuf) (r : RecvBuf) : Option (Except Error RecvBuf) :=
  match r.accept buf with
  | .error e => some (.error e)
  | .ok (r, false) => some (.ok r)
  | .ok (r, true) => (absorb (buf.length + 1) [buf] r).map .ok

/-! ### Reading -/

/-- The loop of `emit_or_discard`: each turn but the last takes an entry. -/
def take : (entries : Nat) → (cap : Nat) → RecvBuf → (out : List UInt8) → RecvBuf × List UInt8
  | 0, _, r, out => (r, out)
  | entries + 1, cap, r, out =>
    if cap > 0 ∧ r.ready = true then
      match r.data.first with
      | none => (r, out)
      | some (key, buf) =>
        let bufLen := min buf.length cap
        let out := out ++ buf.bytes.take bufLen
        let r := {r with off := r.off + bufLen}
        if bufLen < buf.length then ({r with data := r.data.insert key (buf.consume bufLen)}, out)
        else take entries (cap - bufLen) {r with data := r.data.popFirst} out
    else (r, out)

/-- `emit_or_discard`, with what is emitted or discarded and whether that was the end. -/
def emitOrDiscard (cap : Nat) (r : RecvBuf) : RecvBuf × Except Error (List UInt8 × Bool) :=
  if r.ready then
    match r.error with
    | some code => ({r with data := BTreeMap.empty}, .error (.streamReset code))
    | none =>
      let taken := take r.data.len cap r []
      let r := {taken.1 with flowControl := taken.1.flowControl.addConsumed taken.2.length}
      (r, .ok (taken.2, r.isFin))
  else (r, .error .done)

/-! ### The end of a stream -/

/-- A piece without bytes tells the application that the stream was reset. -/
def notify (deltas : Nat × Nat) (r : RecvBuf) : Option (RecvBuf × Except Error (Nat × Nat)) :=
  match r.write (RangeBuf.fromRaw [] r.off true) with
  | none => none
  | some (.error e) => some (r, .error e)
  | some (.ok r) => some (r, .ok deltas)

/-- `reset`; the result tells how much goes back to the flow control of the connection. -/
def reset (code finalSize : Nat) (r : RecvBuf) : Option (RecvBuf × Except Error (Nat × Nat)) :=
  if r.finOff.any (· != finalSize) then some (r, .error .finalSize)
  else if finalSize < r.len then some (r, .error .finalSize)
  else if r.error.isSome then some (r, .ok (0, 0))
  else
    notify (finalSize - r.len, finalSize - r.off)
      {r with error := some code, off := finalSize, data := BTreeMap.empty}

def shutdown (r : RecvBuf) : RecvBuf × Except Error Nat :=
  if r.drain then (r, .error .done)
  else ({r with drain := true, data := BTreeMap.empty, off := r.len}, .ok (r.len - r.off))

def updateMaxData (now : Nat) (r : RecvBuf) : RecvBuf := {r with flowControl := r.flowControl.updateMaxData now}

def autotuneWindow (now rtt : Nat) (r : RecvBuf) : RecvBuf :=
  {r with flowControl := r.flowControl.autotuneWindow now rtt}

/-! ### Cutting a piece -/

section Carve
variable {stream : List UInt8}

/-- A piece with bytes that ends in front of the others is left as it is. -/
theorem carve_in_front {bs : List RangeBuf} {buf : RangeBuf} {tmp : List RangeBuf} (hne : buf.offset < buf.maxOff)
    (h : ∀ b ∈ bs, buf.maxOff ≤ b.offset) : carve bs buf tmp = some (some buf, tmp) := by
  induction bs with
  | nil => rfl
  | cons b rest ih =>
    have hb := h b (List.mem_cons_self ..)
    have hbb := b.offset_le_maxOff
    rw [carve]
    split
    · rfl
    · rw [if_neg (by omega), if_neg (by omega), if_neg (by omega)]
      exact ih (fun b hb => h b (List.mem_cons_of_mem _ hb))

/-- What becomes of a piece: the part kept lies clear of the others, and with what waits and what was
there already it is all of the piece. -/
structure Carved (stream : List UInt8) (bs : List RangeBuf) (buf : RangeBuf) (kept : Option RangeBuf)
    (later : List RangeBuf) : Prop where
  kept_fresh : ∀ b ∈ kept, b.Fresh stream ∧ buf.offset ≤ b.offset ∧ b.maxOff ≤ buf.maxOff
  clear : ∀ b ∈ kept, ∀ c ∈ bs, b.maxOff ≤ c.offset ∨ c.maxOff ≤ b.offset
  /-- A part without bytes is the piece itself, and no other ends where it does. -/
  empty : ∀ b ∈ kept, b.offset = b.maxOff → b = buf ∧ ∀ c ∈ bs, c.maxOff ≠ b.maxOff
  later_fresh : ∀ b ∈ later, b.Fresh stream ∧ buf.offset < b.offset ∧ b.offset < b.maxOff ∧ b.maxOff = buf.maxOff
  later_length : later.length ≤ 1
  alone : bs = [] → later = []
  /-- If nothing waits, the end of the piece is reached. -/
  reached : later = [] → (∃ c ∈ bs, buf.maxOff ≤ c.maxOff) ∨ ∃ b ∈ kept, b.maxOff = buf.maxOff
  whole : ∀ x, buf.offset ≤ x → x < buf.maxOff → (∃ c ∈ bs, c.offset ≤ x ∧ x < c.maxOff) ∨
    (∃ b ∈ kept, b.offset ≤ x ∧ x < b.maxOff) ∨ ∃ b ∈ later, b.offset ≤ x ∧ x < b.maxOff

/-- A piece that lies clear of the others is kept. -/
theorem Carved.of_clear {bs : List RangeBuf} {buf : RangeBuf} (hbuf : buf.Fresh stream)
    (hclear : ∀ c ∈ bs, buf.maxOff ≤ c.offset ∨ c.maxOff ≤ buf.offset)
    (hempty : buf.offset = buf.maxOff → ∀ c ∈ bs, c.maxOff ≠ buf.maxOff) : Carved stream bs buf (some buf) [] := by
  refine ⟨?_, ?_, ?_, fun b hb => absurd hb List.not_mem_nil, Nat.zero_le _, fun _ => rfl,
    fun _ => .inr ⟨buf, rfl, rfl⟩, ?_⟩
  · intro b hb
    obtain rfl : buf = b := Option.mem_some_iff.mp hb
    exact ⟨hbuf, Nat.le_refl _, Nat.le_refl _⟩
  · intro b hb
    obtain rfl : buf = b := Option.mem_some_iff.mp hb
    exact hclear
  · intro b hb he
    obtain rfl : buf = b := Option.mem_some_iff.mp hb
    exact ⟨rfl, hempty he⟩
  · intro x hlow hhigh
    exact .inr (.inl ⟨buf, rfl, hlow, hhigh⟩)

section Pieces
variable {b buf : RangeBuf} {rest : List RangeBuf} {kept : Option RangeBuf} {later : List RangeBuf}

/-- A piece that ends before all others start. -/
theorem Carved.in_front {bs : List RangeBuf} (hbuf : buf.Fresh stream) (h : ∀ c ∈ bs, buf.maxOff < c.offset) :
    Carved stream bs buf (some buf) [] := by
  apply Carved.of_clear hbuf
  · exact fun c hc => .inl (h c hc).le
  · intro _ c hc he
    have := h c hc
    have := c.offset_le_maxOff
    omega

/-- Nothing is left of a piece that lies in another. -/
theorem Carved.inside (hlow : b.offset ≤ buf.offset) (hhigh : buf.maxOff ≤ b.maxOff) :
    Carved stream (b :: rest) buf none [] := by
  refine ⟨?_, ?_, ?_, ?_, Nat.zero_le _, fun _ => rfl, ?_, ?_⟩
  · exact fun c hc => absurd hc (Option.not_mem_none c)
  · exact fun c hc => absurd hc (Option.not_mem_none c)
  · exact fun c hc => absurd hc (Option.not_mem_none c)
  · exact fun c hc => absurd hc List.not_mem_nil
  · exact fun _ => .inl ⟨b, List.mem_cons_self .., hhigh⟩
  · intro x hxlow hxhigh
    exact .inl ⟨b, List.mem_cons_self .., by omega, by omega⟩

/-- Of a piece that starts in another the loop goes on with what is behind that. -/
theorem Carved.behind {back : RangeBuf} (h : Carved stream rest back kept later) (hlow : b.offset ≤ buf.offset)
    (hlt : b.maxOff < buf.maxOff) (hle : buf.offset ≤ b.maxOff) (hoff : back.offset = b.maxOff)
    (hmax : back.maxOff = buf.maxOff) : Carved stream (b :: rest) buf kept later := by
  refine ⟨?_, ?_, ?_, ?_, h.later_length, fun h => absurd h (List.cons_ne_nil _ _), ?_, ?_⟩
  · intro c hc
    have := h.kept_fresh c hc
    exact ⟨this.1, by omega, by omega⟩
  · intro c hc d hd
    rcases List.mem_cons.mp hd with rfl | hd
    · have := h.kept_fresh c hc
      exact .inr (by omega)
    · exact h.clear c hc d hd
  · -- What is left behind a piece has bytes.
    intro c hc he
    obtain ⟨rfl, _⟩ := h.empty c hc he
    omega
  · intro c hc
    have := h.later_fresh c hc
    exact ⟨this.1, by omega, this.2.2.1, by omega⟩
  · intro hnone
    rcases h.reached hnone with ⟨c, hc, hle⟩ | ⟨c, hc, he⟩
    · exact .inl ⟨c, List.mem_cons_of_mem _ hc, by omega⟩
    · exact .inr ⟨c, hc, by omega⟩
  · intro x hxlow hxhigh
    by_cases hx : x < b.maxOff
    · exact .inl ⟨b, List.mem_cons_self .., by omega, hx⟩
    · rcases h.whole x (by omega) (by omega) with ⟨c, hc, hcx⟩ | hx
      · exact .inl ⟨c, List.mem_cons_of_mem _ hc, hcx⟩
      · exact .inr hx

/-- Of a piece that reaches into another the front is kept, and the rest is looked at later. -/
theorem Carved.cut {front back : RangeBuf} (hfront : front.Fresh stream) (hback : back.Fresh stream)
    (hlt : buf.offset < b.offset) (hgt : b.offset < buf.maxOff) (hfrontOff : front.offset = buf.offset)
    (hfrontMax : front.maxOff = b.offset) (hbackOff : back.offset = b.offset) (hbackMax : back.maxOff = buf.maxOff)
    (hrest : ∀ c ∈ rest, b.maxOff ≤ c.offset) : Carved stream (b :: rest) buf (some front) [back] := by
  have hbb := b.offset_le_maxOff
  refine ⟨?_, ?_, ?_, ?_, Nat.le_refl 1, fun h => absurd h (List.cons_ne_nil _ _),
    fun h => absurd h (List.cons_ne_nil _ _), ?_⟩
  · intro c hc
    obtain rfl : front = c := Option.mem_some_iff.mp hc
    exact ⟨hfront, by omega, by omega⟩
  · intro c hc d hd
    obtain rfl : front = c := Option.mem_some_iff.mp hc
    rcases List.mem_cons.mp hd with rfl | hd
    · exact .inl (by omega)
    · have := hrest d hd
      exact .inl (by omega)
  · intro c hc he
    obtain rfl : front = c := Option.mem_some_iff.mp hc
    omega
  · intro c hc
    rw [List.mem_singleton.mp hc]
    exact ⟨hback, by omega, by omega, hbackMax⟩
  · intro x hlow hhigh
    by_cases hx : x < b.offset
    · exact .inr (.inl ⟨front, rfl, by omega, by omega⟩)
    · exact .inr (.inr ⟨back, List.mem_singleton.mpr rfl, by omega, by omega⟩)

/-- A piece that only touches another is looked at as if that were not there. -/
theorem Carved.touching (h : Carved stream rest buf kept later) (hclear : buf.maxOff ≤ b.offset ∨ b.maxOff ≤ buf.offset)
    (hempty : buf.offset = buf.maxOff → b.maxOff ≠ buf.maxOff) : Carved stream (b :: rest) buf kept later := by
  refine ⟨h.kept_fresh, ?_, ?_, h.later_fresh, h.later_length, fun h => absurd h (List.cons_ne_nil _ _), ?_, ?_⟩
  · intro c hc d hd
    rcases List.mem_cons.mp hd with rfl | hd
    · have := h.kept_fresh c hc
      omega
    · exact h.clear c hc d hd
  · intro c hc he
    obtain ⟨rfl, hne⟩ := h.empty c hc he
    refine ⟨rfl, ?_⟩
    intro d hd
    rcases List.mem_cons.mp hd with rfl | hd
    · exact hempty he
    · exact hne d hd
  · intro hnone
    rcases h.reached hnone with ⟨c, hc, hle⟩ | hkept
    · exact .inl ⟨c, List.mem_cons_of_mem _ hc, hle⟩
    · exact .inr hkept
  · intro x hlow hhigh
    rcases h.whole x hlow hhigh with ⟨c, hc, hcx⟩ | hx
    · exact .inl ⟨c, List.mem_cons_of_mem _ hc, hcx⟩
    · exact .inr hx

end Pieces

/-- Over pieces that lie apart the loop ends, with what it is to leave. -/
theorem carve_spec {bs : List RangeBuf} (hapart : bs.Pairwise (fun b c => b.maxOff ≤ c.offset)) {buf : RangeBuf}
    (hbuf : buf.Fresh stream) (hbs : ∀ b ∈ bs, buf.offset ≤ b.maxOff) (tmp : List RangeBuf) :
    ∃ kept later, carve bs buf tmp = some (kept, tmp ++ later) ∧ Carved stream bs buf kept later := by
  induction bs generalizing buf tmp with
  | nil =>
    refine ⟨some buf, [], by rw [carve, List.append_nil], Carved.in_front hbuf ?_⟩
    exact fun c hc => absurd hc List.not_mem_nil
  | cons b rest ih =>
    obtain ⟨hb, hrest⟩ := List.pairwise_cons.mp hapart
    have hbuf' := buf.offset_le_maxOff
    have hbb := b.offset_le_maxOff
    have hbmax := hbs b (List.mem_cons_self ..)
    rw [carve]
    by_cases hpast : b.offset > buf.maxOff
    · rw [if_pos hpast]
      refine ⟨some buf, [], by rw [List.append_nil], Carved.in_front hbuf ?_⟩
      intro c hc
      rcases List.mem_cons.mp hc with rfl | hc
      · exact hpast
      · have := hb c hc
        omega
    rw [if_neg hpast]
    by_cases hinside : buf.offset ≥ b.offset ∧ buf.maxOff ≤ b.maxOff
    · rw [if_pos hinside]
      exact ⟨none, [], by rw [List.append_nil], Carved.inside hinside.1 hinside.2⟩
    rw [if_neg hinside]
    by_cases hstart : buf.offset ≥ b.offset ∧ buf.offset < b.maxOff
    · obtain ⟨front, back, hsplit, _, hback, _, _, hbackOff, hbackMax, _⟩ :=
        hbuf.splitOff (show buf.offset ≤ b.maxOff by omega) (show b.maxOff ≤ buf.maxOff by omega)
      have hrestBack : ∀ c ∈ rest, back.offset ≤ c.maxOff := by
        intro c hc
        have := hb c hc
        have := c.offset_le_maxOff
        omega
      obtain ⟨kept, later, hcarve, h⟩ := ih hrest hback hrestBack tmp
      rw [if_pos hstart, hsplit]
      exact ⟨kept, later, hcarve, h.behind hstart.1 (by omega) hbmax hbackOff hbackMax⟩
    rw [if_neg hstart]
    by_cases hend : buf.offset < b.offset ∧ buf.maxOff > b.offset
    · obtain ⟨front, back, hsplit, hfront, hback, hfrontOff, hfrontMax, hbackOff, hbackMax, _⟩ :=
        hbuf.splitOff (show buf.offset ≤ b.offset by omega) (show b.offset ≤ buf.maxOff by omega)
      have hbehind : ∀ c ∈ rest, front.maxOff ≤ c.offset := by
        intro c hc
        have := hb c hc
        omega
      rw [if_pos hend, hsplit]
      have hbytes : front.offset < front.maxOff := by omega
      exact ⟨some front, [back], carve_in_front hbytes hbehind,
        Carved.cut hfront hback hend.1 hend.2 hfrontOff hfrontMax hbackOff hbackMax hb⟩
    rw [if_neg hend]
    obtain ⟨kept, later, hcarve, h⟩ := ih hrest hbuf (fun c hc => hbs c (List.mem_cons_of_mem _ hc)) tmp
    exact ⟨kept, later, hcarve, h.touching (by omega) (by omega)⟩

end Carve
end RecvBuf
end Aether.Quic
