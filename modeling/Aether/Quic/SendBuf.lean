import Mathlib.Algebra.BigOperators.Group.List.Basic
import Aether.Quic.RangeSet
import Aether.Quic.RecvBuf

/-! The sending end of a stream.

What the application writes is kept in chunks until the peer has acknowledged it. `emit` takes
from the chunks in order and moves their positions, `retransmit` moves them back, and
`ack_and_drop` lets go of the chunks at the front that were acknowledged whole. -/
namespace Aether.Quic

def sendBufferSize : Nat := 4096

structure SendBuf where
  data : List RangeBuf
  /-- The index of the chunk that is sent next. -/
  pos : Nat
  /-- Where the stream ends so far. -/
  off : Nat
  emitOff : Nat
  bufferedBytes : Nat
  maxData : Nat
  finOff : Option Nat
  acked : RangeSet
  error : Option Nat

namespace SendBuf

def new (maxData : Nat) : SendBuf where
  data := []
  pos := 0
  off := 0
  emitOff := 0
  bufferedBytes := 0
  maxData := maxData
  finOff := none
  acked := RangeSet.default
  error := none

/-- The first offset of the chunks from an index on that is still to be sent. -/
def frontOf (off : Nat) : List RangeBuf → Nat
  | [] => off
  | b :: rest => if b.isEmpty then frontOf off rest else b.offset

def offFront (s : SendBuf) : Nat := frontOf s.off (s.data.drop s.pos)

def isFin (s : SendBuf) : Bool := s.finOff == some s.off

/-- The end of what is acknowledged without a gap. -/
def ackOff (s : SendBuf) : Nat :=
  match s.acked.iter with
  | (0, stop) :: _ => stop
  | _ => 0

def isComplete (s : SendBuf) : Bool := s.finOff.any (fun finOff => s.acked.iter == [(0, finOff)])

def cap (s : SendBuf) : Except Error Nat :=
  match s.error with
  | some e => .error (.streamStopped e)
  | none => .ok (s.maxData - s.off)

/-! ### Writing -/

/-- What may be written of so many bytes, and whether the stream ends with them. -/
def reserveForWrite (len : Nat) (fin : Bool) (s : SendBuf) : Except Error (SendBuf × Nat × Bool) :=
  match s.cap with
  | .error e => .error e
  | .ok cap =>
    let maxOff := s.off + len
    let reserved := if len > cap then cap else len
    let fin := if len > cap then false else fin
    -- Can't write past final offset, and can't "undo" it.
    if s.finOff.any (fun finOff => decide (maxOff > finOff) || (maxOff == finOff && !fin)) then .error .finalSize
    else
      let s := if fin then {s with finOff := some maxOff} else s
      -- Don't queue data that was already fully acked.
      if s.ackOff ≥ maxOff then .ok (s, 0, fin) else .ok (s, reserved, fin)

/-- `SendReserve::append_buf` -/
def append (chunk : List UInt8) (fin : Bool) (s : SendBuf) : SendBuf :=
  {s with
    data := s.data ++ [RangeBuf.fromRaw chunk s.off fin]
    off := s.off + chunk.length
    bufferedBytes := s.bufferedBytes + chunk.length}

/-- The loop over the chunks of what was reserved; only the last may end the stream. -/
def appendChunks (fin : Bool) : (turns : Nat) → List UInt8 → SendBuf → SendBuf
  | 0, _, s => s
  | turns + 1, data, s =>
    match data with
    | [] => s
    | a :: data =>
      let chunk := (a :: data).take sendBufferSize
      appendChunks fin turns ((a :: data).drop sendBufferSize)
        (s.append chunk (chunk.length == (data.length + 1) && fin))

def write (data : List UInt8) (fin : Bool) (s : SendBuf) : Except Error (SendBuf × Nat) := do
  let (s, reserved, fin) ← s.reserveForWrite data.length fin
  if reserved = 0 then return (s, 0)
  return (appendChunks fin reserved (data.take reserved) s, reserved)

/-! ### Sending -/

/-- The loop of `emit`, which ends with the last chunk. -/
def emitLoop : (turns : Nat) → (outLen nextOff : Nat) → (out : List UInt8) → SendBuf → SendBuf × Nat × List UInt8
  | 0, _, nextOff, out, s => (s, nextOff, out)
  | turns + 1, outLen, nextOff, out, s =>
    if outLen > 0 then
      if s.data = [] ∨ s.offFront ≥ s.off ∨ s.offFront ≠ nextOff ∨ s.offFront ≥ s.maxData then (s, nextOff, out)
      else
        match s.data[s.pos]? with
        | none => (s, nextOff, out)
        | some buf =>
          if buf.isEmpty then emitLoop turns outLen nextOff out {s with pos := s.pos + 1}
          else
            let bufLen := min buf.length outLen
            let s' := {s with
              bufferedBytes := s.bufferedBytes - bufLen
              data := s.data.set s.pos (buf.consume bufLen)}
            let out := out ++ buf.bytes.take bufLen
            if bufLen < buf.length then (s', buf.offset + bufLen, out)
            else emitLoop turns (outLen - bufLen) (buf.offset + bufLen) out {s' with pos := s'.pos + 1}
    else (s, nextOff, out)

/-- What is sent, and whether the stream ends with it. -/
def emit (room : Nat) (s : SendBuf) : SendBuf × List UInt8 × Bool :=
  let emitted := emitLoop (s.data.length - s.pos) room s.offFront [] s
  let s := emitted.1
  ({s with emitOff := max s.emitOff emitted.2.1}, emitted.2.2, s.finOff == some emitted.2.1)

def updateMaxData (maxData : Nat) (s : SendBuf) : SendBuf := {s with maxData := max s.maxData maxData}

/-! ### Acknowledgements -/

/-- `ack`; it would panic where `RangeSet::insert` does. -/
def ack (off len : Nat) (s : SendBuf) : Option SendBuf := do
  let acked ← s.acked.insert (off, off + len)
  return {s with acked}

/-- The chunks at the front that were acknowledged whole. -/
def droppable (ackOff : Nat) (data : List RangeBuf) : List RangeBuf :=
  data.takeWhile (fun buf => decide (buf.off < ackOff) && !(decide (buf.off < ackOff) && decide (ackOff < buf.maxOff)))

/-- The result is the number of bytes that were dropped before they were sent again. -/
def ackAndDrop (off len : Nat) (s : SendBuf) : Option (SendBuf × Nat) := do
  let s ← s.ack off len
  let ackOff := s.ackOff
  if s.data = [] then return (s, 0)
  if off > ackOff then return (s, 0)
  let dropped := droppable ackOff s.data
  if dropped = [] then return (s, 0)
  let droppedLen := (dropped.map RangeBuf.length).sum
  return ({s with
    bufferedBytes := s.bufferedBytes - droppedLen
    data := s.data.drop dropped.length
    pos := s.pos - dropped.length}, droppedLen)

/-! ### Losses -/

/-- A chunk is shown again from an offset on. -/
def expand (off : Nat) (buf : RangeBuf) : RangeBuf :=
  {buf with pos := if off > buf.off ∧ off ≤ buf.maxOff then min buf.pos (buf.start + (off - buf.off)) else buf.start}

/-- The loop over the chunks: the chunks as they are then, the first that was touched, and how many
bytes are to be sent again. It ends with a chunk that is split, whose second part starts where
the range ends. -/
def retransmitLoop (off maxOff : Nat) : (i : Nat) → List RangeBuf → (pos : Nat) → Option (List RangeBuf × Nat × Nat)
  | _, [], pos => some ([], pos, 0)
  | i, buf :: rest, pos =>
    if buf.off ≥ maxOff then some (buf :: rest, pos, 0)
    else if off > buf.maxOff then do
      let later ← retransmitLoop off maxOff (i + 1) rest pos
      return (buf :: later.1, later.2.1, later.2.2)
    else if buf.off < maxOff ∧ maxOff < buf.maxOff then do
      let parts ← buf.splitOff (maxOff - buf.off)
      let shown := expand off parts.1
      return (shown :: parts.2 :: rest, min pos i, parts.1.pos - shown.pos)
    else do
      let shown := expand off buf
      let later ← retransmitLoop off maxOff (i + 1) rest (min pos i)
      return (shown :: later.1, later.2.1, buf.pos - shown.pos + later.2.2)

def retransmit (off len : Nat) (s : SendBuf) : Option (SendBuf × Nat) :=
  let maxOff := off + len
  if s.data = [] then some (s, 0)
  else if maxOff ≤ s.ackOff then some (s, 0)
  else do
    let (data, pos, total) ← retransmitLoop off maxOff 0 s.data s.pos
    return ({s with data, pos, bufferedBytes := s.bufferedBytes + total}, total)

end SendBuf
end Aether.Quic
