import Aether.Quic.Reassembly

/-! Runs of the receiving end of a stream.

Frames arrive from the network, the application reads and discards, the limit is raised, and
the peer may reset the stream or the application give it up. Frames that carry parts of one
stream give the application that stream, each byte at its place (`run_integrity`), and all of
it that has arrived (`run_complete`). -/
namespace Aether.Quic
open Machine (run)
open RecvBuf (Sound Ended Written Taken)

inductive RecvAction where
  | frame (off : Nat) (data : List UInt8) (fin : Bool)
  | read (cap : Nat)
  | discard (cap : Nat)
  | reset (code finalSize : Nat)
  | shutdown
  | update (now rtt : Nat)

/-- The buffer of a stream, which is nothing after a panic, and what the application has seen: the
bytes it read, the places of those it discarded, and whether it was told that this was all. An
error in a frame closes the connection. -/
structure Receiver where
  recv : Option RecvBuf
  history : List (Option UInt8)
  finished : Bool
  closed : Bool

namespace Receiver

def new (maxData initialWindow maxWindow : Nat) : Receiver :=
  ⟨some (.new maxData initialWindow maxWindow), [], false, false⟩

/-- `stream_recv` and `stream_discard`, which note what they see. -/
def consume (cap : Nat) (seen : UInt8 → Option UInt8) (r : RecvBuf) (s : Receiver) : Receiver :=
  match r.emitOrDiscard cap with
  | (r, .ok (out, fin)) => {s with recv := some r, history := s.history ++ out.map seen, finished := s.finished || fin}
  | (r, .error _) => {s with recv := some r}

/-- The limit is raised for a stream that needs it, or again if the frame that said so was lost. -/
def raise (now rtt : Nat) (r : RecvBuf) : RecvBuf :=
  if r.flowControl.shouldUpdateMaxData || r.flowControl.lastUpdate.isSome then
    (if r.almostFull then r.autotuneWindow now rtt else r).updateMaxData now
  else r

def afterWrite (s : Receiver) : Option (Except Error RecvBuf) → Receiver
  | none => {s with recv := none}
  | some (.error _) => {s with closed := true}
  | some (.ok r) => {s with recv := some r}

def afterReset (s : Receiver) : Option (RecvBuf × Except Error (Nat × Nat)) → Receiver
  | none => {s with recv := none}
  | some (r, .error _) => {s with recv := some r, closed := true}
  | some (r, .ok _) => {s with recv := some r}

def act (action : RecvAction) (r : RecvBuf) (s : Receiver) : Receiver :=
  match action with
  | .frame off data fin => if s.closed then s else s.afterWrite (r.write (RangeBuf.fromRaw data off fin))
  | .read cap => s.consume cap some r
  | .discard cap => s.consume cap (fun _ => none) r
  | .reset code finalSize => if s.closed then s else s.afterReset (r.reset code finalSize)
  | .shutdown => {s with recv := some r.shutdown.1}
  | .update now rtt => {s with recv := some (raise now rtt r)}

def next (action : RecvAction) (s : Receiver) : Receiver :=
  match s.recv with
  | some r => s.act action r
  | none => s

end Receiver

/-- A frame carries a part of the stream, and ends it where it ends. -/
def RecvAction.Faithful (stream : List UInt8) : RecvAction → Prop
  | .frame off data fin => data <+: stream.drop off ∧ (fin = true → off + data.length = stream.length)
  | _ => True

/-- The stream is neither reset nor given up. -/
def RecvAction.Keeps : RecvAction → Bool
  | .reset _ _ => false
  | .shutdown => false
  | _ => true

/-! ### The limit -/

/-- A limit that was raised is no higher than it can be raised again. -/
structure FlowControl.Grows (f : FlowControl) : Prop where
  window_le : f.window ≤ f.maxWindow
  raised : f.lastUpdate.isSome = true → f.maxData ≤ f.maxDataNext

theorem FlowControl.grows_new (maxData window maxWindow : Nat) : (FlowControl.new maxData window maxWindow).Grows :=
  ⟨Nat.min_le_right _ _, fun h => by cases h⟩

theorem FlowControl.Grows.addConsumed {f : FlowControl} (h : f.Grows) (n : Nat) : (f.addConsumed n).Grows := by
  refine ⟨h.window_le, fun hsome => ?_⟩
  have := h.raised hsome
  show f.maxData ≤ f.consumed + n + f.window
  rw [maxDataNext] at this
  omega

theorem FlowControl.window_le_autotune {f : FlowControl} (h : f.Grows) (now rtt : Nat) :
    f.window ≤ (f.autotuneWindow now rtt).window ∧ (f.autotuneWindow now rtt).window ≤ f.maxWindow ∧
      (f.autotuneWindow now rtt).consumed = f.consumed ∧ (f.autotuneWindow now rtt).maxWindow = f.maxWindow := by
  have hwindow := h.window_le
  rw [autotuneWindow]
  split
  · split
    · refine ⟨?_, Nat.min_le_right _ _, rfl, rfl⟩
      show f.window ≤ min (f.window * 2) f.maxWindow
      omega
    · exact ⟨Nat.le_refl _, hwindow, rfl, rfl⟩
  · exact ⟨Nat.le_refl _, hwindow, rfl, rfl⟩

/-- Raising the limit of a stream never lowers it. -/
theorem raise_spec {r : RecvBuf} (h : r.flowControl.Grows) (now rtt : Nat) :
    ∃ f, Receiver.raise now rtt r = {r with flowControl := f} ∧ f.Grows ∧ r.maxData ≤ f.maxData := by
  rw [Receiver.raise]
  by_cases hdue : (r.flowControl.shouldUpdateMaxData || r.flowControl.lastUpdate.isSome) = true
  · rw [if_pos hdue]
    obtain ⟨f, hf, hle, hmax, hconsumed, hsame⟩ : ∃ f, (if r.almostFull then r.autotuneWindow now rtt else r) =
        {r with flowControl := f} ∧ r.flowControl.window ≤ f.window ∧ f.window ≤ r.flowControl.maxWindow ∧
        f.consumed = r.flowControl.consumed ∧ f.maxWindow = r.flowControl.maxWindow := by
      split
      · exact ⟨_, rfl, FlowControl.window_le_autotune h now rtt⟩
      · exact ⟨_, rfl, Nat.le_refl _, h.window_le, rfl, rfl⟩
    refine ⟨f.updateMaxData now, by rw [hf]; rfl, ⟨?_, fun _ => Nat.le_refl _⟩, ?_⟩
    · show f.window ≤ f.maxWindow
      rw [hsame]
      exact hmax
    · show r.flowControl.maxData ≤ f.consumed + f.window
      rw [hconsumed]
      rcases Bool.or_eq_true_iff.mp hdue with hlow | hagain
      · rw [FlowControl.shouldUpdateMaxData, decide_eq_true_eq] at hlow
        omega
      · have := h.raised hagain
        rw [FlowControl.maxDataNext] at this
        omega
  · rw [if_neg hdue]
    exact ⟨r.flowControl, rfl, h, Nat.le_refl _⟩

/-! ### Giving up and resetting -/

section Buffers
variable {stream : List UInt8} {r : RecvBuf}

theorem RecvBuf.Sound.with_flow (h : Sound stream r) {f : FlowControl} (hf : r.maxData ≤ f.maxData) :
    Sound stream {r with flowControl := f} :=
  ⟨h.keys, h.carries, h.apart, h.between, h.off_le, h.fin, h.drained, h.allowed.trans hf⟩

theorem sound_shutdown (h : Sound stream r) : Sound stream r.shutdown.1 := by
  rw [RecvBuf.shutdown]
  split
  · exact h
  · exact RecvBuf.sound_cleared rfl (Nat.le_refl _) h.fin (fun _ => rfl) h.allowed

theorem not_ready (h : r.pieces = []) : r.ready = false := by
  have hentries : r.data.entries = [] := List.map_eq_nil_iff.mp h
  rw [RecvBuf.ready, Rust.BTreeMap.first, hentries]
  rfl

/-- What a reset leaves: the end is where the peer says, or the limit was passed. -/
structure Reset (stream : List UInt8) (code finalSize : Nat) (r : RecvBuf)
    (result : RecvBuf × Except Error (Nat × Nat)) :
    Prop where
  error : result.1 = r ∨ result.1.error ≠ none
  sound : (Sound stream result.1 ∧ result.1.Ended) ∨
    (∃ e, result.2 = .error e) ∧ result.1.pieces = [] ∧ result.1.error ≠ none
  finOff : result.1.finOff = r.finOff ∨ r.finOff = none
  flowControl : result.1.flowControl = r.flowControl

/-- What an empty piece that ends the stream comes to, where there are no others. -/
theorem write_empty (h : r.pieces = []) :
    (∃ e, r.write (RangeBuf.fromRaw [] r.off true) = some (.error e)) ∨
      (∃ f, r.finOff = some f ∧ f = r.off ∧ r.write (RangeBuf.fromRaw [] r.off true) = some (.ok r)) ∨
      r.off ≤ r.maxData ∧ r.finOff = none ∧ r.write (RangeBuf.fromRaw [] r.off true) =
        some (.ok (RecvBuf.store (RangeBuf.fromRaw [] r.off true) {r with finOff := some r.off})) := by
  have hentries : r.data.entries = [] := List.map_eq_nil_iff.mp h
  have hmax : (RangeBuf.fromRaw [] r.off true).maxOff = r.off := by
    show r.off - 0 + 0 + (0 - (0 - 0)) = r.off
    omega
  have hoffset : (RangeBuf.fromRaw [] r.off true).offset = r.off := by
    show r.off - 0 + 0 = r.off
    omega
  rcases RecvBuf.accept_cases (RangeBuf.fromRaw [] r.off true) r with
    ⟨e, he⟩ | ⟨hpassed, ⟨hknown, _, hs⟩ | ⟨s, hs, hnew, haccept⟩⟩
  · exact .inl ⟨e, by rw [RecvBuf.write, he]⟩
  · obtain ⟨f, hf⟩ := Option.isSome_iff_exists.mp hknown
    have hend := (hpassed.known f hf).2 rfl
    rw [hmax] at hend
    exact .inr (.inl ⟨f, hf, hend, by rw [RecvBuf.write, hs]⟩)
  have hflow := hpassed.flow
  rw [hmax] at hflow
  refine .inr (.inr ⟨hflow, ?_, ?_⟩)
  · rw [← Option.not_isSome_iff_eq_none]
    exact fun hsome => hnew ⟨hsome, rfl⟩
  have hfin : (RangeBuf.fromRaw [] r.off true).fin = true := rfl
  obtain rfl : s = {r with finOff := some r.off} := by rw [hs, if_pos hfin, hmax]
  rw [if_neg (fun hc => hc.1 hfin), if_neg (fun hc => hc.2 rfl)] at haccept
  have htrim : RecvBuf.trimFront r.off (RangeBuf.fromRaw [] r.off true) = some (RangeBuf.fromRaw [] r.off true) := by
    rw [RecvBuf.trimFront, hoffset, if_neg (by omega)]
  have hover : RecvBuf.overlapping {r with finOff := some r.off} (RangeBuf.fromRaw [] r.off true) [] =
      some (some (RangeBuf.fromRaw [] r.off true), []) := by
    rw [RecvBuf.overlapping, if_pos (.inr rfl), Rust.BTreeMap.rangeFrom, hentries]
    rfl
  rw [RecvBuf.write, haccept]
  show (RecvBuf.absorb 1 [RangeBuf.fromRaw [] r.off true] {r with finOff := some r.off}).map _ = _
  rw [RecvBuf.absorb]
  show (RecvBuf.trimFront r.off _ >>= _ : Option RecvBuf).map _ = _
  rw [htrim]
  show (RecvBuf.overlapping _ _ [] >>= _ : Option RecvBuf).map _ = _
  rw [hover]
  rfl

theorem reset_spec (h : Sound stream r) (hended : r.Ended) (code finalSize : Nat) :
    ∃ result, r.reset code finalSize = some result ∧ Reset stream code finalSize r result := by
  have hkeep (e : Except Error (Nat × Nat)) : Reset stream code finalSize r (r, e) :=
    ⟨.inl rfl, .inl ⟨h, hended⟩, .inl rfl, rfl⟩
  rw [RecvBuf.reset]
  by_cases hfinal : r.finOff.any (· != finalSize) = true
  · rw [if_pos hfinal]
    exact ⟨_, rfl, hkeep _⟩
  rw [if_neg hfinal]
  by_cases hshort : finalSize < r.len
  · rw [if_pos hshort]
    exact ⟨_, rfl, hkeep _⟩
  rw [if_neg hshort]
  by_cases herror : r.error.isSome = true
  · rw [if_pos herror]
    exact ⟨_, rfl, hkeep _⟩
  rw [if_neg herror]
  have hlen : r.len ≤ finalSize := not_lt.mp hshort
  let s : RecvBuf := {r with error := some code, off := finalSize, data := Rust.BTreeMap.empty}
  have hpieces : s.pieces = [] := rfl
  show ∃ result, RecvBuf.notify (finalSize - r.len, finalSize - r.off) s = some result ∧ _
  rcases write_empty hpieces with ⟨e, hwrite⟩ | ⟨f, hfin, hf, hwrite⟩ | ⟨hallowed, hfin, hwrite⟩
  · rw [RecvBuf.notify, hwrite]
    exact ⟨_, rfl, .inr (by exact Option.some_ne_none _), .inr ⟨⟨e, rfl⟩, rfl, by exact Option.some_ne_none _⟩,
      .inl rfl, rfl⟩
  · rw [RecvBuf.notify, hwrite]
    have hlenEq : r.len = finalSize := by
      rw [hended f hfin]
      exact hf
    refine ⟨_, rfl, .inr (by exact Option.some_ne_none _), .inl ⟨?_, hended⟩, .inl rfl, rfl⟩
    refine RecvBuf.sound_cleared rfl ?_ h.fin (fun _ => hlenEq.symm) h.allowed
    show finalSize ≤ r.len
    omega
  · rw [RecvBuf.notify, hwrite]
    have hmax : (RangeBuf.fromRaw [] s.off true).maxOff = finalSize := by
      show finalSize - 0 + 0 + (0 - (0 - 0)) = finalSize
      omega
    have hlenMax : max r.len finalSize = finalSize := max_eq_right hlen
    refine ⟨_, rfl, ⟨.inr ?_, .inl ?_, .inr hfin, ?_⟩⟩
    · rw [(RecvBuf.sameFrame_store _ _).error]
      exact Option.some_ne_none _
    · refine ⟨?_, ?_⟩
      · -- The buffer in front of the piece is sound once its length is taken to be the end.
        have hbase : Sound stream {s with finOff := some s.off, len := finalSize} := by
          refine RecvBuf.sound_cleared rfl (Nat.le_refl _) ?_ (fun _ => rfl) hallowed
          intro f hf
          obtain rfl : s.off = f := Option.mem_some_iff.mp hf
          exact Nat.le_refl _
        have hfits : RecvBuf.Fits stream {s with finOff := some s.off, len := finalSize}
          (RangeBuf.fromRaw [] s.off true) := by
          refine ⟨RangeBuf.fresh_fromRaw true List.nil_prefix, ?_, fun c hc => absurd hc List.not_mem_nil,
            fun _ c hc => absurd hc List.not_mem_nil, ?_, ?_⟩
          · show finalSize ≤ finalSize - 0 + 0
            omega
          · rw [hmax]
            exact hallowed
          · intro f hf
            obtain rfl : s.off = f := Option.mem_some_iff.mp hf
            rw [hmax]
        have hstore : RecvBuf.store (RangeBuf.fromRaw [] s.off true) {s with finOff := some s.off} =
            RecvBuf.store (RangeBuf.fromRaw [] s.off true) {s with finOff := some s.off, len := finalSize} := by
          rw [RecvBuf.store, RecvBuf.store]
          show (if r.drain = true then
              ({s with finOff := some s.off, len := max r.len _, off := max r.len _} : RecvBuf)
            else {s with finOff := some s.off, len := max r.len _, data := _}) =
            if r.drain = true then
              ({s with finOff := some s.off, len := max finalSize _, off := max finalSize _} : RecvBuf)
            else {s with finOff := some s.off, len := max finalSize _, data := _}
          rw [hmax, hlenMax, max_self]
        rw [hstore]
        exact hbase.store hfits
      · intro f hf
        rw [(RecvBuf.sameFrame_store _ _).finOff] at hf
        obtain rfl : s.off = f := Option.mem_some_iff.mp hf
        rw [RecvBuf.len_store, hmax]
        exact hlenMax
    · rw [(RecvBuf.sameFrame_store _ _).flowControl]

end Buffers

/-! ### What the application sees -/

structure Seen (stream : List UInt8) (s : Receiver) (r : RecvBuf) : Prop where
  recv : s.recv = some r
  sound : (Sound stream r ∧ r.Ended) ∨ s.closed = true ∧ r.pieces = [] ∧ r.error ≠ none
  history : ∀ (i : Nat) (b : UInt8), s.history[i]? = some (some b) → stream[i]? = some b
  position : r.error = none → r.drain = false → s.history.length = r.off
  size : r.error = none → ∀ f ∈ r.finOff, f = stream.length
  finished : s.finished = true → s.history.length = stream.length ∧ r.finOff = some stream.length
  grows : r.flowControl.Grows

section Steps
variable {stream : List UInt8} {s : Receiver} {r : RecvBuf}

/-- A frame of the stream leaves the application with what it saw, and the buffer sound. -/
theorem Seen.frame (h : Seen stream s r) {off : Nat} {data : List UInt8} {fin : Bool}
    (hframe : (RecvAction.frame off data fin).Faithful stream) :
    ∃ r', Seen stream (s.act (.frame off data fin) r) r' := by
  obtain ⟨hdata, hend⟩ := hframe
  have hact : s.act (.frame off data fin) r = if s.closed then s else
      s.afterWrite (r.write (RangeBuf.fromRaw data off fin)) := rfl
  rw [hact]
  by_cases hclosed : s.closed = true
  · rw [if_pos hclosed]
    exact ⟨r, h⟩
  rw [if_neg hclosed]
  obtain ⟨hsound, hended⟩ : Sound stream r ∧ r.Ended := h.sound.resolve_right (fun hc => hclosed hc.1)
  obtain ⟨result, hwrite, hresult⟩ := RecvBuf.write_spec hsound hended (RangeBuf.fresh_fromRaw fin hdata)
  rw [hwrite]
  cases result with
  | error e => exact ⟨r, h.recv, .inl ⟨hsound, hended⟩, h.history, h.position, h.size, h.finished, h.grows⟩
  | ok r' =>
    have hw := hresult r' rfl
    have hmax (hfin : fin = true) : (RangeBuf.fromRaw data off fin).maxOff = stream.length := by
      rw [(RangeBuf.carries_fromRaw hdata).maxOff_eq]
      exact hend hfin
    refine ⟨r', rfl, .inl ⟨hw.sound, hw.ended⟩, h.history, ?_, ?_, ?_, ?_⟩
    · intro he hd
      rw [hw.error] at he
      rw [hw.drain] at hd
      rw [hw.off hd]
      exact h.position he hd
    · intro he f hf
      rw [hw.error] at he
      rcases hw.finOff with hsame | ⟨hfin, hsome⟩
      · rw [hsame] at hf
        exact h.size he f hf
      · rw [hsome] at hf
        rw [← Option.mem_some_iff.mp hf]
        exact hmax hfin
    · intro hf
      obtain ⟨hlength, hold⟩ := h.finished hf
      refine ⟨hlength, ?_⟩
      rcases hw.finOff with hsame | ⟨hfin, hsome⟩
      · rw [hsame]
        exact hold
      · rw [hsome, hmax hfin]
    · rw [hw.flowControl]
      exact h.grows

/-- What is handed out is the stream at the next places. -/
theorem Seen.consume (h : Seen stream s r) (cap : Nat) {seen : UInt8 → Option UInt8}
    (hseen : ∀ a b, seen a = some b → a = b) : ∃ r', Seen stream (s.consume cap seen r) r' := by
  rw [Receiver.consume, RecvBuf.emitOrDiscard]
  by_cases hready : r.ready = true
  · have hsound : Sound stream r ∧ r.Ended := by
      rcases h.sound with hsound | ⟨_, hnone, _⟩
      · exact hsound
      · rw [not_ready hnone] at hready
        cases hready
    rw [if_pos hready]
    cases herror : r.error with
    | some code =>
      refine ⟨{r with data := Rust.BTreeMap.empty, error := some code}, rfl, .inl ⟨?_, hsound.2⟩, h.history, ?_, ?_,
        h.finished, h.grows⟩
      · exact RecvBuf.sound_cleared rfl hsound.1.off_le hsound.1.fin (fun hd => (hsound.1.drained hd).2)
          hsound.1.allowed
      · intro he
        cases he
      · intro he
        cases he
    | none =>
      obtain ⟨got, hgot, htaken⟩ := RecvBuf.take_spec cap [] hsound.1 (Nat.le_refl r.data.len)
      rw [List.nil_append] at hgot
      obtain ⟨hlen, hflow, hfin, herr, hdrain⟩ := htaken.same
      have hundrained : r.drain = false := by
        by_contra hd
        rw [Bool.not_eq_false] at hd
        rw [not_ready (hsound.1.drained hd).1] at hready
        cases hready
      have hposition := h.position herror hundrained
      have hlength : (s.history ++ got.map seen).length = r.off + got.length := by
        rw [List.length_append, List.length_map, hposition]
      dsimp only
      rw [hgot]
      refine ⟨{(RecvBuf.take r.data.len cap r []).1 with
        flowControl := (RecvBuf.take r.data.len cap r []).1.flowControl.addConsumed got.length}, rfl,
          .inl ⟨?_, ?_⟩, ?_, ?_,
        ?_, ?_, ?_⟩
      · exact htaken.sound.with_flow (Nat.le_refl _)
      · intro f hf
        show (RecvBuf.take r.data.len cap r []).1.len = f
        rw [hlen]
        exact hsound.2 f (by rw [← hfin]; exact hf)
      · intro i b hb
        replace hb : (s.history ++ got.map seen)[i]? = some (some b) := hb
        by_cases hi : i < s.history.length
        · rw [List.getElem?_append_left hi] at hb
          exact h.history i b hb
        · -- The byte was handed out now: it is what the stream has at this place.
          rw [List.getElem?_append_right (not_lt.mp hi), List.getElem?_map, Option.map_eq_some_iff] at hb
          obtain ⟨a, ha, hab⟩ := hb
          rw [htaken.got_eq, List.getElem?_take] at ha
          split at ha
          · rw [List.getElem?_drop, hposition, show r.off + (i - r.off) = i by omega] at ha
            rw [ha, hseen a b hab]
          · cases ha
      · intro _ _
        show (s.history ++ got.map seen).length = (RecvBuf.take r.data.len cap r []).1.off
        rw [hlength, htaken.off]
      · intro _ f hf
        exact h.size herror f (by rw [← hfin]; exact hf)
      · intro hf
        show (s.history ++ got.map seen).length = stream.length ∧ (RecvBuf.take r.data.len cap r []).1.finOff = _
        rw [hlength, hfin]
        have hoffLe := htaken.sound.off_le
        rw [htaken.off, hlen] at hoffLe
        rcases Bool.or_eq_true_iff.mp hf with hold | hnow
        · obtain ⟨hwas, hsome⟩ := h.finished hold
          have := hsound.2 _ hsome
          exact ⟨by omega, hsome⟩
        · replace hnow : ((RecvBuf.take r.data.len cap r []).1.finOff == some (RecvBuf.take r.data.len cap r []).1.off)
            = true :=
            hnow
          rw [hfin, htaken.off, beq_iff_eq] at hnow
          have := h.size herror _ hnow
          exact ⟨this, by rw [hnow, this]⟩
      · rw [hflow]
        exact h.grows.addConsumed _
  · rw [if_neg hready]
    exact ⟨r, rfl, h.sound, h.history, h.position, h.size, h.finished, h.grows⟩

theorem Seen.reset (h : Seen stream s r) (code finalSize : Nat) :
    ∃ r', Seen stream (s.act (.reset code finalSize) r) r' := by
  have hact : s.act (.reset code finalSize) r = if s.closed then s else
      s.afterReset (r.reset code finalSize) := rfl
  rw [hact]
  by_cases hclosed : s.closed = true
  · rw [if_pos hclosed]
    exact ⟨r, h⟩
  rw [if_neg hclosed]
  obtain ⟨hsound, hended⟩ : Sound stream r ∧ r.Ended := h.sound.resolve_right (fun hc => hclosed hc.1)
  obtain ⟨result, hreset, hspec⟩ := reset_spec hsound hended code finalSize
  have hfinished (hf : s.finished = true) :
      s.history.length = stream.length ∧ result.1.finOff = some stream.length := by
    obtain ⟨hlength, hsome⟩ := h.finished hf
    refine ⟨hlength, ?_⟩
    rcases hspec.finOff with hsame | hnone
    · rw [hsame]
      exact hsome
    · rw [hnone] at hsome
      cases hsome
  have hgrows : result.1.flowControl.Grows := by
    rw [hspec.flowControl]
    exact h.grows
  have hposition (he : result.1.error = none) (hd : result.1.drain = false) : s.history.length = result.1.off := by
    rcases hspec.error with hsame | hne
    · rw [hsame] at he hd ⊢
      exact h.position he hd
    · exact absurd he hne
  have hsize (he : result.1.error = none) : ∀ f ∈ result.1.finOff, f = stream.length := by
    rcases hspec.error with hsame | hne
    · rw [hsame] at he ⊢
      exact h.size he
    · exact absurd he hne
  rw [hreset]
  obtain ⟨r', outcome⟩ := result
  cases outcome with
  | error e =>
    exact ⟨r', rfl, hspec.sound.imp_right (fun hs => ⟨rfl, hs.2⟩), h.history, hposition, hsize, hfinished, hgrows⟩
  | ok deltas =>
    refine ⟨r', rfl, .inl (hspec.sound.resolve_right ?_), h.history, hposition, hsize, hfinished, hgrows⟩
    intro hs
    obtain ⟨e, he⟩ := hs.1
    cases he

theorem Seen.act (h : Seen stream s r) {action : RecvAction} (haction : action.Faithful stream) :
    ∃ r', Seen stream (s.act action r) r' := by
  cases action with
  | frame off data fin => exact h.frame haction
  | read cap => exact h.consume cap (fun a b hab => Option.some.inj hab)
  | discard cap => exact h.consume cap (fun a b hab => by cases hab)
  | reset code finalSize => exact h.reset code finalSize
  | shutdown =>
    have hframe : r.shutdown.1.finOff = r.finOff ∧ r.shutdown.1.error = r.error ∧
      r.shutdown.1.flowControl = r.flowControl ∧
        r.shutdown.1.drain = true ∧ r.shutdown.1.len = r.len := by
      rw [RecvBuf.shutdown]
      split
      · rename_i hd
        exact ⟨rfl, rfl, rfl, hd, rfl⟩
      · exact ⟨rfl, rfl, rfl, rfl, rfl⟩
    obtain ⟨hfin, herror, hflow, hdrain, hlen⟩ := hframe
    refine ⟨r.shutdown.1, rfl, ?_, h.history, ?_, ?_, ?_, ?_⟩
    · refine h.sound.imp ?_ ?_
      · intro hs
        refine ⟨sound_shutdown hs.1, fun f hf => ?_⟩
        rw [hlen]
        exact hs.2 f (by rw [← hfin]; exact hf)
      · intro hc
        refine ⟨hc.1, ?_, by rw [herror]; exact hc.2.2⟩
        rw [RecvBuf.shutdown]
        split
        · exact hc.2.1
        · rfl
    · intro _ hd
      rw [hdrain] at hd
      cases hd
    · intro he f hf
      exact h.size (herror.symm.trans he) f (by rw [← hfin]; exact hf)
    · intro hf
      refine ⟨(h.finished hf).1, ?_⟩
      rw [hfin]
      exact (h.finished hf).2
    · rw [hflow]
      exact h.grows
  | update now rtt =>
    obtain ⟨f, hraise, hgrows, hle⟩ := raise_spec h.grows now rtt
    refine ⟨{r with flowControl := f}, ?_, ?_, h.history, h.position, h.size, h.finished, hgrows⟩
    · show some (Receiver.raise now rtt r) = _
      rw [hraise]
    · exact h.sound.imp_left (fun hs => ⟨hs.1.with_flow hle, hs.2⟩)

theorem Seen.next (h : Seen stream s r) {action : RecvAction} (haction : action.Faithful stream) :
    ∃ r', Seen stream (s.next action) r' := by
  rw [Receiver.next, h.recv]
  exact h.act haction

/-- As long as its end is not known the stream may go on. -/
theorem Seen.mono (h : Seen stream s r) (hfin : r.finOff = none) (more : List UInt8) : Seen (stream ++ more) s r := by
  refine ⟨h.recv, ?_, ?_, h.position, ?_, ?_, h.grows⟩
  · rcases h.sound with ⟨hsound, hended⟩ | hclosed
    · exact .inl ⟨⟨hsound.keys, fun b hb => (hsound.carries b hb).mono (List.prefix_append stream more), hsound.apart,
        hsound.between, hsound.off_le, hsound.fin, hsound.drained, hsound.allowed⟩, hended⟩
    · exact .inr hclosed
  · intro i b hb
    have hold := h.history i b hb
    obtain ⟨hlt, _⟩ := List.getElem?_eq_some_iff.mp hold
    rw [List.getElem?_append_left hlt, hold]
  · intro _ f hf
    rw [hfin] at hf
    cases hf
  · intro hf
    rw [(h.finished hf).2] at hfin
    cases hfin

end Steps

theorem seen_new (stream : List UInt8) (maxData initialWindow maxWindow : Nat) :
    Seen stream (Receiver.new maxData initialWindow maxWindow) (.new maxData initialWindow maxWindow) := by
  refine ⟨rfl, .inl ⟨?_, fun _ hf => absurd hf (Option.not_mem_none _)⟩, ?_, fun _ _ => rfl,
    fun _ _ hf => absurd hf (Option.not_mem_none _), fun hf => absurd hf Bool.false_ne_true, FlowControl.grows_new ..⟩
  · exact RecvBuf.sound_cleared rfl (Nat.le_refl 0) (fun _ hf => absurd hf (Option.not_mem_none _)) (fun _ => rfl)
      (Nat.zero_le _)
  · intro i b hb
    cases hb

theorem run_seen {stream : List UInt8} {s : Receiver} {r : RecvBuf} (h : Seen stream s r) {actions : List RecvAction}
    (hactions : ∀ a ∈ actions, a.Faithful stream) : ∃ r', Seen stream (run Receiver.next s actions) r' := by
  induction actions generalizing s r with
  | nil => exact ⟨r, h⟩
  | cons a rest ih =>
    obtain ⟨r', hr'⟩ := h.next (hactions a (List.mem_cons_self ..))
    exact ih hr' (fun b hb => hactions b (List.mem_cons_of_mem _ hb))

/-- Whatever arrives in whatever order, nothing panics, every byte that is read is the one the
stream has at its place, and who is told that this was all has seen all. Of the stream no more
is taken than was allowed. -/
theorem run_integrity (stream : List UInt8) (maxData initialWindow maxWindow : Nat) (actions : List RecvAction)
    (hactions : ∀ a ∈ actions, a.Faithful stream) :
    ∃ r, (run Receiver.next (.new maxData initialWindow maxWindow) actions).recv = some r ∧
      (∀ (i : Nat) (b : UInt8),
        (run Receiver.next (.new maxData initialWindow maxWindow) actions).history[i]? = some (some b) →
        stream[i]? = some b) ∧
      ((run Receiver.next (.new maxData initialWindow maxWindow) actions).finished = true →
        (run Receiver.next (.new maxData initialWindow maxWindow) actions).history.length = stream.length) ∧
      ∀ b ∈ r.pieces, b.maxOff ≤ r.maxData := by
  obtain ⟨r, h⟩ := run_seen (seen_new stream maxData initialWindow maxWindow) hactions
  refine ⟨r, h.recv, h.history, fun hf => (h.finished hf).1, ?_⟩
  intro b hb
  rcases h.sound with ⟨hsound, _⟩ | ⟨_, hnone, _⟩
  · exact (hsound.between b hb).2.trans hsound.allowed
  · rw [hnone] at hb
    cases hb

/-- The end arrives first, and the two pieces overlap. -/
def crossed : List RecvAction := [.frame 1 [2, 3] true, .read 8, .frame 0 [1, 2] false, .read 8]

theorem faithful_crossed : ∀ a ∈ crossed, a.Faithful [1, 2, 3] := by
  simp [crossed, RecvAction.Faithful]

theorem run_integrity_crossed :
    (run Receiver.next (.new 8 8 8) crossed).finished = true ∧
      (run Receiver.next (.new 8 8 8) crossed).history.length = 3 := by
  obtain ⟨_, _, _, hfinished, _⟩ := run_integrity [1, 2, 3] 8 8 8 crossed faithful_crossed
  have htold : (run Receiver.next (.new 8 8 8) crossed).finished = true := by decide
  exact ⟨htold, hfinished htold⟩

/-! ### All that has arrived -/

/-- What has arrived is there, the end too, and nothing else is. -/
structure Arrived (actions : List RecvAction) (r : RecvBuf) : Prop where
  error : r.error = none
  drain : r.drain = false
  has : ∀ off data fin, RecvAction.frame off data fin ∈ actions → ∀ x, off ≤ x → x < off + data.length → r.Has x
  ends : ∀ off data, RecvAction.frame off data true ∈ actions → r.finOff = some (off + data.length)
  told : ∀ f ∈ r.finOff, ∃ off data, RecvAction.frame off data true ∈ actions ∧ f = off + data.length
  reached : r.len = 0 ∨ ∃ off data fin, RecvAction.frame off data fin ∈ actions ∧ r.len ≤ off + data.length

section Steps
variable {stream : List UInt8} {s : Receiver} {r : RecvBuf}

/-- An offset that is there is handed out if there is room for it. -/
theorem RecvBuf.Taken.reaches {cap : Nat} {r' : RecvBuf} {got : List UInt8} (h : Taken stream cap r r' got) {n : Nat}
    (hcap : n ≤ r.off + cap) (hn : ∀ x < n, r'.Has x) : n ≤ r'.off := by
  by_contra hlt
  rw [not_le] at hlt
  rcases h.stops with hfull | hstop
  · have := h.off
    omega
  · -- The offset that comes next is in a piece, which can only be the first.
    rcases hn r'.off hlt with hx | ⟨b, hb, hlow, hhigh⟩
    · omega
    · have hbetween := (h.sound.between b hb).1
      cases hdata : r'.data.entries with
      | nil =>
        rw [RecvBuf.pieces, hdata] at hb
        cases hb
      | cons entry rest =>
        obtain ⟨k, c⟩ := entry
        have hpieces : r'.pieces = c :: rest.map (·.2) := by rw [RecvBuf.pieces, hdata]; rfl
        have hc := (h.sound.between c (by rw [hpieces]; exact List.mem_cons_self ..)).1
        have hne : c.offset ≠ r'.off := by
          intro he
          rw [(RecvBuf.ready_cons hdata).mpr he] at hstop
          cases hstop
        have hapart := h.sound.apart
        rw [hpieces, List.pairwise_cons] at hapart
        rw [hpieces] at hb
        rcases List.mem_cons.mp hb with rfl | hb
        · omega
        · have := hapart.1 b hb
          have := c.offset_le_maxOff
          omega

section Arrived
variable {actions : List RecvAction}

/-- Nothing arrives but by a frame. -/
theorem Arrived.other (h : Arrived actions r) {action : RecvAction}
    (hnot : ∀ off data fin, action ≠ .frame off data fin)
    {t : RecvBuf} (he : t.error = none) (hd : t.drain = false) (hfin : t.finOff = r.finOff) (hlen : t.len = r.len)
    (hhas : ∀ x, r.Has x → t.Has x) : Arrived (actions ++ [action]) t := by
  have hold {off : Nat} {data : List UInt8} {fin : Bool}
      (hmem : RecvAction.frame off data fin ∈ actions ++ [action]) : RecvAction.frame off data fin ∈ actions := by
    rcases List.mem_append.mp hmem with hmem | hmem
    · exact hmem
    · exact absurd (List.mem_singleton.mp hmem).symm (hnot off data fin)
  refine ⟨he, hd, fun off data fin hmem x hlow hhigh => hhas x (h.has off data fin (hold hmem) x hlow hhigh), ?_, ?_,
    ?_⟩
  · intro off data hmem
    rw [hfin]
    exact h.ends off data (hold hmem)
  · intro f hf
    rw [hfin] at hf
    obtain ⟨off, data, hmem, he⟩ := h.told f hf
    exact ⟨off, data, List.mem_append_left _ hmem, he⟩
  · rw [hlen]
    rcases h.reached with hzero | ⟨off, data, fin, hmem, hle⟩
    · exact .inl hzero
    · exact .inr ⟨off, data, fin, List.mem_append_left _ hmem, hle⟩

/-- What is read or discarded still counts as there. -/
theorem Arrived.consume (h : Arrived actions r) (hinv : Seen stream s r) {action : RecvAction}
    (hnot : ∀ off data fin, action ≠ .frame off data fin) (cap : Nat) (seen : UInt8 → Option UInt8) {r' : RecvBuf}
    (hr : (s.consume cap seen r).recv = some r') : Arrived (actions ++ [action]) r' ∧ r.maxData ≤ r'.maxData := by
  rw [Receiver.consume, RecvBuf.emitOrDiscard] at hr
  by_cases hready : r.ready = true
  · rw [if_pos hready, h.error] at hr
    have hsound : Sound stream r := (hinv.sound.resolve_right (fun hc => hc.2.2 h.error)).1
    obtain ⟨got, _, htaken⟩ := RecvBuf.take_spec cap [] hsound (Nat.le_refl r.data.len)
    obtain ⟨hlen, hflow, hfin, herr, hdrain⟩ := htaken.same
    obtain rfl := Option.some.inj hr
    refine ⟨h.other hnot (herr.trans h.error) (hdrain.trans h.drain) hfin hlen htaken.has, ?_⟩
    show r.flowControl.maxData ≤ (RecvBuf.take r.data.len cap r []).1.flowControl.maxData
    rw [hflow]
  · rw [if_neg hready] at hr
    obtain rfl : r = r' := Option.some.inj hr
    exact ⟨h.other hnot h.error h.drain rfl rfl (fun _ hx => hx), Nat.le_refl _⟩

section Frame
variable {off : Nat} {data : List UInt8} {fin : Bool} {t : RecvBuf}

/-- The ends that two frames say are one. -/
theorem Arrived.ends_written (h : Arrived actions r) (hinv : Seen stream s r)
    (haction : (RecvAction.frame off data fin).Faithful stream)
    (hw : Written stream (RangeBuf.fromRaw data off fin) r t) {off' : Nat} {data' : List UInt8}
    (hmem : RecvAction.frame off' data' true ∈ actions ++ [.frame off data fin]) :
    t.finOff = some (off' + data'.length) := by
  have hmax : (RangeBuf.fromRaw data off fin).maxOff = off + data.length :=
    (RangeBuf.carries_fromRaw haction.1).maxOff_eq
  rcases List.mem_append.mp hmem with hmem | hmem
  · have hknown := h.ends off' data' hmem
    rcases hw.finOff with hsame | ⟨hfin, hset⟩
    · rw [hsame, hknown]
    · rw [hset, hmax, hinv.size h.error _ hknown, haction.2 hfin]
  · obtain ⟨rfl, rfl, rfl⟩ := RecvAction.frame.inj (List.mem_singleton.mp hmem)
    rw [hw.ends rfl, hmax]

/-- What an accepted frame brings is there with the rest. -/
theorem Arrived.written (h : Arrived actions r) (hinv : Seen stream s r)
    (haction : (RecvAction.frame off data fin).Faithful stream)
    (hw : Written stream (RangeBuf.fromRaw data off fin) r t) : Arrived (actions ++ [.frame off data fin]) t := by
  have hmax : (RangeBuf.fromRaw data off fin).maxOff = off + data.length :=
    (RangeBuf.carries_fromRaw haction.1).maxOff_eq
  have hoffset : (RangeBuf.fromRaw data off fin).offset = off := by
    show off - 0 + 0 = off
    omega
  have hhere : RecvAction.frame off data fin ∈ actions ++ [.frame off data fin] :=
    List.mem_append_right _ (List.mem_singleton.mpr rfl)
  refine ⟨hw.error.trans h.error, hw.drain.trans h.drain, ?_, fun _ _ => h.ends_written hinv haction hw, ?_, ?_⟩
  · intro off' data' fin' hmem x hlow hhigh
    rw [hw.has h.drain]
    rcases List.mem_append.mp hmem with hmem | hmem
    · exact .inl (h.has off' data' fin' hmem x hlow hhigh)
    · obtain ⟨rfl, rfl, rfl⟩ := RecvAction.frame.inj (List.mem_singleton.mp hmem)
      rw [hoffset, hmax]
      exact .inr ⟨hlow, hhigh⟩
  · intro f hf
    rcases hw.finOff with hsame | ⟨hfin, hset⟩
    · rw [hsame] at hf
      obtain ⟨off', data', hmem, he⟩ := h.told f hf
      exact ⟨off', data', List.mem_append_left _ hmem, he⟩
    · obtain rfl : fin = true := hfin
      rw [hset, hmax] at hf
      exact ⟨off, data, hhere, (Option.mem_some_iff.mp hf).symm⟩
  · have hle := hw.len_le
    rw [hmax] at hle
    by_cases hold : t.len ≤ r.len
    · rcases h.reached with hzero | ⟨off', data', fin', hmem, hreach⟩
      · exact .inl (by omega)
      · exact .inr ⟨off', data', fin', List.mem_append_left _ hmem, by omega⟩
    · exact .inr ⟨off, data, fin, hhere, by omega⟩

/-- A frame that does not close the connection is written. -/
theorem Seen.written (hinv : Seen stream s r) (haction : (RecvAction.frame off data fin).Faithful stream)
    (hopen : (s.act (.frame off data fin) r).closed = false) (hrecv : (s.act (.frame off data fin) r).recv = some t) :
    Written stream (RangeBuf.fromRaw data off fin) r t := by
  have hact : s.act (.frame off data fin) r = if s.closed then s else
      s.afterWrite (r.write (RangeBuf.fromRaw data off fin)) := rfl
  rw [hact] at hopen hrecv
  by_cases hclosed : s.closed = true
  · rw [if_pos hclosed, hclosed] at hopen
    cases hopen
  rw [if_neg hclosed] at hopen hrecv
  obtain ⟨hsound, hended⟩ : Sound stream r ∧ r.Ended := hinv.sound.resolve_right (fun hc => hclosed hc.1)
  obtain ⟨result, hwrite, hresult⟩ := RecvBuf.write_spec hsound hended (RangeBuf.fresh_fromRaw fin haction.1)
  rw [hwrite] at hopen hrecv
  cases result with
  | error e => cases hopen
  | ok u =>
    obtain rfl : u = t := Option.some.inj hrecv
    exact hresult u rfl

end Frame

/-- One action, of whatever kind. -/
theorem Arrived.next (h : Arrived actions r) (hinv : Seen stream s r) {action : RecvAction}
    (haction : action.Faithful stream) (hkeeps : action.Keeps = true) (hopen : (s.next action).closed = false) :
    ∃ r', Seen stream (s.next action) r' ∧ Arrived (actions ++ [action]) r' ∧ r.maxData ≤ r'.maxData := by
  obtain ⟨r', hr'⟩ := hinv.next haction
  refine ⟨r', hr', ?_⟩
  have hnext : s.next action = s.act action r := by rw [Receiver.next, hinv.recv]
  rw [hnext] at hopen hr'
  have hrecv := hr'.recv
  cases action with
  | frame off data fin =>
    have hw := hinv.written haction hopen hrecv
    refine ⟨h.written hinv haction hw, ?_⟩
    show r.flowControl.maxData ≤ r'.flowControl.maxData
    rw [hw.flowControl]
  | read cap => exact h.consume hinv (fun _ _ _ hne => by cases hne) cap some hrecv
  | discard cap => exact h.consume hinv (fun _ _ _ hne => by cases hne) cap (fun _ => none) hrecv
  | reset code finalSize => cases hkeeps
  | shutdown => cases hkeeps
  | update now rtt =>
    obtain ⟨f, hraise, _, hle⟩ := raise_spec hinv.grows now rtt
    obtain rfl : Receiver.raise now rtt r = r' := Option.some.inj hrecv
    rw [hraise]
    exact ⟨h.other (fun _ _ _ hne => by cases hne) h.error h.drain rfl rfl (fun _ hx => hx), hle⟩

end Arrived

theorem closed_next (action : RecvAction) (s : Receiver) (h : s.closed = true) : (s.next action).closed = true := by
  rw [Receiver.next]
  split
  · rename_i r _
    have hconsume (cap : Nat) (seen : UInt8 → Option UInt8) : (s.consume cap seen r).closed = true := by
      rw [Receiver.consume]
      split
      · exact h
      · exact h
    cases action with
    | frame off data fin =>
      rw [Receiver.act, if_pos h]
      exact h
    | read cap => exact hconsume cap some
    | discard cap => exact hconsume cap _
    | reset code finalSize =>
      rw [Receiver.act, if_pos h]
      exact h
    | shutdown => exact h
    | update now rtt => exact h
  · exact h

/-- Only a frame closes the connection. -/
theorem Receiver.open_next (h : s.closed = false) {action : RecvAction} (hkeeps : action.Keeps = true)
    (hnot : ∀ off data fin, action ≠ .frame off data fin) : (s.next action).closed = false := by
  rw [Receiver.next]
  split
  · rename_i r _
    have hconsume (cap : Nat) (seen : UInt8 → Option UInt8) : (s.consume cap seen r).closed = false := by
      rw [Receiver.consume]
      split
      · exact h
      · exact h
    cases action with
    | frame off data fin => exact absurd rfl (hnot off data fin)
    | read cap => exact hconsume cap some
    | discard cap => exact hconsume cap _
    | reset code finalSize => cases hkeeps
    | shutdown => exact h
    | update now rtt => exact h
  · exact h

end Steps

theorem arrived_new (maxData initialWindow maxWindow : Nat) : Arrived [] (.new maxData initialWindow maxWindow) := by
  refine ⟨rfl, rfl, ?_, ?_, fun f hf => absurd hf (Option.not_mem_none f), .inl rfl⟩
  · exact fun _ _ _ hmem => absurd hmem List.not_mem_nil
  · exact fun _ _ hmem => absurd hmem List.not_mem_nil

theorem run_arrived {stream : List UInt8} (maxData initialWindow maxWindow : Nat) (actions : List RecvAction)
    (hactions : ∀ a ∈ actions, a.Faithful stream) (hkeeps : ∀ a ∈ actions, a.Keeps = true)
    (hopen : (run Receiver.next (.new maxData initialWindow maxWindow) actions).closed = false) :
    ∃ r, Seen stream (run Receiver.next (.new maxData initialWindow maxWindow) actions) r ∧
      Arrived actions r := by
  induction actions using List.reverseRecOn with
  | nil =>
    exact ⟨_, seen_new stream maxData initialWindow maxWindow, arrived_new maxData initialWindow maxWindow⟩
  | append_singleton front a ih =>
    rw [Machine.run_append] at hopen ⊢
    have hfrontOpen : (run Receiver.next (.new maxData initialWindow maxWindow) front).closed = false := by
      by_contra hc
      rw [Bool.not_eq_false] at hc
      rw [show run Receiver.next _ [a] = Receiver.next a _ from rfl, closed_next a _ hc] at hopen
      cases hopen
    obtain ⟨r, hinv, harrived⟩ := ih (fun b hb => hactions b (List.mem_append_left _ hb))
      (fun b hb => hkeeps b (List.mem_append_left _ hb)) hfrontOpen
    obtain ⟨r', hr', harrived', _⟩ := harrived.next hinv (hactions a (by simp)) (hkeeps a (by simp)) hopen
    exact ⟨r', hr', harrived'⟩

/-- One read with room for it brings the application to where all below is there. -/
theorem Seen.reads {stream : List UInt8} {s : Receiver} {r : RecvBuf} (h : Seen stream s r) (herror : r.error = none)
    (hdrain : r.drain = false) {n : Nat} (hhas : ∀ x < n, r.Has x) : n ≤ (s.next (.read n)).history.length := by
  have hsound : Sound stream r := by
    rcases h.sound with hsound | ⟨_, _, hne⟩
    · exact hsound.1
    · exact absurd herror hne
  have hposition := h.position herror hdrain
  rw [Receiver.next, h.recv]
  show n ≤ (Receiver.consume n some r _).history.length
  rw [Receiver.consume, RecvBuf.emitOrDiscard]
  by_cases hready : r.ready = true
  · rw [if_pos hready, herror]
    obtain ⟨got, hgot, htaken⟩ := RecvBuf.take_spec n [] hsound (Nat.le_refl r.data.len)
    have hreach := htaken.reaches (n := n) (by omega) (fun x hx => htaken.has x (hhas x hx))
    show n ≤ (_ ++ (RecvBuf.take r.data.len n r []).2.map some).length
    rw [hgot, List.nil_append, List.length_append, List.length_map, hposition, ← htaken.off]
    exact hreach
  · rw [if_neg hready, hposition]
    rw [Bool.not_eq_true] at hready
    have hnothing : Taken stream n r r [] :=
      ⟨hsound, rfl, Nat.zero_le _, rfl, ⟨rfl, rfl, rfl, rfl, rfl⟩, fun _ hx => hx, .inr hready⟩
    exact hnothing.reaches (by omega) hhas

/-- If all below `n` has arrived, in whatever pieces and in whatever order, one read with room for
it brings the application there. -/
theorem run_complete (stream : List UInt8) (maxData initialWindow maxWindow : Nat) (actions : List RecvAction)
    (hactions : ∀ a ∈ actions, a.Faithful stream) (hkeeps : ∀ a ∈ actions, a.Keeps = true)
    (hopen : (run Receiver.next (.new maxData initialWindow maxWindow) actions).closed = false) (n : Nat)
    (hn : ∀ x < n, ∃ off data fin, RecvAction.frame off data fin ∈ actions ∧ off ≤ x ∧ x < off + data.length) :
    n ≤ (run Receiver.next (.new maxData initialWindow maxWindow) (actions ++ [.read n])).history.length := by
  obtain ⟨r, hinv, harrived⟩ := run_arrived maxData initialWindow maxWindow actions hactions hkeeps hopen
  rw [Machine.run_append]
  refine hinv.reads harrived.error harrived.drain ?_
  intro x hx
  obtain ⟨off, data, fin, hmem, hlow, hhigh⟩ := hn x hx
  exact harrived.has off data fin hmem x hlow hhigh

theorem run_complete_crossed : 3 ≤ (run Receiver.next (.new 8 8 8) (crossed ++ [.read 3])).history.length := by
  refine run_complete [1, 2, 3] 8 8 8 crossed faithful_crossed (by decide) (by decide) 3 ?_
  intro x hx
  by_cases hlow : x < 1
  · exact ⟨0, [1, 2], false, by simp [crossed], by omega, by show x < 0 + 2; omega⟩
  · exact ⟨1, [2, 3], true, by simp [crossed], by omega, by show x < 1 + 2; omega⟩

end Aether.Quic
