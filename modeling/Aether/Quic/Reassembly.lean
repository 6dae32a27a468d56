import Aether.Quic.RecvBuf

/-! What the receiving end of a stream hands out.

The pieces that are kept lie apart, show what the stream has, and together with what was handed
out are what has arrived (`Sound`, `Holds`): a write adds the piece that arrives
(`write_spec`), and reading takes from the front (`take_spec`). -/
namespace Aether.Quic.RecvBuf
open Rust (BTreeMap)

variable {stream : List UInt8}

/-- The pieces, in the order of their ends. -/
def pieces (r : RecvBuf) : List RangeBuf := r.data.entries.map (·.2)

/-- The offset was handed out or is kept. -/
def Has (r : RecvBuf) (x : Nat) : Prop := x < r.off ∨ ∃ b ∈ r.pieces, b.offset ≤ x ∧ x < b.maxOff

structure Sound (stream : List UInt8) (r : RecvBuf) : Prop where
  keys : ∀ entry ∈ r.data.entries, entry.1 = entry.2.maxOff
  carries : ∀ b ∈ r.pieces, b.Carries stream
  apart : r.pieces.Pairwise (fun b c => b.maxOff ≤ c.offset)
  /-- What is handed out is not kept, and what is kept was counted. -/
  between : ∀ b ∈ r.pieces, r.off ≤ b.offset ∧ b.maxOff ≤ r.len
  off_le : r.off ≤ r.len
  fin : ∀ f ∈ r.finOff, r.len ≤ f
  drained : r.drain = true → r.pieces = [] ∧ r.off = r.len
  allowed : r.len ≤ r.maxData

variable {r : RecvBuf}

theorem mem_pieces {b : RangeBuf} : b ∈ r.pieces ↔ ∃ k, (k, b) ∈ r.data.entries := by
  rw [pieces, List.mem_map]
  constructor
  · intro h
    obtain ⟨entry, hentry, rfl⟩ := h
    exact ⟨entry.1, hentry⟩
  · intro h
    obtain ⟨k, hk⟩ := h
    exact ⟨_, hk, rfl⟩

theorem Sound.key_eq (h : Sound stream r) {k : Nat} {b : RangeBuf} (hb : (k, b) ∈ r.data.entries) : k = b.maxOff :=
  h.keys _ hb

/-! ### Keeping a piece -/

/-- A piece that lies clear of the others can be kept. -/
structure Fits (stream : List UInt8) (r : RecvBuf) (b : RangeBuf) : Prop where
  fresh : b.Fresh stream
  off_le : r.off ≤ b.offset
  clear : ∀ c ∈ r.pieces, b.maxOff ≤ c.offset ∨ c.maxOff ≤ b.offset
  empty : b.offset = b.maxOff → ∀ c ∈ r.pieces, c.maxOff ≠ b.maxOff
  allowed : b.maxOff ≤ r.maxData
  fin : ∀ f ∈ r.finOff, b.maxOff ≤ f

theorem store_drained {b : RangeBuf} (hdrain : r.drain = true) :
    r.store b = {r with len := max r.len b.maxOff, off := max r.len b.maxOff} := by
  rw [store]
  simp only [hdrain]
  rfl

theorem store_kept {b : RangeBuf} (hdrain : r.drain = false) :
    r.store b = {r with len := max r.len b.maxOff, data := r.data.insert b.maxOff b} := by
  rw [store]
  simp only [hdrain]
  rfl

theorem mem_pieces_store {b c : RangeBuf} (h : Sound stream r) (hdrain : r.drain = false) :
    c ∈ (r.store b).pieces ↔ c = b ∨ c ∈ r.pieces ∧ c.maxOff ≠ b.maxOff := by
  rw [mem_pieces, mem_pieces, store_kept hdrain]
  constructor
  · intro hc
    obtain ⟨k, hk⟩ := hc
    rcases BTreeMap.mem_insert.mp hk with he | ⟨hold, hne⟩
    · exact .inl (Prod.mk.inj he).2
    · have hkey := h.key_eq hold
      exact .inr ⟨⟨k, hold⟩, fun he => hne (hkey.trans he)⟩
  · intro hc
    rcases hc with rfl | ⟨⟨k, hk⟩, hne⟩
    · exact ⟨_, BTreeMap.mem_insert.mpr (.inl rfl)⟩
    · have hkey := h.key_eq hk
      exact ⟨k, BTreeMap.mem_insert.mpr (.inr ⟨hk, fun he => hne (hkey.symm.trans he)⟩)⟩

/-- The pieces that end below the new one lie before it, the others behind it. -/
theorem Sound.apart_insert {b : RangeBuf} (h : Sound stream r) (hb : Fits stream r b) :
    ((r.data.insert b.maxOff b).entries.map (·.2)).Pairwise (fun x y => x.maxOff ≤ y.offset) := by
  have hbb := b.offset_le_maxOff
  have hapart := h.apart
  rw [pieces, List.pairwise_map] at hapart
  rw [List.pairwise_map, BTreeMap.insert, List.pairwise_append, List.pairwise_cons]
  have hlow {e : Nat × RangeBuf} (he : e ∈ r.data.entries.filter (fun x => x.1 < b.maxOff)) :
      e.2.maxOff ≤ b.offset := by
    obtain ⟨he, hlt⟩ := List.mem_filter.mp he
    have hkey := h.keys e he
    have := e.2.offset_le_maxOff
    simp only [decide_eq_true_eq] at hlt
    rcases hb.clear e.2 (mem_pieces.mpr ⟨_, he⟩) with hc | hc
    · omega
    · exact hc
  have hhigh {e : Nat × RangeBuf} (he : e ∈ r.data.entries.filter (fun x => b.maxOff < x.1)) :
      b.maxOff ≤ e.2.offset := by
    obtain ⟨he, hlt⟩ := List.mem_filter.mp he
    have hkey := h.keys e he
    simp only [decide_eq_true_eq] at hlt
    rcases hb.clear e.2 (mem_pieces.mpr ⟨_, he⟩) with hc | hc
    · exact hc
    · omega
  refine ⟨hapart.filter _, ⟨fun e he => hhigh he, hapart.filter _⟩, ?_⟩
  intro e he t ht
  rcases List.mem_cons.mp ht with rfl | ht
  · exact hlow he
  · exact (hlow he).trans (hbb.trans (hhigh ht))

/-- A buffer without pieces is sound where its numbers are. -/
theorem sound_cleared (hpieces : r.pieces = []) (hoff : r.off ≤ r.len) (hfin : ∀ f ∈ r.finOff, r.len ≤ f)
    (hdrain : r.drain = true → r.off = r.len) (hallowed : r.len ≤ r.maxData) : Sound stream r := by
  have hentries : r.data.entries = [] := List.map_eq_nil_iff.mp hpieces
  refine ⟨?_, ?_, ?_, ?_, hoff, hfin, fun hd => ⟨hpieces, hdrain hd⟩, hallowed⟩
  · rw [hentries]
    exact fun e he => absurd he List.not_mem_nil
  · rw [hpieces]
    exact fun c hc => absurd hc List.not_mem_nil
  · rw [hpieces]
    exact List.Pairwise.nil
  · rw [hpieces]
    exact fun c hc => absurd hc List.not_mem_nil

theorem Sound.store_drained {b : RangeBuf} (h : Sound stream r) (hb : Fits stream r b) (hdrain : r.drain = true) :
    Sound stream (r.store b) := by
  obtain ⟨hnone, _⟩ := h.drained hdrain
  rw [RecvBuf.store_drained hdrain]
  exact sound_cleared hnone (Nat.le_refl _) (fun f hf => max_le (h.fin f hf) (hb.fin f hf)) (fun _ => rfl)
    (max_le h.allowed hb.allowed)

theorem Sound.store {b : RangeBuf} (h : Sound stream r) (hb : Fits stream r b) : Sound stream (r.store b) := by
  by_cases hdrain : r.drain = true
  · exact h.store_drained hb hdrain
  rw [Bool.not_eq_true] at hdrain
  have hmem {c : RangeBuf} := mem_pieces_store (b := b) (c := c) h hdrain
  rw [store_kept hdrain] at hmem ⊢
  refine ⟨?_, ?_, h.apart_insert hb, ?_, h.off_le.trans (le_max_left _ _),
    fun f hf => max_le (h.fin f hf) (hb.fin f hf), fun hd => absurd (hdrain.symm.trans hd) Bool.false_ne_true,
    max_le h.allowed hb.allowed⟩
  · intro entry hentry
    rcases BTreeMap.mem_insert.mp hentry with rfl | ⟨hold, _⟩
    · rfl
    · exact h.keys entry hold
  · intro c hc
    rcases hmem.mp hc with rfl | ⟨hc, _⟩
    · exact hb.fresh.toCarries
    · exact h.carries c hc
  · intro c hc
    show r.off ≤ c.offset ∧ c.maxOff ≤ max r.len b.maxOff
    rcases hmem.mp hc with rfl | ⟨hc, _⟩
    · exact ⟨hb.off_le, le_max_right _ _⟩
    · exact ⟨(h.between c hc).1, (h.between c hc).2.trans (le_max_left _ _)⟩

/-- A piece that is replaced had no bytes. -/
theorem has_store {b : RangeBuf} (h : Sound stream r) (hb : Fits stream r b) (hdrain : r.drain = false) (x : Nat) :
    (r.store b).Has x ↔ r.Has x ∨ b.offset ≤ x ∧ x < b.maxOff := by
  have hoff : (r.store b).off = r.off := by rw [store_kept hdrain]
  have hmem {c : RangeBuf} := mem_pieces_store (b := b) (c := c) h hdrain
  rw [Has, Has, hoff]
  constructor
  · intro hx
    rcases hx with hx | ⟨c, hc, hcx⟩
    · exact .inl (.inl hx)
    · rcases hmem.mp hc with rfl | ⟨hc, _⟩
      · exact .inr hcx
      · exact .inl (.inr ⟨c, hc, hcx⟩)
  · intro hx
    rcases hx with (hx | ⟨c, hc, hcx⟩) | hx
    · exact .inl hx
    · refine .inr ⟨c, hmem.mpr (.inr ⟨hc, ?_⟩), hcx⟩
      intro he
      rcases hb.clear c hc with hle | hle
      · have := b.offset_le_maxOff
        omega
      · exact hb.empty (by have := b.offset_le_maxOff; omega) c hc he
    · exact .inr ⟨b, hmem.mpr (.inl rfl), hx⟩

/-! ### Writing a piece -/

theorem Carved.mono {bs cs : List RangeBuf} {buf : RangeBuf} {kept : Option RangeBuf} {later : List RangeBuf}
    (h : Carved stream bs buf kept later) (hsub : ∀ c ∈ bs, c ∈ cs) (hothers : ∀ c ∈ cs, c ∉ bs → c.maxOff < buf.offset)
    (hbs : bs ≠ [] ∨ later = []) : Carved stream cs buf kept later := by
  refine ⟨h.kept_fresh, ?_, ?_, h.later_fresh, h.later_length, ?_, ?_, ?_⟩
  · intro b hb c hc
    by_cases hmem : c ∈ bs
    · exact h.clear b hb c hmem
    · have := hothers c hc hmem
      have := h.kept_fresh b hb
      exact .inr (by omega)
  · intro b hb he
    obtain ⟨hbuf, hne⟩ := h.empty b hb he
    refine ⟨hbuf, ?_⟩
    intro c hc
    by_cases hmem : c ∈ bs
    · exact hne c hmem
    · have := hothers c hc hmem
      have := h.kept_fresh b hb
      omega
  · intro hcs
    rcases hbs with hbs | hlater
    · obtain ⟨c, hc⟩ := List.exists_mem_of_ne_nil bs hbs
      have := hsub c hc
      rw [hcs] at this
      cases this
    · exact hlater
  · intro hnone
    rcases h.reached hnone with ⟨c, hc, hle⟩ | hkept
    · exact .inl ⟨c, hsub c hc, hle⟩
    · exact .inr hkept
  · intro x hlow hhigh
    rcases h.whole x hlow hhigh with ⟨c, hc, hcx⟩ | hx
    · exact .inl ⟨c, hsub c hc, hcx⟩
    · exact .inr hx

theorem overlapping_spec (h : Sound stream r) {buf : RangeBuf} (hbuf : buf.Fresh stream) (tmp : List RangeBuf) :
    ∃ kept later, r.overlapping buf tmp = some (kept, tmp ++ later) ∧ Carved stream r.pieces buf kept later := by
  rw [overlapping]
  by_cases hrun : buf.offset < r.len ∨ buf.isEmpty = true
  · rw [if_pos hrun]
    have hmem {c : RangeBuf} : c ∈ (r.data.rangeFrom buf.offset).map (·.2) ↔ c ∈ r.pieces ∧ buf.offset ≤ c.maxOff := by
      rw [List.mem_map]
      constructor
      · intro hc
        obtain ⟨entry, hentry, rfl⟩ := hc
        obtain ⟨hentry, hle⟩ := List.mem_filter.mp hentry
        simp only [decide_eq_true_eq] at hle
        rw [h.keys entry hentry] at hle
        exact ⟨mem_pieces.mpr ⟨_, hentry⟩, hle⟩
      · intro hc
        obtain ⟨hc, hle⟩ := hc
        obtain ⟨k, hk⟩ := mem_pieces.mp hc
        refine ⟨(k, c), List.mem_filter.mpr ⟨hk, ?_⟩, rfl⟩
        simp only [decide_eq_true_eq]
        rw [h.key_eq hk]
        exact hle
    have hapart : ((r.data.rangeFrom buf.offset).map (·.2)).Pairwise (fun b c => b.maxOff ≤ c.offset) := by
      have := h.apart
      rw [pieces, List.pairwise_map] at this
      rw [List.pairwise_map]
      exact this.filter _
    obtain ⟨kept, later, hcarve, hcarved⟩ := carve_spec hapart hbuf (fun b hb => (hmem.mp hb).2) tmp
    refine ⟨kept, later, hcarve, hcarved.mono (fun c hc => (hmem.mp hc).1) ?_ ?_⟩
    · intro c hc hnot
      by_contra hge
      exact hnot (hmem.mpr ⟨hc, not_lt.mp hge⟩)
    · by_cases hbs : (r.data.rangeFrom buf.offset).map (·.2) = []
      · exact .inr (hcarved.alone hbs)
      · exact .inl hbs
  · rw [if_neg hrun]
    rw [not_or, not_lt] at hrun
    have hne : buf.length ≠ 0 := by
      intro he
      exact hrun.2 (by rw [RangeBuf.isEmpty, he]; rfl)
    refine ⟨some buf, [], by rw [List.append_nil], Carved.of_clear hbuf ?_ ?_⟩
    · intro c hc
      have := h.between c hc
      exact .inr (by omega)
    · intro he
      rw [buf.length_eq] at hne
      omega

/-- What a piece must meet to be looked at. -/
structure Wanted (stream : List UInt8) (r : RecvBuf) (buf : RangeBuf) : Prop where
  fresh : buf.Fresh stream
  ahead : r.off < buf.maxOff ∨ buf.offset = buf.maxOff ∧ r.off ≤ buf.offset
  allowed : buf.maxOff ≤ r.maxData
  fin : ∀ f ∈ r.finOff, buf.maxOff ≤ f

theorem trimFront_spec {buf : RangeBuf} (hbuf : Wanted stream r buf) :
    ∃ front, trimFront r.off buf = some front ∧ front.Fresh stream ∧ r.off ≤ front.offset ∧ buf.offset ≤ front.offset ∧
      front.maxOff = buf.maxOff ∧ (front.offset = front.maxOff → buf.offset = buf.maxOff) ∧
      ∀ x, buf.offset ≤ x → x < front.offset → x < r.off := by
  have hahead := hbuf.ahead
  rw [trimFront]
  by_cases hlow : r.off > buf.offset
  · obtain ⟨_, back, hsplit, _, hback, _, _, hoff, hmax, _⟩ :=
      hbuf.fresh.splitOff (show buf.offset ≤ r.off by omega) (show r.off ≤ buf.maxOff by omega)
    rw [if_pos hlow, hsplit]
    refine ⟨back, rfl, hback, by omega, by omega, hmax, by omega, ?_⟩
    intro x _ hx
    omega
  · rw [if_neg hlow]
    refine ⟨buf, rfl, hbuf.fresh, by omega, Nat.le_refl _, rfl, id, ?_⟩
    intro x _ hx
    omega

/-- What a write does not touch. -/
structure SameFrame (r r' : RecvBuf) : Prop where
  flowControl : r'.flowControl = r.flowControl
  finOff : r'.finOff = r.finOff
  error : r'.error = r.error
  drain : r'.drain = r.drain
  off : r.drain = false → r'.off = r.off

theorem sameFrame_store (buf : RangeBuf) (r : RecvBuf) : SameFrame r (r.store buf) := by
  cases hdrain : r.drain with
  | false =>
    rw [store_kept hdrain]
    exact ⟨rfl, rfl, rfl, rfl, fun _ => rfl⟩
  | true =>
    rw [store_drained hdrain]
    exact ⟨rfl, rfl, rfl, rfl, fun hd => absurd (hd.symm.trans hdrain) Bool.false_ne_true⟩

theorem SameFrame.trans {r s t : RecvBuf} (h : SameFrame r s) (h' : SameFrame s t) : SameFrame r t :=
  ⟨h'.flowControl.trans h.flowControl, h'.finOff.trans h.finOff, h'.error.trans h.error, h'.drain.trans h.drain,
    fun hd => (h'.off (h.drain.trans hd)).trans (h.off hd)⟩

theorem len_store (buf : RangeBuf) (r : RecvBuf) : (r.store buf).len = max r.len buf.maxOff := by
  rw [store]
  split
  · rfl
  · rfl

theorem absorb_nil (turns : Nat) (r : RecvBuf) : absorb turns [] r = some r := by
  cases turns with
  | zero => rfl
  | succ turns => rfl

/-- What the loop finds of a piece: its front is trimmed, and what is left of that carved. -/
structure Cut (stream : List UInt8) (r : RecvBuf) (buf front : RangeBuf) (kept : Option RangeBuf)
    (later : List RangeBuf) : Prop where
  trimmed : trimFront r.off buf = some front
  overlaps : r.overlapping front [] = some (kept, later)
  carved : Carved stream r.pieces front kept later
  off_le : r.off ≤ front.offset
  offset_le : buf.offset ≤ front.offset
  maxOff_eq : front.maxOff = buf.maxOff
  low : ∀ x, buf.offset ≤ x → x < front.offset → x < r.off

section Cut
variable {buf front : RangeBuf} {kept : Option RangeBuf} {later : List RangeBuf}

theorem Wanted.cut (h : Sound stream r) (hbuf : Wanted stream r buf) :
    ∃ front kept later, Cut stream r buf front kept later := by
  obtain ⟨front, hfront, hfresh, hoff, hle, hmax, -, hlow⟩ := trimFront_spec hbuf
  obtain ⟨kept, later, hover, hcarved⟩ := overlapping_spec h hfresh []
  exact ⟨front, kept, later, hfront, hover, hcarved, hoff, hle, hmax, hlow⟩

/-- The part that is kept can be. -/
theorem Cut.fits (h : Cut stream r buf front kept later) (hbuf : Wanted stream r buf) :
    ∀ b ∈ kept, Fits stream r b := by
  intro b hb
  obtain ⟨hfresh, hlow, hhigh⟩ := h.carved.kept_fresh b hb
  have hmax := h.maxOff_eq
  refine ⟨hfresh, h.off_le.trans hlow, h.carved.clear b hb, fun he => (h.carved.empty b hb he).2, ?_, ?_⟩
  · have := hbuf.allowed
    omega
  · intro f hf
    have := hbuf.fin f hf
    omega

/-- Nothing is kept, or waits, that the piece does not have. -/
theorem Cut.inside (h : Cut stream r buf front kept later) {x : Nat}
    (hx : (∃ b ∈ kept, b.offset ≤ x ∧ x < b.maxOff) ∨ ∃ b ∈ later, b.offset ≤ x ∧ x < b.maxOff) :
    buf.offset ≤ x ∧ x < buf.maxOff := by
  have hle := h.offset_le
  have hmax := h.maxOff_eq
  rcases hx with ⟨b, hb, hx⟩ | ⟨b, hb, hx⟩
  · have := h.carved.kept_fresh b hb
    omega
  · have := h.carved.later_fresh b hb
    omega

/-- What the piece has was there, is kept or waits. -/
theorem Cut.whole (h : Cut stream r buf front kept later) {x : Nat} (hlow : buf.offset ≤ x) (hhigh : x < buf.maxOff) :
    r.Has x ∨ (∃ b ∈ kept, b.offset ≤ x ∧ x < b.maxOff) ∨ ∃ b ∈ later, b.offset ≤ x ∧ x < b.maxOff := by
  have hmax := h.maxOff_eq
  by_cases hfront : x < front.offset
  · exact .inl (.inl (h.low x hlow hfront))
  · exact (h.carved.whole x (not_lt.mp hfront) (by omega)).imp_left .inr

/-- The part that waits is wanted too, and shorter. -/
theorem Cut.wanted (h : Cut stream r buf front kept later) (hbuf : Wanted stream r buf) {s : RecvBuf}
    (hframe : SameFrame r s) (hoff : s.off = r.off) {b : RangeBuf} (hb : b ∈ later) :
    Wanted stream s b ∧ b.maxOff = buf.maxOff ∧ b.length < buf.length := by
  obtain ⟨hfresh, hlt, hbytes, hmax⟩ := h.carved.later_fresh b hb
  have hmaxFront := h.maxOff_eq
  have hle := h.offset_le
  have hoffLe := h.off_le
  have hbufLength := buf.length_eq
  refine ⟨⟨hfresh, .inl (by omega), ?_, ?_⟩, by omega, ?_⟩
  · have := hbuf.allowed
    rw [maxData, hframe.flowControl, ← maxData]
    omega
  · intro f hf
    rw [hframe.finOff] at hf
    have := hbuf.fin f hf
    omega
  · rw [b.length_eq]
    omega

end Cut

/-- A turn of the loop: the part that is kept, if there is one, is stored. -/
structure Stored (stream : List UInt8) (kept : Option RangeBuf) (r s : RecvBuf) : Prop where
  sound : Sound stream s
  frame : SameFrame r s
  len_eq : s.len = max r.len ((kept.map RangeBuf.maxOff).getD 0)
  has : r.drain = false → ∀ x, s.Has x ↔ r.Has x ∨ ∃ b ∈ kept, b.offset ≤ x ∧ x < b.maxOff

theorem stored_kept (h : Sound stream r) {kept : Option RangeBuf} (hfits : ∀ b ∈ kept, Fits stream r b) :
    Stored stream kept r (kept.elim r r.store) := by
  cases kept with
  | none =>
    refine ⟨h, ⟨rfl, rfl, rfl, rfl, fun _ => rfl⟩, (max_eq_left (Nat.zero_le _)).symm, fun _ x => ⟨.inl, ?_⟩⟩
    intro hx
    rcases hx with hx | ⟨b, hb, _⟩
    · exact hx
    · cases hb
  | some b =>
    have hb := hfits b rfl
    refine ⟨h.store hb, sameFrame_store b r, len_store b r, ?_⟩
    intro hdrain x
    show (r.store b).Has x ↔ _
    rw [has_store h hb hdrain]
    apply or_congr_right
    simp

theorem Cut.turn {buf front : RangeBuf} {kept : Option RangeBuf} {later : List RangeBuf}
    (h : Cut stream r buf front kept later) (turns : Nat) :
    absorb (turns + 1) [buf] r = absorb turns later (kept.elim r r.store) := by
  rw [absorb, h.trimmed]
  show (r.overlapping front [] >>= _) = _
  rw [h.overlaps]
  cases kept with
  | none => rfl
  | some b => rfl

/-- The loop ends, and what the piece has is there. -/
theorem absorb_spec {turns : Nat} {buf : RangeBuf} (h : Sound stream r) (hbuf : Wanted stream r buf)
    (hturns : buf.length < turns) :
    ∃ r', absorb turns [buf] r = some r' ∧ Sound stream r' ∧ SameFrame r r' ∧ r'.len = max r.len buf.maxOff ∧
      (r.drain = false → ∀ x, r'.Has x ↔ r.Has x ∨ buf.offset ≤ x ∧ x < buf.maxOff) := by
  induction turns generalizing buf r with
  | zero => omega
  | succ turns ih =>
    obtain ⟨front, kept, later, hcut⟩ := hbuf.cut h
    obtain ⟨s, hs⟩ : ∃ s, s = kept.elim r r.store := ⟨_, rfl⟩
    have hstored : Stored stream kept r s := hs ▸ stored_kept h (hcut.fits hbuf)
    have hkeptMax : (kept.map RangeBuf.maxOff).getD 0 ≤ buf.maxOff := by
      rw [← hcut.maxOff_eq]
      cases hkept : kept with
      | none => exact Nat.zero_le _
      | some b => exact (hcut.carved.kept_fresh b hkept).2.2
    rw [hcut.turn, ← hs]
    cases later with
    | nil =>
      refine ⟨s, absorb_nil turns s, hstored.sound, hstored.frame, ?_, fun hdrain x => ?_⟩
      · rw [hstored.len_eq]
        have hmax := hcut.maxOff_eq
        rcases hcut.carved.reached rfl with ⟨c, hc, hcmax⟩ | ⟨b, hb, hbmax⟩
        · have := (h.between c hc).2
          omega
        · rw [show kept = some b from hb]
          show max r.len b.maxOff = _
          rw [hbmax, hmax]
      · rw [hstored.has hdrain]
        apply Iff.intro
        · exact fun hx => hx.imp_right (fun hx => hcut.inside (.inl hx))
        · intro hx
          rcases hx with hx | hx
          · exact .inl hx
          · exact (hcut.whole hx.1 hx.2).imp_right (fun hx => hx.resolve_right (by simp))
    | cons b others =>
      obtain rfl : others = [] := by
        have := hcut.carved.later_length
        rw [List.length_cons] at this
        exact List.length_eq_zero_iff.mp (by omega)
      have hdrain : r.drain = false := by
        by_contra hd
        rw [Bool.not_eq_false] at hd
        cases hcut.carved.alone (h.drained hd).1
      obtain ⟨hwanted, hmax, hlength⟩ :=
        hcut.wanted hbuf hstored.frame (hstored.frame.off hdrain) (List.mem_singleton_self b)
      obtain ⟨r', hr', hsound, hframe, hlen, hhas⟩ := ih hstored.sound hwanted (by omega)
      refine ⟨r', hr', hsound, hstored.frame.trans hframe, ?_, fun hdrain x => ?_⟩
      · rw [hlen, hstored.len_eq, hmax]
        omega
      · have hb : (∃ c ∈ [b], c.offset ≤ x ∧ x < c.maxOff) ↔ b.offset ≤ x ∧ x < b.maxOff := by simp
        rw [hhas (hstored.frame.drain.trans hdrain), hstored.has hdrain, or_assoc, ← hb]
        apply Iff.intro
        · exact fun hx => hx.imp_right hcut.inside
        · intro hx
          rcases hx with hx | hx
          · exact .inl hx
          · exact hcut.whole hx.1 hx.2

/-- The end of the stream, once it is known, is where what has arrived ends. -/
def Ended (r : RecvBuf) : Prop := ∀ f ∈ r.finOff, r.len = f

/-- What an accepted piece changes. -/
structure Written (stream : List UInt8) (buf : RangeBuf) (r r' : RecvBuf) : Prop where
  sound : Sound stream r'
  ended : r'.Ended
  flowControl : r'.flowControl = r.flowControl
  error : r'.error = r.error
  drain : r'.drain = r.drain
  finOff : r'.finOff = r.finOff ∨ buf.fin = true ∧ r'.finOff = some buf.maxOff
  off : r.drain = false → r'.off = r.off
  has : r.drain = false → ∀ x, r'.Has x ↔ r.Has x ∨ buf.offset ≤ x ∧ x < buf.maxOff
  len_le : r'.len ≤ max r.len buf.maxOff
  ends : buf.fin = true → r'.finOff = some buf.maxOff

/-- What the checks of a write let pass. -/
structure Passed (buf : RangeBuf) (r : RecvBuf) : Prop where
  flow : buf.maxOff ≤ r.maxData
  known : ∀ f ∈ r.finOff, buf.maxOff ≤ f ∧ (buf.fin = true → f = buf.maxOff)
  short : buf.fin = true → r.len ≤ buf.maxOff

/-- The buffer once it is told of the end, if the piece says it. -/
structure Recorded (stream : List UInt8) (buf : RangeBuf) (r s : RecvBuf) : Prop where
  sound : Sound stream s
  len : s.len = r.len
  flowControl : s.flowControl = r.flowControl
  error : s.error = r.error
  drain : s.drain = r.drain
  off : s.off = r.off
  data : s.data = r.data
  fin : buf.fin = true → s.finOff = some buf.maxOff
  notFin : buf.fin = false → s.finOff = r.finOff

section Write
variable {buf : RangeBuf} {s : RecvBuf}

/-- The piece says no other end than the one that is known. -/
theorem Passed.recorded_same (h : Sound stream r) (hpassed : Passed buf r) (hknown : r.finOff.isSome = true) :
    Recorded stream buf r r := by
  refine ⟨h, rfl, rfl, rfl, rfl, rfl, rfl, ?_, fun _ => rfl⟩
  intro hfin
  obtain ⟨f, hf⟩ := Option.isSome_iff_exists.mp hknown
  rw [hf, (hpassed.known f hf).2 hfin]

theorem Passed.recorded (h : Sound stream r) (hpassed : Passed buf r) :
    Recorded stream buf r (if buf.fin then {r with finOff := some buf.maxOff} else r) := by
  cases hfin : buf.fin with
  | false => exact ⟨h, rfl, rfl, rfl, rfl, rfl, rfl, fun hf => absurd (hfin.symm.trans hf) Bool.false_ne_true,
    fun _ => rfl⟩
  | true =>
    refine ⟨⟨h.keys, h.carries, h.apart, h.between, h.off_le, ?_, h.drained, h.allowed⟩, rfl, rfl, rfl, rfl, rfl,
      rfl, fun _ => rfl, fun hf => absurd (hf.symm.trans hfin) Bool.false_ne_true⟩
    intro f hf
    obtain rfl : buf.maxOff = f := Option.mem_some_iff.mp hf
    exact hpassed.short hfin

theorem Recorded.has (h : Recorded stream buf r s) (x : Nat) : s.Has x ↔ r.Has x := by
  rw [Has, Has, pieces, pieces, h.off, h.data]

/-- The end that is recorded was known before, or the piece says it. -/
theorem Recorded.finOff_cases (h : Recorded stream buf r s) :
    s.finOff = r.finOff ∨ buf.fin = true ∧ s.finOff = some buf.maxOff := by
  cases hfin : buf.fin with
  | false => exact .inl (h.notFin hfin)
  | true => exact .inr ⟨rfl, h.fin hfin⟩

theorem Recorded.ended (h : Recorded stream buf r s) {n : Nat} (hold : ∀ f ∈ r.finOff, n = f)
    (hnew : buf.fin = true → n = buf.maxOff) : ∀ f ∈ s.finOff, n = f := by
  intro f hf
  rcases h.finOff_cases with hsame | ⟨hfin, hsome⟩
  · exact hold f (hsame ▸ hf)
  · rw [hsome] at hf
    exact (hnew hfin).trans (Option.mem_some_iff.mp hf)

/-- Nothing more is done where everything the piece has is there already. -/
theorem Recorded.unchanged (h : Recorded stream buf r s) (hended : r.Ended)
    (hthere : ∀ x, buf.offset ≤ x → x < buf.maxOff → r.Has x) (hlen : buf.fin = true → r.len = buf.maxOff) :
    Written stream buf r s := by
  refine ⟨h.sound, ?_, h.flowControl, h.error, h.drain, h.finOff_cases, fun _ => h.off, ?_, ?_, h.fin⟩
  · rw [Ended, h.len]
    exact h.ended hended hlen
  · intro _ x
    rw [h.has]
    exact ⟨.inl, fun hx => hx.elim id (fun hx => hthere x hx.1 hx.2)⟩
  · rw [h.len]
    exact Nat.le_max_left _ _

/-- What neither is empty without an end nor lies behind is for the loop. -/
theorem Recorded.wanted (h : Recorded stream buf r s) (hbuf : buf.Fresh stream) (hpassed : Passed buf r)
    (hsome : ¬ (¬ buf.fin = true ∧ buf.isEmpty = true)) (hahead : ¬ (s.off ≥ buf.maxOff ∧ ¬ buf.isEmpty = true)) :
    Wanted stream s buf := by
  refine ⟨hbuf, ?_, ?_, ?_⟩
  · by_cases hlt : s.off < buf.maxOff
    · exact .inl hlt
    · have hempty : buf.isEmpty = true := by
        by_contra hnot
        exact hahead ⟨by omega, hnot⟩
      have hfin : buf.fin = true := by
        by_contra hnot
        exact hsome ⟨hnot, hempty⟩
      have hoffset := buf.isEmpty_iff.mp hempty
      have hshort := hpassed.short hfin
      have hoff := h.sound.off_le
      rw [h.len] at hoff
      exact .inr ⟨hoffset, by omega⟩
  · rw [maxData, h.flowControl]
    exact hpassed.flow
  · intro f hf
    rcases h.finOff_cases with hsame | ⟨_, hend⟩
    · exact (hpassed.known f (hsame ▸ hf)).1
    · rw [hend] at hf
      exact (Option.mem_some_iff.mp hf).le

/-- The loop puts there what the piece has. -/
theorem Recorded.absorbed (h : Recorded stream buf r s) (hended : r.Ended) (hpassed : Passed buf r)
    (hwanted : Wanted stream s buf) :
    ∃ r', absorb (buf.length + 1) [buf] s = some r' ∧ Written stream buf r r' := by
  obtain ⟨r', hr', hsound, hframe, hlen, hhas⟩ := absorb_spec h.sound hwanted (Nat.lt_succ_self buf.length)
  rw [h.len] at hlen
  refine ⟨r', hr', hsound, ?_, hframe.flowControl.trans h.flowControl, hframe.error.trans h.error,
    hframe.drain.trans h.drain, ?_, fun hd => (hframe.off (h.drain.trans hd)).trans h.off, ?_, hlen.le,
    fun hfin => hframe.finOff.trans (h.fin hfin)⟩
  · rw [Ended, hframe.finOff, hlen]
    refine h.ended (fun f hf => ?_) (fun hfin => Nat.max_eq_right (hpassed.short hfin))
    rw [hended f hf]
    exact Nat.max_eq_left (hpassed.known f hf).1
  · rw [hframe.finOff]
    exact h.finOff_cases
  · intro hd x
    rw [hhas (h.drain.trans hd), h.has]

/-- What the checks say: an error, or whether the loop has work to do. -/
theorem accept_cases (buf : RangeBuf) (r : RecvBuf) :
    (∃ e, r.accept buf = .error e) ∨ Passed buf r ∧
      (r.finOff.isSome = true ∧ buf.isEmpty = true ∧ r.accept buf = .ok (r, false) ∨
        ∃ s, s = (if buf.fin then {r with finOff := some buf.maxOff} else r) ∧
          ¬ (r.finOff.isSome = true ∧ buf.isEmpty = true) ∧
          r.accept buf = if ¬ buf.fin = true ∧ buf.isEmpty = true then .ok (s, false)
            else if s.off ≥ buf.maxOff ∧ ¬ buf.isEmpty = true then .ok (s, false) else .ok (s, true)) := by
  by_cases hflow : buf.maxOff > r.maxData
  · exact .inl ⟨_, by rw [accept, if_pos hflow]⟩
  by_cases hfinal : r.finOff.any (fun finOff => decide (buf.maxOff > finOff)
    || (buf.fin && finOff != buf.maxOff)) = true
  · exact .inl ⟨_, by rw [accept, if_neg hflow, if_pos hfinal]⟩
  by_cases hshort : buf.fin ∧ buf.maxOff < r.len
  · exact .inl ⟨_, by rw [accept, if_neg hflow, if_neg hfinal, if_pos hshort]⟩
  right
  refine ⟨⟨by omega, ?_, fun hfin => ?_⟩, ?_⟩
  · intro f hf
    rw [Option.mem_def] at hf
    rw [hf, Option.any_some, Bool.or_eq_true, Bool.and_eq_true, bne_iff_ne, decide_eq_true_eq, not_or, not_and,
      not_not, not_lt] at hfinal
    exact hfinal
  · rw [not_and, not_lt] at hshort
    exact hshort hfin
  · by_cases hextra : r.finOff.isSome ∧ buf.isEmpty
    · exact .inl ⟨hextra.1, hextra.2, by rw [accept, if_neg hflow, if_neg hfinal, if_neg hshort, if_pos hextra]⟩
    · exact .inr ⟨_, rfl, hextra, by rw [accept, if_neg hflow, if_neg hfinal, if_neg hshort, if_neg hextra]⟩

/-- A write does not panic, and what it accepts is there. -/
theorem write_spec (h : Sound stream r) (hended : r.Ended) (hbuf : buf.Fresh stream) :
    ∃ result, r.write buf = some result ∧ ∀ r', result = .ok r' → Written stream buf r r' := by
  have hdone {s : RecvBuf} (hs : r.accept buf = .ok (s, false)) (hwritten : Written stream buf r s) :
      ∃ result, r.write buf = some result ∧ ∀ r', result = .ok r' → Written stream buf r r' := by
    refine ⟨.ok s, by rw [write, hs], ?_⟩
    intro r' hr'
    cases hr'
    exact hwritten
  rcases accept_cases buf r with ⟨e, he⟩ | ⟨hpassed, ⟨hknown, hempty, hs⟩ | ⟨s, hs, -, haccept⟩⟩
  · refine ⟨.error e, by rw [write, he], ?_⟩
    intro r' hr'
    cases hr'
  · have hoffset := buf.isEmpty_iff.mp hempty
    refine hdone hs ((hpassed.recorded_same h hknown).unchanged hended (fun x hlow hhigh => by omega) ?_)
    intro hfin
    obtain ⟨f, hf⟩ := Option.isSome_iff_exists.mp hknown
    exact (hended f hf).trans ((hpassed.known f hf).2 hfin)
  have hrecorded : Recorded stream buf r s := hs ▸ hpassed.recorded h
  by_cases hnothing : ¬ buf.fin = true ∧ buf.isEmpty = true
  · rw [if_pos hnothing] at haccept
    have hoffset := buf.isEmpty_iff.mp hnothing.2
    exact hdone haccept
      (hrecorded.unchanged hended (fun x hlow hhigh => by omega) (fun hfin => absurd hfin hnothing.1))
  rw [if_neg hnothing] at haccept
  by_cases hold : s.off ≥ buf.maxOff ∧ ¬ buf.isEmpty = true
  · rw [if_pos hold] at haccept
    have hoff := h.off_le
    rw [hrecorded.off] at hold
    refine hdone haccept (hrecorded.unchanged hended (fun x _ hhigh => .inl (by omega)) (fun hfin => ?_))
    have hshort := hpassed.short hfin
    omega
  rw [if_neg hold] at haccept
  obtain ⟨r', hr', hwritten⟩ :=
    hrecorded.absorbed hended hpassed (hrecorded.wanted hbuf hpassed hnothing hold)
  refine ⟨.ok r', ?_, ?_⟩
  · rw [write, haccept]
    show (absorb (buf.length + 1) [buf] s).map _ = _
    rw [hr']
    rfl
  · intro t ht
    cases ht
    exact hwritten

end Write

/-- What keeps to the limit and agrees with the end of the stream is accepted. -/
theorem write_accepts {buf : RangeBuf} (hflow : buf.maxOff ≤ r.maxData)
    (hfinal : ∀ f ∈ r.finOff, buf.maxOff ≤ f ∧ (buf.fin = true → f = buf.maxOff))
    (hshort : buf.fin = true → r.len ≤ buf.maxOff) (e : Error) : r.write buf ≠ some (.error e) := by
  have hfin : ¬ r.finOff.any (fun finOff => decide (buf.maxOff > finOff)
    || (buf.fin && finOff != buf.maxOff)) = true := by
    intro hany
    cases hf : r.finOff with
    | none =>
      rw [hf] at hany
      cases hany
    | some f =>
      obtain ⟨hle, hagree⟩ := hfinal f hf
      rw [hf, Option.any_some] at hany
      rcases Bool.or_eq_true_iff.mp hany with hlarge | hother
      · rw [decide_eq_true_eq] at hlarge
        omega
      · rw [Bool.and_eq_true, bne_iff_ne] at hother
        exact hother.2 (hagree hother.1)
  have hnotShort : ¬ (buf.fin = true ∧ buf.maxOff < r.len) := by
    intro hs
    have := hshort hs.1
    omega
  obtain ⟨result, haccept⟩ : ∃ result, r.accept buf = .ok result := by
    rw [accept, if_neg (by omega), if_neg hfin, if_neg hnotShort]
    split
    · exact ⟨_, rfl⟩
    · dsimp only
      repeat' split
      all_goals exact ⟨_, rfl⟩
  obtain ⟨s, more⟩ := result
  rw [write, haccept]
  intro he
  cases more with
  | false => cases he
  | true =>
    obtain ⟨_, _, hr⟩ := Option.map_eq_some_iff.mp he
    cases hr

/-! ### Reading -/

theorem ready_cons {k : Nat} {b : RangeBuf} {rest : List (Nat × RangeBuf)} (h : r.data.entries = (k, b) :: rest) :
    r.ready = true ↔ b.offset = r.off := by
  rw [ready, BTreeMap.first, h]
  exact beq_iff_eq

/-- What is handed out is what the stream has next; the loop ends where the room or the pieces do. -/
structure Taken (stream : List UInt8) (cap : Nat) (r r' : RecvBuf) (got : List UInt8) : Prop where
  sound : Sound stream r'
  got_eq : got = (stream.drop r.off).take got.length
  length_le : got.length ≤ cap
  off : r'.off = r.off + got.length
  same : r'.len = r.len ∧ r'.flowControl = r.flowControl ∧ r'.finOff = r.finOff ∧ r'.error = r.error ∧
    r'.drain = r.drain
  has : ∀ x, r.Has x → r'.Has x
  stops : got.length = cap ∨ r'.ready = false

theorem Taken.nothing {cap : Nat} (h : Sound stream r) (hstop : cap = 0 ∨ r.ready = false) :
    Taken stream cap r r [] :=
  ⟨h, rfl, Nat.zero_le _, rfl, ⟨rfl, rfl, rfl, rfl, rfl⟩, fun _ hx => hx, hstop.imp (fun hcap => hcap.symm) id⟩

/-- What is read in two parts. -/
theorem Taken.trans {cap n : Nat} {r s t : RecvBuf} {got more : List UInt8}
    (h : Taken stream n r s got) (hgot : got.length = n) (hn : n ≤ cap) (h' : Taken stream (cap - n) s t more) :
    Taken stream cap r t (got ++ more) := by
  have hmore := h'.length_le
  obtain ⟨hlen, hflow, hfin, herror, hdrain⟩ := h.same
  obtain ⟨hlen', hflow', hfin', herror', hdrain'⟩ := h'.same
  refine ⟨h'.sound, ?_, ?_, ?_, ?_, fun x hx => h'.has x (h.has x hx), ?_⟩
  · rw [List.length_append, List.take_add, ← h.got_eq, List.drop_drop, ← h.off, ← h'.got_eq]
  · rw [List.length_append]
    omega
  · rw [List.length_append, h'.off, h.off, Nat.add_assoc]
  · exact ⟨hlen'.trans hlen, hflow'.trans hflow, hfin'.trans hfin, herror'.trans herror, hdrain'.trans hdrain⟩
  · rw [List.length_append]
    exact h'.stops.imp_left (fun hstops => by omega)

/-- The piece that is read next, and those behind it. -/
structure Next (stream : List UInt8) (r : RecvBuf) (k : Nat) (b : RangeBuf) (rest : List (Nat × RangeBuf)) : Prop where
  sound : Sound stream r
  entries : r.data.entries = (k, b) :: rest
  offset : b.offset = r.off

section Next
variable {k : Nat} {b : RangeBuf} {rest : List (Nat × RangeBuf)}

theorem Next.pieces_eq (h : Next stream r k b rest) : r.pieces = b :: rest.map (·.2) := by
  rw [pieces, h.entries]
  rfl

theorem Next.carries (h : Next stream r k b rest) : b.Carries stream :=
  h.sound.carries b (by rw [h.pieces_eq]; exact List.mem_cons_self ..)

theorem Next.maxOff_le (h : Next stream r k b rest) : b.maxOff ≤ r.len :=
  (h.sound.between b (by rw [h.pieces_eq]; exact List.mem_cons_self ..)).2

/-- A buffer that is drained keeps no piece. -/
theorem Next.drain_eq (h : Next stream r k b rest) : r.drain = false := by
  by_contra hd
  rw [Bool.not_eq_false] at hd
  have hnone := (h.sound.drained hd).1
  rw [h.pieces_eq] at hnone
  cases hnone

theorem Next.behind (h : Next stream r k b rest) {c : RangeBuf} (hc : c ∈ rest.map (·.2)) :
    b.maxOff ≤ c.offset ∧ c.maxOff ≤ r.len := by
  have hapart := h.sound.apart
  rw [h.pieces_eq, List.pairwise_cons] at hapart
  exact ⟨hapart.1 c hc, (h.sound.between c (by rw [h.pieces_eq]; exact List.mem_cons_of_mem _ hc)).2⟩

/-- The bytes that are taken of it are the stream's next. -/
theorem Next.bytes_eq (h : Next stream r k b rest) {n : Nat} (hn : n ≤ b.length) :
    (b.bytes.take n).length = n ∧ b.bytes.take n = (stream.drop r.off).take n := by
  refine ⟨?_, ?_⟩
  · rw [List.length_take, h.carries.length_bytes]
    omega
  · rw [h.carries.bytes_eq, h.offset, List.take_take, Nat.min_eq_left hn]

/-- The pieces after a part of the first, or all of it, was handed out. -/
theorem Next.sound_advance (h : Next stream r k b rest) {n : Nat} (hn : n ≤ b.length) {m : BTreeMap Nat RangeBuf}
    {kept : List (Nat × RangeBuf)} (hkept : kept = [] ∨ kept = [(k, b.consume n)]) (hm : m.entries = kept ++ rest) :
    Sound stream {r with off := r.off + n, data := m} := by
  have hmaxConsume := h.carries.maxOff_consume hn
  have hmax : b.maxOff = b.offset + b.length := rfl
  have hoffset := h.offset
  have hlen := h.maxOff_le
  have hentry : ∀ e ∈ m.entries, e = (k, b.consume n) ∨ e ∈ rest := by
    intro e he
    rw [hm] at he
    rcases hkept with rfl | rfl
    · exact .inr he
    · exact List.mem_cons.mp he
  have hpiece : ∀ c ∈ m.entries.map (·.2), c = b.consume n ∨ c ∈ rest.map (·.2) := by
    intro c hc
    obtain ⟨e, he, rfl⟩ := List.mem_map.mp hc
    rcases hentry e he with rfl | he
    · exact .inl rfl
    · exact .inr (List.mem_map_of_mem he)
  have hold : ∀ e ∈ rest, e ∈ r.data.entries := fun e he => by rw [h.entries]; exact List.mem_cons_of_mem _ he
  have hapart := h.sound.apart
  rw [h.pieces_eq, List.pairwise_cons] at hapart
  refine ⟨?_, ?_, ?_, ?_, ?_, h.sound.fin, ?_, h.sound.allowed⟩
  · intro e he
    rcases hentry e he with rfl | he
    · show k = (b.consume n).maxOff
      rw [hmaxConsume]
      exact h.sound.keys (k, b) (by rw [h.entries]; exact List.mem_cons_self ..)
    · exact h.sound.keys e (hold e he)
  · intro c hc
    rcases hpiece c hc with rfl | hc
    · exact h.carries.consume hn
    · exact h.sound.carries c (by rw [h.pieces_eq]; exact List.mem_cons_of_mem _ hc)
  · show (m.entries.map (·.2)).Pairwise _
    rw [hm, List.map_append]
    rcases hkept with rfl | rfl
    · exact hapart.2
    · refine List.pairwise_cons.mpr ⟨fun c hc => ?_, hapart.2⟩
      rw [hmaxConsume]
      exact (h.behind hc).1
  · intro c hc
    show r.off + n ≤ c.offset ∧ c.maxOff ≤ r.len
    rcases hpiece c hc with rfl | hc
    · rw [hmaxConsume, RangeBuf.offset_consume]
      omega
    · have := h.behind hc
      omega
  · show r.off + n ≤ r.len
    omega
  · intro hd
    cases hd.symm.trans h.drain_eq

/-- What was there is handed out or still there. -/
theorem Next.has_advance (h : Next stream r k b rest) {n : Nat} (hn : n ≤ b.length) {m : BTreeMap Nat RangeBuf}
    {kept : List (Nat × RangeBuf)} (hkept : n = b.length ∨ (k, b.consume n) ∈ kept) (hm : m.entries = kept ++ rest)
    {x : Nat} (hx : r.Has x) : ({r with off := r.off + n, data := m} : RecvBuf).Has x := by
  have hmax : b.maxOff = b.offset + b.length := rfl
  have hoffset := h.offset
  have hmem : ∀ e ∈ kept ++ rest, e.2 ∈ ({r with off := r.off + n, data := m} : RecvBuf).pieces :=
    fun e he => List.mem_map_of_mem (hm ▸ he)
  by_cases hlow : x < r.off + n
  · exact .inl hlow
  right
  rcases hx with hx | ⟨c, hc, hcx⟩
  · omega
  rw [h.pieces_eq] at hc
  rcases List.mem_cons.mp hc with rfl | hc
  · rcases hkept with hwhole | hkept
    · omega
    · refine ⟨c.consume n, hmem _ (List.mem_append_left _ hkept), ?_⟩
      rw [h.carries.maxOff_consume hn, RangeBuf.offset_consume]
      omega
  · obtain ⟨e, he, rfl⟩ := List.mem_map.mp hc
    exact ⟨e.2, hmem e (List.mem_append_right _ he), hcx⟩

/-- The room ends in the first piece, or with it. -/
theorem Next.taken_part (h : Next stream r k b rest) {cap : Nat} (hcap : cap ≤ b.length) :
    Taken stream cap r {r with off := r.off + cap, data := r.data.insert k (b.consume cap)} (b.bytes.take cap) := by
  obtain ⟨hlength, hbytes⟩ := h.bytes_eq hcap
  have hm : (r.data.insert k (b.consume cap)).entries = [(k, b.consume cap)] ++ rest :=
    BTreeMap.replace_cut _ (show r.data.entries = [] ++ (k, b) :: rest from h.entries)
  refine ⟨h.sound_advance hcap (.inr rfl) hm, ?_, hlength.le, ?_, ⟨rfl, rfl, rfl, rfl, rfl⟩,
    fun x hx => h.has_advance hcap (.inr (List.mem_singleton_self _)) hm hx, .inl hlength⟩
  · rw [hlength]
    exact hbytes
  · rw [hlength]

/-- The first piece is handed out whole. -/
theorem Next.taken_whole (h : Next stream r k b rest) :
    Taken stream b.length r {r with off := r.off + b.length, data := r.data.popFirst} (b.bytes.take b.length) ∧
      r.data.popFirst.entries = rest := by
  obtain ⟨hlength, hbytes⟩ := h.bytes_eq (Nat.le_refl b.length)
  have hpop : r.data.popFirst.entries = rest := by
    show r.data.entries.tail = rest
    rw [h.entries]
    rfl
  have hm : r.data.popFirst.entries = [] ++ rest := hpop
  refine ⟨⟨h.sound_advance (Nat.le_refl _) (.inl rfl) hm, ?_, hlength.le, ?_, ⟨rfl, rfl, rfl, rfl, rfl⟩,
    fun x hx => h.has_advance (Nat.le_refl _) (.inl rfl) hm hx, .inl hlength⟩, hpop⟩
  · rw [hlength]
    exact hbytes
  · rw [hlength]

end Next

/-- The loop hands out what comes next, as far as the room and the pieces go. -/
theorem take_spec (cap : Nat) {entries : Nat} (out : List UInt8) (h : Sound stream r)
    (hentries : r.data.len ≤ entries) :
    ∃ got, (take entries cap r out).2 = out ++ got ∧ Taken stream cap r (take entries cap r out).1 got := by
  induction entries generalizing r cap out with
  | zero =>
    have hnone : r.data.entries = [] := List.length_eq_zero_iff.mp (Nat.le_zero.mp hentries)
    refine ⟨[], (List.append_nil out).symm, .nothing h (.inr ?_)⟩
    rw [ready, BTreeMap.first, hnone]
    rfl
  | succ entries ih =>
    rw [take]
    by_cases hgo : cap > 0 ∧ r.ready = true
    swap
    · rw [if_neg hgo]
      refine ⟨[], (List.append_nil out).symm, .nothing h ?_⟩
      rw [not_and, Bool.not_eq_true] at hgo
      by_cases hcap : cap = 0
      · exact .inl hcap
      · exact .inr (hgo (Nat.pos_of_ne_zero hcap))
    rw [if_pos hgo]
    cases hdata : r.data.entries with
    | nil =>
      have := hgo.2
      rw [ready, BTreeMap.first, hdata] at this
      cases this
    | cons entry rest =>
      obtain ⟨k, b⟩ := entry
      have hnext : Next stream r k b rest := ⟨h, hdata, (ready_cons hdata).mp hgo.2⟩
      have hfirst : r.data.first = some (k, b) := by
        rw [BTreeMap.first, hdata]
        rfl
      rw [hfirst]
      dsimp only
      by_cases hpart : min b.length cap < b.length
      · rw [if_pos hpart, show min b.length cap = cap by omega]
        exact ⟨_, rfl, hnext.taken_part (by omega)⟩
      · rw [if_neg hpart, show min b.length cap = b.length by omega]
        obtain ⟨hwhole, hpop⟩ := hnext.taken_whole
        have hfewer : r.data.popFirst.len ≤ entries := by
          rw [BTreeMap.len, hpop]
          rw [BTreeMap.len, hdata, List.length_cons] at hentries
          omega
        obtain ⟨got, hout, htaken⟩ := ih (cap - b.length) (out ++ b.bytes.take b.length) hwhole.sound hfewer
        have hlength := (hnext.bytes_eq (Nat.le_refl b.length)).1
        exact ⟨_, hout.trans (List.append_assoc ..), hwhole.trans hlength (by omega) htaken⟩

end Aether.Quic.RecvBuf
