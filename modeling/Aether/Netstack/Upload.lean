import Aether.Netstack.Connections

/-! What the app sends on a connection arrives at its socket in order.

The app's bytes go through the channel, perhaps through `deferred`, into the
connection's `pending` buffer and from there to the socket. Whatever the order in
which the task handles messages, retries what it deferred and serves connections,
the bytes accepted, pending and on their way are the bytes sent (`conserved`): the
items handled so far and those in flight are always the two halves of what was
sent, cut at one place. -/
namespace Aether.Netstack

/-! ### Items in flight -/

def bytesOf (items : List Item) : List UInt8 :=
  items.filterMap fun
    | .byte b => some b
    | .close => none

/-- What these messages hold of connection `id`. -/
def itemsIn (id : Nat) (ds : List DataIn) : List Item := ds.flatMap (DataIn.items id)

/-- The messages of connection `id` that are not handled yet. -/
def inFlight (id : Nat) (s : State) : List Item := itemsIn id s.deferred ++ itemsIn id s.dataIn

@[simp] theorem bytesOf_append (xs ys : List Item) : bytesOf (xs ++ ys) = bytesOf xs ++ bytesOf ys :=
  List.filterMap_append

@[simp] theorem bytesOf_bytes (data : List UInt8) : bytesOf (data.map .byte) = data := by
  induction data with
  | nil => rfl
  | cons b rest ih =>
    rw [List.map_cons]
    exact congrArg (b :: ·) ih

@[simp] theorem itemsIn_append (id : Nat) (ds es : List DataIn) :
    itemsIn id (ds ++ es) = itemsIn id ds ++ itemsIn id es := List.flatMap_append

@[simp] theorem itemsIn_cons (id : Nat) (d : DataIn) (ds : List DataIn) :
    itemsIn id (d :: ds) = d.items id ++ itemsIn id ds := List.flatMap_cons

@[simp] theorem itemsIn_nil (id : Nat) : itemsIn id [] = [] := rfl

/-! ### What is to be shown -/

/-- The bytes of a connection and the closing of its sending half. -/
structure Conserved (s : State) (id : Nat) (st : TcpState) (k : TcpSocket) : Prop where
  bytes : k.accepted ++ st.pending ++ bytesOf (itemsIn id s.deferred) ++ bytesOf (itemsIn id s.dataIn) =
    bytesOf (s.sent id)
  bounded : st.pending.length ≤ maxTcpPending s.tier
  single : s.deferred.length ≤ 1
  /-- Every byte sent before the first close is accepted or pending. -/
  closedAfter : st.halfClosed = true → ∃ before after, s.sent id = before ++ .close :: after ∧
    .close ∉ before ∧ bytesOf before <+: k.accepted ++ st.pending

/-- What was sent is what was handled, then what is in flight. -/
def Flow (s : State) (id : Nat) (st : TcpState) (k : TcpSocket) : Prop :=
  ∃ handled, s.sent id = handled ++ inFlight id s ∧ bytesOf handled = k.accepted ++ st.pending ∧
    (st.halfClosed = true → .close ∈ handled)

structure Invariant (s : State) : Prop where
  tables : Tables s
  single : s.deferred.length ≤ 1
  bounded : ∀ id st, s.tcpConns id = some st → st.pending.length ≤ maxTcpPending s.tier
  flow : ∀ id st k, s.tcpConns id = some st → tcpSocket s st.handle = some k → Flow s id st k
  /-- An id that was not given out is unknown to the app. -/
  quiet : ∀ id, s.nextId ≤ id → s.sent id = [] ∧ inFlight id s = [] ∧ (s.tcpApp id).sender = false

theorem Invariant.accounts {s : State} (h : Invariant s) {id : Nat} {st : TcpState}
    (hst : s.tcpConns id = some st) : ∃ k, tcpSocket s st.handle = some k ∧ Conserved s id st k := by
  obtain ⟨k, hk⟩ := h.tables.socket hst
  obtain ⟨handled, hsent, hbytes, hclose⟩ := h.flow id st k hst hk
  refine ⟨k, hk, ?_, h.bounded id st hst, h.single, fun hhalf => ?_⟩
  · rw [hsent, inFlight, bytesOf_append, bytesOf_append, hbytes, List.append_assoc _ (bytesOf _)]
  · obtain ⟨before, after, hsplit, hfirst⟩ := List.eq_append_cons_of_mem (hclose hhalf)
    refine ⟨before, after ++ inFlight id s, by rw [hsent, hsplit]; simp, hfirst, ?_⟩
    rw [← hbytes, hsplit, bytesOf_append]
    exact List.prefix_append ..

/-! ### What the app has sent more -/

/-- The app may have sent more, on connections with ids below `n`. -/
structure Extended (n : Nat) (s t : State) : Prop where
  tier : t.tier = s.tier
  deferred : t.deferred = s.deferred
  items : ∀ id, ∃ more, t.sent id = s.sent id ++ more ∧ itemsIn id t.dataIn = itemsIn id s.dataIn ++ more ∧
    (n ≤ id → more = [])
  sender : ∀ id, n ≤ id → (s.tcpApp id).sender = false → (t.tcpApp id).sender = false

theorem Extended.refl {n : Nat} {s t : State} (htier : t.tier = s.tier) (hdeferred : t.deferred = s.deferred)
    (hsent : t.sent = s.sent) (hdata : t.dataIn = s.dataIn) (happ : t.tcpApp = s.tcpApp) : Extended n s t :=
  ⟨htier, hdeferred, fun id => ⟨[], by rw [hsent]; simp, by rw [hdata]; simp, fun _ => rfl⟩,
    fun id _ h => by rw [happ]; exact h⟩

theorem Extended.trans {n : Nat} {s t u : State} (h : Extended n s t) (h' : Extended n t u) : Extended n s u := by
  refine ⟨h'.tier.trans h.tier, h'.deferred.trans h.deferred, fun id => ?_, fun id hn hs => ?_⟩
  · obtain ⟨more, hsent, hdata, hnew⟩ := h.items id
    obtain ⟨more', hsent', hdata', hnew'⟩ := h'.items id
    refine ⟨more ++ more', ?_, ?_, fun hn => ?_⟩
    · rw [hsent', hsent, List.append_assoc]
    · rw [hdata', hdata, List.append_assoc]
    · rw [hnew hn, hnew' hn, List.append_nil]
  · exact h'.sender id hn (h.sender id hn hs)

theorem extended_trySend {n : Nat} {d : DataIn} {s : State} (hd : ∀ id, n ≤ id → d.items id = []) :
    Extended n s (trySend d s) := by
  unfold trySend
  split
  · refine ⟨rfl, rfl, fun id => ⟨d.items id, rfl, by simp, hd id⟩, fun _ _ h => h⟩
  · exact .refl rfl rfl rfl rfl rfl

/-- A message of a connection says nothing of the others. -/
theorem DataIn.items_ne {id j : Nat} (h : j ≠ id) (data : List UInt8) :
    DataIn.items j (.tcp id data) = [] ∧ DataIn.items j (.tcpClose id) = [] := by
  simp [DataIn.items, Ne.symm h]

/-- One who has a sender has it for a connection with an id below `n`. -/
def SenderGiven (n : Nat) (s : State) : Prop := ∀ id, n ≤ id → (s.tcpApp id).sender = false

theorem SenderGiven.lt {n : Nat} {s : State} (h : SenderGiven n s) {id : Nat}
    (hs : (s.tcpApp id).sender = true) : id < n := by
  by_contra hn
  rw [h id (Nat.not_lt.mp hn)] at hs
  cases hs

theorem SenderGiven.extended {n : Nat} {s t : State} (h : SenderGiven n s) (he : Extended n s t) :
    SenderGiven n t := fun id hn => he.sender id hn (h id hn)

theorem extended_setTcpApp {n : Nat} {s : State} (id : Nat) (a : AppSide) (ha : a.sender = true → id < n) :
    Extended n s (setTcpApp id a s) := by
  refine ⟨rfl, rfl, fun j => ⟨[], by simp [setTcpApp], by simp [setTcpApp], fun _ => rfl⟩, fun j hn hs => ?_⟩
  by_cases hj : j = id
  · subst hj
    simp only [setTcpApp, Function.update_self]
    cases hsender : a.sender with
    | false => rfl
    | true => exact absurd (ha hsender) (Nat.not_lt.mpr hn)
  · simpa [setTcpApp, hj] using hs

theorem extended_dropTcpSender {n : Nat} {s : State} (h : SenderGiven n s) (id : Nat) :
    Extended n s (dropTcpSender id s) := by
  unfold dropTcpSender
  split
  · rename_i hs
    refine (extended_setTcpApp id _ (by simp)).trans (extended_trySend fun j hj => ?_)
    exact (DataIn.items_ne (Nat.ne_of_gt (Nat.lt_of_lt_of_le (h.lt hs) hj)) []).2
  · exact .refl rfl rfl rfl rfl rfl

theorem extended_dropTcpReceiver {n : Nat} {s : State} (h : SenderGiven n s) (id : Nat) :
    Extended n s (dropTcpReceiver id s) := by
  unfold dropTcpReceiver
  split
  · have hext := extended_setTcpApp (s := s) id {s.tcpApp id with receiver := false} (fun hs => h.lt hs)
    exact ⟨hext.tier, hext.deferred, hext.items, hext.sender⟩
  · exact .refl rfl rfl rfl rfl rfl

theorem extended_dropTcpConn {n : Nat} {s : State} (h : SenderGiven n s) (id : Nat) :
    Extended n s (dropTcpConn id s) := by
  have hsender := extended_dropTcpSender h id
  exact hsender.trans (extended_dropTcpReceiver (h.extended hsender) id)

theorem extended_sendWith {n : Nat} {s : State} (sender : Bool) {d : DataIn}
    (hd : sender = true → ∀ id, n ≤ id → d.items id = []) : Extended n s (sendWith sender d s) := by
  unfold sendWith
  split
  · rename_i hs
    exact extended_trySend (hd hs)
  · exact .refl rfl rfl rfl rfl rfl

theorem extended_dropUdpSender (n id : Nat) (s : State) : Extended n s (dropUdpSender id s) := by
  unfold dropUdpSender
  split
  · have happ : Extended n s (setUdpApp id {s.udpApp id with sender := false} s) := .refl rfl rfl rfl rfl rfl
    exact happ.trans (extended_trySend fun _ _ => rfl)
  · exact .refl rfl rfl rfl rfl rfl

theorem extended_dropUdpReceiver (n id : Nat) (s : State) : Extended n s (dropUdpReceiver id s) := by
  unfold dropUdpReceiver
  split <;> exact .refl rfl rfl rfl rfl rfl

theorem extended_handOver {s : State} (h : Tables s) (hs : SenderGiven s.nextId s) (id : Nat) (waiting : Bool) :
    Extended s.nextId s (handOver id waiting s) := by
  unfold handOver
  split
  · exact .refl rfl rfl rfl rfl rfl
  · rename_i st hst
    split
    · exact .refl rfl rfl rfl rfl rfl
    · split
      · have hset : Extended s.nextId s (setTcp id {st with established := true} s) := .refl rfl rfl rfl rfl rfl
        have hgiven := hset.trans (extended_setTcpApp id ⟨true, true⟩ fun _ => h.lt_nextId hst)
        dsimp only
        split
        · exact hgiven
        · exact hgiven.trans (extended_dropTcpConn (hs.extended hgiven) id)
      · exact .refl rfl rfl rfl rfl rfl

theorem AppKept.extended {n : Nat} {s t : State} (h : AppKept s t) : Extended n s t :=
  .refl h.tier h.deferred h.sent h.dataIn h.tcpApp

theorem extended_serve (m id n : Nat) (s : State) : Extended m s (serve id n s) := by
  have hkept := serve_kept id n s
  exact .refl hkept.tier hkept.deferred hkept.sent hkept.dataIn hkept.tcpApp

theorem extended_openUdp (m n : Nat) (binds waiting : Bool) (s : State) :
    Extended m s (openUdp n binds waiting s) := by
  unfold openUdp
  split
  · exact .refl rfl rfl rfl rfl rfl
  · have hadd : Extended m s (addUdp n s.nextPort {s with nextPort := allocPort s.nextPort}) :=
      .refl rfl rfl rfl rfl rfl
    dsimp only
    split
    · exact .refl rfl rfl rfl rfl rfl
    · split
      · exact hadd
      · exact hadd.trans ((extended_dropUdpSender m _ _).trans (extended_dropUdpReceiver m _ _))

/-- Every step but those that handle messages. -/
theorem extended_next {s : State} (h : Tables s) (hs : SenderGiven s.nextId s) {x : Action}
    (hx : x.handles = false) : Extended s.nextId s (next x s) := by
  have hother {id j : Nat} (hsender : (s.tcpApp id).sender = true) (hj : s.nextId ≤ j) : j ≠ id :=
    Nat.ne_of_gt (Nat.lt_of_lt_of_le (hs.lt hsender) hj)
  cases x with
  | openUdp n binds waiting => exact extended_openUdp s.nextId n binds waiting s
  | serviceTcp id n waiting =>
    have hmark : Extended s.nextId (handOver id waiting s) (markServed id (handOver id waiting s)) :=
      .refl rfl rfl rfl rfl rfl
    exact (extended_handOver h hs id waiting).trans (hmark.trans (extended_serve _ id n _))
  | retryDeferred => cases hx
  | receive => cases hx
  | send id data => exact extended_sendWith _ fun hs j hj => (DataIn.items_ne (hother hs hj) data).1
  | close id => exact extended_sendWith _ fun hs j hj => (DataIn.items_ne (hother hs hj) []).2
  | sendTo id dst data => exact extended_sendWith _ fun _ _ _ => rfl
  | closeUdp id => exact extended_sendWith _ fun _ _ _ => rfl
  | dropTcpSender id => exact extended_dropTcpSender hs id
  | dropTcpReceiver id => exact extended_dropTcpReceiver hs id
  | dropUdpSender id => exact extended_dropUdpSender s.nextId id s
  | dropUdpReceiver id => exact extended_dropUdpReceiver s.nextId id s
  | _ => exact (ofStack_kept rfl s).extended

/-! ### Steps that handle no message -/

theorem handedOver_kept (st : TcpState) (k : TcpSocket) :
    (st.handedOver k).pending = st.pending ∧ (st.handedOver k).halfClosed = st.halfClosed := by
  unfold TcpState.handedOver
  split <;> exact ⟨rfl, rfl⟩

/-- A connection keeps its bytes, in the socket or pending. -/
theorem Change.kept {x : Action} {s : State} {id : Nat} {st st' : TcpState} {k k' : TcpSocket}
    (h : Change x s id st k st' k') (hx : x.handles = false) :
    k'.accepted ++ st'.pending = k.accepted ++ st.pending ∧ st'.halfClosed = st.halfClosed ∧
      st'.pending.length ≤ st.pending.length := by
  cases h with
  | same | polled | read => exact ⟨rfl, rfl, Nat.le_refl _⟩
  | message hm =>
    rw [hx] at hm
    cases hm
  | @served n waiting hserves gone hgone hover hstays =>
    obtain ⟨hpending, hhalf⟩ := handedOver_kept st k
    have hframe := Pass.run_frame (p := {st := st.handedOver k, socket := k}) hover hstays
    refine ⟨?_, ?_, ?_⟩
    · rw [hframe.accepted, hframe.pending, Pass.upload_bytes, hpending]
    · rw [hframe.halfClosed, (Pass.upload_kept n _).1, hhalf]
    · rw [hframe.pending, ← hpending]
      exact Pass.upload_length n _

theorem Invariant.quietStep {s : State} (h : Invariant s) {x : Action} (hx : x.handles = false) :
    Invariant (next x s) := by
  have ht := tables_next x s h.tables
  have hid : s.nextId ≤ (next x s).nextId := (layout_next x s).nextId_le
  have he := extended_next h.tables (fun id hn => (h.quiet id hn).2.2) hx
  refine ⟨ht, by rw [he.deferred]; exact h.single, ?_, ?_, ?_⟩
  · intro id st' hst'
    obtain ⟨k', hk'⟩ := ht.socket hst'
    rw [he.tier]
    rcases live_next h.tables ⟨hst', hk'⟩ with ⟨-, n, port, rfl, -⟩ | ⟨st, k, hl, hc⟩
    · exact Nat.zero_le _
    · exact (hc.kept hx).2.2.trans (h.bounded id st hl.1)
  · intro id st' k' hst' hk'
    obtain ⟨more, hmore, hdata, hnew⟩ := he.items id
    have hflight : inFlight id (next x s) = inFlight id s ++ more := by
      rw [inFlight, inFlight, he.deferred, hdata, List.append_assoc]
    rcases live_next h.tables ⟨hst', hk'⟩ with ⟨hnext, n, port, rfl, rfl⟩ | ⟨st, k, hl, hc⟩
    · obtain ⟨hsent, hnone, -⟩ := h.quiet id (Nat.le_of_eq hnext.symm)
      refine ⟨[], ?_, rfl, nofun⟩
      rw [hmore, hsent, hflight, hnone]
      rfl
    · obtain ⟨hbytes, hhalf, -⟩ := hc.kept hx
      obtain ⟨handled, hsent, hhandled, hclose⟩ := h.flow id st k hl.1 hl.2
      refine ⟨handled, ?_, hhandled.trans hbytes.symm, fun hc => hclose (hhalf ▸ hc)⟩
      rw [hmore, hsent, hflight, List.append_assoc]
  · intro id hn
    have hn' := Nat.le_trans hid hn
    obtain ⟨hsent, hflight, hsender⟩ := h.quiet id hn'
    obtain ⟨more, hmore, hdata, hnew⟩ := he.items id
    rw [hnew hn', List.append_nil] at hmore hdata
    exact ⟨hmore.trans hsent, by rw [inFlight, he.deferred, hdata]; exact hflight, he.sender id hn' hsender⟩

/-! ### Messages -/

/-- The items of a message that are handled now, of connection `id`. -/
structure Handles (s : State) (d : DataIn) (back : List DataIn) (id : Nat) (st' : TcpState)
    (k' : TcpSocket) : Prop where
  step : ∃ st items, s.tcpConns id = some st ∧ tcpSocket s st.handle = some k' ∧
    d.items id = items ++ itemsIn id back ∧ st'.pending = st.pending ++ bytesOf items ∧
    (st'.halfClosed = true → st.halfClosed = true ∨ .close ∈ items)
  bounded : (∀ st, s.tcpConns id = some st → st.pending.length ≤ maxTcpPending s.tier) →
    st'.pending.length ≤ maxTcpPending s.tier

/-- The connection is not the one the message is for, or the message comes back whole. -/
theorem Handles.same {s : State} {d : DataIn} {back : List DataIn} {id : Nat} {st : TcpState}
    {k : TcpSocket} (hst : s.tcpConns id = some st) (hk : tcpSocket s st.handle = some k)
    (hd : d.items id = itemsIn id back) : Handles s d back id st k :=
  ⟨⟨st, [], hst, hk, hd, by simp [bytesOf], .inl⟩, fun h => h st hst⟩

/-- The entry of the message's connection changes. -/
theorem Handles.set {s : State} {d : DataIn} {back : List DataIn} {j : Nat} {st : TcpState} (new : TcpState)
    (items : List Item) (hst : s.tcpConns j = some st) (hh : new.handle = st.handle)
    (hown : d.items j = items ++ itemsIn j back) (hother : ∀ id, id ≠ j → d.items id = itemsIn id back)
    (hpending : new.pending = st.pending ++ bytesOf items)
    (hhalf : new.halfClosed = true → st.halfClosed = true ∨ .close ∈ items)
    (hbound : st.pending.length ≤ maxTcpPending s.tier → new.pending.length ≤ maxTcpPending s.tier)
    {id : Nat} {st' : TcpState} {k' : TcpSocket} (hst' : (setTcp j new s).tcpConns id = some st')
    (hk' : tcpSocket (setTcp j new s) st'.handle = some k') :
    Handles s d back id st' k' := by
  by_cases hj : id = j
  · subst hj
    obtain rfl : new = st' := by simpa [setTcp] using hst'
    have hk : tcpSocket s st.handle = some k' := by rw [← hh]; exact hk'
    exact ⟨⟨st, items, hst, hk, hown, hpending, hhalf⟩, fun h => hbound (h st hst)⟩
  · have hsame : s.tcpConns id = some st' := by simpa [setTcp, hj] using hst'
    exact .same hsame hk' (hother id hj)

/-- What handling a message does to the connections: its items, but for those that come
back, are appended to what the connection has. -/
theorem tryHandleData_handles {s : State} (d : DataIn) {id : Nat} {st' : TcpState}
    {k' : TcpSocket} (hst' : (tryHandleData d s).1.tcpConns id = some st')
    (hk' : tcpSocket (tryHandleData d s).1 st'.handle = some k') :
    Handles s d (tryHandleData d s).2.toList id st' k' := by
  revert hst' hk'
  cases d with
  | tcp j data =>
    have hother {back : List UInt8} (i : Nat) (hi : i ≠ j) :
        DataIn.items i (.tcp j data) = itemsIn i [.tcp j back] := by
      simp [(DataIn.items_ne hi data).1, (DataIn.items_ne hi back).1]
    unfold tryHandleData
    dsimp only
    split
    · rename_i hj
      intro hst' hk'
      have hi : id ≠ j := fun he => by rw [he, hj] at hst'; cases hst'
      exact .same hst' hk' (DataIn.items_ne hi data).1
    · rename_i st hst
      split
      · intro hst' hk'
        exact .same hst' hk' (by simp)
      · rename_i hroom
        split
        · rename_i hfits
          intro hst' hk'
          refine .set {st with pending := st.pending ++ data} (data.map .byte) hst rfl ?_ ?_
            (by simp) .inl ?_ hst' hk'
          · simp [DataIn.items]
          · exact fun i hi => (DataIn.items_ne hi data).1
          · intro _
            simp only [List.length_append]
            omega
        · rename_i hfits
          intro hst' hk'
          refine .set {st with pending := st.pending ++ data.take (maxTcpPending s.tier - st.pending.length)}
            ((data.take _).map .byte) hst rfl ?_ hother (by rw [bytesOf_bytes]) .inl ?_ hst' hk'
          · simp [DataIn.items]
          · intro _
            simp only [List.length_append, List.length_take]
            omega
  | tcpClose j =>
    unfold tryHandleData
    dsimp only
    split
    · rename_i hj
      intro hst' hk'
      have hi : id ≠ j := fun he => by rw [he, hj] at hst'; cases hst'
      exact .same hst' hk' (DataIn.items_ne hi []).2
    · rename_i st hst
      intro hst' hk'
      refine .set {st with halfClosed := true} [.close] hst rfl ?_ ?_ ?_ ?_ ?_ hst' hk'
      · simp [DataIn.items]
      · exact fun i hi => (DataIn.items_ne hi []).2
      · simp [bytesOf]
      · exact fun _ => .inr (List.mem_singleton.mpr rfl)
      · exact fun h => h
  | udp j dst data => exact fun hst' hk' => .same hst' hk' rfl
  | udpClose j =>
    unfold tryHandleData
    dsimp only
    split
    · exact fun hst' hk' => .same hst' hk' rfl
    · rename_i st hst
      intro hst' hk'
      have hk : tcpSocket s st'.handle = some k' := by
        rw [tcpSocket_eq_some] at hk' ⊢
        by_cases hh : st'.handle = st.handle
        · simp [hh] at hk'
        · simpa [hh] using hk'
      exact .same hst' hk rfl

/-- What comes back is of the message's connection. -/
theorem tryHandleData_new {s : State} (d : DataIn) {id : Nat} (h : d.items id = []) :
    itemsIn id (tryHandleData d s).2.toList = [] := by
  cases d with
  | tcp j data =>
    have hj : j = id → data = [] := by
      intro hj
      simpa [DataIn.items, hj] using h
    unfold tryHandleData
    dsimp only
    split
    · rfl
    · split
      · simpa using h
      · split
        · rfl
        · simp only [Option.toList_some, itemsIn_cons, itemsIn_nil, List.append_nil, DataIn.items]
          split
          · rename_i he
            simp [hj he]
          · rfl
  | tcpClose j =>
    unfold tryHandleData
    dsimp only
    split <;> rfl
  | udp j dst data => rfl
  | udpClose j =>
    unfold tryHandleData
    dsimp only
    split <;> rfl

/-- A step that takes message `d`, the first one in flight, and puts back what comes back
of it. -/
structure Took (s t : State) (d : DataIn) (back : List DataIn) : Prop where
  tier : t.tier = s.tier
  sent : t.sent = s.sent
  tcpApp : t.tcpApp = s.tcpApp
  nextId : s.nextId ≤ t.nextId
  single : t.deferred.length ≤ 1
  flight : ∀ id, ∃ rest, inFlight id s = d.items id ++ rest ∧ inFlight id t = itemsIn id back ++ rest
  handles : ∀ id st' k', t.tcpConns id = some st' → tcpSocket t st'.handle = some k' →
    Handles s d back id st' k'
  none : ∀ id, d.items id = [] → itemsIn id back = []

theorem Invariant.took {s t : State} {d : DataIn} {back : List DataIn} (h : Invariant s) (ht : Tables t)
    (hd : Took s t d back) : Invariant t := by
  refine ⟨ht, hd.single, ?_, ?_, ?_⟩
  · intro id st' hst'
    obtain ⟨k', hk'⟩ := ht.socket hst'
    rw [hd.tier]
    exact (hd.handles id st' k' hst' hk').bounded (h.bounded id)
  · intro id st' k' hst' hk'
    obtain ⟨st, items, hst, hk, hitems, hpending, hhalf⟩ := (hd.handles id st' k' hst' hk').step
    obtain ⟨handled, hsent, hbytes, hclose⟩ := h.flow id st k' hst hk
    obtain ⟨rest, hbefore, hafter⟩ := hd.flight id
    refine ⟨handled ++ items, ?_, ?_, fun hc => ?_⟩
    · rw [hd.sent, hsent, hbefore, hafter, hitems]
      simp only [List.append_assoc]
    · rw [bytesOf_append, hbytes, hpending, List.append_assoc]
    · rcases hhalf hc with hold | hnew
      · exact List.mem_append_left _ (hclose hold)
      · exact List.mem_append_right _ hnew
  · intro id hn
    obtain ⟨hsent, hflight, hsender⟩ := h.quiet id (Nat.le_trans hd.nextId hn)
    obtain ⟨rest, hbefore, hafter⟩ := hd.flight id
    rw [hbefore, List.append_eq_nil_iff] at hflight
    refine ⟨by rw [hd.sent]; exact hsent, ?_, by rw [hd.tcpApp]; exact hsender⟩
    rw [hafter, hd.none id hflight.1, hflight.2, List.append_nil]

theorem retryDeferred_took {s : State} (h : s.deferred.length ≤ 1) {d : DataIn} {rest : List DataIn}
    (hd : s.deferred = d :: rest) :
    Took s (retryDeferred s) d (tryHandleData d {s with deferred := rest}).2.toList := by
  have hkept := tryHandleData_kept d {s with deferred := rest}
  obtain rfl : rest = [] := by
    rw [hd, List.length_cons] at h
    exact List.eq_nil_of_length_eq_zero (by omega)
  have ht : retryDeferred s = {(tryHandleData d {s with deferred := []}).1 with
      deferred := (tryHandleData d {s with deferred := []}).2.toList ++
        (tryHandleData d {s with deferred := []}).1.deferred} := by
    rw [retryDeferred, hd]
  have hid : s.nextId ≤ (retryDeferred s).nextId := (Layout.retryDeferred s).nextId_le
  rw [ht] at hid ⊢
  refine ⟨hkept.tier, hkept.sent, hkept.tcpApp, hid, ?_,
    fun id => ⟨itemsIn id s.dataIn, ?_, ?_⟩, ?_, fun id => tryHandleData_new d⟩
  · rw [hkept.deferred]
    cases (tryHandleData d {s with deferred := []}).2 <;> simp
  · simp [inFlight, hd]
  · simp [inFlight, hkept.deferred, hkept.dataIn]
  · intro id st' k' hst' hk'
    have hh := tryHandleData_handles d hst' hk'
    exact ⟨hh.step, hh.bounded⟩

theorem receive_took {s : State} (h : s.deferred = []) {d : DataIn} {rest : List DataIn}
    (hd : s.dataIn = d :: rest) :
    Took s (receive s) d (tryHandleData d {s with dataIn := rest}).2.toList := by
  have hkept := tryHandleData_kept d {s with dataIn := rest}
  have ht : receive s = {(tryHandleData d {s with dataIn := rest}).1 with
      deferred := (tryHandleData d {s with dataIn := rest}).1.deferred ++
        (tryHandleData d {s with dataIn := rest}).2.toList} := by
    rw [receive, h, hd]
    rfl
  have hid : s.nextId ≤ (receive s).nextId := (Layout.receive s).nextId_le
  rw [ht] at hid ⊢
  refine ⟨hkept.tier, hkept.sent, hkept.tcpApp, hid, ?_,
    fun id => ⟨itemsIn id rest, ?_, ?_⟩, ?_, fun id => tryHandleData_new d⟩
  · rw [hkept.deferred]
    cases (tryHandleData d {s with dataIn := rest}).2 <;> simp [h]
  · simp [inFlight, h, hd]
  · rw [inFlight, hkept.deferred, hkept.dataIn]
    simp [h]
  · intro id st' k' hst' hk'
    have hh := tryHandleData_handles d hst' hk'
    exact ⟨hh.step, hh.bounded⟩

/-! ### Whole runs -/

theorem invariant_next (x : Action) (s : State) (h : Invariant s) : Invariant (next x s) := by
  have ht := tables_next x s h.tables
  cases x with
  | retryDeferred =>
    cases hd : s.deferred with
    | nil =>
      have hsame : next .retryDeferred s = s := by simp [next, retryDeferred, hd]
      rw [hsame]
      exact h
    | cons d rest => exact h.took ht (retryDeferred_took h.single hd)
  | receive =>
    cases hdeferred : s.deferred with
    | cons d rest =>
      have hsame : next .receive s = s := by simp [next, receive, hdeferred]
      rw [hsame]
      exact h
    | nil =>
      cases hd : s.dataIn with
      | nil =>
        have hsame : next .receive s = s := by simp [next, receive, hdeferred, hd]
        rw [hsame]
        exact h
      | cons d rest => exact h.took ht (receive_took hdeferred hd)
  | _ => exact h.quietStep rfl

theorem invariant_initial (tier : Tier) : Invariant (initial tier) := by
  refine ⟨tables_initial tier, Nat.zero_le _, ?_, ?_, fun id _ => ⟨rfl, rfl, rfl⟩⟩
  · intro id st hst
    cases hst
  · intro id st k hst
    cases hst

/-- **Nothing the app sends on a live connection is lost, doubled or reordered**: in every
state of every run, what its socket accepted, what is pending, the deferred remainder and
the chunks in the channel are, in this order, the bytes sent; the buffers keep their
bounds, and the sending half is closed only after the bytes sent before. -/
theorem conserved (tier : Tier) (as : List Action) (s : State)
    (hs : s ∈ Machine.visited next (initial tier) as) (id : Nat) (st : TcpState)
    (hst : s.tcpConns id = some st) : ∃ k, tcpSocket s st.handle = some k ∧ Conserved s id st k :=
  (Machine.visited_invariant invariant_next (invariant_initial tier) as s hs).accounts hst

/-- A connection is opened, three bytes are sent in two chunks and then closed; the first
chunk is received and one byte of it accepted. -/
def threeBytes : State :=
  Machine.run next (initial .low) [.openTcp 0 true, .pollTcp 0 .established [], .serviceTcp 1 0 true,
    .send 1 [65, 66], .send 1 [67], .close 1, .receive, .serviceTcp 1 1 true]

theorem conserved_threeBytes :
    ∃ k, tcpSocket threeBytes 0 = some k ∧ k.accepted = [65] ∧
      threeBytes.sent 1 = [.byte 65, .byte 66, .byte 67, .close] ∧
      Conserved threeBytes 1 { handle := 0, pending := [66], established := true } k := by
  obtain ⟨k, hk, hc⟩ := conserved .low _ threeBytes (Machine.run_visited ..) 1
    { handle := 0, pending := [66], established := true } rfl
  refine ⟨k, hk, ?_, rfl, hc⟩
  have hsocket : tcpSocket threeBytes 0 = some { state := .established, localPort := 49152, accepted := [65] } := rfl
  rw [hsocket] at hk
  cases hk
  rfl

end Aether.Netstack
