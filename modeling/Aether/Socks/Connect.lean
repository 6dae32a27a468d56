import Aether.Socks.Gateway
import Aether.Streams.Flow
import Aether.Machine.Run

/-! `CONNECT` from the decision to the relay.

`handle_connect` replies early when it wants to read a name from the first bytes, routes,
opens an upstream and relays. The order of the writes differs by path: through the tunnel
it replies, sends the first bytes on, writes what followed the gateway's head, and relays;
`handle_direct` sends the first bytes on before it replies. One await is one `Event`.

The session keeps two flows, what the client sent and what the upstream sent, beside the
raw bytes of the upstream's connection and the list of writes to the client. Over every
run both flows lose, repeat and reorder nothing, and the client's stream is what followed
the gateway's head (`relays_transparently`). A failure to open the destination is answered
whether or not the early reply was sent, so the client hears two replies exactly if that
happens (`oneReply_iff`). -/
namespace Aether.Socks.Connect
open Machine Routing Streams
open Rust (SocketAddr)

variable {X : Externs}

/-! ### The session -/

/-- `REP_OK` -/
def repOk : UInt8 := 0
/-- `REP_GENERAL` -/
def repGeneral : UInt8 := 1
/-- `REP_NOT_ALLOWED` -/
def repNotAllowed : UInt8 := 2

/-- A write to the client: `reply` or `reply_bound` to `0.0.0.0:0`, or data. -/
inductive Write where
  | reply (code : UInt8)
  | data (bytes : Bytes)
  deriving DecidableEq, Repr

def Write.bytes : Write → Bytes
  | .reply code => [5, code, 0, 1, 0, 0, 0, 0, 0, 0]
  | .data bytes => bytes

def Write.isReply : Write → Bool
  | .reply _ => true
  | .data _ => false

/-- The bytes written after the first success reply. -/
def afterReply : List Write → Bytes
  | [] => []
  | .reply code :: rest => if code = repOk then rest.flatMap Write.bytes else afterReply rest
  | .data _ :: rest => afterReply rest

/-- What a request is served with; `gatewayProxy` is what `gateway_proxy()` returns when
the destination is opened. -/
structure Setup (X : Externs) where
  routes : RuleSet X
  sniffing : Bool := true
  target : Target
  port : UInt16
  gatewayProxy : Option SocketAddr := none

/-- A first flight is read before the decision. -/
def Setup.sniffs (setup : Setup X) : Bool :=
  match setup.target with
  | .ip _ => setup.sniffing && setup.routes.hasDomainRules
  | .domain _ => false

inductive Phase where
  | start
  | sniffing
  /-- `handle_direct` connects. -/
  | connecting
  | opening (o : Opening)
  /-- The success reply, unless it was sent. -/
  | greeting
  /-- The first flight goes to the upstream. -/
  | sending
  /-- What followed the gateway's head goes to the client. -/
  | returning
  | relaying
  | done
  deriving DecidableEq, Repr

structure Session where
  phase : Phase := .start
  /-- The local variable of that name: the early reply was sent. -/
  replied : Bool := false
  opened : Bool := false
  /-- The upstream is a socket of `handle_direct`. -/
  direct : Bool := false
  viaGateway : Bool := false
  /-- The client's bytes; the first flight is held until the upstream is open. -/
  up : Flow UInt8 := {}
  /-- The destination's bytes; what followed the gateway's head is held at first. -/
  down : Flow UInt8 := {}
  /-- The copy of the client's bytes is over. -/
  upOver : Bool := false
  /-- Everything read from the connection in use. -/
  upstreamRead : Bytes := []
  writes : List Write := []

inductive Event where
  /-- The request is there; whether an early reply can be written. -/
  | started (written : Bool)
  /-- The result of `read_sniff_head`: `none` if the client is gone, nothing if the window
  passed, otherwise what the socket has. -/
  | firstFlight (read : Option Bytes)
  | connected (ok : Bool)
  | opening (event : OpeningEvent)
  | greeted (written : Bool)
  | handed (n : Nat)
  | handFailed
  | passed (n : Nat)
  | passFailed
  | fromClient (bytes : Bytes)
  | clientEnd
  | clientFailed
  | fromUpstream (bytes : Bytes)
  | upstreamEnd
  | upstreamFailed
  deriving DecidableEq, Repr

namespace Session

def finish (s : Session) : Session := {s with phase := .done}

/-- A failure reply ends the request; whether it could be written is ignored. -/
def refuse (code : UInt8) (s : Session) : Session := {s with phase := .done, writes := s.writes ++ [.reply code]}

/-- The decision on a first flight. -/
def route (setup : Setup X) (head : Bytes) (s : Session) : Session :=
  let s := {s with up := s.up.take head}
  match connectAction setup.routes setup.sniffing setup.target setup.port head with
  | .block => if s.replied then s.finish else s.refuse repNotAllowed
  | .direct => {s with phase := .connecting}
  | .proxy => {s with phase := .opening (.start setup.gatewayProxy setup.port)}

/-- The opening has moved on. A fallback starts with a new connection. -/
def settle (o : Opening) (s : Session) : Session :=
  match o with
  | .opened viaGateway leftover =>
    {s with phase := .greeting, opened := true, viaGateway, down := s.down.take leftover}
  | .failed => s.refuse repGeneral
  | .resolving => {s with phase := .opening .resolving, upstreamRead := []}
  | o => {s with phase := .opening o}

/-- The success reply, if it is due. -/
def greet (written : Bool) (s : Session) : Session :=
  let after := if s.direct then Phase.relaying else .sending
  if s.replied then {s with phase := after}
  else if written then {s with phase := after, writes := s.writes ++ [.reply repOk]}
  else s.finish

/-- Some of what is held goes to the upstream: through the tunnel the whole chunk. -/
def hand (n : Nat) (s : Session) : Session := {s with up := if s.direct then s.up.give n else s.up.flush}

/-- Some of what is held is written to the client. -/
def pass (n : Nat) (s : Session) : Session :=
  {s with down := s.down.give n, writes := s.writes ++ [.data (s.down.held.take n)]}

/-- The first flight is sent on; without one there is nothing to do. -/
def send (n : Nat) (s : Session) : Session :=
  let s := s.hand n
  if s.up.held.isEmpty then {s with phase := if s.direct then .greeting else .returning} else s

def giveBack (n : Nat) (s : Session) : Session :=
  let s := s.pass n
  if s.down.held.isEmpty then {s with phase := .relaying} else s

/-- A read of the copy loop; `tokio::io::copy` may read on while it holds something. -/
def readClient (bytes : Bytes) (s : Session) : Session :=
  if s.upOver || (!s.direct && !s.up.held.isEmpty) then s else {s with up := s.up.take bytes}

def readUpstream (bytes : Bytes) (s : Session) : Session :=
  if !s.direct && !s.down.held.isEmpty then s
  else {s with down := s.down.take bytes, upstreamRead := s.upstreamRead ++ bytes}

/-- A turn of the copy loops. -/
def relay (event : Event) (s : Session) : Session :=
  match event with
  | .fromClient bytes => s.readClient bytes
  | .handed n => if s.upOver then s else s.hand n
  | .clientEnd => if s.up.held.isEmpty then {s with upOver := true} else s
  | .clientFailed => if s.direct || s.up.held.isEmpty then {s with upOver := true} else s
  | .handFailed => {s with upOver := true}
  | .fromUpstream bytes => s.readUpstream bytes
  | .passed n => s.pass n
  | .upstreamEnd => if s.down.held.isEmpty then s.finish else s
  | .upstreamFailed => if s.direct then s.finish else s
  | .passFailed => s.finish
  | _ => s

/-- `handle_connect` and `handle_direct`. -/
def next (setup : Setup X) (event : Event) (s : Session) : Session :=
  match s.phase, event with
  | .start, .started written =>
    if setup.sniffs then
      if written then {s with phase := .sniffing, replied := true, writes := s.writes ++ [.reply repOk]}
      else s.finish
    else s.route setup []
  | .sniffing, .firstFlight none => s.finish
  | .sniffing, .firstFlight (some bytes) => s.route setup (bytes.take Sniff.peekBudget)
  | .connecting, .connected ok =>
    if ok then {s with phase := .sending, opened := true, direct := true}
    else if s.replied then s.finish else s.refuse repGeneral
  | .opening o, .opening e =>
    {s with upstreamRead := s.upstreamRead ++ o.heard e}.settle (o.next setup.target setup.port e)
  | .greeting, .greeted written => s.greet written
  | .sending, .handed n => s.send n
  | .sending, .handFailed => if s.up.held.isEmpty then s else s.finish
  | .returning, .passed n => s.giveBack n
  | .returning, .passFailed => if s.down.held.isEmpty then s else s.finish
  | .relaying, event => s.relay event
  | _, _ => s

/-- The destination's bytes, as the connection in use gave them. -/
def payload (s : Session) : Bytes := if s.viaGateway then afterHead s.upstreamRead else s.upstreamRead

end Session

/-! ### What every session keeps -/

/-- The success reply is out, in this phase, without the early one. -/
def Phase.told (direct : Bool) : Phase → Bool
  | .sending => !direct
  | .returning | .relaying => true
  | _ => false

/-- The upstream is open in this phase. -/
def Phase.open : Phase → Bool
  | .greeting | .sending | .returning | .relaying => true
  | _ => false

theorem Phase.notOpening {p : Phase} (h : p.open = true) (o : Opening) : p ≠ .opening o := by
  intro hp
  rw [hp] at h
  cases h

theorem Phase.notStart {p : Phase} (h : p.open = true) : p ≠ .start := by
  intro hp
  rw [hp] at h
  cases h

/-- Nothing was written, or the success reply and then data. -/
def Said (writes : List Write) (written : Bytes) : Prop :=
  (writes = [] ∧ written = []) ∨
    ∃ chunks : List Bytes, writes = .reply repOk :: chunks.map .data ∧ chunks.flatten = written

theorem Said.reply {written : Bytes} (h : Said [] written) : Said [.reply repOk] written := by
  rcases h with ⟨-, rfl⟩ | ⟨chunks, hnil, -⟩
  · exact .inr ⟨[], rfl, rfl⟩
  · cases hnil

theorem Said.data {writes : List Write} {written : Bytes} (h : Said writes written) (hne : writes ≠ [])
    (bytes : Bytes) : Said (writes ++ [.data bytes]) (written ++ bytes) := by
  rcases h with ⟨hnil, -⟩ | ⟨chunks, rfl, rfl⟩
  · exact absurd hnil hne
  · refine .inr ⟨chunks ++ [bytes], ?_, ?_⟩
    · rw [List.map_append, List.cons_append]
      rfl
    · rw [List.flatten_append, List.flatten_singleton]

theorem Said.afterReply_eq {writes : List Write} {written : Bytes} (h : Said writes written) :
    afterReply writes = written := by
  rcases h with ⟨rfl, rfl⟩ | ⟨chunks, rfl, rfl⟩
  · rfl
  · show (chunks.map Write.data).flatMap Write.bytes = chunks.flatten
    rw [List.flatMap_map]
    exact List.flatMap_id

/-- The invariant of a session. -/
structure Sound (setup : Setup X) (s : Session) : Prop where
  up : s.up.Conserved
  down : s.down.Conserved
  /-- Before the upstream is open nothing of it was passed on. -/
  closed : s.opened = false → s.down = {} ∧ s.up.written = [] ∧ s.viaGateway = false
  /-- Once it is open, what was read for the client is what the connection gave. -/
  payload : s.opened = true → s.payload = s.down.read ∧ (s.viaGateway = true → (findHeadEnd s.upstreamRead).isSome)
  opened : s.phase ≠ .done → s.opened = s.phase.open
  received : ∀ o, s.phase = .opening o → o.received = some s.upstreamRead
  unread : s.opened = false → (∀ o, s.phase ≠ .opening o) → s.phase ≠ .done → s.upstreamRead = []
  said : s.phase ≠ .done ∨ s.opened = true → Said s.writes s.down.written
  told : s.phase ≠ .done → (s.writes = [] ↔ s.replied = false ∧ s.phase.told s.direct = false)
  /-- An early reply goes only to those who named an address. -/
  early : s.replied = true → setup.sniffs = true
  fresh : s.phase = .start → s.replied = false

theorem sound_start (setup : Setup X) : Sound setup {} where
  up := Flow.conserved_empty
  down := Flow.conserved_empty
  closed _ := ⟨rfl, rfl, rfl⟩
  payload h := by cases h
  opened _ := rfl
  received _ h := by cases h
  unread _ _ _ := rfl
  said _ := .inl ⟨rfl, rfl⟩
  told _ := iff_of_true rfl ⟨rfl, rfl⟩
  early h := by cases h
  fresh _ := rfl

section Steps
variable {setup : Setup X} {s : Session}

theorem Sound.finish (h : Sound setup s) : Sound setup s.finish where
  up := h.up
  down := h.down
  closed := h.closed
  payload := h.payload
  opened hp := absurd rfl hp
  received _ hp := by cases hp
  unread _ _ hp := absurd rfl hp
  said hp := h.said (.inr (hp.resolve_left fun hne => hne rfl))
  told hp := absurd rfl hp
  early := h.early
  fresh := nofun

theorem Sound.refuse (h : Sound setup s) (hclosed : s.opened = false) (code : UInt8) (bytes : Bytes) :
    Sound setup ({s with upstreamRead := bytes}.refuse code) where
  up := h.up
  down := h.down
  closed := h.closed
  payload hopen := by
    rw [show s.opened = true from hopen] at hclosed
    cases hclosed
  opened hp := absurd rfl hp
  received _ hp := by cases hp
  unread _ _ hp := absurd rfl hp
  said hp := by
    have hopen : s.opened = true := hp.resolve_left fun hne => hne rfl
    rw [hclosed] at hopen
    cases hopen
  told hp := absurd rfl hp
  early := h.early
  fresh := nofun

/-- In a phase before the upstream is open. -/
structure Before (s : Session) : Prop where
  live : s.phase ≠ .done
  closed : s.opened = false
  quiet : s.writes = [] ↔ s.replied = false

theorem Sound.before (h : Sound setup s) {p : Phase} (hp : s.phase = p) (hlive : p ≠ .done)
    (hc : p.open = false) : Before s := by
  subst hp
  refine ⟨hlive, (h.opened hlive).trans hc, ?_⟩
  have htold : s.phase.told s.direct = false := by
    revert hc
    cases s.phase <;> simp [Phase.open, Phase.told]
  rw [h.told hlive, htold]
  exact and_iff_left rfl

/-- The opening goes on. -/
theorem Sound.continue (h : Sound setup s) (hb : Before s) (o : Opening) (bytes : Bytes)
    (ho : o.received = some bytes) : Sound setup {s with phase := .opening o, upstreamRead := bytes} := by
  exact {h with
    payload := fun hopen => by rw [hb.closed] at hopen; cases hopen
    opened := fun _ => hb.closed
    received := fun o' ho' => by obtain rfl := Phase.opening.inj ho'; exact ho
    unread := fun _ hne _ => absurd rfl (hne o)
    said := fun _ => h.said (.inl hb.live)
    told := fun _ => hb.quiet.trans (and_iff_left rfl).symm
    fresh := nofun}

/-- Before the decision nothing is open, and the first flight is read. -/
theorem Sound.route (h : Sound setup s) (hp : s.phase = .start ∨ s.phase = .sniffing) (head : Bytes) :
    Sound setup (s.route setup head) := by
  have hb : Before s := by rcases hp with hp | hp <;> exact h.before hp nofun rfl
  have hfresh : s.upstreamRead = [] := by
    apply h.unread hb.closed _ hb.live
    rcases hp with hp | hp <;> rw [hp] <;> exact nofun
  have hread : Sound setup {s with up := s.up.take head} :=
    {h with up := h.up.take head, closed := fun hc => h.closed hc}
  unfold Session.route
  dsimp only
  split
  · split
    · exact hread.finish
    · exact hread.refuse hb.closed _ s.upstreamRead
  · exact {hread with
      opened := fun _ => hb.closed
      received := nofun
      unread := fun _ _ _ => hfresh
      said := fun _ => h.said (.inl hb.live)
      told := fun _ => hb.quiet.trans (and_iff_left rfl).symm
      fresh := nofun}
  · apply hread.continue ⟨hb.live, hb.closed, hb.quiet⟩ _ s.upstreamRead
    rw [hfresh, Opening.start]
    split <;> rfl

/-- The upstream is open, and `leftover` is what followed the gateway's head in `bytes`, or
all of `bytes`. -/
theorem Sound.arrive (h : Sound setup s) (hb : Before s) (p : Phase) (direct viaGateway : Bool)
    (bytes leftover : Bytes) (hopen : p.open = true) (htold : p.told direct = false)
    (hpayload : (if viaGateway then afterHead bytes else bytes) = leftover)
    (hhead : viaGateway = true → (findHeadEnd bytes).isSome) :
    Sound setup {s with
      phase := p, opened := true, direct, viaGateway, down := s.down.take leftover, upstreamRead := bytes} := by
  obtain ⟨hdown, -, -⟩ := h.closed hb.closed
  exact {h with
    down := h.down.take leftover
    closed := nofun
    payload := fun _ => ⟨by rw [hdown]; exact hpayload, hhead⟩
    opened := fun _ => hopen.symm
    received := fun o ho => absurd ho (Phase.notOpening hopen o)
    unread := nofun
    said := fun _ => h.said (.inl hb.live)
    told := fun _ => hb.quiet.trans (and_iff_left htold).symm
    fresh := fun hs => absurd hs (Phase.notStart hopen)}

theorem settle_of_received {o : Opening} {bytes : Bytes} (h : o.received = some bytes) :
    {s with upstreamRead := bytes}.settle o = {s with phase := .opening o, upstreamRead := bytes} := by
  cases o with
  | opened viaGateway leftover => cases h
  | failed => cases h
  | resolving =>
    obtain rfl := Option.some.inj h
    rfl
  | exchange x => rfl
  | dialling dst => rfl

theorem Sound.opening (h : Sound setup s) {o : Opening} (hp : s.phase = .opening o) (e : OpeningEvent) :
    Sound setup ({s with upstreamRead := s.upstreamRead ++ o.heard e}.settle
      (o.next setup.target setup.port e)) := by
  have hlive : Phase.opening o ≠ .done := by
    intro hdone
    cases hdone
  have hb : Before s := h.before hp hlive rfl
  rcases Opening.next_cases (h.received o hp) setup.target setup.port e with
    ⟨pos, hnext, hpos⟩ | ⟨hnext, hread⟩ | hnext | hnext | hmore
  · rw [hnext]
    refine h.arrive hb .greeting s.direct true _ _ rfl rfl ?_ ?_
    · show afterHead _ = _
      simp only [afterHead, hpos]
    · intro _
      rw [hpos]
      rfl
  · rw [hnext, hread]
    refine h.arrive hb .greeting s.direct false [] [] rfl rfl rfl ?_
    intro hvia
    cases hvia
  · rw [hnext]
    exact h.refuse hb.closed repGeneral _
  · rw [hnext]
    exact h.continue hb .resolving [] rfl
  · rw [settle_of_received hmore]
    exact h.continue hb _ _ hmore

/-- In a phase where the upstream is open. -/
structure After (s : Session) : Prop where
  live : s.phase ≠ .done
  opened : s.opened = true

theorem After.notClosed (ha : After s) : s.opened ≠ false := by
  rw [ha.opened]
  exact nofun

theorem Sound.after (h : Sound setup s) {p : Phase} (hp : s.phase = p) (hlive : p ≠ .done)
    (hopen : p.open = true) : After s := by
  subst hp
  exact ⟨hlive, (h.opened hlive).trans hopen⟩

/-- With the upstream open, the phase moves on where the reply is accounted for. -/
theorem Sound.move (h : Sound setup s) (ha : After s) (p : Phase) (hp : p.open = true)
    (htold : s.writes = [] ↔ s.replied = false ∧ p.told s.direct = false) : Sound setup {s with phase := p} := by
  exact {h with
    opened := fun _ => ha.opened.trans hp.symm
    received := fun o ho => absurd ho (Phase.notOpening hp o)
    unread := fun hc => absurd hc ha.notClosed
    said := fun _ => h.said (.inl ha.live)
    told := fun _ => htold
    fresh := fun hs => absurd hs (Phase.notStart hp)}

theorem Sound.hand (h : Sound setup s) (ha : After s) (n : Nat) : Sound setup (s.hand n) := by
  have hup : (if s.direct then s.up.give n else s.up.flush).Conserved := by
    split
    · exact h.up.give n
    · exact h.up.flush
  exact {h with up := hup, closed := fun hc => absurd hc ha.notClosed}

theorem Sound.pass (h : Sound setup s) (ha : After s) (htold : s.phase.told s.direct = true) (n : Nat) :
    Sound setup (s.pass n) := by
  have hne : s.writes ≠ [] := by
    intro hnil
    have := ((h.told ha.live).mp hnil).2
    rw [htold] at this
    cases this
  exact {h with
    down := h.down.give n
    closed := fun hc => absurd hc ha.notClosed
    said := fun _ => (h.said (.inl ha.live)).data hne _
    told := fun _ => iff_of_false (by simp [Session.pass]) fun hq => by
      have := hq.2
      rw [show (s.pass n).phase.told (s.pass n).direct = true from htold] at this
      cases this}

theorem Sound.readClient (h : Sound setup s) (ha : After s) (bytes : Bytes) : Sound setup (s.readClient bytes) := by
  unfold Session.readClient
  split
  · exact h
  · exact {h with
      up := h.up.take bytes
      closed := fun hc => absurd hc ha.notClosed}

/-- More of the connection is more of the destination's bytes, once the head is there. -/
theorem payload_append {viaGateway : Bool} {read : Bytes} (more : Bytes)
    (h : viaGateway = true → (findHeadEnd read).isSome) :
    (if viaGateway then afterHead (read ++ more) else read ++ more) =
      (if viaGateway then afterHead read else read) ++ more ∧
    (viaGateway = true → (findHeadEnd (read ++ more)).isSome) := by
  cases viaGateway with
  | false => exact ⟨rfl, nofun⟩
  | true =>
    obtain ⟨pos, hpos⟩ := Option.isSome_iff_exists.mp (h rfl)
    refine ⟨?_, fun _ => by rw [findHeadEnd_append hpos]; rfl⟩
    show afterHead (read ++ more) = afterHead read ++ more
    rw [afterHead_append hpos, afterHead, hpos]

theorem Sound.readUpstream (h : Sound setup s) (hp : s.phase = .relaying) (ha : After s) (bytes : Bytes) :
    Sound setup (s.readUpstream bytes) := by
  obtain ⟨hpayload, hhead⟩ := h.payload ha.opened
  obtain ⟨hmore, hhead'⟩ := payload_append bytes hhead
  unfold Session.readUpstream
  split
  · exact h
  · exact {h with
      down := h.down.take bytes
      closed := fun hc => absurd hc ha.notClosed
      payload := fun _ => ⟨hmore.trans (congrArg (· ++ bytes) hpayload), hhead'⟩
      received := fun o ho => by rw [show s.phase = .opening o from ho] at hp; cases hp
      unread := fun hc => absurd hc ha.notClosed}

theorem Sound.over (h : Sound setup s) : Sound setup {s with upOver := true} := {h with}

/-- A turn of the copy loops. -/
theorem Sound.relay (h : Sound setup s) (hp : s.phase = .relaying) (event : Event) :
    Sound setup (s.relay event) := by
  have ha : After s := h.after hp nofun rfl
  have htold : s.phase.told s.direct = true := by
    rw [hp]
    rfl
  unfold Session.relay
  split
  · exact h.readClient ha _
  · split
    · exact h
    · exact h.hand ha _
  · split
    · exact h.over
    · exact h
  · split
    · exact h.over
    · exact h
  · exact h.over
  · exact h.readUpstream hp ha _
  · exact h.pass ha htold _
  · split
    · exact h.finish
    · exact h
  · split
    · exact h.finish
    · exact h
  · exact h.finish
  · exact h

theorem Sound.greet (h : Sound setup s) (hp : s.phase = .greeting) (written : Bool) :
    Sound setup (s.greet written) := by
  have ha : After s := h.after hp nofun rfl
  have hquiet : s.writes = [] ↔ s.replied = false := by
    have := h.told ha.live
    rw [hp] at this
    exact this.trans (and_iff_left rfl)
  have htold : (if s.direct then Phase.relaying else .sending).told s.direct = true := by
    cases s.direct <;> rfl
  have hopen : (if s.direct then Phase.relaying else .sending).open = true := by
    split <;> rfl
  unfold Session.greet
  dsimp only
  split
  · rename_i hreplied
    apply h.move ha _ hopen
    rw [hquiet, hreplied]
    exact iff_of_false nofun fun h => nomatch h.1
  · rename_i hreplied
    have hnil : s.writes = [] := hquiet.mpr (Bool.eq_false_iff.mpr hreplied)
    split
    · have hsaid := h.said (.inl ha.live)
      rw [hnil] at hsaid
      exact {h with
        opened := fun _ => ha.opened.trans hopen.symm
        received := fun o ho => absurd ho (Phase.notOpening hopen o)
        unread := fun hc => absurd hc ha.notClosed
        said := fun _ => by
          show Said (s.writes ++ [.reply repOk]) s.down.written
          rw [hnil]
          exact hsaid.reply
        told := fun _ => iff_of_false (by simp) fun hq => by
          have hfalse := hq.2
          rw [htold] at hfalse
          cases hfalse
        fresh := fun hs => absurd hs (Phase.notStart hopen)}
    · exact h.finish

theorem Sound.send (h : Sound setup s) (hp : s.phase = .sending) (n : Nat) : Sound setup (s.send n) := by
  have ha : After s := h.after hp nofun rfl
  have hh : Sound setup (s.hand n) := h.hand ha n
  have hquiet := h.told ha.live
  rw [hp] at hquiet
  unfold Session.send
  dsimp only
  split
  · refine hh.move ⟨ha.live, ha.opened⟩ _ (by split <;> rfl) ?_
    show s.writes = [] ↔ s.replied = false ∧ (if s.direct then Phase.greeting else .returning).told s.direct = false
    rw [hquiet]
    cases s.direct <;> rfl
  · exact hh

theorem Sound.giveBack (h : Sound setup s) (hp : s.phase = .returning) (n : Nat) : Sound setup (s.giveBack n) := by
  have ha : After s := h.after hp nofun rfl
  have htold : s.phase.told s.direct = true := by
    rw [hp]
    rfl
  have hh : Sound setup (s.pass n) := h.pass ha htold n
  unfold Session.giveBack
  dsimp only
  split
  · refine hh.move ⟨ha.live, ha.opened⟩ _ rfl ?_
    exact iff_of_false (by simp [Session.pass]) fun hq => by cases hq.2
  · exact hh

/-- The early reply. -/
theorem Sound.sniff (h : Sound setup s) (hp : s.phase = .start) (hsniffs : setup.sniffs = true) :
    Sound setup {s with phase := .sniffing, replied := true, writes := s.writes ++ [.reply repOk]} := by
  have hb : Before s := h.before hp nofun rfl
  have hnil : s.writes = [] := hb.quiet.mpr (h.fresh hp)
  have hsaid := h.said (.inl hb.live)
  rw [hnil] at hsaid
  exact {h with
    opened := fun _ => hb.closed
    received := nofun
    unread := fun hc _ _ => h.unread hc (by rw [hp]; exact nofun) hb.live
    said := fun _ => by
      show Said (s.writes ++ [.reply repOk]) s.down.written
      rw [hnil]
      exact hsaid.reply
    told := fun _ => iff_of_false (by simp) fun hq => by cases hq.1
    early := fun _ => hsniffs
    fresh := nofun}

/-- `handle_direct` has connected, or not. -/
theorem Sound.connected (h : Sound setup s) (hp : s.phase = .connecting) (ok : Bool) :
    Sound setup (if ok then {s with phase := .sending, opened := true, direct := true}
      else if s.replied then s.finish else s.refuse repGeneral) := by
  have hb : Before s := h.before hp nofun rfl
  obtain ⟨hdown, -, hvia⟩ := h.closed hb.closed
  have hfresh : s.upstreamRead = [] := h.unread hb.closed (by rw [hp]; exact nofun) hb.live
  split
  · have hopen := h.arrive hb .sending true false [] [] rfl rfl rfl nofun
    have hsame : {s with phase := .sending, opened := true, direct := true} =
        {s with phase := .sending, opened := true, direct := true, viaGateway := false, down := s.down.take [],
                upstreamRead := []} := by
      rw [hvia, hfresh, hdown]
      rfl
    rw [hsame]
    exact hopen
  · split
    · exact h.finish
    · exact h.refuse hb.closed repGeneral s.upstreamRead

/-- One await keeps the invariant. -/
theorem Sound.next (h : Sound setup s) (event : Event) : Sound setup (s.next setup event) := by
  unfold Session.next
  split
  · rename_i hp
    split
    · rename_i hsniffs
      split
      · exact h.sniff hp hsniffs
      · exact h.finish
    · exact h.route (.inl hp) []
  · exact h.finish
  · exact h.route (.inr ‹_›) _
  · rename_i hp
    exact h.connected hp _
  · exact h.opening ‹_› _
  · exact h.greet ‹_› _
  · exact h.send ‹_› _
  · split
    · exact h
    · exact h.finish
  · exact h.giveBack ‹_› _
  · split
    · exact h
    · exact h.finish
  · exact h.relay ‹_› _
  · exact h

end Steps

/-! ### Transparency -/

/-- **A session with an open upstream has handed on all that the client sent but for what
it holds, and after the success reply has written all that the destination sent but for
what it holds.** The destination's bytes are those behind the gateway's head, or all of
the connection's. -/
theorem relays_transparently (setup : Setup X) (events : List Event) :
    ∀ s ∈ visited (Session.next setup) {} events, s.opened = true →
      s.up.written ++ s.up.held = s.up.read ∧ afterReply s.writes ++ s.down.held = s.payload := by
  intro s hs hopen
  have step (event : Event) (s : Session) (h : Sound setup s) : Sound setup (s.next setup event) := h.next event
  have h : Sound setup s := visited_invariant step (sound_start setup) events s hs
  refine ⟨h.up, ?_⟩
  rw [(h.said (.inr hopen)).afterReply_eq, (h.payload hopen).1]
  exact h.down

/-- A request that is sniffed and goes through a gateway at `10.0.0.1:3128`. -/
def filtered : Setup plain where
  routes := {direct := [.domainSuffix "internal.example"]}
  target := .ip (.v4 (Rust.ipv4 93 184 216 34))
  port := 443
  gatewayProxy := some (.v4 (Rust.ipv4 10 0 0 1) 3128)

/-- The gateway's head comes in two pieces, the second with a byte of the destination. -/
def filteredRun : List Event :=
  [.started true, .firstFlight (some [22, 3]), .opening (.gateway .connected), .opening (.gateway .sent),
    .opening (.gateway (.chunk [72, 84, 84, 80, 47, 49, 46, 49, 32, 50, 48, 48, 13, 10, 13])),
    .opening (.gateway (.chunk [10, 23])), .greeted true, .handed 2, .passed 1, .fromClient [20], .fromUpstream [21]]

def filteredEnd : Session := run (Session.next filtered) {} filteredRun

theorem relays_filteredRun :
    filteredEnd.opened = true ∧ filteredEnd.up.read = [22, 3, 20] ∧ filteredEnd.payload = [23, 21] ∧
      filteredEnd.up.written ++ filteredEnd.up.held = filteredEnd.up.read ∧
      afterReply filteredEnd.writes ++ filteredEnd.down.held = filteredEnd.payload := by
  have hopen : filteredEnd.opened = true := by decide
  refine ⟨hopen, by decide, by decide, ?_⟩
  exact relays_transparently filtered filteredRun filteredEnd (run_visited _ _ _) hopen

/-! ### One reply -/

/-- At most one reply, and behind a success only what the upstream sent. -/
def OneReply (s : Session) : Prop :=
  s.writes.countP Write.isReply ≤ 1 ∧ afterReply s.writes <+: s.payload

/-- `open_tcp` fails after the early reply. -/
def FailsReplied (event : Event) (s : Session) : Prop :=
  s.replied = true ∧ (∃ dst, s.phase = .opening (.dialling dst)) ∧ event = .opening (.openTcp false)

section Replies
variable {setup : Setup X} {s : Session}

theorem Said.countReplies {writes : List Write} {written : Bytes} (h : Said writes written) :
    writes.countP Write.isReply ≤ 1 := by
  rcases h with ⟨rfl, -⟩ | ⟨chunks, rfl, -⟩
  · exact Nat.zero_le 1
  · have hdata : (chunks.map Write.data).countP Write.isReply = 0 := by
      rw [List.countP_eq_zero]
      intro w hw
      obtain ⟨chunk, -, rfl⟩ := List.mem_map.mp hw
      exact nofun
    rw [List.countP_cons, hdata]
    exact le_refl 1

theorem Sound.oneReply (h : Sound setup s) (hp : s.phase ≠ .done ∨ s.opened = true) : OneReply s := by
  have hsaid := h.said hp
  refine ⟨hsaid.countReplies, ?_⟩
  rw [hsaid.afterReply_eq]
  cases hopen : s.opened with
  | false =>
    rw [(h.closed hopen).1]
    exact List.nil_prefix
  | true =>
    rw [(h.payload hopen).1]
    exact h.down.written_le

/-- A failure reply is the only one exactly if the early one was not sent. -/
theorem Sound.oneReply_refuse_iff (h : Sound setup s) (hb : Before s) (code : UInt8) (hcode : code ≠ repOk)
    (bytes : Bytes) : OneReply ({s with upstreamRead := bytes}.refuse code) ↔ s.replied = false := by
  rw [← hb.quiet]
  have hsaid := h.said (.inl hb.live)
  rw [(h.closed hb.closed).1] at hsaid
  rcases hsaid with ⟨hnil, -⟩ | ⟨chunks, hwrites, hflat⟩
  · refine iff_of_true ?_ hnil
    have hwrites : ({s with upstreamRead := bytes}.refuse code).writes = [.reply code] := by
      show s.writes ++ [.reply code] = [.reply code]
      rw [hnil, List.nil_append]
    refine ⟨?_, ?_⟩
    · rw [hwrites]
      exact le_refl 1
    · rw [hwrites, afterReply, if_neg hcode]
      exact List.nil_prefix
  · refine iff_of_false ?_ (by rw [hwrites]; exact nofun)
    intro hone
    have htwo : (s.writes ++ [Write.reply code]).countP Write.isReply ≤ 1 := hone.1
    rw [hwrites, List.countP_append, List.countP_cons_of_pos rfl, List.countP_cons_of_pos rfl] at htwo
    omega

theorem Sound.oneReply_route (h : Sound setup s) (hp : s.phase = .start ∨ s.phase = .sniffing)
    (hone : OneReply s) (head : Bytes) : OneReply (s.route setup head) := by
  have hb : Before s := by rcases hp with hp | hp <;> exact h.before hp nofun rfl
  cases haction : connectAction setup.routes setup.sniffing setup.target setup.port head with
  | block =>
    have hroute : s.route setup head = if s.replied then {s with up := s.up.take head}.finish
        else {s with up := s.up.take head}.refuse repNotAllowed := by
      simp only [Session.route, haction]
    rw [hroute]
    split
    · exact hone
    · rename_i hreplied
      exact (h.oneReply_refuse_iff hb repNotAllowed (by decide) s.upstreamRead).mpr (Bool.eq_false_iff.mpr hreplied)
  | direct =>
    apply (h.route hp head).oneReply (.inl _)
    simp only [Session.route, haction]
    exact nofun
  | proxy =>
    apply (h.route hp head).oneReply (.inl _)
    simp only [Session.route, haction]
    exact nofun

@[simp] theorem opened_greet (written : Bool) : (s.greet written).opened = s.opened := by
  unfold Session.greet
  dsimp only
  split
  · rfl
  · split <;> rfl

@[simp] theorem opened_send (n : Nat) : (s.send n).opened = s.opened := by
  unfold Session.send
  dsimp only
  split <;> rfl

@[simp] theorem opened_giveBack (n : Nat) : (s.giveBack n).opened = s.opened := by
  unfold Session.giveBack
  dsimp only
  split <;> rfl

@[simp] theorem opened_readClient (bytes : Bytes) : (s.readClient bytes).opened = s.opened := by
  unfold Session.readClient
  split <;> rfl

@[simp] theorem opened_readUpstream (bytes : Bytes) : (s.readUpstream bytes).opened = s.opened := by
  unfold Session.readUpstream
  split <;> rfl

@[simp] theorem opened_relay (event : Event) : (s.relay event).opened = s.opened := by
  unfold Session.relay
  split <;> first
    | exact opened_readClient _
    | exact opened_readUpstream _
    | rfl
    | split <;> rfl

theorem isSome_of_sniffs (h : setup.sniffs = true) : (resolveLiteral setup.target).isSome := by
  unfold Setup.sniffs at h
  split at h
  · rename_i ip htarget
    rw [htarget]
    rfl
  · cases h

/-- An opening that does not fail leaves the session running. -/
theorem settle_phase {o : Opening} (h : o ≠ .failed) : (s.settle o).phase ≠ .done := by
  cases o with
  | failed => exact absurd rfl h
  | _ => exact nofun

/-- One await of an opening keeps to one reply unless `open_tcp` fails after an early one:
a name can only fail to resolve without an early reply. -/
theorem Sound.oneReply_opening_iff (h : Sound setup s) {o : Opening} (hp : s.phase = .opening o) (e : OpeningEvent) :
    OneReply ({s with upstreamRead := s.upstreamRead ++ o.heard e}.settle (o.next setup.target setup.port e)) ↔
      ¬ FailsReplied (.opening e) s := by
  have hb : Before s := h.before hp nofun rfl
  have hfail := Opening.next_eq_failed_iff (h.received o hp) setup.target setup.port e
  by_cases hnext : o.next setup.target setup.port e = .failed
  · rw [hnext]
    show OneReply ({s with upstreamRead := s.upstreamRead ++ o.heard e}.refuse repGeneral) ↔ _
    rw [h.oneReply_refuse_iff hb repGeneral (by decide), ← Bool.not_eq_true, not_iff_not]
    constructor
    · intro hreplied
      rcases hfail.mp hnext with ⟨-, -, hlit⟩ | ⟨⟨dst, rfl⟩, rfl⟩
      · have hsome := isSome_of_sniffs (h.early hreplied)
        rw [hlit] at hsome
        cases hsome
      · exact ⟨hreplied, ⟨dst, hp⟩, rfl⟩
    · exact fun hfails => hfails.1
  · refine iff_of_true ((h.opening hp e).oneReply ?_) ?_
    · exact .inl (settle_phase hnext)
    · intro hfails
      obtain ⟨-, ⟨dst, hdst⟩, he⟩ := hfails
      apply hnext
      rw [hfail]
      exact .inr ⟨⟨dst, Phase.opening.inj (hp.symm.trans hdst)⟩, Event.opening.inj he⟩

/-- Outside an opening no await adds a second reply. -/
theorem Sound.oneReply_next (h : Sound setup s) (hone : OneReply s) (event : Event)
    (hother : ∀ o e, s.phase = .opening o → event ≠ .opening e) : OneReply (s.next setup event) := by
  unfold Session.next
  split
  · rename_i hp
    split
    · rename_i hsniffs
      split
      · exact (h.sniff hp hsniffs).oneReply (.inl nofun)
      · exact hone
    · exact h.oneReply_route (.inl hp) hone []
  · exact hone
  · rename_i hp
    exact h.oneReply_route (.inr hp) hone _
  · rename_i ok hp
    have hconnected := h.connected hp ok
    split
    · rename_i hok
      rw [if_pos hok] at hconnected
      exact hconnected.oneReply (.inl nofun)
    · split
      · exact hone
      · rename_i hreplied
        have hb : Before s := h.before hp nofun rfl
        exact (h.oneReply_refuse_iff hb repGeneral (by decide) s.upstreamRead).mpr (Bool.eq_false_iff.mpr hreplied)
  · rename_i o e hp
    exact absurd rfl (hother o e hp)
  · rename_i hp
    exact (h.greet hp _).oneReply (.inr ((opened_greet _).trans (h.after hp nofun rfl).opened))
  · rename_i hp
    exact (h.send hp _).oneReply (.inr ((opened_send _).trans (h.after hp nofun rfl).opened))
  · split
    · exact hone
    · exact hone
  · rename_i hp
    exact (h.giveBack hp _).oneReply (.inr ((opened_giveBack _).trans (h.after hp nofun rfl).opened))
  · split
    · exact hone
    · exact hone
  · rename_i hp
    exact (h.relay hp _).oneReply (.inr ((opened_relay _).trans (h.after hp nofun rfl).opened))
  · exact hone

/-- One await keeps to one reply exactly if it is not a failure after the early one. -/
theorem Sound.oneReply_next_iff (event : Event) (s : Session) (h : Sound setup s) (hone : OneReply s) :
    OneReply (s.next setup event) ↔ ¬ FailsReplied event s := by
  by_cases hopening : ∃ o e, s.phase = .opening o ∧ event = .opening e
  · obtain ⟨o, e, hp, rfl⟩ := hopening
    have hnext : s.next setup (.opening e) = {s with upstreamRead := s.upstreamRead ++ o.heard e}.settle
        (o.next setup.target setup.port e) := by
      simp only [Session.next, hp]
    rw [hnext]
    exact h.oneReply_opening_iff hp e
  · refine iff_of_true (h.oneReply_next hone event fun o e hp he => hopening ⟨o, e, hp, he⟩) ?_
    intro hfails
    obtain ⟨-, ⟨dst, hp⟩, he⟩ := hfails
    exact hopening ⟨_, _, hp, he⟩

end Replies

/-- **A client hears at most one reply, and behind a success only the upstream, in every
state of a run, exactly if no `open_tcp` of the run fails after an early reply.** -/
theorem oneReply_iff (setup : Setup X) (events : List Event) :
    (∀ s ∈ visited (Session.next setup) {} events, OneReply s) ↔
      Along (Session.next setup) (fun event s => ¬ FailsReplied event s) {} events := by
  have stepInv (event : Event) (s : Session) (h : Sound setup s) : Sound setup (s.next setup event) := h.next event
  exact visited_iff_along stepInv Sound.oneReply_next_iff (sound_start setup) ⟨Nat.zero_le 1, List.nil_prefix⟩ events

/-- The early reply is out and `open_tcp` fails: the client reads ten more bytes. -/
theorem second_reply :
    ¬ ∀ s ∈ visited (Session.next {filtered with gatewayProxy := none}) {}
      [.started true, .firstFlight (some [22, 3]), .opening (.resolved none), .opening (.openTcp false)],
      OneReply s := by
  intro h
  have hlast := h _ (run_visited _ _ _)
  exact absurd hlast.1 (by decide)

end Aether.Socks.Connect
