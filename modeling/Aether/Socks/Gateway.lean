import Aether.Socks.Entry

/-! Opening a connection through the tunnel, or through the organization's gateway.

`open_through_gateway` connects to the gateway inside the tunnel, asks for the destination
with a `CONNECT` and reads until the answer's head is there, in whatever chunks it comes.
What follows the head belongs to the destination. Every failure, a refusal included, makes
the caller retire the gateway and open the destination without it; `handle_connect` and
`open_tunneled` do this in the same way, which is `Opening`.

The head's end does not depend on how it was cut into chunks, nor on what comes after it
(`afterHead_append`). -/
namespace Aether.Socks
open Routing
open Rust (IpAddr SocketAddr)

abbrev Bytes := List UInt8

/-! ### The answer's head -/

/-- `\r\n\r\n` -/
def headEnd : Bytes := [13, 10, 13, 10]

/-- `find_head_end`: the position after the first `\r\n\r\n`. -/
def findHeadEnd : Bytes → Option Nat
  | [] => none
  | b :: rest => if headEnd.isPrefixOf (b :: rest) then some 4 else (findHeadEnd rest).map (· + 1)

/-- `proxy_connect_succeeded`: whether the status is a success, if there is one. -/
def proxyConnectSucceeded (head : Bytes) : Option Bool := do
  let line ← match Sniff.splitCrlf (Rust.fromUtf8Lossy head).toList with
    | line :: _ :: _ => some (String.ofList line)
    | _ => none
  let status ← Rust.parseU16 (← (Rust.splitWhitespace line)[1]?)
  some (200 ≤ status && status < 300)

/-- `GATEWAY_HEAD_LIMIT` -/
def gatewayHeadLimit : Nat := 8192

/-- What followed the first `\r\n\r\n` of an answer. -/
def afterHead (bytes : Bytes) : Bytes :=
  match findHeadEnd bytes with
  | some pos => bytes.drop pos
  | none => []

theorem findHeadEnd_bounds {bytes : Bytes} {pos : Nat} (h : findHeadEnd bytes = some pos) :
    4 ≤ pos ∧ pos ≤ bytes.length := by
  induction bytes generalizing pos with
  | nil => cases h
  | cons b rest ih =>
    rw [findHeadEnd] at h
    split_ifs at h with hpre
    · have hlen := (List.isPrefixOf_iff_prefix.mp hpre).length_le
      rw [← Option.some.inj h]
      exact ⟨le_refl 4, hlen⟩
    · obtain ⟨q, hq, rfl⟩ := Option.map_eq_some_iff.mp h
      have := ih hq
      simp only [List.length_cons]
      omega

/-- The end of the head stays where it was found, whatever follows. -/
theorem findHeadEnd_append {bytes : Bytes} {pos : Nat} (h : findHeadEnd bytes = some pos) (more : Bytes) :
    findHeadEnd (bytes ++ more) = some pos := by
  induction bytes generalizing pos with
  | nil => cases h
  | cons b rest ih =>
    rw [findHeadEnd] at h
    rw [List.cons_append, findHeadEnd]
    split_ifs at h with hpre
    · have hlong : headEnd.isPrefixOf (b :: (rest ++ more)) = true := by
        rw [List.isPrefixOf_iff_prefix] at hpre ⊢
        exact hpre.trans (List.prefix_append (b :: rest) more)
      rw [if_pos hlong, h]
    · obtain ⟨q, hq, rfl⟩ := Option.map_eq_some_iff.mp h
      -- A head that ends further on leaves four bytes here, so what follows cannot complete one.
      have hroom : headEnd.length ≤ (b :: rest).length := by
        have := findHeadEnd_bounds hq
        show 4 ≤ rest.length + 1
        omega
      have hshort : ¬ headEnd.isPrefixOf (b :: (rest ++ more)) = true := by
        intro hlong
        apply hpre
        rw [List.isPrefixOf_iff_prefix] at hlong ⊢
        exact List.prefix_of_prefix_length_le hlong (List.prefix_append (b :: rest) more) hroom
      rw [if_neg hshort, ih hq, Option.map_some]

/-- What follows a head that was found grows with what is read. -/
theorem afterHead_append {bytes : Bytes} {pos : Nat} (h : findHeadEnd bytes = some pos) (more : Bytes) :
    afterHead (bytes ++ more) = bytes.drop pos ++ more := by
  have hlen := (findHeadEnd_bounds h).2
  simp only [afterHead, findHeadEnd_append h]
  exact List.drop_append_of_le_length hlen

/-! ### The exchange with the gateway -/

/-- `should_use_gateway`. -/
def shouldUseGateway (port : UInt16) : Bool := port == 80 || port == 443

/-- The authority that the gateway is asked for. -/
def authority : Target → String
  | .domain name => name
  | .ip ip => ip.display

/-- `build_proxy_connect`. -/
def buildProxyConnect (target : String) (port : UInt16) : Bytes :=
  let authority :=
    if Rust.containsChar ':' target && !Rust.startsWith "[" target then
      "[" ++ target ++ "]:" ++ Rust.showU16 port
    else target ++ ":" ++ Rust.showU16 port
  ("CONNECT " ++ authority ++ " HTTP/1.1\r\nHost: " ++ authority ++
    "\r\nUser-Agent: WARP for Android\r\n\r\n").toUTF8.toList

/-- The errors of `open_through_gateway`. -/
inductive GatewayError where
  /-- It did not accept a connection in time. -/
  | notAccepted
  /-- `open_tcp` failed. -/
  | unreachable
  | sendFailed
  | notInTime
  | closed
  | malformed
  | refused
  | oversized
  deriving DecidableEq, Repr

/-- Where `open_through_gateway` stands. -/
inductive Exchange where
  | connecting
  /-- The request is being sent. -/
  | asking (request : Bytes)
  /-- The head read so far. -/
  | answering (head : Bytes)
  | accepted (leftover : Bytes)
  | failed (error : GatewayError)
  deriving DecidableEq, Repr

/-- What can happen to the exchange. -/
inductive GatewayEvent where
  | connected
  | connectTimeout
  | connectFailed
  | sent
  | sendFailed
  | chunk (bytes : Bytes)
  | timeout
  | closed
  deriving DecidableEq, Repr

/-- The head is looked at after every chunk. -/
def Exchange.examine (head : Bytes) : Exchange :=
  match findHeadEnd head with
  | some pos =>
    match proxyConnectSucceeded head with
    | none => .failed .malformed
    | some false => .failed .refused
    | some true => .accepted (head.drop pos)
  | none => if head.length > gatewayHeadLimit then .failed .oversized else .answering head

/-- One await of `open_through_gateway`. -/
def Exchange.next (request : Bytes) : GatewayEvent → Exchange → Exchange
  | .connected, .connecting => .asking request
  | .connectTimeout, .connecting => .failed .notAccepted
  | .connectFailed, .connecting => .failed .unreachable
  | .sent, .asking _ => .answering []
  | .sendFailed, .asking _ => .failed .sendFailed
  | .chunk bytes, .answering head => .examine (head ++ bytes)
  | .timeout, .answering _ => .failed .notInTime
  | .closed, .answering _ => .failed .closed
  | _, x => x

/-- The bytes that an event brings. -/
def Exchange.heard : GatewayEvent → Exchange → Bytes
  | .chunk bytes, .answering _ => bytes
  | _, _ => []

/-- What an exchange that still runs has read. -/
def Exchange.received : Exchange → Option Bytes
  | .connecting | .asking _ => some []
  | .answering head => some head
  | .accepted _ | .failed _ => none

theorem Exchange.examine_cases (head : Bytes) :
    (∃ pos, Exchange.examine head = .accepted (head.drop pos) ∧ findHeadEnd head = some pos) ∨
    (∃ error, Exchange.examine head = .failed error) ∨ Exchange.examine head = .answering head := by
  unfold Exchange.examine
  split
  · rename_i pos hpos
    split
    · exact .inr (.inl ⟨_, rfl⟩)
    · exact .inr (.inl ⟨_, rfl⟩)
    · exact .inl ⟨pos, rfl, hpos⟩
  · split
    · exact .inr (.inl ⟨_, rfl⟩)
    · exact .inr (.inr rfl)

/-- What one await comes to, having read `r`: the leftover is what followed the head, at
whatever chunk that ended. -/
theorem Exchange.next_cases {x : Exchange} {r : Bytes} (h : x.received = some r) (request : Bytes)
    (event : GatewayEvent) :
    (∃ pos, x.next request event = .accepted ((r ++ x.heard event).drop pos) ∧
      findHeadEnd (r ++ x.heard event) = some pos) ∨
    (∃ error, x.next request event = .failed error) ∨ (x.next request event).received = some (r ++ x.heard event) := by
  cases x with
  | accepted leftover => cases h
  | failed error => cases h
  | connecting =>
    obtain rfl := Option.some.inj h
    cases event with
    | connectTimeout | connectFailed => exact .inr (.inl ⟨_, rfl⟩)
    | _ => exact .inr (.inr rfl)
  | asking _ =>
    obtain rfl := Option.some.inj h
    cases event with
    | sendFailed => exact .inr (.inl ⟨_, rfl⟩)
    | _ => exact .inr (.inr rfl)
  | answering head =>
    obtain rfl := Option.some.inj h
    cases event with
    | timeout | closed => exact .inr (.inl ⟨_, rfl⟩)
    | chunk bytes =>
      have hnext : Exchange.next request (.chunk bytes) (.answering head) = .examine (head ++ bytes) := rfl
      have hheard : Exchange.heard (.chunk bytes) (.answering head) = bytes := rfl
      rw [hnext, hheard]
      rcases Exchange.examine_cases (head ++ bytes) with haccept | hfail | hmore
      · exact .inl haccept
      · exact .inr (.inl hfail)
      · rw [hmore]
        exact .inr (.inr rfl)
    | connected | connectTimeout | connectFailed | sent | sendFailed =>
      exact .inr (.inr (congrArg some (List.append_nil head).symm))

/-! ### Opening a destination -/

/-- Where `handle_connect`, after its decision, or `open_tunneled` stands. -/
inductive Opening where
  | exchange (x : Exchange)
  | resolving
  | dialling (dst : SocketAddr)
  | opened (viaGateway : Bool) (leftover : Bytes)
  | failed
  deriving DecidableEq, Repr

inductive OpeningEvent where
  | gateway (event : GatewayEvent)
  /-- The answer of `dns_resolve`, should the target be a name. -/
  | resolved (answer : Option IpAddr)
  /-- The outcome of `open_tcp`. -/
  | openTcp (ok : Bool)
  deriving DecidableEq, Repr

/-- `gateway_proxy().filter(|_| should_use_gateway(port))` decides how to begin. -/
def Opening.start (gatewayProxy : Option SocketAddr) (port : UInt16) : Opening :=
  if (gatewayProxy.filter fun _ => shouldUseGateway port).isSome then .exchange .connecting else .resolving

/-- The exchange has moved on; its failure, of whatever kind, opens the destination
without the gateway. -/
def Opening.settle : Exchange → Opening
  | .accepted leftover => .opened true leftover
  | .failed _ => .resolving
  | x => .exchange x

/-- One await. -/
def Opening.next (target : Target) (port : UInt16) : OpeningEvent → Opening → Opening
  | .gateway event, .exchange x => .settle (x.next (buildProxyConnect (authority target) port) event)
  | .resolved answer, .resolving =>
    match (resolveLiteral target).or answer with
    | some ip => .dialling (SocketAddr.new ip port)
    | none => .failed
  | .openTcp ok, .dialling _ => if ok then .opened false [] else .failed
  | _, o => o

/-- The bytes that an event brings. -/
def Opening.heard : OpeningEvent → Opening → Bytes
  | .gateway event, .exchange x => x.heard event
  | _, _ => []

/-- What an opening that still runs has read from its connection. -/
def Opening.received : Opening → Option Bytes
  | .exchange x => x.received
  | .resolving | .dialling _ => some []
  | .opened .. | .failed => none

theorem Opening.settle_of_received {x : Exchange} {r : Bytes} (h : x.received = some r) :
    Opening.settle x = .exchange x := by
  cases x with
  | accepted leftover => cases h
  | failed error => cases h
  | _ => rfl

/-- What one await comes to, having read `r`. -/
theorem Opening.next_cases {o : Opening} {r : Bytes} (h : o.received = some r) (target : Target) (port : UInt16)
    (e : OpeningEvent) :
    (∃ pos, o.next target port e = .opened true ((r ++ o.heard e).drop pos) ∧
      findHeadEnd (r ++ o.heard e) = some pos) ∨
    (o.next target port e = .opened false [] ∧ r ++ o.heard e = []) ∨
    o.next target port e = .failed ∨ o.next target port e = .resolving ∨
    (o.next target port e).received = some (r ++ o.heard e) := by
  have hkeep (hn : o.next target port e = o) (he : o.heard e = []) :
      (o.next target port e).received = some (r ++ o.heard e) := by
    rw [hn, he, List.append_nil, h]
  cases o with
  | opened viaGateway leftover => cases h
  | failed => cases h
  | resolving =>
    cases e with
    | gateway event => exact .inr (.inr (.inr (.inl rfl)))
    | openTcp ok => exact .inr (.inr (.inr (.inl rfl)))
    | resolved answer =>
      obtain rfl := Option.some.inj h
      unfold Opening.next
      dsimp only
      split
      · exact .inr (.inr (.inr (.inr rfl)))
      · exact .inr (.inr (.inl rfl))
  | dialling dst =>
    cases e with
    | gateway event => exact .inr (.inr (.inr (.inr (hkeep rfl rfl))))
    | resolved answer => exact .inr (.inr (.inr (.inr (hkeep rfl rfl))))
    | openTcp ok =>
      obtain rfl := Option.some.inj h
      cases ok with
      | true => exact .inr (.inl ⟨rfl, rfl⟩)
      | false => exact .inr (.inr (.inl rfl))
  | exchange x =>
    cases e with
    | resolved answer => exact .inr (.inr (.inr (.inr (hkeep rfl rfl))))
    | openTcp ok => exact .inr (.inr (.inr (.inr (hkeep rfl rfl))))
    | gateway event =>
      have hnext : (Opening.exchange x).next target port (.gateway event) =
          .settle (x.next (buildProxyConnect (authority target) port) event) := rfl
      have hheard : (Opening.exchange x).heard (.gateway event) = x.heard event := rfl
      rw [hnext, hheard]
      rcases Exchange.next_cases h _ event with ⟨pos, haccept, hpos⟩ | ⟨error, hfail⟩ | hmore
      · rw [haccept]
        exact .inl ⟨pos, rfl, hpos⟩
      · rw [hfail]
        exact .inr (.inr (.inr (.inl rfl)))
      · rw [Opening.settle_of_received hmore]
        exact .inr (.inr (.inr (.inr hmore)))

/-- An exchange on its own neither fails an opening nor opens anything outside the gateway. -/
theorem Opening.settle_inside (x : Exchange) :
    Opening.settle x ≠ .failed ∧ ∀ leftover, Opening.settle x ≠ .opened false leftover := by
  constructor
  · intro h
    cases x <;> cases h
  · intro leftover h
    cases x <;> cases h

/-- An opening fails only where a name has no address or `open_tcp` fails. -/
theorem Opening.next_eq_failed_iff {o : Opening} {r : Bytes} (h : o.received = some r) (target : Target)
    (port : UInt16) (e : OpeningEvent) :
    o.next target port e = .failed ↔
      (o = .resolving ∧ e = .resolved none ∧ resolveLiteral target = none) ∨
        (∃ dst, o = .dialling dst) ∧ e = .openTcp false := by
  constructor
  · intro hfail
    cases o with
    | opened viaGateway leftover => cases h
    | failed => cases h
    | resolving =>
      cases e with
      | gateway event => cases hfail
      | openTcp ok => cases hfail
      | resolved answer =>
        cases hlit : resolveLiteral target with
        | some ip => simp [Opening.next, hlit] at hfail
        | none =>
          cases answer with
          | some ip => simp [Opening.next, hlit] at hfail
          | none => exact .inl ⟨rfl, rfl, rfl⟩
    | dialling dst =>
      cases e with
      | gateway event => cases hfail
      | resolved answer => cases hfail
      | openTcp ok =>
        cases ok with
        | true => cases hfail
        | false => exact .inr ⟨⟨dst, rfl⟩, rfl⟩
    | exchange x =>
      cases e with
      | resolved answer => cases hfail
      | openTcp ok => cases hfail
      | gateway event => exact absurd hfail (Opening.settle_inside _).1
  · intro hcase
    rcases hcase with ⟨ho, he, hlit⟩ | ⟨⟨dst, ho⟩, he⟩
    · rw [ho, he, Opening.next, hlit]
      rfl
    · rw [ho, he]
      rfl

/-- An opening ends outside the gateway only where `open_tcp` succeeds. -/
theorem Opening.opened_outside {o : Opening} {target : Target} {port : UInt16} {e : OpeningEvent}
    {leftover : Bytes} (h : o.next target port e = .opened false leftover) :
    o = .opened false leftover ∨ (∃ dst, o = .dialling dst) ∧ e = .openTcp true := by
  cases o with
  | opened viaGateway bytes => cases e <;> exact .inl h
  | failed => cases e <;> cases h
  | resolving =>
    cases e with
    | gateway event => cases h
    | openTcp ok => cases h
    | resolved answer =>
      rw [Opening.next] at h
      split at h <;> cases h
  | dialling dst =>
    cases e with
    | gateway event => cases h
    | resolved answer => cases h
    | openTcp ok =>
      cases ok with
      | true => exact .inr ⟨⟨dst, rfl⟩, rfl⟩
      | false => cases h
  | exchange x =>
    cases e with
    | resolved answer => cases h
    | openTcp ok => cases h
    | gateway event => exact absurd h ((Opening.settle_inside _).2 leftover)

end Aether.Socks
