import Aether.Machine.Dialogue
import Aether.Upstream.Datagram
import Aether.Upstream.Setting
import Aether.Routing.Lists

/-! What the engine says to an upstream proxy, and what the proxy has to answer.

`Upstream::connect` greets a SOCKS5 proxy, shows its credentials if it is asked to, and asks for the target; it sends
an HTTP proxy one request and reads its head byte for byte. Each is a script, so that what it does depends on the bytes
of the proxy only, not on the pieces they come in.

`socks_connects` says which answers connect, and that what comes behind them is left for the caller; `socks_discloses`
what a proxy has to say before it sees the credentials and the target; `http_connects` where the head of the other
answer ends. -/
namespace Aether.Upstream
open Machine (Script)
open Rust (IpAddr SocketAddr toUtf8 fromUtf8Lossy ofOctets)
open Setting (Kind)

/-- What is said over a connection; an error is its text. -/
abbrev Speech (α : Type) := Script String UInt8 α

/-! ### SOCKS5 -/

/-- `encode_request`. -/
def encodeRequest (command : UInt8) (target : SocketAddr) : List UInt8 :=
  ([0x05, command, 0x00] : List UInt8) ++ encodeAddress target

/-- The first message of `socks_greet`. -/
def greeting (wantsAuth : Bool) : List UInt8 := [0x05, 1, if wantsAuth then 0x02 else 0x00]

/-- The message of `socks_authenticate`. -/
def credentials (user password : List UInt8) : List UInt8 :=
  ([0x01, UInt8.ofNat user.length] : List UInt8) ++ user ++ (UInt8.ofNat password.length :: password)

/-- `socks_authenticate`. -/
def socksAuthenticate (u : Setting.Upstream) : Speech Unit :=
  let user := toUtf8 (u.user.getD "")
  let password := toUtf8 (u.password.getD "")
  if user.length > 255 ∨ password.length > 255 then
    .fail "the upstream proxy credentials are longer than socks5 allows"
  else
    .write (credentials user password) <| .read 2 fun answer =>
      if answer.getD 0 0 ≠ 0x01 then
        .fail "the upstream proxy answered the password negotiation with the wrong version"
      else if answer.getD 1 0 ≠ 0x00 then .fail "the upstream proxy refused the credentials supplied"
      else .pure ()

/-- `socks_greet`. -/
def socksGreet (u : Setting.Upstream) : Speech Unit :=
  let wantsAuth := u.user.isSome
  .write (greeting wantsAuth) <| .read 2 fun answer =>
    if answer.getD 0 0 ≠ 0x05 then .fail "the upstream proxy did not speak socks5"
    else if answer.getD 1 0 = 0x00 then
      if wantsAuth then .fail "the upstream proxy skipped authentication even though credentials are configured"
      else .pure ()
    else if answer.getD 1 0 = 0x02 then socksAuthenticate u
    else if answer.getD 1 0 = 0xFF then .fail "the upstream proxy rejected every authentication method offered"
    else .fail ("the upstream proxy asked for authentication method " ++ toString (answer.getD 1 0).toNat ++
      ", which aether cannot do")

/-- The address in a reply. -/
def replyAddress (atyp : UInt8) : Speech IpAddr :=
  if atyp = 0x01 then
    .read 4 fun octets =>
      .pure (.v4 (Rust.ipv4 (octets.getD 0 0) (octets.getD 1 0) (octets.getD 2 0) (octets.getD 3 0)))
  else if atyp = 0x04 then .read 16 fun octets => .pure (.v6 (ofOctets octets))
  else if atyp = 0x03 then
    .read 1 fun length => .read (length.getD 0 0).toNat fun name =>
      .pure ((Rust.parseIp (fromUtf8Lossy name)).getD (.v4 0))
  else .fail ("the upstream proxy sent address type " ++ toString atyp.toNat ++ ", which aether cannot read")

/-- `read_reply`. -/
def readReply : Speech SocketAddr :=
  .read 4 fun head =>
    if head.getD 0 0 ≠ 0x05 then .fail "the upstream proxy answered with something other than socks5"
    else if head.getD 1 0 ≠ 0x00 then
      .fail ("the upstream proxy refused the request with code " ++ toString (head.getD 1 0).toNat)
    else (replyAddress (head.getD 3 0)).bind fun ip => .read 2 fun port =>
      .pure (.new ip (fromBeBytes (port.getD 0 0) (port.getD 1 0)))

/-! ### HTTP -/

/-- `format!("{target}")`. -/
def showTarget : SocketAddr → String
  | .v4 ip port => Rust.IpAddr.display (.v4 ip) ++ ":" ++ toString port.toNat
  | .v6 ip port _ scopeId =>
    "[" ++ Rust.IpAddr.display (.v6 ip) ++ (if scopeId = 0 then "" else "%" ++ toString scopeId.toNat) ++ "]:" ++
      toString port.toNat

/-- The request of `http_connect`; `base64` is what the engine encodes credentials with. -/
def connectRequest (base64 : List UInt8 → String) (u : Setting.Upstream) (target : SocketAddr) : String :=
  let authority := showTarget target
  let request := "CONNECT " ++ authority ++ " HTTP/1.1\r\nHost: " ++ authority ++
    "\r\nProxy-Connection: Keep-Alive\r\n"
  let request := match u.user with
    | some user =>
      request ++ "Proxy-Authorization: Basic " ++ base64 (toUtf8 (user ++ ":" ++ u.password.getD "")) ++ "\r\n"
    | none => request
  request ++ "\r\n"

/-- The loop of `http_connect`, with so much room left in the head. -/
def readHead : Nat → List UInt8 → Speech (List UInt8)
  | 0, _ => .fail "the upstream proxy sent an oversized answer"
  | room + 1, head => .read 1 fun byte =>
    if [13, 10, 13, 10] <:+ head ++ byte then .pure (head ++ byte) else readHead room (head ++ byte)

/-- The bytes that a head may have: it is looked whether there are more than 8192 before each is read. -/
@[irreducible]
def headRoom : Nat := 8193

/-- `http_status`. -/
def httpStatus (head : List UInt8) : Option UInt16 :=
  (Routing.lines (fromUtf8Lossy head)).head?.bind fun line =>
    match Rust.splitWhitespace line with
    | version :: rest => if Rust.startsWith "HTTP/" version then rest.head?.bind Rust.parseU16 else none
    | [] => none

/-- `http_connect`. -/
def httpConnect (base64 : List UInt8 → String) (u : Setting.Upstream) (target : SocketAddr) : Speech Unit :=
  .write (toUtf8 (connectRequest base64 u target)) <| (readHead headRoom []).bind fun head =>
    match httpStatus head with
    | none => .fail "the upstream proxy answer was not http"
    | some status =>
      if 200 ≤ status ∧ status < 300 then .pure ()
      else .fail ("the upstream proxy answered " ++ toString status.toNat ++ " to the connect")

/-- `Upstream::connect`, on the connection to the proxy. -/
def connect (base64 : List UInt8 → String) (u : Setting.Upstream) (target : SocketAddr) : Speech Unit :=
  match u.kind with
  | .socks5 => (socksGreet u).bind fun _ => .write (encodeRequest 0x01 target) <| readReply.bind fun _ => .pure ()
  | .http => httpConnect base64 u target

/-! ### Answers of a SOCKS5 proxy -/

/-- The credentials as they are written, if they fit. -/
def Fits (u : Setting.Upstream) : Prop :=
  (toUtf8 (u.user.getD "")).length ≤ 255 ∧ (toUtf8 (u.password.getD "")).length ≤ 255

/-- The address of a reply, by its type: four bytes, sixteen, or as many as the byte in front of them says. -/
inductive Bound : UInt8 → List UInt8 → Prop
  | v4 {octets : List UInt8} : octets.length = 4 → Bound 0x01 octets
  | v6 {octets : List UInt8} : octets.length = 16 → Bound 0x04 octets
  | name {length : UInt8} {name : List UInt8} : name.length = length.toNat → Bound 0x03 (length :: name)

/-- A proxy lets the client in with `answer`, after it was shown `shown`. -/
inductive Lets (u : Setting.Upstream) : (shown answer : List UInt8) → Prop
  | open_ : u.user = none → Lets u [] [0x05, 0x00]
  | known : Fits u → Lets u (credentials (toUtf8 (u.user.getD "")) (toUtf8 (u.password.getD "")))
      [0x05, 0x02, 0x01, 0x00]

/-- A reply that grants the request. -/
inductive Grants : List UInt8 → Prop
  | reply {rsv atyp hi lo : UInt8} {address : List UInt8} : Bound atyp address →
      Grants ([0x05, 0x00, rsv, atyp] ++ address ++ [hi, lo])

theorem replyAddress_succeeds {atyp : UInt8} {input written rest : List UInt8} :
    (∃ ip, (replyAddress atyp).Succeeds input written ip rest) ↔
      written = [] ∧ ∃ address, Bound atyp address ∧ input = address ++ rest := by
  refine ⟨fun h => ?_, fun h => ?_⟩
  · obtain ⟨ip, h⟩ := h
    rw [replyAddress] at h
    split at h
    · rename_i hatyp
      obtain ⟨xs, more, hlength, rfl, hpure⟩ := Script.succeeds_read.mp h
      obtain ⟨-, rfl, rfl⟩ := Script.succeeds_pure.mp hpure
      exact ⟨rfl, xs, hatyp ▸ .v4 hlength, rfl⟩
    · split at h
      · rename_i hatyp
        obtain ⟨xs, more, hlength, rfl, hpure⟩ := Script.succeeds_read.mp h
        obtain ⟨-, rfl, rfl⟩ := Script.succeeds_pure.mp hpure
        exact ⟨rfl, xs, hatyp ▸ .v6 hlength, rfl⟩
      · split at h
        · rename_i hatyp
          obtain ⟨xs, more, hlength, rfl, hread⟩ := Script.succeeds_read.mp h
          obtain ⟨length, rfl⟩ := List.length_eq_one_iff.mp hlength
          obtain ⟨name, more, hname, rfl, hpure⟩ := Script.succeeds_read.mp hread
          obtain ⟨-, rfl, rfl⟩ := Script.succeeds_pure.mp hpure
          exact ⟨rfl, length :: name, hatyp ▸ .name hname, rfl⟩
        · exact (Script.not_succeeds_fail h).elim
  · obtain ⟨rfl, address, hbound, rfl⟩ := h
    cases hbound with
    | v4 hlength => exact ⟨_, Script.succeeds_read.mpr ⟨_, _, hlength, rfl, Script.succeeds_pure.mpr ⟨rfl, rfl, rfl⟩⟩⟩
    | v6 hlength => exact ⟨_, Script.succeeds_read.mpr ⟨_, _, hlength, rfl, Script.succeeds_pure.mpr ⟨rfl, rfl, rfl⟩⟩⟩
    | @name length name hname =>
      refine ⟨(Rust.parseIp (fromUtf8Lossy name)).getD (.v4 0),
        Script.succeeds_read.mpr ⟨[length], name ++ rest, rfl, rfl, ?_⟩⟩
      exact Script.succeeds_read.mpr ⟨name, rest, hname, rfl, Script.succeeds_pure.mpr ⟨rfl, rfl, rfl⟩⟩

theorem length_eq_four {xs : List UInt8} (h : xs.length = 4) : ∃ a b c d, xs = [a, b, c, d] := by
  obtain ⟨a, xs, rfl⟩ := List.exists_of_length_succ xs h
  obtain ⟨b, c, d, rfl⟩ := List.length_eq_three.mp (Nat.succ.inj h)
  exact ⟨a, b, c, d, rfl⟩

theorem readReply_succeeds {input written rest : List UInt8} : (∃ bound, readReply.Succeeds input written bound rest) ↔
    written = [] ∧ ∃ reply, Grants reply ∧ input = reply ++ rest := by
  refine ⟨fun h => ?_, fun h => ?_⟩
  · obtain ⟨bound, h⟩ := h
    obtain ⟨head, more, hlength, rfl, hhead⟩ := Script.succeeds_read.mp h
    obtain ⟨ver, code, rsv, atyp, rfl⟩ := length_eq_four hlength
    split at hhead
    · exact (Script.not_succeeds_fail hhead).elim
    rename_i hver
    split at hhead
    · exact (Script.not_succeeds_fail hhead).elim
    rename_i hcode
    obtain ⟨ip, w, more, w', haddress, hport, rfl⟩ := Script.succeeds_bind.mp hhead
    obtain ⟨rfl, address, hbound, rfl⟩ := replyAddress_succeeds.mp ⟨ip, haddress⟩
    obtain ⟨port, more, hlength, rfl, hpure⟩ := Script.succeeds_read.mp hport
    obtain ⟨hi, lo, rfl⟩ := List.length_eq_two.mp hlength
    obtain ⟨-, rfl, rfl⟩ := Script.succeeds_pure.mp hpure
    obtain rfl : ver = 0x05 := of_not_not hver
    obtain rfl : code = 0x00 := of_not_not hcode
    have hgrants : Grants ([0x05, 0x00, rsv, atyp] ++ address ++ [hi, lo]) := .reply hbound
    refine ⟨rfl, _, hgrants, ?_⟩
    rw [List.append_assoc, List.append_assoc]
  · obtain ⟨rfl, reply, hgrants, rfl⟩ := h
    cases hgrants with
    | @reply rsv atyp hi lo address hbound =>
      obtain ⟨ip, hip⟩ := replyAddress_succeeds.mpr ⟨rfl, address, hbound, rfl⟩
      refine ⟨.new ip (fromBeBytes hi lo), Script.succeeds_read.mpr ⟨[0x05, 0x00, rsv, atyp],
        address ++ ([hi, lo] ++ rest),
        rfl, by simp, ?_⟩⟩
      refine Script.succeeds_bind.mpr ⟨ip, [], [hi, lo] ++ rest, [], hip, ?_, rfl⟩
      exact Script.succeeds_read.mpr ⟨[hi, lo], rest, rfl, rfl, Script.succeeds_pure.mpr ⟨rfl, rfl, rfl⟩⟩

theorem socksAuthenticate_succeeds {u : Setting.Upstream} {input written rest : List UInt8} :
    (socksAuthenticate u).Succeeds input written () rest ↔ Fits u ∧ input = [0x01, 0x00] ++ rest ∧
      written = credentials (toUtf8 (u.user.getD "")) (toUtf8 (u.password.getD "")) := by
  rw [socksAuthenticate]
  by_cases hfits : Fits u
  · have hroom : ¬ ((toUtf8 (u.user.getD "")).length > 255 ∨ (toUtf8 (u.password.getD "")).length > 255) := by
      rw [Fits] at hfits
      omega
    rw [if_neg hroom, Script.succeeds_write]
    refine ⟨fun h => ?_, fun h => ?_⟩
    · obtain ⟨w, rfl, hread⟩ := h
      obtain ⟨answer, more, hlength, rfl, hanswer⟩ := Script.succeeds_read.mp hread
      obtain ⟨ver, code, rfl⟩ := List.length_eq_two.mp hlength
      split at hanswer
      · exact (Script.not_succeeds_fail hanswer).elim
      rename_i hver
      split at hanswer
      · exact (Script.not_succeeds_fail hanswer).elim
      rename_i hcode
      obtain ⟨-, rfl, rfl⟩ := Script.succeeds_pure.mp hanswer
      obtain rfl : ver = 0x01 := of_not_not hver
      obtain rfl : code = 0x00 := of_not_not hcode
      exact ⟨hfits, rfl, List.append_nil _⟩
    · obtain ⟨-, rfl, rfl⟩ := h
      refine ⟨[], (List.append_nil _).symm, Script.succeeds_read.mpr ⟨[0x01, 0x00], rest, rfl, rfl, ?_⟩⟩
      exact Script.succeeds_pure.mpr ⟨rfl, rfl, rfl⟩
  · have hroom : (toUtf8 (u.user.getD "")).length > 255 ∨ (toUtf8 (u.password.getD "")).length > 255 := by
      rw [Fits] at hfits
      omega
    rw [if_pos hroom]
    exact iff_of_false Script.not_succeeds_fail (fun h => hfits h.1)

/-- A proxy lets the client in exactly by these answers. -/
theorem socksGreet_succeeds {u : Setting.Upstream} {input written rest : List UInt8} :
    (socksGreet u).Succeeds input written () rest ↔ ∃ shown answer, Lets u shown answer ∧ input = answer ++ rest ∧
      written = greeting u.user.isSome ++ shown := by
  rw [socksGreet, Script.succeeds_write]
  refine ⟨fun h => ?_, fun h => ?_⟩
  · obtain ⟨w, rfl, hread⟩ := h
    obtain ⟨answer, more, hlength, rfl, hanswer⟩ := Script.succeeds_read.mp hread
    obtain ⟨ver, method, rfl⟩ := List.length_eq_two.mp hlength
    split at hanswer
    · exact (Script.not_succeeds_fail hanswer).elim
    rename_i hver
    obtain rfl : ver = 0x05 := of_not_not hver
    split at hanswer
    · rename_i hmethod
      obtain rfl : method = 0x00 := hmethod
      split at hanswer
      · exact (Script.not_succeeds_fail hanswer).elim
      rename_i huser
      obtain ⟨-, rfl, rfl⟩ := Script.succeeds_pure.mp hanswer
      exact ⟨[], _, .open_ (by simpa using huser), rfl, rfl⟩
    · split at hanswer
      · rename_i hmethod
        obtain rfl : method = 0x02 := hmethod
        obtain ⟨hfits, rfl, rfl⟩ := socksAuthenticate_succeeds.mp hanswer
        exact ⟨_, _, .known hfits, rfl, rfl⟩
      · split at hanswer
        · exact (Script.not_succeeds_fail hanswer).elim
        · exact (Script.not_succeeds_fail hanswer).elim
  · obtain ⟨shown, answer, hlets, rfl, rfl⟩ := h
    refine ⟨shown, rfl, ?_⟩
    cases hlets with
    | open_ huser =>
      refine Script.succeeds_read.mpr ⟨[0x05, 0x00], rest, rfl, rfl, ?_⟩
      rw [huser]
      exact Script.succeeds_pure.mpr ⟨rfl, rfl, rfl⟩
    | known hfits =>
      refine Script.succeeds_read.mpr ⟨[0x05, 0x02], [0x01, 0x00] ++ rest, rfl, rfl, ?_⟩
      exact socksAuthenticate_succeeds.mpr ⟨hfits, rfl, rfl⟩

/-! ### What a SOCKS5 proxy sees -/

theorem silent_replyAddress (atyp : UInt8) : (replyAddress atyp).Silent := by
  rw [replyAddress]
  split
  · exact fun _ => trivial
  · split
    · exact fun _ => trivial
    · split
      · exact fun _ _ => trivial
      · exact trivial

theorem silent_readReply : readReply.Silent := by
  intro head
  show (if head.getD 0 0 ≠ 0x05 then _ else _ : Speech SocketAddr).Silent
  split
  · exact trivial
  · split
    · exact trivial
    · exact (silent_replyAddress _).bind (fun _ _ => trivial)

theorem socksAuthenticate_written (u : Setting.Upstream) (input : List UInt8) :
    ((socksAuthenticate u).meet input).written = [] ∨ Fits u ∧ ((socksAuthenticate u).meet input).written =
      credentials (toUtf8 (u.user.getD "")) (toUtf8 (u.password.getD "")) := by
  rw [socksAuthenticate]
  split
  · exact .inl rfl
  · rename_i hroom
    refine .inr ⟨by rw [Fits]; omega, ?_⟩
    rw [Script.meet_write, Script.Met.after, Script.Silent.written, List.append_nil]
    intro answer
    dsimp only
    split
    · exact trivial
    · split
      · exact trivial
      · exact trivial

/-- The credentials are shown to a proxy that asks for them, and to no other. -/
theorem socksGreet_written (u : Setting.Upstream) (input : List UInt8) :
    ((socksGreet u).meet input).written = greeting u.user.isSome ∨ Fits u ∧ [0x05, 0x02] <+: input ∧
      ((socksGreet u).meet input).written =
        greeting u.user.isSome ++ credentials (toUtf8 (u.user.getD "")) (toUtf8 (u.password.getD "")) := by
  rw [socksGreet, Script.meet_write, Script.Met.after]
  by_cases hlength : input.length < 2
  · rw [Script.meet_read_short hlength]
    exact .inl (List.append_nil _)
  obtain ⟨ver, method, rest, rfl⟩ : ∃ ver method rest, input = ver :: method :: rest := by
    rcases input with _ | ⟨ver, _ | ⟨method, rest⟩⟩
    · simp at hlength
    · simp at hlength
    · exact ⟨ver, method, rest, rfl⟩
  have hread := @Script.meet_read_append String UInt8 Unit 2 [ver, method] rfl
  rw [show ver :: method :: rest = [ver, method] ++ rest from rfl, hread]
  split
  · exact .inl (List.append_nil _)
  rename_i hver
  split
  · split
    · exact .inl (List.append_nil _)
    · exact .inl (List.append_nil _)
  split
  · rename_i hmethod
    obtain rfl : ver = 0x05 := of_not_not hver
    obtain rfl : method = 0x02 := hmethod
    rcases socksAuthenticate_written u rest with hnone | ⟨hfits, hshown⟩
    · rw [hnone]
      exact .inl (List.append_nil _)
    · rw [hshown]
      exact .inr ⟨hfits, ⟨rest, rfl⟩, rfl⟩
  split
  · exact .inl (List.append_nil _)
  · exact .inl (List.append_nil _)

section Connect
variable (base64 : List UInt8 → String) (u : Setting.Upstream) (target : SocketAddr)

theorem connect_eq (hkind : u.kind = .socks5) : connect base64 u target =
    (socksGreet u).bind fun _ => .write (encodeRequest 0x01 target) <| readReply.bind fun _ => .pure () := by
  rw [connect, hkind]

theorem connect_succeeds (hkind : u.kind = .socks5) {input written rest : List UInt8} :
    (connect base64 u target).Succeeds input written () rest ↔
      ∃ shown answer reply, Lets u shown answer ∧ Grants reply ∧ input = answer ++ reply ++ rest ∧
        written = greeting u.user.isSome ++ shown ++ encodeRequest 0x01 target := by
  rw [connect_eq base64 u target hkind]
  refine ⟨fun h => ?_, fun h => ?_⟩
  · obtain ⟨⟨⟩, w, more, w', hgreet, hrest, rfl⟩ := Script.succeeds_bind.mp h
    obtain ⟨shown, answer, hlets, rfl, rfl⟩ := socksGreet_succeeds.mp hgreet
    obtain ⟨w, rfl, hread⟩ := Script.succeeds_write.mp hrest
    obtain ⟨bound, w, more, w', hreply, hpure, rfl⟩ := Script.succeeds_bind.mp hread
    obtain ⟨rfl, reply, hgrants, rfl⟩ := readReply_succeeds.mp ⟨bound, hreply⟩
    obtain ⟨-, rfl, rfl⟩ := Script.succeeds_pure.mp hpure
    exact ⟨shown, answer, reply, hlets, hgrants, (List.append_assoc ..).symm, by simp⟩
  · obtain ⟨shown, answer, reply, hlets, hgrants, rfl, rfl⟩ := h
    obtain ⟨bound, hreply⟩ := readReply_succeeds.mpr ⟨rfl, reply, hgrants, rfl⟩
    refine Script.succeeds_bind.mpr ⟨(), _, reply ++ rest, encodeRequest 0x01 target,
      socksGreet_succeeds.mpr ⟨shown, answer, hlets, List.append_assoc .., rfl⟩, ?_, rfl⟩
    refine Script.succeeds_write.mpr ⟨[], (List.append_nil _).symm, ?_⟩
    exact Script.succeeds_bind.mpr ⟨bound, [], rest, [], hreply, Script.succeeds_pure.mpr ⟨rfl, rfl, rfl⟩, rfl⟩

/-- What a proxy has to answer, in whatever pieces, for the engine to be connected: it lets it in and grants the
request, and what comes behind that is left unread. And whatever it answers, it sees the credentials only if it asked
for them, and the target only if it let the engine in. -/
theorem socks_connects (hkind : u.kind = .socks5) (pieces : List (List UInt8)) :
    (∀ written rest, pieces.foldl Script.Met.more ((connect base64 u target).meet []) = ⟨.pure (), written, rest⟩ ↔
      ∃ shown answer reply, Lets u shown answer ∧ Grants reply ∧ pieces.flatten = answer ++ reply ++ rest ∧
        written = greeting u.user.isSome ++ shown ++ encodeRequest 0x01 target) ∧
    ∀ written, (pieces.foldl Script.Met.more ((connect base64 u target).meet [])).written = written →
      written = greeting u.user.isSome ∨
      Fits u ∧ [0x05, 0x02] <+: pieces.flatten ∧
        written = greeting u.user.isSome ++ credentials (toUtf8 (u.user.getD "")) (toUtf8 (u.password.getD "")) ∨
      ∃ shown answer, Lets u shown answer ∧ answer <+: pieces.flatten ∧
        written = greeting u.user.isSome ++ shown ++ encodeRequest 0x01 target := by
  rw [Script.foldl_more]
  generalize pieces.flatten = input
  refine ⟨fun written rest => connect_succeeds base64 u target hkind, ?_⟩
  rw [connect_eq base64 u target hkind]
  intro written hwritten
  subst hwritten
  by_cases hpure : ∃ c, ((socksGreet u).meet input).now = .pure c
  swap
  · rw [Script.written_bind (fun c hc => hpure ⟨c, hc⟩)]
    exact (socksGreet_written u input).imp_right .inl
  obtain ⟨c, hc⟩ := hpure
  have hgreet : (socksGreet u).Succeeds input ((socksGreet u).meet input).written ()
      ((socksGreet u).meet input).left := by
    rw [Script.Succeeds]
    conv => rhs; rw [← hc]
  obtain ⟨shown, answer, hlets, hinput, hshown⟩ := socksGreet_succeeds.mp hgreet
  refine .inr (.inr ⟨shown, answer, hlets, ⟨_, hinput.symm⟩, ?_⟩)
  have hsilent : (readReply.bind fun _ => (.pure () : Speech Unit)).Silent := silent_readReply.bind (fun _ => trivial)
  rw [Script.meet_bind, hc, hshown, Script.bind, Script.meet_write, Script.after_after, Script.Met.after,
    hsilent.written, List.append_nil]

/-- A proxy that the engine is known to. -/
def knownProxy : Setting.Upstream := ⟨.socks5, "proxy", 1080, some "a", some "b"⟩

/-- It asks for the credentials; its answers come in four pieces, the last with the first byte of the stream. -/
theorem socks_connects_known :
    ([[0x05], [0x02, 0x01], [0x00, 0x05, 0x00, 0x00, 0x01, 0], [0, 0, 0, 0, 80, 42]] : List (List UInt8)).foldl
      Script.Met.more ((connect (fun _ => "") knownProxy (.v4 0 80)).meet []) =
      ⟨.pure (), [0x05, 1, 0x02, 0x01, 1, 97, 1, 98, 0x05, 0x01, 0x00, 0x01, 0, 0, 0, 0, 0, 80], [42]⟩ := by
  have hfits : Fits knownProxy := ⟨by decide, by decide⟩
  have hgrants : Grants ([0x05, 0x00, 0x00, 0x01] ++ [0, 0, 0, 0] ++ [0, 80]) := .reply (.v4 rfl)
  have h := socks_connects (fun _ => "") knownProxy (.v4 0 80) rfl
    [[0x05], [0x02, 0x01], [0x00, 0x05, 0x00, 0x00, 0x01, 0], [0, 0, 0, 0, 80, 42]]
  exact (h.1 _ _).mpr ⟨_, _, _, .known hfits, hgrants, rfl, by decide⟩

/-! ### The head of an HTTP answer -/

/-- The first empty line ends a head. -/
def IsHead (head : List UInt8) : Prop := [13, 10, 13, 10] <:+ head ∧ ∀ part, part <+: head → [13, 10, 13, 10] <:+ part →
  part = head

theorem readHead_succeeds (room : Nat) (head : List UInt8) {input written found rest : List UInt8}
    (hhead : ¬ [13, 10, 13, 10] <:+ head) : (readHead room head).Succeeds input written found rest ↔
      written = [] ∧ ∃ taken, input = taken ++ rest ∧ found = head ++ taken ∧ taken.length ≤ room ∧
        [13, 10, 13, 10] <:+ found ∧ ∀ part, part <+: taken → [13, 10, 13, 10] <:+ head ++ part → part = taken := by
  induction room generalizing head input with
  | zero =>
    refine iff_of_false Script.not_succeeds_fail ?_
    intro h
    obtain ⟨-, taken, -, rfl, hroom, hends, -⟩ := h
    rw [List.length_eq_zero_iff.mp (Nat.le_zero.mp hroom), List.append_nil] at hends
    exact hhead hends
  | succ room ih =>
    rw [readHead, Script.succeeds_read]
    refine ⟨fun h => ?_, fun h => ?_⟩
    · obtain ⟨bytes, more, hlength, rfl, h⟩ := h
      obtain ⟨byte, rfl⟩ := List.length_eq_one_iff.mp hlength
      split at h
      · rename_i hends
        obtain ⟨rfl, rfl, rfl⟩ := Script.succeeds_pure.mp h
        refine ⟨rfl, [byte], rfl, rfl, by simp, hends, ?_⟩
        intro part hpart hpartEnds
        rcases List.prefix_cons_iff.mp hpart with rfl | ⟨t, rfl, ht⟩
        · rw [List.append_nil] at hpartEnds
          exact absurd hpartEnds hhead
        · rw [List.prefix_nil.mp ht]
      · rename_i hnot
        obtain ⟨rfl, taken, rfl, rfl, hroom, hends, hfirst⟩ := (ih _ hnot).mp h
        refine ⟨rfl, byte :: taken, rfl, by simp, by simpa using hroom, hends, ?_⟩
        intro part hpart hpartEnds
        rcases List.prefix_cons_iff.mp hpart with rfl | ⟨t, rfl, ht⟩
        · rw [List.append_nil] at hpartEnds
          exact absurd hpartEnds hhead
        · rw [hfirst t ht (by simpa using hpartEnds)]
    · obtain ⟨rfl, taken, rfl, rfl, hroom, hends, hfirst⟩ := h
      rcases taken with _ | ⟨byte, taken⟩
      · rw [List.append_nil] at hends
        exact absurd hends hhead
      refine ⟨[byte], taken ++ rest, rfl, rfl, ?_⟩
      split
      · rename_i hone
        have hlast := hfirst [byte] ⟨taken, rfl⟩ hone
        injection hlast with _ hnil
        subst hnil
        exact Script.succeeds_pure.mpr ⟨rfl, rfl, rfl⟩
      · rename_i hnot
        refine (ih _ hnot).mpr ⟨rfl, taken, rfl, by simp, by simpa using hroom, hends, ?_⟩
        intro part hpart hpartEnds
        have hsame := hfirst (byte :: part) ((List.prefix_cons_inj byte).mpr hpart) (by simpa using hpartEnds)
        injection hsame

/-- An HTTP proxy connects the engine exactly by an answer of a successful status whose head has at most 8193 bytes;
what comes behind the first empty line is left unread, in whatever pieces it came. -/
theorem http_connects (hkind : u.kind = .http) (pieces : List (List UInt8)) (written rest : List UInt8) :
    pieces.foldl Script.Met.more ((connect base64 u target).meet []) = ⟨.pure (), written, rest⟩ ↔
      written = toUtf8 (connectRequest base64 u target) ∧ ∃ head status, IsHead head ∧ head.length ≤ 8193 ∧
        pieces.flatten = head ++ rest ∧ httpStatus head = some status ∧ 200 ≤ status ∧ status < 300 := by
  have hempty : ¬ [13, 10, 13, 10] <:+ ([] : List UInt8) := by decide
  have hroom : headRoom = 8193 := by rw [headRoom]
  rw [Script.foldl_more, connect, hkind, httpConnect, ← hroom]
  refine ⟨fun h => ?_, fun h => ?_⟩
  · obtain ⟨w, rfl, hanswer⟩ := Script.succeeds_write.mp h
    obtain ⟨head, w, more, w', hread, hhead, rfl⟩ := Script.succeeds_bind.mp hanswer
    obtain ⟨rfl, taken, htaken, rfl, hle, hends, hfirst⟩ := (readHead_succeeds _ _ hempty).mp hread
    cases hstatus : httpStatus head with
    | none =>
      rw [hstatus] at hhead
      exact (Script.not_succeeds_fail hhead).elim
    | some status =>
      rw [hstatus] at hhead
      dsimp only at hhead
      split at hhead
      · rename_i hok
        obtain ⟨-, rfl, rfl⟩ := Script.succeeds_pure.mp hhead
        exact ⟨by simp, head, status, ⟨hends, hfirst⟩, hle, htaken, hstatus, hok⟩
      · exact (Script.not_succeeds_fail hhead).elim
  · obtain ⟨rfl, head, status, hhead, hle, hpieces, hstatus, hok⟩ := h
    refine Script.succeeds_write.mpr ⟨[], (List.append_nil _).symm,
      Script.succeeds_bind.mpr ⟨head, [], rest, [], ?_, ?_, rfl⟩⟩
    · exact (readHead_succeeds _ _ hempty).mpr ⟨rfl, head, hpieces, rfl, hle, hhead.1, hhead.2⟩
    · rw [hstatus]
      dsimp only
      rw [if_pos hok]
      exact Script.succeeds_pure.mpr ⟨rfl, rfl, rfl⟩

end Connect

def httpProxy : Setting.Upstream := ⟨.http, "proxy", 8080, none, none⟩

/-- An answer that comes in two pieces, the second with the first bytes of the stream. -/
theorem http_connects_split :
    [toUtf8 "HTTP/1.1 200 OK\r\n\r", 10 :: toUtf8 "hello"].foldl Script.Met.more ((connect (fun _ => "")
      httpProxy (.v4 0 80)).meet []) =
      ⟨.pure (), toUtf8 (connectRequest (fun _ => "") httpProxy (.v4 0 80)), toUtf8 "hello"⟩ := by
  have hfirst : ∀ part ∈ (toUtf8 "HTTP/1.1 200 OK\r\n\r\n").inits, [13, 10, 13, 10] <:+ part →
      part = toUtf8 "HTTP/1.1 200 OK\r\n\r\n" := by decide
  have hhead : IsHead (toUtf8 "HTTP/1.1 200 OK\r\n\r\n") :=
    ⟨by decide, fun part hpart => hfirst part ((List.mem_inits part _).mpr hpart)⟩
  exact (http_connects (fun _ => "") httpProxy (.v4 0 80) rfl _ _ _).mpr
    ⟨rfl, toUtf8 "HTTP/1.1 200 OK\r\n\r\n", 200, hhead, by decide, by decide, by decide, by decide, by decide⟩

end Aether.Upstream
