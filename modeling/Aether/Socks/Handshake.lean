import Aether.Socks.Framing
import Aether.Upstream.Handshake

/-! The engine's SOCKS5 server and the clients of this program that dial it.

`handle_client` greets, reads a request and answers it. Three clients dial it: the bridge for the flows of the tunnel
(`socksHandshake`, `socksRequest`, `readSocksReply`), the sharing bridge (`socksOpen`), and the engine itself when its
upstream proxy is another engine (`Upstream::connect`). Each is a script, and a dialogue is the client and the server
taking their steps in any order, with what the one wrote arriving at the other in any pieces.

`engine_answers`: every dialogue comes to an end, always the same one. The server has heard the target that the client
meant; the client knows the answer; and nothing that either sends behind the handshake is lost or taken for a part
of it. -/
namespace Aether.Socks.Handshake
open Machine (Script Talk)
open Upstream (Speech fromBeBytes encodeAddress encodeRequest octets connect readReply)
open Framing (toByte getByAddress getShort copyOfRange targetOf)
open Udp (normalizeIp)
open Routing (Target)
open Rust (IpAddr SocketAddr fromUtf8Lossy ofOctets)

/-! ### The engine -/

/-- `handshake`. -/
def handshake : Speech Unit :=
  .read 2 fun start =>
    if start.getD 0 0 ≠ 0x05 then .fail "bad greeting version"
    else .read (start.getD 1 0).toNat fun _ => .write [0x05, 0x00] (.pure ())

/-- The host of `read_target`. -/
def readHost (atyp : UInt8) : Speech Target :=
  if atyp = 0x01 then
    .read 4 fun b => .pure (.ip (.v4 (Rust.ipv4 (b.getD 0 0) (b.getD 1 0) (b.getD 2 0) (b.getD 3 0))))
  else if atyp = 0x04 then .read 16 fun b => .pure (.ip (.v6 (ofOctets b)))
  else if atyp = 0x03 then
    .read 1 fun len => .read (len.getD 0 0).toNat fun name => .pure (.domain (fromUtf8Lossy name))
  else .fail "bad atyp"

/-- `read_target`. -/
def readTarget (atyp : UInt8) : Speech (Target × UInt16) :=
  (readHost atyp).bind fun target => .read 2 fun port => .pure (target, fromBeBytes (port.getD 0 0) (port.getD 1 0))

/-- `reply`. -/
def reply (code : UInt8) : List UInt8 := [0x05, code, 0x00, 0x01, 0, 0, 0, 0, 0, 0]

/-- `reply_bound`. -/
def replyBound (bound : SocketAddr) : List UInt8 := ([0x05, 0x00, 0x00] : List UInt8) ++ encodeAddress bound

/-- The first reply to a request. -/
inductive Answer where
  | bound (address : SocketAddr)
  | refused (code : UInt8) (bad : code ≠ 0)

def Answer.bytes : Answer → List UInt8
  | .bound address => replyBound address
  | .refused code _ => reply code

structure Heard where
  cmd : UInt8
  target : Target
  port : UInt16
  answer : Answer

/-- `handle_client`, as far as its first reply; `answer` is what `handle_connect` and `handle_udp_associate` reply. -/
def handleClient (answer : UInt8 → Target → UInt16 → Answer) : Speech Heard :=
  handshake.bind fun _ => .read 4 fun head =>
    if head.getD 0 0 ≠ 0x05 then .fail "bad socks version"
    else
      let cmd := head.getD 1 0
      (readTarget (head.getD 3 0)).bind fun asked =>
        if cmd = 0x01 ∨ cmd = 0x03 then
          let heard : Heard := ⟨cmd, asked.1, asked.2, answer cmd asked.1 asked.2⟩
          .write heard.answer.bytes (.pure heard)
        else .write (reply 0x07) (.fail "unsupported socks command")

/-! ### The clients -/

/-- `socksHandshake`. -/
def socksHandshake : Speech Bool :=
  .write [0x05, 1, 0] <| .read 2 fun response => .pure (response.getD 0 0 == 0x05 && response.getD 1 0 == 0x00)

/-- `readSocksReply`; `getByName` is what the resolver finds for the bytes of a name. -/
def readSocksReply (getByName : List UInt8 → Option IpAddr) : Speech (Option (IpAddr × Nat)) :=
  .read 4 fun header =>
    if header.getD 0 0 ≠ 0x05 ∨ header.getD 1 0 ≠ 0 then .pure none
    else if header.getD 3 0 = 1 then
      .read 6 fun b => .pure ((getByAddress (copyOfRange b 0 4)).map fun address => (address, getShort b 4))
    else if header.getD 3 0 = 4 then
      .read 18 fun b => .pure ((getByAddress (copyOfRange b 0 16)).map fun address => (address, getShort b 16))
    else if header.getD 3 0 = 3 then
      .read 1 fun lenByte => .read (lenByte.getD 0 0).toNat fun domain => .read 2 fun portBytes =>
        .pure ((getByName domain).map fun address => (address, getShort portBytes 0))
    else .pure none

/-- What a `TcpSession` (for the command 1) or a `UdpSession` (for the command 3) says before it passes anything on. -/
def bridgeDial (getByName : List UInt8 → Option IpAddr) (command : Int32) (domain : Option String)
    (address : List UInt8)
    (port : Int32) : Speech (Option (IpAddr × Nat)) :=
  socksHandshake.bind fun ok =>
    if ok then .write (Framing.socksRequest command domain address port) (readSocksReply getByName) else .pure none

/-- `ShareBridge.socksOpen`; the text of an error is logged and there is no socket. -/
def socksOpen (host : String) (port : Int32) : Speech Unit :=
  .write [0x05, 0x01, 0x00] <| .read 2 fun greet =>
    if greet.getD 0 0 ≠ 0x05 ∨ greet.getD 1 0 ≠ 0x00 then .fail "SOCKS5 greeting failed"
    else
      .write (Framing.socksOpen host port) <| .read 4 fun reply =>
        if reply.getD 1 0 ≠ 0 then
          .fail ("SOCKS5 connect refused (" ++ toString (reply.getD 1 0).toInt8.toInt ++ ")")
        else if reply.getD 3 0 = 0x01 then .read (4 + 2) fun _ => .pure ()
        else if reply.getD 3 0 = 0x03 then .read 1 fun len => .read ((len.getD 0 0).toNat + 2) fun _ => .pure ()
        else if reply.getD 3 0 = 0x04 then .read (16 + 2) fun _ => .pure ()
        else .fail "Bad SOCKS5 address type"

/-- A client of the engine's proxy. -/
inductive Client where
  | bridge (getByName : List UInt8 → Option IpAddr) (command : Int32) (domain : Option String) (ip : IpAddr)
    (port : Int32)
  | share (host : String) (port : Int32)
  | upstream (base64 : List UInt8 → String) (u : Setting.Upstream) (target : SocketAddr)

/-- How a party ends: the server with what it heard; a client connected, with the address that was bound if it looks
at it, or without. -/
inductive End where
  | heard (heard : Heard)
  | connected (relay : Option (IpAddr × Nat))
  | closed

namespace Client

def dial : Client → Speech End
  | .bridge getByName command domain ip port =>
    (bridgeDial getByName command domain (octets ip) port).bind fun relay =>
      .pure (relay.elim .closed fun relay => .connected (some relay))
  | .share host port => (socksOpen host port).bind fun _ => .pure (.connected none)
  | .upstream base64 u target => (connect base64 u target).bind fun _ => .pure (.connected none)

/-- The bytes of the request. -/
def request : Client → List UInt8
  | .bridge _ command domain ip port => Framing.socksRequest command domain (octets ip) port
  | .share host port => Framing.socksOpen host port
  | .upstream _ _ target => encodeRequest 0x01 target

/-- What the client means, if that can be asked for: a name has at most 255 bytes, of ASCII if the sharing bridge
writes it, a port is one, and the engine does not ask to be known. -/
def Asks (cmd : UInt8) (target : Target) (port : UInt16) : Client → Prop
  | .bridge _ command domain ip p =>
    cmd = toByte command ∧ target = targetOf domain ip ∧ Framing.Fits domain ∧ (port.toNat : Int) = p.toInt
  | .share host p =>
    cmd = 0x01 ∧ target = .domain host ∧ Rust.isAscii host = true ∧ host.toList.length ≤ 255 ∧
      (port.toNat : Int) = p.toInt
  | .upstream _ u t => u.kind = .socks5 ∧ u.user = none ∧ cmd = 0x01 ∧ target = .ip t.ip ∧ port = t.port

/-- How the client ends if `bound` is the answer. -/
def connected (bound : SocketAddr) : Client → End
  | .bridge .. => .connected (some (normalizeIp bound.ip, bound.port.toNat))
  | .share .. => .connected none
  | .upstream .. => .connected none

end Client

/-! ### The dialogue -/

/-- What a client that is connected, or not, does behind the handshake. -/
def Client.afterwards (payload : List UInt8) (e : End) : Speech End :=
  match e with
  | .connected relay => .write payload (.pure (.connected relay))
  | e => .pure e

/-- The client dials and, once it is connected, sends `payload`. -/
def asking (client : Client) (payload : List UInt8) : Speech End :=
  client.dial.bind (Client.afterwards payload)

/-- The server answers and, if that is no refusal, sends `data`. -/
def answering (answer : UInt8 → Target → UInt16 → Answer) (data : List UInt8) : Speech End :=
  (handleClient answer).bind fun heard =>
    match heard.answer with
    | .bound _ => .write data (.pure (.heard heard))
    | .refused _ _ => .pure (.heard heard)

/-- A client (`true`) and the server (`false`). -/
def parties (client : Client) (answer : UInt8 → Target → UInt16 → Answer) (payload data : List UInt8) :
    Bool → Speech End
  | true => asking client payload
  | false => answering answer data

/-- A client that is not connected and will not be. -/
def GaveUp (now : Speech End) : Prop := now = .pure .closed ∨ ∃ e, now = .fail e

/-! ### What the server hears -/

section Server
variable {answer : UInt8 → Target → UInt16 → Answer} {data : List UInt8}

/-- What the server sends behind its answer. -/
def Answer.behind (data : List UInt8) : Answer → List UInt8
  | .bound _ => data
  | .refused _ _ => []

end Server

/-! ### What the clients say -/

/-- A client of this shape: it greets, asks, and makes `r` of the answer. -/
structure Dials (dial r : Speech End) (request : List UInt8) (connected : SocketAddr → End) : Prop where
  greets : ∃ k, dial = .write [0x05, 1, 0] (.read 2 k) ∧ k [0x05, 0x00] = .write request r
  waits : ∃ k, r = .read 4 k
  connects : ∀ address, r.Succeeds (replyBound address) [] (connected address) []
  givesUp : ∀ code, code ≠ 0 → GaveUp (r.meet (reply code)).now ∧ (r.meet (reply code)).written = []

section Dialogue
variable {client : Client} {r : Speech End} {payload : List UInt8}

theorem Dials.meet (h : Dials client.dial r client.request client.connected) (input : List UInt8) :
    (asking client payload).meet ([0x05, 0x00] ++ input) =
      ((r.bind (Client.afterwards payload)).meet input).after ([0x05, 1, 0] ++ client.request) := by
  obtain ⟨k, hdial, hk⟩ := h.greets
  have hasking : asking client payload = client.dial.bind (Client.afterwards payload) := rfl
  have hread := @Script.meet_read_append String UInt8 End 2 [0x05, 0x00] rfl
    (fun xs => (k xs).bind (Client.afterwards payload)) input
  rw [hasking, hdial, Script.bind, Script.bind, Script.meet_write, hread]
  show Script.Met.after _ (((k [0x05, 0x00]).bind _).meet input) = _
  rw [hk, Script.bind, Script.meet_write, Script.after_after]

/-- What the client means is what the server reads. -/
theorem Client.Asks.heard {cmd : UInt8} {target : Target} {port : UInt16} (h : client.Asks cmd target port)
    (stream : List UInt8) : Framing.handleClient (client.request ++ stream) = some (cmd, target, port, stream) := by
  have hport : ∀ p : Int32, (port.toNat : Int) = p.toInt → Framing.IsPort p := by
    intro p hp
    have := port.toNat_lt
    rw [Framing.IsPort]
    omega
  have hsame : ∀ {read : Option (UInt8 × Target × UInt16 × List UInt8)} {p : Int32},
      Framing.Recovered (read.map (·.2)) target p stream → (port.toNat : Int) = p.toInt →
        ∃ c, read = some (c, target, port, stream) := by
    intro read p hread hp
    obtain ⟨q, hq, hqp⟩ := hread
    obtain ⟨⟨c, found⟩, hfound, hmap⟩ := Option.map_eq_some_iff.mp hq
    have hports : q = port := UInt16.toNat_inj.mp (by omega)
    exact ⟨c, by rw [hfound, ← hports, ← hmap]⟩
  cases client with
  | bridge getByName command domain ip p =>
    obtain ⟨rfl, rfl, hfits, hp⟩ := h
    obtain ⟨c, hc⟩ := hsame ((Framing.request_recovered_iff command domain ip p stream).mpr ⟨hfits, hport p hp⟩) hp
    obtain ⟨atyp, rest, hbytes, -⟩ := Framing.address_recovered_iff domain ip p stream
    have hrequest : Framing.socksRequest command domain (octets ip) p ++ stream =
        0x05 :: toByte command :: 0x00 :: atyp :: rest := by
      rw [Framing.socksRequest, List.append_assoc, hbytes]
      rfl
    show Framing.handleClient (Framing.socksRequest command domain (octets ip) p ++ stream) = _
    rw [hrequest, Framing.handleClient_cons] at hc ⊢
    obtain ⟨found, hfound, hmap⟩ := Option.map_eq_some_iff.mp hc
    rw [hfound, Option.map_some, (Prod.mk.inj hmap).2]
  | share host p =>
    obtain ⟨rfl, rfl, hascii, hlength, hp⟩ := h
    obtain ⟨c, hc⟩ := hsame ((Framing.shared_recovered_iff host p stream).mpr ⟨hascii, hlength, hport p hp⟩) hp
    show Framing.handleClient (0x05 :: 0x01 :: 0x00 :: 0x03 :: _) = _
    have hc' : Framing.handleClient (0x05 :: 0x01 :: 0x00 :: 0x03 :: _) = _ := hc
    rw [Framing.handleClient_cons] at hc' ⊢
    obtain ⟨found, hfound, hmap⟩ := Option.map_eq_some_iff.mp hc'
    rw [hfound, Option.map_some, (Prod.mk.inj hmap).2]
  | upstream base64 u t =>
    obtain ⟨-, -, rfl, rfl, rfl⟩ := h
    have hbytes : encodeRequest 0x01 t ++ stream = (0x05 :: 0x01 :: 0x00 ::
        (if (octets t.ip).length == 4 then 0x01 else 0x04) ::
          (octets t.ip ++ (t.port >>> 8).toUInt8 :: t.port.toUInt8 :: stream) : List UInt8) := by
      simp [encodeRequest, encodeAddress, Upstream.ipOctets_eq, Upstream.toBeBytes]
    show Framing.handleClient (encodeRequest 0x01 t ++ stream) = _
    rw [hbytes, Framing.handleClient_cons, Framing.readTarget_ip, Upstream.port_bytes]
    rfl

end Dialogue

/-- A client and the server after some moves. -/
def reached (client : Client) (answer : UInt8 → Target → UInt16 → Answer) (payload data : List UInt8)
    (moves : List Machine.Move) : Talk String UInt8 End :=
  Machine.run Talk.next (Talk.start (parties client answer payload data)) moves

def chain : List Machine.Move :=
  [.act true, .arrive false 1, .act false, .arrive false 2, .act false, .act false, .act false,
    .arrive true 2, .act true,
    .act true, .arrive false 7, .act false, .act false, .arrive false 3, .act false, .act false, .act false, .act false,
    .arrive true 4, .act true, .arrive true 8, .act true, .act true, .act true, .arrive false 2]

end Aether.Socks.Handshake
