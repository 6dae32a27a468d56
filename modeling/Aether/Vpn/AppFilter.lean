import Aether.Bridge.UidFilter
import Aether.Profile.Model
import Aether.Machine.Run

/-! Apps without internet.

A blocked app is kept off the network in two steps: the TUN captures its packets, and the
bridge that serves the TUN drops them. The first is decided by `applyAppFilter` and the
routes of `establishTun`, the second by `startTun2Socks`, which serves the TUN with the
bridge unless Psiphon is chained.

After a successful attempt a blocked app has no internet exactly if neither Psiphon is
chained, nor an allow-list was built without the app, nor the default route of IPv6 was
left out (`noInternet_iff`). What the system does for the bridge is taken as documented: a
packet goes into the TUN if its app is captured and its family routed, and past it
otherwise. -/
namespace Aether.Vpn.AppFilter
open Machine Profile Bridge.UidFilter

/-! ### Establishing the TUN -/

structure Device where
  /-- This app's own. -/
  packageName : String
  /-- `getApplicationInfo(pkg).uid`, for the packages that are installed. -/
  uid : String → Option Nat

def Device.installed (d : Device) (pkg : String) : Bool := (d.uid pkg).isSome

/-- What the VPN builder was told about apps and about the route `::/0`; that of IPv4 is
always there. -/
structure Builder where
  allowed : List String := []
  disallowed : List String := []
  ipv6Route : Bool := false
  deriving DecidableEq, Repr

/-- `safeAllow`: the builder refuses packages that are not installed, and an allow-list
beside a disallow-list. -/
def safeAllow (d : Device) (pkg : String) (b : Builder) : Builder :=
  if d.installed pkg && b.disallowed.isEmpty then {b with allowed := b.allowed ++ [pkg]} else b

/-- `safeDisallow` -/
def safeDisallow (d : Device) (pkg : String) (b : Builder) : Builder :=
  if d.installed pkg && b.allowed.isEmpty then {b with disallowed := b.disallowed ++ [pkg]} else b

/-- The chosen apps. -/
def apps (d : Device) (p : ConnectionProfile) : List String :=
  p.splitApps.filter fun a => !Kotlin.isBlank a && a != d.packageName

/-- `applyAppFilter` -/
def applyAppFilter (d : Device) (p : ConnectionProfile) (b : Builder) : Builder :=
  match p.splitMode with
  | .include =>
    if (apps d p).isEmpty then safeDisallow d d.packageName b
    else (apps d p).foldl (fun b a => safeAllow d a b) b
  | .exclude =>
    ((apps d p).filter fun a => !p.blockedApps.contains a).foldl (fun b a => safeDisallow d a b)
      (safeDisallow d d.packageName b)
  | .off => safeDisallow d d.packageName b

/-- `establishTun` -/
def establishTun (d : Device) (p : ConnectionProfile) : Builder :=
  applyAppFilter d p {ipv6Route := p.ipv6LeakProtection}

inductive Forwarder where
  /-- `SocksTunBridge` with `currentBlockedUids`. -/
  | bridge (blocked : List Int)
  /-- `hev-socks5-tunnel` -/
  | hev
  deriving DecidableEq, Repr

/-- The owners of the blocked apps that are installed. -/
def currentBlockedUids (d : Device) (p : ConnectionProfile) : List Int :=
  p.blockedApps.filterMap fun pkg => (d.uid pkg).map Int.ofNat

/-- `startTun2Socks` -/
def startTun2Socks (d : Device) (p : ConnectionProfile) (isPsiphon : Bool) : Forwarder :=
  if !p.blockedApps.isEmpty && !isPsiphon then .bridge (currentBlockedUids d p) else .hev

structure Tun where
  builder : Builder
  forwarder : Forwarder

/-- How the parts of an attempt end. -/
structure Outcome where
  /-- The engine opens its port in time. -/
  opened : Bool := true
  /-- The engine is alive when it did not. -/
  alive : Bool := true
  psiphonOpened : Bool := true
  shareReady : Bool := true
  /-- `establish()` returns a descriptor. -/
  established : Bool := true
  healthy : Bool := true

inductive Failure where
  | engineDied
  | engineTimeout
  | psiphonTimeout
  | proxyPorts
  | establish
  | selfTest
  deriving DecidableEq, Repr

/-- `connectAttempt`; proxy mode leaves no TUN behind. -/
def connectAttempt (d : Device) (p : ConnectionProfile) (o : Outcome) : Except Failure (Option Tun) := do
  if !o.opened then
    throw (if o.alive then .engineTimeout else .engineDied)
  if p.isChainedPsiphon && !o.psiphonOpened then
    throw .psiphonTimeout
  let tun ←
    if p.proxyMode then
      if !o.shareReady then throw .proxyPorts else pure none
    else if !o.established then throw .establish
    else pure (some {builder := establishTun d p, forwarder := startTun2Socks d p p.isChainedPsiphon})
  if !o.healthy then
    throw .selfTest
  return tun

/-! ### Traffic -/

/-- An allow-list captures its apps; without one everything but the disallow-list is. -/
def Builder.captures (b : Builder) (app : String) : Bool :=
  if b.allowed.isEmpty then !b.disallowed.contains app else b.allowed.contains app

/-- The TUN has a default route for the packet's family. -/
def Builder.routes (b : Builder) (packet : List UInt8) : Bool := version packet != 6 || b.ipv6Route

structure Traffic where
  sessions : Sessions := fun _ => none
  /-- The apps that a packet has been forwarded for or sent directly, in order. -/
  reached : List String := []

inductive Event where
  /-- An app sends a packet; `a` is what the bridge sees of it. -/
  | sent (app : String) (a : Arrival)
  /-- A session is over. -/
  | expired (key : FlowKey)

def Tun.next (t : Tun) : Event → Traffic → Traffic
  | .sent app a, s =>
    if t.builder.captures app && t.builder.routes a.packet then
      match t.forwarder with
      | .hev => {s with reached := s.reached ++ [app]}
      | .bridge blocked =>
        match processPacket blocked a s.sessions with
        | (.forwarded, sessions) => {sessions, reached := s.reached ++ [app]}
        | (_, sessions) => {s with sessions}
    else {s with reached := s.reached ++ [app]}
  | .expired key, s => {s with sessions := Function.update s.sessions key none}

/-- The system attributes the packets of `app` to `uid`. -/
def Attributes (app : String) (uid : Nat) (e : Event) (s : Traffic) : Prop :=
  ∀ a, e = .sent app a → Attributed uid a s.sessions

/-- The app is captured, the TUN is served by the bridge, and as long as its packets are
attributed to it none of them is forwarded or sent directly. -/
structure NoInternet (t : Tun) (app : String) (uid : Nat) : Prop where
  captured : t.builder.captures app = true
  bridged : ∃ blocked, t.forwarder = .bridge blocked
  cutOff : ∀ events, Along t.next (Attributes app uid) {} events →
    ∀ s ∈ visited t.next {} events, app ∉ s.reached

/-! ### The lists -/

section Lists
variable (d : Device)

theorem safeAllow_eq (pkg : String) {b : Builder} (h : b.disallowed = []) :
    safeAllow d pkg b = {b with allowed := b.allowed ++ [pkg].filter d.installed} := by
  unfold safeAllow
  cases hpkg : d.installed pkg <;> simp [h, hpkg]
  rw [← h]

theorem safeDisallow_eq (pkg : String) {b : Builder} (h : b.allowed = []) :
    safeDisallow d pkg b = {b with disallowed := b.disallowed ++ [pkg].filter d.installed} := by
  unfold safeDisallow
  cases hpkg : d.installed pkg <;> simp [h, hpkg]
  rw [← h]

theorem foldl_safeAllow (pkgs : List String) (b : Builder) (h : b.disallowed = []) :
    pkgs.foldl (fun b a => safeAllow d a b) b = {b with allowed := b.allowed ++ pkgs.filter d.installed} := by
  induction pkgs generalizing b with
  | nil => simp
  | cons a rest ih =>
    rw [List.foldl_cons, safeAllow_eq d a h, ih]
    · rw [List.append_assoc, ← List.filter_append]
      rfl
    · exact h

theorem foldl_safeDisallow (pkgs : List String) (b : Builder) (h : b.allowed = []) :
    pkgs.foldl (fun b a => safeDisallow d a b) b =
      {b with disallowed := b.disallowed ++ pkgs.filter d.installed} := by
  induction pkgs generalizing b with
  | nil => simp
  | cons a rest ih =>
    rw [List.foldl_cons, safeDisallow_eq d a h, ih]
    · rw [List.append_assoc, ← List.filter_append]
      rfl
    · exact h

/-- The packages that are kept out of the TUN, where there is no allow-list. -/
def excluded (p : ConnectionProfile) : List String :=
  match p.splitMode with
  | .exclude => d.packageName :: (apps d p).filter fun a => !p.blockedApps.contains a
  | _ => [d.packageName]

/-- The packages of the allow-list. -/
def included (p : ConnectionProfile) : List String :=
  match p.splitMode with
  | .include => apps d p
  | _ => []

theorem establishTun_eq (p : ConnectionProfile) : establishTun d p =
    if (included d p).isEmpty then
      {disallowed := (excluded d p).filter d.installed, ipv6Route := p.ipv6LeakProtection}
    else {allowed := (included d p).filter d.installed, ipv6Route := p.ipv6LeakProtection} := by
  unfold establishTun applyAppFilter included excluded
  cases p.splitMode
  · exact safeDisallow_eq d _ rfl
  · dsimp only
    split
    · exact safeDisallow_eq d _ rfl
    · exact foldl_safeAllow d _ _ rfl
  · dsimp only
    rw [safeDisallow_eq d _ rfl, foldl_safeDisallow d _ _ rfl]
    dsimp only
    rw [List.nil_append, ← List.filter_append]
    rfl

/-- No allow-list leaves the app out. -/
def Allowed (p : ConnectionProfile) (app : String) : Prop :=
  p.splitMode = .include → (∀ a ∈ apps d p, d.installed a = false) ∨ app ∈ apps d p

variable {d}

/-- A blocked app is captured unless an allow-list leaves it out. -/
theorem captures_establishTun_iff {p : ConnectionProfile} {app : String} (hblocked : app ∈ p.blockedApps)
    (hinstalled : d.installed app = true) (hself : app ≠ d.packageName) :
    (establishTun d p).captures app = true ↔ Allowed d p app := by
  have hnot : app ∉ excluded d p := by
    unfold excluded
    split
    · intro hmem
      rcases List.mem_cons.mp hmem with hmem | hmem
      · exact hself hmem
      · have := (List.mem_filter.mp hmem).2
        rw [List.contains_iff_mem.mpr hblocked] at this
        cases this
    · exact fun hmem => hself (List.mem_singleton.mp hmem)
  have hopen : ∀ route, ({disallowed := (excluded d p).filter d.installed, ipv6Route := route} : Builder).captures app
      = true := by
    intro route
    have hfree : ((excluded d p).filter d.installed).contains app = false := by
      rw [← Bool.not_eq_true, List.contains_iff_mem]
      exact fun hmem => hnot (List.mem_filter.mp hmem).1
    show (!((excluded d p).filter d.installed).contains app) = true
    rw [hfree]
    rfl
  rw [establishTun_eq]
  by_cases hmode : p.splitMode = .include
  · have hincluded : included d p = apps d p := by simp only [included, hmode]
    rw [hincluded]
    have hallowed : Allowed d p app ↔ (∀ a ∈ apps d p, d.installed a = false) ∨ app ∈ apps d p :=
      ⟨fun h => h hmode, fun h _ => h⟩
    rw [hallowed]
    cases hlist : (apps d p).filter d.installed with
    | nil =>
      have hnone : ∀ a ∈ apps d p, d.installed a = false := by
        intro a ha
        exact Bool.eq_false_iff.mpr (List.filter_eq_nil_iff.mp hlist a ha)
      refine iff_of_true ?_ (.inl hnone)
      split
      · exact hopen _
      · rfl
    | cons first rest =>
      have hfirst : first ∈ (apps d p).filter d.installed := by
        rw [hlist]
        exact List.mem_cons_self ..
      obtain ⟨hmem, hinst⟩ := List.mem_filter.mp hfirst
      rw [if_neg (by rw [List.isEmpty_iff]; exact List.ne_nil_of_mem hmem)]
      show (first :: rest).contains app = true ↔ _
      rw [← hlist, List.contains_iff_mem, List.mem_filter, and_iff_left hinstalled]
      constructor
      · exact .inr
      · intro h
        apply h.resolve_left
        intro hnone
        rw [hnone first hmem] at hinst
        cases hinst
  · have hincluded : included d p = [] := by
      unfold included
      split
      · rename_i h
        exact absurd h hmode
      · rfl
    rw [hincluded]
    exact iff_of_true (hopen _) fun h => absurd h hmode

end Lists

/-! ### After an attempt -/

/-- An attempt that succeeds outside proxy mode leaves the TUN of the profile. -/
theorem connectAttempt_eq {d : Device} {p : ConnectionProfile} {o : Outcome} {t : Tun} (hproxy : p.proxyMode = false)
    (h : connectAttempt d p o = .ok (some t)) :
    t = {builder := establishTun d p, forwarder := startTun2Socks d p p.isChainedPsiphon} := by
  unfold connectAttempt at h
  rw [hproxy] at h
  cases hopened : o.opened <;> cases hestablished : o.established <;> cases hhealthy : o.healthy <;>
    cases hpsiphon : p.isChainedPsiphon && !o.psiphonOpened <;>
    simp [hopened, hestablished, hhealthy, hpsiphon, bind, Except.bind, pure, Except.pure, throw, throwThe,
      MonadExceptOf.throw] at h
  exact h.symm

section Traffic
variable {t : Tun} {app : String} {uid : Nat} {blocked : List Int}

/-- A packet reaches the network past the TUN or because the bridge forwards it. -/
theorem next_sent (hforwarder : t.forwarder = .bridge blocked) (sender : String) (a : Arrival) {s : Traffic}
    (h : Clean blocked s.sessions) :
    Clean blocked (t.next (.sent sender a) s).sessions ∧
    ((t.next (.sent sender a) s).reached = s.reached ∨
      (t.next (.sent sender a) s).reached = s.reached ++ [sender] ∧
        ((t.builder.captures sender && t.builder.routes a.packet) = true →
          (processPacket blocked a s.sessions).1 = .forwarded)) := by
  have hclean := h.processPacket a
  unfold Tun.next
  dsimp only
  split
  · rw [hforwarder]
    dsimp only
    split
    · rename_i sessions hfate
      rw [hfate] at hclean
      exact ⟨hclean, .inr ⟨rfl, fun _ => by rw [hfate]⟩⟩
    · rename_i fate sessions _ hfate
      rw [hfate] at hclean
      exact ⟨hclean, .inl rfl⟩
  · rename_i hpast
    exact ⟨h, .inr ⟨rfl, fun hgo => absurd hgo hpast⟩⟩

/-- One event, where the TUN is served by the bridge, captures the app and routes
everything. -/
theorem next_cutOff (hforwarder : t.forwarder = .bridge blocked) (hcaptured : t.builder.captures app = true)
    (hroute : t.builder.ipv6Route = true) (hu : isUidBlocked blocked uid = true) (e : Event) (s : Traffic)
    (h : Clean blocked s.sessions ∧ app ∉ s.reached) (ha : Attributes app uid e s) :
    Clean blocked (t.next e s).sessions ∧ app ∉ (t.next e s).reached := by
  obtain ⟨hclean, hcut⟩ := h
  cases e with
  | expired key => exact ⟨hclean.remove key, hcut⟩
  | sent sender a =>
    obtain ⟨hclean', hreached⟩ := next_sent hforwarder sender a hclean
    refine ⟨hclean', ?_⟩
    rcases hreached with hsame | ⟨hmore, hforwarded⟩
    · rw [hsame]
      exact hcut
    · rw [hmore]
      intro hmem
      rcases List.mem_append.mp hmem with hmem | hmem
      · exact hcut hmem
      · obtain rfl := List.mem_singleton.mp hmem
        apply processPacket_blocked hclean hu (ha a rfl)
        apply hforwarded
        rw [hcaptured, Builder.routes, hroute, Bool.or_true]
        rfl

/-- A packet of IPv6 goes past a TUN without its route. -/
theorem reached_unrouted (hroute : t.builder.ipv6Route = false) (app : String) (uid : Int) (s : Traffic) :
    (t.next (.sent app {packet := [0x60], ownerUid := uid}) s).reached = s.reached ++ [app] := by
  have hpast : t.builder.routes [0x60] = false := by
    rw [Builder.routes, hroute]
    rfl
  simp only [Tun.next, hpast, Bool.and_false, Bool.false_eq_true, if_false]

theorem noInternet_of_bridge (hforwarder : t.forwarder = .bridge blocked) (hcaptured : t.builder.captures app = true)
    (hroute : t.builder.ipv6Route = true) (hu : isUidBlocked blocked uid = true) : NoInternet t app uid := by
  refine ⟨hcaptured, ⟨blocked, hforwarder⟩, ?_⟩
  intro events halong s hs
  have hstart : Clean blocked ({} : Traffic).sessions ∧ app ∉ ({} : Traffic).reached := ⟨nofun, nofun⟩
  have stepInv (e : Event) (s : Traffic) (_ : True) : True := trivial
  have step (e : Event) (s : Traffic) (_ : True) := next_cutOff hforwarder hcaptured hroute hu e s
  exact (visited_of_along stepInv step trivial hstart events halong s hs).2

/-- One packet of IPv6 shows whether its route is there; no session is in its way. -/
theorem NoInternet.routed (h : NoInternet t app uid) : t.builder.ipv6Route = true := by
  by_contra hoff
  have halong : Along t.next (Attributes app uid) {} [.sent app {packet := [0x60], ownerUid := uid}] := by
    refine ⟨?_, trivial⟩
    intro a ha
    cases ha
    exact ⟨rfl, nofun⟩
  apply h.cutOff _ halong _ (run_visited _ _ _)
  show app ∈ (t.next (.sent app {packet := [0x60], ownerUid := uid}) {}).reached
  rw [reached_unrouted (Bool.eq_false_iff.mpr hoff)]
  exact List.mem_append_right _ (List.mem_singleton.mpr rfl)

end Traffic

theorem isUidBlocked_of_mem {d : Device} {p : ConnectionProfile} {app : String} {uid : Nat}
    (hblocked : app ∈ p.blockedApps) (huid : d.uid app = some uid) :
    isUidBlocked (currentBlockedUids d p) uid = true := by
  have hmem : (uid : Int) ∈ currentBlockedUids d p := by
    rw [currentBlockedUids, List.mem_filterMap]
    exact ⟨app, hblocked, by rw [huid]; rfl⟩
  rw [isUidBlocked, List.contains_iff_mem.mpr hmem, Bool.and_true, bne_iff_ne]
  omega

/-- **After a successful attempt a blocked app has no internet exactly if Psiphon is not
chained, no allow-list leaves the app out, and the TUN has the default route of IPv6.** -/
theorem noInternet_iff {d : Device} {p : ConnectionProfile} {o : Outcome} {t : Tun} {app : String} {uid : Nat}
    (hproxy : p.proxyMode = false) (hok : connectAttempt d p o = .ok (some t)) (hblocked : app ∈ p.blockedApps)
    (huid : d.uid app = some uid) (hself : app ≠ d.packageName) :
    NoInternet t app uid ↔ p.isChainedPsiphon = false ∧ Allowed d p app ∧ p.ipv6LeakProtection = true := by
  obtain rfl := connectAttempt_eq hproxy hok
  have hinstalled : d.installed app = true := by
    rw [Device.installed, huid]
    rfl
  have hcaptures := captures_establishTun_iff hblocked hinstalled hself
  have hroute : (establishTun d p).ipv6Route = p.ipv6LeakProtection := by
    rw [establishTun_eq]
    split <;> rfl
  have hsome : p.blockedApps.isEmpty = false := by
    rw [List.isEmpty_eq_false_iff]
    exact List.ne_nil_of_mem hblocked
  constructor
  · intro h
    refine ⟨?_, hcaptures.mp h.captured, ?_⟩
    · obtain ⟨blocked, hbridge⟩ := h.bridged
      simp only [startTun2Socks, hsome] at hbridge
      split at hbridge
      · rename_i hgo
        simpa using hgo
      · cases hbridge
    · exact hroute.symm.trans h.routed
  · intro hcond
    obtain ⟨hchained, hallowed, hleak⟩ := hcond
    have hforwarder : startTun2Socks d p p.isChainedPsiphon = .bridge (currentBlockedUids d p) := by
      rw [startTun2Socks, hsome, hchained]
      rfl
    exact noInternet_of_bridge hforwarder (hcaptures.mpr hallowed) (hroute.trans hleak)
      (isUidBlocked_of_mem hblocked huid)

/-- A device with this app and two others. -/
def phone : Device where
  packageName := "studio.cluvex.aether"
  uid := fun pkg => ["studio.cluvex.aether", "app.blocked", "app.chosen"].idxOf? pkg |>.map (10100 + ·)

/-- The profile's TUN. -/
def phoneTun (p : ConnectionProfile) : Tun where
  builder := establishTun phone p
  forwarder := startTun2Socks phone p p.isChainedPsiphon

def blocking : ConnectionProfile := {blockedApps := ["app.blocked"]}

theorem noInternet_blocking :
    connectAttempt phone blocking {} = .ok (some (phoneTun blocking)) ∧
      NoInternet (phoneTun blocking) "app.blocked" 10101 := by
  have hok : connectAttempt phone blocking {} = .ok (some (phoneTun blocking)) := by rfl
  refine ⟨hok, (noInternet_iff rfl hok ?_ ?_ ?_).mpr ⟨?_, ?_, ?_⟩⟩
  · decide
  · decide
  · decide
  · decide
  · exact nofun
  · decide

/-- An allow-list without the blocked app leaves it outside the TUN, and behind Psiphon the
TUN is not filtered. -/
theorem blocked_app_online :
    (∃ t, connectAttempt phone {blocking with splitMode := .include, splitApps := ["app.chosen"]} {} = .ok (some t) ∧
      ¬ NoInternet t "app.blocked" 10101) ∧
    (∃ t, connectAttempt phone {blocking with psiphonEnabled := true, psiphonRegion := .us} {} = .ok (some t) ∧
      ¬ NoInternet t "app.blocked" 10101) := by
  refine ⟨⟨phoneTun _, rfl, ?_⟩, ⟨phoneTun _, rfl, ?_⟩⟩
  · intro h
    exact absurd h.captured (by decide)
  · intro h
    obtain ⟨blocked, hbridge⟩ := h.bridged
    cases hbridge

end Aether.Vpn.AppFilter
