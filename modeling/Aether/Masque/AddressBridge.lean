import Aether.Machine.Run
import Aether.Masque.Drain

/-! The way of an assigned address from the edge to the userspace stack.

A transport puts every entry of an `ADDRESS_ASSIGN` into a channel of its own, without
waiting; a task takes them out one by one and tells the stack to set its addresses, one
family at a time; the stack replaces all its addresses by the ones it is told.

`Settles` is what the addresses are for: once everything that is under way has arrived,
the stack holds the last assigned address of each family, or the one it started with.
`settles_iff` says which entries keep it so. -/
namespace Aether.Masque.AddressBridge
open Machine
open Rust (IpAddr)

/-! ### The stack's addresses -/

inductive Family where
  | v4
  | v6
  deriving DecidableEq

def Family.other : Family → Family
  | v4 => v6
  | v6 => v4

def familyOf : IpAddr → Family
  | .v4 _ => .v4
  | .v6 _ => .v6

structure IpCidr where
  address : IpAddr
  prefixLen : UInt8
  deriving DecidableEq

/-- The addresses of the interface and its default routes. -/
structure Interface where
  addrs : List IpCidr := []
  gateway4 : Option (BitVec 32) := none
  gateway6 : Option (BitVec 128) := none
  deriving DecidableEq

/-- `routable_prefix_v4`. -/
def routablePrefixV4 (p : UInt8) : UInt8 := if p ≥ 31 then 24 else p

/-- `routable_prefix_v6`. -/
def routablePrefixV6 (p : UInt8) : UInt8 := if p ≥ 127 then 64 else p

/-- The neighbour of an address that the default route goes to. -/
def gatewayOf {w : Nat} (bits : BitVec w) : BitVec w :=
  let host : BitVec w := if bits.setWidth 8 == 1 then 2 else 1
  ((bits >>> 8) <<< 8) ||| host

/-- `Cmd::SetAddrs`. -/
structure SetAddrs where
  v4 : Option (BitVec 32 × UInt8)
  v6 : Option (BitVec 128 × UInt8)

/-- The addresses that `apply_addrs` pushes. -/
def SetAddrs.cidrs (c : SetAddrs) : List IpCidr :=
  (c.v4.map fun (ip, p) => {address := .v4 ip, prefixLen := routablePrefixV4 p}).toList ++
    (c.v6.map fun (ip, p) => {address := .v6 ip, prefixLen := routablePrefixV6 p}).toList

/-- `apply_addrs`. `accepts` are the addresses that `update_ip_addrs` takes: it panics on one
that is not unicast, and the stack is gone. -/
def applyAddrs (accepts : IpAddr → Bool) (c : SetAddrs) (iface : Interface) : Option Interface :=
  if c.cidrs.all fun cidr => accepts cidr.address then
    some
      { addrs := c.cidrs
        gateway4 := (c.v4.map fun (ip, _) => gatewayOf ip).or iface.gateway4
        gateway6 := (c.v6.map fun (ip, _) => gatewayOf ip).or iface.gateway6 }
  else none

/-! ### The machine -/

/-- The addresses of the identity, with which the stack was spawned. -/
structure Setup where
  accepts : IpAddr → Bool
  initial : SetAddrs
  spawned : initial.cidrs.all (fun cidr => accepts cidr.address) = true

structure State where
  /-- `addr_rx`. -/
  queue : List AssignedAddr := []
  /-- The commands on their way to the stack. -/
  commands : List SetAddrs := []
  iface : Option Interface
  /-- Every address that the edge has assigned, in order. -/
  received : List IpAddr := []

inductive Event where
  /-- A transport's `drain_capsules` comes to this entry. -/
  | assign (a : AssignedAddress)
  /-- The bridge takes an address out of its channel. -/
  | bridge
  /-- The stack takes a command out of its channel. -/
  | stack

/-- What the bridge tells the stack. -/
def setAddrs (a : AssignedAddr) : SetAddrs :=
  match a.ip with
  | .v4 ip => {v4 := some (ip, a.prefixLen), v6 := none}
  | .v6 ip => {v4 := none, v6 := some (ip, a.prefixLen)}

def State.next (setup : Setup) (event : Event) (s : State) : State :=
  match event with
  | .assign a =>
    {s with
      queue := assign s.queue a
      received := s.received ++ (bytesToIp a.ipVersion a.address).toList}
  | .bridge =>
    match s.queue with
    | [] => s
    | a :: rest =>
      -- `set_addrs` waits for room in the command channel
      if s.commands.length < 256 then {s with queue := rest, commands := s.commands ++ [setAddrs a]} else s
  | .stack =>
    match s.commands with
    | [] => s
    | c :: rest => {s with commands := rest, iface := s.iface.bind (applyAddrs setup.accepts c)}

def Setup.start (setup : Setup) : State := {iface := applyAddrs setup.accepts setup.initial {}}

/-! ### What the stack should hold -/

def Setup.initialOf (setup : Setup) (f : Family) : Option IpAddr :=
  (setup.initial.cidrs.map (·.address)).find? fun ip => familyOf ip == f

/-- The last address of a family that the edge assigned, or the one of the identity. -/
def State.expected (setup : Setup) (s : State) (f : Family) : Option IpAddr :=
  ((s.received.filter fun ip => familyOf ip == f).getLast?).or (setup.initialOf f)

/-- The interface once everything under way has arrived. -/
def State.settled (setup : Setup) (s : State) : Option Interface :=
  (s.commands ++ s.queue.map setAddrs).foldl (fun iface c => iface.bind (applyAddrs setup.accepts c)) s.iface

def Settles (setup : Setup) (s : State) : Prop :=
  ∃ iface, s.settled setup = some iface ∧
    ∀ f, ∀ ip ∈ s.expected setup f, ip ∈ iface.addrs.map (·.address)

/-- An entry for which there is room is taken by the stack and nothing of the other family
is expected; one for which there is none repeats the last one in the channel. -/
def Kept (setup : Setup) (event : Event) (s : State) : Prop :=
  match event with
  | .assign a => ∀ ip ∈ bytesToIp a.ipVersion a.address,
    if s.queue.length < 8 then setup.accepts ip = true ∧ s.expected setup (familyOf ip).other = none
    else (s.queue.getLast?).map (·.ip) = some ip
  | _ => True

/-! ### One entry at a time -/

section Entries

variable {setup : Setup} {s : State}

/-- A command of the bridge leaves one address. -/
theorem applyAddrs_setAddrs {accepts : IpAddr → Bool} {a : AssignedAddr} (h : accepts a.ip = true) (iface : Interface) :
    ∃ iface', applyAddrs accepts (setAddrs a) iface = some iface' ∧ iface'.addrs.map (·.address) = [a.ip] := by
  rw [setAddrs]
  split
  · rename_i ip hip
    rw [hip] at h ⊢
    exact ⟨_, if_pos (by simpa [SetAddrs.cidrs] using h), rfl⟩
  · rename_i ip hip
    rw [hip] at h ⊢
    exact ⟨_, if_pos (by simpa [SetAddrs.cidrs] using h), rfl⟩

theorem applyAddrs_refused {accepts : IpAddr → Bool} {a : AssignedAddr} (h : accepts a.ip = false) (iface : Interface) :
    applyAddrs accepts (setAddrs a) iface = none := by
  rw [setAddrs]
  split
  · rename_i ip hip
    rw [hip] at h
    exact if_neg (by simpa [SetAddrs.cidrs] using h)
  · rename_i ip hip
    rw [hip] at h
    exact if_neg (by simpa [SetAddrs.cidrs] using h)

theorem settled_bridge : (s.next setup .bridge).settled setup = s.settled setup := by
  cases hq : s.queue with
  | nil => simp only [State.next, hq]
  | cons a rest =>
    simp only [State.next, hq]
    split
    · simp only [State.settled, hq, List.map_cons, List.append_assoc, List.singleton_append]
    · rfl

theorem settled_stack : (s.next setup .stack).settled setup = s.settled setup := by
  cases hc : s.commands with
  | nil => simp only [State.next, hc]
  | cons c rest => simp only [State.next, State.settled, hc, List.cons_append, List.foldl_cons]

theorem received_bridge : (s.next setup .bridge).received = s.received := by
  cases hq : s.queue with
  | nil => simp only [State.next, hq]
  | cons a rest =>
    simp only [State.next, hq]
    split <;> rfl

theorem received_stack : (s.next setup .stack).received = s.received := by
  cases hc : s.commands with
  | nil => simp only [State.next, hc]
  | cons c rest => simp only [State.next, hc]

/-- What is expected depends on what was received. -/
theorem expected_congr {s' : State} (h : s'.received = s.received) (f : Family) :
    s'.expected setup f = s.expected setup f := by
  rw [State.expected, State.expected, h]

theorem settles_congr {s' : State} (hsettled : s'.settled setup = s.settled setup) (hreceived : s'.received = s.received) :
    Settles setup s' ↔ Settles setup s := by
  rw [Settles, Settles, hsettled]
  simp only [expected_congr hreceived]

/-- With an entry in its channel the stack will hold the last one alone. -/
theorem settled_last {a : AssignedAddr} {iface : Interface} (ha : s.queue.getLast? = some a)
    (h : s.settled setup = some iface) : iface.addrs.map (·.address) = [a.ip] := by
  obtain ⟨before, hbefore⟩ := List.getLast?_eq_some_iff.mp ha
  rw [State.settled, hbefore, List.map_append, ← List.append_assoc, List.foldl_append] at h
  obtain ⟨iface₀, -, hlast⟩ := Option.bind_eq_some_iff.mp h
  cases haccepts : setup.accepts a.ip with
  | true =>
    obtain ⟨iface', hiface', haddrs⟩ := applyAddrs_setAddrs haccepts iface₀
    rw [hiface'] at hlast
    rwa [← Option.some.inj hlast]
  | false =>
    rw [applyAddrs_refused haccepts] at hlast
    cases hlast

theorem expected_assign_self (setup : Setup) (ip : IpAddr) (s' : State) (h : s'.received = s.received ++ [ip]) :
    s'.expected setup (familyOf ip) = some ip := by
  rw [State.expected, h, List.filter_append, List.filter_singleton, beq_self_eq_true]
  simp

theorem expected_assign_other (setup : Setup) (ip : IpAddr) (s' : State) (h : s'.received = s.received ++ [ip]) :
    s'.expected setup (familyOf ip).other = s.expected setup (familyOf ip).other := by
  have hother : (familyOf ip == (familyOf ip).other) = false := by
    cases familyOf ip <;> rfl
  rw [State.expected, State.expected, h, List.filter_append, List.filter_singleton, hother]
  simp

/-- Every family is that of an address or the other one. -/
theorem forall_family {p : Family → Prop} (ip : IpAddr) : (∀ f, p f) ↔ p (familyOf ip) ∧ p (familyOf ip).other := by
  constructor
  · intro h
    exact ⟨h _, h _⟩
  · intro h f
    obtain ⟨hself, hother⟩ := h
    cases hf : familyOf ip <;> rw [hf] at hself hother <;> cases f <;> assumption

theorem family_of_initial {f : Family} {ip : IpAddr} (h : setup.initialOf f = some ip) : familyOf ip = f := by
  have hfound := List.find?_some h
  exact eq_of_beq hfound

theorem family_of_expected {f : Family} {ip : IpAddr} (h : s.expected setup f = some ip) : familyOf ip = f := by
  obtain hlast | ⟨-, hinitial⟩ := Option.or_eq_some_iff.mp h
  · have hmem := List.mem_of_getLast? hlast
    exact eq_of_beq (List.mem_filter.mp hmem).2
  · exact family_of_initial hinitial

/-- An entry for which there is room. -/
theorem settles_room {a : AssignedAddr} (h : Settles setup s) {s' : State}
    (hsettled : s'.settled setup = (s.settled setup).bind (applyAddrs setup.accepts (setAddrs a)))
    (hreceived : s'.received = s.received ++ [a.ip]) :
    Settles setup s' ↔ setup.accepts a.ip = true ∧ s.expected setup (familyOf a.ip).other = none := by
  obtain ⟨iface, hiface, -⟩ := h
  rw [hiface, Option.bind_some] at hsettled
  rw [Settles, hsettled]
  cases haccepts : setup.accepts a.ip with
  | false =>
    rw [applyAddrs_refused haccepts]
    constructor
    · intro h
      obtain ⟨iface', hnone, -⟩ := h
      cases hnone
    · intro h
      cases h.1
  | true =>
    obtain ⟨iface', hiface', haddrs⟩ := applyAddrs_setAddrs haccepts iface
    have hself := expected_assign_self setup a.ip s' hreceived
    have hother := expected_assign_other setup a.ip s' hreceived
    rw [hiface', and_iff_right rfl]
    constructor
    · intro h
      obtain ⟨found, hfound, hheld⟩ := h
      cases hfound
      cases hexpected : s.expected setup (familyOf a.ip).other with
      | none => rfl
      | some ip =>
        -- the other family's address is not the one that was just set
        have hmem := hheld (familyOf a.ip).other ip (hother.trans hexpected)
        rw [haddrs, List.mem_singleton] at hmem
        have hfamily := family_of_expected hexpected
        rw [hmem] at hfamily
        cases hf : familyOf a.ip <;> rw [hf] at hfamily <;> cases hfamily
    · intro h
      refine ⟨iface', rfl, (forall_family a.ip).mpr ⟨?_, ?_⟩⟩
      · intro ip hip
        rw [hself] at hip
        cases hip
        rw [haddrs]
        exact List.mem_singleton.mpr rfl
      · intro ip hip
        rw [hother, h] at hip
        cases hip

/-- An entry that is dropped. -/
theorem settles_dropped {ip : IpAddr} {last : AssignedAddr} (h : Settles setup s)
    (hlast : s.queue.getLast? = some last) {s' : State} (hsettled : s'.settled setup = s.settled setup)
    (hreceived : s'.received = s.received ++ [ip]) : Settles setup s' ↔ last.ip = ip := by
  obtain ⟨iface, hiface, hheld⟩ := h
  have haddrs := settled_last hlast hiface
  have hself := expected_assign_self setup ip s' hreceived
  have hother := expected_assign_other setup ip s' hreceived
  rw [Settles, hsettled, hiface]
  constructor
  · intro h
    obtain ⟨found, hfound, hheld'⟩ := h
    cases hfound
    have hmem := hheld' _ ip hself
    rw [haddrs, List.mem_singleton] at hmem
    exact hmem.symm
  · intro h
    refine ⟨iface, rfl, (forall_family ip).mpr ⟨?_, ?_⟩⟩
    · intro x hx
      rw [hself] at hx
      cases hx
      rw [haddrs, h]
      exact List.mem_singleton.mpr rfl
    · intro x hx
      rw [hother] at hx
      exact hheld _ x hx

theorem settles_assign (a : AssignedAddress) (h : Settles setup s) :
    Settles setup (s.next setup (.assign a)) ↔ Kept setup (.assign a) s := by
  rw [Kept]
  cases hip : bytesToIp a.ipVersion a.address with
  | none =>
    have hsame : s.next setup (.assign a) = s := by simp [State.next, assign, hip]
    rw [hsame]
    exact ⟨fun _ ip hip => absurd hip (by simp), fun _ => h⟩
  | some ip =>
    have hreceived : (s.next setup (.assign a)).received = s.received ++ [ip] := by simp [State.next, hip]
    have hkept (q : IpAddr → Prop) : (∀ x ∈ some ip, q x) ↔ q ip :=
      ⟨fun hq => hq ip rfl, fun hq x hx => by cases hx; exact hq⟩
    rw [hkept]
    by_cases hroom : s.queue.length < 8
    · have hqueue : (s.next setup (.assign a)).queue = s.queue ++ [{ip, prefixLen := a.prefixLen}] := by
        simp [State.next, assign, hip, sendAddress, hroom]
      have hsettled : (s.next setup (.assign a)).settled setup =
          (s.settled setup).bind (applyAddrs setup.accepts (setAddrs {ip, prefixLen := a.prefixLen})) := by
        rw [State.settled, hqueue, List.map_append, ← List.append_assoc, List.foldl_append]
        rfl
      rw [if_pos hroom]
      exact settles_room h hsettled hreceived
    · have hqueue : (s.next setup (.assign a)).queue = s.queue := by
        simp [State.next, assign, hip, sendAddress, hroom]
      have hsettled : (s.next setup (.assign a)).settled setup = s.settled setup := by
        rw [State.settled, hqueue]
        rfl
      have hne : s.queue ≠ [] := by
        intro he
        rw [he] at hroom
        exact hroom (by decide)
      have hlast := List.getLast?_eq_some_getLast hne
      rw [if_neg hroom, hlast, Option.map_some, Option.some.injEq]
      exact settles_dropped h hlast hsettled hreceived

theorem settles_step (event : Event) (s : State) (h : Settles setup s) :
    Settles setup (s.next setup event) ↔ Kept setup event s := by
  cases event with
  | assign a => exact settles_assign a h
  | bridge => exact ⟨fun _ => trivial, fun _ => (settles_congr settled_bridge received_bridge).mpr h⟩
  | stack => exact ⟨fun _ => trivial, fun _ => (settles_congr settled_stack received_stack).mpr h⟩

end Entries

/-! ### Whole runs -/

theorem settles_start (setup : Setup) : Settles setup setup.start := by
  have hiface : setup.start.iface = some _ := if_pos setup.spawned
  refine ⟨_, hiface, ?_⟩
  intro f ip hip
  exact List.mem_of_find?_eq_some hip

/-- In every state of a run the last assigned addresses will be held, exactly if every
entry is `Kept`. -/
theorem settles_iff (setup : Setup) (events : List Event) :
    (∀ s ∈ visited (State.next setup) setup.start events, Settles setup s) ↔
      Along (State.next setup) (Kept setup) setup.start events :=
  visited_iff_along_of_step settles_step (settles_start setup) events

/-- The stack works off its commands. -/
theorem run_commands (setup : Setup) (s : State) :
    ∃ events, (∀ e ∈ events, e = Event.stack) ∧ run (State.next setup) s events =
      {s with
        commands := []
        iface := s.commands.foldl (fun iface c => iface.bind (applyAddrs setup.accepts c)) s.iface} := by
  generalize hc : s.commands = commands
  induction commands generalizing s with
  | nil =>
    refine ⟨[], fun e he => absurd he List.not_mem_nil, ?_⟩
    show s = {s with commands := [], iface := s.iface}
    rw [← hc]
  | cons c rest ih =>
    have hstep : s.next setup .stack = {s with commands := rest, iface := s.iface.bind (applyAddrs setup.accepts c)} := by
      simp only [State.next, hc]
    obtain ⟨events, hevents, hrun⟩ := ih (s.next setup .stack) (by rw [hstep])
    refine ⟨.stack :: events, List.forall_mem_cons.mpr ⟨rfl, hevents⟩, ?_⟩
    show run (State.next setup) (s.next setup .stack) events = _
    rw [hrun, hstep]
    rfl

/-- Everything under way does arrive: the bridge and the stack have a run that ends with
both channels empty and the interface settled. -/
theorem run_settles (setup : Setup) (s : State) :
    ∃ events, (∀ e ∈ events, e = .bridge ∨ e = .stack) ∧
      run (State.next setup) s events = {s with queue := [], commands := [], iface := s.settled setup} := by
  obtain ⟨events, hevents, hrun⟩ := run_commands setup s
  have hstack : ∀ e ∈ events, e = .bridge ∨ e = .stack := fun e he => .inr (hevents e he)
  generalize hq : s.queue = queue
  induction queue generalizing s events with
  | nil =>
    refine ⟨events, hstack, ?_⟩
    rw [hrun, State.settled, hq, List.map_nil, List.append_nil]
  | cons a rest ih =>
    -- with the commands worked off there is room for the next one
    have hbridge : (run (State.next setup) s events).next setup .bridge =
        {run (State.next setup) s events with queue := rest, commands := [setAddrs a]} := by
      rw [hrun]
      simp [State.next, hq]
    obtain ⟨later, hlater, hrunLater⟩ := run_commands setup ((run (State.next setup) s events).next setup .bridge)
    obtain ⟨final, hfinal, hrunFinal⟩ := ih ((run (State.next setup) s events).next setup .bridge) later hlater hrunLater
      (fun e he => .inr (hlater e he)) (by rw [hbridge])
    refine ⟨events ++ .bridge :: final, ?_, ?_⟩
    · intro e he
      obtain he | he := List.mem_append.mp he
      · exact hstack e he
      · obtain rfl | he := List.mem_cons.mp he
        · exact .inl rfl
        · exact hfinal e he
    · rw [run_append]
      show run (State.next setup) ((run (State.next setup) s events).next setup .bridge) final = _
      rw [hrunFinal, settled_bridge, hbridge, hrun]
      simp only [State.settled, List.nil_append, hq, List.map_cons, List.foldl_append]

/-! ### An edge that assigns both families -/

/-- An identity with an address of each family, and a stack that takes every address. -/
def dualStack : Setup where
  accepts _ := true
  initial := {v4 := some (Rust.ipv4 172 16 0 2, 32), v6 := some (1, 128)}
  spawned := rfl

/-- One `ADDRESS_ASSIGN` with one entry. -/
def assignV4 : List Event :=
  [.assign {requestId := 0, ipVersion := 4, address := [172, 16, 0, 3], prefixLen := 32}, .bridge, .stack]

/-- The assigned address removes the one of the other family. -/
theorem other_family_removed : ¬ ∀ s ∈ visited (State.next dualStack) dualStack.start assignV4, Settles dualStack s := by
  intro h
  obtain ⟨iface, hiface, hheld⟩ := h _ (run_visited (State.next dualStack) dualStack.start assignV4)
  have hsettled : (run (State.next dualStack) dualStack.start assignV4).settled dualStack =
      some {addrs := [{address := .v4 (Rust.ipv4 172 16 0 3), prefixLen := 24}]
            gateway4 := some (Rust.ipv4 172 16 0 1), gateway6 := some 2} := by decide +kernel
  rw [hsettled] at hiface
  cases hiface
  have hexpected : (run (State.next dualStack) dualStack.start assignV4).expected dualStack .v6 = some (.v6 1) := by
    decide +kernel
  have hmem := hheld .v6 (.v6 1) hexpected
  exact absurd hmem (by decide)

end Aether.Masque.AddressBridge
