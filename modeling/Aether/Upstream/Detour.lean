import Aether.Machine.Run
import Aether.Routing.Rules

/-! The registry of detours.

`attach_detour` binds a shim on the loopback for a socket, registers it under the local
address of the socket and spawns a pump; `relay_target` and `real_source` look the
address up. The entry is removed by the pump's task once the pump has stopped, whoever
the address belongs to by then: nothing stops a pump when its socket is closed.

`consistent_iff` says which runs keep the registry right: those in which no socket is
bound to an address whose pump has not ended. -/
namespace Aether.Upstream
open Machine
open Rust (SocketAddr)

/-! ### The registry -/

structure Detour where
  shim : SocketAddr
  peer : SocketAddr
  deriving DecidableEq

abbrev Detours := SocketAddr → Option Detour

/-- `relay_target`. -/
def relayTarget (map : Detours) (addr intended : SocketAddr) : SocketAddr := ((map addr).map Detour.shim).getD intended

/-- `real_source`. -/
def realSource (map : Detours) (addr observed : SocketAddr) : SocketAddr :=
  match map addr with
  | some detour => if detour.shim = observed then detour.peer else observed
  | none => observed

namespace Registry

/-! ### The machine -/

/-- The task of a pump: it pumps, has stopped but not yet removed its entry, or is over. -/
inductive Status where
  | pumping
  | stopped
  | ended
  deriving DecidableEq

structure Pump where
  client : SocketAddr
  detour : Detour
  status : Status

/-- The sockets that are alive, by their local address, each with the number of its pump
if it has one; all pumps that were spawned; and the registry. -/
structure State where
  live : SocketAddr → Option (Option Nat)
  pumps : List Pump
  map : Detours

def State.init : State := ⟨fun _ => none, [], fun _ => none⟩

inductive Event where
  /-- A socket is bound; the system gives it an address that is not in use. -/
  | bind (addr : SocketAddr)
  /-- `attach_detour` on a socket that was bound, once; the shim is what it binds. -/
  | attach (addr peer shim : SocketAddr)
  /-- `pump` returns. -/
  | stop (pump : Nat)
  /-- The entry is removed. -/
  | remove (pump : Nat)
  | close (addr : SocketAddr)

def Pump.set (status : Status) (p : Pump) : Pump := {p with status}

/-- Another status for one pump. -/
def State.update (k : Nat) (status : Status) (s : State) : State := {s with pumps := s.pumps.modify k (Pump.set status)}

/-- The entry is inserted and the pump spawned. -/
def State.spawn (addr : SocketAddr) (detour : Detour) (s : State) : State where
  live := Function.update s.live addr (some (some s.pumps.length))
  pumps := s.pumps ++ [⟨addr, detour, .pumping⟩]
  map := Function.update s.map addr (some detour)

/-- Whether an upstream is configured does not change while the program runs. -/
def State.next (configured : Bool) (event : Event) (s : State) : State :=
  match event with
  | .bind addr => if (s.live addr).isNone then {s with live := Function.update s.live addr (some none)} else s
  | .attach addr peer shim =>
    if s.live addr = some none && configured && !Routing.isPrivate peer.ip then s.spawn addr ⟨shim, peer⟩ else s
  | .stop k =>
    match s.pumps[k]? with
    | some ⟨_, _, .pumping⟩ => s.update k .stopped
    | _ => s
  | .remove k =>
    match s.pumps[k]? with
    | some ⟨client, _, .stopped⟩ => {s.update k .ended with map := Function.update s.map client none}
    | _ => s
  | .close addr => {s with live := Function.update s.live addr none}

/-! ### Consistency -/

/-- Without a detour a socket reaches whom it means and sees whom it hears. -/
def Direct (s : State) (addr : SocketAddr) : Prop :=
  (∀ intended, relayTarget s.map addr intended = intended) ∧ ∀ observed, realSource s.map addr observed = observed

/-- A live socket is sent to its own shim while its own pump runs, and has no detour if it
was given none or its pump has ended. -/
def Consistent (s : State) : Prop :=
  ∀ addr link, s.live addr = some link →
    match link with
    | none => Direct s addr
    | some k => ∀ p, s.pumps[k]? = some p →
      match p.status with
      | .pumping => ∀ intended, relayTarget s.map addr intended = p.detour.shim
      | .stopped => True
      | .ended => Direct s addr

/-- A pump of the address is not over. -/
def Held (s : State) (addr : SocketAddr) : Prop := ∃ p ∈ s.pumps, p.client = addr ∧ p.status ≠ .ended

instance (s : State) (addr : SocketAddr) : Decidable (Held s addr) := inferInstanceAs (Decidable (∃ p ∈ _, _))

/-- No socket is bound to an address that a pump still holds. -/
def Unheld (event : Event) (s : State) : Prop :=
  match event with
  | .bind addr => s.live addr = none → ¬ Held s addr
  | _ => True

/-! ### The registry and the pumps -/

section Steps

variable {configured : Bool} {s : State}

/-- The task of pump `k` is not over. -/
def Active (s : State) (k : Nat) (p : Pump) : Prop := s.pumps[k]? = some p ∧ p.status ≠ .ended

theorem held_iff (s : State) (addr : SocketAddr) : Held s addr ↔ ∃ k p, Active s k p ∧ p.client = addr := by
  constructor
  · rintro ⟨p, hmem, hclient, hstatus⟩
    obtain ⟨k, hk⟩ := List.mem_iff_getElem?.mp hmem
    exact ⟨k, p, ⟨hk, hstatus⟩, hclient⟩
  · rintro ⟨k, p, ⟨hk, hstatus⟩, hclient⟩
    exact ⟨p, List.mem_of_getElem? hk, hclient, hstatus⟩

/-- The registry holds the detours of the pumps that are not over, of which an address has
one at most: none if its socket was given none, and only the socket's own otherwise. -/
structure Strong (s : State) : Prop where
  entry : ∀ addr d, s.map addr = some d ↔ ∃ k p, Active s k p ∧ p.client = addr ∧ p.detour = d
  sole : ∀ {k k' p p'}, Active s k p → Active s k' p' → p.client = p'.client → k = k'
  bare : ∀ {addr k p}, s.live addr = some none → Active s k p → p.client ≠ addr
  own : ∀ {addr k}, s.live addr = some (some k) → ∃ p, s.pumps[k]? = some p ∧ p.client = addr
  others : ∀ {addr k k' p}, s.live addr = some (some k) → Active s k' p → p.client = addr → k' = k

theorem map_eq_none (h : Strong s) {addr : SocketAddr} (hnone : ∀ k p, Active s k p → p.client ≠ addr) :
    s.map addr = none := by
  rw [Option.eq_none_iff_forall_not_mem]
  intro d hd
  obtain ⟨k, p, hactive, hclient, -⟩ := (h.entry addr d).mp hd
  exact hnone k p hactive hclient

theorem direct_of_none {addr : SocketAddr} (h : s.map addr = none) : Direct s addr := by
  constructor
  · intro intended
    rw [relayTarget, h]
    rfl
  · intro observed
    rw [realSource, h]

theorem Strong.consistent (h : Strong s) : Consistent s := by
  intro addr link hlive
  cases link with
  | none => exact direct_of_none (map_eq_none h fun k p hactive => h.bare hlive hactive)
  | some k =>
    intro p hp
    obtain ⟨p', hp', hclient⟩ := h.own hlive
    obtain rfl : p' = p := Option.some.inj (hp'.symm.trans hp)
    cases hstatus : p'.status with
    | pumping =>
      intro intended
      have hactive : Active s k p' := ⟨hp, by rw [hstatus]; simp⟩
      rw [relayTarget, (h.entry addr p'.detour).mpr ⟨k, p', hactive, hclient, rfl⟩]
      rfl
    | stopped => trivial
    | ended =>
      apply direct_of_none
      apply map_eq_none h
      intro k' q hactive hq
      have hk : k' = k := h.others hlive hactive hq
      rw [hk] at hactive
      have hsame : q = p' := Option.some.inj (hactive.1.symm.trans hp)
      exact hactive.2 (by rw [hsame, hstatus])

theorem exists_other (a : SocketAddr) : ∃ b, b ≠ a := by
  by_cases h : a = .v4 0 0
  · refine ⟨.v4 0 1, ?_⟩
    rw [h]
    simp
  · exact ⟨.v4 0 0, fun he => h he.symm⟩

/-- A socket that is bound to an address that is held is sent to somebody else's shim. -/
theorem not_consistent_bind (h : Strong s) {addr : SocketAddr} (hlive : s.live addr = none) (hheld : Held s addr) :
    ¬ Consistent (s.next configured (.bind addr)) := by
  intro hconsistent
  obtain ⟨k, p, hactive, hclient⟩ := (held_iff s addr).mp hheld
  have hnext : s.next configured (.bind addr) = {s with live := Function.update s.live addr (some none)} := by
    rw [State.next, hlive]
    rfl
  rw [hnext] at hconsistent
  have hdirect : Direct {s with live := Function.update s.live addr (some none)} addr :=
    hconsistent addr none (Function.update_self ..)
  have hmap := (h.entry addr p.detour).mpr ⟨k, p, hactive, hclient, rfl⟩
  obtain ⟨other, hother⟩ := exists_other p.detour.shim
  have htarget := hdirect.1 other
  rw [relayTarget] at htarget
  rw [hmap] at htarget
  exact hother htarget.symm

theorem Strong.bind (h : Strong s) {addr : SocketAddr} (hheld : s.live addr = none → ¬ Held s addr) :
    Strong (s.next configured (.bind addr)) := by
  rw [State.next]
  split
  case isFalse => exact h
  case isTrue hfree =>
    have hfree' : ¬ Held s addr := hheld (Option.isNone_iff_eq_none.mp hfree)
    rw [held_iff] at hfree'
    refine ⟨h.entry, h.sole, ?_, ?_, ?_⟩
    · intro a k p hlive hactive hclient
      dsimp only at hlive
      by_cases ha : a = addr
      · exact hfree' ⟨k, p, hactive, hclient.trans ha⟩
      · rw [Function.update_of_ne ha] at hlive
        exact h.bare hlive hactive hclient
    · intro a k hlive
      dsimp only at hlive
      by_cases ha : a = addr
      · rw [ha, Function.update_self] at hlive
        cases hlive
      · rw [Function.update_of_ne ha] at hlive
        exact h.own hlive
    · intro a k k' p hlive hactive hclient
      dsimp only at hlive
      by_cases ha : a = addr
      · rw [ha, Function.update_self] at hlive
        cases hlive
      · rw [Function.update_of_ne ha] at hlive
        exact h.others hlive hactive hclient

theorem Strong.close (h : Strong s) (addr : SocketAddr) : Strong (s.next configured (.close addr)) := by
  have hlive : ∀ {a link}, Function.update s.live addr none a = some link → s.live a = some link := by
    intro a link hl
    by_cases ha : a = addr
    · rw [ha, Function.update_self] at hl
      cases hl
    · rwa [Function.update_of_ne ha] at hl
  exact ⟨h.entry, h.sole, fun hl => h.bare (hlive hl), fun hl => h.own (hlive hl), fun hl => h.others (hlive hl)⟩

theorem getElem?_snoc {α : Type} (xs : List α) (x y : α) (k : Nat) :
    (xs ++ [x])[k]? = some y ↔ xs[k]? = some y ∨ (k = xs.length ∧ y = x) := by
  obtain hlt | rfl | hgt := Nat.lt_trichotomy k xs.length
  · rw [List.getElem?_append_left hlt]
    exact ⟨.inl, fun h => h.resolve_right fun he => by omega⟩
  · rw [List.getElem?_append_right (Nat.le_refl _), Nat.sub_self, List.getElem?_eq_none (Nat.le_refl _)]
    simp [eq_comm]
  · rw [List.getElem?_eq_none (by simp; omega), List.getElem?_eq_none (by omega)]
    simp
    omega

/-- The pumps after one more is spawned. -/
theorem active_spawn (addr : SocketAddr) (detour : Detour) (k : Nat) (p : Pump) :
    Active (s.spawn addr detour) k p ↔ Active s k p ∨ (k = s.pumps.length ∧ p = ⟨addr, detour, .pumping⟩) := by
  rw [Active, Active, State.spawn]
  dsimp only
  rw [getElem?_snoc]
  constructor
  · rintro ⟨h | h, hstatus⟩
    · exact .inl ⟨h, hstatus⟩
    · exact .inr h
  · rintro (⟨h, hstatus⟩ | ⟨hk, hp⟩)
    · exact ⟨.inl h, hstatus⟩
    · exact ⟨.inr ⟨hk, hp⟩, by rw [hp]; simp⟩

theorem Strong.spawn (h : Strong s) {addr : SocketAddr} (hbare : s.live addr = some none) (detour : Detour) :
    Strong (s.spawn addr detour) where
  entry a d := by
    by_cases ha : a = addr
    · have hmap : (s.spawn addr detour).map a = some detour := by
        rw [ha]
        exact Function.update_self ..
      rw [hmap, Option.some.injEq]
      constructor
      · intro hd
        exact ⟨_, _, (active_spawn ..).mpr (.inr ⟨rfl, rfl⟩), ha.symm, hd⟩
      · rintro ⟨k, p, hactive, hclient, hd⟩
        obtain hold | ⟨-, hp⟩ := (active_spawn ..).mp hactive
        · exact absurd (hclient.trans ha) (h.bare hbare hold)
        · rw [← hd, hp]
    · have hmap : (s.spawn addr detour).map a = s.map a := Function.update_of_ne ha _ _
      rw [hmap, h.entry]
      constructor
      · rintro ⟨k, p, hactive, hrest⟩
        exact ⟨k, p, (active_spawn ..).mpr (.inl hactive), hrest⟩
      · rintro ⟨k, p, hactive, hclient, hd⟩
        obtain hold | ⟨-, hp⟩ := (active_spawn ..).mp hactive
        · exact ⟨k, p, hold, hclient, hd⟩
        · rw [hp] at hclient
          exact absurd hclient.symm ha
  sole hp hp' hsame := by
    obtain hold | ⟨hk, hq⟩ := (active_spawn ..).mp hp
    · obtain hold' | ⟨-, hq'⟩ := (active_spawn ..).mp hp'
      · exact h.sole hold hold' hsame
      · rw [hq'] at hsame
        exact absurd hsame (h.bare hbare hold)
    · obtain hold' | ⟨hk', -⟩ := (active_spawn ..).mp hp'
      · rw [hq] at hsame
        exact absurd hsame.symm (h.bare hbare hold')
      · rw [hk, hk']
  bare := by
    intro a k p hlive hactive hclient
    by_cases ha : a = addr
    · rw [State.spawn, ha] at hlive
      dsimp only at hlive
      rw [Function.update_self] at hlive
      cases hlive
    · rw [State.spawn] at hlive
      dsimp only at hlive
      rw [Function.update_of_ne ha] at hlive
      obtain hold | ⟨-, hp⟩ := (active_spawn ..).mp hactive
      · exact h.bare hlive hold hclient
      · rw [hp] at hclient
        exact ha hclient.symm
  own := by
    intro a k hlive
    rw [State.spawn] at hlive ⊢
    dsimp only at hlive ⊢
    by_cases ha : a = addr
    · rw [ha, Function.update_self, Option.some.injEq, Option.some.injEq] at hlive
      exact ⟨_, (getElem?_snoc ..).mpr (.inr ⟨hlive.symm, rfl⟩), ha.symm⟩
    · rw [Function.update_of_ne ha] at hlive
      obtain ⟨p, hp, hclient⟩ := h.own hlive
      exact ⟨p, (getElem?_snoc ..).mpr (.inl hp), hclient⟩
  others := by
    intro a k k' p hlive hactive hclient
    rw [State.spawn] at hlive
    dsimp only at hlive
    by_cases ha : a = addr
    · rw [ha, Function.update_self, Option.some.injEq, Option.some.injEq] at hlive
      obtain hold | ⟨hk, -⟩ := (active_spawn ..).mp hactive
      · exact absurd (hclient.trans ha) (h.bare hbare hold)
      · rw [hk, hlive]
    · rw [Function.update_of_ne ha] at hlive
      obtain hold | ⟨-, hp⟩ := (active_spawn ..).mp hactive
      · exact h.others hlive hold hclient
      · rw [hp] at hclient
        exact absurd hclient.symm ha

theorem getElem?_update (k : Nat) (status : Status) (s : State) (k' : Nat) :
    (s.update k status).pumps[k']? = (s.pumps[k']?).map fun p => if k = k' then p.set status else p :=
  List.getElem?_modify ..

/-- A pump with another status has the same client and the same detour. -/
theorem pump_of_update {k k' : Nat} {status : Status} {p' : Pump}
    (h : (s.update k status).pumps[k']? = some p') :
    ∃ p, s.pumps[k']? = some p ∧ p.client = p'.client ∧ p.detour = p'.detour ∧ (k ≠ k' → p = p') := by
  rw [getElem?_update, Option.map_eq_some_iff] at h
  obtain ⟨p, hp, rfl⟩ := h
  refine ⟨p, hp, ?_, ?_, ?_⟩
  · split <;> rfl
  · split <;> rfl
  · intro hne
    rw [if_neg hne]

theorem exists_update {k k' : Nat} (status : Status) {p : Pump} (h : s.pumps[k']? = some p) :
    ∃ p', (s.update k status).pumps[k']? = some p' ∧ p'.client = p.client ∧ p'.detour = p.detour ∧
      p'.status = if k = k' then status else p.status := by
  refine ⟨_, by rw [getElem?_update, h]; rfl, ?_, ?_, ?_⟩
  · split <;> rfl
  · split <;> rfl
  · split <;> rfl

theorem Strong.stop (h : Strong s) {k : Nat} {q : Pump} (hq : Active s k q) : Strong (s.update k .stopped) := by
  have hback : ∀ {k' p'}, Active (s.update k .stopped) k' p' →
      ∃ p, Active s k' p ∧ p.client = p'.client ∧ p.detour = p'.detour := by
    intro k' p' ⟨hget, hstatus⟩
    obtain ⟨p, hp, hclient, hdetour, hsame⟩ := pump_of_update hget
    refine ⟨p, ⟨hp, ?_⟩, hclient, hdetour⟩
    by_cases hk : k = k'
    · rw [← hk, hq.1, Option.some.injEq] at hp
      rw [← hp]
      exact hq.2
    · rw [hsame hk]
      exact hstatus
  have hforth : ∀ {k' p}, Active s k' p →
      ∃ p', Active (s.update k .stopped) k' p' ∧ p'.client = p.client ∧ p'.detour = p.detour := by
    intro k' p ⟨hget, hstatus⟩
    obtain ⟨p', hp', hclient, hdetour, hst⟩ := exists_update (k := k) .stopped hget
    refine ⟨p', ⟨hp', ?_⟩, hclient, hdetour⟩
    rw [hst]
    split
    · simp
    · exact hstatus
  refine ⟨?_, ?_, ?_, ?_, ?_⟩
  · intro addr d
    refine (h.entry addr d).trans ⟨?_, ?_⟩
    · rintro ⟨k', p, hactive, hclient, hd⟩
      obtain ⟨p', hactive', hclient', hdetour'⟩ := hforth hactive
      exact ⟨k', p', hactive', hclient'.trans hclient, hdetour'.trans hd⟩
    · rintro ⟨k', p', hactive', hclient, hd⟩
      obtain ⟨p, hactive, hclient', hdetour'⟩ := hback hactive'
      exact ⟨k', p, hactive, hclient'.trans hclient, hdetour'.trans hd⟩
  · intro k₁ k₂ p₁ p₂ h₁ h₂ hsame
    obtain ⟨q₁, hq₁, hc₁, -⟩ := hback h₁
    obtain ⟨q₂, hq₂, hc₂, -⟩ := hback h₂
    exact h.sole hq₁ hq₂ (hc₁.trans (hsame.trans hc₂.symm))
  · intro addr k' p' hlive hactive hclient
    obtain ⟨p, hp, hc, -⟩ := hback hactive
    exact h.bare hlive hp (hc.trans hclient)
  · intro addr k' hlive
    obtain ⟨p, hp, hclient⟩ := h.own hlive
    obtain ⟨p', hp', hc, -⟩ := exists_update (k := k) .stopped hp
    exact ⟨p', hp', hc.trans hclient⟩
  · intro addr k₁ k₂ p' hlive hactive hclient
    obtain ⟨p, hp, hc, -⟩ := hback hactive
    exact h.others hlive hp (hc.trans hclient)

/-- A pump that is over takes its own entry with it, since the address has no other. -/
theorem Strong.remove (h : Strong s) {k : Nat} {q : Pump} (hq : Active s k q) :
    Strong {s.update k .ended with map := Function.update s.map q.client none} := by
  have hback : ∀ {k' p'}, Active (s.update k .ended) k' p' → Active s k' p' ∧ k' ≠ k := by
    intro k' p' ⟨hget, hstatus⟩
    by_cases hk : k = k'
    · rw [getElem?_update, ← hk, hq.1] at hget
      simp only [Option.map_some, if_true, Option.some.injEq] at hget
      rw [← hget] at hstatus
      exact absurd rfl hstatus
    · obtain ⟨p, hp, -, -, hsame⟩ := pump_of_update hget
      rw [hsame hk] at hp
      exact ⟨⟨hp, hstatus⟩, fun he => hk he.symm⟩
  have hforth : ∀ {k' p}, Active s k' p → k' ≠ k → Active (s.update k .ended) k' p := by
    intro k' p ⟨hget, hstatus⟩ hk
    refine ⟨?_, hstatus⟩
    rw [getElem?_update, hget, Option.map_some, if_neg fun he => hk he.symm]
  refine ⟨?_, ?_, ?_, ?_, ?_⟩
  · intro addr d
    dsimp only
    by_cases haddr : addr = q.client
    · rw [haddr, Function.update_self]
      constructor
      · intro hnone
        cases hnone
      · rintro ⟨k', p, hactive, hclient, -⟩
        obtain ⟨hold, hk⟩ := hback hactive
        exact absurd (h.sole hold hq hclient) hk
    · rw [Function.update_of_ne haddr, h.entry]
      constructor
      · rintro ⟨k', p, hactive, hclient, hd⟩
        refine ⟨k', p, hforth hactive ?_, hclient, hd⟩
        intro hk
        rw [hk] at hactive
        have hsame : p = q := Option.some.inj (hactive.1.symm.trans hq.1)
        exact haddr (by rw [← hclient, hsame])
      · rintro ⟨k', p, hactive, hrest⟩
        exact ⟨k', p, (hback hactive).1, hrest⟩
  · intro k₁ k₂ p₁ p₂ h₁ h₂ hsame
    exact h.sole (hback h₁).1 (hback h₂).1 hsame
  · intro addr k' p hlive hactive
    exact h.bare hlive (hback hactive).1
  · intro addr k' hlive
    obtain ⟨p, hp, hclient⟩ := h.own hlive
    obtain ⟨p', hp', hc, -⟩ := exists_update (k := k) .ended hp
    exact ⟨p', hp', hc.trans hclient⟩
  · intro addr k₁ k₂ p hlive hactive hclient
    exact h.others hlive (hback hactive).1 hclient

theorem strong_step (event : Event) (s : State) (h : Strong s) (hok : Unheld event s) :
    Strong (s.next configured event) := by
  cases event with
  | bind addr => exact h.bind hok
  | attach addr peer shim =>
    rw [State.next]
    split
    case isTrue hguard =>
      simp only [Bool.and_eq_true, decide_eq_true_eq] at hguard
      exact h.spawn hguard.1.1 ⟨shim, peer⟩
    case isFalse => exact h
  | stop k =>
    rw [State.next]
    split
    case h_1 client detour hk => exact h.stop ⟨hk, by simp⟩
    case h_2 => exact h
  | remove k =>
    rw [State.next]
    split
    case h_1 client detour hk => exact h.remove ⟨hk, by simp⟩
    case h_2 => exact h
  | close addr => exact h.close addr

/-- **When the registry is consistent**: exactly in the runs in which no socket is bound to
an address that a pump still holds. -/
theorem consistent_iff (configured : Bool) (events : List Event) :
    (∀ s ∈ visited (State.next configured) State.init events, Consistent s) ↔
      Along (State.next configured) Unheld State.init events := by
  have hinit : Strong State.init := by
    have hnone : ∀ {k p}, ¬ Active State.init k p := fun hactive => by cases hactive.1
    refine ⟨?_, fun hp => absurd hp hnone, fun _ hp => absurd hp hnone, ?_, ?_⟩
    · intro addr d
      constructor
      · intro hd
        cases hd
      · rintro ⟨k, p, hp, -⟩
        exact absurd hp hnone
    · intro addr k hlive
      cases hlive
    · intro addr k k' p hlive
      cases hlive
  refine visited_iff_along_of_strong (fun s => Strong.consistent) (fun event s => strong_step event s) ?_ hinit events
  intro event s hstrong hnot
  cases event with
  | bind addr =>
    rw [Unheld, Classical.not_imp, not_not] at hnot
    exact not_consistent_bind hstrong hnot.1 hnot.2
  | _ => exact absurd trivial hnot

/-- A socket is closed while its pump runs, and its address given to the next one: that
socket has no detour and is sent to the shim of the first. -/
theorem stale_detour :
    ¬ Consistent
      (run (State.next true) State.init
        [.bind (.v4 0 40000), .attach (.v4 0 40000) (.v4 (Rust.ipv4 162 159 192 1) 443) (.v4 (Rust.ipv4 127 0 0 1) 5000),
          .close (.v4 0 40000), .bind (.v4 0 40000)]) := by
  intro h
  have hdirect := (h (.v4 0 40000) none rfl).1 (.v4 (Rust.ipv4 162 159 192 5) 443)
  exact absurd hdirect (by decide)

end Steps

end Registry

end Aether.Upstream
