import Aether.Engine.Reconnect
import Aether.Machine.History

/-! The cooldown of WireGuard endpoints.

An endpoint that two tunnels ended on in a row is cooled down at the top of the next pass, and
no tunnel to it starts before the cooldown is over; a scan leaves an endpoint out only for a
cooldown that was not over when the pass began (`cooldown_law`). The count starts anew when an
endpoint is cooled down, and a cooldown that runs out during a pass still counts for it
(`cooldown_anew`).

The invariant `Inv` ties the state of the loop to its log: the counter to the tunnels at its
end, the map to the cooldowns in it. -/
namespace Aether.Engine.WireguardLoop
open Machine Scan
open Account (Identity)
open Profile (Env)
open Rust (SocketAddr)

/-! ### What the log says -/

/-- No tunnel to a peer starts before a cooldown that was set earlier is over. -/
def Kept : Act → Act → Prop
  | .cooled peer stop, .tunnel peer' started => peer' = peer → stop ≤ started
  | _, _ => True

/-- The act is a tunnel or a cooldown. -/
def Act.isMark : Act → Bool
  | cooled .. | tunnel .. => true
  | hunted .. => false

def marks (log : List Act) : List Act := log.filter Act.isMark

/-- Two tunnels to the peer have ended in a row since it was last cooled down, with none to another
peer between. -/
def EndedTwice (peer : SocketAddr) (log : List Act) : Prop := ∃ t u, [.tunnel peer t, .tunnel peer u] <:+ marks log

/-- What a scan leaves out has been tried, and has a cooldown that was not over when the pass began. -/
def Explained (cfg : Config) (before : List Act) : Act → Prop
  | .hunted _ _ reading scans =>
    ∀ scan ∈ scans, ∀ c ∈ candidatesOf cfg (fun _ => false) scan.probing, c ∉ scan.candidates →
      ∃ stop started, .cooled (.new c.1 c.2) stop ∈ before ∧ reading < stop ∧ .tunnel (.new c.1 c.2) started ∈ before
  | _ => True

section Log
variable {log : List Act} {a b : Act} {peer : SocketAddr}

theorem kept_snoc (h : log.Pairwise Kept) (hnew : ∀ x ∈ log, Kept x a) : (log ++ [a]).Pairwise Kept := by
  rw [List.pairwise_append]
  refine ⟨h, List.pairwise_singleton _ _, fun x hx y hy => ?_⟩
  rw [List.mem_singleton.mp hy]
  exact hnew x hx

theorem marks_snoc (log : List Act) (h : a.isMark = true) : marks (log ++ [a]) = marks log ++ [a] := by
  rw [marks, List.filter_append, List.filter_singleton, h]
  rfl

theorem last_mark (h : [b] <:+ marks log ++ [a]) : b = a := by
  obtain ⟨before, heq⟩ := h
  cases (List.append_inj' heq rfl).2
  rfl

theorem last_marks {c : Act} (h : [c, b] <:+ marks log ++ [a]) : b = a ∧ [c] <:+ marks log := by
  obtain ⟨before, heq⟩ := h
  have heq' : (before ++ [c]) ++ [b] = marks log ++ [a] := by rw [← heq, List.append_assoc]; rfl
  obtain ⟨hbefore, hlast⟩ := List.append_inj' heq' rfl
  cases hlast
  exact ⟨rfl, before, hbefore⟩

end Log

/-! ### The invariant -/

structure Inv (cfg : Config) (s : State) : Prop where
  kept : s.log.Pairwise Kept
  explained : Always (Explained cfg) s.log
  /-- A tunnel at the end of the log is to the last good peer, and counted. -/
  last : ∀ peer t, [.tunnel peer t] <:+ marks s.log →
    s.lastGood.map Chosen.peer = some peer ∧ 1 ≤ s.consecutiveFailsOnPeer
  twice : ∀ peer, EndedTwice peer s.log → 2 ≤ s.consecutiveFailsOnPeer
  /-- A cooldown that is not over is in force. -/
  force : ∀ peer stop, .cooled peer stop ∈ s.log → s.clock < stop →
    ∃ later, s.endpointCooldowns peer = some later ∧ stop ≤ later
  /-- What is in force was set, for a peer that was tried. -/
  ground : ∀ peer stop, s.endpointCooldowns peer = some stop →
    .cooled peer stop ∈ s.log ∧ ∃ started, .tunnel peer started ∈ s.log
  apart : ∀ c, s.lastGood = some c → s.endpointCooldowns c.peer = none
  tried : ∀ c, s.lastGood = some c → ∃ started, .tunnel c.peer started ∈ s.log
  fresh : s.quick ≠ none → s.log = []

theorem cool_self (peer : SocketAddr) (stop : Nat) (s : State) :
    (cool peer stop s).endpointCooldowns peer = some stop := Function.update_self ..

theorem cool_of_ne {peer other : SocketAddr} (h : other ≠ peer) (stop : Nat) (s : State) :
    (cool peer stop s).endpointCooldowns other = s.endpointCooldowns other := Function.update_of_ne h ..

/-- Every cooldown that is kept lasts beyond a reading of the clock. -/
def Lasting (now : Nat) (s : State) : Prop := ∀ peer stop, s.endpointCooldowns peer = some stop → now < stop

theorem wgEndpointCooldown_pos (env : Env) : 0 < wgEndpointCooldown env := by
  rw [wgEndpointCooldown, secs]
  cases hgiven : Option.filter (0 < ·) ((env "AETHER_WG_ENDPOINT_COOLDOWN_SECS").bind (Rust.parseUnsigned 64)) with
  | none => decide
  | some n =>
    have hpos : 0 < n := by simpa using (Option.mem_filter_iff.mp hgiven).2
    rw [Option.getD_some]
    omega

/-- A peer that a scan finds is not excluded. -/
theorem not_excluded {cfg : Config} {excluded : SocketAddr → Bool} {p : Probing} {peer : SocketAddr}
    (h : huntWgPeerWithProfile cfg excluded p = .ok peer) : excluded peer = false := by
  rw [huntWgPeerWithProfile] at h
  split at h
  · cases h
  · split at h
    · cases h
    · rename_i best hbest
      cases h
      obtain ⟨found, hfound, hhead⟩ := Option.bind_eq_some_iff.mp hbest
      have hmem := (huntWgEndpoints_ok hfound).1 best (List.mem_of_mem_head? hhead)
      exact (mem_scanCandidates.mp hmem).2

section Steps
variable {cfg : Config} {s : State}

theorem Inv.initial (cfg : Config) (env : Env) (identity : Identity) (before : Before) :
    Inv cfg (start env identity before) := by
  have hlog : (start env identity before).log = [] := by
    rw [start]
    split <;> rfl
  have hgood : (start env identity before).lastGood = none := by
    rw [start]
    split <;> rfl
  have hcooldowns : (start env identity before).endpointCooldowns = fun _ => none := by
    rw [start]
    split <;> rfl
  constructor
  · rw [hlog]
    exact .nil
  · rw [hlog]
    exact .nil
  · intro peer t h
    rw [hlog] at h
    exact absurd (List.suffix_nil.mp h) (List.cons_ne_nil _ _)
  · rintro peer ⟨t, u, h⟩
    rw [hlog] at h
    exact absurd (List.suffix_nil.mp h) (List.cons_ne_nil _ _)
  · intro peer stop h
    rw [hlog] at h
    cases h
  · intro peer stop h
    rw [hcooldowns] at h
    cases h
  · intro c h
    rw [hcooldowns]
  · intro c h
    rw [hgood] at h
    cases h
  · exact fun _ => hlog

/-- Dropping cooldowns that are over keeps the invariant, as time goes on. -/
theorem Inv.retain (h : Inv cfg s) {now : Nat} (hnow : s.clock ≤ now) :
    Inv cfg (retain now s) ∧ Lasting now (WireguardLoop.retain now s) := by
  refine ⟨{h with force := ?_, ground := ?_, apart := ?_}, ?_⟩
  · intro peer stop hcooled hstop
    obtain ⟨later, hlater, hle⟩ := h.force peer stop hcooled (Nat.lt_of_le_of_lt hnow hstop)
    refine ⟨later, ?_, hle⟩
    show Option.filter _ (s.endpointCooldowns peer) = some later
    have hlong : now < later := Nat.lt_of_lt_of_le hstop hle
    rw [hlater, Option.filter_some, if_pos (decide_eq_true hlong)]
  · intro peer stop hstop
    exact h.ground peer stop (Option.mem_filter_iff.mp hstop).1
  · intro c hc
    show Option.filter _ (s.endpointCooldowns c.peer) = none
    rw [h.apart c hc]
    rfl
  · intro peer stop hstop
    simpa using (Option.mem_filter_iff.mp hstop).2

theorem Inv.tick (h : Inv cfg s) (n : Nat) : Inv cfg (tick n s) :=
  {h with force := fun peer stop hcooled hstop => h.force peer stop hcooled (Nat.lt_of_le_of_lt (Nat.le_add_right _ n) hstop)}

/-- The last good peer is cooled down for some time. -/
theorem Inv.cool (h : Inv cfg s) {c : Chosen} (hgood : s.lastGood = some c) (hquick : s.quick = none) {stop : Nat}
    (hstop : s.clock < stop) : Inv cfg (cool c.peer stop s) := by
  have hover : ∀ stop', .cooled c.peer stop' ∈ s.log → stop' ≤ s.clock := by
    intro stop' hcooled
    by_contra hnot
    obtain ⟨later, hlater, -⟩ := h.force c.peer stop' hcooled (Nat.lt_of_not_le hnot)
    rw [h.apart c hgood] at hlater
    cases hlater
  constructor
  · exact kept_snoc h.kept fun x _ => by cases x <;> trivial
  · exact h.explained.snoc trivial
  · intro peer t ht
    rw [WireguardLoop.cool, marks_snoc _ rfl] at ht
    cases last_mark ht
  · rintro peer ⟨t, u, ht⟩
    rw [WireguardLoop.cool, marks_snoc _ rfl] at ht
    cases (last_marks ht).1
  · intro peer stop' hcooled hstop'
    by_cases hpeer : peer = c.peer
    · subst hpeer
      refine ⟨stop, cool_self .., ?_⟩
      rcases List.mem_append.mp hcooled with hcooled | hcooled
      · exact Nat.le_of_lt (Nat.lt_of_le_of_lt (hover stop' hcooled) hstop)
      · cases List.mem_singleton.mp hcooled
        exact Nat.le_refl _
    · have hold : .cooled peer stop' ∈ s.log := by
        rcases List.mem_append.mp hcooled with hcooled | hcooled
        · exact hcooled
        · cases List.mem_singleton.mp hcooled
          exact absurd rfl hpeer
      obtain ⟨later, hlater, hle⟩ := h.force peer stop' hold hstop'
      exact ⟨later, (cool_of_ne hpeer ..).trans hlater, hle⟩
  · intro peer stop' hset
    by_cases hpeer : peer = c.peer
    · subst hpeer
      rw [cool_self] at hset
      cases hset
      obtain ⟨started, htried⟩ := h.tried c hgood
      exact ⟨List.mem_append_right _ (List.mem_singleton.mpr rfl), started, List.mem_append_left _ htried⟩
    · obtain ⟨hcooled, started, htried⟩ := h.ground peer stop' ((cool_of_ne hpeer ..).symm.trans hset)
      exact ⟨List.mem_append_left _ hcooled, started, List.mem_append_left _ htried⟩
  · intro c' hc'
    cases hc'
  · intro c' hc'
    cases hc'
  · intro hne
    exact absurd hquick hne

/-- The top of the loop keeps the invariant, and what is cooled down stays so beyond it. -/
theorem Inv.bench (h : Inv cfg s) (hlasting : Lasting s.clock s) :
    Inv cfg (bench cfg s.clock s) ∧ Lasting s.clock (WireguardLoop.bench cfg s.clock s) := by
  rw [WireguardLoop.bench]
  split
  · rename_i hfails
    split
    · rename_i hgood
      refine ⟨{h with last := ?_, twice := ?_}, hlasting⟩
      · intro peer t ht
        have hlast := (h.last peer t ht).1
        rw [hgood] at hlast
        cases hlast
      · rintro peer ⟨t, u, ht⟩
        have hlast := (h.last peer u (List.IsSuffix.trans ⟨[_], rfl⟩ ht)).1
        rw [hgood] at hlast
        cases hlast
    · rename_i c hgood
      dsimp only
      split
      · have hquick : s.quick = none := by
          by_contra hne
          obtain ⟨started, htried⟩ := h.tried c hgood
          rw [h.fresh hne] at htried
          cases htried
        have hcooldown : 0 < wgEndpointCooldown cfg.env := wgEndpointCooldown_pos _
        have hstop : s.clock < s.clock + wgEndpointCooldown cfg.env := by omega
        refine ⟨h.cool hgood hquick hstop, fun peer stop hset => ?_⟩
        by_cases hpeer : peer = c.peer
        · subst hpeer
          rw [cool_self] at hset
          cases hset
          exact hstop
        · exact hlasting peer stop ((cool_of_ne hpeer ..).symm.trans hset)
      · exact ⟨{h with}, hlasting⟩
  · exact ⟨h, hlasting⟩

/-- A tunnel to a peer that is not cooled down. -/
theorem Inv.connect (h : Inv cfg s) (pass : Pass) {c : Chosen} (hfree : s.endpointCooldowns c.peer = none)
    (hquick : s.quick = none) : Inv cfg (connect pass c s) := by
  constructor
  · refine kept_snoc h.kept fun x hx => ?_
    cases x with
    | cooled peer stop =>
      rintro rfl
      by_contra hnot
      obtain ⟨later, hlater, -⟩ := h.force c.peer stop hx (Nat.lt_of_not_le hnot)
      rw [hfree] at hlater
      cases hlater
    | hunted => trivial
    | tunnel => trivial
  · exact h.explained.snoc trivial
  · intro peer t ht
    rw [WireguardLoop.connect, marks_snoc _ rfl] at ht
    cases last_mark ht
    exact ⟨rfl, Nat.le_add_left ..⟩
  · rintro peer ⟨t, u, ht⟩
    rw [WireguardLoop.connect, marks_snoc _ rfl] at ht
    obtain ⟨heq, hbefore⟩ := last_marks ht
    cases heq
    obtain ⟨hlast, hfails⟩ := h.last _ _ hbefore
    show 2 ≤ (if s.lastGood.map Chosen.peer = some c.peer then s.consecutiveFailsOnPeer else 0) + 1
    rw [if_pos hlast]
    omega
  · intro peer stop hcooled hstop
    have hold : .cooled peer stop ∈ s.log := by
      rcases List.mem_append.mp hcooled with hcooled | hcooled
      · exact hcooled
      · cases List.mem_singleton.mp hcooled
    exact h.force peer stop hold (Nat.lt_of_le_of_lt (Nat.le_add_right _ _) hstop)
  · intro peer stop hset
    obtain ⟨hcooled, started, htried⟩ := h.ground peer stop hset
    exact ⟨List.mem_append_left _ hcooled, started, List.mem_append_left _ htried⟩
  · rintro c' ⟨⟩
    exact hfree
  · rintro c' ⟨⟩
    exact ⟨s.clock, List.mem_append_right _ (List.mem_singleton.mpr rfl)⟩
  · intro hne
    exact absurd hquick hne

/-- A scan, which leaves out what is cooled down. -/
theorem Inv.note (h : Inv cfg s) {clock now : Nat} (hclock : s.clock ≤ clock) (hlasting : Lasting now s)
    {modeStr : String} {ip : IpScan} {scans : List ScanMade} (hquick : s.quick = none)
    (hscans : ∀ scan ∈ scans,
      scan.candidates = candidatesOf cfg (fun e => (s.endpointCooldowns e).isSome) scan.probing) :
    Inv cfg (note clock (.hunted modeStr ip now scans) s) := by
  have hmarks : marks (s.log ++ [.hunted modeStr ip now scans]) = marks s.log := by
    rw [marks, List.filter_append]
    exact List.append_nil _
  constructor
  · exact kept_snoc h.kept fun x _ => by cases x <;> trivial
  · refine h.explained.snoc fun scan hscan c hc hout => ?_
    rw [hscans scan hscan] at hout
    have hset : ∃ stop, s.endpointCooldowns (.new c.1 c.2) = some stop := by
      by_contra hnot
      refine hout (mem_scanCandidates.mpr ⟨hc, ?_⟩)
      cases hcooldown : s.endpointCooldowns (.new c.1 c.2) with
      | none => rfl
      | some stop => exact absurd ⟨stop, hcooldown⟩ hnot
    obtain ⟨stop, hstop⟩ := hset
    obtain ⟨hcooled, started, htried⟩ := h.ground _ _ hstop
    exact ⟨stop, started, hcooled, hlasting _ _ hstop, htried⟩
  · intro peer t ht
    rw [WireguardLoop.note, hmarks] at ht
    exact h.last peer t ht
  · rintro peer ⟨t, u, ht⟩
    rw [WireguardLoop.note, hmarks] at ht
    exact h.twice peer ⟨t, u, ht⟩
  · intro peer stop hcooled hstop
    have hold : .cooled peer stop ∈ s.log := by
      rcases List.mem_append.mp hcooled with hcooled | hcooled
      · exact hcooled
      · cases List.mem_singleton.mp hcooled
    exact h.force peer stop hold (Nat.lt_of_le_of_lt hclock hstop)
  · intro peer stop hset
    obtain ⟨hcooled, started, htried⟩ := h.ground peer stop hset
    exact ⟨List.mem_append_left _ hcooled, started, List.mem_append_left _ htried⟩
  · exact h.apart
  · intro c hc
    obtain ⟨started, htried⟩ := h.tried c hc
    exact ⟨started, List.mem_append_left _ htried⟩
  · intro hne
    exact absurd hquick hne

/-! ### The scan -/

/-- What a hunt finds is a candidate of one of its scans; each of them leaves out what is excluded,
and time goes on. -/
theorem huntWgPeer_spec (cfg : Config) (excluded : SocketAddr → Bool) (profiles : List (String × Noize)) :
    ∀ (clock : Nat) (probing : Nat → Probing),
      (∀ c, (huntWgPeer cfg excluded clock probing profiles).1 = some c → excluded c.peer = false) ∧
      (∀ scan ∈ (huntWgPeer cfg excluded clock probing profiles).2.1,
        scan.candidates = candidatesOf cfg excluded scan.probing) ∧
      clock ≤ (huntWgPeer cfg excluded clock probing profiles).2.2 := by
  induction profiles with
  | nil =>
    intro clock probing
    refine ⟨fun c hc => ?_, fun scan hscan => ?_, Nat.le_refl _⟩
    · cases hc
    · exact absurd hscan List.not_mem_nil
  | cons profile rest ih =>
    intro clock probing
    rw [huntWgPeer]
    dsimp only
    cases hfound : huntWgPeerWithProfile cfg excluded (probing 0) with
    | error e =>
      obtain ⟨hchosen, hscans, hclock⟩ := ih (clock + (probing 0).took) fun i => probing (i + 1)
      refine ⟨hchosen, fun scan hscan => ?_, Nat.le_trans (Nat.le_add_right _ _) hclock⟩
      rcases List.mem_cons.mp hscan with rfl | hscan
      · rfl
      · exact hscans scan hscan
    | ok peer =>
      refine ⟨fun c hc => ?_, fun scan hscan => ?_, Nat.le_add_right _ _⟩
      · cases hc
        exact not_excluded hfound
      · rw [List.mem_singleton.mp hscan]

theorem Inv.findPeer (h : Inv cfg s) (hfree : cfg.forced = none) (pass : Pass) {now : Nat}
    (hlasting : Lasting now s) (hquick : s.quick = none) : Inv cfg (findPeer cfg pass now s) := by
  rw [WireguardLoop.findPeer, hfree]
  dsimp only
  obtain ⟨hchosen, hscans, hclock⟩ := huntWgPeer_spec cfg (fun e => (s.endpointCooldowns e).isSome) cfg.candidates
    s.clock pass.probing
  have hnote := @Inv.note cfg s h _ _ hclock hlasting cfg.modeStr cfg.ip _ hquick hscans
  split
  · rename_i c hc
    exact hnote.connect pass (Option.isSome_eq_false_iff.mp (hchosen c hc) |> Option.isNone_iff_eq_none.mp) hquick
  · exact hnote

theorem Inv.choosePeer (h : Inv cfg s) (hfree : cfg.forced = none) (pass : Pass) {now : Nat}
    (hlasting : Lasting now s) : Inv cfg (choosePeer cfg pass now s) := by
  rw [WireguardLoop.choosePeer]
  split
  · rename_i q hq
    have hlog : s.log = [] := h.fresh (by rw [hq]; exact Option.some_ne_none _)
    have hnone : s.endpointCooldowns q.peer = none := by
      cases hcooldown : s.endpointCooldowns q.peer with
      | none => rfl
      | some stop =>
        have hcooled := (h.ground _ _ hcooldown).1
        rw [hlog] at hcooled
        cases hcooled
    have hused : Inv cfg {s with quick := none} := {h with fresh := fun hne => absurd rfl hne}
    exact hused.connect pass hnone rfl
  · rename_i hquick
    split
    · rename_i c hgood
      dsimp only
      split
      · exact (h.tick pass.verifying).connect pass (h.apart c hgood) hquick
      · exact (h.tick pass.verifying).findPeer hfree pass hlasting hquick
    · exact h.findPeer hfree pass hlasting hquick

theorem Inv.next (h : Inv cfg s) (hfree : cfg.forced = none) (pass : Pass) : Inv cfg (next cfg pass s) := by
  rw [WireguardLoop.next]
  split
  · exact h
  · obtain ⟨hretain, hlasting⟩ := h.retain (Nat.le_add_right s.clock pass.waited)
    obtain ⟨hbench, hlasting⟩ := hretain.bench hlasting
    dsimp only
    split
    · exact hbench
    · exact hbench.choosePeer hfree pass hlasting

/-! ### The pass after two tunnels -/

theorem log_findPeer (hfree : cfg.forced = none) (pass : Pass) (now : Nat) (s : State) :
    s.log <+: (findPeer cfg pass now s).log := by
  rw [WireguardLoop.findPeer, hfree]
  dsimp only
  split
  · exact (List.prefix_append _ _).trans (List.prefix_append _ _)
  · exact List.prefix_append _ _

theorem log_choosePeer (hfree : cfg.forced = none) (pass : Pass) (now : Nat) (s : State) :
    s.log <+: (choosePeer cfg pass now s).log := by
  rw [WireguardLoop.choosePeer]
  split
  · exact List.prefix_append _ _
  · split
    · dsimp only
      split
      · exact List.prefix_append _ _
      · exact log_findPeer hfree pass now (tick pass.verifying s)
    · exact log_findPeer hfree pass now s

/-- The pass after two tunnels to a peer cools it down first. -/
theorem next_endedTwice (h : Inv cfg s) (hfree : cfg.forced = none) (hended : s.ended = none) {peer : SocketAddr}
    (htwice : EndedTwice peer s.log) (pass : Pass) :
    (next cfg pass s).ended = some .panicked ∨
      ∃ acts, (next cfg pass s).log =
        s.log ++ .cooled peer (s.clock + pass.waited + wgEndpointCooldown cfg.env) :: acts := by
  obtain ⟨t, u, hsuffix⟩ := htwice
  have hlast := (h.last peer u (List.IsSuffix.trans ⟨[_], rfl⟩ hsuffix)).1
  obtain ⟨c, hgood, rfl⟩ := Option.map_eq_some_iff.mp hlast
  have hfails := h.twice c.peer ⟨t, u, hsuffix⟩
  have hbench : bench cfg (s.clock + pass.waited) (retain (s.clock + pass.waited) s) =
      if s.clock + pass.waited + wgEndpointCooldown cfg.env < instantEnd then
        cool c.peer (s.clock + pass.waited + wgEndpointCooldown cfg.env) (retain (s.clock + pass.waited) s)
      else crash (retain (s.clock + pass.waited) s) := by
    have hmany : maxConsecutiveFails ≤ (retain (s.clock + pass.waited) s).consecutiveFailsOnPeer := hfails
    rw [WireguardLoop.bench, if_pos hmany, show (retain (s.clock + pass.waited) s).lastGood = some c from hgood]
  rw [WireguardLoop.next, hended, if_neg (by exact Bool.false_ne_true)]
  dsimp only
  rw [hbench]
  by_cases hend : s.clock + pass.waited + wgEndpointCooldown cfg.env < instantEnd
  · right
    rw [if_pos hend, show (cool _ _ (retain (s.clock + pass.waited) s)).ended = none from hended,
      if_neg (by exact Bool.false_ne_true)]
    obtain ⟨acts, hacts⟩ := log_choosePeer hfree pass (s.clock + pass.waited)
      (cool c.peer (s.clock + pass.waited + wgEndpointCooldown cfg.env) (retain (s.clock + pass.waited) s))
    refine ⟨acts, ?_⟩
    rw [← hacts]
    exact List.append_assoc ..
  · left
    rw [if_neg hend]
    rfl

end Steps

/-- In every run without a pinned peer: no tunnel starts before an earlier cooldown of its peer is
over; a scan leaves out only what was tried and has a cooldown that was not over when the pass
began; and the pass after two tunnels that ended on one peer in a row, counted since it was last
cooled down, cools it down before anything else. -/
theorem cooldown_law (env : Env) (identity : Identity) (before : Before) (hfree : forced env = none)
    (passes : List Pass) :
    (run (next (config env identity before)) (start env identity before) passes).log.Pairwise Kept ∧
    Always (Explained (config env identity before))
      (run (next (config env identity before)) (start env identity before) passes).log ∧
    ∀ peer, EndedTwice peer (run (next (config env identity before)) (start env identity before) passes).log →
      (run (next (config env identity before)) (start env identity before) passes).ended = none → ∀ pass,
        (run (next (config env identity before)) (start env identity before) (passes ++ [pass])).ended =
            some .panicked ∨
          ∃ acts, (run (next (config env identity before)) (start env identity before) (passes ++ [pass])).log =
            (run (next (config env identity before)) (start env identity before) passes).log ++
              .cooled peer ((run (next (config env identity before)) (start env identity before) passes).clock +
                pass.waited + wgEndpointCooldown env) :: acts := by
  have hforced : (config env identity before).forced = none := hfree
  have hstep (pass : Pass) (s : State) (h : Inv (config env identity before) s) :
      Inv (config env identity before) (next (config env identity before) pass s) := h.next hforced pass
  have hinv := run_invariant hstep (Inv.initial _ env identity before) passes
  refine ⟨hinv.kept, hinv.explained, fun peer htwice hended pass => ?_⟩
  rw [run_append]
  exact next_endedTwice hinv hforced hended htwice pass

/-! ### Runs in which the count starts anew -/

/-- One endpoint, in the range of the user; cooldowns last a second. -/
def oneEndpoint : Env := fun key =>
  if key = "AETHER_WG_CIDRS" then some "162.159.192.1"
  else if key = "AETHER_SCAN" then some "turbo"
  else if key = "AETHER_WG_ENDPOINT_COOLDOWN_SECS" then some "1"
  else none

def device : Identity where
  deviceId := "device-1"
  accessToken := "token-1"
  certPem := []
  keyPem := []
  certIssuedAt := 0
  ipv4 := "172.16.0.2"
  ipv6 := ""
  wgPrivateKey := List.Vector.replicate 32 1
  wgPeerPublicKey := List.Vector.replicate 32 2
  clientId := List.Vector.replicate 3 0
  organization := ""
  gatewayProxy := ""
  assignedEndpoint := ""
  refused := false

/-- The endpoint is found, answers again, is left out of four scans of two seconds each, and is
found and answers again when its cooldown is over. -/
def countedPasses : List Pass :=
  let found : Probing := {turns := [{waited := .verified 0 20}]}
  let nothing : Probing := {took := secs 2}
  [{probing := fun _ => found}, {responds := true}, {probing := fun _ => nothing}, {probing := fun _ => found}]

/-- The peers and the times of tunnels, and what a run cools down. -/
def Act.shown : Act → List (Bool × SocketAddr × Nat)
  | cooled peer stop => [(true, peer, stop)]
  | tunnel peer started => [(false, peer, started)]
  | hunted .. => []

def Act.scans : Act → List ScanMade
  | hunted _ _ _ scans => scans
  | cooled .. | tunnel .. => []

theorem cooldown_law_counted :
    (run (next (config oneEndpoint device {})) (start oneEndpoint device {}) countedPasses).log.Pairwise Kept :=
  (cooldown_law oneEndpoint device {} rfl countedPasses).1

/-- Three tunnels have ended on the endpoint with none to another one between, and the next pass
starts a fourth one at once; and the scans that begin after the end of its cooldown leave it out. -/
theorem cooldown_anew :
    (run (next (config oneEndpoint device {})) (start oneEndpoint device {}) (countedPasses ++ [{responds := true}])).log.flatMap
        Act.shown =
      [(false, .v4 (Rust.ipv4 162 159 192 1) 2408, 0), (false, .v4 (Rust.ipv4 162 159 192 1) 2408, 0),
        (true, .v4 (Rust.ipv4 162 159 192 1) 2408, secs 1), (false, .v4 (Rust.ipv4 162 159 192 1) 2408, secs 8),
        (false, .v4 (Rust.ipv4 162 159 192 1) 2408, secs 8)] ∧
    ((run (next (config oneEndpoint device {})) (start oneEndpoint device {}) countedPasses).log.flatMap Act.scans).map
        (fun scan => (scan.began, scan.candidates.length,
          (candidatesOf (config oneEndpoint device {}) (fun _ => false) scan.probing).length)) =
      [(0, 1, 1), (0, 0, 1), (secs 2, 0, 1), (secs 4, 0, 1), (secs 6, 0, 1), (secs 8, 1, 1)] := by
  decide +kernel

end Aether.Engine.WireguardLoop
