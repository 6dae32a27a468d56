import Aether.Engine.Reconnect

/-! Whether a rescan keeps the choices of the user.

What a loop scans with is fixed before it starts: a run that starts from an endpoint that was
assigned or saved scans with the default mode and the fourth version ever after, whatever was
selected. `choices_kept_iff` says which runs keep the selection: those that start without such
an endpoint, those whose selection is the default, and those that never scan, because every
gateway that a tunnel ended on still answers; the loop for WireGuard scans on its third pass in
any case. -/
namespace Aether.Engine
open Machine Scan
open Account (Identity)
open Profile (Env)
open Rust (parseIpv4)

/-- The scan mode and the addresses that the user selected. -/
def selected (env : Env) (answers : Answers) : ScanMode × IpScan :=
  (ScanMode.parse (selectScanModeStr env answers), selectIpVersion env answers)

/-- Every scan is made with the selection. -/
def Keeps (selection : ScanMode × IpScan) (hunts : List (ScanMode × IpScan)) : Prop := ∀ h ∈ hunts, h = selection

/-- What a run scans with that starts from an endpoint it has. -/
def unselected : ScanMode × IpScan := (.balanced, .v4)

section Keeps
variable {selection mode : ScanMode × IpScan} {hunts : List (ScanMode × IpScan)}

/-- Scans that are all made with one mode keep the selection if it is that mode, or if there are none. -/
theorem keeps_iff (h : ∀ x ∈ hunts, x = mode) : Keeps selection hunts ↔ selection = mode ∨ hunts = [] := by
  constructor
  · intro hkeeps
    cases hunts with
    | nil => exact .inr rfl
    | cons x rest => exact .inl ((hkeeps x (List.mem_cons_self ..)).symm.trans (h x (List.mem_cons_self ..)))
  · rintro (rfl | rfl)
    · exact h
    · exact fun x hx => absurd hx List.not_mem_nil

end Keeps

/-! ### Logs of one entry -/

section Logs
variable {ι σ α : Type} {next : ι → σ → σ} {log : σ → List α} {entry : α}

/-- A log that each step keeps or lengthens by one entry holds no other, if it held no other before. -/
theorem logged_run (hnext : ∀ i s, log (next i s) = log s ∨ log (next i s) = log s ++ [entry]) {s : σ}
    (h : ∀ x ∈ log s, x = entry) (inputs : List ι) : ∀ x ∈ log (run next s inputs), x = entry := by
  have hstep : ∀ (i : ι) (s : σ), (∀ x ∈ log s, x = entry) → ∀ x ∈ log (next i s), x = entry := by
    intro i s h x hx
    obtain hsame | hmore := hnext i s
    · rw [hsame] at hx
      exact h x hx
    · rw [hmore] at hx
      obtain hx | hx := List.mem_append.mp hx
      · exact h x hx
      · exact List.mem_singleton.mp hx
  exact run_invariant hstep h inputs

/-- What is in it stays there. -/
theorem logged_ne_nil (hnext : ∀ i s, log (next i s) = log s ∨ log (next i s) = log s ++ [entry]) {s : σ}
    (h : log s ≠ []) (inputs : List ι) : log (run next s inputs) ≠ [] := by
  have hstep : ∀ (i : ι) (s : σ), log s ≠ [] → log (next i s) ≠ [] := by
    intro i s h
    obtain hsame | hmore := hnext i s
    · rw [hsame]
      exact h
    · rw [hmore]
      exact List.append_ne_nil_of_right_ne_nil _ (List.cons_ne_nil _ _)
  exact run_invariant hstep h inputs

end Logs

/-! ### MASQUE -/

namespace MasqueLoop

def Act.hunt : Act → Option (ScanMode × IpScan)
  | hunted modeStr ip => some (ScanMode.parse modeStr, ip)
  | tunnel _ => none

def hunts (s : State) : List (ScanMode × IpScan) := s.log.filterMap Act.hunt

/-- What the run scans with. -/
def Config.choice (cfg : Config) : ScanMode × IpScan := (ScanMode.parse cfg.modeStr, cfg.ip)

variable {cfg : Config}

@[simp] theorem hunts_connect (peer : Rust.SocketAddr) (s : State) : hunts (connect peer s) = hunts s := by
  simp [hunts, connect, Act.hunt]

theorem hunts_findPeer (hfree : cfg.forced = none) (pass : Pass) (s : State) :
    hunts (findPeer cfg pass s) = hunts s ++ [cfg.choice] := by
  rw [findPeer, hfree]
  have hscan : hunts {s with log := s.log ++ [.hunted cfg.modeStr cfg.ip]} = hunts s ++ [cfg.choice] := by
    simp [hunts, Act.hunt, Config.choice]
  cases pass.found with
  | none => exact hscan
  | some peer => exact (hunts_connect peer _).trans hscan

/-- A pass keeps the scans that were made and adds at most one. -/
theorem hunts_next (hfree : cfg.forced = none) (pass : Pass) (s : State) :
    hunts (next cfg pass s) = hunts s ∨ hunts (next cfg pass s) = hunts s ++ [cfg.choice] := by
  rw [next]
  split
  · exact .inl rfl
  · split
    · exact .inl (hunts_connect _ _)
    · split
      · split
        · exact .inl (hunts_connect _ _)
        · exact .inr (hunts_findPeer hfree pass s)
      · exact .inr (hunts_findPeer hfree pass s)

/-- Every scan of a run is made with what was fixed before it. -/
theorem hunts_run (hfree : cfg.forced = none) (passes : List Pass) {s : State}
    (h : ∀ x ∈ hunts s, x = cfg.choice) : ∀ x ∈ hunts (run (next cfg) s passes), x = cfg.choice :=
  logged_run (hunts_next hfree) h passes

/-- Scans stay in the log. -/
theorem hunts_ne_nil (hfree : cfg.forced = none) (passes : List Pass) {s : State} (h : hunts s ≠ []) :
    hunts (run (next cfg) s passes) ≠ [] :=
  logged_ne_nil (hunts_next hfree) h passes

/-- From a good gateway on, a run scans unless the gateway answers in every pass. -/
theorem hunts_good (hfree : cfg.forced = none) (passes : List Pass) {s : State} {peer : Rust.SocketAddr}
    (hgood : s.lastGoodPeer = some peer) (hquick : s.quickPeer = none) (hended : s.ended = none)
    (hnone : hunts s = []) :
    hunts (run (next cfg) s passes) = [] ↔ ∀ pass ∈ passes, pass.responds = true := by
  induction passes generalizing s with
  | nil => exact ⟨fun _ _ h => absurd h List.not_mem_nil, fun _ => hnone⟩
  | cons pass rest ih =>
    rw [run, List.forall_mem_cons]
    have hstep : next cfg pass s = if pass.responds then connect peer s else findPeer cfg pass s := by
      rw [next, hended, if_neg (by exact Bool.false_ne_true), hquick]
      dsimp only
      rw [hgood]
    cases hresponds : pass.responds with
    | true =>
      have hrest := ih (s := connect peer s) rfl hquick hended ((hunts_connect _ _).trans hnone)
      rw [hstep, hresponds, if_pos rfl, hrest]
      exact ⟨fun h => ⟨rfl, h⟩, And.right⟩
    | false =>
      have hsome : hunts (next cfg pass s) ≠ [] := by
        rw [hstep, hresponds, if_neg Bool.false_ne_true, hunts_findPeer hfree]
        exact List.append_ne_nil_of_right_ne_nil _ (List.cons_ne_nil _ _)
      exact ⟨fun h => absurd h (hunts_ne_nil hfree rest hsome), fun h => absurd h.1 Bool.false_ne_true⟩

/-- A run that starts from an endpoint it has scans unless its gateway answers in every pass but the first. -/
theorem hunts_quick (hfree : cfg.forced = none) (passes : List Pass) (peer : Rust.SocketAddr) :
    hunts (run (next cfg) {quickPeer := some peer} passes) = [] ↔ ∀ pass ∈ passes.tail, pass.responds = true := by
  cases passes with
  | nil => exact ⟨fun _ _ h => absurd h List.not_mem_nil, fun _ => rfl⟩
  | cons first rest => exact @hunts_good cfg hfree rest _ peer rfl rfl rfl rfl

theorem kept_iff (env : Env) (before : Before) (hfree : env "AETHER_PEER" = none) (passes : List Pass) :
    Keeps (selected env before.answers) (hunts (run (next (config env before)) (start env before) passes)) ↔
      quickPeer env before = none ∨ selected env before.answers = unselected ∨
        ∀ pass ∈ passes.tail, pass.responds = true := by
  have hforced : (config env before).forced = none := hfree
  have hall := hunts_run hforced passes (s := start env before) fun _ h => absurd h List.not_mem_nil
  rw [keeps_iff hall]
  cases hquick : quickPeer env before with
  | none =>
    have hchoice : (config env before).choice = selected env before.answers := by
      rw [Config.choice, config, hfree, hquick]
      rfl
    exact ⟨fun _ => .inl rfl, fun _ => .inl hchoice.symm⟩
  | some peer =>
    have hchoice : (config env before).choice = unselected := by
      have hready : (config env before).modeStr = "" ∧ (config env before).ip = .v4 := by
        rw [config, hquick, Option.isSome_some, Bool.or_true, scanChoice, if_pos rfl]
        exact ⟨rfl, rfl⟩
      rw [Config.choice, hready.1, hready.2, parse_empty, unselected]
    rw [hchoice, start, hquick, hunts_quick hforced]
    exact ⟨.inr, fun h => h.resolve_left (Option.some_ne_none _)⟩

end MasqueLoop

/-! ### WireGuard -/

namespace WireguardLoop

def Act.hunt : Act → Option (ScanMode × IpScan)
  | hunted modeStr ip _ _ => some (ScanMode.parse modeStr, ip)
  | cooled .. | tunnel .. => none

def hunts (s : State) : List (ScanMode × IpScan) := s.log.filterMap Act.hunt

def Config.choice (cfg : Config) : ScanMode × IpScan := (ScanMode.parse cfg.modeStr, cfg.ip)

variable {cfg : Config}

@[simp] theorem hunts_connect (pass : Pass) (c : Chosen) (s : State) : hunts (connect pass c s) = hunts s := by
  simp [hunts, connect, Act.hunt]

theorem hunts_cool (peer : Rust.SocketAddr) (stop : Nat) (s : State) : hunts (cool peer stop s) = hunts s := by
  simp [hunts, cool, Act.hunt]

theorem hunts_bench (now : Nat) (s : State) : hunts (bench cfg now s) = hunts s := by
  rw [bench]
  split
  · split
    · rfl
    · dsimp only
      split
      · exact hunts_cool _ _ s
      · rfl
  · rfl

theorem hunts_findPeer (hfree : cfg.forced = none) (pass : Pass) (now : Nat) (s : State) :
    hunts (findPeer cfg pass now s) = hunts s ++ [cfg.choice] := by
  rw [findPeer, hfree]
  dsimp only
  have hscan (clock : Nat) (scans : List ScanMade) :
      hunts (note clock (.hunted cfg.modeStr cfg.ip now scans) s) = hunts s ++ [cfg.choice] := by
    simp [hunts, note, Act.hunt, Config.choice]
  split
  · rw [hunts_connect, hscan]
  · exact hscan _ _

theorem hunts_choosePeer (hfree : cfg.forced = none) (pass : Pass) (now : Nat) (s : State) :
    hunts (choosePeer cfg pass now s) = hunts s ∨ hunts (choosePeer cfg pass now s) = hunts s ++ [cfg.choice] := by
  rw [choosePeer]
  split
  · exact .inl (hunts_connect _ _ _)
  · split
    · dsimp only
      split
      · exact .inl (hunts_connect _ _ _)
      · exact .inr (hunts_findPeer hfree _ _ _)
    · exact .inr (hunts_findPeer hfree _ _ _)

/-- A pass keeps the scans that were made and adds at most one. -/
theorem hunts_next (hfree : cfg.forced = none) (pass : Pass) (s : State) :
    hunts (next cfg pass s) = hunts s ∨ hunts (next cfg pass s) = hunts s ++ [cfg.choice] := by
  rw [next]
  dsimp only
  split
  · exact .inl rfl
  · have hbench : hunts (bench cfg (s.clock + pass.waited) (retain (s.clock + pass.waited) s)) = hunts s :=
      hunts_bench _ _
    rw [← hbench]
    generalize bench cfg (s.clock + pass.waited) (retain (s.clock + pass.waited) s) = b
    split
    · exact .inl rfl
    · exact hunts_choosePeer hfree pass _ b

theorem hunts_run (hfree : cfg.forced = none) (passes : List Pass) {s : State}
    (h : ∀ x ∈ hunts s, x = cfg.choice) : ∀ x ∈ hunts (run (next cfg) s passes), x = cfg.choice :=
  logged_run (hunts_next hfree) h passes

theorem hunts_ne_nil (hfree : cfg.forced = none) (passes : List Pass) {s : State} (h : hunts s ≠ []) :
    hunts (run (next cfg) s passes) ≠ [] :=
  logged_ne_nil (hunts_next hfree) h passes

/-- A run that has ended stays as it is. -/
theorem run_ended (passes : List Pass) {s : State} (h : s.ended.isSome = true) : run (next cfg) s passes = s := by
  induction passes with
  | nil => rfl
  | cons pass rest ih =>
    rw [run, next, if_pos h]
    exact ih

/-- The passes of a run that starts from an endpoint and makes no scan: the endpoint answers in the
second one, and the third one, which cools it down, finds no end of the cooldown. -/
def Steady (cfg : Config) : List Pass → Prop
  | first :: second :: rest =>
    second.responds = true ∧
      ∀ third ∈ rest.head?,
        instantEnd ≤ first.waited + first.tunnelled + second.waited + second.verifying + second.tunnelled +
          third.waited + wgEndpointCooldown cfg.env
  | _ => True

/-- A pass after a single tunnel: to the same peer if it answers, else after a scan. -/
theorem next_once (hfree : cfg.forced = none) (pass : Pass) {s : State} {c : Chosen} (hended : s.ended = none)
    (hquick : s.quick = none) (hgood : s.lastGood = some c) (hfails : s.consecutiveFailsOnPeer = 1) :
    if pass.responds then
      next cfg pass s = connect pass c (tick pass.verifying (retain (s.clock + pass.waited) s))
    else hunts (next cfg pass s) ≠ [] := by
  have hbench : bench cfg (s.clock + pass.waited) (retain (s.clock + pass.waited) s) =
      retain (s.clock + pass.waited) s := by
    rw [bench, show (retain (s.clock + pass.waited) s).consecutiveFailsOnPeer = 1 from hfails, if_neg (by decide)]
  have hstep : next cfg pass s = choosePeer cfg pass (s.clock + pass.waited) (retain (s.clock + pass.waited) s) := by
    rw [next, hended, if_neg (by exact Bool.false_ne_true)]
    dsimp only
    rw [hbench, show (retain (s.clock + pass.waited) s).ended = none from hended, if_neg (by exact Bool.false_ne_true)]
  rw [hstep, choosePeer, show (retain (s.clock + pass.waited) s).quick = none from hquick]
  dsimp only
  rw [show (retain (s.clock + pass.waited) s).lastGood = some c from hgood]
  dsimp only
  split
  · rfl
  · rw [hunts_findPeer hfree]
    exact List.append_ne_nil_of_right_ne_nil _ (List.cons_ne_nil _ _)

/-- A pass after a second tunnel to the same peer scans, unless the cooldown has no end. -/
theorem next_twice (hfree : cfg.forced = none) (pass : Pass) {s : State} {c : Chosen} (hended : s.ended = none)
    (hquick : s.quick = none) (hgood : s.lastGood = some c) (hfails : s.consecutiveFailsOnPeer = 2) :
    if s.clock + pass.waited + wgEndpointCooldown cfg.env < instantEnd then hunts (next cfg pass s) ≠ []
    else (next cfg pass s).ended.isSome = true ∧ hunts (next cfg pass s) = hunts s := by
  have hstep : next cfg pass s =
      let b := bench cfg (s.clock + pass.waited) (retain (s.clock + pass.waited) s)
      if b.ended.isSome then b else choosePeer cfg pass (s.clock + pass.waited) b := by
    rw [next, hended, if_neg (by exact Bool.false_ne_true)]
  have hbench : bench cfg (s.clock + pass.waited) (retain (s.clock + pass.waited) s) =
      if s.clock + pass.waited + wgEndpointCooldown cfg.env < instantEnd then
        cool c.peer (s.clock + pass.waited + wgEndpointCooldown cfg.env) (retain (s.clock + pass.waited) s)
      else crash (retain (s.clock + pass.waited) s) := by
    rw [bench, show (retain (s.clock + pass.waited) s).consecutiveFailsOnPeer = 2 from hfails, if_pos (by decide),
      show (retain (s.clock + pass.waited) s).lastGood = some c from hgood]
  rw [hstep]
  dsimp only
  split
  · rename_i hend
    rw [hbench, if_pos hend]
    generalize hb : cool c.peer _ (retain (s.clock + pass.waited) s) = b
    have hbended : b.ended = none := by rw [← hb]; exact hended
    have hbquick : b.quick = none := by rw [← hb]; exact hquick
    have hbgood : b.lastGood = none := by rw [← hb]; rfl
    rw [hbended, if_neg (by exact Bool.false_ne_true), choosePeer, hbquick]
    dsimp only
    rw [hbgood]
    dsimp only
    rw [hunts_findPeer hfree]
    exact List.append_ne_nil_of_right_ne_nil _ (List.cons_ne_nil _ _)
  · rename_i hend
    rw [hbench, if_neg hend]
    exact ⟨rfl, rfl⟩

theorem hunts_quick (hfree : cfg.forced = none) (passes : List Pass) (c : Chosen) :
    hunts (run (next cfg) {quick := some c} passes) = [] ↔ Steady cfg passes := by
  match passes with
  | [] => exact ⟨fun _ => trivial, fun _ => rfl⟩
  | [first] => exact ⟨fun _ => trivial, fun _ => rfl⟩
  | first :: second :: rest =>
    rw [run, run, Steady]
    generalize hs : next cfg first {quick := some c} = s
    have hended : s.ended = none := by rw [← hs]; rfl
    have hquick : s.quick = none := by rw [← hs]; rfl
    have hgood : s.lastGood = some c := by rw [← hs]; rfl
    have hfails : s.consecutiveFailsOnPeer = 1 := by rw [← hs]; rfl
    have hnone : hunts s = [] := by rw [← hs]; rfl
    have hclock : s.clock = first.waited + first.tunnelled := by
      rw [← hs]
      show 0 + first.waited + first.tunnelled = _
      omega
    have hsecond := next_once hfree second hended hquick hgood hfails
    cases hresponds : second.responds with
    | false =>
      rw [hresponds, if_neg Bool.false_ne_true] at hsecond
      exact ⟨fun h => absurd h (hunts_ne_nil hfree rest hsecond), fun h => absurd h.1 Bool.false_ne_true⟩
    | true =>
      rw [hresponds, if_pos rfl] at hsecond
      rw [hsecond]
      generalize ht : connect second c (tick second.verifying (retain (s.clock + second.waited) s)) = t
      have htended : t.ended = none := by rw [← ht]; exact hended
      have htquick : t.quick = none := by rw [← ht]; exact hquick
      have htgood : t.lastGood = some c := by rw [← ht]; rfl
      have htfails : t.consecutiveFailsOnPeer = 2 := by
        rw [← ht, connect]
        dsimp only
        rw [show (tick second.verifying (retain (s.clock + second.waited) s)).lastGood = some c from hgood,
          Option.map_some, if_pos rfl, show (tick second.verifying (retain (s.clock + second.waited)
            s)).consecutiveFailsOnPeer
            = 1 from hfails]
      have htnone : hunts t = [] := by rw [← ht, hunts_connect]; exact hnone
      have htclock : t.clock =
          first.waited + first.tunnelled + second.waited + second.verifying + second.tunnelled := by
        rw [← hclock, ← ht]
        rfl
      cases rest with
      | nil => exact ⟨fun _ => ⟨rfl, fun _ h => by cases h⟩, fun _ => htnone⟩
      | cons third rest =>
        rw [run, ← htclock]
        have hthird := next_twice hfree third htended htquick htgood htfails
        by_cases hend : t.clock + third.waited + wgEndpointCooldown cfg.env < instantEnd
        · rw [if_pos hend] at hthird
          refine ⟨fun h => absurd h (hunts_ne_nil hfree rest hthird), fun h => ?_⟩
          have hbeyond := h.2 third rfl
          omega
        · rw [if_neg hend] at hthird
          rw [run_ended rest hthird.1, hthird.2]
          refine ⟨fun _ => ⟨rfl, ?_⟩, fun _ => htnone⟩
          intro t ht
          cases ht
          omega

theorem kept_iff (env : Env) (identity : Identity) (before : Before) (hfree : forced env = none) (passes : List Pass) :
    Keeps (selected env before.answers)
        (hunts (run (next (config env identity before)) (start env identity before) passes)) ↔
      parseIpv4 identity.ipv4 = none ∨ quick env before = none ∨ selected env before.answers = unselected ∨
        Steady (config env identity before) passes := by
  have hforced : (config env identity before).forced = none := hfree
  cases hip : parseIpv4 identity.ipv4 with
  | none =>
    rw [start, hip, run_ended passes rfl]
    exact ⟨fun _ => .inl rfl, fun _ _ h => absurd h List.not_mem_nil⟩
  | some bits =>
    rw [start, hip]
    have hall := hunts_run hforced passes (s := {quick := quick env before}) fun _ h => absurd h List.not_mem_nil
    rw [keeps_iff hall]
    cases hquick : quick env before with
    | none =>
      have hchoice : (config env identity before).choice = selected env before.answers := by
        rw [Config.choice, config, hfree, hquick]
        rfl
      exact ⟨fun _ => .inr (.inl rfl), fun _ => .inl hchoice.symm⟩
    | some c =>
      have hchoice : (config env identity before).choice = unselected := by
        have hready : (config env identity before).modeStr = "" ∧ (config env identity before).ip = .v4 := by
          rw [config, hquick, Option.isSome_some, Bool.or_true, scanChoice, if_pos rfl]
          exact ⟨rfl, rfl⟩
        rw [Config.choice, hready.1, hready.2, parse_empty, unselected]
      rw [hchoice, hunts_quick hforced]
      constructor
      · exact fun h => .inr (.inr h)
      · rintro (h | h | h)
        · cases h
        · cases h
        · exact h

end WireguardLoop

/-! ### Both -/

/-- Rescans keep the user's choices exactly in the runs that start without an endpoint, that
select what the loop falls back to, or that never scan. -/
theorem choices_kept_iff (env : Env) (before : Before) :
    (env "AETHER_PEER" = none → ∀ passes,
      (Keeps (selected env before.answers)
          (MasqueLoop.hunts (run (MasqueLoop.next (MasqueLoop.config env before))
            (MasqueLoop.start env before) passes)) ↔
        MasqueLoop.quickPeer env before = none ∨ selected env before.answers = unselected ∨
          ∀ pass ∈ passes.tail, pass.responds = true)) ∧
    (WireguardLoop.forced env = none → ∀ identity passes,
      (Keeps (selected env before.answers)
          (WireguardLoop.hunts (run (WireguardLoop.next (WireguardLoop.config env identity before))
            (WireguardLoop.start env identity before) passes)) ↔
        parseIpv4 identity.ipv4 = none ∨ WireguardLoop.quick env before = none ∨
          selected env before.answers = unselected ∨
          WireguardLoop.Steady (WireguardLoop.config env identity before) passes)) :=
  ⟨MasqueLoop.kept_iff env before, fun hfree identity => WireguardLoop.kept_iff env identity before hfree⟩

/-! ### A choice that is lost -/

/-- The user asks for a thorough scan of the sixth version, and the last gateway is reused. -/
def thoroughEnv : Env := fun key =>
  if key = "AETHER_SCAN" then some "thorough"
  else if key = "AETHER_IP" then some "6"
  else if key = "AETHER_QUICK_RECONNECT" then some "1"
  else none

def savedGateway : Before where
  cached := some {peer := "162.159.198.1:443", profile := "firewall"}
  cachedWorks := true

/-- The gateway that was reused no longer answers in the second pass, and the scan is a balanced
one of the fourth version. -/
theorem choice_lost : thoroughEnv "AETHER_PEER" = none ∧
    selected thoroughEnv savedGateway.answers = (.thorough, .v6) ∧
    MasqueLoop.hunts (run (MasqueLoop.next (MasqueLoop.config thoroughEnv savedGateway))
      (MasqueLoop.start thoroughEnv savedGateway) [{}, {}]) = [(.balanced, .v4)] := by
  decide +kernel

end Aether.Engine
