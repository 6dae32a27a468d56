import Aether.Machine.Loop
import Aether.Scan.Prober

/-! What the hunts pick.

A hunt takes answers in the order in which they come, until a deadline, a quiet time or enough
answers end it. What it gives is picked from the answers that came before, and does not depend
on their order but for equally quick ones: the quickest of all, or the quickest of the quickest
ones of each address (`endpoints_picked`, `gateway_picked`). -/
namespace Aether.Scan
open Machine
open Profile (Env)
open Rust (IpAddr SocketAddr firstOfEach sortByKey)

/-! ### Answers -/

/-- The answer that comes in a turn. -/
def answer (candidates : List (IpAddr × UInt16)) (t : ProbeTurn) : Option WgProbeResult :=
  match t.waited with
  | .verified i rtt => candidates[i]?.map fun (ip, port) => {ip, port, rtt}
  | .failed => none
  | .finished => none
  | .slept => none

/-- The probes that completed. -/
def completed (candidates : List (IpAddr × UInt16)) (turns : List ProbeTurn) : List WgProbeResult :=
  turns.filterMap (answer candidates)

theorem completed_snoc (candidates : List (IpAddr × UInt16)) (turns : List ProbeTurn) (t : ProbeTurn) :
    completed candidates (turns ++ [t]) = completed candidates turns ++ (answer candidates t).toList := by
  rw [completed, completed, List.filterMap_append, List.filterMap_cons, List.filterMap_nil]
  cases answer candidates t <;> rfl

/-- What ends a turn, or the answer that it took. -/
def ends (t : ProbeTurn) : Bool :=
  match t.waited with
  | .finished => true
  | .slept => true
  | .verified _ _ => false
  | .failed => false

theorem answer_of_ends {candidates : List (IpAddr × UInt16)} {t : ProbeTurn} (h : ends t = true) :
    answer candidates t = none := by
  rw [answer]
  rw [ends] at h
  split at h
  · rename_i hwaited
    rw [hwaited]
  · rename_i hwaited
    rw [hwaited]
  · cases h
  · cases h

/-! ### Endpoints -/

section Endpoints
variable (st : WgStrategy) (want : Nat) (candidates : List (IpAddr × UInt16))

/-- A turn of the loop of `hunt_wg_endpoints`. -/
def huntTurn (t : ProbeTurn) (s : List WgProbeResult × Option Nat) :
    Option ((List WgProbeResult × Option Nat) ⊕ HuntEnd) :=
  if effectiveEnd st s.2 ≤ t.now then none
  else if ends t then some (.inr (.verified s.1))
  else
    match answer candidates t with
    | none => some (.inl s)
    | some pr =>
      if st.earlyExitFirst then some (.inr (.early pr))
      else if want ≤ (distinctByIp (s.1 ++ [pr])).length ∧ 1 < want then some (.inr (.verified (s.1 ++ [pr])))
      else if 0 < st.targetSuccesses ∧ st.targetSuccesses ≤ (s.1 ++ [pr]).length ∧ s.2 = none then
        if st.quietAfterFirst ≠ 0 then some (.inl (s.1 ++ [pr], some (t.later + st.quietAfterFirst)))
        else some (.inr (.verified (s.1 ++ [pr])))
      else some (.inl (s.1 ++ [pr], s.2))

theorem huntLoop_eq (verified : List WgProbeResult) (quietUntil : Option Nat) (turns : List ProbeTurn) :
    huntLoop st want candidates verified quietUntil turns =
      loopOver (huntTurn st want candidates) (fun s => .verified s.1) (verified, quietUntil) turns := by
  induction turns generalizing verified quietUntil with
  | nil => rfl
  | cons t rest ih =>
    rw [huntLoop.eq_def, loopOver, huntTurn]
    dsimp only
    by_cases hdeadline : effectiveEnd st quietUntil ≤ t.now
    · rw [if_pos hdeadline, if_pos hdeadline]
    · rw [if_neg hdeadline, if_neg hdeadline]
      cases hwaited : t.waited with
      | finished => simp only [ends, hwaited, if_true]
      | slept => simp only [ends, hwaited, if_true]
      | failed =>
        simp only [ends, answer, hwaited, Bool.false_eq_true, if_false]
        exact ih verified quietUntil
      | verified i rtt =>
        simp only [ends, answer, hwaited, Bool.false_eq_true, if_false]
        cases candidates[i]? with
        | none => exact ih verified quietUntil
        | some c =>
          obtain ⟨ip, port⟩ := c
          dsimp only [Option.map_some]
          split_ifs
          · rfl
          · rfl
          · exact ih _ _
          · rfl
          · exact ih _ _

/-- What the loop knows: the answers so far, and none where the first one ends it. -/
def Heard (taken : List ProbeTurn) (s : List WgProbeResult × Option Nat) : Prop :=
  s.1 = completed candidates taken ∧ (st.earlyExitFirst = true → s.1 = [])

/-- What it ends with. -/
def HuntEnd.Heard (taken : List ProbeTurn) : HuntEnd → Prop
  | early pr => completed candidates taken = [pr]
  | verified found => found = completed candidates taken

theorem heard_turn {taken : List ProbeTurn} {s : List WgProbeResult × Option Nat} {t : ProbeTurn}
    (hs : Heard st candidates taken s) (outcome : (List WgProbeResult × Option Nat) ⊕ HuntEnd)
    (h : huntTurn st want candidates t s = some outcome) :
    outcome.elim (Heard st candidates (taken ++ [t])) (HuntEnd.Heard candidates (taken ++ [t])) := by
  obtain ⟨heard, hearly⟩ := hs
  rw [huntTurn] at h
  split at h
  · cases h
  · split at h
    · rename_i hends
      obtain rfl := Option.some.inj h
      show s.1 = _
      rw [completed_snoc, answer_of_ends hends, heard]
      exact (List.append_nil _).symm
    · cases hanswer : answer candidates t with
      | none =>
        rw [hanswer] at h
        obtain rfl := Option.some.inj h
        refine ⟨?_, hearly⟩
        rw [completed_snoc, hanswer, heard]
        exact (List.append_nil _).symm
      | some pr =>
        have hmore : s.1 ++ [pr] = completed candidates (taken ++ [t]) := by
          rw [completed_snoc, hanswer, heard]
          rfl
        rw [hanswer] at h
        dsimp only at h
        split_ifs at h with hfirst <;> obtain rfl := Option.some.inj h
        · show completed _ _ = [pr]
          rw [← hmore, hearly hfirst]
          rfl
        · exact hmore
        · exact ⟨hmore, fun htrue => absurd htrue hfirst⟩
        · exact hmore
        · exact ⟨hmore, fun htrue => absurd htrue hfirst⟩

/-- The loop ends with the answers that it took. -/
theorem heard_loop (turns : List ProbeTurn) :
    (huntLoop st want candidates [] none turns).Heard candidates
      (taken (huntTurn st want candidates) ([], none) turns) := by
  rw [huntLoop_eq]
  have hstart : Heard st candidates [] ([], none) := ⟨rfl, fun _ => rfl⟩
  refine loopOver_taken (P := Heard st candidates) (Q := fun is r => HuntEnd.Heard candidates is r) _ _ ?_ ?_ ?_ hstart turns
  · intro is s t s' hs hturn
    exact heard_turn st want candidates hs _ hturn
  · intro is s t r hs hturn
    exact heard_turn st want candidates hs _ hturn
  · intro is s hs
    exact hs.1

end Endpoints

/-- What is picked from answers: the quickest one of each of the quickest addresses. -/
structure Picks (want : Nat) (found picked : List WgProbeResult) : Prop where
  few : picked.length ≤ want
  verified : picked ⊆ found
  separate : picked.Pairwise fun a b => a.ip ≠ b.ip
  sorted : picked.Pairwise fun a b => a.rtt ≤ b.rtt
  fastest : ∀ pr ∈ picked, ∀ q ∈ found, q.ip = pr.ip → pr.rtt ≤ q.rtt
  outside : ∀ q ∈ found, (∀ pr ∈ picked, pr.ip ≠ q.ip) → ∀ pr ∈ picked, pr.rtt ≤ q.rtt

theorem distinctByIp_sorted (found : List WgProbeResult) : (distinctByIp found).Pairwise fun a b => a.rtt ≤ b.rtt :=
  (Rust.pairwise_sortByKey _ _).sublist (Rust.firstOfEach_sublist _ _ _)

theorem distinctByIp_fastest {found : List WgProbeResult} {pr q : WgProbeResult} (hpr : pr ∈ distinctByIp found)
    (hq : q ∈ found) (hip : q.ip = pr.ip) : pr.rtt ≤ q.rtt :=
  Rust.firstOfEach_first WgProbeResult.ip (fun _ => Nat.le_refl _) (Rust.pairwise_sortByKey _ _) hpr
    (Rust.mem_sortByKey.mpr hq) hip

theorem exists_distinctByIp {found : List WgProbeResult} {q : WgProbeResult} (hq : q ∈ found) :
    ∃ pr ∈ distinctByIp found, pr.ip = q.ip :=
  Rust.exists_mem_firstOfEach WgProbeResult.ip (Rust.mem_sortByKey.mpr hq) List.not_mem_nil

theorem distinctByIp_eq_nil {found : List WgProbeResult} : distinctByIp found = [] ↔ found = [] := by
  apply Iff.intro
  · intro h
    apply List.eq_nil_iff_forall_not_mem.mpr
    intro q hq
    obtain ⟨pr, hpr, -⟩ := exists_distinctByIp hq
    rw [h] at hpr
    cases hpr
  · rintro rfl
    rfl

theorem picks_take (want : Nat) (found : List WgProbeResult) : Picks want found ((distinctByIp found).take want) where
  few := List.length_take_le ..
  verified pr hpr := mem_distinctByIp (List.mem_of_mem_take hpr)
  separate := (Rust.firstOfEach_pairwise _ _ _).sublist (List.take_sublist _ _)
  sorted := (distinctByIp_sorted found).sublist (List.take_sublist _ _)
  fastest pr hpr q hq hip := distinctByIp_fastest (List.mem_of_mem_take hpr) hq hip
  outside := by
    intro q hq hout pr hpr
    obtain ⟨other, hother, hip⟩ := exists_distinctByIp hq
    have hsorted := distinctByIp_sorted found
    rw [← List.take_append_drop want (distinctByIp found), List.pairwise_append] at hsorted
    rw [← List.take_append_drop want (distinctByIp found), List.mem_append] at hother
    obtain hother | hother := hother
    · exact absurd hip (hout other hother)
    · have hrest : pr.rtt ≤ other.rtt := hsorted.2.2 pr hpr other hother
      have hmem : other ∈ distinctByIp found := List.mem_of_mem_drop hother
      exact hrest.trans (distinctByIp_fastest hmem hq hip.symm)

theorem picks_single {want : Nat} (h : 1 ≤ want) (pr : WgProbeResult) : Picks want [pr] [pr] where
  few := h
  verified := List.Subset.refl _
  separate := List.pairwise_singleton _ _
  sorted := List.pairwise_singleton _ _
  fastest a ha b hb _ := by rw [List.mem_singleton.mp ha, List.mem_singleton.mp hb]
  outside a ha _ b hb := by rw [List.mem_singleton.mp ha, List.mem_singleton.mp hb]

/-- The strategy of a hunt for several endpoints. -/
def huntStrategy (mode : ScanMode) (want : Nat) : WgStrategy :=
  if 1 < want then
    {mode.strategy with earlyExitFirst := false, targetSuccesses := max mode.strategy.targetSuccesses (want * 3)}
  else mode.strategy

section
variable (env : Env) (ports : List UInt16) (mode : ScanMode) (ip : IpScan) (p : Probing)

/-- The probes that completed before `hunt_wg_endpoints` stopped. -/
def completedEndpoints (excluded : SocketAddr → Bool) (want : Nat) : List WgProbeResult :=
  let candidates := scanCandidates env ports mode ip excluded p
  match effectiveIp ip p.hasIpv6 with
  | none => []
  | some _ =>
    completed candidates (taken (huntTurn (huntStrategy mode (max want 1)) (max want 1) candidates) ([], none) p.turns)

/-- What a hunt for endpoints gives is picked from the answers that came before it stopped, and it
gives nothing only if there were none. -/
theorem endpoints_picked (excluded : SocketAddr → Bool) (want : Nat) :
    (∀ picked, huntWgEndpoints env ports mode ip excluded want p = some picked →
      Picks (max want 1) (completedEndpoints env ports mode ip p excluded want) picked) ∧
    (huntWgEndpoints env ports mode ip excluded want p = none ↔ completedEndpoints env ports mode ip p excluded want = []) := by
  have hwant : 1 ≤ max want 1 := le_max_right _ _
  rw [completedEndpoints, huntWgEndpoints, scanCandidates]
  cases effectiveIp ip p.hasIpv6 with
  | none => exact ⟨fun _ h => (Option.some_ne_none _ h.symm).elim, fun _ => rfl, fun _ => rfl⟩
  | some effective =>
    dsimp only
    rw [← huntStrategy]
    have hheard := heard_loop (huntStrategy mode (max want 1)) (max want 1)
      (buildWgCandidates env mode.strategy ports p.dice effective excluded) p.turns
    cases hend : huntLoop (huntStrategy mode (max want 1)) (max want 1)
        (buildWgCandidates env mode.strategy ports p.dice effective excluded) [] none p.turns with
    | early pr =>
      rw [hend] at hheard
      have hone : completed _ _ = [pr] := hheard
      rw [hone]
      refine ⟨?_, fun h => (Option.some_ne_none _ h).elim, fun h => (List.cons_ne_nil _ _ h).elim⟩
      intro picked hpicked
      rw [← Option.some.inj hpicked]
      exact picks_single hwant pr
    | verified found =>
      rw [hend] at hheard
      have hfound : found = completed _ _ := hheard
      rw [← hfound]
      dsimp only
      by_cases hnone : (distinctByIp found).isEmpty = true
      · rw [if_pos hnone]
        have hnil := distinctByIp_eq_nil.mp (List.isEmpty_iff.mp hnone)
        exact ⟨fun _ h => (Option.some_ne_none _ h.symm).elim, fun _ => hnil, fun _ => rfl⟩
      · rw [if_neg hnone]
        refine ⟨?_, fun h => (Option.some_ne_none _ h).elim, fun h => ?_⟩
        · intro picked hpicked
          rw [← Option.some.inj hpicked]
          exact picks_take _ found
        · rw [h] at hnone
          exact absurd rfl hnone

end

/-! ### Gateways -/

/-- The quickest of the answers, the first of equally quick ones. -/
def quickest (found : List ProbeResult) : Option ProbeResult :=
  found.foldl (fun best pr => some (quicker best pr)) none

theorem quickest_snoc (found : List ProbeResult) (pr : ProbeResult) :
    quickest (found ++ [pr]) = some (quicker (quickest found) pr) := by
  rw [quickest, List.foldl_append]
  rfl

theorem quickest_eq_none {found : List ProbeResult} : quickest found = none ↔ found = [] := by
  induction found using List.reverseRecOn with
  | nil => exact ⟨fun _ => rfl, fun _ => rfl⟩
  | append_singleton found pr _ =>
    rw [quickest_snoc]
    exact ⟨fun h => (Option.some_ne_none _ h).elim, fun h => (List.append_ne_nil_of_right_ne_nil _ (List.cons_ne_nil _ _) h).elim⟩

theorem quickest_minimal {found : List ProbeResult} {best : ProbeResult} (h : quickest found = some best) :
    best ∈ found ∧ ∀ pr ∈ found, best.rtt ≤ pr.rtt := by
  induction found using List.reverseRecOn generalizing best with
  | nil => cases h
  | append_singleton found pr ih =>
    rw [quickest_snoc] at h
    obtain rfl := Option.some.inj h
    cases hfound : quickest found with
    | none =>
      rw [quickest_eq_none.mp hfound]
      exact ⟨List.mem_singleton.mpr rfl, fun q hq => by rw [List.mem_singleton.mp hq]; exact Nat.le_refl _⟩
    | some cur =>
      obtain ⟨hmem, hmin⟩ := ih hfound
      rw [quicker]
      split
      · rename_i hle
        refine ⟨List.mem_append_left _ hmem, fun q hq => ?_⟩
        obtain hq | hq := List.mem_append.mp hq
        · exact hmin q hq
        · rw [List.mem_singleton.mp hq]
          exact hle
      · rename_i hgt
        refine ⟨List.mem_append_right _ (List.mem_singleton.mpr rfl), fun q hq => ?_⟩
        obtain hq | hq := List.mem_append.mp hq
        · exact Nat.le_trans (Nat.le_of_not_le hgt) (hmin q hq)
        · rw [List.mem_singleton.mp hq]

section Gateways
variable (st : Strategy) (candidates : List (IpAddr × UInt16))

/-- What the loop of `hunt_best_gateway` carries. -/
structure Hunting where
  best : Option ProbeResult
  found : Nat
  quietUntil : Option Nat

/-- A turn of it. -/
def gatewayTurn (t : ProbeTurn) (s : Hunting) : Option (Hunting ⊕ Option ProbeResult) :=
  if gatewayEnd st s.quietUntil ≤ t.now then none
  else if ends t then some (.inr s.best)
  else
    match answer candidates t with
    | none => some (.inl s)
    | some pr =>
      if st.earlyExitFirst then some (.inr (some pr))
      else if 0 < st.targetSuccesses ∧ st.targetSuccesses ≤ s.found + 1 ∧ s.quietUntil = none then
        if st.quietAfterFirst ≠ 0 then
          some (.inl ⟨some (quicker s.best pr), s.found + 1, some (t.later + st.quietAfterFirst)⟩)
        else some (.inr (some (quicker s.best pr)))
      else some (.inl ⟨some (quicker s.best pr), s.found + 1, s.quietUntil⟩)

theorem gatewayLoop_eq (s : Hunting) (turns : List ProbeTurn) :
    gatewayLoop st candidates s.best s.found s.quietUntil turns =
      loopOver (gatewayTurn st candidates) Hunting.best s turns := by
  induction turns generalizing s with
  | nil => rfl
  | cons t rest ih =>
    rw [gatewayLoop.eq_def, loopOver, gatewayTurn]
    dsimp only
    by_cases hdeadline : gatewayEnd st s.quietUntil ≤ t.now
    · rw [if_pos hdeadline, if_pos hdeadline]
    · rw [if_neg hdeadline, if_neg hdeadline]
      cases hwaited : t.waited with
      | finished => simp only [ends, hwaited, if_true]
      | slept => simp only [ends, hwaited, if_true]
      | failed =>
        simp only [ends, answer, hwaited, Bool.false_eq_true, if_false]
        exact ih s
      | verified i rtt =>
        simp only [ends, answer, hwaited, Bool.false_eq_true, if_false]
        cases candidates[i]? with
        | none => exact ih s
        | some c =>
          obtain ⟨ip, port⟩ := c
          dsimp only [Option.map_some]
          split_ifs
          · rfl
          · exact ih ⟨_, _, _⟩
          · rfl
          · exact ih ⟨_, _, _⟩

/-- What the loop knows: the quickest answer so far, and none where the first one ends it. -/
def Hunting.Heard (taken : List ProbeTurn) (s : Hunting) : Prop :=
  s.best = quickest (completed candidates taken) ∧ (st.earlyExitFirst = true → s.best = none)

/-- What it ends with: the quickest answer, and the only one where the first one ends it. -/
def HeardBest (taken : List ProbeTurn) (best : Option ProbeResult) : Prop :=
  best = quickest (completed candidates taken) ∧
    (st.earlyExitFirst = true → completed candidates taken = best.toList)

variable {st candidates}

theorem Hunting.Heard.best {taken : List ProbeTurn} {s : Hunting} (h : s.Heard st candidates taken) :
    HeardBest st candidates taken s.best := by
  refine ⟨h.1, fun hearly => ?_⟩
  have hnone := h.2 hearly
  rw [h.1] at hnone ⊢
  rw [hnone, quickest_eq_none.mp hnone]
  rfl

theorem heard_gatewayTurn {taken : List ProbeTurn} {s : Hunting} {t : ProbeTurn} (hs : s.Heard st candidates taken)
    (outcome : Hunting ⊕ Option ProbeResult) (h : gatewayTurn st candidates t s = some outcome) :
    outcome.elim (Hunting.Heard st candidates (taken ++ [t])) (HeardBest st candidates (taken ++ [t])) := by
  have hbest := hs.best
  rw [gatewayTurn] at h
  split at h
  · cases h
  · split at h
    · rename_i hends
      obtain rfl := Option.some.inj h
      show HeardBest st candidates _ s.best
      rw [HeardBest, completed_snoc, answer_of_ends hends, Option.toList_none, List.append_nil]
      exact hbest
    · cases hanswer : answer candidates t with
      | none =>
        rw [hanswer] at h
        obtain rfl := Option.some.inj h
        show Hunting.Heard st candidates _ s
        rw [Hunting.Heard, completed_snoc, hanswer, Option.toList_none, List.append_nil]
        exact hs
      | some pr =>
        have hsnoc : completed candidates (taken ++ [t]) = completed candidates taken ++ [pr] := by
          rw [completed_snoc, hanswer]
          rfl
        have hmore : some (quicker s.best pr) = quickest (completed candidates (taken ++ [t])) := by
          rw [hsnoc, quickest_snoc, hs.1]
        rw [hanswer] at h
        dsimp only at h
        split_ifs at h with hfirst <;> obtain rfl := Option.some.inj h
        · have hnil : completed candidates taken = [] := by
            rw [← quickest_eq_none, ← hs.1]
            exact hs.2 hfirst
          show HeardBest st candidates _ (some pr)
          rw [HeardBest, hsnoc, hnil]
          exact ⟨rfl, fun _ => rfl⟩
        · exact ⟨hmore, fun htrue => absurd htrue hfirst⟩
        · exact ⟨hmore, fun htrue => absurd htrue hfirst⟩
        · exact ⟨hmore, fun htrue => absurd htrue hfirst⟩

theorem heard_gatewayLoop (turns : List ProbeTurn) :
    HeardBest st candidates (taken (gatewayTurn st candidates) ⟨none, 0, none⟩ turns)
      (gatewayLoop st candidates none 0 none turns) := by
  rw [gatewayLoop_eq st candidates ⟨none, 0, none⟩]
  have hstart : Hunting.Heard st candidates [] ⟨none, 0, none⟩ := ⟨rfl, fun _ => rfl⟩
  refine loopOver_taken (P := Hunting.Heard st candidates) (Q := HeardBest st candidates) _ _ ?_ ?_ ?_ hstart turns
  · intro is s t s' hs hturn
    exact heard_gatewayTurn hs _ hturn
  · intro is s t r hs hturn
    exact heard_gatewayTurn hs _ hturn
  · intro is s hs
    exact hs.best

end Gateways

section
variable (env : Env) (ports : List UInt16) (mode : ScanMode) (ip : IpScan) (p : Probing)

/-- The probes that completed before `hunt_best_gateway` stopped. -/
def completedGateways : List ProbeResult :=
  match effectiveIp ip p.hasIpv6 with
  | none => []
  | some ip =>
    let candidates := buildCandidates env mode.masqueStrategy ports p.dice ip
    completed candidates (taken (gatewayTurn mode.masqueStrategy candidates) ⟨none, 0, none⟩ p.turns)

/-- A hunt for a gateway gives the quickest answer of those that came before it stopped, which is the
only one where the first one stops it, and it gives nothing only if there were none. -/
theorem gateway_picked :
    (∀ pr, huntBestGateway env ports mode ip p = some pr →
      pr ∈ completedGateways env ports mode ip p ∧ (∀ q ∈ completedGateways env ports mode ip p, pr.rtt ≤ q.rtt) ∧
        (mode.masqueStrategy.earlyExitFirst = true → completedGateways env ports mode ip p = [pr])) ∧
    (huntBestGateway env ports mode ip p = none ↔ completedGateways env ports mode ip p = []) := by
  rw [completedGateways, huntBestGateway]
  cases effectiveIp ip p.hasIpv6 with
  | none => exact ⟨fun _ h => (Option.some_ne_none _ h.symm).elim, fun _ => rfl, fun _ => rfl⟩
  | some ip =>
    dsimp only
    obtain ⟨hbest, hearly⟩ := @heard_gatewayLoop mode.masqueStrategy
      (buildCandidates env mode.masqueStrategy ports p.dice ip) p.turns
    rw [hbest] at hearly ⊢
    refine ⟨fun pr hpr => ?_, quickest_eq_none⟩
    obtain ⟨hmem, hmin⟩ := quickest_minimal hpr
    refine ⟨hmem, hmin, fun hfirst => ?_⟩
    have hlist := hearly hfirst
    rw [hpr] at hlist
    exact hlist

end

/-- What both hunts give depends on the answers that came, and not on when they came: it is picked by
the round trip times from those before the hunt stopped. -/
theorem hunts_independent (env : Env) (ports : List UInt16) (mode : ScanMode) (ip : IpScan)
    (excluded : SocketAddr → Bool) (want : Nat) (p : Probing) :
    (∀ picked, huntWgEndpoints env ports mode ip excluded want p = some picked →
      Picks (max want 1) (completedEndpoints env ports mode ip p excluded want) picked) ∧
    (huntWgEndpoints env ports mode ip excluded want p = none ↔
      completedEndpoints env ports mode ip p excluded want = []) ∧
    (∀ pr, huntBestGateway env ports mode ip p = some pr →
      pr ∈ completedGateways env ports mode ip p ∧ (∀ q ∈ completedGateways env ports mode ip p, pr.rtt ≤ q.rtt) ∧
        (mode.masqueStrategy.earlyExitFirst = true → completedGateways env ports mode ip p = [pr])) ∧
    (huntBestGateway env ports mode ip p = none ↔ completedGateways env ports mode ip p = []) := by
  obtain ⟨hpicks, hnone⟩ := endpoints_picked env ports mode ip p excluded want
  obtain ⟨hbest, hnothing⟩ := gateway_picked env ports mode ip p
  exact ⟨hpicks, hnone, hbest, hnothing⟩

end Aether.Scan
