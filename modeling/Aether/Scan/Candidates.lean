import Aether.Scan.Prober

/-! What the lists of candidates have in them.

A list has no pair twice. The scanner for gateways puts the first port in front, and has every
port for the addresses it knows or is told. The scanner for endpoints goes through the ports by
the number of the address and of the wave: an address that it has once comes with as many ports
as there are waves, as long as there are so many (`tried_iff`). -/
namespace Aether.Scan
open Profile (Env)
open Rust (IpAddr SocketAddr firstOfEach firstOfEach_pairwise firstOfEach_sublist mem_firstOfEach_id
  exists_firstOfEach_append)

theorem mem_interleave {α : Type} {hosts : List (List α)} {a : α} : a ∈ interleave hosts ↔ ∃ l ∈ hosts, a ∈ l := by
  rw [interleave, List.mem_flatMap]
  apply Iff.intro
  · intro ⟨i, _, ha⟩
    obtain ⟨l, hl, hget⟩ := List.mem_filterMap.mp ha
    exact ⟨l, hl, List.mem_of_getElem? hget⟩
  · intro ⟨l, hl, ha⟩
    obtain ⟨i, hi, hget⟩ := List.mem_iff_getElem.mp ha
    have hlength : l.length ≤ (hosts.map List.length).max?.getD 0 := by
      have hmem : l.length ∈ hosts.map List.length := List.mem_map_of_mem hl
      cases hmax : (hosts.map List.length).max? with
      | none =>
        rw [List.max?_eq_none_iff.mp hmax] at hmem
        cases hmem
      | some m => exact (List.max?_eq_some_iff.mp hmax).2 _ hmem
    refine ⟨i, List.mem_range.mpr (by omega), List.mem_filterMap.mpr ⟨l, hl, ?_⟩⟩
    rw [List.getElem?_eq_getElem hi, hget]

theorem nodup_firstOfEach {α : Type} [DecidableEq α] (xs : List α) : (firstOfEach id [] xs).Nodup :=
  firstOfEach_pairwise id [] xs

/-! ### Gateways -/

section Ports
variable {ports : List UInt16}

theorem snd_onPrimary {ips : List IpAddr} {c : IpAddr × UInt16} (h : c ∈ onPrimary ports ips) : c.2 = primary ports := by
  obtain ⟨a, -, rfl⟩ := List.mem_map.mp h
  rfl

theorem snd_onOthers {ips : List IpAddr} {c : IpAddr × UInt16} (h : c ∈ onOthers ports ips) : c.2 ≠ primary ports := by
  obtain ⟨a, -, h⟩ := List.mem_flatMap.mp h
  obtain ⟨port, hport, rfl⟩ := List.mem_map.mp h
  exact of_decide_eq_true (List.mem_filter.mp hport).2

theorem mem_onOthers {ips : List IpAddr} {a : IpAddr} {port : UInt16} (ha : a ∈ ips) (hport : port ∈ ports)
    (hne : port ≠ primary ports) : (a, port) ∈ onOthers ports ips :=
  List.mem_flatMap.mpr ⟨a, ha, List.mem_map.mpr ⟨port, List.mem_filter.mpr ⟨hport, decide_eq_true hne⟩, rfl⟩⟩

end Ports

section Gateways
variable (env : Env) (st : Strategy) (ports : List UInt16) (dice : Dice) (ip : IpScan)

/-- The addresses that are tried on every port: those of the user's ranges, or the known ones. -/
def masqueKnown : List IpAddr :=
  match if ip.wantV4 then customMasqueCidrsV4 env else none with
  | some cidrs => (interleave (masqueHostsV4 st dice cidrs)).map IpAddr.v4
  | none => seedsV4 ip ++ seedsV6 ip

/-- The list is made of addresses on the first port and some of them on the others. -/
theorem buildCandidates_eq : ∃ more, buildCandidates env st ports dice ip =
    firstOfEach id [] (onPrimary ports more ++ onOthers ports (masqueKnown env st dice ip)) ∧
      masqueKnown env st dice ip ⊆ more := by
  rw [buildCandidates, masqueKnown]
  cases if ip.wantV4 then customMasqueCidrsV4 env else none with
  | some cidrs => exact ⟨_, rfl, List.Subset.refl _⟩
  | none =>
    refine ⟨_, rfl, ?_⟩
    intro a ha
    rw [List.mem_append] at ha
    simp only [List.mem_append]
    obtain ha | ha := ha
    · exact .inl (.inl ha)
    · exact .inr (.inl ha)

theorem nodup_buildCandidates : (buildCandidates env st ports dice ip).Nodup := by
  obtain ⟨more, heq, -⟩ := buildCandidates_eq env st ports dice ip
  rw [heq]
  exact nodup_firstOfEach _

/-- First the first port, then the others. -/
theorem primary_first : ∃ front back, buildCandidates env st ports dice ip = front ++ back ∧
    (∀ c ∈ front, c.2 = primary ports) ∧ ∀ c ∈ back, c.2 ≠ primary ports := by
  obtain ⟨more, heq, -⟩ := buildCandidates_eq env st ports dice ip
  obtain ⟨later, happend⟩ := exists_firstOfEach_append id [] (onPrimary ports more)
    (onOthers ports (masqueKnown env st dice ip))
  refine ⟨_, _, heq.trans happend, ?_, ?_⟩
  · intro c hc
    exact snd_onPrimary ((firstOfEach_sublist _ _ _).mem hc)
  · intro c hc
    exact snd_onOthers ((firstOfEach_sublist _ _ _).mem hc)

/-- A known address comes with every port. -/
theorem known_everywhere {a : IpAddr} (ha : a ∈ masqueKnown env st dice ip) {port : UInt16} (hport : port ∈ ports) :
    (a, port) ∈ buildCandidates env st ports dice ip := by
  obtain ⟨more, heq, hsub⟩ := buildCandidates_eq env st ports dice ip
  rw [heq, mem_firstOfEach_id, List.mem_append]
  by_cases hprimary : port = primary ports
  · rw [hprimary]
    exact .inl (List.mem_map_of_mem (hsub ha))
  · exact .inr (mem_onOthers ha hport hprimary)

end Gateways

/-! ### Endpoints -/

section Endpoints
variable (env : Env) (st : WgStrategy) (ports : List UInt16) (dice : Dice) (ip : IpScan)

/-- The addresses that are tried: those of the user's ranges, or the known ones and the pool. -/
def wgAddresses : List IpAddr :=
  match if ip.wantV4 then customWgCidrsV4 env else none with
  | some cidrs => (interleave (hostsV4 st dice cidrs)).map IpAddr.v4
  | none => anchors env ip ++ pool env st dice ip

theorem distinctPorts_ne_nil : distinctPorts ports ≠ [] := by
  rw [distinctPorts]
  split
  · exact List.cons_ne_nil _ _
  · rename_i hne
    exact hne

theorem nodup_distinctPorts : (distinctPorts ports).Nodup := by
  rw [distinctPorts]
  split
  · exact List.nodup_singleton _
  · exact nodup_firstOfEach _

theorem buildWgCandidates_eq (excluded : SocketAddr → Bool) : buildWgCandidates env st ports dice ip excluded =
    pushed excluded (waves st (distinctPorts ports) (wgAddresses env st dice ip)) := by
  rw [buildWgCandidates, wgAddresses]
  cases if ip.wantV4 then customWgCidrsV4 env else none with
  | some cidrs =>
    have hsome : (distinctPorts ports).isEmpty = false := by simpa using distinctPorts_ne_nil ports
    dsimp only
    rw [manualWgCandidates, hsome]
    rfl
  | none => rfl

/-- An element that a list has once stands at one position. -/
theorem exists_position {α : Type} [DecidableEq α] {xs : List α} {a : α} (h : xs.count a = 1) :
    ∃ k : Nat, ∀ i : Nat, xs[i]? = some a ↔ i = k := by
  induction xs with
  | nil => cases h
  | cons b rest ih =>
    by_cases hb : b = a
    · have hnot : a ∉ rest := by
        rw [hb, List.count_cons_self] at h
        exact List.count_eq_zero.mp (Nat.succ.inj h)
      refine ⟨0, fun i => ?_⟩
      cases i with
      | zero => simp [hb]
      | succ i =>
        rw [List.getElem?_cons_succ]
        exact ⟨fun hget => absurd (List.mem_of_getElem? hget) hnot, fun hzero => absurd hzero (Nat.succ_ne_zero i)⟩
    · rw [List.count_cons_of_ne hb] at h
      obtain ⟨k, hk⟩ := ih h
      refine ⟨k + 1, fun i => ?_⟩
      cases i with
      | zero => simp [hb]
      | succ i => rw [List.getElem?_cons_succ, hk, Nat.succ_inj]

/-- The port of an address in a wave. -/
def portAt (k wave : Nat) : UInt16 := ports.getD ((k + wave) % ports.length) 0

/-- The ports of the address at a position: one for each wave, until they are all tried. -/
def triedPorts (k : Nat) : List UInt16 :=
  (List.range (min (max st.poolPortWaves 1) ports.length)).map (portAt ports k)

theorem length_triedPorts (k : Nat) : (triedPorts st ports k).length = min (max st.poolPortWaves 1) ports.length := by
  rw [triedPorts, List.length_map, List.length_range]

variable {ports}

theorem nodup_triedPorts (hports : ports.Nodup) (k : Nat) : (triedPorts st ports k).Nodup := by
  apply List.Nodup.map_on _ List.nodup_range
  intro v hv w hw heq
  rw [List.mem_range] at hv hw
  have hpos : 0 < ports.length := by omega
  have hget (u : Nat) (hless : (k + u) % ports.length < ports.length) :
      portAt ports k u = ports[(k + u) % ports.length] := (List.getElem_eq_getD 0).symm
  rw [hget v (Nat.mod_lt _ hpos), hget w (Nat.mod_lt _ hpos), hports.getElem_inj_iff] at heq
  have hcancel : v ≡ w [MOD ports.length] := Nat.ModEq.add_left_cancel' k heq
  rw [Nat.ModEq, Nat.mod_eq_of_lt (by omega), Nat.mod_eq_of_lt (by omega)] at hcancel
  exact hcancel

theorem mem_waves (hne : ports ≠ []) {ips : List IpAddr} {a : IpAddr} {k : Nat}
    (hk : ∀ i : Nat, ips[i]? = some a ↔ i = k) (port : UInt16) :
    (a, port) ∈ waves st ports ips ↔ port ∈ triedPorts st ports k := by
  have hpos := List.length_pos_iff.mpr hne
  have hwave (wave : Nat) :
      (a, port) ∈ (ips.zipIdx.map fun entry => (entry.1, ports.getD ((entry.2 + wave) % ports.length) 0)) ↔
        portAt ports k wave = port := by
    rw [List.mem_map]
    apply Iff.intro
    · intro h
      obtain ⟨⟨b, i⟩, hmem, heq⟩ := h
      obtain ⟨rfl, hport⟩ := Prod.mk.inj heq
      rw [(hk i).mp (List.mem_zipIdx_iff_getElem?.mp hmem)] at hport
      exact hport
    · intro hport
      exact ⟨(a, k), List.mem_zipIdx_iff_getElem?.mpr ((hk k).mpr rfl), congrArg (Prod.mk a) hport⟩
  rw [waves, triedPorts, List.mem_flatMap, List.mem_map]
  apply Iff.intro
  · intro h
    obtain ⟨wave, hrange, hmem⟩ := h
    rw [List.mem_range] at hrange
    have hless := Nat.mod_lt wave hpos
    have hle := Nat.mod_le wave ports.length
    refine ⟨wave % ports.length, List.mem_range.mpr (by omega), ?_⟩
    rw [← (hwave wave).mp hmem, portAt, portAt, Nat.add_mod_mod]
  · intro h
    obtain ⟨wave, hrange, hport⟩ := h
    rw [List.mem_range] at hrange
    exact ⟨wave, List.mem_range.mpr (by omega), (hwave wave).mpr hport⟩

theorem triedPorts_subset (hne : ports ≠ []) (k : Nat) : triedPorts st ports k ⊆ ports := by
  intro port hport
  obtain ⟨wave, -, rfl⟩ := List.mem_map.mp hport
  have hless := Nat.mod_lt (k + wave) (List.length_pos_iff.mpr hne)
  rw [portAt, ← @List.getElem_eq_getD _ _ _ hless]
  exact List.getElem_mem hless

variable (ports)

/-- An address that the scanner has once comes with a port for each wave, as long as there are so
many ports, without the endpoints that are excluded. -/
theorem tried_iff (excluded : SocketAddr → Bool) {a : IpAddr} (h : (wgAddresses env st dice ip).count a = 1) :
    ∃ tried : List UInt16, tried.Nodup ∧ tried ⊆ distinctPorts ports ∧
      tried.length = min (max st.poolPortWaves 1) (distinctPorts ports).length ∧
      ∀ port, (a, port) ∈ buildWgCandidates env st ports dice ip excluded ↔
        port ∈ tried ∧ excluded (.new a port) = false := by
  have hne := distinctPorts_ne_nil ports
  obtain ⟨k, hk⟩ := exists_position h
  refine ⟨triedPorts st (distinctPorts ports) k, nodup_triedPorts st (nodup_distinctPorts ports) k,
    triedPorts_subset st hne k, length_triedPorts st _ k, fun port => ?_⟩
  rw [buildWgCandidates_eq, mem_pushed, mem_waves st hne hk]

end Endpoints

/-- The lists of both scanners are well formed, for every strategy and whatever is drawn. -/
theorem candidates_wellformed (env : Env) (ports : List UInt16) (dice : Dice) (ip : IpScan) :
    (∀ st : Strategy, (buildCandidates env st ports dice ip).Nodup ∧
      (∃ front back, buildCandidates env st ports dice ip = front ++ back ∧
        (∀ c ∈ front, c.2 = primary ports) ∧ ∀ c ∈ back, c.2 ≠ primary ports) ∧
      ∀ a ∈ masqueKnown env st dice ip, ∀ port ∈ ports, (a, port) ∈ buildCandidates env st ports dice ip) ∧
    ∀ (st : WgStrategy) (excluded : SocketAddr → Bool), (buildWgCandidates env st ports dice ip excluded).Nodup ∧
      (∀ c ∈ buildWgCandidates env st ports dice ip excluded, excluded (.new c.1 c.2) = false) ∧
      ∀ a, (wgAddresses env st dice ip).count a = 1 → ∃ tried : List UInt16, tried.Nodup ∧
        tried ⊆ distinctPorts ports ∧ tried.length = min (max st.poolPortWaves 1) (distinctPorts ports).length ∧
        ∀ port, (a, port) ∈ buildWgCandidates env st ports dice ip excluded ↔
          port ∈ tried ∧ excluded (.new a port) = false := by
  refine ⟨fun st => ⟨nodup_buildCandidates .., primary_first .., fun a ha port hport => known_everywhere _ _ _ _ _ ha hport⟩,
    fun st excluded => ⟨?_, ?_, fun a ha => tried_iff env st ports dice ip excluded ha⟩⟩
  · rw [buildWgCandidates_eq]
    exact nodup_firstOfEach _
  · intro c hc
    rw [buildWgCandidates_eq, mem_pushed] at hc
    exact hc.2

/-- One sample of each range, in one wave. -/
def sparse : WgStrategy :=
  {ScanMode.turbo.strategy with samplePerCidr := 1}

/-- A known address that is drawn as well stands once in the pool and is tried on two ports, in the
one wave. -/
theorem known_and_drawn :
    (pool (fun _ => none) sparse { v4 := fun _ => [0] } .v4).count (.v4 0xA29FC001) = 1 ∧
      min (max sparse.poolPortWaves 1) (distinctPorts [2408, 500]).length = 1 ∧
      (.v4 0xA29FC001, 2408) ∈ buildWgCandidates (fun _ => none) sparse [2408, 500] { v4 := fun _ => [0] } .v4 (fun _ => false) ∧
      (.v4 0xA29FC001, 500) ∈ buildWgCandidates (fun _ => none) sparse [2408, 500] { v4 := fun _ => [0] } .v4 (fun _ => false) := by
  decide +kernel

end Aether.Scan
