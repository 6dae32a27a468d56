import Aether.Kotlin.Text
import Aether.Kotlin.Platform
import Aether.Machine.Before
import Aether.Machine.Recency

/-! The domains of addresses.

`DnsMap` keeps, for each address, the domains that DNS answers gave for it, each until it
expires; an address holds eight of them, and the map the addresses used last. -/
namespace Aether.Bridge.DnsMap
open Kotlin Machine

structure Entry where
  domain : String
  expiresAt : Int
  deriving DecidableEq

/-- `MAX_ENTRIES` -/
def maxEntries : Nat := 4096

/-- The entries of the addresses, the address used last in front. -/
abbrev Table := List (String × List Entry)

variable (platform : Platform)

/-- The address and the domain as they are kept, unless one of them is empty. -/
def normalize (ip domain : String) : Option (String × String) :=
  let normalizedIp := trim ip
  let normalizedDomain := platform.lowercase (trimEnd '.' (trim domain))
  if normalizedIp.isEmpty || normalizedDomain.isEmpty then none else some (normalizedIp, normalizedDomain)

/-- `coerceIn(1_000L, 86_400_000L)` -/
def coerceTtl (ttlMillis : Int) : Int := max 1000 (min ttlMillis 86400000)

/-- What `put` does with the entries of the address. -/
def putEntry (entries : List Entry) (normalizedDomain : String) (expiry now : Int) : List Entry :=
  let entries := entries.filter fun e => !(decide (e.expiresAt ≤ now) || e.domain == normalizedDomain)
  let entries := entries ++ [⟨normalizedDomain, expiry⟩]
  entries.drop (entries.length - 8)

def put (table : Table) (ip domain : String) (ttlMillis now : Int) : Table :=
  match normalize platform ip domain with
  | none => table
  | some (normalizedIp, normalizedDomain) =>
    let expiry := now + coerceTtl ttlMillis
    match table.lookup normalizedIp with
    | some entries => (normalizedIp, putEntry entries normalizedDomain expiry now) :: without normalizedIp table
    | none => (normalizedIp, putEntry [] normalizedDomain expiry now) :: makeRoom maxEntries table

def get (table : Table) (ip : String) (now : Int) : Option String × Table :=
  match table.lookup ip with
  | none => (none, table)
  | some entries =>
    let entries := entries.filter fun e => !decide (e.expiresAt ≤ now)
    if entries.isEmpty then (none, without ip table)
    else (entries.getLast?.map (·.domain), (ip, entries) :: without ip table)

/-! ### Runs -/

/-- A call, with the reading of the clock in it. -/
inductive Call where
  | put (ip domain : String) (ttlMillis now : Int)
  | get (ip : String) (now : Int)

def Call.now : Call → Int
  | put _ _ _ now => now
  | get _ now => now

def step (table : Table) : Call → Table
  | .put ip domain ttlMillis now => put platform table ip domain ttlMillis now
  | .get ip now => (get table ip now).2

/-- The map after the calls, of which the latest is in front. -/
def run : List Call → Table
  | [] => []
  | call :: earlier => step platform (run earlier) call

/-- The clock never goes back. -/
def Clocked (calls : List Call) : Prop := calls.Pairwise fun later earlier => earlier.now ≤ later.now

/-- The address that a call makes the map give up. -/
def evicted (table : Table) : Call → Option String
  | .put ip domain _ _ =>
    (normalize platform ip domain).bind fun kept =>
      if (table.lookup kept.1).isSome then none else givenUp maxEntries table
  | .get .. => none

/-- The call uses the address. -/
def Call.uses (call : Call) (ip : String) : Bool :=
  match call with
  | put ip' domain _ _ => (normalize platform ip' domain).any (·.1 == ip)
  | get ip' _ => ip' == ip

/-- The number of the last call that used the address. -/
def lastUse (ip : String) : List Call → Nat
  | [] => 0
  | call :: earlier => if call.uses platform ip then earlier.length + 1 else lastUse ip earlier

/-! ### What was put -/

/-- A put for an address. -/
structure Put where
  entry : Entry
  now : Int
  deriving DecidableEq

/-- What a call puts for the address. -/
def putFor (ip : String) : Call → Option Put
  | .put ip' domain ttlMillis now =>
    (normalize platform ip' domain).bind fun kept =>
      if kept.1 = ip then some ⟨⟨kept.2, now + coerceTtl ttlMillis⟩, now⟩ else none
  | .get .. => none

/-- The puts for an address since the map last gave it up, the latest in front. -/
def puts (ip : String) : List Call → List Put
  | [] => []
  | call :: earlier =>
    if evicted platform (run platform earlier) call = some ip then []
    else (putFor platform ip call).toList ++ puts ip earlier

/-- No later put is for the same domain. -/
def isLatest (later : List Put) (p : Put) : Bool := !later.any (·.entry.domain == p.entry.domain)

/-- The latest put of each domain. -/
def latest (log : List Put) : List Put := filterBefore isLatest [] log

/-- Those that have not expired. -/
def live (now : Int) (log : List Put) : List Put :=
  filterBefore (fun later p => isLatest later p && decide (now < p.entry.expiresAt)) [] log

/-- No later put has pushed out what stood behind these puts: at each there were fewer than
eight live domains among it and those before it. -/
def Roomy (later : List Put) : Prop :=
  ∀ p between, p :: between <:+ later → (live p.now (p :: between)).length < 8

/-- A put of the log still counts, behind the later ones. -/
def Stands (now : Int) (later : List Put) (p : Put) : Prop :=
  now < p.entry.expiresAt ∧ (∀ q ∈ later, q.entry.domain ≠ p.entry.domain) ∧ Roomy later

/-! ### The live puts -/

theorem live_eq (now : Int) (log : List Put) :
    live now log = (latest log).filter fun p => decide (now < p.entry.expiresAt) :=
  filterBefore_and _ [] log

theorem live_mono {t now : Int} (h : t ≤ now) (log : List Put) :
    live now log = (live t log).filter fun p => decide (now < p.entry.expiresAt) := by
  rw [live_eq, live_eq, List.filter_filter]
  apply List.filter_congr
  intro p _
  rw [Bool.eq_iff_iff]
  simp only [decide_eq_true_eq, Bool.and_eq_true]
  omega

theorem latest_cons (p : Put) (log : List Put) :
    latest (p :: log) = p :: (latest log).filter fun q => q.entry.domain != p.entry.domain := by
  have hkeep : (fun (later : List Put) q => isLatest (p :: later) q) =
      fun later q => isLatest later q && q.entry.domain != p.entry.domain := by
    funext later q
    rw [isLatest, isLatest, List.any_cons, Bool.not_or, Bool.and_comm, bne, BEq.comm]
  rw [latest, filterBefore, if_pos (by rfl), List.nil_append, filterBefore_cons, hkeep, filterBefore_and]
  rfl

theorem live_cons {now : Int} {p : Put} (hp : now < p.entry.expiresAt) (log : List Put) :
    live now (p :: log) = p :: (live now log).filter fun q => q.entry.domain != p.entry.domain := by
  rw [live_eq, latest_cons, List.filter_cons_of_pos (by simpa using hp), live_eq, List.filter_filter, List.filter_filter]
  congr 2
  funext q
  exact Bool.and_comm _ _

theorem nodup_latest (log : List Put) : ((latest log).map (·.entry.domain)).Nodup := by
  induction log with
  | nil => exact List.nodup_nil
  | cons p log ih =>
    rw [latest_cons, List.map_cons, List.nodup_cons]
    refine ⟨?_, ih.sublist (List.filter_sublist.map _)⟩
    intro hmem
    obtain ⟨q, hq, hdomain⟩ := List.mem_map.mp hmem
    have hne := (List.mem_filter.mp hq).2
    simp [hdomain] at hne

/-! ### The puts that are held -/

/-- `Roomy`, put by put. -/
def stays : List Put → Bool
  | [] => true
  | p :: between => stays between && decide ((live p.now (p :: between)).length < 8)

theorem stays_iff (later : List Put) : stays later = true ↔ Roomy later := by
  induction later with
  | nil =>
    refine iff_of_true rfl fun p between h => ?_
    exact absurd (List.suffix_nil.mp h) (List.cons_ne_nil _ _)
  | cons q later ih =>
    rw [stays, Bool.and_eq_true, ih, decide_eq_true_eq]
    constructor
    · intro h p between hsuffix
      rcases List.suffix_cons_iff.mp hsuffix with heq | hlater
      · obtain ⟨rfl, rfl⟩ := List.cons.inj heq
        exact h.2
      · exact h.1 p between hlater
    · intro h
      exact ⟨fun p between hsuffix => h p between (hsuffix.trans (List.suffix_cons q later)), h q later List.suffix_rfl⟩

theorem live_append (now : Int) (front more : List Put) : (live now front).length ≤ (live now (front ++ more)).length := by
  rw [live, live, filterBefore_append, List.length_append]
  exact Nat.le_add_right ..

theorem stays_left (front more : List Put) (h : stays (front ++ more) = true) : stays front = true := by
  induction front with
  | nil => rfl
  | cons p front ih =>
    rw [List.cons_append, stays, Bool.and_eq_true, decide_eq_true_eq] at h
    rw [stays, Bool.and_eq_true, decide_eq_true_eq]
    have hlength := live_append p.now (p :: front) more
    exact ⟨ih h.1, Nat.lt_of_le_of_lt hlength h.2⟩

/-- The part of the log that was not pushed out. -/
def held (log : List Put) : List Put := takeBefore stays [] log

/-- A put in front of the log pushes out what is behind eight live domains. -/
theorem live_held_cons (p : Put) (log : List Put) :
    live p.now (held (p :: log)) = (live p.now (p :: held log)).take 8 := by
  have hstays : (fun later => stays (p :: later)) =
      fun later => stays later && decide ((live p.now (p :: later)).length < 8) := rfl
  have hheld : held (p :: log) =
      takeBefore (fun later => decide ((live p.now later).length < 8)) [] (p :: held log) := by
    have hnil : (live p.now []).length < 8 := Nat.zero_lt_succ 7
    rw [held, takeBefore, if_pos (by rfl), List.nil_append, takeBefore_cons, hstays, takeBefore, if_pos (by simpa using hnil),
      List.nil_append, takeBefore_cons, held, takeBefore_takeBefore]
  rw [hheld]
  exact filterBefore_takeBefore_count 8 [] (p :: held log)

/-- The first live put that is held is the first that stands. -/
theorem stands_iff {now : Int} {later : List Put} {p : Put} :
    (stays later && (isLatest later p && decide (now < p.entry.expiresAt))) = true ↔ Stands now later p := by
  rw [Stands, Bool.and_eq_true, Bool.and_eq_true, decide_eq_true_eq, stays_iff, isLatest, Bool.not_eq_true', List.any_eq_false]
  simp only [beq_iff_eq]
  tauto

theorem head_live_held {now : Int} {log : List Put} {p : Put} :
    (live now (held log)).head? = some p ↔
      ∃ later older, log = later ++ p :: older ∧ Stands now later p ∧
        ∀ newer q between, later = newer ++ q :: between → ¬ Stands now newer q := by
  rw [live, held, filterBefore_takeBefore stays_left, head?_filterBefore]
  simp only [List.nil_append, stands_iff, ← Bool.not_eq_true]

theorem live_held_eq_nil {now : Int} {log : List Put} :
    live now (held log) = [] ↔ ∀ later p older, log = later ++ p :: older → ¬ Stands now later p := by
  rw [live, held, filterBefore_takeBefore stays_left, filterBefore_eq_nil]
  simp only [List.nil_append, stands_iff, ← Bool.not_eq_true]

/-! ### The entries of an address -/

def entriesOf (table : Table) (ip : String) : List Entry := (table.lookup ip).getD []

/-- The entries are the held puts that were live at some time. -/
def Holds (entries : List Entry) (log : List Put) (clock : Int) : Prop :=
  ∃ t ≤ clock, entries.reverse = (live t (held log)).map (·.entry)

theorem not_expired (expiresAt now : Int) : (!decide (expiresAt ≤ now)) = decide (now < expiresAt) := by
  rw [Bool.eq_iff_iff]
  simp

theorem reverse_drop (entries : List Entry) : (entries.drop (entries.length - 8)).reverse = entries.reverse.take 8 := by
  rw [List.reverse_drop]
  rcases Nat.le_total entries.length 8 with h | h
  · rw [Nat.sub_eq_zero_of_le h, Nat.sub_zero, List.take_of_length_le (by simp), List.take_of_length_le (by simpa using h)]
  · rw [Nat.sub_sub_self h]

theorem holds_putEntry {entries : List Entry} {log : List Put} {clock : Int} (h : Holds entries log clock) {p : Put}
    (hclock : clock ≤ p.now) (hp : p.now < p.entry.expiresAt) :
    Holds (putEntry entries p.entry.domain p.entry.expiresAt p.now) (p :: log) p.now := by
  obtain ⟨t, ht, hentries⟩ := h
  refine ⟨p.now, Int.le_refl _, ?_⟩
  rw [live_held_cons, live_cons hp, live_mono (Int.le_trans ht hclock), putEntry, reverse_drop, List.reverse_append,
    ← List.filter_reverse, hentries, List.map_take, List.map_cons]
  congr 1
  rw [List.reverse_singleton, List.singleton_append, List.filter_map, List.filter_filter]
  congr 3
  funext q
  simp only [Function.comp_apply, Bool.not_or, bne]
  rw [Bool.and_comm, not_expired]

theorem holds_filter {entries : List Entry} {log : List Put} {clock now : Int} (h : Holds entries log clock)
    (hclock : clock ≤ now) :
    (entries.filter fun e => !decide (e.expiresAt ≤ now)).reverse = (live now (held log)).map (·.entry) := by
  obtain ⟨t, ht, hentries⟩ := h
  rw [← List.filter_reverse, hentries, List.filter_map, live_mono (Int.le_trans ht hclock)]
  congr 2
  funext q
  exact not_expired _ _

/-! ### One call -/

/-- The other addresses, when one is put. -/
def others (table : Table) (ip : String) : Table :=
  if (table.lookup ip).isSome then without ip table else makeRoom maxEntries table

variable {platform}

theorem put_eq {table : Table} {ip domain normalizedIp normalizedDomain : String}
    (h : normalize platform ip domain = some (normalizedIp, normalizedDomain)) (ttlMillis now : Int) :
    put platform table ip domain ttlMillis now =
      (normalizedIp, putEntry (entriesOf table normalizedIp) normalizedDomain (now + coerceTtl ttlMillis) now) ::
        others table normalizedIp := by
  rw [put, h, others, entriesOf]
  dsimp only
  cases table.lookup normalizedIp with
  | none => rfl
  | some entries => rfl

theorem others_sublist (table : Table) (ip : String) : (others table ip).Sublist table := by
  rw [others]
  split
  · exact without_sublist ip table
  · exact makeRoom_sublist maxEntries table

theorem length_others {table : Table} (h : table.length ≤ maxEntries) (ip : String) :
    (others table ip).length < maxEntries := by
  rw [others]
  split
  case isTrue hheld =>
    obtain ⟨entries, hentries⟩ := Option.isSome_iff_exists.mp hheld
    exact Nat.lt_of_lt_of_le (length_without_lt hentries) h
  case isFalse => exact length_makeRoom (by decide) h

theorem ne_of_mem_others {table : Table} {ip : String} {entry : String × List Entry} (h : entry ∈ others table ip) :
    entry.1 ≠ ip := by
  rw [others] at h
  split at h
  case isTrue => exact ne_of_mem_without h
  case isFalse hmissing =>
    intro heq
    apply hmissing
    rw [← heq]
    exact lookup_isSome_of_mem ((makeRoom_sublist _ _).mem h)

theorem evicted_put {table : Table} {ip domain normalizedIp normalizedDomain : String}
    (h : normalize platform ip domain = some (normalizedIp, normalizedDomain)) (ttlMillis now : Int) :
    evicted platform table (.put ip domain ttlMillis now) =
      if (table.lookup normalizedIp).isSome then none else givenUp maxEntries table := by
  rw [evicted, h, Option.bind_some]

/-- The other addresses keep their entries, but for the one that is given up. -/
theorem entriesOf_others {table : Table} (hnodup : (table.map (·.1)).Nodup) {ip other : String} (hne : other ≠ ip) :
    entriesOf (others table ip) other =
      if (if (table.lookup ip).isSome then none else givenUp maxEntries table) = some other then []
      else entriesOf table other := by
  rw [others, entriesOf, entriesOf]
  by_cases hheld : (table.lookup ip).isSome
  · simp only [hheld, if_true]
    rw [lookup_without, if_neg hne, if_neg (by simp)]
  · simp only [if_neg hheld]
    rw [lookup_makeRoom hnodup]
    split <;> rfl

theorem entriesOf_cons_self (table : Table) (ip : String) (entries : List Entry) :
    entriesOf ((ip, entries) :: table) ip = entries := by
  simp [entriesOf]

theorem entriesOf_cons_ne (table : Table) {ip other : String} (hne : other ≠ ip) (entries : List Entry) :
    entriesOf ((ip, entries) :: table) other = entriesOf table other := by
  have hskip : (other == ip) = false := beq_eq_false_iff_ne.mpr hne
  rw [entriesOf, List.lookup_cons, hskip, entriesOf]

/-- What a look-up leaves of the entries. -/
theorem entriesOf_get (table : Table) (ip : String) (now : Int) (other : String) :
    entriesOf (get table ip now).2 other =
      if other = ip then (entriesOf table ip).filter fun e => !decide (e.expiresAt ≤ now) else entriesOf table other := by
  rw [get]
  by_cases hsame : other = ip
  · rw [if_pos hsame, hsame]
    cases hlookup : table.lookup ip with
    | none => simp [entriesOf, hlookup]
    | some entries =>
      have hentries : entriesOf table ip = entries := by rw [entriesOf, hlookup]; rfl
      rw [hentries]
      dsimp only
      split
      case isTrue hempty =>
        rw [entriesOf, lookup_without, if_pos rfl, List.isEmpty_iff.mp hempty]
        rfl
      case isFalse => rw [entriesOf_cons_self]
  · rw [if_neg hsame]
    cases table.lookup ip with
    | none => rfl
    | some entries =>
      dsimp only
      split
      · rw [entriesOf, lookup_without, if_neg hsame, entriesOf]
      · rw [entriesOf_cons_ne _ hsame, entriesOf, lookup_without, if_neg hsame, entriesOf]

/-- The answer is the domain of the last entry that has not expired. -/
theorem get_fst (table : Table) (ip : String) (now : Int) :
    (get table ip now).1 =
      ((entriesOf table ip).filter fun e => !decide (e.expiresAt ≤ now)).getLast?.map (·.domain) := by
  rw [get, entriesOf]
  cases table.lookup ip with
  | none => rfl
  | some entries =>
    dsimp only [Option.getD_some]
    split
    case isTrue hempty =>
      rw [List.isEmpty_iff.mp hempty]
      rfl
    case isFalse => rfl

/-! ### A run of calls -/

theorem lastUse_le (ip : String) (calls : List Call) : lastUse platform ip calls ≤ calls.length := by
  induction calls with
  | nil => exact Nat.le_refl 0
  | cons call earlier ih =>
    rw [lastUse, List.length_cons]
    split
    · exact Nat.le_refl _
    · exact Nat.le_succ_of_le ih

theorem lastUse_skip {ip : String} {call : Call} (h : call.uses platform ip = false) (earlier : List Call) :
    lastUse platform ip (call :: earlier) = lastUse platform ip earlier := by
  rw [lastUse, h, if_neg (by decide)]

theorem lastUse_now {ip : String} {call : Call} (h : call.uses platform ip = true) (earlier : List Call) :
    lastUse platform ip (call :: earlier) = earlier.length + 1 := by
  rw [lastUse, if_pos h]

/-- The addresses are in the order of their last use, and within the capacity. -/
structure Ordered (platform : Platform) (calls : List Call) (table : Table) : Prop where
  bounded : table.length ≤ maxEntries
  recent : Recent (fun ip => lastUse platform ip calls) table

/-- An address that the call uses goes in front of others that it does not use. -/
theorem Ordered.front {calls : List Call} {table rest : Table} (h : Ordered platform calls table) {call : Call} {ip : String}
    (huses : ∀ other, call.uses platform other = true ↔ other = ip) (hrest : rest.Sublist table)
    (hne : ∀ entry ∈ rest, entry.1 ≠ ip) (hroom : rest.length < maxEntries) (entries : List Entry) :
    Ordered platform (call :: calls) ((ip, entries) :: rest) := by
  refine ⟨hroom, (h.recent.sublist hrest).use ip entries ?_ ?_⟩
  · intro entry hentry
    apply lastUse_skip
    rw [← Bool.not_eq_true, huses]
    exact hne entry hentry
  · intro entry _
    rw [lastUse_now ((huses ip).mpr rfl)]
    exact Nat.lt_succ_of_le (lastUse_le _ _)

/-- A call that uses no address of the table. -/
theorem Ordered.skip {calls : List Call} {table rest : Table} (h : Ordered platform calls table) {call : Call}
    (hrest : rest.Sublist table) (hunused : ∀ entry ∈ rest, call.uses platform entry.1 = false) :
    Ordered platform (call :: calls) rest := by
  refine ⟨hrest.length_le.trans h.bounded, (h.recent.sublist hrest).congr ?_⟩
  intro entry hentry
  exact lastUse_skip (hunused entry hentry) calls

theorem uses_put {ip domain normalizedIp normalizedDomain : String}
    (h : normalize platform ip domain = some (normalizedIp, normalizedDomain)) (ttlMillis now : Int) (other : String) :
    (Call.put ip domain ttlMillis now).uses platform other = true ↔ other = normalizedIp := by
  rw [Call.uses, h, Option.any_some, beq_iff_eq, eq_comm]

theorem ordered_step {calls : List Call} {table : Table} (h : Ordered platform calls table) (call : Call) :
    Ordered platform (call :: calls) (step platform table call) := by
  cases call with
  | put ip domain ttlMillis now =>
    rw [step]
    cases hkept : normalize platform ip domain with
    | none =>
      rw [put, hkept]
      apply h.skip (List.Sublist.refl _)
      intro entry _
      rw [Call.uses, hkept]
      rfl
    | some kept =>
      rw [put_eq hkept]
      exact h.front (uses_put hkept ttlMillis now) (others_sublist _ _) (fun entry hentry => ne_of_mem_others hentry)
        (length_others h.bounded _) _
  | get ip now =>
    have huses (other : String) : (Call.get ip now).uses platform other = true ↔ other = ip := by
      rw [Call.uses, beq_iff_eq, eq_comm]
    have hunused {entry : String × List Entry} (hne : entry.1 ≠ ip) : (Call.get ip now).uses platform entry.1 = false := by
      rw [← Bool.not_eq_true, huses]
      exact hne
    rw [step, get]
    cases hlookup : table.lookup ip with
    | none =>
      apply h.skip (List.Sublist.refl _)
      intro entry hentry
      apply hunused
      intro heq
      have hsome := lookup_isSome_of_mem hentry
      rw [heq, hlookup] at hsome
      cases hsome
    | some entries =>
      dsimp only
      split
      · exact h.skip (without_sublist ip table) fun entry hentry => hunused (ne_of_mem_without hentry)
      · exact h.front huses (without_sublist ip table) (fun entry hentry => ne_of_mem_without hentry)
          (Nat.lt_of_lt_of_le (length_without_lt hlookup) h.bounded) _

theorem ordered_run (calls : List Call) : Ordered platform calls (run platform calls) := by
  induction calls with
  | nil => exact ⟨Nat.zero_le _, List.Pairwise.nil⟩
  | cons call earlier ih => exact ordered_step ih call

/-- The entries of an address are at most eight, and held puts. -/
structure Kept (entries : List Entry) (log : List Put) (clock : Int) : Prop where
  few : entries.length ≤ 8
  holds : Holds entries log clock

theorem Kept.later {entries : List Entry} {log : List Put} {clock now : Int} (h : Kept entries log clock)
    (hclock : clock ≤ now) : Kept entries log now := by
  obtain ⟨hfew, t, ht, hentries⟩ := h
  exact ⟨hfew, t, Int.le_trans ht hclock, hentries⟩

theorem kept_nil (clock : Int) : Kept [] [] clock := ⟨Nat.zero_le _, clock, Int.le_refl _, rfl⟩

theorem Kept.put {entries : List Entry} {log : List Put} {clock now ttlMillis : Int} (h : Kept entries log clock)
    (hclock : clock ≤ now) (domain : String) :
    Kept (putEntry entries domain (now + coerceTtl ttlMillis) now) (⟨⟨domain, now + coerceTtl ttlMillis⟩, now⟩ :: log) now := by
  have hexpiry : now < now + coerceTtl ttlMillis := by
    rw [coerceTtl]
    omega
  refine ⟨?_, @holds_putEntry entries log clock h.holds ⟨⟨domain, now + coerceTtl ttlMillis⟩, now⟩ hclock hexpiry⟩
  rw [putEntry, List.length_drop]
  omega

theorem Kept.get {entries : List Entry} {log : List Put} {clock now : Int} (h : Kept entries log clock)
    (hclock : clock ≤ now) : Kept (entries.filter fun e => !decide (e.expiresAt ≤ now)) log now :=
  ⟨(List.length_filter_le ..).trans h.few, now, Int.le_refl _, holds_filter h.holds hclock⟩

theorem kept_step {earlier : List Call} {call : Call} (ip : String)
    (h : ∀ clock, (∀ c ∈ earlier, c.now ≤ clock) → Kept (entriesOf (run platform earlier) ip) (puts platform ip earlier) clock)
    (hclock : ∀ c ∈ earlier, c.now ≤ call.now) :
    Kept (entriesOf (run platform (call :: earlier)) ip) (puts platform ip (call :: earlier)) call.now := by
  have hnow := h call.now hclock
  have hnodup := (@ordered_run platform earlier).recent.nodup
  rw [run, puts]
  cases call with
  | put ip' domain ttlMillis now =>
    rw [step]
    cases hkept : normalize platform ip' domain with
    | none =>
      rw [put, hkept, evicted, hkept, Option.bind_none, if_neg (by simp), putFor, hkept]
      exact hnow
    | some kept =>
      obtain ⟨normalizedIp, normalizedDomain⟩ := kept
      rw [put_eq hkept, evicted_put hkept, putFor, hkept]
      have hother (hgiven : (if ((run platform earlier).lookup normalizedIp).isSome then none
          else givenUp maxEntries (run platform earlier)) = some ip) : ip ≠ normalizedIp := by
        intro heq
        split at hgiven
        case isTrue => cases hgiven
        case isFalse hmissing =>
          obtain ⟨-, last, hlast, hkey⟩ := givenUp_eq_some hgiven
          apply hmissing
          rw [← heq, ← hkey]
          exact lookup_isSome_of_mem (List.mem_of_getLast? hlast)
      by_cases hsame : ip = normalizedIp
      · rw [if_neg fun hgiven => hother hgiven hsame, hsame, entriesOf_cons_self, Option.bind_some, if_pos rfl]
        rw [hsame] at hnow
        exact hnow.put (Int.le_refl _) normalizedDomain
      · rw [entriesOf_cons_ne _ hsame, entriesOf_others hnodup hsame, Option.bind_some]
        generalize (if ((run platform earlier).lookup normalizedIp).isSome then none
          else givenUp maxEntries (run platform earlier)) = given
        by_cases hgiven : given = some ip
        · rw [if_pos hgiven, if_pos hgiven]
          exact kept_nil _
        · have hne : ¬ normalizedIp = ip := fun h => hsame h.symm
          rw [if_neg hgiven, if_neg hgiven, if_neg hne]
          exact hnow
  | get ip' now =>
    have hstays : ¬ evicted platform (run platform earlier) (.get ip' now) = some ip := by
      rw [evicted]
      intro hgiven
      cases hgiven
    rw [step, entriesOf_get, if_neg hstays, putFor]
    split
    case isTrue hsame =>
      rw [← hsame]
      exact hnow.get (Int.le_refl _)
    case isFalse => exact hnow

theorem kept_run {calls : List Call} (hclocked : Clocked calls) (ip : String) {clock : Int}
    (hclock : ∀ c ∈ calls, c.now ≤ clock) : Kept (entriesOf (run platform calls) ip) (puts platform ip calls) clock := by
  induction calls generalizing clock with
  | nil => exact kept_nil clock
  | cons call earlier ih =>
    obtain ⟨hearlier, hrest⟩ := List.pairwise_cons.mp hclocked
    have hstep := kept_step ip (fun clock => ih hrest) hearlier
    exact hstep.later (hclock call (List.mem_cons_self ..))

/-! ### What the map holds -/

theorem Kept.sublist_latest {entries : List Entry} {log : List Put} {clock : Int} (h : Kept entries log clock) :
    entries.reverse.Sublist ((latest log).map (·.entry)) := by
  obtain ⟨-, t, -, hentries⟩ := h
  have hpart : (latest (held log)).Sublist (latest log) := by
    obtain ⟨more, hmore⟩ := @takeBefore_front _ stays [] log
    have happend := @filterBefore_append _ isLatest [] (held log) more
    rw [held, hmore] at happend
    rw [latest, latest, happend]
    exact List.sublist_append_left _ _
  rw [hentries, live_eq]
  exact (List.filter_sublist.trans hpart).map _

/-- The domains of an address are different. -/
theorem Kept.nodup {entries : List Entry} {log : List Put} {clock : Int} (h : Kept entries log clock) :
    (entries.map (·.domain)).Nodup := by
  have hsub := h.sublist_latest.map (·.domain)
  rw [List.map_map] at hsub
  have hnodup := (nodup_latest log).sublist hsub
  rwa [List.map_reverse, List.nodup_reverse] at hnodup

theorem Kept.get_eq {table : Table} {ip : String} {log : List Put} {clock now : Int}
    (h : Kept (entriesOf table ip) log clock) (hclock : clock ≤ now) :
    (DnsMap.get table ip now).1 = (live now (held log)).head?.map (·.entry.domain) := by
  rw [get_fst, List.getLast?_eq_head?_reverse, holds_filter h.holds hclock, List.head?_map, Option.map_map]
  rfl

theorem entriesOf_of_mem {table : Table} (hnodup : (table.map (·.1)).Nodup) {entry : String × List Entry}
    (h : entry ∈ table) : entriesOf table entry.1 = entry.2 := by
  induction table with
  | nil => cases h
  | cons first table ih =>
    rw [List.map_cons, List.nodup_cons] at hnodup
    obtain rfl | hrest := List.mem_cons.mp h
    · exact entriesOf_cons_self table entry.1 entry.2
    · have hne : entry.1 ≠ first.1 := fun heq => hnodup.1 (heq ▸ List.mem_map_of_mem hrest)
      exact (entriesOf_cons_ne table hne first.2).trans (ih hnodup.2 hrest)

/-- After any calls whose clock does not go back: the map is within its capacity and in the
order of use; an address holds at most eight entries, of different domains and in the order
of the last put of each; only the address used least recently is given up, for one that is
not there; and an address has the domain of its latest put that stands. -/
theorem cache_law {calls : List Call} (hclocked : Clocked calls) :
    (run platform calls).length ≤ maxEntries ∧
    Recent (fun ip => lastUse platform ip calls) (run platform calls) ∧
    (∀ entry ∈ run platform calls, entry.2.length ≤ 8 ∧ (entry.2.map (·.domain)).Nodup ∧
      entry.2.reverse.Sublist ((latest (puts platform entry.1 calls)).map (·.entry))) ∧
    (∀ call ip, evicted platform (run platform calls) call = some ip →
      (run platform calls).length = maxEntries ∧
        (∀ other, call.uses platform other = true → (run platform calls).lookup other = none) ∧
        ∀ entry ∈ run platform calls, lastUse platform ip calls ≤ lastUse platform entry.1 calls) ∧
    ∀ ip now, (∀ call ∈ calls, call.now ≤ now) →
      (∀ domain, (get (run platform calls) ip now).1 = some domain ↔
        ∃ later p older, puts platform ip calls = later ++ p :: older ∧ p.entry.domain = domain ∧ Stands now later p ∧
          ∀ newer q between, later = newer ++ q :: between → ¬ Stands now newer q) ∧
      ((get (run platform calls) ip now).1 = none ↔
        ∀ later p older, puts platform ip calls = later ++ p :: older → ¬ Stands now later p) := by
  obtain ⟨hbounded, hrecent⟩ := @ordered_run platform calls
  have hkept (ip : String) {clock : Int} := @kept_run platform calls hclocked ip clock
  obtain ⟨top, htop⟩ : ∃ top, ∀ call ∈ calls, call.now ≤ top := by
    cases calls with
    | nil => exact ⟨0, by simp⟩
    | cons call earlier =>
      refine ⟨call.now, fun c hc => ?_⟩
      obtain rfl | hearlier := List.mem_cons.mp hc
      · exact Int.le_refl _
      · exact (List.pairwise_cons.mp hclocked).1 c hearlier
  refine ⟨hbounded, hrecent, ?_, ?_, ?_⟩
  · intro entry hentry
    have hthis := hkept entry.1 htop
    rw [entriesOf_of_mem hrecent.nodup hentry] at hthis
    exact ⟨hthis.few, hthis.nodup, hthis.sublist_latest⟩
  · intro call ip hevicted
    cases call with
    | get ip' now => cases hevicted
    | put ip' domain ttlMillis now =>
      obtain ⟨kept, hnormal, hgiven⟩ := Option.bind_eq_some_iff.mp hevicted
      split at hgiven
      case isTrue => cases hgiven
      case isFalse hmissing =>
        obtain ⟨hfull, last, hlast, hkey⟩ := givenUp_eq_some hgiven
        refine ⟨Nat.le_antisymm hbounded hfull, fun other huses => ?_, ?_⟩
        · rw [(uses_put hnormal ttlMillis now other).mp huses]
          exact Option.not_isSome_iff_eq_none.mp hmissing
        · rw [← hkey]
          exact hrecent.least hlast
  · intro ip now hnow
    have hget := (hkept ip hnow).get_eq (Int.le_refl _)
    refine ⟨fun domain => ?_, ?_⟩
    · rw [hget, Option.map_eq_some_iff]
      constructor
      · intro h
        obtain ⟨p, hp, hdomain⟩ := h
        obtain ⟨later, older, hsplit, hstands, hfirst⟩ := head_live_held.mp hp
        exact ⟨later, p, older, hsplit, hdomain, hstands, hfirst⟩
      · intro h
        obtain ⟨later, p, older, hsplit, hdomain, hstands, hfirst⟩ := h
        exact ⟨p, head_live_held.mpr ⟨later, older, hsplit, hstands, hfirst⟩, hdomain⟩
    · rw [hget, Option.map_eq_none_iff, List.head?_eq_none_iff, live_held_eq_nil]

/-! ### Puts that do not count -/

/-- Octets as characters, and the lower case of ASCII letters. -/
def asciiPlatform : Platform where
  decode octets := String.ofList (octets.map fun b => Char.ofNat b.toNat)
  lowercase s := String.ofList (s.toList.map Char.toLower)
  hostAddress octets := ":".intercalate (octets.map fun b => String.ofList (Nat.toDigits 16 b.toNat))

/-- Two domains of an address, of which the later one expires first. -/
def twoPuts : List Call := [.put "10.0.0.1" "b.example" 1000 10, .put "10.0.0.1" "a.example" 300000 0]

theorem cache_law_two :
    (run asciiPlatform twoPuts).length ≤ maxEntries ∧
      (get (run asciiPlatform twoPuts) "10.0.0.1" 5000).1 ≠ none := by
  have hlaw := @cache_law asciiPlatform twoPuts (by simp [Clocked, twoPuts, Call.now])
  refine ⟨hlaw.1, fun hnone => ?_⟩
  have hstands := ((hlaw.2.2.2.2 "10.0.0.1" 5000 (by simp [twoPuts, Call.now])).2.mp hnone)
  have hputs : puts asciiPlatform "10.0.0.1" twoPuts =
      [⟨⟨"b.example", 1010⟩, 10⟩] ++ ⟨⟨"a.example", 300000⟩, 0⟩ :: [] := by decide +kernel
  refine hstands _ _ _ hputs ⟨by decide, by decide, (stays_iff _).mp (by decide)⟩

/-- Nothing is left of a put of long life after one of the same domain of short life, or after
eight of other domains, though it has not expired; and an address is looked up as it is. -/
theorem unexpired_lost :
    (putFor asciiPlatform "10.0.0.1" (.put "10.0.0.1" "a.example" 300000 0)).map (·.entry.expiresAt) = some 300000 ∧
    (get (run asciiPlatform [.put "10.0.0.1" "a.example" 1000 10, .put "10.0.0.1" "a.example" 300000 0])
      "10.0.0.1" 5000).1 = none ∧
    (get (run asciiPlatform (["h", "g", "f", "e", "d", "c", "b", "i"].map (Call.put "10.0.0.1" · 1000 10) ++
      [.put "10.0.0.1" "a.example" 300000 0])) "10.0.0.1" 5000).1 = none ∧
    (get (run asciiPlatform [.put " 10.0.0.1" "a.example" 300000 0]) " 10.0.0.1" 5000).1 = none := by
  decide +kernel

end Aether.Bridge.DnsMap
