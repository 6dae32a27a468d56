import Aether.Profile.Arguments
import Aether.Rust.AddressText
import Aether.Rust.Blanks
import Aether.Rust.Merged
import Aether.Rust.Parse
import Aether.Upstream.Setting

/-! The resolvers that the user chose.

The app passes on the entries of its list that have the shape of an address, the engine takes
those of them that it can read as one. The two agree exactly if every entry writes an address
in its shape, and one in brackets without a port, which the engine cannot read, repeats another
(`resolversUsed_iff`). -/
namespace Aether.Socks
open Kotlin (joinToString isDecimalDigit isHexClass)
open Profile (ConnectionProfile Env dnsEntry)
open Rust (Represented SocketAddr collectNew collectNew_map collectTaken collectTaken_eq_iff endsWith isWhitespace
  isWhitespace_of_visible literal_bounds mem_collectNew parseIp parseIp_text parseIpv6 parseSocketAddr
  parseSocketAddr_port pushNew stripEnd stripEnd_eq_some stripStart stripStart_eq_some trim trim_of_solid)
open Setting (decimal_not_white)

/-! ### The engine's list -/

/-- An address with its port, or else with the port of DNS. -/
def readResolver (entry : String) : Option SocketAddr :=
  (parseSocketAddr entry).or ((parseIp entry).map fun ip => SocketAddr.new ip 53)

/-- A turn of the loop in `resolver_addresses`. -/
def addResolver (servers : List SocketAddr) (token : String) : List SocketAddr :=
  let entry := trim token
  if entry.isEmpty then servers else (readResolver entry).elim servers (pushNew servers)

/-- `split([',', ' ', ';'])`. -/
def resolverTokens (configured : String) : List String :=
  (configured.toList.splitOnP [',', ' ', ';'].contains).map String.ofList

/-- What the loop finds in `AETHER_DNS`. -/
def configuredServers (env : Env) : List SocketAddr :=
  (resolverTokens ((env "AETHER_DNS").getD "")).foldl addResolver []

def builtInServers : List SocketAddr := ["1.1.1.1:53", "1.0.0.1:53"].filterMap parseSocketAddr

/-- `resolver_addresses`. -/
def resolverAddresses (env : Env) : List SocketAddr :=
  if (configuredServers env).isEmpty then builtInServers else configuredServers env

/-! ### What an entry writes -/

/-- An address of the sixth version in brackets, with the port of DNS. -/
def bracketed (entry : String) : Option SocketAddr :=
  ((stripStart "[" entry).bind (stripEnd "]")).bind fun inner =>
    (parseIpv6 inner).map fun bits => SocketAddr.new (.v6 bits) 53

/-- The address that an entry writes, with its port or else with the port of DNS. -/
def written (entry : String) : Option SocketAddr := (readResolver entry).or (bracketed entry)

/-- No address in brackets without a port. -/
def engineForm (entry : String) : Bool := !endsWith "]" entry

/-- The engine reads what is written unless it is in brackets without a port. -/
theorem readResolver_eq (entry : String) :
    readResolver entry = if engineForm entry then written entry else none := by
  rw [engineForm]
  cases hend : endsWith "]" entry with
  | false =>
    have hnone : bracketed entry = none := by
      rw [Option.eq_none_iff_forall_ne_some]
      intro server hserver
      obtain ⟨inner, hinner, -⟩ := Option.bind_eq_some_iff.mp hserver
      obtain ⟨tail, htail, hback⟩ := Option.bind_eq_some_iff.mp hinner
      have hentry := stripStart_eq_some.mp htail
      rw [stripEnd_eq_some.mp hback, ← String.append_assoc] at hentry
      rw [hentry, endsWith, String.toList_append] at hend
      exact absurd (List.isSuffixOf_iff_suffix.mpr (List.suffix_append ..)) (by rw [hend]; exact Bool.false_ne_true)
    rw [written, hnone, Option.or_none]
    rfl
  | true =>
    have hlast : ']' ∈ entry.toList ∧ entry.toList.getLast? = some ']' := by
      obtain ⟨front, hfront⟩ := List.isSuffixOf_iff_suffix.mp hend
      have hlist : "]".toList = [']'] := rfl
      rw [← hfront, hlist]
      exact ⟨List.mem_append_right _ (List.mem_singleton.mpr rfl), List.getLast?_concat ..⟩
    have haddress : parseSocketAddr entry = none := by
      rw [Option.eq_none_iff_forall_ne_some]
      intro address haddress
      obtain ⟨front, digits, hentry, hne, hdigits⟩ := parseSocketAddr_port haddress
      rw [hentry, List.getLast?_append_of_ne_nil _ hne] at hlast
      have hdigit := hdigits _ (List.mem_of_getLast? hlast.2)
      exact absurd hdigit (by decide)
    have hip : parseIp entry = none := by
      rw [Option.eq_none_iff_forall_ne_some]
      intro ip hip
      have hbounds := literal_bounds ((parseIp_text hip).1 _ hlast.1)
      have hcode : ']'.toNat = 93 := rfl
      omega
    rw [readResolver, haddress, hip]
    rfl

/-! ### The list of the app -/

theorem splitOnP_congr {α : Type} {p q : α → Bool} {xs : List α} (h : ∀ a ∈ xs, p a = q a) :
    xs.splitOnP p = xs.splitOnP q := by
  induction xs with
  | nil => rfl
  | cons a xs ih =>
    rw [List.splitOnP_cons_eq_if_modifyHead, List.splitOnP_cons_eq_if_modifyHead, h a (List.mem_cons_self ..),
      ih fun b hb => h b (List.mem_cons_of_mem _ hb)]

theorem hex_not_white {c : Char} (h : isHexClass c = true) : isWhitespace c = false := by
  apply isWhitespace_of_visible
  rw [isHexClass, Bool.or_eq_true, Bool.or_eq_true, Bool.and_eq_true, Bool.and_eq_true, decide_eq_true_eq,
    decide_eq_true_eq, decide_eq_true_eq, decide_eq_true_eq] at h
  obtain (h | h) | h := h
  · have := Kotlin.isDigit_bounds h
    omega
  · omega
  · omega

/-- No character of an entry separates entries. -/
theorem accepts_solid {c : Char} (h : dnsEntry.accepts c = true) :
    [',', ' ', ';'].contains c = false ∧ isWhitespace c = false := by
  constructor
  · rw [← Bool.not_eq_true, List.contains_iff_mem]
    intro hmem
    have hnone : ([',', ' ', ';'].all fun d => !dnsEntry.accepts d) = true := by decide +kernel
    have hc := List.all_eq_true.mp hnone c hmem
    rw [h] at hc
    cases hc
  · by_cases hdigit : isDecimalDigit c = true
    · exact decimal_not_white hdigit
    · simp only [dnsEntry, Profile.portEnd, Kotlin.Pattern.accepts, Kotlin.Pattern.char, Bool.or_eq_true, beq_iff_eq,
        hdigit, Bool.false_eq_true, false_or, or_false] at h
      have hmarks : (['.', '[', ':', ']'].all fun d => !isWhitespace d) = true := by decide
      have hmark (hc : c ∈ ['.', '[', ':', ']']) : isWhitespace c = false := by
        simpa using List.all_eq_true.mp hmarks c hc
      by_cases hhex : isHexClass c = true
      · exact hex_not_white hhex
      · apply hmark
        simp only [List.mem_cons, List.not_mem_nil, or_false]
        tauto

theorem entry_accepted {p : ConnectionProfile} {entry : String} (h : entry ∈ p.sanitizedDns) :
    entry.isEmpty = false ∧ ∀ c ∈ entry.toList, [',', ' ', ';'].contains c = false ∧ isWhitespace c = false := by
  have hmem := List.mem_of_mem_take h
  rw [List.mem_eraseDups] at hmem
  have hmatch := (List.mem_filter.mp hmem).2
  rw [Bool.and_eq_true, Bool.not_eq_true'] at hmatch
  exact ⟨hmatch.1, fun c hc => accepts_solid (Kotlin.Pattern.fullMatch_accepts hmatch.2 c hc)⟩

/-- The list, joined by commas, is cut into its entries again. -/
theorem resolverTokens_join {entries : List String} (hne : entries ≠ [])
    (h : ∀ entry ∈ entries, ∀ c ∈ entry.toList, [',', ' ', ';'].contains c = false) :
    resolverTokens (joinToString ',' entries) = entries := by
  have hcomma : ∀ entry ∈ entries, ',' ∉ entry.toList := by
    intro entry hentry hmem
    exact absurd (h entry hentry _ hmem) (by decide)
  have hsame : (joinToString ',' entries).toList.splitOnP [',', ' ', ';'].contains =
      (joinToString ',' entries).toList.splitOn ',' := by
    apply splitOnP_congr
    intro c hc
    obtain rfl | hentry := Kotlin.joinToString_mem hc
    · rfl
    · obtain ⟨entry, hentry, hc⟩ := hentry
      rw [h entry hentry c hc]
      symm
      rw [beq_eq_false_iff_ne]
      rintro rfl
      exact hcomma entry hentry hc
  have hsplit := Kotlin.split_joinToString ',' entries hcomma hne
  rw [Kotlin.split] at hsplit
  rw [resolverTokens, hsame]
  exact hsplit

theorem foldl_addResolver {entries : List String} (hne : ∀ entry ∈ entries, entry.isEmpty = false)
    (hsolid : ∀ entry ∈ entries, ∀ c ∈ entry.toList, isWhitespace c = false) (servers : List SocketAddr) :
    entries.foldl addResolver servers = (entries.filterMap readResolver).foldl pushNew servers := by
  induction entries generalizing servers with
  | nil => rfl
  | cons entry entries ih =>
    have hrest := ih (fun e he => hne e (List.mem_cons_of_mem _ he)) (fun e he => hsolid e (List.mem_cons_of_mem _ he))
    have hturn : addResolver servers entry = (readResolver entry).elim servers (pushNew servers) := by
      rw [addResolver, trim_of_solid (hsolid entry (List.mem_cons_self ..))]
      rw [hne entry (List.mem_cons_self ..)]
      rfl
    rw [List.foldl_cons, hturn, hrest]
    cases hread : readResolver entry with
    | none => rw [List.filterMap_cons_none hread, Option.elim_none]
    | some server => rw [List.filterMap_cons_some hread, Option.elim_some, List.foldl_cons]

section
variable (p : ConnectionProfile)

/-- The environment of an engine that gets the entries of the app. -/
def resolverEnv (env : Env) : Env := Env.put "AETHER_DNS" (joinToString ',' p.sanitizedDns) env

/-- The engine uses one address for each entry, in order and without duplicates, and no built-in one. -/
def ResolversUsed (env : Env) : Prop :=
  p.sanitizedDns ≠ [] →
    configuredServers (resolverEnv p env) ≠ [] ∧
      ∃ addresses, p.sanitizedDns.map written = addresses.map some ∧
        resolverAddresses (resolverEnv p env) = collectNew addresses

/-- Every entry writes an address, and those in brackets without a port are represented by others. -/
def ResolversRead : Prop :=
  (∀ entry ∈ p.sanitizedDns, (written entry).isSome = true) ∧ Represented engineForm written p.sanitizedDns

variable {p}

theorem configuredServers_eq (hne : p.sanitizedDns ≠ []) (env : Env) :
    configuredServers (resolverEnv p env) = collectNew (p.sanitizedDns.filterMap readResolver) := by
  have htokens := resolverTokens_join hne fun entry hentry c hc => ((entry_accepted hentry).2 c hc).1
  rw [configuredServers, resolverEnv, Env.put, Function.update_self, Option.getD_some, htokens]
  exact foldl_addResolver (fun entry hentry => (entry_accepted hentry).1)
    (fun entry hentry c hc => ((entry_accepted hentry).2 c hc).2) []

/-- Where every entry writes an address, those in the engine's form are the ones that are taken. -/
theorem filterMap_readResolver {entries : List String} (h : ∀ entry ∈ entries, (written entry).isSome = true) :
    (entries.filterMap readResolver).map some = (entries.filter engineForm).map written := by
  induction entries with
  | nil => rfl
  | cons entry entries ih =>
    have hrest := ih fun e he => h e (List.mem_cons_of_mem _ he)
    obtain ⟨server, hserver⟩ := Option.isSome_iff_exists.mp (h entry (List.mem_cons_self ..))
    have hread := readResolver_eq entry
    cases hform : engineForm entry with
    | true =>
      rw [hform, if_pos rfl, hserver] at hread
      rw [List.filterMap_cons_some hread, List.filter_cons_of_pos hform, List.map_cons, List.map_cons, hrest, hserver]
    | false =>
      rw [hform, if_neg Bool.false_ne_true] at hread
      rw [List.filterMap_cons_none hread, List.filter_cons_of_neg (by rw [hform]; exact Bool.false_ne_true), hrest]

theorem isSome_of_map {entries : List String} {addresses : List SocketAddr}
    (h : entries.map written = addresses.map some) : ∀ entry ∈ entries, (written entry).isSome = true := by
  intro entry hentry
  have hmem : written entry ∈ addresses.map some := by
    rw [← h]
    exact List.mem_map_of_mem hentry
  obtain ⟨server, -, hserver⟩ := List.mem_map.mp hmem
  rw [← hserver]
  rfl

theorem exists_map_some {entries : List String} (h : ∀ entry ∈ entries, (written entry).isSome = true) :
    ∃ addresses : List SocketAddr, entries.map written = addresses.map some := by
  induction entries with
  | nil => exact ⟨[], rfl⟩
  | cons entry entries ih =>
    obtain ⟨addresses, haddresses⟩ := ih fun e he => h e (List.mem_cons_of_mem _ he)
    obtain ⟨server, hserver⟩ := Option.isSome_iff_exists.mp (h entry (List.mem_cons_self ..))
    exact ⟨server :: addresses, by rw [List.map_cons, List.map_cons, haddresses, hserver]⟩

/-- The engine's list is that of all addresses exactly if the entries it cannot read are represented. -/
theorem configuredServers_iff (hne : p.sanitizedDns ≠ []) (env : Env) {addresses : List SocketAddr}
    (h : p.sanitizedDns.map written = addresses.map some) :
    configuredServers (resolverEnv p env) = collectNew addresses ↔ Represented engineForm written p.sanitizedDns := by
  have hinj : Function.Injective (some : SocketAddr → Option SocketAddr) := Option.some_injective _
  rw [← collectTaken_eq_iff, collectTaken, ← filterMap_readResolver (isSome_of_map h), h, collectNew_map hinj,
    collectNew_map hinj, hinj.list_map.eq_iff, configuredServers_eq hne]

/-- **The engine uses the resolvers of the user exactly if each of them is an address, and each
in brackets without a port is represented by another.** -/
theorem resolversUsed_iff (p : ConnectionProfile) (env : Env) : ResolversUsed p env ↔ ResolversRead p := by
  by_cases hne : p.sanitizedDns = []
  · refine iff_of_true (fun h => absurd hne h) ⟨?_, ?_⟩
    · rw [hne]
      intro entry hentry
      cases hentry
    · rw [hne]
      intro front entry back hnil
      exact absurd hnil.symm (by simp)
  · have hused (h : configuredServers (resolverEnv p env) ≠ []) :
        resolverAddresses (resolverEnv p env) = configuredServers (resolverEnv p env) := by
      rw [resolverAddresses, if_neg (by rwa [List.isEmpty_iff])]
    constructor
    · intro h
      obtain ⟨hconfigured, addresses, hmap, heq⟩ := h hne
      rw [hused hconfigured, configuredServers_iff hne env hmap] at heq
      exact ⟨isSome_of_map hmap, heq⟩
    · intro h _
      obtain ⟨addresses, hmap⟩ := exists_map_some h.1
      have heq := (configuredServers_iff hne env hmap).mpr h.2
      have hconfigured : configuredServers (resolverEnv p env) ≠ [] := by
        rw [heq]
        intro hnil
        cases addresses with
        | nil => exact hne (List.map_eq_nil_iff.mp hmap)
        | cons address rest =>
          have hmem := mem_collectNew.mpr (List.mem_cons_self (a := address) (l := rest))
          rw [hnil] at hmem
          cases hmem
      exact ⟨hconfigured, addresses, hmap, (hused hconfigured).trans heq⟩

end

/-- An address in brackets without a port and four numbers that are no address have the shape of
an entry, and the engine falls back to its own resolvers. -/
theorem resolvers_replaced :
    ¬ ResolversUsed { dnsServers := "[2606:4700:4700::1111]" } (fun _ => none) ∧
      ¬ ResolversUsed { dnsServers := "999.1.1.1" } (fun _ => none) := by
  constructor
  · intro h
    exact (h (by decide +kernel)).1 (by decide +kernel)
  · intro h
    exact (h (by decide +kernel)).1 (by decide +kernel)

end Aether.Socks
