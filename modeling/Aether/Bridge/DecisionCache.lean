import Aether.Bridge.RoutingEngine

/-! The cache of routing decisions.

`RoutingEngine.resolve` keeps each decision under a text: the address, the port and the
three names, joined by colons, with the word null for a name that is absent. A name may
hold a colon, and may be that word; then two flows can share a text, and the later one is
given the decision of the earlier.

Which runs of calls that happens in is said twice: by the texts and the decisions
(`resolveAll_iff`), and by the names alone (`transparent_of_plain`): where no name holds a
colon and none is the word null, a text gives the call away, whatever the address and the
port. -/
namespace Aether.Bridge.RoutingEngine
open Kotlin

/-! ### Calls -/

/-- What `resolve` is called with. -/
structure Query where
  destinationIp : String
  destinationPort : Int32
  resolvedDomain : Option String
  tlsSni : Option String
  httpHost : Option String
deriving DecidableEq

variable (X : Externs) (rules : List RoutingRule)

def normalizeDomain (value : Option String) : Option String :=
  (value.map fun name => X.lowercase (trimEnd '.' (trim name))).filter fun name => !name.isEmpty

/-- The call with its names normalized. -/
def Query.normalized (q : Query) : Query :=
  {q with
    resolvedDomain := normalizeDomain X q.resolvedDomain
    tlsSni := normalizeDomain X q.tlsSni
    httpHost := normalizeDomain X q.httpHost}

/-- A name in a string template. -/
def shown (name : Option String) : String := name.getD "null"

/-- The text that a decision is kept under. -/
def Query.key (q : Query) : String :=
  q.destinationIp ++ ":" ++ intToString q.destinationPort ++ ":" ++ shown q.resolvedDomain ++ ":" ++
    shown q.tlsSni ++ ":" ++ shown q.httpHost

/-- `resolveInternal` of the call's own arguments. -/
def own (q : Query) : RoutingDecision :=
  let n := q.normalized X
  resolveInternal X rules n.destinationIp n.resolvedDomain n.tlsSni n.httpHost

/-- The key that the call looks under. -/
def keyOf (q : Query) : String := (q.normalized X).key

/-- `resolve`, with the cache after it. -/
def resolve (cache : List (String × RoutingDecision)) (q : Query) : RoutingDecision × List (String × RoutingDecision) :=
  match cache.lookup (keyOf X q) with
  | some decision => (decision, cache)
  | none => (own X rules q, (keyOf X q, own X rules q) :: cache)

/-- The answers to the calls of a run. -/
def resolveAll (cache : List (String × RoutingDecision)) : List Query → List RoutingDecision
  | [] => []
  | q :: rest => (resolve X rules cache q).1 :: resolveAll (resolve X rules cache q).2 rest

/-- The two calls are kept under one text, and the rules tell them apart. -/
def Confused (q q' : Query) : Prop := keyOf X q = keyOf X q' ∧ own X rules q ≠ own X rules q'

/-- The name is absent, or holds no colon and is not the word null. -/
def PlainName (name : Option String) : Prop := ∀ s ∈ name, ':' ∉ s.toList ∧ s ≠ "null"

instance (name : Option String) : Decidable (PlainName name) :=
  inferInstanceAs (Decidable (∀ s ∈ name, ':' ∉ s.toList ∧ s ≠ "null"))

/-- The names of the call are plain. -/
structure Query.Plain (q : Query) : Prop where
  resolvedDomain : PlainName (normalizeDomain X q.resolvedDomain)
  tlsSni : PlainName (normalizeDomain X q.tlsSni)
  httpHost : PlainName (normalizeDomain X q.httpHost)

/-! ### Runs -/

variable {X rules}

/-- The cache holds the decisions of the first calls seen with each text. -/
def Keeps (X : Externs) (rules : List RoutingRule) (seen : List Query) (cache : List (String × RoutingDecision)) : Prop :=
  ∀ key, cache.lookup key = (seen.find? fun q => keyOf X q == key).map (own X rules)

theorem keeps_resolve {seen : List Query} {cache : List (String × RoutingDecision)} (h : Keeps X rules seen cache)
    (q : Query) : Keeps X rules (seen ++ [q]) (resolve X rules cache q).2 := by
  intro key
  rw [List.find?_append, resolve]
  cases hhit : cache.lookup (keyOf X q) with
  | some decision =>
    show cache.lookup key = _
    rw [h key]
    cases hfind : seen.find? fun q => keyOf X q == key with
    | some first => rfl
    | none =>
      -- the text of the call was seen before, so it is not the one looked for
      have hne : keyOf X q ≠ key := by
        intro heq
        rw [heq, h key, hfind] at hhit
        cases hhit
      simp [hne]
  | none =>
    show List.lookup key ((keyOf X q, own X rules q) :: cache) = _
    by_cases heq : key = keyOf X q
    · subst heq
      have hnew : (seen.find? fun q' => keyOf X q' == keyOf X q) = none := by
        have hmiss := h (keyOf X q)
        rw [hhit] at hmiss
        exact Option.map_eq_none_iff.mp hmiss.symm
      simp [hnew]
    · have hne : keyOf X q ≠ key := fun h => heq h.symm
      have hskip : (key == keyOf X q) = false := beq_eq_false_iff_ne.mpr heq
      rw [List.lookup_cons, hskip, h key]
      simp [hne]

/-- A call is answered with the decision of the first one under its text. -/
theorem resolve_eq {seen : List Query} {cache : List (String × RoutingDecision)} (h : Keeps X rules seen cache)
    (q : Query) : (resolve X rules cache q).1 = own X rules ((seen.find? fun q' => keyOf X q' == keyOf X q).getD q) := by
  have hlookup := h (keyOf X q)
  rw [resolve]
  cases hfind : seen.find? fun q' => keyOf X q' == keyOf X q with
  | some first =>
    rw [hfind, Option.map_some] at hlookup
    rw [hlookup, Option.getD_some]
  | none =>
    rw [hfind, Option.map_none] at hlookup
    rw [hlookup, Option.getD_none]

theorem answer_iff {seen : List Query} {q : Query} (hseen : seen.Pairwise fun q q' => ¬ Confused X rules q q') :
    own X rules ((seen.find? fun q' => keyOf X q' == keyOf X q).getD q) = own X rules q ↔
      ∀ q' ∈ seen, ¬ Confused X rules q' q := by
  cases hfind : seen.find? fun q' => keyOf X q' == keyOf X q with
  | none =>
    refine iff_of_true rfl ?_
    intro q' hq' hconfused
    have hno := List.find?_eq_none.mp hfind q' hq'
    exact hno (beq_iff_eq.mpr hconfused.1)
  | some first =>
    rw [Option.getD_some]
    have hkey : keyOf X first = keyOf X q := by simpa using List.find?_some hfind
    obtain ⟨-, before, after, rfl, hbefore⟩ := List.find?_eq_some_iff_append.mp hfind
    constructor
    · intro hsame q' hq' hconfused
      rcases List.mem_append.mp hq' with hq' | hq'
      · have hno := hbefore q' hq'
        rw [hconfused.1] at hno
        simp at hno
      · rcases List.mem_cons.mp hq' with rfl | hq'
        · exact hconfused.2 hsame
        · -- both stand under one text with the first, which is not confused with either
          have hfirst := (List.pairwise_cons.mp (List.pairwise_append.mp hseen).2.1).1 q' hq'
          apply hconfused.2
          by_contra hne
          refine hfirst ⟨hkey.trans hconfused.1.symm, ?_⟩
          rw [hsame]
          exact fun h => hne h.symm
    · intro h
      by_contra hne
      exact h first (by simp) ⟨hkey, hne⟩

theorem resolveAll_iff {seen : List Query} {cache : List (String × RoutingDecision)} (h : Keeps X rules seen cache)
    (hseen : seen.Pairwise fun q q' => ¬ Confused X rules q q') (run : List Query) :
    resolveAll X rules cache run = run.map (own X rules) ↔
      (seen ++ run).Pairwise fun q q' => ¬ Confused X rules q q' := by
  induction run generalizing seen cache with
  | nil =>
    rw [List.append_nil]
    exact iff_of_true rfl hseen
  | cons q rest ih =>
    have hshift : seen ++ q :: rest = (seen ++ [q]) ++ rest := by simp
    rw [resolveAll, List.map_cons, List.cons_eq_cons, resolve_eq h, answer_iff hseen, hshift]
    have hseen' : (seen ++ [q]).Pairwise (fun q q' => ¬ Confused X rules q q') ↔
        ∀ q' ∈ seen, ¬ Confused X rules q' q := by
      rw [List.pairwise_append]
      simp only [List.pairwise_singleton, true_and, hseen, List.mem_singleton, forall_eq]
    constructor
    · intro hall
      obtain ⟨hq, hrest⟩ := hall
      exact (ih (keeps_resolve h q) (hseen'.mpr hq)).mp hrest
    · intro hall
      have hfront := (List.pairwise_append.mp hall).1
      exact ⟨hseen'.mp hfront, (ih (keeps_resolve h q) hfront).mpr hall⟩

/-! ### Texts -/

theorem colon_notMem_intToString (n : Int32) : ':' ∉ (intToString n).toList := by
  have hdigits : ':' ∉ Nat.toDigits 10 n.toInt.natAbs := by
    intro hmem
    have hdigit := Nat.isDigit_of_mem_toDigits (by decide) (by decide) hmem
    exact absurd hdigit (by decide)
  rw [intToString, String.toList_ofList]
  split
  · intro hmem
    rcases List.mem_cons.mp hmem with h | h
    · exact absurd h (by decide)
    · exact hdigits h
  · exact hdigits

theorem PlainName.colon {name : Option String} (h : PlainName name) : ':' ∉ (shown name).toList := by
  cases name with
  | none => decide
  | some s => exact (h s rfl).1

theorem PlainName.shown_inj {name name' : Option String} (h : PlainName name) (h' : PlainName name')
    (heq : shown name = shown name') : name = name' := by
  cases name with
  | none =>
    cases name' with
    | none => rfl
    | some s => exact absurd heq.symm (h' s rfl).2
  | some s =>
    cases name' with
    | none => exact absurd heq (h s rfl).2
    | some s' => exact congrArg some heq

/-- A text is cut at its last colon. -/
theorem colon_inj {s s' t t' : String} (ht : ':' ∉ t.toList) (ht' : ':' ∉ t'.toList)
    (h : s ++ ":" ++ t = s' ++ ":" ++ t') : s = s' ∧ t = t' := by
  have hbefore := congrArg (substringBeforeLast ':') h
  have hafter := congrArg (substringAfterLast ':') h
  have hcut : ∀ a b : String, a ++ ":" ++ b = a ++ String.singleton ':' ++ b := fun a b => rfl
  rw [hcut, hcut, substringBeforeLast_append ht, substringBeforeLast_append ht'] at hbefore
  rw [hcut, hcut, substringAfterLast_append ht, substringAfterLast_append ht'] at hafter
  exact ⟨hbefore, hafter⟩

/-- Calls with plain names under one text have the same arguments. -/
theorem normalized_inj {q q' : Query} (h : q.Plain X) (h' : q'.Plain X) (hkey : keyOf X q = keyOf X q') :
    q.normalized X = q'.normalized X := by
  obtain ⟨hkey, hhost⟩ := colon_inj h.httpHost.colon h'.httpHost.colon hkey
  obtain ⟨hkey, hsni⟩ := colon_inj h.tlsSni.colon h'.tlsSni.colon hkey
  obtain ⟨hkey, hdomain⟩ := colon_inj h.resolvedDomain.colon h'.resolvedDomain.colon hkey
  obtain ⟨hip, hport⟩ := colon_inj (colon_notMem_intToString _) (colon_notMem_intToString _) hkey
  have hnumber : q.destinationPort = q'.destinationPort := by
    have hread := congrArg toIntOrNull hport
    rw [toIntOrNull_toString, toIntOrNull_toString] at hread
    exact Option.some.inj hread
  have hip' : q.destinationIp = q'.destinationIp := hip
  rw [Query.normalized, Query.normalized, h.httpHost.shown_inj h'.httpHost hhost,
    h.tlsSni.shown_inj h'.tlsSni hsni, h.resolvedDomain.shown_inj h'.resolvedDomain hdomain, hip', hnumber]

theorem not_confused {q q' : Query} (h : q.Plain X) (h' : q'.Plain X) : ¬ Confused X rules q q' := by
  intro hconfused
  apply hconfused.2
  rw [own, own, normalized_inj h h' hconfused.1]

/-- **In a run of calls whose names hold no colon and are not the word null, each call is
given the decision about its own arguments**, whatever the rules, the addresses and the
ports. -/
theorem transparent_of_plain (X : Externs) (rules : List RoutingRule) (run : List Query)
    (h : ∀ q ∈ run, q.Plain X) : resolveAll X rules [] run = run.map (own X rules) := by
  have hempty : Keeps X rules [] [] := fun key => rfl
  apply (resolveAll_iff hempty List.Pairwise.nil run).mpr
  exact List.pairwise_of_forall_mem_list fun q hq q' hq' => not_confused (h q hq) (h q' hq')

/-- A name, its absence, and an address with colons. -/
theorem transparent_sample :
    resolveAll plain [⟨"lan", .block⟩] [] [⟨"10.0.0.0", 443, some "a.lan", none, none⟩,
        ⟨"10.0.0.0", 443, none, none, none⟩, ⟨"fe80::1", 443, none, some "a.lan", none⟩] =
      [⟨"10.0.0.0", 443, some "a.lan", none, none⟩, ⟨"10.0.0.0", 443, none, none, none⟩,
        ⟨"fe80::1", 443, none, some "a.lan", none⟩].map (own plain [⟨"lan", .block⟩]) := by
  apply transparent_of_plain
  intro q hq
  simp only [List.mem_cons, List.not_mem_nil, or_false] at hq
  rcases hq with rfl | rfl | rfl <;> exact ⟨by decide, by decide, by decide⟩

/-- A flow without a name is given the decision about the name null, without any rule. -/
theorem decision_shared :
    ¬ resolveAll plain [] [] [⟨"10.0.0.0", 443, some "null", none, none⟩, ⟨"10.0.0.0", 443, none, none, none⟩] =
      [⟨"10.0.0.0", 443, some "null", none, none⟩, ⟨"10.0.0.0", 443, none, none, none⟩].map (own plain []) := by
  decide

end Aether.Bridge.RoutingEngine
