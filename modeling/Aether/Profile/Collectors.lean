import Aether.Machine.Run
import Aether.Profile.Store

/-! Who collects the profile while it is being saved.

One save is three steps of its writer: the edit, which makes the preferences file emit to
every collector, and then a write of each secret. The mapping of a collector takes an
emission and reads the two secrets, one after the other. Any of these steps may come between
any others.

An emission is marked with the profile it was saved for. A collector that reads a secret
which is not the one of that profile gets a profile nobody saved; where no collector does,
every profile received is one that was saved, and the last is the last
(`consistent_of_timely`). -/
namespace Aether.Profile.Store
open Machine

/-! ### The machine -/

/-- What the preferences file emits, and the profile it was saved for. -/
structure Emission where
  prefs : Preferences
  source : ConnectionProfile

structure Collector where
  /-- Emitted and not taken yet. -/
  pending : List Emission
  /-- The emission being mapped, with the client secret that was read. -/
  mapping : Option (Emission × String) := none
  received : List ConnectionProfile := []

/-- Where the writer is in `save`. -/
inductive Phase where
  | idle
  | edited (p : ConnectionProfile)
  | halfWritten (p : ConnectionProfile)

structure State (σ : Type) where
  prefs : Preferences
  secrets : σ
  phase : Phase := .idle
  /-- The profiles saved, after the one that was there before. -/
  saved : List ConnectionProfile
  collectors : Nat → Option Collector := fun _ => none

inductive Action where
  /-- The edit of `save`. -/
  | edit (p : ConnectionProfile)
  | writeSecret
  | writeToken
  /-- A collector starts; it is given what is in the file. -/
  | collect (i : Nat)
  | readSecret (i : Nat)
  /-- The mapping is done and the profile received. -/
  | readToken (i : Nat)

section Machine
variable {σ : Type} (vault : Vault σ)

namespace State

def setCollector (i : Nat) (c : Collector) (s : State σ) : State σ :=
  {s with collectors := Function.update s.collectors i (some c)}

def commit (p : ConnectionProfile) (s : State σ) : State σ :=
  let prefs := edit p s.prefs
  {s with
    prefs
    phase := .edited p
    saved := s.saved ++ [p]
    collectors := fun i => (s.collectors i).map fun c => {c with pending := c.pending ++ [⟨prefs, p⟩]}}

def collect (i : Nat) (s : State σ) : State σ :=
  match s.collectors i with
  | some _ => s
  | none => s.setCollector i {pending := [⟨s.prefs, s.saved.getLastD {}⟩]}

def readSecret (i : Nat) (s : State σ) : State σ :=
  match s.collectors i with
  | some ⟨e :: rest, none, received⟩ =>
    s.setCollector i ⟨rest, some (e, vault.read accessSecret s.secrets), received⟩
  | _ => s

def readToken (i : Nat) (s : State σ) : State σ :=
  match s.collectors i with
  | some ⟨pending, some (e, secret), received⟩ =>
    s.setCollector i ⟨pending, none,
      received ++ [profileOf e.prefs secret (vault.read accessTokenName s.secrets)]⟩
  | _ => s

def next (a : Action) (s : State σ) : State σ :=
  match a, s.phase with
  | .edit p, .idle => s.commit p
  | .writeSecret, .edited p =>
    {s with phase := .halfWritten p, secrets := vault.write accessSecret p.accessClientSecret s.secrets}
  | .writeToken, .halfWritten p =>
    {s with phase := .idle, secrets := vault.write accessTokenName p.accessToken s.secrets}
  | .collect i, _ => s.collect i
  | .readSecret i, _ => s.readSecret vault i
  | .readToken i, _ => s.readToken vault i
  | _, _ => s

/-- What two stores hold, before any save and any collector. -/
def initial (stores : Stores σ) : State σ where
  prefs := stores.prefs
  secrets := stores.secrets
  saved := [load vault stores]

/-- Every profile received was saved, and a collector that has received all that was emitted
got the last one last, once no save is under way. -/
structure Consistent (s : State σ) : Prop where
  received : ∀ i c, s.collectors i = some c → ∀ p ∈ c.received, p ∈ s.saved
  last : s.phase = .idle → ∀ i c, s.collectors i = some c → c.pending = [] → c.mapping = none →
    c.received.getLast? = s.saved.getLast?

/-- The package lists of a saved profile are plain, and a secret is read while the secret
store has the one of the profile being mapped. -/
def Timely (a : Action) (s : State σ) : Prop :=
  match a with
  | .edit p => s.phase = .idle → PlainApps p.splitApps ∧ PlainApps p.blockedApps
  | .readSecret i => ∀ c e rest, s.collectors i = some c → c.mapping = none → c.pending = e :: rest →
    vault.read accessSecret s.secrets = e.source.accessClientSecret
  | .readToken i => ∀ c e secret, s.collectors i = some c → c.mapping = some (e, secret) →
    vault.read accessTokenName s.secrets = e.source.accessToken
  | _ => True

end State
end Machine

/-! ### What a collector is to receive -/

/-- The preferences are those of the profile. -/
def Emission.Faithful (e : Emission) : Prop :=
  profileOf e.prefs e.source.accessClientSecret e.source.accessToken = e.source

/-- What a collector has received and, if it reads in time, will. -/
def Collector.trail (c : Collector) : List ConnectionProfile :=
  c.received ++ (c.mapping.toList.map fun m => m.1.source) ++ c.pending.map Emission.source

/-- The collector has received, and is to receive, saved profiles only, the last one last. -/
structure Collector.Sound (saved : List ConnectionProfile) (c : Collector) : Prop where
  trail : ∀ p ∈ c.trail, p ∈ saved
  last : c.trail.getLast? = saved.getLast?
  pending : ∀ e ∈ c.pending, e.Faithful
  mapping : ∀ m ∈ c.mapping, m.1.Faithful ∧ m.2 = m.1.source.accessClientSecret

structure State.Sound {σ : Type} (s : State σ) : Prop where
  /-- The preferences are those of the profile saved last. -/
  prefs : Emission.Faithful ⟨s.prefs, s.saved.getLastD {}⟩
  saved : s.saved ≠ []
  collectors : ∀ i c, s.collectors i = some c → c.Sound s.saved

section Steps
variable {σ : Type} {vault : Vault σ} {s : State σ}

theorem faithful_edit {p : ConnectionProfile} (hsplit : PlainApps p.splitApps) (hblocked : PlainApps p.blockedApps)
    (prefs : Preferences) : Emission.Faithful ⟨edit p prefs, p⟩ := by
  show profileOf (edit p prefs) p.accessClientSecret p.accessToken = p
  rw [profileOf_edit hsplit hblocked]

/-- One more profile is saved, and its emission is pending. -/
theorem Collector.Sound.emitted {saved : List ConnectionProfile} {c : Collector} (h : c.Sound saved) {e : Emission}
    (he : e.Faithful) : Collector.Sound (saved ++ [e.source]) {c with pending := c.pending ++ [e]} := by
  have htrail : Collector.trail {c with pending := c.pending ++ [e]} = c.trail ++ [e.source] := by
    simp [Collector.trail]
  refine ⟨?_, ?_, ?_, h.mapping⟩
  · intro p hp
    rw [htrail] at hp
    rcases List.mem_append.mp hp with hp | hp
    · exact List.mem_append_left _ (h.trail p hp)
    · exact List.mem_append_right _ hp
  · rw [htrail, List.getLast?_concat, List.getLast?_concat]
  · intro d hd
    rcases List.mem_append.mp hd with hd | hd
    · exact h.pending d hd
    · rw [List.mem_singleton.mp hd]
      exact he

theorem Collector.Sound.of_trail {saved : List ConnectionProfile} {c d : Collector} (h : c.Sound saved)
    (htrail : d.trail = c.trail) (hpending : ∀ e ∈ d.pending, e ∈ c.pending)
    (hmapping : ∀ m ∈ d.mapping, m.1.Faithful ∧ m.2 = m.1.source.accessClientSecret) : d.Sound saved :=
  ⟨by rw [htrail]; exact h.trail, by rw [htrail]; exact h.last, fun e he => h.pending e (hpending e he), hmapping⟩

theorem State.Sound.setCollector (h : s.Sound) {i : Nat} {c : Collector} (hc : c.Sound s.saved) :
    (s.setCollector i c).Sound := by
  refine ⟨h.prefs, h.saved, ?_⟩
  intro j d hd
  by_cases hj : j = i
  · subst hj
    have hd' : Function.update s.collectors j (some c) j = some d := hd
    rw [Function.update_self] at hd'
    obtain rfl := Option.some.inj hd'
    exact hc
  · have hd' : Function.update s.collectors i (some c) j = some d := hd
    rw [Function.update_of_ne hj] at hd'
    exact h.collectors j d hd'

theorem State.Sound.commit (h : s.Sound) {p : ConnectionProfile} (hsplit : PlainApps p.splitApps)
    (hblocked : PlainApps p.blockedApps) : (s.commit p).Sound := by
  have he := faithful_edit hsplit hblocked s.prefs
  refine ⟨?_, List.concat_ne_nil _ _, ?_⟩
  · show Emission.Faithful ⟨edit p s.prefs, (s.saved ++ [p]).getLastD {}⟩
    rw [List.getLastD_concat]
    exact he
  · intro i c hc
    obtain ⟨d, hd, rfl⟩ := Option.map_eq_some_iff.mp hc
    exact (h.collectors i d hd).emitted he

theorem State.Sound.collect (h : s.Sound) (i : Nat) : (s.collect i).Sound := by
  rw [State.collect]
  split
  · exact h
  · have hlast : s.saved.getLast? = some (s.saved.getLastD {}) := by
      rw [List.getLastD_eq_getLast?, List.getLast?_eq_some_getLast h.saved]
      rfl
    apply h.setCollector
    refine ⟨?_, hlast.symm, ?_, ?_⟩
    · intro p hp
      obtain rfl : p = s.saved.getLastD {} := List.mem_singleton.mp hp
      exact List.mem_of_getLast? hlast
    · intro e he
      rw [List.mem_singleton.mp he]
      exact h.prefs
    · exact fun m hm => absurd hm (by simp)

theorem State.Sound.readSecret (h : s.Sound) {i : Nat} (ht : State.Timely vault (.readSecret i) s) :
    (s.readSecret vault i).Sound := by
  rw [State.readSecret]
  split
  · rename_i e rest received hc
    have hsound := h.collectors i _ hc
    have hread := ht _ e rest hc rfl rfl
    apply h.setCollector
    apply hsound.of_trail
    · simp [Collector.trail]
    · exact fun d hd => List.mem_cons_of_mem _ hd
    · intro m hm
      obtain rfl := Option.some.inj hm
      exact ⟨hsound.pending e (List.mem_cons_self ..), hread⟩
  · exact h

theorem State.Sound.readToken (h : s.Sound) {i : Nat} (ht : State.Timely vault (.readToken i) s) :
    (s.readToken vault i).Sound := by
  rw [State.readToken]
  split
  · rename_i pending e secret received hc
    have hsound := h.collectors i _ hc
    have hread := ht _ e secret hc rfl
    obtain ⟨hfaithful, hsecret⟩ := hsound.mapping _ rfl
    dsimp only at hfaithful hsecret
    apply h.setCollector
    apply hsound.of_trail
    · rw [hread, hsecret, hfaithful]
      simp [Collector.trail]
    · exact fun d hd => hd
    · exact fun m hm => absurd hm (by simp)
  · exact h

/-- A step in time keeps every collector sound. -/
theorem sound_next (a : Action) (s : State σ) (h : s.Sound) (ht : State.Timely vault a s) :
    (State.next vault a s).Sound := by
  cases a with
  | edit p =>
    cases hphase : s.phase with
    | idle =>
      obtain ⟨hsplit, hblocked⟩ := ht hphase
      simp only [State.next, hphase]
      exact h.commit hsplit hblocked
    | _ => simpa [State.next, hphase] using h
  | writeSecret =>
    cases hphase : s.phase with
    | edited p =>
      simp only [State.next, hphase]
      exact ⟨h.prefs, h.saved, h.collectors⟩
    | _ => simpa [State.next, hphase] using h
  | writeToken =>
    cases hphase : s.phase with
    | halfWritten p =>
      simp only [State.next, hphase]
      exact ⟨h.prefs, h.saved, h.collectors⟩
    | _ => simpa [State.next, hphase] using h
  | collect i => exact h.collect i
  | readSecret i => exact h.readSecret ht
  | readToken i => exact h.readToken ht

theorem sound_initial (vault : Vault σ) (stores : Stores σ) : (State.initial vault stores).Sound := by
  refine ⟨rfl, List.cons_ne_nil _ _, ?_⟩
  intro i c hc
  cases hc

theorem State.Sound.consistent (h : s.Sound) : s.Consistent := by
  refine ⟨?_, ?_⟩
  · intro i c hc p hp
    apply (h.collectors i c hc).trail
    rw [Collector.trail, List.append_assoc]
    exact List.mem_append_left _ hp
  · intro _ i c hc hpending hmapping
    have hlast := (h.collectors i c hc).last
    rwa [Collector.trail, hpending, hmapping, Option.toList_none, List.map_nil, List.map_nil, List.append_nil,
      List.append_nil] at hlast

end Steps

/-- **Where every secret is read in time, no collector receives a profile that was not saved, and
the last one it receives is the last one saved.** -/
theorem consistent_of_timely {σ : Type} {vault : Vault σ} {stores : Stores σ} {as : List Action}
    (h : Along (State.next vault) (State.Timely vault) (State.initial vault stores) as) :
    ∀ s ∈ visited (State.next vault) (State.initial vault stores) as, s.Consistent := by
  intro s hs
  have hsound := visited_of_along_of_step sound_next (sound_initial vault stores) as h
  exact (hsound s hs).consistent

/-- Nothing was saved yet. -/
def fresh : Stores (String → Option String) := ⟨fun _ => none, fun _ => none⟩

/-- A collector takes what is in the file, a profile is saved, and the collector maps its
emission when the secrets are written. -/
def inTurn : List Action :=
  [.collect 0, .readSecret 0, .readToken 0, .edit enrolled, .writeSecret, .writeToken, .readSecret 0, .readToken 0]

theorem timely_inTurn :
    Along (State.next secretStore) (State.Timely secretStore) (State.initial secretStore fresh) inTurn := by
  refine ⟨trivial, ?_, ?_, fun _ => plainApps_enrolled, trivial, trivial, ?_, ?_, trivial⟩
  all_goals
    intro c e x hc
    obtain rfl := Option.some.inj hc
  · intro _ hpending
    cases hpending
    rfl
  · intro hmapping
    cases hmapping
    rfl
  · intro _ hpending
    cases hpending
    decide +kernel
  · intro hmapping
    cases hmapping
    decide +kernel

theorem consistent_inTurn :
    (run (State.next secretStore) (State.initial secretStore fresh) inTurn).Consistent :=
  consistent_of_timely timely_inTurn _ (run_visited _ _ _)

/-- The collector maps the emission between the edit and the writes. -/
def tooSoon : List Action :=
  [.collect 0, .readSecret 0, .readToken 0, .edit enrolled, .readSecret 0, .readToken 0, .writeSecret, .writeToken]

/-- It is left with the new preferences and the old secrets. -/
theorem mixed_tooSoon :
    ¬ ∀ s ∈ visited (State.next secretStore) (State.initial secretStore fresh) tooSoon, s.Consistent := by
  intro h
  have hlast := (h _ (run_visited _ _ _)).last rfl 0 _ rfl rfl rfl
  have htoken := congrArg (Option.map ConnectionProfile.accessToken) hlast
  exact absurd htoken (by decide +kernel)

end Aether.Profile.Store
