import Aether.Machine.Run

/-! Sharing with other devices.

`ShareBridge` opens its two listeners under its lock, and a new session number shuts out
the threads of earlier stops. But `stop` clears the flag first and takes its number
afterwards, so that a start may come in between (`stopped_behind_start`), and a start that
finds a listener open returns without a look at its arguments (`lan_stays_open`).

A state holds the fields of the object and the calls that are under way. -/
namespace Aether.Share
open Machine

/-! ### The object -/

/-- What `startSync` is called with. -/
structure Args where
  localOnly : Bool
  upstreamPort : Int32
  deriving DecidableEq

/-- An open server socket: the address it is bound to and the call that opened it. -/
structure Listener where
  host : String
  opener : Nat
  deriving DecidableEq

/-- A call of `startSync`; calls are numbered as they begin. -/
structure Start where
  call : Nat
  args : Args
  deriving DecidableEq

/-- A `share-stop` thread: the call of `stop` that started it and its `stopSession`. -/
structure Stop where
  call : Nat
  session : Int32
  deriving DecidableEq

/-- A server in a field is open: only `closeServers` closes one, and it empties the field. -/
structure State where
  active : Bool := false
  session : Int32 := 0
  socksServer : Option Listener := none
  httpServer : Option Listener := none
  bindHost : String := "127.0.0.1"
  currentUpstreamPort : Int32 := 1819
  /-- How many calls have begun. -/
  calls : Nat := 0
  /-- Calls of `startSync` that do not have the lock yet. -/
  waiting : List Start := []
  /-- The one that has the lock and binds the ports. -/
  binding : Option Start := none
  /-- Calls of `stop` that have cleared the flag and not taken a session yet. -/
  flagged : List Nat := []
  stopping : List Stop := []
  deriving DecidableEq

inductive Event where
  /-- `startSync` is called, by `start` or directly. -/
  | start (args : Args)
  /-- A call of `startSync` gets the lock. -/
  | enter (k : Nat)
  /-- The ports are open, or not. -/
  | bound (socks http : Bool)
  /-- `stop` clears the flag. -/
  | flag
  /-- It gets the lock and takes a session. -/
  | take (k : Nat)
  /-- A `share-stop` thread gets the lock. -/
  | close (k : Nat)

namespace State

def closeServers (s : State) : State := {s with socksServer := none, httpServer := none}

/-- The flag is on and a listener is open. -/
def healthy (s : State) : Bool := s.active && (s.socksServer.isSome || s.httpServer.isSome)

/-- A new session with the arguments of the call. -/
def openSession (w : Start) (s : State) : State :=
  {s.closeServers with
    session := s.session + 1
    currentUpstreamPort := w.args.upstreamPort
    bindHost := if w.args.localOnly then "127.0.0.1" else "0.0.0.0"
    binding := some w}

def next (event : Event) (s : State) : State :=
  match event with
  | .start args => {s with calls := s.calls + 1, waiting := s.waiting ++ [⟨s.calls, args⟩]}
  | .enter k =>
    match s.binding, s.waiting[k]? with
    | none, some w =>
      let rest := {s with waiting := s.waiting.eraseIdx k}
      if s.healthy then rest else rest.openSession w
    | _, _ => s
  | .bound socks http =>
    match s.binding with
    | none => s
    | some w =>
      if socks && http then
        {s with
          socksServer := some ⟨s.bindHost, w.call⟩
          httpServer := some ⟨s.bindHost, w.call⟩
          active := true
          binding := none}
      else {s.closeServers with active := false, binding := none}
  | .flag => {s with active := false, calls := s.calls + 1, flagged := s.flagged ++ [s.calls]}
  | .take k =>
    match s.binding, s.flagged[k]? with
    | none, some call =>
      {s with
        session := s.session + 1
        flagged := s.flagged.eraseIdx k
        stopping := s.stopping ++ [⟨call, s.session + 1⟩]}
    | _, _ => s
  | .close k =>
    match s.binding, s.stopping[k]? with
    | none, some stop =>
      let rest := {s with stopping := s.stopping.eraseIdx k}
      if s.session = stop.session then rest.closeServers else rest
    | _, _ => s

/-! ### What sharing promises -/

/-- No call and no thread is in progress. -/
def Quiescent (s : State) : Prop := s.waiting = [] ∧ s.binding = none ∧ s.flagged = [] ∧ s.stopping = []

/-- At rest the flag is on exactly if both listeners are open. -/
def Truthful (s : State) : Prop :=
  s.Quiescent → (s.active = true ↔ s.socksServer.isSome = true ∧ s.httpServer.isSome = true)

instance (s : State) : Decidable s.Quiescent := inferInstanceAs (Decidable (_ ∧ _))

instance (s : State) : Decidable s.Truthful := inferInstanceAs (Decidable (_ → _))

end State

/-- A `share-stop` thread closes no listener of a `startSync` that began after the `stop`. -/
def SparesNewer (event : Event) (s : State) : Prop :=
  match event with
  | .close k => ∀ stop, s.stopping[k]? = some stop → ∀ l : Listener,
      (s.socksServer = some l ∧ (s.next event).socksServer = none) ∨
        (s.httpServer = some l ∧ (s.next event).httpServer = none) → l.opener < stop.call
  | _ => True

/-- The next session number is not that of a thread that has not run yet. -/
def Fresh (s : State) : Prop := ∀ stop ∈ s.stopping, stop.session ≠ s.session + 1

instance (s : State) : Decidable (Fresh s) := inferInstanceAs (Decidable (∀ stop ∈ _, _))

/-- Sharing is not turned on while a `stop` has cleared the flag and not taken its session;
and a number is not used again while its thread has not run. -/
def Orderly (event : Event) (s : State) : Prop :=
  match event with
  | .enter k => s.binding = none → s.waiting[k]?.isSome = true → s.healthy = false → Fresh s
  | .take k => s.binding = none → s.flagged[k]?.isSome = true → Fresh s
  | .bound socks http => s.binding.isSome = true → socks = true → http = true → s.flagged = []
  | _ => True

instance Orderly.decidable : (event : Event) → (s : State) → Decidable (Orderly event s)
  | .start _, _ => inferInstanceAs (Decidable True)
  | .enter _, _ => inferInstanceAs (Decidable (_ → _ → _ → _))
  | .bound _ _, _ => inferInstanceAs (Decidable (_ → _ → _ → _))
  | .flag, _ => inferInstanceAs (Decidable True)
  | .take _, _ => inferInstanceAs (Decidable (_ → _ → _))
  | .close _, _ => inferInstanceAs (Decidable True)

/-! ### The listeners -/

/-- The two fields go together, and while the ports are being bound both are empty. -/
structure Paired (s : State) : Prop where
  same : s.httpServer = s.socksServer
  host : ∀ l ∈ s.socksServer, l.host = s.bindHost
  bare : ∀ w ∈ s.binding, s.socksServer = none
  args : ∀ w ∈ s.binding, s.bindHost = (if w.args.localOnly then "127.0.0.1" else "0.0.0.0") ∧
    s.currentUpstreamPort = w.args.upstreamPort

theorem Paired.start {s : State} (h : Paired s) (args : Args) : Paired (s.next (.start args)) :=
  ⟨h.same, h.host, h.bare, h.args⟩

theorem Paired.flag {s : State} (h : Paired s) : Paired (s.next .flag) := ⟨h.same, h.host, h.bare, h.args⟩

theorem Paired.enter {s : State} (h : Paired s) (k : Nat) : Paired (s.next (.enter k)) := by
  rw [State.next]
  split
  case h_1 w hbinding hw =>
    dsimp only
    split
    · exact ⟨h.same, h.host, h.bare, h.args⟩
    · refine ⟨rfl, nofun, fun _ _ => rfl, ?_⟩
      rintro _ ⟨⟩
      exact ⟨rfl, rfl⟩
  case h_2 => exact h

theorem Paired.bound {s : State} (h : Paired s) (socks http : Bool) : Paired (s.next (.bound socks http)) := by
  rw [State.next]
  split
  case h_1 => exact h
  case h_2 w hbinding =>
    split
    · refine ⟨rfl, ?_, nofun, nofun⟩
      rintro _ ⟨⟩
      rfl
    · exact ⟨rfl, nofun, nofun, nofun⟩

theorem Paired.take {s : State} (h : Paired s) (k : Nat) : Paired (s.next (.take k)) := by
  rw [State.next]
  split
  case h_1 => exact ⟨h.same, h.host, h.bare, h.args⟩
  case h_2 => exact h

theorem Paired.close {s : State} (h : Paired s) (k : Nat) : Paired (s.next (.close k)) := by
  rw [State.next]
  split
  case h_1 stop hbinding hstop =>
    dsimp only
    split
    · exact ⟨rfl, nofun, fun _ _ => rfl, h.args⟩
    · exact ⟨h.same, h.host, h.bare, h.args⟩
  case h_2 => exact h

theorem paired_step (event : Event) (s : State) (h : Paired s) : Paired (s.next event) := by
  cases event with
  | start args => exact h.start args
  | enter k => exact h.enter k
  | bound socks http => exact h.bound socks http
  | flag => exact h.flag
  | take k => exact h.take k
  | close k => exact h.close k

theorem paired_init : Paired {} := ⟨rfl, nofun, nofun, nofun⟩

/-! ### Stops and starts -/

/-- What orderly runs keep. While the flag is on, the listeners are open and nobody is about
to close them; while it is off, whoever will close them is under way. -/
structure Kept (s : State) : Prop where
  lit : s.active = true → s.socksServer.isSome = true ∧ s.flagged = [] ∧ ∀ stop ∈ s.stopping, stop.session ≠ s.session
  dark : s.active = false → s.socksServer.isSome = true → s.flagged ≠ [] ∨ ∃ stop ∈ s.stopping, stop.session = s.session
  fresh : ∀ w ∈ s.binding, s.active = false ∧ ∀ stop ∈ s.stopping, stop.session ≠ s.session
  begun : (∀ w ∈ s.waiting, w.call < s.calls) ∧ (∀ w ∈ s.binding, w.call < s.calls) ∧
    ∀ l ∈ s.socksServer, l.opener < s.calls
  before : ∀ l ∈ s.socksServer, ∀ call ∈ s.flagged, l.opener < call
  spared : ∀ l ∈ s.socksServer, ∀ stop ∈ s.stopping, stop.session = s.session → l.opener < stop.call

section Steps

variable {s : State}

theorem Kept.start (h : Kept s) (args : Args) : Kept (s.next (.start args)) := by
  obtain ⟨hwaiting, hbinding, hopen⟩ := h.begun
  have hlater : ∀ {n}, n < s.calls → n < s.calls + 1 := fun hn => Nat.lt_succ_of_lt hn
  refine ⟨h.lit, h.dark, h.fresh, ⟨?_, fun w hw => hlater (hbinding w hw), fun l hl => hlater (hopen l hl)⟩,
    h.before, h.spared⟩
  intro w hw
  rcases List.mem_append.mp hw with hold | hnew
  · exact hlater (hwaiting w hold)
  · rw [List.mem_singleton.mp hnew]
    exact Nat.lt_succ_self _

theorem Kept.flag (h : Kept s) : Kept (s.next .flag) := by
  obtain ⟨hwaiting, hbinding, hopen⟩ := h.begun
  have hlater : ∀ {n}, n < s.calls → n < s.calls + 1 := fun hn => Nat.lt_succ_of_lt hn
  refine ⟨nofun, fun _ _ => .inl (by simp [State.next]), fun w hw => ⟨rfl, (h.fresh w hw).2⟩,
    ⟨fun w hw => hlater (hwaiting w hw), fun w hw => hlater (hbinding w hw), fun l hl => hlater (hopen l hl)⟩, ?_,
    h.spared⟩
  intro l hl call hcall
  rcases List.mem_append.mp hcall with hold | hnew
  · exact h.before l hl call hold
  · rw [List.mem_singleton.mp hnew]
    exact hopen l hl

theorem Kept.enter (h : Kept s) {k : Nat} (hok : Orderly (.enter k) s) : Kept (s.next (.enter k)) := by
  obtain ⟨hwaiting, hbinding, hopen⟩ := h.begun
  rw [State.next]
  split
  case h_1 w hnone hw =>
    have hrest : ∀ w' ∈ s.waiting.eraseIdx k, w'.call < s.calls :=
      fun w' hw' => hwaiting w' (List.mem_of_mem_eraseIdx hw')
    dsimp only
    split
    case isTrue => exact ⟨h.lit, h.dark, h.fresh, ⟨hrest, hbinding, hopen⟩, h.before, h.spared⟩
    case isFalse hsick =>
      rw [Bool.not_eq_true] at hsick
      have hfresh : Fresh s := hok hnone (by rw [hw]; rfl) hsick
      have hdark : s.active = false := by
        by_contra hlit
        rw [Bool.not_eq_false] at hlit
        rw [State.healthy, hlit, (h.lit hlit).1] at hsick
        cases hsick
      refine ⟨?_, nofun, ?_, ⟨hrest, ?_, nofun⟩, nofun, nofun⟩
      · intro hlit
        exact absurd (hlit.symm.trans hdark) (by decide)
      · intro w' _
        exact ⟨hdark, hfresh⟩
      · rintro _ ⟨⟩
        exact hwaiting w (List.mem_of_getElem? hw)
  case h_2 => exact h

theorem Kept.bound (h : Kept s) {socks http : Bool} (hok : Orderly (.bound socks http) s) :
    Kept (s.next (.bound socks http)) := by
  obtain ⟨hwaiting, hbinding, hopen⟩ := h.begun
  rw [State.next]
  split
  case h_1 => exact h
  case h_2 w hw =>
    obtain ⟨hdark, hfresh⟩ := h.fresh w hw
    split
    case isTrue hopened =>
      rw [Bool.and_eq_true] at hopened
      have hnone : s.flagged = [] := hok (by rw [hw]; rfl) hopened.1 hopened.2
      refine ⟨fun _ => ⟨rfl, hnone, hfresh⟩, nofun, nofun, ⟨hwaiting, nofun, ?_⟩, ?_, ?_⟩
      · rintro _ ⟨⟩
        exact hbinding w hw
      · intro l _ call hcall
        rw [hnone] at hcall
        cases hcall
      · intro l _ stop hstop hsame
        exact absurd hsame (hfresh stop hstop)
    case isFalse => exact ⟨nofun, nofun, nofun, ⟨hwaiting, nofun, nofun⟩, nofun, nofun⟩

theorem Kept.take (h : Kept s) {k : Nat} (hok : Orderly (.take k) s) : Kept (s.next (.take k)) := by
  rw [State.next]
  split
  case h_1 call hnone hcall =>
    have hfresh : Fresh s := hok hnone (by rw [hcall]; rfl)
    have hmem : call ∈ s.flagged := List.mem_of_getElem? hcall
    have hdark : s.active = false := by
      by_contra hlit
      rw [Bool.not_eq_false] at hlit
      rw [(h.lit hlit).2.1] at hmem
      cases hmem
    refine ⟨?_, ?_, ?_, h.begun, ?_, ?_⟩
    · intro hlit
      exact absurd (hlit.symm.trans hdark) (by decide)
    · intro _ _
      exact .inr ⟨⟨call, s.session + 1⟩, by simp, rfl⟩
    · intro w hw
      rw [hnone] at hw
      cases hw
    · intro l hl call' hcall'
      exact h.before l hl call' (List.mem_of_mem_eraseIdx hcall')
    · intro l hl stop hstop hsame
      rcases List.mem_append.mp hstop with hold | hnew
      · exact absurd hsame (hfresh stop hold)
      · rw [List.mem_singleton.mp hnew]
        exact h.before l hl call hmem
  case h_2 => exact h

theorem Kept.close (h : Kept s) (k : Nat) : Kept (s.next (.close k)) := by
  obtain ⟨hwaiting, hbinding, hopen⟩ := h.begun
  rw [State.next]
  split
  case h_1 stop hnone hstop =>
    have hmem : stop ∈ s.stopping := List.mem_of_getElem? hstop
    have hrest : ∀ stop' ∈ s.stopping.eraseIdx k, stop' ∈ s.stopping := fun _ => List.mem_of_mem_eraseIdx
    dsimp only
    split
    case isTrue hsame =>
      have hdark : s.active = false := by
        by_contra hlit
        rw [Bool.not_eq_false] at hlit
        exact (h.lit hlit).2.2 stop hmem hsame.symm
      refine ⟨?_, nofun, ?_, ⟨hwaiting, hbinding, nofun⟩, nofun, nofun⟩
      · intro hlit
        exact absurd (hlit.symm.trans hdark) (by decide)
      · intro w hw
        rw [hnone] at hw
        cases hw
    case isFalse hother =>
      refine ⟨?_, ?_, ?_, ⟨hwaiting, hbinding, hopen⟩, h.before, ?_⟩
      · intro hlit
        obtain ⟨hsome, hflagged, hapart⟩ := h.lit hlit
        exact ⟨hsome, hflagged, fun stop' hstop' => hapart stop' (hrest stop' hstop')⟩
      · intro hdark hsome
        obtain hflagged | ⟨stop', hstop', hsame⟩ := h.dark hdark hsome
        · exact .inl hflagged
        · -- the thread that goes is of another session
          have hne : stop' ≠ stop := by
            rintro rfl
            exact hother hsame.symm
          obtain ⟨i, hi⟩ := List.mem_iff_getElem?.mp hstop'
          have hik : i ≠ k := by
            rintro rfl
            exact hne (Option.some.inj (hi.symm.trans hstop))
          exact .inr ⟨stop', List.mem_eraseIdx_iff_getElem?.mpr ⟨i, hik, hi⟩, hsame⟩
      · intro w hw
        rw [hnone] at hw
        cases hw
      · intro l hl stop' hstop'
        exact h.spared l hl stop' (hrest stop' hstop')
  case h_2 => exact h

end Steps

theorem kept_step (event : Event) (s : State) (h : Kept s) (hok : Orderly event s) :
    Kept (s.next event) := by
  cases event with
  | start args => exact h.start args
  | enter k => exact h.enter hok
  | bound socks http => exact h.bound hok
  | flag => exact h.flag
  | take k => exact h.take hok
  | close k => exact h.close k

theorem kept_init : Kept {} := ⟨nofun, nofun, nofun, ⟨nofun, nofun, nofun⟩, nofun, nofun⟩

theorem Kept.truthful {s : State} (h : Kept s) (hp : Paired s) : s.Truthful := by
  rintro ⟨-, -, hflagged, hstopping⟩
  rw [hp.same, and_self]
  constructor
  · exact fun hlit => (h.lit hlit).1
  · intro hopen
    by_contra hdark
    rw [Bool.not_eq_true] at hdark
    obtain hwho | ⟨stop, hstop, -⟩ := h.dark hdark hopen
    · exact hwho hflagged
    · rw [hstopping] at hstop
      cases hstop

theorem Kept.sparesNewer {s : State} (h : Kept s) (hp : Paired s) (event : Event) : SparesNewer event s := by
  cases event with
  | close k =>
    intro stop hstop l hl
    have hmem : stop ∈ s.stopping := List.mem_of_getElem? hstop
    rw [hp.same, State.next] at hl
    by_cases hclosed : s.binding = none ∧ s.session = stop.session
    · have hsocks : s.socksServer = some l := by
        rcases hl with ⟨hl, -⟩ | ⟨hl, -⟩
        · exact hl
        · exact hl
      exact h.spared l hsocks stop hmem hclosed.2.symm
    · exfalso
      rw [not_and_or] at hclosed
      split at hl
      case h_1 stop' hnone hstop' =>
        obtain rfl : stop' = stop := Option.some.inj (hstop'.symm.trans hstop)
        rw [if_neg (hclosed.resolve_left (not_not_intro hnone))] at hl
        rcases hl with ⟨hl, hgone⟩ | ⟨hl, hgone⟩
        · exact Option.some_ne_none l (hl.symm.trans hgone)
        · exact Option.some_ne_none l (hl.symm.trans (hp.same.symm.trans hgone))
      case h_2 =>
        rcases hl with ⟨hl, hgone⟩ | ⟨hl, hgone⟩
        · exact Option.some_ne_none l (hl.symm.trans hgone)
        · exact Option.some_ne_none l (hl.symm.trans (hp.same.symm.trans hgone))
  | _ => trivial

/-- **In every orderly run the flag is truthful and stops spare what came after them**: in
every state at rest sharing is on exactly if both listeners are open, and no `share-stop`
thread closes a listener of a start that began after its `stop`. -/
theorem truthful_of_orderly (events : List Event) (h : Along State.next Orderly {} events) :
    (∀ s ∈ visited State.next {} events, s.Truthful) ∧ Along State.next SparesNewer {} events := by
  have hkeeps : ∀ event s, Paired s ∧ Kept s → Orderly event s → Paired (s.next event) ∧ Kept (s.next event) := by
    rintro event s ⟨hp, hk⟩ hok
    exact ⟨paired_step event s hp, kept_step event s hk hok⟩
  constructor
  · intro s hs
    obtain ⟨hp, hk⟩ : Paired s ∧ Kept s := visited_of_along_of_step hkeeps ⟨paired_init, kept_init⟩ events h s hs
    exact hk.truthful hp
  · exact along_of_along hkeeps (fun event s hb _ => hb.2.sparesNewer hb.1 event) ⟨paired_init, kept_init⟩ events h

/-- Sharing is turned on and off. -/
theorem truthful_onOff :
    (∀ s ∈ visited State.next {} [.start ⟨false, 1819⟩, .enter 0, .bound true true, .flag, .take 0, .close 0], s.Truthful) ∧
      Along State.next SparesNewer {} [.start ⟨false, 1819⟩, .enter 0, .bound true true, .flag, .take 0, .close 0] :=
  truthful_of_orderly _ (by decide)

/-- A start comes between the two steps of a stop. -/
def overtaken : List Event := [.flag, .start ⟨false, 1819⟩, .enter 0, .bound true true, .take 0, .close 0]

/-- At the end sharing is on and nobody listens: the stop closed the newer session. -/
theorem stopped_behind_start :
    ¬ (∀ s ∈ visited State.next {} overtaken, s.Truthful) ∧ ¬ Along State.next SparesNewer {} overtaken := by
  constructor
  · decide
  · rintro ⟨-, -, -, -, -, hspares, -⟩
    exact absurd (hspares ⟨0, 2⟩ rfl ⟨"0.0.0.0", 1⟩ (.inl ⟨rfl, rfl⟩)) (by decide)

/-! ### The arguments of a start -/

/-- The arguments of the call of `startSync` that returns `true` in a step. -/
def returnsTrue (event : Event) (s : State) : Option Args :=
  match event with
  | .enter k =>
    match s.binding, s.waiting[k]? with
    | none, some w => if s.healthy then some w.args else none
    | _, _ => none
  | .bound true true => s.binding.map Start.args
  | _ => none

/-- A call of `startSync` opens a new session in the step. -/
def Opens (event : Event) (s : State) : Prop :=
  match event with
  | .enter k => s.binding = none ∧ s.waiting[k]?.isSome = true ∧ s.healthy = false
  | _ => False

/-- Both listeners are open, on the loopback only exactly if the call says so; and until a
new session is opened every connection is relayed to the port of the call. -/
structure Honours (args : Args) (s : State) : Prop where
  socks : ∃ l, s.socksServer = some l ∧ (l.host = "127.0.0.1" ↔ args.localOnly = true)
  http : ∃ l, s.httpServer = some l ∧ (l.host = "127.0.0.1" ↔ args.localOnly = true)
  relayed : ∀ later, Along State.next (fun event s => ¬ Opens event s) s later →
    ∀ t ∈ visited State.next s later, t.currentUpstreamPort = args.upstreamPort

/-- A call that returns `true` is honoured. -/
def Honoured (event : Event) (s : State) : Prop := ∀ args ∈ returnsTrue event s, Honours args (s.next event)

/-- A call that finds sharing on asks for what it is on with. -/
def Agrees (event : Event) (s : State) : Prop :=
  match event with
  | .enter k => s.binding = none → s.healthy = true → ∀ w ∈ s.waiting[k]?,
      (s.bindHost = "127.0.0.1" ↔ w.args.localOnly = true) ∧ s.currentUpstreamPort = w.args.upstreamPort
  | _ => True

/-- Only a new session changes the port. -/
theorem upstreamPort_next {event : Event} {s : State} (h : ¬ Opens event s) :
    (s.next event).currentUpstreamPort = s.currentUpstreamPort := by
  rw [State.next.eq_def]
  cases event with
  | start args => rfl
  | enter k =>
    dsimp only
    split
    case h_1 w hnone hw =>
      split
      case isTrue => rfl
      case isFalse hsick =>
        rw [Bool.not_eq_true] at hsick
        exact absurd ⟨hnone, by rw [hw]; rfl, hsick⟩ h
    case h_2 => rfl
  | bound socks http =>
    dsimp only
    split
    · rfl
    · split <;> rfl
  | flag => rfl
  | take k =>
    dsimp only
    split <;> rfl
  | close k =>
    dsimp only
    split
    · split <;> rfl
    · rfl

theorem upstreamPort_later {s : State} (later : List Event)
    (h : Along State.next (fun event s => ¬ Opens event s) s later) :
    ∀ t ∈ visited State.next s later, t.currentUpstreamPort = s.currentUpstreamPort := by
  have hstep : ∀ event t, t.currentUpstreamPort = s.currentUpstreamPort → ¬ Opens event t →
      (t.next event).currentUpstreamPort = s.currentUpstreamPort :=
    fun event t ht hopens => (upstreamPort_next hopens).trans ht
  exact visited_of_along_of_step hstep rfl later h

/-- What it takes for the arguments to be honoured. -/
theorem honours_iff {args : Args} {s : State} (hp : Paired s) (hopen : s.socksServer.isSome = true) :
    Honours args s ↔ (s.bindHost = "127.0.0.1" ↔ args.localOnly = true) ∧ s.currentUpstreamPort = args.upstreamPort := by
  obtain ⟨l, hl⟩ := Option.isSome_iff_exists.mp hopen
  have hhost : l.host = s.bindHost := hp.host l hl
  constructor
  · intro h
    obtain ⟨l', hl', hscope⟩ := h.socks
    obtain rfl : l' = l := Option.some.inj (hl'.symm.trans hl)
    rw [hhost] at hscope
    exact ⟨hscope, h.relayed [] trivial s (List.mem_singleton.mpr rfl)⟩
  · rintro ⟨hscope, hport⟩
    rw [← hhost] at hscope
    exact ⟨⟨l, hl, hscope⟩, ⟨l, hp.same.trans hl, hscope⟩, fun later hlater t ht =>
      (upstreamPort_later later hlater t ht).trans hport⟩

theorem hosts_iff (localOnly : Bool) :
    (if localOnly then "127.0.0.1" else "0.0.0.0") = "127.0.0.1" ↔ localOnly = true := by
  cases localOnly <;> decide

theorem honoured_enter {s : State} (hp : Paired s) (k : Nat) : Honoured (.enter k) s ↔ Agrees (.enter k) s := by
  rw [Honoured, Agrees, returnsTrue]
  cases hnone : s.binding with
  | some w => simp
  | none =>
    cases hw : s.waiting[k]? with
    | none => simp
    | some w =>
      by_cases hlit : s.healthy = true
      · have hsome : s.socksServer.isSome = true := by
          rw [State.healthy, hp.same, Bool.or_self, Bool.and_eq_true] at hlit
          exact hlit.2
        have hnext : s.next (.enter k) = {s with waiting := s.waiting.eraseIdx k} := by
          rw [State.next, hnone, hw]
          dsimp only
          rw [if_pos hlit, ← hnone]
        have hiff := @honours_iff w.args _ (paired_step (.enter k) s hp) (by rw [hnext]; exact hsome)
        rw [hnext] at hiff ⊢
        simp only [hlit, if_true, Option.mem_some_iff, forall_eq', true_implies]
        exact hiff
      · simp [hlit]

theorem honoured_bound {s : State} (hp : Paired s) (socks http : Bool) : Honoured (.bound socks http) s := by
  intro args hargs
  cases socks with
  | false => cases hargs
  | true =>
    cases http with
    | false => cases hargs
    | true =>
      obtain ⟨w, hw, rfl⟩ := Option.map_eq_some_iff.mp hargs
      obtain ⟨hhost, hport⟩ := hp.args w hw
      have hnext : s.next (.bound true true) =
          {s with
            socksServer := some ⟨s.bindHost, w.call⟩
            httpServer := some ⟨s.bindHost, w.call⟩
            active := true
            binding := none} := by
        rw [State.next, hw]
        rfl
      rw [honours_iff (paired_step _ s hp) (by rw [hnext]; rfl), hnext]
      dsimp only
      rw [hhost]
      exact ⟨hosts_iff _, hport⟩

/-- **Starts are honoured exactly in the runs in which a start that finds sharing on asks for
what it is on with**: whenever `startSync` returns `true`, both listeners are open, bound to
the loopback only exactly if the call says so, and connections are relayed to its port. -/
theorem honoured_iff (events : List Event) :
    Along State.next Honoured {} events ↔ Along State.next Agrees {} events := by
  apply along_iff_along paired_step _ paired_init
  intro event s hp
  cases event with
  | start args => exact iff_of_true nofun trivial
  | enter k => exact honoured_enter hp k
  | bound socks http => exact iff_of_true (honoured_bound hp socks http) trivial
  | flag => exact iff_of_true nofun trivial
  | take k => exact iff_of_true nofun trivial
  | close k => exact iff_of_true nofun trivial

/-- Sharing with the network, then a start for this device only, at another port. -/
theorem lan_stays_open : ¬ Along State.next Honoured {}
    [.start ⟨false, 1819⟩, .enter 0, .bound true true, .start ⟨true, 1820⟩, .enter 0] := by
  rintro ⟨-, -, -, -, hhonoured, -⟩
  obtain ⟨l, hl, hscope⟩ := (hhonoured ⟨true, 1820⟩ rfl).socks
  have hlan : l = ⟨"0.0.0.0", 0⟩ := (Option.some.inj hl).symm
  rw [hlan] at hscope
  exact absurd (hscope.mpr rfl) (by decide)

end Aether.Share
