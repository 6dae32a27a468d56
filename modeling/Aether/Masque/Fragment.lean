import Aether.Machine.Run
import Aether.Masque.Capsule
import Aether.Profile.Arguments
import Aether.Rust.Parse

/-! The fragmenting stream under TLS.

Until the first read, `FragmentingStream` offers its inner stream only some bytes of each
buffer, as many as a draw between two sizes says, and waits between two writes. What it
reports as written is what the inner stream took of the offer, whatever the inner stream
answers and whenever the timer fires (`accepted_eq_reported`). -/
namespace Aether.Masque.Fragment
open Machine
open Profile (Env)

/-! ### Configuration -/

structure FragmentConfig where
  enabled : Bool
  sizeMin : Nat
  sizeMax : Nat
  delayMinMs : Nat
  delayMaxMs : Nat

def isTruthy (v : String) : Bool := ["1", "true", "yes", "on"].contains (Rust.toLowercase (Rust.trim v))

def parseU64 (s : String) : Option Nat := Rust.parseUnsigned 64 s

def parseRange (spec : String) (default : Nat × Nat) : Nat × Nat :=
  let spec := Rust.trim spec
  if spec.isEmpty then default
  else
    match Rust.splitOnce '-' spec with
    | some (a, b) =>
      let lo := (parseU64 (Rust.trim a)).getD default.1
      let hi := (parseU64 (Rust.trim b)).getD default.2
      if hi < lo then (hi, lo) else (lo, hi)
    | none =>
      let v := (parseU64 spec).getD default.1
      (v, v)

/-- The sizes that the environment asks for. -/
def sizes (env : Env) : Nat × Nat := parseRange ((env "AETHER_MASQUE_H2_FRAGMENT_SIZE").getD "") (16, 32)

def delays (env : Env) : Nat × Nat := parseRange ((env "AETHER_MASQUE_H2_FRAGMENT_DELAY").getD "") (2, 10)

def fromEnv (t : Target) (env : Env) : FragmentConfig :=
  let sizeMin := asUsize t (max (sizes env).1 1)
  { enabled := ((env "AETHER_MASQUE_H2_FRAGMENT").map isTruthy).getD false
    sizeMin := sizeMin
    sizeMax := asUsize t (max (sizes env).2 sizeMin)
    delayMinMs := (delays env).1
    delayMaxMs := max (delays env).2 (delays env).1 }

/-- `random_range(lo..=hi)`, of a draw. -/
def randomRange (lo hi draw : Nat) : Nat := lo + draw % (hi - lo + 1)

def FragmentConfig.pickChunkLen (cfg : FragmentConfig) (remaining draw : Nat) : Nat :=
  let hi := min (max cfg.sizeMax 1) remaining
  let lo := min (max cfg.sizeMin 1) hi
  if hi ≤ lo then hi else randomRange lo hi draw

def FragmentConfig.pickDelay (cfg : FragmentConfig) (draw : Nat) : Nat :=
  if cfg.delayMaxMs = 0 then 0
  else if cfg.delayMaxMs ≤ cfg.delayMinMs then cfg.delayMinMs
  else randomRange cfg.delayMinMs cfg.delayMaxMs draw

/-! ### The stream -/

/-- What the inner stream answers to a write: it takes some bytes of those it is offered. -/
inductive Answer where
  | pending
  | failed
  | ready (n : Nat)

structure State where
  fragmenting : Bool
  /-- A delay is set that has not passed. -/
  pendingDelay : Bool := false
  /-- The bytes that the inner stream has taken. -/
  accepted : List UInt8 := []
  /-- The bytes that were reported as written. -/
  reported : List UInt8 := []

def new (cfg : FragmentConfig) : State := {fragmenting := cfg.enabled}

/-- A call of `poll_write`, with what happens in it. -/
structure Write where
  buf : List UInt8
  /-- The delay, if one is set, has passed. -/
  fired : Bool
  chunkDraw : Nat
  delayDraw : Nat
  answer : Answer

/-- What is offered to the inner stream, if it is asked at all. -/
def offer (cfg : FragmentConfig) (w : Write) (s : State) : Option (List UInt8) :=
  if w.buf.isEmpty || !s.fragmenting then some w.buf
  else if s.pendingDelay && !w.fired then none
  else some (w.buf.take (cfg.pickChunkLen w.buf.length w.chunkDraw))

/-- The inner stream takes bytes of the offer, and as many of the buffer are reported. -/
def pass (offered : List UInt8) (w : Write) (s : State) : State :=
  match w.answer with
  | .pending => s
  | .failed => s
  | .ready n =>
    let n := min n offered.length
    {s with accepted := s.accepted ++ offered.take n, reported := s.reported ++ w.buf.take n}

def pollWrite (cfg : FragmentConfig) (w : Write) (s : State) : State :=
  match offer cfg w s with
  | none => s
  | some offered =>
    if w.buf.isEmpty || !s.fragmenting then pass offered w s
    else
      let took := match w.answer with
        | .ready n => min n offered.length
        | _ => 0
      -- the delay has passed, and a write that took something sets another one
      {pass offered w s with pendingDelay := 0 < took && cfg.pickDelay w.delayDraw != 0}

inductive Action where
  | read
  | write (w : Write)
  | flush
  | shutdown

def next (cfg : FragmentConfig) (a : Action) (s : State) : State :=
  match a with
  | .read => {s with fragmenting := false}
  | .write w => pollWrite cfg w s
  | .flush => s
  | .shutdown => s

def runOf (cfg : FragmentConfig) (as : List Action) : State := run (next cfg) (new cfg) as

/-! ### Sizes -/

theorem parseU64_lt {s : String} {default : Nat} (h : default < 2 ^ 64) : (parseU64 s).getD default < 2 ^ 64 := by
  cases hread : parseU64 s with
  | none => exact h
  | some v =>
    rw [parseU64, Rust.parseUnsigned] at hread
    have hlt := (Option.filter_eq_some_iff.mp hread).2
    exact of_decide_eq_true hlt

theorem parseRange_lt (spec : String) {default : Nat × Nat} (hlo : default.1 < 2 ^ 64) (hhi : default.2 < 2 ^ 64) :
    (parseRange spec default).1 < 2 ^ 64 ∧ (parseRange spec default).2 < 2 ^ 64 := by
  have hfirst (s : String) := @parseU64_lt s default.1 hlo
  have hsecond (s : String) := @parseU64_lt s default.2 hhi
  rw [parseRange]
  split
  · exact ⟨hlo, hhi⟩
  · split
    · rename_i a b _
      dsimp only
      split
      · dsimp only
        exact ⟨hsecond (Rust.trim b), hfirst (Rust.trim a)⟩
      · dsimp only
        exact ⟨hfirst (Rust.trim a), hsecond (Rust.trim b)⟩
    · dsimp only
      exact ⟨hfirst (Rust.trim spec), hfirst (Rust.trim spec)⟩

/-- The sizes asked for are sizes of the machine. -/
def Fit (t : Target) (env : Env) : Prop := (sizes env).1 < 2 ^ t.usizeBits ∧ (sizes env).2 < 2 ^ t.usizeBits

theorem fit_aarch64 (env : Env) : Fit .aarch64 env :=
  parseRange_lt _ (by decide) (by decide)

/-- The configuration has its bounds in order. -/
structure Ordered (cfg : FragmentConfig) : Prop where
  positive : 1 ≤ cfg.sizeMin
  sizes : cfg.sizeMin ≤ cfg.sizeMax
  delays : cfg.delayMinMs ≤ cfg.delayMaxMs

theorem ordered_fromEnv {t : Target} {env : Env} (h : Fit t env) : Ordered (fromEnv t env) := by
  have hone : 1 < 2 ^ t.usizeBits := by cases t <;> decide
  have hmin : asUsize t (max (sizes env).1 1) = max (sizes env).1 1 := Nat.mod_eq_of_lt (max_lt h.1 hone)
  have hmax : asUsize t (max (sizes env).2 (max (sizes env).1 1)) = max (sizes env).2 (max (sizes env).1 1) :=
    Nat.mod_eq_of_lt (max_lt h.2 (max_lt h.1 hone))
  refine ⟨?_, ?_, ?_⟩
  · show 1 ≤ asUsize t _
    rw [hmin]
    exact le_max_right _ _
  · show asUsize t _ ≤ asUsize t (max _ (asUsize t _))
    rw [hmin, hmax]
    exact le_max_right _ _
  · rw [fromEnv]
    dsimp only
    exact le_max_right _ _

theorem randomRange_bounds {lo hi : Nat} (h : lo ≤ hi) (draw : Nat) :
    lo ≤ randomRange lo hi draw ∧ randomRange lo hi draw ≤ hi := by
  have hlt : draw % (hi - lo + 1) < hi - lo + 1 := Nat.mod_lt _ (Nat.succ_pos _)
  rw [randomRange]
  omega

theorem pickChunkLen_bounds {cfg : FragmentConfig} (h : Ordered cfg) {remaining : Nat} (hpos : 0 < remaining) (draw : Nat) :
    min cfg.sizeMin remaining ≤ cfg.pickChunkLen remaining draw ∧
      cfg.pickChunkLen remaining draw ≤ min cfg.sizeMax remaining ∧ 1 ≤ cfg.pickChunkLen remaining draw := by
  have hone := h.positive
  have hsizes := h.sizes
  rw [FragmentConfig.pickChunkLen, max_eq_left (hone.trans hsizes), max_eq_left hone]
  split
  · omega
  · have hbounds := @randomRange_bounds (min cfg.sizeMin (min cfg.sizeMax remaining)) (min cfg.sizeMax remaining)
      (min_le_right _ _) draw
    omega

/-! ### Offers -/

variable {cfg : FragmentConfig} {w : Write} {s : State}

/-- Bytes from the front of the buffer are offered. -/
theorem offer_front {offered : List UInt8} (h : offer cfg w s = some offered) : offered <+: w.buf := by
  rw [offer] at h
  split at h
  · rw [← Option.some.inj h]
  · split at h
    · cases h
    · rw [← Option.some.inj h]
      exact List.take_prefix _ _

theorem offer_whole {offered : List UInt8} (h : offer cfg w s = some offered) (hs : s.fragmenting = false ∨ w.buf = []) :
    offered = w.buf := by
  rw [offer] at h
  have hguard : (w.buf.isEmpty || !s.fragmenting) = true := by
    obtain hs | hs := hs
    · rw [hs, Bool.not_false, Bool.or_true]
    · rw [hs]
      rfl
  rw [if_pos hguard] at h
  exact (Option.some.inj h).symm

theorem offer_part {offered : List UInt8} (h : offer cfg w s = some offered) (hcfg : Ordered cfg) (hs : s.fragmenting = true)
    (hbuf : w.buf ≠ []) :
    min cfg.sizeMin w.buf.length ≤ offered.length ∧ offered.length ≤ min cfg.sizeMax w.buf.length ∧ 1 ≤ offered.length := by
  have hlength := List.length_pos_iff.mpr hbuf
  have hempty : w.buf.isEmpty = false := by simpa using hbuf
  have hbounds := pickChunkLen_bounds hcfg hlength w.chunkDraw
  rw [offer, hempty, hs, if_neg (by decide)] at h
  split at h
  · cases h
  · rw [← Option.some.inj h, List.length_take]
    omega

/-! ### Runs -/

/-- What is reported has been taken, in order. -/
def Faithful (s : State) : Prop := s.accepted = s.reported

theorem faithful_pass {offered : List UInt8} (hs : Faithful s) (h : offered <+: w.buf) : Faithful (pass offered w s) := by
  rw [pass]
  split
  · exact hs
  · exact hs
  · rename_i n hanswer
    have htake : offered.take (min n offered.length) = w.buf.take (min n offered.length) := by
      obtain ⟨rest, hrest⟩ := h
      rw [← hrest, List.take_append_of_le_length (min_le_right _ _)]
    show s.accepted ++ _ = s.reported ++ _
    rw [htake, hs]

theorem faithful_next (a : Action) (s : State) (hs : Faithful s) : Faithful (next cfg a s) := by
  cases a with
  | read => exact hs
  | write w =>
    show Faithful (pollWrite cfg w s)
    rw [pollWrite]
    cases hoffer : offer cfg w s with
    | none => exact hs
    | some offered =>
      dsimp only
      split
      · exact faithful_pass hs (offer_front hoffer)
      · exact faithful_pass hs (offer_front hoffer)
  | flush => exact hs
  | shutdown => exact hs

/-- The inner stream has taken what was reported, whatever happened. -/
theorem accepted_eq_reported (cfg : FragmentConfig) (as : List Action) :
    (runOf cfg as).accepted = (runOf cfg as).reported := by
  have hstart : Faithful (new cfg) := rfl
  exact run_invariant faithful_next hstart as

def Action.isRead : Action → Bool
  | read => true
  | _ => false

theorem fragmenting_pass (offered : List UInt8) : (pass offered w s).fragmenting = s.fragmenting := by
  rw [pass]
  split <;> rfl

theorem fragmenting_next (a : Action) (s : State) : (next cfg a s).fragmenting = (s.fragmenting && !a.isRead) := by
  cases a with
  | read => exact (Bool.and_false _).symm
  | write w =>
    show (pollWrite cfg w s).fragmenting = (s.fragmenting && true)
    rw [Bool.and_true, pollWrite]
    cases offer cfg w s with
    | none => rfl
    | some offered =>
      dsimp only
      split <;> exact fragmenting_pass offered
  | flush => exact (Bool.and_true _).symm
  | shutdown => exact (Bool.and_true _).symm

/-- The stream goes on fragmenting until the first read. -/
theorem fragmenting_run (s : State) (as : List Action) :
    (run (next cfg) s as).fragmenting = (s.fragmenting && !as.any Action.isRead) := by
  induction as generalizing s with
  | nil => exact (Bool.and_true _).symm
  | cons a rest ih => rw [run, ih, fragmenting_next, List.any_cons, Bool.not_or, Bool.and_assoc]

/-- For a configuration of the environment, the inner stream takes what is reported; and what it is
offered is, before the first read, a part of the buffer of a size between the bounds, and the
buffer itself later, and always when nothing is to be fragmented. On 64 bits every size fits. -/
theorem stream_preserved (t : Target) (env : Env) :
    Fit .aarch64 env ∧ (Fit t env → Ordered (fromEnv t env)) ∧
      ∀ as, (runOf (fromEnv t env) as).accepted = (runOf (fromEnv t env) as).reported ∧
        ∀ w, ∀ offered ∈ offer (fromEnv t env) w (runOf (fromEnv t env) as), offered <+: w.buf ∧
          (Fit t env → (fromEnv t env).enabled = true → as.any Action.isRead = false → w.buf ≠ [] →
            min (fromEnv t env).sizeMin w.buf.length ≤ offered.length ∧
              offered.length ≤ min (fromEnv t env).sizeMax w.buf.length ∧ 1 ≤ offered.length) ∧
          ((fromEnv t env).enabled = false ∨ as.any Action.isRead = true ∨ w.buf = [] → offered = w.buf) := by
  refine ⟨fit_aarch64 env, ordered_fromEnv, fun as => ⟨accepted_eq_reported _ as, fun w offered hoffer =>
    ⟨offer_front hoffer, ?_, ?_⟩⟩⟩
  · intro hsizes henabled hread hbuf
    have hfragmenting : (runOf (fromEnv t env) as).fragmenting = true := by
      rw [runOf, fragmenting_run, new, henabled, hread]
      rfl
    exact offer_part hoffer (ordered_fromEnv hsizes) hfragmenting hbuf
  · intro hwhole
    apply offer_whole hoffer
    rw [runOf, fragmenting_run, new]
    obtain henabled | hread | hbuf := hwhole
    · rw [henabled]
      exact .inl rfl
    · rw [hread, Bool.not_true, Bool.and_false]
      exact .inl rfl
    · exact .inr hbuf

/-- Without the setting nothing is fragmented: a first write of 33 bytes is offered whole, though the
largest size is 32. -/
theorem offered_whole :
    (fromEnv .aarch64 fun _ => none).sizeMax = 32 ∧
      offer (fromEnv .aarch64 fun _ => none) ⟨List.replicate 33 0, true, 0, 0, .pending⟩
        (runOf (fromEnv .aarch64 fun _ => none) []) = some (List.replicate 33 0) := by
  decide +kernel

end Aether.Masque.Fragment
