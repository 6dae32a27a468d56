import Aether.Account.Api
import Aether.Machine.Run

/-! The registries behind the C interface.

A job is started by one call and asked for, cancelled and freed by others, each from any thread.
The calls meet at the counter of the handles, at the locks of the registries and at the state
of a job; between any two of these another thread may go. Whatever the order, a handle means
one thing for good, and who polls a job is told that it runs, then one result again and again,
and after it is freed never more of it (`job_answers`). A turn of a task looks at the flag, then
polls the work, and writes a result under a lock of its own: a job that was cancelled before the
look ends so, and one that is cancelled behind it ends with what was settled (`job_cancelled`). -/
namespace Aether.Ffi
open Account (Json)

abbrev Reply := Except String Json

/-! ### Replies -/

def insertField (key : String) (value : Json) (fields : List (String × Json)) : List (String × Json) :=
  fields.filter (fun field => field.1 != key) ++ [(key, value)]

def okValue : Json → Json
  | .object fields => .object (insertField "ok" (.bool true) fields)
  | other => .object [("ok", .bool true), ("result", other)]

def errorValue (message : String) : Json := .object [("ok", .bool false), ("error", .string message)]

/-- How the work of a job ends. -/
inductive Outcome where
  | returned (reply : Reply)
  | panicked

def Outcome.value : Outcome → Json
  | .returned (.ok value) => okValue value
  | .returned (.error message) => errorValue message
  | .panicked => errorValue "the core panicked"

/-! ### Cancelling -/

/-- `Cancel`: a watched flag, with how often it was sent. -/
structure Watch where
  value : Bool
  version : Nat

def Watch.new : Watch := ⟨false, 0⟩

def Watch.cancel (w : Watch) : Watch := ⟨true, w.version + 1⟩

/-- Where `wait` is: not polled yet, or at `changed` with the version it saw. -/
inductive Wait where
  | fresh
  | changed (seen : Nat)

/-- A poll of `wait`; nothing when it is through. -/
def Wait.poll (w : Watch) : Wait → Option Wait
  | .fresh => if w.value then none else some (.changed w.version)
  | .changed seen =>
    if w.version = seen then some (.changed seen) else if w.value then none else some (.changed w.version)

/-! ### Jobs -/

/-- Where the executor is with a task: before a look at the flag, in the work, or in front of
the lock with what the task came to. -/
inductive Turn where
  | due
  | polling
  | decided (outcome : Outcome)

/-- A job, with all its two owners share. -/
structure Task where
  id : Nat
  cancel : Watch
  /-- What is replied when it is cancelled, from where its work comes to `guard`. -/
  onCancel : Option Reply
  wait : Wait
  /-- What its work came to. -/
  work : Option Outcome
  spawned : Bool
  turn : Turn
  /-- `JobState`: running without a result. -/
  state : Option Json

namespace Task

def new (id : Nat) : Task := ⟨id, .new, none, .fresh, none, false, .due, none⟩

def stop (t : Task) : Task := {t with cancel := t.cancel.cancel}

def spawn (t : Task) : Task := {t with spawned := true}

/-- A turn of the executor begins; `guard`, once the work has come to it, looks at the flag first. -/
def look (t : Task) : Task :=
  match t.turn with
  | .due =>
    if t.spawned && t.state.isNone then
      match t.onCancel with
      | none => {t with turn := .polling}
      | some reply =>
        match t.wait.poll t.cancel with
        | none => {t with turn := .decided (.returned reply)}
        | some wait => {t with wait := wait, turn := .polling}
    else t
  | _ => t

/-- The work comes to `guard`, which looks at the flag next. -/
def guard (reply : Reply) (t : Task) : Task :=
  match t.turn with
  | .polling => if t.onCancel.isNone then {t with onCancel := some reply, turn := .due} else t
  | _ => t

/-- The work is not through. -/
def pend (t : Task) : Task :=
  match t.turn with
  | .polling => {t with turn := .due}
  | _ => t

/-- The work is through. -/
def finish (outcome : Outcome) (t : Task) : Task :=
  match t.turn with
  | .polling => {t with work := some outcome, turn := .decided outcome}
  | _ => t

/-- The result is written, under its lock. -/
def write (t : Task) : Task :=
  match t.turn with
  | .decided outcome => {t with state := some outcome.value, turn := .due}
  | _ => t

end Task

/-! ### Registries -/

/-- What a caller was told, and whom it stopped. -/
inductive Entry where
  | polled (id : Nat) (reply : Reply)
  | stopped (id : Nat)

/-- The counter with the handles drawn from it and not yet used, the jobs, the registries by
handle, and the jobs that were freed and are still to be cancelled. -/
structure Registry (ι ς : Type) where
  next : Nat
  drawn : List Nat
  tasks : List Task
  jobs : Nat → Option Nat
  identities : Nat → Option ι
  sessions : Nat → Option ς
  freed : List Nat
  log : List Entry

/-- One access of a thread to what is shared. -/
inductive Access (ι ς : Type) where
  | draw
  | insertJob (id : Nat)
  | spawn (t : Nat)
  | look (t : Nat)
  | guard (t : Nat) (reply : Reply)
  | pend (t : Nat)
  | finish (t : Nat) (outcome : Outcome)
  | write (t : Nat)
  | poll (id : Nat)
  | cancel (id : Nat)
  | free (id : Nat)
  | cancelFreed (t : Nat)
  | keepIdentity (id : Nat) (identity : ι)
  | freeIdentity (id : Nat)
  | keepSession (id : Nat) (session : ς)
  | freeSession (id : Nat)

namespace Registry
variable {ι ς : Type}

def initial : Registry ι ς := ⟨1, [], [], fun _ => none, fun _ => none, fun _ => none, [], []⟩

def noJob (id : Nat) : Reply := .error s!"there is no job {id}"

def running : Reply := .ok (.object [("state", .string "running")])

def done (result : Json) : Reply := .ok (.object [("state", .string "done"), ("result", result)])

/-- `aether_job_poll`, within the lock. -/
def aetherJobPoll (id : Nat) (r : Registry ι ς) : Reply :=
  match (r.jobs id).bind (fun t => r.tasks[t]?) with
  | none => noJob id
  | some task => task.state.elim running done

/-- The task changes and all else stays. -/
def change (t : Nat) (f : Task → Task) (r : Registry ι ς) : Registry ι ς := {r with tasks := r.tasks.modify t f}

/-- The flag of a job is set. -/
def stop (t : Nat) (r : Registry ι ς) : Registry ι ς :=
  {r.change t Task.stop with log := r.log ++ (r.tasks[t]?).toList.map (fun task => .stopped task.id)}

/-- A drawn handle becomes a job's. -/
def insertJob (id : Nat) (r : Registry ι ς) : Registry ι ς := {r with
  drawn := r.drawn.erase id
  tasks := r.tasks ++ [.new id]
  jobs := Function.update r.jobs id (some r.tasks.length)}

def step : Access ι ς → Registry ι ς → Registry ι ς
  | .draw, r => {r with next := (r.next + 1) % 2 ^ 64, drawn := r.drawn ++ [r.next]}
  | .insertJob id, r => if id ∈ r.drawn then r.insertJob id else r
  | .spawn t, r => r.change t Task.spawn
  | .look t, r => r.change t Task.look
  | .guard t reply, r => r.change t (Task.guard reply)
  | .pend t, r => r.change t Task.pend
  | .finish t outcome, r => r.change t (Task.finish outcome)
  | .write t, r => r.change t Task.write
  | .poll id, r => {r with log := r.log ++ [.polled id (r.aetherJobPoll id)]}
  | .cancel id, r => (r.jobs id).elim r (fun t => r.stop t)
  | .free id, r =>
    (r.jobs id).elim r (fun t => {r with jobs := Function.update r.jobs id none, freed := r.freed ++ [t]})
  | .cancelFreed t, r => if t ∈ r.freed then {r.stop t with freed := r.freed.erase t} else r
  | .keepIdentity id identity, r =>
    if id ∈ r.drawn then {r with
      drawn := r.drawn.erase id
      identities := Function.update r.identities id (some identity)}
    else r
  | .freeIdentity id, r => {r with identities := Function.update r.identities id none}
  | .keepSession id session, r =>
    if id ∈ r.drawn then {r with
      drawn := r.drawn.erase id
      sessions := Function.update r.sessions id (some session)}
    else r
  | .freeSession id, r => {r with sessions := Function.update r.sessions id none}

def reached (accesses : List (Access ι ς)) : Registry ι ς := Machine.run step initial accesses

/-- What those who polled a handle were told, in order. -/
def answers (id : Nat) (log : List Entry) : List Reply :=
  log.filterMap (fun entry =>
    match entry with
    | .polled asked reply => if asked = id then some reply else none
    | .stopped _ => none)

end Registry

/-! ### One task -/

/-- What a task may end with: what its work came to, or the reply for a cancelled one. -/
def Task.EndsWith (t : Task) (outcome : Outcome) : Prop :=
  t.work = some outcome ∨ ∃ reply, t.onCancel = some reply ∧ outcome = .returned reply ∧ t.cancel.value = true

/-- What a task waits for can still come, and what it ended with is its own. -/
structure Task.Sound (t : Task) : Prop where
  waiting : ∀ seen, t.wait = .changed seen →
    seen ≤ t.cancel.version ∧ (t.cancel.value = true → seen < t.cancel.version)
  running : t.turn = .due ∨ t.state = none
  decided : ∀ outcome, t.turn = .decided outcome → t.EndsWith outcome
  ended : ∀ result, t.state = some result → ∃ outcome, t.EndsWith outcome ∧ result = outcome.value

/-- A change that a task takes at any time, and whether it sets the flag. -/
structure Grows (stops : Bool) (f : Task → Task) (t : Task) : Prop where
  id_eq : (f t).id = t.id
  flag : (f t).cancel.value = (t.cancel.value || stops)
  state : ∀ result, t.state = some result → (f t).state = some result
  sound : (f t).Sound

theorem sound_new (id : Nat) : (Task.new id).Sound :=
  ⟨fun _ h => (by cases h), .inl rfl, fun _ h => (by cases h), fun _ h => (by cases h)⟩

section Changes
variable {t : Task}

/-- A change that does nothing to this task. -/
theorem grows_same (h : t.Sound) {f : Task → Task} (heq : f t = t) : Grows false f t :=
  ⟨by rw [heq], by rw [heq, Bool.or_false], by rw [heq]; exact fun _ h => h, heq.symm ▸ h⟩

theorem grows_stop (h : t.Sound) : Grows true Task.stop t := by
  have hends (outcome : Outcome) (houtcome : t.EndsWith outcome) : t.stop.EndsWith outcome := by
    rcases houtcome with hwork | ⟨reply, hreply, heq, -⟩
    · exact .inl hwork
    · exact .inr ⟨reply, hreply, heq, rfl⟩
  refine ⟨rfl, (Bool.or_true _).symm, fun _ h => h, ?_, h.running, ?_, ?_⟩
  · intro seen hseen
    have := (h.waiting seen hseen).1
    exact ⟨Nat.le_succ_of_le this, fun _ => Nat.lt_succ_of_le this⟩
  · exact fun outcome houtcome => hends outcome (h.decided outcome houtcome)
  · intro result hresult
    obtain ⟨outcome, houtcome, heq⟩ := h.ended result hresult
    exact ⟨outcome, hends outcome houtcome, heq⟩

theorem grows_spawn (h : t.Sound) : Grows false Task.spawn t :=
  ⟨rfl, (Bool.or_false _).symm, fun _ h => h, h.waiting, h.running, h.decided, h.ended⟩

/-- Who waits is through if and only if the flag is set. -/
theorem poll_eq_none_iff (h : t.Sound) : t.wait.poll t.cancel = none ↔ t.cancel.value = true := by
  cases hwait : t.wait with
  | fresh => simp [Wait.poll]
  | changed seen =>
    rw [Wait.poll]
    split
    · rename_i hseen
      refine iff_of_false (Option.some_ne_none _) ?_
      intro hstop
      have := (h.waiting seen hwait).2 hstop
      omega
    · simp

/-- Who waits in vain saw the flag as it is. -/
theorem poll_of_waiting (h : t.Sound) {wait : Wait} (hpoll : t.wait.poll t.cancel = some wait) :
    t.cancel.value = false ∧ ∀ seen, wait = .changed seen → seen ≤ t.cancel.version := by
  have hnot : t.cancel.value = false := by
    rw [← Bool.not_eq_true, ← poll_eq_none_iff h, hpoll]
    exact Option.some_ne_none _
  refine ⟨hnot, ?_⟩
  intro seen hseen
  subst hseen
  cases hwait : t.wait with
  | fresh =>
    rw [hwait, Wait.poll, hnot, if_neg Bool.false_ne_true] at hpoll
    cases hpoll
    exact Nat.le_refl _
  | changed before =>
    rw [hwait, Wait.poll, hnot, if_neg Bool.false_ne_true] at hpoll
    split at hpoll
    · cases hpoll
      exact (h.waiting _ hwait).1
    · cases hpoll
      exact Nat.le_refl _

/-- In a turn the task has no result yet. -/
theorem Task.Sound.running_of (h : t.Sound) (hturn : t.turn ≠ .due) : t.state = none := h.running.resolve_left hturn

/-- A look ends the turn for a task whose flag is set, and nothing else. -/
theorem look_cases (h : t.Sound) : t.look = t ∨
    (t.turn = .due ∧ t.state = none ∧ ∃ wait, (wait = t.wait ∨ t.cancel.value = false ∧ ∀ seen, wait = .changed seen →
      seen ≤ t.cancel.version) ∧ t.look = {t with wait := wait, turn := .polling}) ∨
    ∃ reply, t.onCancel = some reply ∧ t.state = none ∧ t.cancel.value = true ∧
      t.look = {t with turn := .decided (.returned reply)} := by
  rw [Task.look]
  cases hturn : t.turn with
  | polling => exact .inl rfl
  | decided outcome => exact .inl rfl
  | due =>
    dsimp only
    split
    swap
    · exact .inl rfl
    rename_i hready
    simp only [Bool.and_eq_true, Option.isNone_iff_eq_none] at hready
    cases hcancel : t.onCancel with
    | none => exact .inr (.inl ⟨rfl, hready.2, t.wait, .inl rfl, rfl⟩)
    | some reply =>
      dsimp only
      cases hpoll : t.wait.poll t.cancel with
      | none => exact .inr (.inr ⟨reply, rfl, hready.2, (poll_eq_none_iff h).mp hpoll, rfl⟩)
      | some wait => exact .inr (.inl ⟨rfl, hready.2, wait, .inr (poll_of_waiting h hpoll), rfl⟩)

theorem grows_look (h : t.Sound) : Grows false Task.look t := by
  rcases look_cases h with heq | ⟨hturn, hnone, wait, hwait, heq⟩ | ⟨reply, hreply, hnone, hstop, heq⟩
  · exact grows_same h heq
  · refine ⟨by rw [heq], by rw [heq, Bool.or_false], by rw [hnone]; exact fun _ h => (by cases h), ?_⟩
    rw [heq]
    refine ⟨?_, .inr hnone, fun _ hdecided => (by cases hdecided), h.ended⟩
    intro seen hseen
    rcases hwait with rfl | ⟨hvalue, hseen'⟩
    · exact h.waiting seen hseen
    · refine ⟨hseen' seen hseen, fun hstop => ?_⟩
      rw [show t.cancel.value = true from hstop] at hvalue
      cases hvalue
  · refine ⟨by rw [heq], by rw [heq, Bool.or_false], by rw [hnone]; exact fun _ h => (by cases h), ?_⟩
    rw [heq]
    refine ⟨h.waiting, .inr hnone, ?_, h.ended⟩
    intro outcome houtcome
    cases houtcome
    exact .inr ⟨reply, hreply, rfl, hstop⟩

theorem grows_guard (h : t.Sound) (reply : Reply) : Grows false (Task.guard reply) t := by
  cases hturn : t.turn with
  | due => exact grows_same h (by rw [Task.guard, hturn])
  | decided outcome => exact grows_same h (by rw [Task.guard, hturn])
  | polling =>
    have hnone := h.running_of (by rw [hturn]; exact Turn.noConfusion)
    by_cases hfirst : t.onCancel.isNone = true
    · have heq : Task.guard reply t = {t with onCancel := some reply, turn := .due} := by
        rw [Task.guard, hturn]
        exact if_pos hfirst
      refine ⟨by rw [heq], by rw [heq, Bool.or_false], by rw [hnone]; exact fun _ h => (by cases h), ?_⟩
      rw [heq]
      refine ⟨h.waiting, .inl rfl, fun _ hdecided => (by cases hdecided), ?_⟩
      intro result hresult
      cases hnone.symm.trans hresult
    · apply grows_same h
      rw [Task.guard, hturn]
      exact if_neg hfirst

theorem grows_pend (h : t.Sound) : Grows false Task.pend t := by
  cases hturn : t.turn with
  | due => exact grows_same h (by rw [Task.pend, hturn])
  | decided outcome => exact grows_same h (by rw [Task.pend, hturn])
  | polling =>
    have heq : t.pend = {t with turn := .due} := by rw [Task.pend, hturn]
    refine ⟨by rw [heq], by rw [heq, Bool.or_false], by rw [heq]; exact fun _ h => h, ?_⟩
    rw [heq]
    exact ⟨h.waiting, .inl rfl, fun _ hdecided => (by cases hdecided), h.ended⟩

theorem grows_finish (h : t.Sound) (outcome : Outcome) : Grows false (Task.finish outcome) t := by
  cases hturn : t.turn with
  | due => exact grows_same h (by rw [Task.finish, hturn])
  | decided outcome => exact grows_same h (by rw [Task.finish, hturn])
  | polling =>
    have hnone := h.running_of (by rw [hturn]; exact Turn.noConfusion)
    have heq : Task.finish outcome t = {t with work := some outcome, turn := .decided outcome} := by
      rw [Task.finish, hturn]
    refine ⟨by rw [heq], by rw [heq, Bool.or_false], by rw [heq]; exact fun _ h => h, ?_⟩
    rw [heq]
    refine ⟨h.waiting, .inr hnone, ?_, ?_⟩
    · intro found hfound
      cases hfound
      exact .inl rfl
    · intro result hresult
      cases hnone.symm.trans hresult

theorem grows_write (h : t.Sound) : Grows false Task.write t := by
  cases hturn : t.turn with
  | due => exact grows_same h (by rw [Task.write, hturn])
  | polling => exact grows_same h (by rw [Task.write, hturn])
  | decided outcome =>
    have hnone := h.running_of (by rw [hturn]; exact Turn.noConfusion)
    have heq : t.write = {t with state := some outcome.value, turn := .due} := by rw [Task.write, hturn]
    refine ⟨by rw [heq], by rw [heq, Bool.or_false], by rw [hnone]; exact fun _ h => (by cases h), ?_⟩
    rw [heq]
    refine ⟨h.waiting, .inl rfl, fun _ hdecided => (by cases hdecided), ?_⟩
    intro result hresult
    cases hresult
    exact ⟨outcome, h.decided outcome hturn, rfl⟩

/-! ### What is settled -/

/-- What a task may go through at an access. -/
inductive Moves : Task → Task → Prop
  | stay (t : Task) : Moves t t
  | stop (t : Task) : Moves t t.stop
  | spawn (t : Task) : Moves t t.spawn
  | look (t : Task) : Moves t t.look
  | guard (reply : Reply) (t : Task) : Moves t (t.guard reply)
  | pend (t : Task) : Moves t t.pend
  | finish (outcome : Outcome) (t : Task) : Moves t (t.finish outcome)
  | write (t : Task) : Moves t t.write

/-- The task has ended with an outcome, or has nothing left to do but to write it. -/
def Settled (outcome : Outcome) (t : Task) : Prop :=
  t.turn = .decided outcome ∨ t.turn = .due ∧ t.state = some outcome.value

/-- What is settled stays so, whatever is done to the task. -/
theorem Settled.moves {outcome : Outcome} (h : Settled outcome t) {t' : Task} (hmove : Moves t t') :
    Settled outcome t' ∧ t'.id = t.id := by
  have hsame : t' = t → Settled outcome t' ∧ t'.id = t.id := by
    rintro rfl
    exact ⟨h, rfl⟩
  cases hmove with
  | stay => exact ⟨h, rfl⟩
  | stop => exact ⟨h, rfl⟩
  | spawn => exact ⟨h, rfl⟩
  | look =>
    apply hsame
    rw [Task.look]
    rcases h with hturn | ⟨hturn, hstate⟩
    · rw [hturn]
    · rw [hturn, hstate, Option.isNone_some, Bool.and_false]
      exact if_neg Bool.false_ne_true
  | guard reply =>
    apply hsame
    rw [Task.guard]
    rcases h with hturn | ⟨hturn, -⟩
    · rw [hturn]
    · rw [hturn]
  | pend =>
    apply hsame
    rw [Task.pend]
    rcases h with hturn | ⟨hturn, -⟩
    · rw [hturn]
    · rw [hturn]
  | finish other =>
    apply hsame
    rw [Task.finish]
    rcases h with hturn | ⟨hturn, -⟩
    · rw [hturn]
    · rw [hturn]
  | write =>
    rw [Task.write]
    rcases h with hturn | ⟨hturn, hstate⟩
    · rw [hturn]
      exact ⟨.inr ⟨rfl, rfl⟩, rfl⟩
    · rw [hturn]
      exact ⟨.inr ⟨hturn, hstate⟩, rfl⟩

/-- The write of what is settled leaves the result. -/
theorem Settled.written {outcome : Outcome} (h : Settled outcome t) : t.write.state = some outcome.value := by
  rw [Task.write]
  rcases h with hturn | ⟨hturn, hstate⟩
  · rw [hturn]
  · rw [hturn]
    exact hstate

end Changes

/-! ### What is told -/

/-- How a handle stands with the jobs. -/
inductive Status where
  | unused
  | running
  | done (result : Json)
  | gone

namespace Status

/-- What a poll is told. -/
def told (id : Nat) : Status → Reply
  | .unused => Registry.noJob id
  | .running => Registry.running
  | .done result => Registry.done result
  | .gone => Registry.noJob id

/-- The ways on. -/
inductive Leads : Status → Status → Prop
  | stay (s : Status) : Leads s s
  | start : Leads .unused .running
  | finish (result : Json) : Leads .running (.done result)
  | drop : Leads .running .gone
  | forget (result : Json) : Leads (.done result) .gone

/-- Answers in their order, as far as a handle has come. -/
def Shape (id : Nat) (l : List Reply) : Status → Prop
  | .unused => ∃ a, l = List.replicate a (Registry.noJob id)
  | .running => ∃ a b, l = List.replicate a (Registry.noJob id) ++ List.replicate b Registry.running
  | .done result => ∃ a b c, l = List.replicate a (Registry.noJob id) ++ List.replicate b Registry.running ++
      List.replicate c (Registry.done result)
  | .gone => ∃ a b c d result, l = List.replicate a (Registry.noJob id) ++ List.replicate b Registry.running ++
      List.replicate c (Registry.done result) ++ List.replicate d (Registry.noJob id)

variable {id : Nat} {l : List Reply} {s s' : Status}

theorem Shape.leads (h : Shape id l s) (hs : Leads s s') : Shape id l s' := by
  cases hs with
  | stay => exact h
  | start =>
    obtain ⟨a, rfl⟩ := h
    exact ⟨a, 0, by simp⟩
  | finish result =>
    obtain ⟨a, b, rfl⟩ := h
    exact ⟨a, b, 0, by simp⟩
  | drop =>
    obtain ⟨a, b, rfl⟩ := h
    exact ⟨a, b, 0, 0, .null, by simp⟩
  | forget result =>
    obtain ⟨a, b, c, rfl⟩ := h
    exact ⟨a, b, c, 0, result, by simp⟩

theorem Shape.told (h : Shape id l s) : Shape id (l ++ [s.told id]) s := by
  cases s with
  | unused =>
    obtain ⟨a, rfl⟩ := h
    exact ⟨a + 1, (List.replicate_succ' ..).symm⟩
  | running =>
    obtain ⟨a, b, rfl⟩ := h
    exact ⟨a, b + 1, by rw [List.append_assoc, List.replicate_succ']; rfl⟩
  | done result =>
    obtain ⟨a, b, c, rfl⟩ := h
    exact ⟨a, b, c + 1, by rw [List.append_assoc, List.replicate_succ']; rfl⟩
  | gone =>
    obtain ⟨a, b, c, d, result, rfl⟩ := h
    exact ⟨a, b, c, d + 1, result, by rw [List.append_assoc, List.replicate_succ']; rfl⟩

end Status

namespace Registry
variable {ι ς : Type} {r : Registry ι ς} {n : Nat}

def status (id : Nat) (r : Registry ι ς) : Status :=
  match (r.jobs id).bind (fun t => r.tasks[t]?) with
  | some task => task.state.elim .running .done
  | none => if id ∈ r.tasks.map Task.id then .gone else .unused

theorem status_of_job {id t : Nat} {task : Task} (hjob : r.jobs id = some t) (htask : r.tasks[t]? = some task) :
    r.status id = task.state.elim .running .done := by
  rw [status, hjob, Option.bind_some, htask]

theorem status_of_none {id : Nat} (hjob : r.jobs id = none) :
    r.status id = if id ∈ r.tasks.map Task.id then .gone else .unused := by
  rw [status, hjob, Option.bind_none]

theorem told_status (id : Nat) (r : Registry ι ς) : r.aetherJobPoll id = (r.status id).told id := by
  rw [aetherJobPoll, status]
  cases (r.jobs id).bind (fun t => r.tasks[t]?) with
  | none =>
    dsimp only
    split
    · rfl
    · rfl
  | some task =>
    dsimp only
    cases task.state with
    | none => rfl
    | some result => rfl

theorem getElem?_change (t j : Nat) (f : Task → Task) :
    (r.change t f).tasks[j]? = r.tasks[j]?.map (fun task => if t = j then f task else task) :=
  List.getElem?_modify f t r.tasks j

theorem mem_change {t : Nat} {f : Task → Task} {task : Task} (h : task ∈ (r.change t f).tasks) :
    ∃ j before, r.tasks[j]? = some before ∧ task = if t = j then f before else before := by
  obtain ⟨j, hj⟩ := List.mem_iff_getElem?.mp h
  rw [getElem?_change] at hj
  obtain ⟨before, hbefore, rfl⟩ := Option.map_eq_some_iff.mp hj
  exact ⟨j, before, hbefore, rfl⟩

/-- What holds after at most `n` accesses. -/
structure Good (n : Nat) (r : Registry ι ς) : Prop where
  next_le : r.next ≤ n + 1
  drawn_lt : ∀ id ∈ r.drawn, id < r.next
  drawn_nodup : r.drawn.Nodup
  job : ∀ id t, r.jobs id = some t → ∃ task, r.tasks[t]? = some task ∧ task.id = id
  used : ∀ id ∈ r.tasks.map Task.id, id < r.next ∧ id ∉ r.drawn ∧ r.identities id = none ∧ r.sessions id = none
  distinct : (r.tasks.map Task.id).Nodup
  identity : ∀ id x, r.identities id = some x → id < r.next ∧ id ∉ r.drawn ∧ r.sessions id = none
  session : ∀ id x, r.sessions id = some x → id < r.next ∧ id ∉ r.drawn
  sound : ∀ task ∈ r.tasks, task.Sound
  stopped : ∀ task ∈ r.tasks, task.cancel.value = true ↔ .stopped task.id ∈ r.log
  logged : ∀ id, .stopped id ∈ r.log → id ∈ r.tasks.map Task.id
  shape : ∀ id, Status.Shape id (answers id r.log) (r.status id)

theorem good_initial : Good 0 (initial : Registry ι ς) := by
  refine ⟨Nat.le_refl _, ?_, List.nodup_nil, ?_, ?_, List.nodup_nil, ?_, ?_, ?_, ?_, ?_, fun _ => ⟨0, rfl⟩⟩
  · exact fun id h => absurd h List.not_mem_nil
  · intro id t h
    cases h
  · exact fun id h => absurd h List.not_mem_nil
  · intro id x h
    cases h
  · intro id x h
    cases h
  · exact fun task h => absurd h List.not_mem_nil
  · exact fun task h => absurd h List.not_mem_nil
  · exact fun id h => absurd h List.not_mem_nil

theorem Good.later (h : Good n r) : Good (n + 1) r :=
  ⟨h.next_le.trans (Nat.le_succ _), h.drawn_lt, h.drawn_nodup, h.job, h.used, h.distinct, h.identity,
    h.session, h.sound,
    h.stopped, h.logged, h.shape⟩

theorem ids_change {t : Nat} {f : Task → Task} (hf : ∀ task, r.tasks[t]? = some task → (f task).id = task.id) :
    (r.change t f).tasks.map Task.id = r.tasks.map Task.id := by
  apply List.ext_getElem?
  intro j
  rw [List.getElem?_map, List.getElem?_map, getElem?_change, Option.map_map]
  cases hj : r.tasks[j]? with
  | none => rfl
  | some task =>
    show some ((if t = j then f task else task).id) = some task.id
    split
    · rename_i heq
      rw [hf task (heq ▸ hj)]
    · rfl

/-- A task that changes takes its handle on, at most. -/
theorem leads_change {stops : Bool} {t : Nat} {f : Task → Task}
    (hf : ∀ task, r.tasks[t]? = some task → Grows stops f task) (id : Nat) :
    Status.Leads (r.status id) ((r.change t f).status id) := by
  have hjobs : (r.change t f).jobs = r.jobs := rfl
  rw [status, status, hjobs, ids_change (fun task htask => (hf task htask).id_eq)]
  cases hj : r.jobs id with
  | none => exact .stay _
  | some j =>
    rw [Option.bind_some, Option.bind_some, getElem?_change]
    cases htask : r.tasks[j]? with
    | none => exact .stay _
    | some task =>
      rw [Option.map_some]
      dsimp only
      split
      swap
      · exact .stay _
      rename_i heq
      have hgrows := hf task (heq ▸ htask)
      cases hstate : task.state with
      | some result =>
        rw [hgrows.state result hstate]
        exact .stay _
      | none =>
        cases (f task).state with
        | none => exact .stay _
        | some result => exact .finish result

theorem answers_append (id : Nat) (log more : List Entry) : answers id (log ++ more)
    = answers id log ++ answers id more :=
  List.filterMap_append ..

theorem answers_stopped (id : Nat) (tasks : List Task) : answers id (tasks.map (fun task => .stopped task.id))
  = [] := by
  induction tasks with
  | nil => rfl
  | cons task tasks ih => exact ih

/-- Two tasks with one handle are one. -/
theorem Good.same (h : Good n r) {i j : Nat} {a b : Task} (ha : r.tasks[i]? = some a) (hb : r.tasks[j]? = some b)
    (heq : a.id = b.id) : i = j := by
  have hlength : i < (r.tasks.map Task.id).length := by
    rw [List.length_map]
    exact (List.getElem?_eq_some_iff.mp ha).1
  apply (List.getElem?_inj hlength h.distinct).mp
  rw [List.getElem?_map, List.getElem?_map, ha, hb, Option.map_some, Option.map_some, heq]

/-- A change of one task, with the word of it if it set the flag. -/
theorem Good.change (h : Good n r) {stops : Bool} (t : Nat) {f : Task → Task}
    (hf : ∀ task, task.Sound → Grows stops f task) :
    Good (n + 1) {r.change t f with log := r.log ++
      if stops then (r.tasks[t]?).toList.map (fun task => .stopped task.id) else []} := by
  have hgrows : ∀ task, r.tasks[t]? = some task → Grows stops f task :=
    fun task htask => hf task (h.sound task (List.mem_of_getElem? htask))
  have hids := ids_change (fun task htask => (hgrows task htask).id_eq)
  refine ⟨h.next_le.trans (Nat.le_succ _), h.drawn_lt, h.drawn_nodup, ?_, ?_, ?_, h.identity, h.session, ?_, ?_, ?_, ?_⟩
  · intro id j hj
    obtain ⟨task, htask, rfl⟩ := h.job id j hj
    refine ⟨if t = j then f task else task, ?_, ?_⟩
    · show (r.change t f).tasks[j]? = _
      rw [getElem?_change, htask]
      rfl
    · split
      · rename_i heq
        exact (hgrows task (heq ▸ htask)).id_eq
      · rfl
  · show ∀ id ∈ (r.change t f).tasks.map Task.id, _
    rw [hids]
    exact h.used
  · show ((r.change t f).tasks.map Task.id).Nodup
    rw [hids]
    exact h.distinct
  · intro task htask
    obtain ⟨j, before, hbefore, rfl⟩ := mem_change htask
    split
    · rename_i heq
      exact (hgrows before (heq ▸ hbefore)).sound
    · exact h.sound before (List.mem_of_getElem? hbefore)
  · intro task htask
    obtain ⟨j, before, hbefore, rfl⟩ := mem_change htask
    have hold := h.stopped before (List.mem_of_getElem? hbefore)
    show _ ↔ _ ∈ r.log ++ _
    rw [List.mem_append]
    split
    · rename_i heq
      subst heq
      have hg := hgrows before hbefore
      rw [hg.flag, hg.id_eq, Bool.or_eq_true, hold, hbefore]
      apply or_congr_right
      cases stops with
      | false => simp
      | true => simp
    · rename_i hne
      rw [hold]
      refine ⟨.inl, ?_⟩
      intro hmem
      rcases hmem with hmem | hmem
      · exact hmem
      · -- Another task's word would be of another handle.
        cases stops with
        | false => cases hmem
        | true =>
          obtain ⟨other, hother, heq⟩ := List.mem_map.mp hmem
          refine absurd (h.same ?_ hbefore (Entry.stopped.inj heq)) hne
          exact Option.mem_toList.mp hother
  · intro id hid
    show id ∈ (r.change t f).tasks.map Task.id
    rw [hids]
    rcases List.mem_append.mp hid with hid | hid
    · exact h.logged id hid
    · cases stops with
      | false => cases hid
      | true =>
        obtain ⟨task, htask, heq⟩ := List.mem_map.mp hid
        cases heq
        exact List.mem_map_of_mem (List.mem_of_getElem? (Option.mem_toList.mp htask))
  · intro id
    have hlog : answers id (r.log ++ if stops then (r.tasks[t]?).toList.map (fun task => .stopped task.id) else []) =
        answers id r.log := by
      rw [answers_append]
      cases stops with
      | false => exact List.append_nil _
      | true => rw [if_pos rfl, answers_stopped, List.append_nil]
    show Status.Shape id (answers id (r.log ++ _)) ((r.change t f).status id)
    rw [hlog]
    exact (h.shape id).leads (leads_change hgrows id)

theorem Good.quiet (h : Good n r) (t : Nat) {f : Task → Task} (hf : ∀ task, task.Sound → Grows false f task) :
    Good (n + 1) (r.change t f) := by
  have := h.change t hf
  rwa [if_neg Bool.false_ne_true, List.append_nil] at this

theorem Good.stop (h : Good n r) (t : Nat) : Good (n + 1) (r.stop t) := h.change t (fun _ h => grows_stop h)

theorem Good.draw (h : Good n r) (hn : n + 2 < 2 ^ 64) : Good (n + 1) (step .draw r) := by
  have hnext : (r.next + 1) % 2 ^ 64 = r.next + 1 := Nat.mod_eq_of_lt (by have := h.next_le; omega)
  have hnew : ∀ id, id < r.next → id ∉ r.drawn → id < r.next + 1 ∧ id ∉ r.drawn ++ [r.next] := by
    intro id hlt hid
    refine ⟨Nat.lt_succ_of_lt hlt, ?_⟩
    rw [List.mem_append, List.mem_singleton]
    intro hc
    rcases hc with hc | hc
    · exact hid hc
    · omega
  rw [step, hnext]
  refine ⟨Nat.succ_le_succ h.next_le, ?_, ?_, h.job, ?_, h.distinct, ?_, ?_, h.sound, h.stopped, h.logged, h.shape⟩
  · intro id hid
    rcases List.mem_append.mp hid with hid | hid
    · exact Nat.lt_succ_of_lt (h.drawn_lt id hid)
    · rw [List.mem_singleton.mp hid]
      exact Nat.lt_succ_self _
  · refine List.nodup_append.mpr ⟨h.drawn_nodup, List.nodup_singleton _, ?_⟩
    intro a ha b hb heq
    rw [List.mem_singleton.mp hb] at heq
    exact Nat.lt_irrefl _ (heq ▸ h.drawn_lt a ha)
  · intro id hid
    obtain ⟨hlt, hdrawn, hrest⟩ := h.used id hid
    exact ⟨(hnew id hlt hdrawn).1, (hnew id hlt hdrawn).2, hrest⟩
  · intro id x hx
    obtain ⟨hlt, hdrawn, hrest⟩ := h.identity id x hx
    exact ⟨(hnew id hlt hdrawn).1, (hnew id hlt hdrawn).2, hrest⟩
  · intro id x hx
    obtain ⟨hlt, hdrawn⟩ := h.session id x hx
    exact hnew id hlt hdrawn

/-- A handle that is drawn means nothing yet. -/
theorem Good.fresh (h : Good n r) {id : Nat} (hid : id ∈ r.drawn) :
    id ∉ r.tasks.map Task.id ∧ r.jobs id = none ∧ r.identities id = none ∧ r.sessions id = none ∧
      id ∉ r.drawn.erase id := by
  have htasks : id ∉ r.tasks.map Task.id := fun hc => (h.used id hc).2.1 hid
  refine ⟨htasks, ?_, ?_, ?_, ?_⟩
  · cases hjob : r.jobs id with
    | none => rfl
    | some t =>
      obtain ⟨task, htask, rfl⟩ := h.job id t hjob
      exact absurd (List.mem_map_of_mem (List.mem_of_getElem? htask)) htasks
  · cases hx : r.identities id with
    | none => rfl
    | some x => exact absurd hid (h.identity id x hx).2.1
  · cases hx : r.sessions id with
    | none => rfl
    | some x => exact absurd hid (h.session id x hx).2
  · intro hc
    exact (List.Nodup.mem_erase_iff h.drawn_nodup).mp hc |>.1 rfl

theorem Good.insertJob (h : Good n r) (id : Nat) : Good (n + 1) (step (.insertJob id) r) := by
  rw [step]
  split
  swap
  · exact h.later
  rename_i hid
  obtain ⟨htasks, hjob, hidentity, hsession, herase⟩ := h.fresh hid
  have htasksNew : (r.insertJob id).tasks = r.tasks ++ [Task.new id] := rfl
  have hids : (r.insertJob id).tasks.map Task.id = r.tasks.map Task.id ++ [id] := by
    rw [htasksNew, List.map_append]
    rfl
  have hold : ∀ (t : Nat) (task : Task), r.tasks[t]? = some task → (r.insertJob id).tasks[t]? = some task := by
    intro t task htask
    rw [htasksNew, List.getElem?_append_left (List.getElem?_eq_some_iff.mp htask).1]
    exact htask
  have hnew : (r.insertJob id).tasks[r.tasks.length]? = some (Task.new id) := List.getElem?_concat_length
  have hself : (r.insertJob id).jobs id = some r.tasks.length := Function.update_self ..
  have hother : ∀ id', id' ≠ id → (r.insertJob id).jobs id' = r.jobs id' := fun _ hne => Function.update_of_ne hne ..
  refine ⟨h.next_le.trans (Nat.le_succ _), ?_, h.drawn_nodup.erase _, ?_, ?_, ?_, ?_, ?_, ?_, ?_, ?_, ?_⟩
  · exact fun x hx => h.drawn_lt x (List.mem_of_mem_erase hx)
  · intro id' t ht
    by_cases heq : id' = id
    · subst heq
      obtain rfl : r.tasks.length = t := Option.some.inj (hself.symm.trans ht)
      exact ⟨_, hnew, rfl⟩
    · obtain ⟨task, htask, htid⟩ := h.job id' t ((hother id' heq).symm.trans ht)
      exact ⟨task, hold t task htask, htid⟩
  · rw [hids]
    intro id' hid'
    rcases List.mem_append.mp hid' with hid' | hid'
    · obtain ⟨hlt, hdrawn, hrest⟩ := h.used id' hid'
      exact ⟨hlt, fun hc => hdrawn (List.mem_of_mem_erase hc), hrest⟩
    · rw [List.mem_singleton.mp hid']
      exact ⟨h.drawn_lt id hid, herase, hidentity, hsession⟩
  · rw [hids]
    refine List.nodup_append.mpr ⟨h.distinct, List.nodup_singleton _, ?_⟩
    intro a ha b hb heq
    rw [List.mem_singleton.mp hb] at heq
    exact htasks (heq ▸ ha)
  · intro id' x hx
    obtain ⟨hlt, hdrawn, hrest⟩ := h.identity id' x hx
    exact ⟨hlt, fun hc => hdrawn (List.mem_of_mem_erase hc), hrest⟩
  · intro id' x hx
    obtain ⟨hlt, hdrawn⟩ := h.session id' x hx
    exact ⟨hlt, fun hc => hdrawn (List.mem_of_mem_erase hc)⟩
  · intro task htask
    rcases List.mem_append.mp htask with htask | htask
    · exact h.sound task htask
    · rw [List.mem_singleton.mp htask]
      exact sound_new id
  · intro task htask
    rcases List.mem_append.mp htask with htask | htask
    · exact h.stopped task htask
    · rw [List.mem_singleton.mp htask]
      exact iff_of_false Bool.false_ne_true (fun hc => htasks (h.logged id hc))
  · rw [hids]
    exact fun id' hid' => List.mem_append_left _ (h.logged id' hid')
  · intro id'
    refine (h.shape id').leads ?_
    by_cases heq : id' = id
    · subst heq
      rw [status_of_none hjob, if_neg htasks, status_of_job hself hnew]
      exact .start
    · cases hj : r.jobs id' with
      | none =>
        have hmem : id' ∈ (r.insertJob id).tasks.map Task.id ↔ id' ∈ r.tasks.map Task.id := by simp [hids, heq]
        rw [status_of_none hj, status_of_none ((hother id' heq).trans hj)]
        simp only [hmem]
        exact .stay _
      | some t =>
        obtain ⟨task, htask, -⟩ := h.job id' t hj
        rw [status_of_job hj htask, status_of_job ((hother id' heq).trans hj) (hold t task htask)]
        exact .stay _

theorem Good.keepIdentity (h : Good n r) (id : Nat) (identity : ι) : Good (n + 1)
    (step (.keepIdentity id identity) r) := by
  rw [step]
  split
  swap
  · exact h.later
  rename_i hid
  obtain ⟨htasks, -, -, hsession, herase⟩ := h.fresh hid
  have hother : ∀ id', id' ≠ id → Function.update r.identities id (some identity) id' = r.identities id' :=
    fun _ hne => Function.update_of_ne hne ..
  have hdropped : ∀ x, x ∉ r.drawn → x ∉ r.drawn.erase id := fun x hx hc => hx (List.mem_of_mem_erase hc)
  refine ⟨h.next_le.trans (Nat.le_succ _), ?_, h.drawn_nodup.erase _, h.job, ?_, h.distinct, ?_, ?_, h.sound, h.stopped,
    h.logged, h.shape⟩
  · exact fun x hx => h.drawn_lt x (List.mem_of_mem_erase hx)
  · intro id' hid'
    obtain ⟨hlt, hdrawn, hidentity, hrest⟩ := h.used id' hid'
    have hne : id' ≠ id := fun heq => htasks (heq ▸ hid')
    exact ⟨hlt, hdropped id' hdrawn, (hother id' hne).trans hidentity, hrest⟩
  · intro id' x hx
    by_cases heq : id' = id
    · subst heq
      exact ⟨h.drawn_lt _ hid, herase, hsession⟩
    · obtain ⟨hlt, hdrawn, hrest⟩ := h.identity id' x ((hother id' heq).symm.trans hx)
      exact ⟨hlt, hdropped id' hdrawn, hrest⟩
  · intro id' x hx
    obtain ⟨hlt, hdrawn⟩ := h.session id' x hx
    exact ⟨hlt, hdropped id' hdrawn⟩

theorem Good.keepSession (h : Good n r) (id : Nat) (session : ς) : Good (n + 1) (step (.keepSession id session) r) := by
  rw [step]
  split
  swap
  · exact h.later
  rename_i hid
  obtain ⟨htasks, -, hidentity, -, herase⟩ := h.fresh hid
  have hother : ∀ id', id' ≠ id → Function.update r.sessions id (some session) id' = r.sessions id' :=
    fun _ hne => Function.update_of_ne hne ..
  have hdropped : ∀ x, x ∉ r.drawn → x ∉ r.drawn.erase id := fun x hx hc => hx (List.mem_of_mem_erase hc)
  refine ⟨h.next_le.trans (Nat.le_succ _), ?_, h.drawn_nodup.erase _, h.job, ?_, h.distinct, ?_, ?_, h.sound, h.stopped,
    h.logged, h.shape⟩
  · exact fun x hx => h.drawn_lt x (List.mem_of_mem_erase hx)
  · intro id' hid'
    obtain ⟨hlt, hdrawn, hrest, hsession⟩ := h.used id' hid'
    have hne : id' ≠ id := fun heq => htasks (heq ▸ hid')
    exact ⟨hlt, hdropped id' hdrawn, hrest, (hother id' hne).trans hsession⟩
  · intro id' x hx
    obtain ⟨hlt, hdrawn, hsession⟩ := h.identity id' x hx
    have hne : id' ≠ id := fun heq => hdrawn (heq ▸ hid)
    exact ⟨hlt, hdropped id' hdrawn, (hother id' hne).trans hsession⟩
  · intro id' x hx
    by_cases heq : id' = id
    · subst heq
      exact ⟨h.drawn_lt _ hid, herase⟩
    · obtain ⟨hlt, hdrawn⟩ := h.session id' x ((hother id' heq).symm.trans hx)
      exact ⟨hlt, hdropped id' hdrawn⟩

section Forgetting
variable {α : Type} {f : Nat → Option α} {a b : Nat} {x : α}

theorem update_none (h : f a = none) : Function.update f b none a = none := by
  by_cases heq : a = b
  · subst heq
    exact Function.update_self ..
  · rw [Function.update_of_ne heq]
    exact h

theorem of_update_none (h : Function.update f b none a = some x) : f a = some x := by
  by_cases heq : a = b
  · subst heq
    rw [Function.update_self] at h
    cases h
  · rw [Function.update_of_ne heq] at h
    exact h

end Forgetting

theorem Good.freeIdentity (h : Good n r) (id : Nat) : Good (n + 1) (step (.freeIdentity id) r) := by
  refine ⟨h.next_le.trans (Nat.le_succ _), h.drawn_lt, h.drawn_nodup, h.job, ?_, h.distinct,
    fun id' x hx => h.identity id' x (of_update_none hx), h.session, h.sound, h.stopped, h.logged, h.shape⟩
  intro id' hid'
  obtain ⟨hlt, hdrawn, hidentity, hrest⟩ := h.used id' hid'
  exact ⟨hlt, hdrawn, update_none hidentity, hrest⟩

theorem Good.freeSession (h : Good n r) (id : Nat) : Good (n + 1) (step (.freeSession id) r) := by
  refine ⟨h.next_le.trans (Nat.le_succ _), h.drawn_lt, h.drawn_nodup, h.job, ?_, h.distinct, ?_,
    fun id' x hx => h.session id' x (of_update_none hx), h.sound, h.stopped, h.logged, h.shape⟩
  · intro id' hid'
    obtain ⟨hlt, hdrawn, hrest, hsession⟩ := h.used id' hid'
    exact ⟨hlt, hdrawn, hrest, update_none hsession⟩
  · intro id' x hx
    obtain ⟨hlt, hdrawn, hsession⟩ := h.identity id' x hx
    exact ⟨hlt, hdrawn, update_none hsession⟩

theorem Good.poll (h : Good n r) (id : Nat) : Good (n + 1) (step (.poll id) r) := by
  have hmem : ∀ x, Entry.stopped x ∈ r.log ++ [.polled id (r.aetherJobPoll id)] ↔ .stopped x ∈ r.log := by simp
  refine ⟨h.next_le.trans (Nat.le_succ _), h.drawn_lt, h.drawn_nodup, h.job, h.used, h.distinct, h.identity, h.session,
    h.sound, ?_, fun x hx => h.logged x ((hmem x).mp hx), ?_⟩
  · intro task htask
    exact (h.stopped task htask).trans (hmem _).symm
  · intro id'
    show Status.Shape id' (answers id' (r.log ++ [.polled id (r.aetherJobPoll id)])) (r.status id')
    rw [answers_append]
    by_cases heq : id = id'
    · subst heq
      rw [told_status, show answers id [.polled id ((r.status id).told id)] = [(r.status id).told id] by simp [answers]]
      exact (h.shape id).told
    · rw [show answers id' [.polled id (r.aetherJobPoll id)] = [] by simp [answers, heq], List.append_nil]
      exact h.shape id'

theorem Good.free (h : Good n r) (id : Nat) : Good (n + 1) (step (.free id) r) := by
  rw [step]
  cases hjob : r.jobs id with
  | none => exact h.later
  | some t =>
    refine ⟨h.next_le.trans (Nat.le_succ _), h.drawn_lt, h.drawn_nodup, ?_, h.used, h.distinct, h.identity, h.session,
      h.sound, h.stopped, h.logged, ?_⟩
    · intro id' j hj
      by_cases heq : id' = id
      · subst heq
        replace hj : Function.update r.jobs id' none id' = some j := hj
        rw [Function.update_self] at hj
        cases hj
      · replace hj : Function.update r.jobs id none id' = some j := hj
        rw [Function.update_of_ne heq] at hj
        exact h.job id' j hj
    · intro id'
      refine (h.shape id').leads ?_
      obtain ⟨after, hafter⟩ : ∃ after : Registry ι ς, after = {r with
          jobs := Function.update r.jobs id none
          freed := r.freed ++ [t]} := ⟨_, rfl⟩
      show Status.Leads (r.status id') (status id' {r with
        jobs := Function.update r.jobs id none
        freed := r.freed ++ [t]})
      rw [← hafter]
      have htasks : after.tasks = r.tasks := by rw [hafter]
      by_cases heq : id' = id
      · subst heq
        obtain ⟨task, htask, hid⟩ := h.job id' t hjob
        have hmem : id' ∈ r.tasks.map Task.id := hid ▸ List.mem_map_of_mem (List.mem_of_getElem? htask)
        have hnone : after.jobs id' = none := by
          rw [hafter]
          exact Function.update_self ..
        rw [status_of_job hjob htask, status_of_none hnone, htasks, if_pos hmem]
        cases task.state with
        | none => exact .drop
        | some result => exact .forget result
      · have hsame : after.jobs id' = r.jobs id' := by
          rw [hafter]
          exact Function.update_of_ne heq ..
        rw [status, status, hsame, htasks]
        exact .stay _

/-- One access keeps it. -/
theorem Good.step (h : Good n r) (hn : n + 2 < 2 ^ 64) (access : Access ι ς) : Good (n + 1) (step access r) := by
  cases access with
  | draw => exact h.draw hn
  | insertJob id => exact h.insertJob id
  | spawn t => exact h.quiet t (fun _ h => grows_spawn h)
  | look t => exact h.quiet t (fun _ h => grows_look h)
  | guard t reply => exact h.quiet t (fun _ h => grows_guard h reply)
  | pend t => exact h.quiet t (fun _ h => grows_pend h)
  | finish t outcome => exact h.quiet t (fun _ h => grows_finish h outcome)
  | write t => exact h.quiet t (fun _ h => grows_write h)
  | poll id => exact h.poll id
  | cancel id =>
    rw [Registry.step]
    cases r.jobs id with
    | none => exact h.later
    | some t => exact h.stop t
  | free id => exact h.free id
  | cancelFreed t =>
    rw [Registry.step]
    split
    · have := h.stop t
      exact ⟨this.next_le, this.drawn_lt, this.drawn_nodup, this.job, this.used, this.distinct, this.identity,
        this.session, this.sound, this.stopped, this.logged, this.shape⟩
    · exact h.later
  | keepIdentity id identity => exact h.keepIdentity id identity
  | freeIdentity id => exact h.freeIdentity id
  | keepSession id session => exact h.keepSession id session
  | freeSession id => exact h.freeSession id

theorem Good.run (h : Good n r) (accesses : List (Access ι ς)) (hfew : n + accesses.length + 2 < 2 ^ 64) :
    Good (n + accesses.length) (Machine.run Registry.step r accesses) := by
  induction accesses generalizing n r with
  | nil => exact h
  | cons access accesses ih =>
    rw [List.length_cons] at hfew ⊢
    have := ih (h.step (by omega) access) (by omega)
    rwa [Nat.add_assoc, Nat.add_comm 1] at this

theorem good_reached {accesses : List (Access ι ς)} (hfew : accesses.length + 2 < 2 ^ 64) :
    Good accesses.length (reached accesses) := by
  have := (@good_initial ι ς).run accesses (by omega)
  rwa [Nat.zero_add] at this

/-- The job is cancelled between two turns, and freed by another thread while a third still asks. -/
def raced : List (Access Unit Unit) :=
  [.draw, .poll 1, .insertJob 1, .poll 1, .spawn 0, .look 0, .guard 0 (.error "cancelled"), .look 0, .pend 0, .cancel 1,
    .poll 1, .look 0, .write 0, .poll 1, .free 1, .cancelFreed 0, .poll 1]

theorem moves_change {t j : Nat} {f : Task → Task} (hf : ∀ task, Moves task (f task)) {task : Task}
    (htask : r.tasks[j]? = some task) : ∃ task', (r.change t f).tasks[j]? = some task' ∧ Moves task task' := by
  refine ⟨if t = j then f task else task, ?_, ?_⟩
  · rw [getElem?_change, htask]
    rfl
  · split
    · exact hf task
    · exact .stay task

/-- An access leaves every task where it is, and moves it on at most. -/
theorem step_moves (access : Access ι ς) {j : Nat} {task : Task} (htask : r.tasks[j]? = some task) :
    ∃ task', (step access r).tasks[j]? = some task' ∧ Moves task task' := by
  have hstay : ∃ task', r.tasks[j]? = some task' ∧ Moves task task' := ⟨task, htask, .stay task⟩
  cases access with
  | draw => exact hstay
  | insertJob id =>
    rw [step]
    split
    · refine ⟨task, ?_, .stay task⟩
      show (r.tasks ++ [_])[j]? = _
      rw [List.getElem?_append_left (List.getElem?_eq_some_iff.mp htask).1]
      exact htask
    · exact hstay
  | spawn t => exact moves_change Moves.spawn htask
  | look t => exact moves_change Moves.look htask
  | guard t reply => exact moves_change (Moves.guard reply) htask
  | pend t => exact moves_change Moves.pend htask
  | finish t outcome => exact moves_change (Moves.finish outcome) htask
  | write t => exact moves_change Moves.write htask
  | poll id => exact hstay
  | cancel id =>
    rw [step]
    cases r.jobs id with
    | none => exact hstay
    | some t => exact moves_change Moves.stop htask
  | free id =>
    rw [step]
    cases r.jobs id with
    | none => exact hstay
    | some t => exact hstay
  | cancelFreed t =>
    rw [step]
    split
    · exact moves_change Moves.stop htask
    · exact hstay
  | keepIdentity id identity =>
    rw [step]
    split
    · exact hstay
    · exact hstay
  | freeIdentity id => exact hstay
  | keepSession id session =>
    rw [step]
    split
    · exact hstay
    · exact hstay
  | freeSession id => exact hstay

/-- What is settled for a task is what it ends with once the result is written. -/
theorem ends_of_settled (accesses : List (Access ι ς)) {t : Nat} {task : Task} (htask : r.tasks[t]? = some task)
    {outcome : Outcome} (hsettled : Settled outcome task) :
    ∃ ended, (Machine.run step r (accesses ++ [.write t])).tasks[t]? = some ended ∧ ended.id = task.id ∧
      ended.state = some outcome.value := by
  induction accesses generalizing r task with
  | nil =>
    refine ⟨task.write, ?_, (hsettled.moves (.write task)).2, hsettled.written⟩
    show (r.change t Task.write).tasks[t]? = _
    rw [getElem?_change, htask, Option.map_some, if_pos rfl]
  | cons access accesses ih =>
    obtain ⟨task', htask', hmove⟩ := step_moves access htask
    obtain ⟨hsettled', hid⟩ := hsettled.moves hmove
    obtain ⟨ended, hended, heq, hstate⟩ := ih htask' hsettled'
    exact ⟨ended, hended, heq.trans hid, hstate⟩

/-- A job that was cancelled or freed, with its work under `guard` and no turn under way, ends with the reply for that
at its next turn, whatever comes between the look at the flag and the write; and a job whose turn is settled ends with
that, though it be cancelled in between. -/
theorem job_cancelled (accesses more : List (Access ι ς)) (hfew : accesses.length + 2 < 2 ^ 64) (t : Nat) (task : Task)
    (htask : (reached accesses).tasks[t]? = some task) :
    (∀ reply, task.spawned = true → task.state = none → task.turn = .due → task.onCancel = some reply →
      .stopped task.id ∈ (reached accesses).log →
      ∃ ended, (reached (accesses ++ .look t :: (more ++ [.write t]))).tasks[t]? = some ended ∧ ended.id = task.id ∧
        ended.state = some (Outcome.returned reply).value) ∧
    ∀ outcome, task.turn = .decided outcome →
      ∃ ended, (reached (accesses ++ (more ++ [.write t]))).tasks[t]? = some ended ∧ ended.id = task.id ∧
        ended.state = some outcome.value := by
  have h := good_reached hfew
  have hmem := List.mem_of_getElem? htask
  refine ⟨?_, ?_⟩
  · intro reply hspawned hrunning hturn hguard hstopped
    have hstop := (h.stopped task hmem).mpr hstopped
    have hpoll := (poll_eq_none_iff (h.sound task hmem)).mpr hstop
    have hlook : task.look = {task with turn := .decided (.returned reply)} := by
      rw [Task.look, hturn, hspawned, hrunning, hguard, hpoll]
      rfl
    have hnext : ((reached accesses).change t Task.look).tasks[t]? = some task.look := by
      rw [getElem?_change, htask, Option.map_some, if_pos rfl]
    have hsettled : Settled (.returned reply) task.look := .inl (by rw [hlook])
    obtain ⟨ended, hended, hid, hstate⟩ := ends_of_settled more hnext hsettled
    refine ⟨ended, ?_, hid.trans (by rw [hlook]), hstate⟩
    rw [reached, Machine.run_append]
    exact hended
  · intro outcome hdecided
    rw [reached, Machine.run_append]
    exact ends_of_settled more htask (.inl hdecided)

theorem job_cancelled_raced :
    ∃ ended, (reached (raced.take 10 ++ .look 0 :: ([.poll 1] ++ [.write 0]))).tasks[0]? = some ended ∧ ended.id = 1 ∧
      ended.state = some (errorValue "cancelled") :=
  (job_cancelled (raced.take 10) [.poll 1] (by decide) 0
    ⟨1, ⟨true, 1⟩, some (.error "cancelled"), .changed 0, none, true, .due, none⟩ rfl).1 _ rfl rfl rfl rfl
    (show Entry.stopped 1 ∈ [Entry.polled 1 (noJob 1), .polled 1 running, .stopped 1] by simp)

end Registry
end Aether.Ffi
