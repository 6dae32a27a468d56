import Aether.Machine.Run

/-! Dialogues: two parties that write to each other and read what they got.

A party is a script: it writes, reads exactly so many elements, and ends. What it does is a
function of what it is sent, whatever pieces that comes in (`meet`, `meet_append`). Two parties
take their steps in any order, and what one wrote arrives at the other in any pieces; yet all
that they do until neither can go on is the same in every order, and can be computed in rounds (`settled_rounds`). -/
namespace Aether.Machine

inductive Script (ε β α : Type) where
  | pure (a : α)
  | fail (e : ε)
  | write (xs : List β) (next : Script ε β α)
  | read (n : Nat) (next : List β → Script ε β α)

variable {ε β α γ : Type}

namespace Script

def bind : Script ε β γ → (γ → Script ε β α) → Script ε β α
  | .pure a, f => f a
  | .fail e, _ => .fail e
  | .write xs next, f => .write xs (next.bind f)
  | .read n next, f => .read n (fun xs => (next xs).bind f)

/-- How far a party came: what it still does, what it wrote, what it did not read. -/
structure Met (ε β α : Type) where
  now : Script ε β α
  written : List β
  left : List β

/-- What it wrote before is in front. -/
def Met.after (written : List β) (m : Met ε β α) : Met ε β α := {m with written := written ++ m.written}

def meet : Script ε β α → List β → Met ε β α
  | .pure a, input => ⟨.pure a, [], input⟩
  | .fail e, input => ⟨.fail e, [], input⟩
  | .write xs next, input => (next.meet input).after xs
  | .read n next, input => if n ≤ input.length then (next (input.take n)).meet (input.drop n)
    else ⟨.read n next, [], input⟩

theorem after_after (xs ys : List β) (m : Met ε β α) : (m.after ys).after xs = m.after (xs ++ ys) := by
  rw [Met.after, Met.after, Met.after, List.append_assoc]

@[simp] theorem after_nil (m : Met ε β α) : m.after [] = m := rfl

@[simp] theorem meet_pure (a : α) (input : List β) : (.pure a : Script ε β α).meet input = ⟨.pure a, [], input⟩ := rfl

@[simp] theorem meet_write (xs : List β) (next : Script ε β α) (input : List β) :
    (Script.write xs next).meet input = (next.meet input).after xs := rfl

/-- What is to be read is there. -/
theorem meet_read_append {n : Nat} {xs : List β} (h : xs.length = n) (next : List β → Script ε β α) (input : List β) :
    (Script.read n next).meet (xs ++ input) = (next xs).meet input := by
  subst h
  rw [meet, if_pos (by simp), List.take_left, List.drop_left]

theorem meet_read_short {n : Nat} {input : List β} (h : input.length < n) (next : List β → Script ε β α) :
    (Script.read n next).meet input = ⟨.read n next, [], input⟩ := by
  rw [meet, if_neg (by omega)]

/-- In pieces or as a whole, it is the same. -/
theorem meet_append (s : Script ε β α) (input more : List β) :
    s.meet (input ++ more) = ((s.meet input).now.meet ((s.meet input).left ++ more)).after (s.meet input).written := by
  induction s generalizing input with
  | pure a => rfl
  | fail e => rfl
  | write xs next ih =>
    rw [meet_write, ih, meet_write, after_after]
    rfl
  | read n next ih =>
    by_cases h : n ≤ input.length
    · have hsplit : input = input.take n ++ input.drop n := (List.take_append_drop n input).symm
      have hlength : (input.take n).length = n := List.length_take_of_le h
      rw [hsplit, List.append_assoc, meet_read_append hlength, meet_read_append hlength, ih]
    · rw [@meet_read_short _ _ _ n input (by omega) next, after_nil]

/-- A script that went as far as it could gets more to read. -/
def Met.more (m : Met ε β α) (input : List β) : Met ε β α := (m.now.meet (m.left ++ input)).after m.written

/-- In however many pieces the input comes. -/
theorem foldl_more (s : Script ε β α) (pieces : List (List β)) :
    pieces.foldl Met.more (s.meet []) = s.meet pieces.flatten := by
  have hall : ∀ input, pieces.foldl Met.more (s.meet input) = s.meet (input ++ pieces.flatten) := by
    induction pieces with
    | nil =>
      intro input
      rw [List.flatten_nil, List.append_nil]
      rfl
    | cons piece pieces ih =>
      intro input
      have hmore : (s.meet input).more piece = s.meet (input ++ piece) := (meet_append s input piece).symm
      rw [List.foldl_cons, hmore, ih, List.flatten_cons, List.append_assoc]
  exact hall []

/-- What follows begins where the first part ends, and waits as long as it waits. -/
theorem meet_bind (s : Script ε β γ) (f : γ → Script ε β α) (input : List β) :
    (s.bind f).meet input = (((s.meet input).now.bind f).meet (s.meet input).left).after (s.meet input).written := by
  induction s generalizing input with
  | pure a => rfl
  | fail e => rfl
  | write xs next ih =>
    rw [bind, meet_write, ih, meet_write, after_after]
    rfl
  | read n next ih =>
    by_cases h : n ≤ input.length
    · have hsplit : input = input.take n ++ input.drop n := (List.take_append_drop n input).symm
      have hlength : (input.take n).length = n := List.length_take_of_le h
      rw [bind, hsplit, meet_read_append hlength, meet_read_append hlength, ih]
    · rw [meet_read_short (by omega) next, bind, after_nil]

/-- A script ends well: on this input it writes that, comes to `a` and leaves the rest unread. -/
def Succeeds (s : Script ε β α) (input written : List β) (a : α) (rest : List β) : Prop :=
  s.meet input = ⟨.pure a, written, rest⟩

theorem Succeeds.append {s : Script ε β α} {input written rest : List β} {a : α} (h : s.Succeeds input written a rest)
    (more : List β) : s.Succeeds (input ++ more) written a (rest ++ more) := by
  rw [Succeeds, meet_append, h, meet_pure, Met.after, List.append_nil]

@[simp] theorem succeeds_pure {a b : α} {input written rest : List β} :
    (.pure a : Script ε β α).Succeeds input written b rest ↔ a = b ∧ written = [] ∧ rest = input := by
  rw [Succeeds, meet_pure]
  refine ⟨fun h => ?_, fun h => ?_⟩
  · injection h with hnow hwritten hleft
    injection hnow with ha
    exact ⟨ha, hwritten.symm, hleft.symm⟩
  · rw [h.1, h.2.1, h.2.2]

@[simp] theorem not_succeeds_fail {e : ε} {b : α} {input written rest : List β} :
    ¬ (.fail e : Script ε β α).Succeeds input written b rest := by
  intro h
  injection h with hnow
  cases hnow

@[simp] theorem succeeds_write {xs : List β} {next : Script ε β α} {b : α} {input written rest : List β} :
    (Script.write xs next).Succeeds input written b rest ↔ ∃ w, written = xs ++ w ∧ next.Succeeds input w b rest := by
  rw [Succeeds, meet_write, Met.after]
  refine ⟨fun h => ?_, fun h => ?_⟩
  · injection h with hnow hwritten hleft
    refine ⟨_, hwritten.symm, ?_⟩
    rw [Succeeds, ← hnow, ← hleft]
  · obtain ⟨w, rfl, hw⟩ := h
    rw [hw]

@[simp] theorem succeeds_read {n : Nat} {next : List β → Script ε β α} {b : α} {input written rest : List β} :
    (Script.read n next).Succeeds input written b rest ↔
      ∃ xs more, xs.length = n ∧ input = xs ++ more ∧ (next xs).Succeeds more written b rest := by
  refine ⟨fun h => ?_, fun h => ?_⟩
  · by_cases hle : n ≤ input.length
    · refine ⟨input.take n, input.drop n, List.length_take_of_le hle, (List.take_append_drop n input).symm, ?_⟩
      rw [Succeeds, meet, if_pos hle] at h
      exact h
    · rw [Succeeds, meet_read_short (by omega) next] at h
      injection h with hnow
      cases hnow
  · obtain ⟨xs, more, hlength, rfl, hnext⟩ := h
    rw [Succeeds, meet_read_append hlength]
    exact hnext

theorem succeeds_bind {s : Script ε β γ} {f : γ → Script ε β α} {b : α} {input written rest : List β} :
    (s.bind f).Succeeds input written b rest ↔
      ∃ c w more w', s.Succeeds input w c more ∧ (f c).Succeeds more w' b rest ∧ written = w ++ w' := by
  induction s generalizing input written with
  | pure c => simp [bind]
  | fail e => simp [bind]
  | write xs next ih =>
    rw [bind, succeeds_write]
    refine ⟨fun h => ?_, fun h => ?_⟩
    · obtain ⟨w, rfl, hw⟩ := h
      obtain ⟨c, w, more, w', hs, hf, rfl⟩ := ih.mp hw
      exact ⟨c, xs ++ w, more, w', succeeds_write.mpr ⟨w, rfl, hs⟩, hf, by rw [List.append_assoc]⟩
    · obtain ⟨c, w, more, w', hs, hf, rfl⟩ := h
      obtain ⟨w, rfl, hnext⟩ := succeeds_write.mp hs
      exact ⟨w ++ w', by rw [List.append_assoc], ih.mpr ⟨c, w, more, w', hnext, hf, rfl⟩⟩
  | read n next ih =>
    rw [bind, succeeds_read]
    refine ⟨fun h => ?_, fun h => ?_⟩
    · obtain ⟨xs, input', hlength, rfl, hnext⟩ := h
      obtain ⟨c, w, more, w', hs, hf, rfl⟩ := (ih xs).mp hnext
      exact ⟨c, w, more, w', succeeds_read.mpr ⟨xs, input', hlength, rfl, hs⟩, hf, rfl⟩
    · obtain ⟨c, w, more, w', hs, hf, rfl⟩ := h
      obtain ⟨xs, input', hlength, rfl, hnext⟩ := succeeds_read.mp hs
      exact ⟨xs, input', hlength, rfl, (ih xs).mpr ⟨c, w, more, w', hnext, hf, rfl⟩⟩

/-- What follows does not begin before the first part ends. -/
theorem written_bind {s : Script ε β γ} {input : List β} (h : ∀ c, (s.meet input).now ≠ .pure c)
    (f : γ → Script ε β α) : ((s.bind f).meet input).written = (s.meet input).written := by
  induction s generalizing input with
  | pure c => exact absurd rfl (h c)
  | fail e => rfl
  | write xs next ih =>
    rw [bind, meet_write, meet_write, Met.after, Met.after, ih h]
  | read n next ih =>
    rw [bind]
    by_cases hle : n ≤ input.length
    · rw [meet, if_pos hle] at h
      rw [meet, meet, if_pos hle, if_pos hle]
      exact ih _ h
    · rw [meet_read_short (by omega), meet_read_short (by omega)]

/-- A script that writes nothing. -/
def Silent : Script ε β α → Prop
  | .pure _ => True
  | .fail _ => True
  | .write _ _ => False
  | .read _ next => ∀ xs, (next xs).Silent

theorem Silent.written {s : Script ε β α} (h : s.Silent) (input : List β) : (s.meet input).written = [] := by
  induction s generalizing input with
  | pure a => rfl
  | fail e => rfl
  | write xs next ih => exact h.elim
  | read n next ih =>
    rw [meet]
    split
    · exact ih _ (h _) _
    · rfl

theorem Silent.bind {s : Script ε β γ} (h : s.Silent) {f : γ → Script ε β α} (hf : ∀ c, (f c).Silent) :
    (s.bind f).Silent := by
  induction s with
  | pure a => exact hf a
  | fail e => exact trivial
  | write xs next ih => exact h.elim
  | read n next ih => exact fun xs => ih xs (h xs)

/-- A script after it read and wrote so much. -/
inductive Along (s : Script ε β α) : List β → List β → Script ε β α → Prop
  | start : Along s [] [] s
  | write {input written xs : List β} {next : Script ε β α} : Along s input written (.write xs next) →
      Along s input (written ++ xs) next
  | read {input written xs : List β} {next : List β → Script ε β α} : Along s input written (.read xs.length next) →
      Along s (input ++ xs) written (next xs)

theorem Along.meet {s t : Script ε β α} {input written : List β} (h : Along s input written t) (more : List β) :
    s.meet (input ++ more) = (t.meet more).after written := by
  induction h generalizing more with
  | start => rfl
  | write _ ih => rw [ih, meet_write, after_after]
  | read _ ih => rw [List.append_assoc, ih, meet_read_append rfl]

end Script

namespace Script

end Script

/-! ### Two parties -/

/-- What each of two parties still does, what arrived at it unread, and what is under way to it. -/
structure Talk (ε β α : Type) where
  now : Bool → Script ε β α
  inbox : Bool → List β
  flight : Bool → List β

inductive Move where
  | act (who : Bool)
  | arrive (who : Bool) (n : Nat)

namespace Talk
open Function (update)

def start (scripts : Bool → Script ε β α) : Talk ε β α := ⟨scripts, fun _ => [], fun _ => []⟩

def act (who : Bool) (t : Talk ε β α) : Talk ε β α :=
  match t.now who with
  | .write xs next => {t with
      now := update t.now who next
      flight := update t.flight (!who) (t.flight (!who) ++ xs)}
  | .read n next =>
    if n ≤ (t.inbox who).length then {t with
      now := update t.now who (next ((t.inbox who).take n))
      inbox := update t.inbox who ((t.inbox who).drop n)}
    else t
  | _ => t

def next : Move → Talk ε β α → Talk ε β α
  | .act who, t => t.act who
  | .arrive who n, t => {t with
      inbox := update t.inbox who (t.inbox who ++ (t.flight who).take n)
      flight := update t.flight who ((t.flight who).drop n)}

/-- Nothing is under way and neither can go on. -/
def Settled (t : Talk ε β α) : Prop := ∀ who, t.flight who = [] ∧ (∀ xs next, t.now who ≠ .write xs next) ∧
  ∀ n next, t.now who = .read n next → (t.inbox who).length < n

/-- What each read and wrote until now accounts for all there is. -/
def Accounts (scripts : Bool → Script ε β α) (read written : Bool → List β) (t : Talk ε β α) : Prop :=
  ∀ who, Script.Along (scripts who) (read who) (written who) (t.now who) ∧
    written (!who) = read who ++ (t.inbox who ++ t.flight who)

section Runs
variable {scripts : Bool → Script ε β α} {t : Talk ε β α} {read written : Bool → List β}

theorem both (who : Bool) {q : Bool → Prop} (h : q who) (h' : q (!who)) (b : Bool) : q b := by
  rcases Bool.eq_or_eq_not b who with rfl | rfl
  · exact h
  · exact h'

/-- Each move is accounted for; what is written grows by what the party was to write. -/
theorem Accounts.next (h : Accounts scripts read written t) (move : Move) :
    ∃ read' written', Accounts scripts read' written' (t.next move) ∧
      ∀ who, written' who = written who ∨ ∃ xs k, t.now who = .write xs k ∧ written' who = written who ++ xs := by
  cases move with
  | arrive who n =>
    refine ⟨read, written, both who ?_ ?_, fun _ => .inl rfl⟩
    · refine ⟨(h who).1, ?_⟩
      show written (!who) = read who ++ (update t.inbox who _ who ++ update t.flight who _ who)
      rw [Function.update_self, Function.update_self, List.append_assoc, List.take_append_drop]
      exact (h who).2
    · refine ⟨(h !who).1, ?_⟩
      show written (!!who) = read (!who) ++ (update t.inbox who _ (!who) ++ update t.flight who _ (!who))
      rw [Function.update_of_ne (Bool.not_ne_self who), Function.update_of_ne (Bool.not_ne_self who)]
      exact (h !who).2
  | act who =>
    show ∃ read' written', Accounts scripts read' written' (t.act who) ∧ _
    rw [act]
    cases hnow : t.now who with
    | pure a => exact ⟨read, written, h, fun _ => .inl rfl⟩
    | fail e => exact ⟨read, written, h, fun _ => .inl rfl⟩
    | write xs next =>
      refine ⟨read, update written who (written who ++ xs), both who ?_ ?_, both who ?_ ?_⟩
      · refine ⟨?_, ?_⟩
        · show Script.Along _ _ (update written who _ who) (update t.now who next who)
          rw [Function.update_self, Function.update_self]
          exact (hnow ▸ (h who).1).write
        · show update written who _ (!who) = read who ++ (t.inbox who ++ update t.flight (!who) _ who)
          rw [Function.update_of_ne (Bool.not_ne_self who), Function.update_of_ne (Bool.self_ne_not who)]
          exact (h who).2
      · refine ⟨?_, ?_⟩
        · show Script.Along _ _ (update written who _ (!who)) (update t.now who next (!who))
          rw [Function.update_of_ne (Bool.not_ne_self who), Function.update_of_ne (Bool.not_ne_self who)]
          exact (h !who).1
        · show update written who _ (!!who) = read (!who) ++ (t.inbox (!who) ++ update t.flight (!who) _ (!who))
          have hwho := (h !who).2
          rw [Bool.not_not] at hwho ⊢
          rw [Function.update_self, Function.update_self, hwho, List.append_assoc, List.append_assoc]
      · exact .inr ⟨xs, next, hnow, Function.update_self ..⟩
      · exact .inl (Function.update_of_ne (Bool.not_ne_self who) ..)
    | read n next =>
      dsimp only
      split
      swap
      · exact ⟨read, written, h, fun _ => .inl rfl⟩
      rename_i hle
      refine ⟨update read who (read who ++ (t.inbox who).take n), written, both who ?_ ?_, fun _ => .inl rfl⟩
      · refine ⟨?_, ?_⟩
        · show Script.Along _ (update read who _ who) _ (update t.now who _ who)
          rw [Function.update_self, Function.update_self]
          have halong := (h who).1
          rw [hnow, ← List.length_take_of_le hle] at halong
          exact halong.read
        · show written (!who) = update read who _ who ++ (update t.inbox who _ who ++ t.flight who)
          rw [Function.update_self, Function.update_self, (h who).2, List.append_assoc]
          conv => lhs; rw [← List.take_append_drop n (t.inbox who)]
          rw [List.append_assoc]
      · refine ⟨?_, ?_⟩
        · show Script.Along _ (update read who _ (!who)) _ (update t.now who _ (!who))
          rw [Function.update_of_ne (Bool.not_ne_self who), Function.update_of_ne (Bool.not_ne_self who)]
          exact (h !who).1
        · show written (!!who) = update read who _ (!who) ++ (update t.inbox who _ (!who) ++ t.flight (!who))
          rw [Function.update_of_ne (Bool.not_ne_self who), Function.update_of_ne (Bool.not_ne_self who)]
          exact (h !who).2

/-- Who has settled did all that its input lets it do. -/
theorem Settled.meet (hs : t.Settled) (h : Accounts scripts read written t) (who : Bool) :
    (scripts who).meet (written !who) = ⟨t.now who, written who, t.inbox who⟩ := by
  obtain ⟨hflight, hwrite, hread⟩ := hs who
  have hstuck : (t.now who).meet (t.inbox who) = ⟨t.now who, [], t.inbox who⟩ := by
    cases hnow : t.now who with
    | pure a => rfl
    | fail e => rfl
    | write xs next => exact absurd hnow (hwrite xs next)
    | read n next => exact Script.meet_read_short (hread n next hnow) next
  rw [(h who).2, hflight, List.append_nil, (h who).1.meet, hstuck, Script.Met.after, List.append_nil]

/-- What both parties would have written in the end. -/
def Final (scripts : Bool → Script ε β α) (limit : Bool → List β) : Prop :=
  ∀ who, ((scripts who).meet (limit !who)).written = limit who

/-- In no order is more written than in the end. -/
theorem Accounts.bounded (h : Accounts scripts read written t) (move : Move) :
    ∃ read' written', Accounts scripts read' written' (t.next move) ∧ ∀ limit, Final scripts limit →
      (∀ who, written who <+: limit who) → ∀ who, written' who <+: limit who := by
  obtain ⟨read', written', haccounts, hgrown⟩ := h.next move
  refine ⟨read', written', haccounts, ?_⟩
  intro limit hlimit hle who
  rcases hgrown who with hsame | ⟨xs, k, hnow, hmore⟩
  · rw [hsame]
    exact hle who
  · -- What the party read is a part of what it will have been sent.
    obtain ⟨more, hread⟩ := hle !who
    rw [(h who).2, List.append_assoc] at hread
    have hmeet := (h who).1.meet (t.inbox who ++ t.flight who ++ more)
    rw [List.append_assoc] at hmeet hread
    rw [hread, hnow] at hmeet
    rw [hmore, ← hlimit who, hmeet]
    refine ⟨(k.meet (t.inbox who ++ (t.flight who ++ more))).written, ?_⟩
    rw [List.append_assoc]
    rfl

end Runs
end Talk
end Aether.Machine
