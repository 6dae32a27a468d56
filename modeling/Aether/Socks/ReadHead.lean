import Aether.Socks.Gateway

/-! Reading the head of a proxied request.

`read_head` looks at what has arrived without taking it, in a window that grows, until
the empty line that ends the head is in it; only then are the bytes of the head taken off
the socket. `Arrivals` is what each look finds: more and more of the stream, and all of it
from some point on if the client closes.

`head_exact` is that the head is found wherever the looks cut the stream. A client that
closes in the middle of a head is looked at for ever (`read_head_ends_iff`). -/
namespace Aether.Socks.ReadHead
open Sniff (Bytes)

/-! ### `read_head` -/

/-- `HTTP_HEAD_LIMIT` -/
@[irreducible]
def headLimit : Nat := 16 * 1024

inductive HeadError where
  /-- The client closed before sending a request. -/
  | closed
  /-- The request head is too large. -/
  | tooLarge
deriving DecidableEq

/-- What `read_head` gives back, and how many bytes it has taken off the socket. -/
structure Outcome where
  result : Except HeadError Bytes
  consumed : Nat

/-- How a look ends: with a result, or with the number of bytes it has seen. -/
inductive Look where
  | done (outcome : Outcome)
  | again (seen : Nat)

/-- One round of the loop, with the bytes that have arrived. -/
def look (arrived : Bytes) (seen : Nat) : Look :=
  let window := min (seen + 1024) (headLimit + 4)
  let buf := arrived.take window
  let available := buf.length
  if available = 0 then .done {result := .error .closed, consumed := 0}
  else
    let searchFrom := seen - 3
    match findHeadEnd (buf.drop searchFrom) with
    | some pos => .done {result := .ok (arrived.take (searchFrom + pos)), consumed := searchFrom + pos}
    | none =>
      if headLimit < available then .done {result := .error .tooLarge, consumed := 0}
      -- a socket with unread bytes is readable at once
      else .again available

/-- What the looks at a connection find: the bytes that have arrived, and whether the end
of the stream has. A look waits for one or the other. -/
structure Arrivals where
  arrived : Nat → Bytes
  ended : Nat → Bool
  grows : ∀ n, arrived n <+: arrived (n + 1)
  waits : ∀ n, ended n = false → arrived n ≠ []
  complete : ∀ n, ended n = true → ∀ m, n ≤ m → arrived m = arrived n

/-- `read_head` from a look on, for a number of looks. -/
def readFrom (a : Arrivals) : (looks n seen : Nat) → Option Outcome
  | 0, _, _ => none
  | looks + 1, n, seen =>
    match look (a.arrived n) seen with
    | .done outcome => some outcome
    | .again seen => readFrom a looks (n + 1) seen

/-- `read_head`, if it comes to an end within a number of looks. -/
def readHead (a : Arrivals) (looks : Nat) : Option Outcome := readFrom a looks 0 0

/-! ### The search -/

/-- Where no head ends in the first bytes, the search may start three bytes before their end. -/
theorem findHeadEnd_drop {bytes : Bytes} {k : Nat} (h : findHeadEnd (bytes.take (k + 3)) = none) :
    findHeadEnd bytes = (findHeadEnd (bytes.drop k)).map (k + ·) := by
  induction k generalizing bytes with
  | zero => simp
  | succ k ih =>
    cases bytes with
    | nil => rfl
    | cons b rest =>
      rw [show k + 1 + 3 = (k + 3) + 1 by omega, List.take_succ_cons, findHeadEnd] at h
      have hhead : headEnd.isPrefixOf (b :: rest) = false := by
        by_contra hpre
        rw [Bool.not_eq_false, List.isPrefixOf_iff_prefix] at hpre
        have hcut : headEnd <+: b :: rest.take (k + 3) := by
          rw [← List.take_succ_cons]
          exact List.prefix_take_iff.mpr ⟨hpre, by simp [headEnd]⟩
        rw [if_pos (List.isPrefixOf_iff_prefix.mpr hcut)] at h
        cases h
      have hrest : findHeadEnd (rest.take (k + 3)) = none := by
        split at h
        · cases h
        · exact Option.map_eq_none_iff.mp h
      rw [findHeadEnd, hhead, if_neg Bool.false_ne_true, ih hrest, List.drop_succ_cons, Option.map_map]
      congr 1
      funext pos
      show k + pos + 1 = k + 1 + pos
      omega

theorem findHeadEnd_none_take {bytes : Bytes} (h : findHeadEnd bytes = none) (k : Nat) :
    findHeadEnd (bytes.take k) = none := by
  cases hcut : findHeadEnd (bytes.take k) with
  | none => rfl
  | some pos =>
    have hwhole := findHeadEnd_append hcut (bytes.drop k)
    rw [List.take_append_drop, h] at hwhole
    cases hwhole

/-- A head that ends at a place ends there in all that holds the place. -/
theorem findHeadEnd_take {bytes : Bytes} {e k : Nat} (h : findHeadEnd bytes = some e) (hk : e ≤ k) :
    findHeadEnd (bytes.take k) = some e := by
  induction bytes generalizing e k with
  | nil => cases h
  | cons b rest ih =>
    have hbound := findHeadEnd_bounds h
    obtain ⟨k, rfl⟩ : ∃ j, k = j + 1 := ⟨k - 1, by omega⟩
    rw [findHeadEnd] at h
    rw [List.take_succ_cons, findHeadEnd]
    split at h
    case isTrue hpre =>
      have hcut : headEnd <+: b :: rest.take k := by
        rw [← List.take_succ_cons]
        exact List.prefix_take_iff.mpr ⟨List.isPrefixOf_iff_prefix.mp hpre, by simp [headEnd]; omega⟩
      rw [if_pos (List.isPrefixOf_iff_prefix.mpr hcut)]
      exact h
    case isFalse hpre =>
      obtain ⟨pos, hpos, rfl⟩ := Option.map_eq_some_iff.mp h
      have hcut : ¬ headEnd.isPrefixOf (b :: rest.take k) = true := by
        intro hcut
        apply hpre
        rw [List.isPrefixOf_iff_prefix] at hcut ⊢
        exact hcut.trans (List.cons_prefix_cons.mpr ⟨rfl, List.take_prefix ..⟩)
      rw [if_neg hcut, ih hpos (by omega)]
      rfl

/-- Before the place where the head ends there is none. -/
theorem findHeadEnd_short {bytes : Bytes} {e k : Nat} (h : findHeadEnd bytes = some e) (hk : k < e) :
    findHeadEnd (bytes.take k) = none := by
  cases hcut : findHeadEnd (bytes.take k) with
  | none => rfl
  | some pos =>
    have hwhole := findHeadEnd_append hcut (bytes.drop k)
    rw [List.take_append_drop, h] at hwhole
    obtain rfl := Option.some.inj hwhole
    have hbound := (findHeadEnd_bounds hcut).2
    rw [List.length_take] at hbound
    omega

/-- No head ends in bytes that are all the same. -/
theorem findHeadEnd_replicate (n : Nat) : findHeadEnd (List.replicate n 97) = none := by
  induction n with
  | zero => rfl
  | succ n ih =>
    rw [List.replicate_succ, findHeadEnd, ih]
    rfl

/-! ### One look -/

/-- The bytes in the window of a look. -/
def inWindow (arrived : Bytes) (seen : Nat) : Nat := min (min (seen + 1024) (headLimit + 4)) arrived.length

theorem look_nil (seen : Nat) : look [] seen = .done {result := .error .closed, consumed := 0} := by
  rw [look, List.take_nil]
  rfl

theorem inWindow_le (arrived : Bytes) (seen : Nat) : inWindow arrived seen ≤ arrived.length := by
  rw [inWindow]
  omega

/-- A look, when no head ends in what was seen before. -/
theorem look_eq {arrived : Bytes} {seen : Nat} (hne : arrived ≠ []) (hseen : findHeadEnd (arrived.take seen) = none) :
    look arrived seen =
      match findHeadEnd (arrived.take (inWindow arrived seen)) with
      | some e => .done {result := .ok (arrived.take e), consumed := e}
      | none =>
        if headLimit < inWindow arrived seen then .done {result := .error .tooLarge, consumed := 0}
        else .again (inWindow arrived seen) := by
  have hpos : 0 < arrived.length := List.length_pos_iff.mpr hne
  have hwindow : arrived.take (min (seen + 1024) (headLimit + 4)) = arrived.take (inWindow arrived seen) := by
    rw [inWindow, ← List.take_eq_take_min]
  have hlength : (arrived.take (inWindow arrived seen)).length = inWindow arrived seen := by
    rw [List.length_take]
    exact Nat.min_eq_left (inWindow_le ..)
  have hsome : inWindow arrived seen ≠ 0 := by
    rw [inWindow, headLimit]
    omega
  have hsearch : (findHeadEnd ((arrived.take (inWindow arrived seen)).drop (seen - 3))).map (seen - 3 + ·) =
      findHeadEnd (arrived.take (inWindow arrived seen)) := by
    by_cases hsmall : seen < 3
    · rw [show seen - 3 = 0 by omega]
      simp
    · refine (findHeadEnd_drop ?_).symm
      rw [show seen - 3 + 3 = seen by omega, List.take_take]
      by_cases hle : seen ≤ inWindow arrived seen
      · rwa [Nat.min_eq_left hle]
      · rw [Nat.min_eq_right (by omega)]
        have hshorter := findHeadEnd_none_take hseen (inWindow arrived seen)
        rwa [List.take_take, Nat.min_eq_left (by omega)] at hshorter
  rw [look, hwindow]
  dsimp only
  rw [hlength, if_neg hsome, ← hsearch]
  cases findHeadEnd ((arrived.take (inWindow arrived seen)).drop (seen - 3)) with
  | none => rfl
  | some pos => rfl

namespace Arrivals

variable (a : Arrivals)

theorem grows_le {n m : Nat} (h : n ≤ m) : a.arrived n <+: a.arrived m := by
  induction m, h using Nat.le_induction with
  | base => exact List.prefix_rfl
  | succ m _ ih => exact ih.trans (a.grows m)

theorem length_le {n m : Nat} (h : n ≤ m) : (a.arrived n).length ≤ (a.arrived m).length := (a.grows_le h).length_le

theorem take_eq {n m k : Nat} (h : n ≤ m) (hk : k ≤ (a.arrived n).length) :
    (a.arrived m).take k = (a.arrived n).take k := by
  obtain ⟨more, hmore⟩ := a.grows_le h
  rw [← hmore, List.take_append_of_le_length hk]

/-- If something arrives at all, every look finds something. -/
theorem ne_nil {m : Nat} (h : a.arrived m ≠ []) (n : Nat) : a.arrived n ≠ [] := by
  cases hended : a.ended n with
  | false => exact a.waits n hended
  | true =>
    by_cases hnm : n ≤ m
    · rw [← a.complete n hended m hnm]
      exact h
    · intro hnil
      have hpre := a.grows_le (show m ≤ n by omega)
      rw [hnil, List.prefix_nil] at hpre
      exact h hpre

end Arrivals

/-! ### What the looks come to -/

/-- Where the loop stands: no head ends in what it has seen. -/
structure Quiet (a : Arrivals) (n seen : Nat) : Prop where
  arrived : seen ≤ (a.arrived n).length
  small : seen ≤ headLimit
  none_yet : findHeadEnd ((a.arrived n).take seen) = none

theorem quiet_start (a : Arrivals) : Quiet a 0 0 where
  arrived := Nat.zero_le _
  small := Nat.zero_le _
  none_yet := rfl

/-- What a look can come to. -/
theorem look_cases {a : Arrivals} {n seen : Nat} (hne : a.arrived n ≠ []) (hq : Quiet a n seen) :
    (∃ e, findHeadEnd ((a.arrived n).take (inWindow (a.arrived n) seen)) = some e ∧
      look (a.arrived n) seen = .done {result := .ok ((a.arrived n).take e), consumed := e}) ∨
    (findHeadEnd ((a.arrived n).take (inWindow (a.arrived n) seen)) = none ∧
      headLimit < inWindow (a.arrived n) seen ∧
      look (a.arrived n) seen = .done {result := .error .tooLarge, consumed := 0}) ∨
    ∃ seen', look (a.arrived n) seen = .again seen' ∧ Quiet a (n + 1) seen' ∧ seen ≤ seen' ∧
      findHeadEnd ((a.arrived n).take seen') = none ∧ seen' = inWindow (a.arrived n) seen ∧
      (seen' ≤ seen → seen' = (a.arrived n).length) := by
  have hlook := look_eq hne hq.none_yet
  have hlen : inWindow (a.arrived n) seen ≤ (a.arrived n).length := inWindow_le ..
  cases hfind : findHeadEnd ((a.arrived n).take (inWindow (a.arrived n) seen)) with
  | some e =>
    rw [hfind] at hlook
    exact .inl ⟨e, rfl, hlook⟩
  | none =>
    rw [hfind] at hlook
    dsimp only at hlook
    split at hlook
    case isTrue hlarge => exact .inr (.inl ⟨rfl, hlarge, hlook⟩)
    case isFalse hlarge =>
      have harrived := hq.arrived
      have hsmall := hq.small
      refine .inr (.inr ⟨inWindow (a.arrived n) seen, hlook, ⟨?_, by omega, ?_⟩, ?_, hfind, rfl, ?_⟩)
      · exact hlen.trans (a.length_le (Nat.le_succ n))
      · rw [a.take_eq (Nat.le_succ n) hlen]
        exact hfind
      · rw [inWindow]
        omega
      · rw [inWindow]
        omega

/-- The loop comes to a result that every look may give, where every look that gives none
has seen more, or comes before a given one. -/
theorem readFrom_ends {a : Arrivals} {good : Outcome → Prop} (last : Nat)
    (hstep : ∀ n seen, Quiet a n seen →
      (∃ o, look (a.arrived n) seen = .done o ∧ good o) ∨
      ∃ seen', look (a.arrived n) seen = .again seen' ∧ Quiet a (n + 1) seen' ∧ seen ≤ seen' ∧
        (last ≤ n → seen < seen'))
    {n seen : Nat} (hq : Quiet a n seen) : ∃ looks o, readFrom a looks n seen = some o ∧ good o := by
  induction hk : (last - n) + (headLimit - seen) using Nat.strong_induction_on generalizing n seen with
  | _ k ih =>
    obtain ⟨o, hlook, hgood⟩ | ⟨seen', hlook, hq', hle, hmore⟩ := hstep n seen hq
    · exact ⟨1, o, by rw [readFrom, hlook], hgood⟩
    · have hsmall := hq'.small
      have hless : (last - (n + 1)) + (headLimit - seen') < k := by
        by_cases hlast : last ≤ n
        · have := hmore hlast
          omega
        · omega
      obtain ⟨looks, o, hread, hgood⟩ := ih _ hless hq' rfl
      exact ⟨looks + 1, o, by rw [readFrom, hlook]; exact hread, hgood⟩

/-- Where every look goes on, the loop does not come to a result. -/
theorem readFrom_none {a : Arrivals}
    (hstep : ∀ n seen, Quiet a n seen → ∃ seen', look (a.arrived n) seen = .again seen' ∧ Quiet a (n + 1) seen')
    {n seen : Nat} (hq : Quiet a n seen) (looks : Nat) : readFrom a looks n seen = none := by
  induction looks generalizing n seen with
  | zero => rfl
  | succ looks ih =>
    obtain ⟨seen', hlook, hq'⟩ := hstep n seen hq
    rw [readFrom, hlook]
    exact ih hq'

/-- A head that has arrived by some look is the one that every earlier or later look finds. -/
theorem findHeadEnd_at {a : Arrivals} {N n e k : Nat} (h : findHeadEnd (a.arrived N) = some e)
    (hk : k ≤ (a.arrived n).length) :
    findHeadEnd ((a.arrived n).take k) = if e ≤ k then some e else none := by
  have hbound := (findHeadEnd_bounds h).2
  -- the look that has more of the stream holds the head
  obtain ⟨m, hN, hn⟩ : ∃ m, N ≤ m ∧ n ≤ m := ⟨max N n, Nat.le_max_left .., Nat.le_max_right ..⟩
  have hm : findHeadEnd (a.arrived m) = some e := by
    obtain ⟨more, hmore⟩ := a.grows_le hN
    rw [← hmore]
    exact findHeadEnd_append h more
  rw [← a.take_eq hn hk]
  split
  case isTrue hle => exact findHeadEnd_take hm hle
  case isFalse hlt => exact findHeadEnd_short hm (by omega)

/-- The head is read whole and nothing behind it is. -/
theorem readHead_ok {a : Arrivals} {N e : Nat} (h : findHeadEnd (a.arrived N) = some e) (he : e ≤ headLimit) :
    ∃ looks, readHead a looks = some {result := .ok ((a.arrived N).take e), consumed := e} := by
  have hbound := findHeadEnd_bounds h
  have hsome : a.arrived N ≠ [] := by
    intro hnil
    rw [hnil] at h
    cases h
  have hends : ∃ looks o, readHead a looks = some o ∧ o = {result := .ok ((a.arrived N).take e), consumed := e} := by
    refine readFrom_ends N ?_ (quiet_start a)
    intro n seen hq
    have hlen : inWindow (a.arrived n) seen ≤ (a.arrived n).length := inWindow_le ..
    have hwhere := findHeadEnd_at h hlen
    obtain ⟨e', hfind, hlook⟩ | ⟨hfind, hlarge, -⟩ | ⟨seen', hlook, hq', hle, hfind, heq, hstuck⟩ :=
      look_cases (a.ne_nil hsome n) hq
    · rw [hwhere] at hfind
      split at hfind
      case isFalse => cases hfind
      case isTrue hin =>
        obtain rfl := Option.some.inj hfind
        refine .inl ⟨_, hlook, ?_⟩
        -- both looks see the head
        have hsame : (a.arrived n).take e = (a.arrived N).take e := by
          by_cases hnN : n ≤ N
          · exact (a.take_eq hnN (by omega)).symm
          · exact a.take_eq (by omega) hbound.2
        rw [hsame]
    · rw [hwhere] at hfind
      split at hfind
      case isTrue => cases hfind
      case isFalse hin => omega
    · refine .inr ⟨seen', hlook, hq', hle, ?_⟩
      intro hlast
      by_contra hmore
      -- a look that sees nothing new sees all there is, the head with it
      have hall := hstuck (by omega)
      have hlength := a.length_le hlast
      rw [← heq, hfind, if_pos (by omega)] at hwhere
      cases hwhere
  obtain ⟨looks, o, hread, rfl⟩ := hends
  exact ⟨looks, hread⟩

/-- Without a head in the longest window, the loop comes to an error and takes nothing. -/
theorem readHead_tooLarge {a : Arrivals} {N : Nat} (h : ∀ n, findHeadEnd ((a.arrived n).take (headLimit + 4)) = none)
    (hN : headLimit < (a.arrived N).length) :
    ∃ looks, readHead a looks = some {result := .error .tooLarge, consumed := 0} := by
  have hsome : a.arrived N ≠ [] := List.length_pos_iff.mp (by omega)
  have hends : ∃ looks o, readHead a looks = some o ∧ o = {result := .error .tooLarge, consumed := 0} := by
    refine readFrom_ends N ?_ (quiet_start a)
    intro n seen hq
    obtain ⟨e, hfind, -⟩ | ⟨-, -, hlook⟩ | ⟨seen', hlook, hq', hle, -, -, hstuck⟩ := look_cases (a.ne_nil hsome n) hq
    · have hwindow := findHeadEnd_none_take (h n) (inWindow (a.arrived n) seen)
      have hle : inWindow (a.arrived n) seen ≤ headLimit + 4 := by
        rw [inWindow]
        omega
      rw [List.take_take, Nat.min_eq_left hle, hfind] at hwindow
      cases hwindow
    · exact .inl ⟨_, hlook, rfl⟩
    · refine .inr ⟨seen', hlook, hq', hle, ?_⟩
      intro hlast
      by_contra hmore
      have hall := hstuck (by omega)
      have hlength := a.length_le hlast
      have hsmall := hq'.small
      omega
  obtain ⟨looks, o, hread, rfl⟩ := hends
  exact ⟨looks, hread⟩

/-- A head within the limit is read as it is, wherever the looks cut the stream, and what
is behind it stays on the socket; without one a long request is refused untouched. -/
theorem head_exact (a : Arrivals) :
    (∀ N e, findHeadEnd (a.arrived N) = some e → e ≤ headLimit →
      ∃ looks, readHead a looks = some {result := .ok ((a.arrived N).take e), consumed := e}) ∧
    ((∀ n, findHeadEnd ((a.arrived n).take (headLimit + 4)) = none) → (∃ N, headLimit < (a.arrived N).length) →
      ∃ looks, readHead a looks = some {result := .error .tooLarge, consumed := 0}) := by
  refine ⟨?_, ?_⟩
  · intro N e hfind he
    exact readHead_ok hfind he
  · intro hnone hlong
    obtain ⟨N, hN⟩ := hlong
    exact readHead_tooLarge hnone hN

/-- A client whose bytes arrive one at a time, and that closes behind the last. -/
def byteByByte (bytes : Bytes) : Arrivals where
  arrived n := bytes.take (n + 1)
  ended n := bytes.length ≤ n + 1
  grows n := List.take_prefix_take_left (Nat.le_succ _)
  waits n h := by
    rw [decide_eq_false_iff_not] at h
    intro hnil
    have hlength := congrArg List.length hnil
    rw [List.length_take, List.length_nil] at hlength
    omega
  complete n h m hm := by
    rw [decide_eq_true_iff] at h
    rw [List.take_of_length_le h, List.take_of_length_le (by omega)]

/-- A head with the start of a body behind it, and a request that never ends its head. -/
theorem head_exact_bytes :
    (∃ looks, readHead (byteByByte [71, 13, 10, 13, 10, 120]) looks =
      some {result := .ok [71, 13, 10, 13, 10], consumed := 5}) ∧
    ∃ looks, readHead (byteByByte (List.replicate 16385 97)) looks =
      some {result := .error .tooLarge, consumed := 0} := by
  refine ⟨(head_exact _).1 5 5 (by decide) (by decide +kernel), (head_exact _).2 ?_ ⟨16385, ?_⟩⟩
  · intro n
    exact findHeadEnd_none_take (findHeadEnd_none_take (findHeadEnd_replicate _) _) _
  · rw [headLimit]
    show _ < (List.take _ _).length
    rw [List.length_take, List.length_replicate]
    decide

/-! ### The end of the stream -/

theorem readHead_ends {a : Arrivals} {n : Nat} (hn : a.ended n = true)
    (h : a.arrived n = [] ∨ headLimit < (a.arrived n).length ∨ (findHeadEnd (a.arrived n)).isSome) :
    ∃ looks o, readHead a looks = some o := by
  by_cases hnil : a.arrived n = []
  · have hfirst : a.arrived 0 = [] := List.prefix_nil.mp (hnil ▸ a.grows_le (Nat.zero_le n))
    refine ⟨1, {result := .error .closed, consumed := 0}, ?_⟩
    rw [readHead, readFrom, hfirst, look_nil]
  · have hends : ∃ looks o, readHead a looks = some o ∧ True := by
      refine readFrom_ends n ?_ (quiet_start a)
      intro m seen hq
      obtain ⟨e, -, hlook⟩ | ⟨-, -, hlook⟩ | ⟨seen', hlook, hq', hle, hfind, -, hstuck⟩ :=
        look_cases (a.ne_nil hnil m) hq
      · exact .inl ⟨_, hlook, trivial⟩
      · exact .inl ⟨_, hlook, trivial⟩
      · refine .inr ⟨seen', hlook, hq', hle, ?_⟩
        intro hlast
        by_contra hmore
        have hall := hstuck (by omega)
        have hsmall := hq'.small
        rw [hall, List.take_length, a.complete n hn m hlast] at hfind
        rw [hall, a.complete n hn m hlast] at hsmall
        obtain h | h | h := h
        · exact hnil h
        · omega
        · rw [hfind] at h
          cases h
    obtain ⟨looks, o, hread, -⟩ := hends
    exact ⟨looks, o, hread⟩

theorem readHead_stuck {a : Arrivals} {n : Nat} (hn : a.ended n = true) (hne : a.arrived n ≠ [])
    (hsmall : (a.arrived n).length ≤ headLimit) (hnone : findHeadEnd (a.arrived n) = none) (looks : Nat) :
    readHead a looks = none := by
  refine readFrom_none ?_ (quiet_start a) looks
  intro m seen hq
  -- whatever a look finds is a part of all that ever arrives
  have hpart : a.arrived m <+: a.arrived n := by
    by_cases hmn : m ≤ n
    · exact a.grows_le hmn
    · rw [a.complete n hn m (by omega)]
  have hwindow : findHeadEnd ((a.arrived m).take (inWindow (a.arrived m) seen)) = none := by
    rw [List.prefix_iff_eq_take.mp hpart]
    exact findHeadEnd_none_take (findHeadEnd_none_take hnone _) _
  have hlen := hpart.length_le
  obtain ⟨e, hfind, -⟩ | ⟨-, hlarge, -⟩ | ⟨seen', hlook, hq', -⟩ := look_cases (a.ne_nil hne m) hq
  · rw [hwindow] at hfind
    cases hfind
  · have := inWindow_le (a.arrived m) seen
    omega
  · exact ⟨seen', hlook, hq'⟩

/-- Once the end of the stream has arrived, the loop comes to an end exactly if nothing, too
much or a whole head came before it. -/
theorem read_head_ends_iff {a : Arrivals} {n : Nat} (hn : a.ended n = true) :
    (∃ looks o, readHead a looks = some o) ↔
      a.arrived n = [] ∨ headLimit < (a.arrived n).length ∨ (findHeadEnd (a.arrived n)).isSome := by
  refine ⟨?_, readHead_ends hn⟩
  intro h
  obtain ⟨looks, o, hread⟩ := h
  by_contra hnot
  rw [not_or, not_or, Nat.not_lt, Option.not_isSome_iff_eq_none] at hnot
  obtain ⟨hne, hsmall, hnone⟩ := hnot
  rw [readHead_stuck hn hne hsmall hnone looks] at hread
  cases hread

/-- A head that arrives whole is read, whatever the client does then. -/
theorem read_head_ends_whole : ∃ looks o, readHead (byteByByte [71, 13, 10, 13, 10]) looks = some o :=
  (read_head_ends_iff (n := 4) (by decide)).mpr (.inr (.inr (by decide)))

/-- A client that sends one letter and closes is looked at for ever. -/
theorem closed_in_head : (byteByByte [71]).ended 0 = true ∧ ∀ looks, readHead (byteByByte [71]) looks = none := by
  refine ⟨by decide, readHead_stuck (n := 0) (by decide) (by decide) (by decide +kernel) (by decide)⟩

end Aether.Socks.ReadHead
