import Aether.Rust.Utf8

/-! Parts of a text between two of its bytes.

A slice of a text begins and ends where a character does, and panics elsewhere. What is
taken is known from its length alone (`takeBytes_eq_some`), so that a text put together
from known pieces is cut between them. -/
namespace Aether.Rust

/-- `str::len`. -/
def byteLen (cs : List Char) : Nat := (cs.map Char.utf8Size).sum

/-- `&s[start..]`. -/
def sliceFrom (start : Nat) (cs : List Char) : Option (List Char) :=
  (takeBytes start cs).map fun front => cs.drop front.length

/-- `&s[start..stop]`. -/
def sliceBetween (start stop : Nat) (cs : List Char) : Option (List Char) :=
  if start ≤ stop then (sliceFrom start cs).bind (takeBytes (stop - start)) else none

/-- A character of the text ends at the byte. -/
def EndsAt (n : Nat) (cs : List Char) : Prop := ∃ front, front <+: cs ∧ byteLen front = n

@[simp] theorem byteLen_nil : byteLen [] = 0 := rfl

@[simp] theorem byteLen_cons (c : Char) (cs : List Char) : byteLen (c :: cs) = c.utf8Size + byteLen cs := by
  rw [byteLen, List.map_cons, List.sum_cons, byteLen]

@[simp] theorem byteLen_append (cs ds : List Char) : byteLen (cs ++ ds) = byteLen cs + byteLen ds := by
  rw [byteLen, List.map_append, List.sum_append, byteLen, byteLen]

theorem byteLen_eq_zero {cs : List Char} : byteLen cs = 0 ↔ cs = [] := by
  cases cs with
  | nil => simp
  | cons c cs =>
    have := c.utf8Size_pos
    rw [byteLen_cons]
    simp
    omega

/-- A text has the bytes of its encoding. -/
theorem length_encode (cs : List Char) : (cs.flatMap String.utf8EncodeChar).length = byteLen cs := by
  induction cs with
  | nil => rfl
  | cons c cs ih => rw [List.flatMap_cons, List.length_append, ih, byteLen_cons, String.length_utf8EncodeChar]

theorem lossyChars_encode (cs : List Char) (bytes : List UInt8) :
    lossyChars (cs.flatMap String.utf8EncodeChar ++ bytes) = cs ++ lossyChars bytes := by
  induction cs with
  | nil => rfl
  | cons c cs ih => rw [List.flatMap_cons, List.append_assoc, lossyChars_utf8EncodeChar, ih, List.cons_append]

theorem lossyChars_toUtf8 (s : String) : lossyChars (toUtf8 s) = s.toList := by
  have hchars := lossyChars_encode s.toList []
  rw [List.append_nil] at hchars
  rw [toUtf8, hchars]
  exact List.append_nil _

/-- A text is read and written as it is. -/
theorem encode_lossyChars {bytes : List UInt8} (h : (fromUtf8 bytes).isSome = true) :
    (lossyChars bytes).flatMap String.utf8EncodeChar = bytes := by
  have hsame := (toUtf8_fromUtf8Lossy_iff bytes).mpr h
  rw [toUtf8, fromUtf8Lossy, String.toList_ofList] at hsame
  exact hsame

theorem takeBytes_eq_some {n : Nat} {cs front : List Char} :
    takeBytes n cs = some front ↔ front <+: cs ∧ byteLen front = n := by
  induction cs generalizing n front with
  | nil =>
    rw [List.prefix_nil]
    cases n with
    | zero =>
      rw [takeBytes, Option.some_inj, eq_comm, byteLen_eq_zero, and_self]
    | succ n =>
      apply iff_of_false
      · intro h
        cases h
      · intro ⟨hfront, hlen⟩
        rw [hfront] at hlen
        cases hlen
  | cons c cs ih =>
    have hone := c.utf8Size_pos
    cases n with
    | zero =>
      rw [takeBytes, Option.some_inj, eq_comm, byteLen_eq_zero]
      apply Iff.intro
      · intro h
        rw [h]
        exact ⟨List.nil_prefix, rfl⟩
      · intro h
        exact h.2
    | succ n =>
      rw [takeBytes]
      apply Iff.intro
      · intro h
        split at h
        · rename_i hle
          obtain ⟨taken, htaken, hfront⟩ := Option.map_eq_some_iff.mp h
          obtain ⟨hpre, hlen⟩ := ih.mp htaken
          rw [← hfront, byteLen_cons, hlen]
          exact ⟨List.cons_prefix_cons.mpr ⟨rfl, hpre⟩, by omega⟩
        · cases h
      · intro ⟨hpre, hlen⟩
        cases front with
        | nil => cases hlen
        | cons d front =>
          obtain ⟨hd, hrest⟩ := List.cons_prefix_cons.mp hpre
          rw [byteLen_cons, hd] at hlen
          rw [if_pos (by omega), ih.mpr ⟨hrest, by omega⟩, hd]
          rfl

theorem takeBytes_isSome_iff (n : Nat) (cs : List Char) : (takeBytes n cs).isSome = true ↔ EndsAt n cs := by
  rw [Option.isSome_iff_exists]
  exact exists_congr fun _ => takeBytes_eq_some

theorem takeBytes_append (front back : List Char) : takeBytes (byteLen front) (front ++ back) = some front :=
  takeBytes_eq_some.mpr ⟨List.prefix_append .., rfl⟩

/-- Behind a front that is taken whole, the rest is taken as by itself. -/
theorem takeBytes_add (front back : List Char) (n : Nat) :
    takeBytes (byteLen front + n) (front ++ back) = (takeBytes n back).map (front ++ ·) := by
  induction front with
  | nil =>
    rw [byteLen_nil, Nat.zero_add, List.nil_append]
    exact (Option.map_id_apply ..).symm
  | cons c front ih =>
    have hone := c.utf8Size_pos
    obtain ⟨k, hk⟩ : ∃ k, byteLen (c :: front) + n = k + 1 := by
      rw [byteLen_cons]
      exact ⟨c.utf8Size + byteLen front + n - 1, by omega⟩
    have hleft : k + 1 - c.utf8Size = byteLen front + n := by
      rw [← hk, byteLen_cons]
      omega
    rw [byteLen_cons] at hk
    rw [byteLen_cons, hk, List.cons_append, takeBytes, if_pos (by omega), hleft, ih, Option.map_map]
    rfl

theorem sliceFrom_add (front back : List Char) (n : Nat) :
    sliceFrom (byteLen front + n) (front ++ back) = sliceFrom n back := by
  rw [sliceFrom, takeBytes_add, Option.map_map, sliceFrom]
  congr 1
  funext taken
  rw [Function.comp_apply, List.length_append, List.drop_length_add_append]

theorem sliceFrom_append (front back : List Char) : sliceFrom (byteLen front) (front ++ back) = some back := by
  have hrest := sliceFrom_add front back 0
  rw [Nat.add_zero] at hrest
  rw [hrest, sliceFrom, takeBytes]
  rfl

theorem sliceFrom_eq_some {start : Nat} {cs back : List Char} :
    sliceFrom start cs = some back ↔ ∃ front, byteLen front = start ∧ cs = front ++ back := by
  apply Iff.intro
  · intro h
    obtain ⟨front, htaken, hback⟩ := Option.map_eq_some_iff.mp h
    obtain ⟨⟨rest, hrest⟩, hlen⟩ := takeBytes_eq_some.mp htaken
    rw [← hrest, List.drop_left] at hback
    exact ⟨front, hlen, by rw [← hrest, hback]⟩
  · intro ⟨front, hlen, hcs⟩
    rw [← hlen, hcs, sliceFrom_append]

theorem sliceBetween_append (front back : List Char) (size : Nat) :
    sliceBetween (byteLen front) (byteLen front + size) (front ++ back) = takeBytes size back := by
  rw [sliceBetween, if_pos (Nat.le_add_right ..), sliceFrom_append, Option.bind_some, Nat.add_sub_cancel_left]

end Aether.Rust
