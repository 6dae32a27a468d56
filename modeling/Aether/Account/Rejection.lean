import Aether.Account.Api
import Aether.Rust.Slices

/-! Which rejections can be told.

A message that is no list of errors is cut after 220 bytes. Where no character ends there the
task panics, instead of trying again or giving the error (`told_iff`). -/
namespace Aether.Account

section
variable (wire : Wire)

/-- The body is a list of errors, or it is short without the white space around it, or a character
ends where it is cut. -/
def Cuttable (body : String) : Prop :=
  (extractApiError wire body).isSome = true ∨ (Rust.trim body).utf8ByteSize ≤ 220 ∨ Rust.EndsAt 220 (Rust.trim body).toList

/-- The text of a status. -/
def statusText (status : UInt16) : String :=
  if 100 ≤ status ∧ status ≤ 999 then wire.status status else toString status.toNat

/-- A text that says the status. -/
def Tells (status : UInt16) (text : Option String) : Prop :=
  ∃ told, text = some told ∧ Rust.contains (statusText wire status) told = true

variable {wire}

theorem rejectionDetail_isSome_iff (body : String) : (rejectionDetail wire body).isSome = true ↔ Cuttable wire body := by
  rw [rejectionDetail, Cuttable]
  cases hextract : extractApiError wire body with
  | some detail => exact iff_of_true rfl (.inl rfl)
  | none =>
    dsimp only
    split
    · rename_i hempty
      apply iff_of_true rfl
      refine .inr (.inl ?_)
      rw [String.isEmpty_iff.mp hempty]
      exact Nat.zero_le _
    · split
      · rename_i hlong
        rw [Option.isSome_map, Rust.sliceTo, Option.isSome_map, Rust.takeBytes_isSome_iff]
        apply Iff.intro
        · intro hcut
          exact .inr (.inr hcut)
        · intro h
          obtain h | h | h := h
          · cases h
          · omega
          · exact h
      · rename_i hshort
        exact iff_of_true rfl (.inr (.inl (Nat.le_of_not_lt hshort)))

theorem contains_between (front needle back : String) : Rust.contains needle (front ++ needle ++ back) = true := by
  rw [Rust.contains, decide_eq_true_eq, String.toList_append, String.toList_append]
  exact ⟨front.toList, back.toList, rfl⟩

theorem describeRejection_tells_iff {status : UInt16} (hstatus : 100 ≤ status ∧ status ≤ 999) (body : String) :
    Tells wire status (describeRejection wire status body) ↔ Cuttable wire body := by
  rw [← rejectionDetail_isSome_iff, Option.isSome_iff_exists]
  apply Iff.intro
  · intro h
    obtain ⟨told, htold, -⟩ := h
    obtain ⟨detail, hdetail, -⟩ := Option.map_eq_some_iff.mp htold
    exact ⟨detail, hdetail⟩
  · intro ⟨detail, hdetail⟩
    refine ⟨"status " ++ wire.status status ++ ": " ++ detail ++ rejectionHint status, ?_, ?_⟩
    · rw [describeRejection, hdetail]
      rfl
    · have hassoc : "status " ++ wire.status status ++ ": " ++ detail ++ rejectionHint status =
          "status " ++ wire.status status ++ (": " ++ (detail ++ rejectionHint status)) := by
        simp only [String.append_assoc]
      rw [statusText, if_pos hstatus, hassoc]
      exact contains_between ..

theorem describeStatus_tells_iff (status : UInt16) (body : String) :
    Tells wire status (describeStatus wire status body) ↔ (100 ≤ status ∧ status ≤ 999 → Cuttable wire body) := by
  rw [describeStatus]
  split
  · rename_i hstatus
    rw [describeRejection_tells_iff hstatus]
    exact ⟨fun h _ => h, fun h => h hstatus⟩
  · rename_i hstatus
    refine iff_of_true ⟨_, rfl, ?_⟩ fun h => absurd h hstatus
    rw [statusText, if_neg hstatus, String.append_assoc]
    exact contains_between ..

/-! ### Requests -/

/-- The rejections that the attempts meet before one of them ends the request can be cut. -/
def AllCuttable (wire : Wire) : List Attempt → Prop
  | [] => True
  | .unbuilt _ :: _ => True
  | .unsent _ :: rest => AllCuttable wire rest
  | .answered _ (.error _) :: _ => True
  | .answered status (.ok body) :: rest =>
    isSuccess status = true ∨ Cuttable wire body ∧ (worthRetrying status = true → AllCuttable wire rest)

theorem describeRejection_isSome_iff (status : UInt16) (body : String) :
    (describeRejection wire status body).isSome = true ↔ Cuttable wire body := by
  rw [describeRejection, Option.isSome_map, rejectionDetail_isSome_iff]

theorem sendFrom_decides_iff (label : String) (lastError : AetherError) (attempts : List Attempt) :
    sendFrom wire label lastError attempts ≠ .error .panicked ↔ AllCuttable wire attempts := by
  induction attempts generalizing lastError with
  | nil => exact iff_of_true (fun h => by cases h) trivial
  | cons attempt rest ih =>
    cases attempt with
    | unbuilt e => exact iff_of_true (fun h => by cases h) trivial
    | unsent e => exact ih _
    | answered status body =>
      cases body with
      | error e => exact iff_of_true (fun h => by cases h) trivial
      | ok body =>
        rw [sendFrom, AllCuttable]
        cases hsuccess : isSuccess status with
        | true =>
          refine iff_of_true ?_ (.inl rfl)
          rw [if_pos rfl]
          cases wire.account body with
          | ok account => exact fun h => by cases h
          | error e => exact fun h => by cases h
        | false =>
          rw [if_neg Bool.false_ne_true, ← describeRejection_isSome_iff status body]
          cases hdescribed : describeRejection wire status body with
          | none =>
            apply iff_of_false (fun h => h rfl)
            intro h
            obtain h | h := h
            · cases h
            · cases h.1
          | some described =>
            dsimp only
            cases hretry : worthRetrying status with
            | true =>
              rw [if_pos rfl, ih]
              exact ⟨fun h => .inr ⟨rfl, fun _ => h⟩, fun h => h.elim (fun hfalse => by cases hfalse) fun h => h.2 rfl⟩
            | false => exact iff_of_true (fun h => by cases h) (.inr ⟨rfl, fun hfalse => by cases hfalse⟩)

theorem fallbackCall_decides_iff (label : String) {exchanges : List Exchange} (h : fetch exchanges ≠ .error .panicked) :
    fallbackCall wire label exchanges ≠ .error .panicked ↔
      ∀ response, fetch exchanges = .ok response → isSuccess response.status = false →
        100 ≤ response.status ∧ response.status ≤ 999 → Cuttable wire response.body := by
  rw [fallbackCall]
  cases hfetch : fetch exchanges with
  | error failure =>
    refine iff_of_true (fun heq => ?_) fun response hresponse => by cases hresponse
    have hfailure : (.error failure : Outcome AccountData) = .error .panicked := heq
    rw [hfetch, Except.error.inj hfailure] at h
    exact h rfl
  | ok response =>
    dsimp only
    cases hsuccess : isSuccess response.status with
    | true =>
      refine iff_of_true ?_ fun other hother hfalse => ?_
      · rw [if_pos rfl]
        cases wire.account response.body with
        | ok account => exact fun h => by cases h
        | error e => exact fun h => by cases h
      · rw [← Except.ok.inj hother, hsuccess] at hfalse
        cases hfalse
    | false =>
      have hall : (∀ other, (.ok response : Outcome ApiResponse) = .ok other → isSuccess other.status = false →
          100 ≤ other.status ∧ other.status ≤ 999 → Cuttable wire other.body) ↔
            (100 ≤ response.status ∧ response.status ≤ 999 → Cuttable wire response.body) := by
        apply Iff.intro
        · intro hall
          exact hall response rfl hsuccess
        · intro hone other hother _ hstatus
          rw [← Except.ok.inj hother] at hstatus ⊢
          exact hone hstatus
      rw [if_neg Bool.false_ne_true, hall, ← describeStatus_tells_iff]
      cases hdescribed : describeStatus wire response.status response.body with
      | none =>
        apply iff_of_false (fun h => h rfl)
        intro h
        obtain ⟨told, htold, -⟩ := h
        cases htold
      | some described =>
        refine iff_of_true (fun h => by cases h) ?_
        rw [← hdescribed, describeStatus_tells_iff]
        intro hstatus
        rw [← describeRejection_isSome_iff response.status]
        rw [describeStatus, if_pos hstatus] at hdescribed
        rw [hdescribed]
        rfl

/-- A rejection is told exactly if its body can be cut, and a request comes to a decision exactly if
those that it meets can be. -/
theorem told_iff (wire : Wire) :
    (∀ status body, 100 ≤ status ∧ status ≤ 999 →
      (Tells wire status (describeRejection wire status body) ↔ Cuttable wire body)) ∧
    (∀ status body, Tells wire status (describeStatus wire status body) ↔
      (100 ≤ status ∧ status ≤ 999 → Cuttable wire body)) ∧
    (∀ label direct, sendWithRetry wire label direct ≠ .error .panicked ↔ AllCuttable wire direct.toList) ∧
    ∀ label exchanges, fetch exchanges ≠ .error .panicked → (fallbackCall wire label exchanges ≠ .error .panicked ↔
      ∀ response, fetch exchanges = .ok response → isSuccess response.status = false →
        100 ≤ response.status ∧ response.status ≤ 999 → Cuttable wire response.body) :=
  ⟨fun _ body hstatus => describeRejection_tells_iff hstatus body, describeStatus_tells_iff,
    fun label direct => sendFrom_decides_iff label _ direct.toList, fun label _ h => fallbackCall_decides_iff label h⟩

/-- No body is JSON. -/
def plainWire : Wire where
  json _ := none
  account _ := .error "expected value at line 1 column 1"
  status status := if status = 403 then "403 Forbidden" else toString status.toNat
  decode _ := .error "Invalid padding"

/-- A page that says, in a row, that access is refused: 74 characters of three bytes each. -/
def blockPage : String := String.ofList (List.replicate 74 (Char.ofNat 0x7981))

theorem blockPage_toList : blockPage.toList = List.replicate 74 (Char.ofNat 0x7981) := String.toList_ofList

theorem trim_blockPage : Rust.trim blockPage = blockPage := by
  apply Rust.trim_of_solid
  intro c hc
  rw [blockPage_toList] at hc
  rw [List.eq_of_mem_replicate hc]
  decide

/-- Byte 220 lies inside the last character of the page. -/
theorem rejectionDetail_blockPage : rejectionDetail plainWire blockPage = none := by
  have hextract : extractApiError plainWire blockPage = none := rfl
  have hempty : blockPage.isEmpty = false := by decide +kernel
  have hlong : 220 < blockPage.utf8ByteSize := by decide +kernel
  have hcut : Rust.takeBytes 220 (List.replicate 74 (Char.ofNat 0x7981)) = none := by decide +kernel
  rw [rejectionDetail, hextract]
  dsimp only
  rw [trim_blockPage, hempty, if_neg Bool.false_ne_true, if_pos hlong, Rust.sliceTo, blockPage_toList, hcut]
  rfl

/-- The page is not told, and the first attempt ends in a panic. -/
theorem page_untold : describeRejection plainWire 403 blockPage = none ∧ describeStatus plainWire 403 blockPage = none ∧
    sendWithRetry plainWire "registration" (List.Vector.replicate 5 (.answered 403 (.ok blockPage))) = .error .panicked := by
  have hrejection : describeRejection plainWire 403 blockPage = none := by
    rw [describeRejection, rejectionDetail_blockPage]
    rfl
  refine ⟨hrejection, ?_, ?_⟩
  · rw [describeStatus, if_pos (by decide), hrejection]
  · have hattempts : (List.Vector.replicate 5 (Attempt.answered 403 (.ok blockPage))).toList =
        .answered 403 (.ok blockPage) :: List.replicate 4 (.answered 403 (.ok blockPage)) := rfl
    rw [sendWithRetry, hattempts, sendFrom, if_neg (by decide), hrejection]

end

end Aether.Account
