import Aether.Routing.Spelling
import Aether.Rust.Blanks

/-! Where the routing rules come from.

The rules of a list are the entries between its line ends, commas and semicolons. Two
lists come from the environment, and what stands in the two sections of a file is put
behind them: the file is read line by line, comments left out, and the lines of a section
are joined again and split with the list.

`listed` is what the lists are to hold: the entries of every line that is no comment. A
comment in the file is dropped as a line; one in the environment is dropped entry by
entry, so that what stands behind a comma in it is a rule (`fromEnv_eq_iff`). -/
namespace Aether.Routing

variable {X : Externs}

/-! ### `RuleSet::from_env` -/

inductive Section where
  | block | direct
  deriving DecidableEq, Repr

/-- `str::lines`: the pieces between line feeds without a carriage return behind them, and
what follows the last, if there is something. -/
def lines (text : String) : List String :=
  let pieces := text.toList.splitOn '\n'
  let ended := pieces.dropLast.map fun piece => (Rust.stripEnd "\r" (String.ofList piece)).getD (String.ofList piece)
  let rest := pieces.getLast?.toList.filter (· ≠ [])
  ended ++ rest.map String.ofList

/-- The header of a section; `none` in it is one of an unknown name. -/
def header (X : Externs) (trimmed : String) : Option (Option Section) :=
  let lowered := X.toLowercase trimmed
  if lowered = "[block]" then some (some .block)
  else if lowered = "[direct]" then some (some .direct)
  else if Rust.startsWith "[" lowered then some none
  else none

/-- The two lists as they are filled, and the one that the lines go to. -/
structure Filing where
  block : String := ""
  direct : String := ""
  current : Option Section := none

/-- A line of the file. -/
def Filing.line (X : Externs) (s : Filing) (line : String) : Filing :=
  let trimmed := Rust.trim line
  if trimmed.isEmpty || Rust.startsWith "#" trimmed then s
  else
    match header X trimmed with
    | some current => {s with current}
    | none =>
      match s.current with
      | some .block => {s with block := s.block ++ trimmed ++ "\n"}
      | some .direct => {s with direct := s.direct ++ trimmed ++ "\n"}
      | none => s

/-- `split_sections`. -/
def splitSections (X : Externs) (text : String) : String × String :=
  let s := (lines text).foldl (Filing.line X) {}
  (s.block, s.direct)

/-- `push_list`. -/
def pushList (target extra : String) : String :=
  if (Rust.trim extra).isEmpty then target
  else (if (Rust.trim target).isEmpty then target else target ++ "\n") ++ extra

/-- `AETHER_ROUTE_BLOCK`, `AETHER_ROUTE_DIRECT`, and the text of the file that
`AETHER_ROUTES_FILE` names, if it can be read. -/
structure Environment where
  routeBlock : Option String := none
  routeDirect : Option String := none
  routesFile : Option (Option String) := none

/-- `RuleSet::from_env`. -/
def RuleSet.fromEnv (R : Reader X) (env : Environment) : RuleSet X :=
  let block := env.routeBlock.getD ""
  let direct := env.routeDirect.getD ""
  match env.routesFile with
  | some (some text) =>
    let (fileBlock, fileDirect) := splitSections X text
    RuleSet.parse R (pushList block fileBlock) (pushList direct fileDirect)
  | some none | none => RuleSet.parse R block direct

/-! ### What the lists are to hold -/

/-- The first character that is not blank is a `#`. -/
def isComment (line : String) : Bool := Rust.startsWith "#" (Rust.trim line)

/-- The entries of a line. -/
def entries (line : String) : List String := (line.toList.splitOnP fun c => c == ',' || c == ';').map String.ofList

/-- The rules of a line. -/
def lineRules (R : Reader X) (line : String) : List (Matcher X) :=
  if isComment line then [] else (entries line).filterMap (Matcher.parse R)

/-- The lines of a list in the environment. -/
def listLines (raw : String) : List String := (raw.toList.splitOn '\n').map String.ofList

/-- The header that a line of the file is, if it is one. -/
def headerOf (X : Externs) (line : String) : Option (Option Section) :=
  if (Rust.trim line).isEmpty || isComment line then none else header X (Rust.trim line)

/-- The section behind some lines: that of the last header among them. -/
def sectionAfter (X : Externs) (before : List String) : Option Section :=
  (before.filterMap (headerOf X)).getLast?.join

/-- The lines that stand in a section, of those behind some others. -/
def standing (X : Externs) (s : Section) : (before file : List String) → List String
  | _, [] => []
  | before, line :: file =>
    (if headerOf X line = none ∧ sectionAfter X before = some s then [line] else []) ++
      standing X s (before ++ [line]) file

/-- The rules of a section of the file. -/
def fileRules (R : Reader X) (file : Option (Option String)) (s : Section) : List (Matcher X) :=
  match file with
  | some (some text) => (standing X s [] (lines text)).flatMap (lineRules R)
  | some none | none => []

/-- The rules of a list of the environment and of a section of the file. -/
def listed (R : Reader X) (raw : Option String) (file : Option (Option String)) (s : Section) : List (Matcher X) :=
  (listLines (raw.getD "")).flatMap (lineRules R) ++ fileRules R file s

/-! ### Splitting -/

section
variable {α : Type} {p q : α → Bool}

/-- Split at two kinds of separators, or at one and then at the other. -/
theorem splitOnP_or (xs : List α) :
    (xs.splitOnP fun x => p x || q x) = (xs.splitOnP p).flatMap (List.splitOnP q) := by
  induction xs with
  | nil => rfl
  | cons x xs ih =>
    obtain ⟨head, tail, hsplit⟩ := List.exists_cons_of_ne_nil (List.splitOnP_ne_nil p xs)
    obtain ⟨first, rest, hhead⟩ := List.exists_cons_of_ne_nil (List.splitOnP_ne_nil q head)
    rw [List.splitOnP_cons_eq_if_modifyHead, List.splitOnP_cons_eq_if_modifyHead, ih, hsplit]
    by_cases hp : p x = true
    · rw [if_pos hp, if_pos (by rw [hp]; rfl)]
      rfl
    · rw [if_neg hp, List.modifyHead_cons, List.flatMap_cons, List.flatMap_cons,
        List.splitOnP_cons_eq_if_modifyHead, hhead]
      by_cases hq : q x = true
      · rw [if_pos hq, if_pos (by rw [hq, Bool.or_true])]
        rfl
      · rw [if_neg hq, if_neg (by simp [hp, hq])]
        rfl

/-- A character behind a text goes to its last piece. -/
theorem splitOnP_concat {x : α} (hx : p x = false) (xs : List α) :
    ∃ front last, xs.splitOnP p = front ++ [last] ∧ (xs ++ [x]).splitOnP p = front ++ [last ++ [x]] := by
  induction xs with
  | nil =>
    refine ⟨[], [], rfl, ?_⟩
    rw [List.nil_append, List.splitOnP_cons_eq_if_modifyHead, hx]
    rfl
  | cons y xs ih =>
    obtain ⟨front, last, hxs, hconcat⟩ := ih
    rw [List.cons_append, List.splitOnP_cons_eq_if_modifyHead, List.splitOnP_cons_eq_if_modifyHead, hxs, hconcat]
    split
    · exact ⟨[] :: front, last, rfl, rfl⟩
    · cases front with
      | nil => exact ⟨[], y :: last, rfl, rfl⟩
      | cons head front => exact ⟨(y :: head) :: front, last, rfl, rfl⟩

end

/-! ### Blank characters -/

/-- A rule is read from what is left without blanks. -/
theorem Matcher.parse_congr (R : Reader X) {s t : String} (h : Rust.trim s = Rust.trim t) :
    Matcher.parse R s = Matcher.parse R t := by
  rw [Matcher.parse, Matcher.parse, h]

/-! ### Rules in a text -/

/-- The rules of the pieces between separators. -/
def rulesIn (R : Reader X) (sep : Char → Bool) (cs : List Char) : List (Matcher X) :=
  ((cs.splitOnP sep).map String.ofList).filterMap (Matcher.parse R)

/-- The separators of `parse_list`. -/
def listSep (c : Char) : Bool := c == '\n' || c == ',' || c == ';'

/-- Those within a line. -/
def entrySep (c : Char) : Bool := c == ',' || c == ';'

section
variable (R : Reader X) {sep : Char → Bool}

/-- A blank before a text does not matter. -/
theorem rulesIn_blank_cons {c : Char} (hc : Rust.isWhitespace c = true) (cs : List Char) :
    rulesIn R sep (c :: cs) = rulesIn R sep cs := by
  rw [rulesIn, rulesIn, List.splitOnP_cons_eq_if_modifyHead]
  split
  · rfl
  · obtain ⟨head, tail, hsplit⟩ := List.exists_cons_of_ne_nil (List.splitOnP_ne_nil sep cs)
    rw [hsplit, List.modifyHead_cons, List.map_cons, List.map_cons, List.filterMap_cons, List.filterMap_cons,
      Matcher.parse_congr R (Rust.trim_cons hc head)]

/-- Nor does one behind it. -/
theorem rulesIn_blank_concat {c : Char} (hc : Rust.isWhitespace c = true) (cs : List Char) :
    rulesIn R sep (cs ++ [c]) = rulesIn R sep cs := by
  cases hsep : sep c with
  | true =>
    rw [rulesIn, List.splitOnP_append_cons cs [] hsep, List.map_append, List.filterMap_append]
    exact List.append_nil _
  | false =>
    obtain ⟨front, last, hcs, hconcat⟩ := splitOnP_concat hsep cs
    rw [rulesIn, rulesIn, hcs, hconcat, List.map_append, List.map_append, List.filterMap_append, List.filterMap_append,
      List.map_singleton, List.map_singleton, List.filterMap_cons, List.filterMap_cons,
      Matcher.parse_congr R (Rust.trim_concat hc last)]

theorem rulesIn_dropWhile (cs : List Char) : rulesIn R sep (cs.dropWhile Rust.isWhitespace) = rulesIn R sep cs := by
  induction cs with
  | nil => rfl
  | cons c cs ih =>
    rw [List.dropWhile_cons]
    split
    case isTrue hc => rw [ih, rulesIn_blank_cons R hc]
    case isFalse => rfl

theorem rulesIn_rdropWhile (cs : List Char) : rulesIn R sep (cs.rdropWhile Rust.isWhitespace) = rulesIn R sep cs := by
  induction cs using List.reverseRecOn with
  | nil => rfl
  | append_singleton cs c ih =>
    by_cases hc : Rust.isWhitespace c = true
    · rw [List.rdropWhile_concat_pos _ _ _ hc, ih, rulesIn_blank_concat R hc]
    · rw [List.rdropWhile_concat_neg _ _ _ hc]

theorem rulesIn_trim (s : String) : rulesIn R sep (Rust.trim s).toList = rulesIn R sep s.toList := by
  rw [Rust.trim, String.toList_ofList, rulesIn_rdropWhile, rulesIn_dropWhile]

/-- A blank text holds no rules. -/
theorem rulesIn_blank {s : String} (h : (Rust.trim s).isEmpty = true) : rulesIn R sep s.toList = [] := by
  rw [← rulesIn_trim, String.isEmpty_iff.mp h]
  rfl

/-- What stands around a separator is read on its own. -/
theorem rulesIn_append {c : Char} (hc : sep c = true) (xs ys : List Char) :
    rulesIn R sep (xs ++ c :: ys) = rulesIn R sep xs ++ rulesIn R sep ys := by
  rw [rulesIn, List.splitOnP_append_cons xs ys hc, List.map_append, List.filterMap_append]
  rfl

/-- In front of a text that is blank it does not matter where the text ends. -/
theorem rulesIn_blank_append {xs : List Char} (h : ∀ c ∈ xs, Rust.isWhitespace c = true) (ys : List Char) :
    rulesIn R sep (xs ++ ys) = rulesIn R sep ys := by
  induction xs with
  | nil => rfl
  | cons x xs ih =>
    rw [List.cons_append, rulesIn_blank_cons R (h x (List.mem_cons_self ..)),
      ih fun c hc => h c (List.mem_cons_of_mem _ hc)]

/-- A list is read line by line. -/
theorem rulesIn_lines (cs : List Char) :
    rulesIn R listSep cs = (cs.splitOn '\n').flatMap (rulesIn R entrySep) := by
  have hsep : listSep = fun c => c == '\n' || entrySep c := by
    funext c
    rw [listSep, entrySep, Bool.or_assoc]
  rw [rulesIn, hsep, splitOnP_or, List.splitOn_eq_splitOnP, List.map_flatMap, List.filterMap_flatMap]
  rfl

/-- `push_list` puts the rules of a text behind those of a list. -/
theorem rulesIn_pushList (target extra : String) :
    rulesIn R listSep (pushList target extra).toList =
      rulesIn R listSep target.toList ++ rulesIn R listSep extra.toList := by
  rw [pushList]
  split
  case isTrue hextra => rw [rulesIn_blank R hextra, List.append_nil]
  case isFalse =>
    rw [String.toList_append]
    split
    case isTrue htarget =>
      rw [rulesIn_blank R htarget, rulesIn_blank_append R (Rust.blank_of_trim htarget)]
      rfl
    case isFalse =>
      rw [String.toList_append, List.append_assoc]
      exact rulesIn_append R rfl target.toList extra.toList

end

/-! ### The sections of the file -/

theorem standing_snoc (s : Section) (before file : List String) (line : String) :
    standing X s before (file ++ [line]) = standing X s before file ++
      if headerOf X line = none ∧ sectionAfter X (before ++ file) = some s then [line] else [] := by
  induction file generalizing before with
  | nil =>
    rw [List.nil_append, standing, standing, standing, List.append_nil, List.append_nil, List.nil_append]
  | cons first file ih =>
    rw [List.cons_append, standing, standing, ih, List.append_assoc, List.append_assoc, List.singleton_append]

theorem sectionAfter_concat (before : List String) (line : String) :
    sectionAfter X (before ++ [line]) = (headerOf X line).getD (sectionAfter X before) := by
  rw [sectionAfter, List.filterMap_append]
  cases hline : headerOf X line with
  | none =>
    rw [List.filterMap_cons, hline]
    simp [sectionAfter]
  | some current =>
    rw [List.filterMap_cons, hline]
    simp

/-- A line of a section in the list that is filled with it: nothing of a blank or a comment. -/
def pushed (line : String) : List Char :=
  if (Rust.trim line).isEmpty || isComment line then [] else (Rust.trim line).toList ++ ['\n']

/-- What has been filed is what stands in the sections. -/
structure Filed (X : Externs) (before : List String) (s : Filing) : Prop where
  current : s.current = sectionAfter X before
  block : s.block.toList = (standing X .block [] before).flatMap pushed
  direct : s.direct.toList = (standing X .direct [] before).flatMap pushed

theorem filed_line {before : List String} {s : Filing} (h : Filed X before s) (line : String) :
    Filed X (before ++ [line]) (s.line X line) := by
  have hsnoc (t : Section) : (standing X t [] (before ++ [line])).flatMap pushed =
      (standing X t [] before).flatMap pushed ++
        if headerOf X line = none ∧ sectionAfter X before = some t then pushed line else [] := by
    rw [standing_snoc, List.nil_append, List.flatMap_append]
    split
    · simp
    · rfl
  by_cases hquiet : ((Rust.trim line).isEmpty || isComment line) = true
  · have hheader : headerOf X line = none := by rw [headerOf, if_pos hquiet]
    have hpushed : pushed line = [] := by rw [pushed, if_pos hquiet]
    have hline : s.line X line = s := by
      rw [Filing.line]
      exact if_pos hquiet
    rw [hline]
    refine ⟨?_, ?_, ?_⟩
    · rw [sectionAfter_concat, hheader]
      exact h.current
    · rw [hsnoc, hpushed, ite_self, List.append_nil]
      exact h.block
    · rw [hsnoc, hpushed, ite_self, List.append_nil]
      exact h.direct
  · have hheader : headerOf X line = header X (Rust.trim line) := by rw [headerOf, if_neg hquiet]
    have hpushed : pushed line = (Rust.trim line).toList ++ ['\n'] := by rw [pushed, if_neg hquiet]
    have hline : s.line X line =
        match header X (Rust.trim line) with
        | some current => {s with current}
        | none =>
          match s.current with
          | some .block => {s with block := s.block ++ Rust.trim line ++ "\n"}
          | some .direct => {s with direct := s.direct ++ Rust.trim line ++ "\n"}
          | none => s := by
      rw [Filing.line]
      exact if_neg hquiet
    have happend (text : String) : (text ++ Rust.trim line ++ "\n").toList = text.toList ++ pushed line := by
      rw [hpushed, String.toList_append, String.toList_append, List.append_assoc]
      rfl
    have hcurrent : sectionAfter X (before ++ [line]) = (header X (Rust.trim line)).getD s.current := by
      rw [sectionAfter_concat, hheader, h.current]
    have hstanding (t : Section) : (standing X t [] (before ++ [line])).flatMap pushed =
        (standing X t [] before).flatMap pushed ++
          if header X (Rust.trim line) = none ∧ s.current = some t then pushed line else [] := by
      rw [hsnoc, hheader, h.current]
    rw [hline]
    cases hfound : header X (Rust.trim line) with
    | some current =>
      rw [hfound] at hcurrent hstanding
      refine ⟨hcurrent.symm, ?_, ?_⟩
      · rw [hstanding, if_neg (by simp), List.append_nil]
        exact h.block
      · rw [hstanding, if_neg (by simp), List.append_nil]
        exact h.direct
    | none =>
      rw [hfound] at hcurrent hstanding
      cases hs : s.current with
      | none =>
        rw [hs] at hstanding hcurrent
        refine ⟨hs.trans hcurrent.symm, ?_, ?_⟩
        · rw [hstanding, if_neg (by simp), List.append_nil]
          exact h.block
        · rw [hstanding, if_neg (by simp), List.append_nil]
          exact h.direct
      | some t =>
        rw [hs] at hstanding hcurrent
        cases t with
        | block =>
          refine ⟨hcurrent.symm, ?_, ?_⟩
          · rw [hstanding, if_pos ⟨rfl, rfl⟩, ← h.block]
            exact happend s.block
          · rw [hstanding, if_neg (by simp), List.append_nil]
            exact h.direct
        | direct =>
          refine ⟨hcurrent.symm, ?_, ?_⟩
          · rw [hstanding, if_neg (by simp), List.append_nil]
            exact h.block
          · rw [hstanding, if_pos ⟨rfl, rfl⟩, ← h.direct]
            exact happend s.direct

theorem filed_lines (file : List String) : Filed X file (file.foldl (Filing.line X) {}) := by
  induction file using List.reverseRecOn with
  | nil => exact ⟨rfl, rfl, rfl⟩
  | append_singleton file line ih =>
    rw [List.foldl_append, List.foldl_cons, List.foldl_nil]
    exact filed_line ih line

theorem mem_standing {s : Section} {before file : List String} {line : String} (h : line ∈ standing X s before file) :
    line ∈ file := by
  induction file generalizing before with
  | nil => cases h
  | cons first file ih =>
    rw [standing, List.mem_append] at h
    obtain h | h := h
    · split at h
      · rw [List.mem_singleton.mp h]
        exact List.mem_cons_self ..
      · cases h
    · exact List.mem_cons_of_mem _ (ih h)

theorem splitOn_free {sep : Char} {cs piece : List Char} (h : piece ∈ cs.splitOn sep) : sep ∉ piece := by
  rw [List.splitOn_eq_splitOnP] at h
  induction cs generalizing piece with
  | nil =>
    rw [List.mem_singleton.mp h]
    exact List.not_mem_nil
  | cons c cs ih =>
    obtain ⟨head, tail, hsplit⟩ := List.exists_cons_of_ne_nil (List.splitOnP_ne_nil (· == sep) cs)
    rw [List.splitOnP_cons_eq_if_modifyHead, hsplit] at h
    rw [hsplit] at ih
    split at h
    case isTrue =>
      obtain rfl | h := List.mem_cons.mp h
      · exact List.not_mem_nil
      · exact ih h
    case isFalse hc =>
      rw [List.modifyHead_cons] at h
      obtain rfl | h := List.mem_cons.mp h
      · rw [List.mem_cons, not_or]
        exact ⟨fun he => hc (by rw [he, beq_self_eq_true]), ih (List.mem_cons_self ..)⟩
      · exact ih (List.mem_cons_of_mem _ h)

/-- A line has no line feed in it. -/
theorem lines_free {text line : String} (h : line ∈ lines text) : '\n' ∉ line.toList := by
  rw [lines] at h
  obtain h | h := List.mem_append.mp h
  · obtain ⟨piece, hpiece, rfl⟩ := List.mem_map.mp h
    have hfree := splitOn_free (List.dropLast_subset _ hpiece)
    cases hstrip : Rust.stripEnd "\r" (String.ofList piece) with
    | none =>
      rw [Option.getD_none, String.toList_ofList]
      exact hfree
    | some front =>
      have hsplit := congrArg String.toList (Rust.stripEnd_eq_some.mp hstrip)
      rw [String.toList_ofList, String.toList_append] at hsplit
      intro hmem
      exact hfree (by rw [hsplit]; exact List.mem_append_left _ hmem)
  · obtain ⟨piece, hpiece, rfl⟩ := List.mem_map.mp h
    rw [String.toList_ofList]
    exact splitOn_free (List.mem_of_getLast? (Option.mem_toList.mp (List.mem_filter.mp hpiece).1))

/-! ### What the lists hold -/

/-- The rules of a line, comment or not. -/
theorem rulesIn_line (R : Reader X) (line : String) :
    rulesIn R entrySep line.toList = (entries line).filterMap (Matcher.parse R) := rfl

theorem lineRules_of_quiet (R : Reader X) {line : String} (h : ((Rust.trim line).isEmpty || isComment line) = true) :
    lineRules R line = [] := by
  rw [lineRules]
  split
  case isTrue => rfl
  case isFalse hcomment =>
    have hblank : (Rust.trim line).isEmpty = true := by simpa [hcomment] using h
    rw [← rulesIn_line, rulesIn_blank R hblank]

theorem rulesIn_pushed (R : Reader X) {file : List String} (h : ∀ line ∈ file, '\n' ∉ line.toList) :
    rulesIn R listSep (file.flatMap pushed) = file.flatMap (lineRules R) := by
  induction file with
  | nil => rfl
  | cons line file ih =>
    have hrest := ih fun l hl => h l (List.mem_cons_of_mem _ hl)
    rw [List.flatMap_cons, List.flatMap_cons, pushed]
    split
    case isTrue hquiet => rw [List.nil_append, hrest, lineRules_of_quiet R hquiet, List.nil_append]
    case isFalse hquiet =>
      have hfree := h line (List.mem_cons_self ..)
      have hone : line.toList.splitOn '\n' = [line.toList] := by
        rw [List.splitOn_eq_splitOnP]
        apply List.splitOnP_eq_singleton
        intro c hc
        rw [beq_eq_false_iff_ne]
        exact fun he => hfree (he ▸ hc)
      have hcomment : ¬ isComment line = true := fun hc => hquiet (by rw [hc, Bool.or_true])
      rw [List.append_assoc, List.singleton_append, rulesIn_append R rfl, hrest, rulesIn_trim, rulesIn_lines, hone,
        List.flatMap_singleton, rulesIn_line, lineRules, if_neg hcomment]

/-- The rules of a section of the file. -/
theorem parseList_section (R : Reader X) (text : String) :
    parseList R (splitSections X text).1 = fileRules R (some (some text)) .block ∧
    parseList R (splitSections X text).2 = fileRules R (some (some text)) .direct := by
  have hfiled := filed_lines (X := X) (lines text)
  have hfree (t : Section) : ∀ line ∈ standing X t [] (lines text), '\n' ∉ line.toList :=
    fun line hline => lines_free (mem_standing hline)
  constructor
  · rw [fileRules, ← rulesIn_pushed R (hfree .block), ← hfiled.block]
    rfl
  · rw [fileRules, ← rulesIn_pushed R (hfree .direct), ← hfiled.direct]
    rfl

/-- What the code reads of a list, its comments entry by entry, and of a section. -/
def found (R : Reader X) (raw : Option String) (file : Option (Option String)) (s : Section) : List (Matcher X) :=
  (listLines (raw.getD "")).flatMap (fun line => (entries line).filterMap (Matcher.parse R)) ++ fileRules R file s

theorem parseList_eq (R : Reader X) (raw : String) :
    parseList R raw = (listLines raw).flatMap fun line => (entries line).filterMap (Matcher.parse R) := by
  show rulesIn R listSep raw.toList = _
  rw [rulesIn_lines, listLines, List.flatMap_map]
  congr 1
  funext piece
  rw [entries, String.toList_ofList]
  rfl

theorem parseList_pushList (R : Reader X) (target extra : String) :
    parseList R (pushList target extra) = parseList R target ++ parseList R extra := rulesIn_pushList R target extra

theorem fromEnv_eq (R : Reader X) (env : Environment) :
    RuleSet.fromEnv R env =
      { block := found R env.routeBlock env.routesFile .block
        direct := found R env.routeDirect env.routesFile .direct } := by
  have hlist (raw : String) : parseList R raw =
      (listLines raw).flatMap (fun line => (entries line).filterMap (Matcher.parse R)) ++ [] := by
    rw [parseList_eq, List.append_nil]
  have hplain : RuleSet.parse R (env.routeBlock.getD "") (env.routeDirect.getD "") = _ :=
    congrArg₂ RuleSet.mk (hlist (env.routeBlock.getD "")) (hlist (env.routeDirect.getD ""))
  rw [RuleSet.fromEnv, found, found]
  cases env.routesFile with
  | none => exact hplain
  | some file =>
    cases file with
    | none => exact hplain
    | some text =>
      obtain ⟨hblock, hdirect⟩ := parseList_section R text
      dsimp only
      rw [RuleSet.parse, parseList_pushList, parseList_pushList, hblock, hdirect, parseList_eq, parseList_eq]

/-- Lists put together from parts are the same exactly if the parts are, where each part of
the one is that of the other or empty. -/
theorem flatMap_eq_iff {α β : Type} {f g : α → List β} {xs : List α} (h : ∀ x ∈ xs, g x = f x ∨ g x = []) :
    xs.flatMap f = xs.flatMap g ↔ ∀ x ∈ xs, f x = g x := by
  have hle : ∀ ys ⊆ xs, (ys.flatMap g).length ≤ (ys.flatMap f).length := by
    intro ys hys
    induction ys with
    | nil => exact Nat.le_refl _
    | cons y ys ih =>
      have hrest := ih fun x hx => hys (List.mem_cons_of_mem _ hx)
      rw [List.flatMap_cons, List.flatMap_cons, List.length_append, List.length_append]
      obtain hy | hy := h y (hys (List.mem_cons_self ..))
      · rw [hy]
        omega
      · rw [hy, List.length_nil]
        omega
  constructor
  · intro heq
    induction xs with
    | nil => simp
    | cons x xs ih =>
      have hlength := hle xs (List.subset_cons_self x xs)
      rw [List.flatMap_cons, List.flatMap_cons] at heq
      have hx : f x = g x := by
        obtain hx | hx := h x (List.mem_cons_self ..)
        · exact hx.symm
        · have hlen := congrArg List.length heq
          rw [hx, List.nil_append, List.length_append] at hlen
          rw [hx]
          exact List.length_eq_zero_iff.mp (by omega)
      rw [hx] at heq
      intro y hy
      obtain rfl | hy := List.mem_cons.mp hy
      · exact hx
      · have hpart : ∀ z ∈ xs, g z = f z ∨ g z = [] := fun z hz => h z (List.mem_cons_of_mem _ hz)
        have hshort : ∀ ys ⊆ xs, (ys.flatMap g).length ≤ (ys.flatMap f).length :=
          fun ys hys => hle ys fun z hz => List.mem_cons_of_mem _ (hys hz)
        exact ih hpart hshort (List.append_cancel_left heq) y hy
  · intro hall
    exact List.flatMap_congr hall

/-- No comment of the list has, behind one of its commas or semicolons, an entry that is a
rule. -/
def Quiet (R : Reader X) (raw : Option String) : Prop :=
  ∀ line ∈ listLines (raw.getD ""), isComment line = true → ∀ entry ∈ entries line, Matcher.parse R entry = none

theorem found_eq_iff (R : Reader X) (raw : Option String) (file : Option (Option String)) (s : Section) :
    found R raw file s = listed R raw file s ↔ Quiet R raw := by
  have hpart : ∀ line ∈ listLines (raw.getD ""), lineRules R line = (entries line).filterMap (Matcher.parse R) ∨
      lineRules R line = [] := by
    intro line _
    rw [lineRules]
    split
    · exact .inr rfl
    · exact .inl rfl
  rw [found, listed, List.append_cancel_right_eq, flatMap_eq_iff hpart, Quiet]
  apply forall₂_congr
  intro line _
  rw [lineRules]
  split
  case isTrue hcomment => rw [forall_prop_of_true hcomment, List.filterMap_eq_nil_iff]
  case isFalse hcomment => exact ⟨fun _ hc => absurd hc hcomment, fun _ => rfl⟩

/-- The lists are the entries of the lines that are no comments, those of the environment
before those of the file, exactly if no comment in the environment has a rule behind a
comma or a semicolon. -/
theorem fromEnv_eq_iff (R : Reader X) (env : Environment) :
    RuleSet.fromEnv R env =
        { block := listed R env.routeBlock env.routesFile .block
          direct := listed R env.routeDirect env.routesFile .direct } ↔
      Quiet R env.routeBlock ∧ Quiet R env.routeDirect := by
  rw [fromEnv_eq, RuleSet.mk.injEq, found_eq_iff, found_eq_iff]

/-- `# a, b.example` blocks `b.example`. -/
theorem comment_read :
    RuleSet.fromEnv plainReader {routeBlock := some "# a, b.example"} = {block := [.domainSuffix "b.example"]} ∧
      listed plainReader (some "# a, b.example") none .block = [] := by
  refine ⟨?_, by decide⟩
  rw [fromEnv_eq]
  rfl

end Aether.Routing
