import Aether.Profile.Arguments
import Aether.Rust.Blanks

/-! Where identities are kept.

Every file of a base path is a sibling of it: a tag is put in front of the extension
(`path_eq`). A team's name may itself end in the tag of another role, and there two files
are one (`path_eq_iff`); `enrolled_teams` leaves such teams out, and it looks for files with
one extension only (`mem_enrolledTeams`). -/
namespace Aether.Identity
open Profile (Env)

/-! ### Teams -/

def isTeamChar (c : Char) : Bool := c.isAlphanum || c == '-' || c == '_'

/-- `normalize_team`. -/
def normalizeTeam (raw : String) : Option String :=
  let value := Rust.toLowercase (Rust.trim raw)
  if value.isEmpty then none
  else
    let value := (Rust.stripStart "https://" value).getD value
    let value := (Rust.stripStart "http://" value).getD value
    let value := Rust.trimEndMatches '/' value
    let value := (Rust.split '/' value).headD value
    let value := match Rust.stripEnd "cloudflareaccess.com" value with
      | some head => Rust.trimEndMatches '.' head
      | none => value
    if value.isEmpty then none
    else if value.toList.all isTeamChar then some value
    else none

/-- What `normalize_team` may return. -/
@[ext] structure Team where
  name : String
  normalized : ∃ raw, normalizeTeam raw = some name

/-- `team_scope`. -/
def teamScope (env : Env) : Option String := normalizeTeam ((env "AETHER_TEAM").getD "")

/-! ### Paths -/

def isSlash (c : Char) : Bool := c == '/' || c == '\\'

/-- `&base[..dir_end]`: up to the last slash. -/
def directory (base : String) : String := String.ofList (base.toList.rdropWhile fun c => !isSlash c)

/-- `&base[dir_end..]`. -/
def fileName (base : String) : String := String.ofList (base.toList.rtakeWhile fun c => !isSlash c)

/-- The name without its extension. -/
def stem (base : String) : String :=
  match Rust.rsplitOnce '.' (fileName base) with
  | some (stem, _) => stem
  | none => fileName base

/-- `derive_sibling_path`. -/
def deriveSiblingPath (base tag : String) : String :=
  match Rust.rsplitOnce '.' (fileName base) with
  | some (stem, extension) => directory base ++ stem ++ "-" ++ tag ++ "." ++ extension
  | none => base ++ "-" ++ tag

/-- `warp_config_path`. -/
def warpConfigPath (env : Env) (base : String) : String :=
  match env "AETHER_WG_CONFIG" with
  | some path => path
  | none =>
    match teamScope env with
    | some team => deriveSiblingPath base ("team-" ++ team)
    | none => base

/-- `masque_config_path`. -/
def masqueConfigPath (env : Env) (base : String) : String :=
  match env "AETHER_MASQUE_CONFIG" with
  | some path => path
  | none =>
    match teamScope env with
    | some team => deriveSiblingPath base ("team-" ++ team)
    | none => deriveSiblingPath base "masque"

inductive Transport where
  | masque
  | wireGuard
  deriving DecidableEq

/-- `identity_path` of the library. -/
def identityPath (base : String) (transport : Transport) (team : Option String) : String :=
  match team with
  | some team => deriveSiblingPath base ("team-" ++ team)
  | none =>
    match transport with
    | .masque => deriveSiblingPath base "masque"
    | .wireGuard => base

/-- The second identity of warp-in-warp. -/
def secondaryPath (primary : String) : String := deriveSiblingPath primary "secondary"

/-- `lastconn_path`. -/
def lastconnPath (config : String) : String := deriveSiblingPath config "lastconn"

/-- A team or none, and what is kept for it. -/
inductive Slot where
  | primary (team : Option Team)
  | secondary (team : Option Team)
  | lastconn (team : Option Team)
  /-- The MASQUE identity of a personal account. -/
  | masque
  | masqueLastconn

namespace Slot

def path (base : String) : Slot → String
  | primary team => identityPath base .wireGuard (team.map Team.name)
  | secondary team => secondaryPath (identityPath base .wireGuard (team.map Team.name))
  | lastconn team => lastconnPath (identityPath base .wireGuard (team.map Team.name))
  | masque => identityPath base .masque none
  | masqueLastconn => lastconnPath (identityPath base .masque none)

def team : Slot → Option Team
  | primary team => team
  | secondary team => team
  | lastconn team => team
  | masque => none
  | masqueLastconn => none

/-- The end of the slot's tag, after the team's. -/
def role : Slot → String
  | primary _ => ""
  | secondary _ => "-secondary"
  | lastconn _ => "-lastconn"
  | masque => "-masque"
  | masqueLastconn => "-masque-lastconn"

/-- The first slot is the identity of a team whose name is that of the other slot's team with
the other slot's role. -/
def Shadows (a b : Slot) : Prop :=
  ∃ t u : Team, a = .primary (some t) ∧ b.team = some u ∧ b.role ≠ "" ∧ t.name = u.name ++ b.role

end Slot

/-! ### Enrolled teams -/

/-- The teams whose files a directory lists, in order. `readDir` gives the names in a
directory. -/
def enrolledTeams (readDir : String → Option (List String)) (base : String) : List String :=
  let dir := if directory base = "" then "." else directory base
  match readDir dir with
  | none => []
  | some entries =>
    let teams := entries.filterMap fun name => do
      let rest ← Rust.stripStart (stem base ++ "-team-") name
      let team ← Rust.stripEnd ".toml" rest
      if team.isEmpty || Rust.endsWith "-secondary" team || Rust.endsWith "-lastconn" team then none else some team
    teams.eraseDups.mergeSort fun a b => decide (a ≤ b)

/-! ### Files -/

/-- What separates directories: a backslash does on Windows only. -/
def isSeparator (windows : Bool) (c : Char) : Bool := c == '/' || (windows && c == '\\')

/-- The names in a directory that holds the files and nothing else. -/
def listing (windows : Bool) (files : List String) (dir : String) : Option (List String) :=
  some (files.filterMap fun path =>
    let parent := String.ofList (path.toList.rdropWhile fun c => !isSeparator windows c)
    let name := String.ofList (path.toList.rtakeWhile fun c => !isSeparator windows c)
    if parent = dir || parent = dir ++ "/" || (parent = "" && dir = ".") then some name else none)

/-! ### Texts cut at the last mark -/

section Cut

variable {p : Char → Bool} {s t : List Char}

theorem rtakeWhile_append (h : ∀ c ∈ t, p c = true) : (s ++ t).rtakeWhile p = s.rtakeWhile p ++ t := by
  have hrev : ∀ c ∈ t.reverse, p c = true := fun c hc => h c (List.mem_reverse.mp hc)
  rw [List.rtakeWhile, List.reverse_append, List.takeWhile_append_of_pos hrev, List.rtakeWhile, List.reverse_append,
    List.reverse_reverse]

theorem rtakeWhile_rdropWhile (p : Char → Bool) (s : List Char) : (s.rdropWhile p).rtakeWhile p = [] := by
  rw [List.rtakeWhile_eq_nil_iff]
  exact fun hne => List.rdropWhile_last_not p s hne

end Cut

/-- No slash and no dot. -/
def isPlain (c : Char) : Bool := !isSlash c && c != '.'

theorem directory_append_fileName (base : String) : directory base ++ fileName base = base := by
  rw [directory, fileName, ← String.ofList_append, List.rdropWhile_append_rtakeWhile, String.ofList_toList]

theorem not_isSlash_of_mem_fileName {base : String} {c : Char} (h : c ∈ (fileName base).toList) :
  isSlash c = false := by
  rw [fileName, String.toList_ofList] at h
  simpa using List.mem_rtakeWhile_imp h

/-- A name in the directory of the base path. -/
theorem locate (base : String) {name : String} (h : ∀ c ∈ name.toList, isSlash c = false) :
    directory (directory base ++ name) = directory base ∧ fileName (directory base ++ name) = name := by
  have hname : ∀ c ∈ name.toList, (!isSlash c) = true := fun c hc => by rw [h c hc]; rfl
  constructor
  · rw [directory, String.toList_append, Rust.rdropWhile_append hname, directory, String.toList_ofList,
      List.rdropWhile_idempotent]
  · rw [fileName, String.toList_append, rtakeWhile_append hname, directory, String.toList_ofList,
      rtakeWhile_rdropWhile, List.nil_append, String.ofList_toList]

/-! ### Siblings -/

/-- What stands in front of a sibling's tag. -/
def front (base : String) : String :=
  match Rust.rsplitOnce '.' (fileName base) with
  | some (stem, _) => directory base ++ stem
  | none => base

/-- What stands behind it: the extension. -/
def back (base : String) : String :=
  match Rust.rsplitOnce '.' (fileName base) with
  | some (_, extension) => String.singleton '.' ++ extension
  | none => ""

theorem front_append_back (base : String) : front base ++ back base = base := by
  rw [front, back]
  cases hsplit : Rust.rsplitOnce '.' (fileName base) with
  | none => exact String.append_empty
  | some parts =>
    obtain ⟨hname, -⟩ := Rust.rsplitOnce_eq_some hsplit
    have hbase := directory_append_fileName base
    rw [hname, String.append_assoc] at hbase
    dsimp only
    rw [String.append_assoc, hbase]

theorem deriveSiblingPath_eq (base tag : String) :
    deriveSiblingPath base tag = front base ++ ("-" ++ tag) ++ back base := by
  rw [deriveSiblingPath, front, back]
  cases Rust.rsplitOnce '.' (fileName base) with
  | none =>
    dsimp only
    rw [String.append_empty, String.append_assoc]
  | some parts =>
    have hdot : "." = String.singleton '.' := rfl
    dsimp only
    rw [hdot]
    simp only [String.append_assoc]

/-- A sibling of a sibling has both tags. -/
theorem parts_deriveSiblingPath (base : String) {tag : String} (h : ∀ c ∈ tag.toList, isPlain c = true) :
    front (deriveSiblingPath base tag) = front base ++ ("-" ++ tag) ∧
      back (deriveSiblingPath base tag) = back base := by
  have hslash : ∀ c ∈ ("-" ++ tag).toList, isSlash c = false := by
    intro c hc
    rw [String.toList_append] at hc
    rcases List.mem_append.mp hc with hdash | htag
    · rw [List.mem_singleton.mp hdash]
      rfl
    · have hplain := h c htag
      rw [isPlain, Bool.and_eq_true] at hplain
      simpa using hplain.1
  have hdot : '.' ∉ ("-" ++ tag).toList := by
    intro hc
    rw [String.toList_append] at hc
    rcases List.mem_append.mp hc with hdash | htag
    · exact absurd (List.mem_singleton.mp hdash) (by decide)
    · exact absurd (h '.' htag) (by decide)
  cases hsplit : Rust.rsplitOnce '.' (fileName base) with
  | none =>
    have hsame : deriveSiblingPath base tag = directory base ++ (fileName base ++ ("-" ++ tag)) := by
      rw [deriveSiblingPath, hsplit, ← String.append_assoc, directory_append_fileName, String.append_assoc]
    have hname : ∀ c ∈ (fileName base ++ ("-" ++ tag)).toList, isSlash c = false := by
      intro c hc
      rw [String.toList_append] at hc
      exact (List.mem_append.mp hc).elim not_isSlash_of_mem_fileName (hslash c)
    have hnone : Rust.rsplitOnce '.' (fileName base ++ ("-" ++ tag)) = none := by
      rw [Rust.rsplitOnce_eq_none, String.toList_append, List.mem_append, not_or]
      exact ⟨Rust.rsplitOnce_eq_none.mp hsplit, hdot⟩
    have hfront : front base = base := by rw [front, hsplit]
    have hback : back base = "" := by rw [back, hsplit]
    rw [hsame, hfront, hback, front, back, (locate base hname).2, hnone]
    dsimp only
    rw [← String.append_assoc, directory_append_fileName]
    exact ⟨rfl, rfl⟩
  | some parts =>
    obtain ⟨stem, extension⟩ := parts
    obtain ⟨hwhole, hextension⟩ := Rust.rsplitOnce_eq_some hsplit
    have hmem : ∀ c, c ∈ stem.toList ∨ c ∈ extension.toList → c ∈ (fileName base).toList := by
      intro c hc
      rw [hwhole]
      simp only [String.toList_append, List.mem_append]
      rcases hc with hc | hc
      · exact .inl (.inl hc)
      · exact .inr hc
    have hsame : deriveSiblingPath base tag =
        directory base ++ (stem ++ ("-" ++ tag) ++ String.singleton '.' ++ extension) := by
      rw [deriveSiblingPath_eq, front, back, hsplit]
      simp only [String.append_assoc]
    have hname : ∀ c ∈ (stem ++ ("-" ++ tag) ++ String.singleton '.' ++ extension).toList, isSlash c = false := by
      intro c hc
      have hpart : c ∈ stem.toList ∨ c ∈ ("-" ++ tag).toList ∨ c = '.' ∨ c ∈ extension.toList :=
        by simpa [or_assoc] using hc
      rcases hpart with hc | hc | rfl | hc
      · exact not_isSlash_of_mem_fileName (hmem c (.inl hc))
      · exact hslash c hc
      · rfl
      · exact not_isSlash_of_mem_fileName (hmem c (.inr hc))
    have hfront : front base = directory base ++ stem := by rw [front, hsplit]
    have hback : back base = String.singleton '.' ++ extension := by rw [back, hsplit]
    rw [hsame, hfront, hback, front, back, (locate base hname).2, (locate base hname).1,
      Rust.rsplitOnce_append hextension]
    dsimp only
    rw [String.append_assoc]
    exact ⟨rfl, rfl⟩

/-! ### Slots -/

theorem isPlain_of_isTeamChar {c : Char} (h : isTeamChar c = true) : isPlain c = true := by
  by_contra hnot
  have hmark : c = '/' ∨ c = '\\' ∨ c = '.' := by
    simp only [isPlain, isSlash, Bool.not_eq_true, Bool.and_eq_false_iff, Bool.not_eq_false', Bool.or_eq_true,
      beq_iff_eq, bne_eq_false_iff_eq] at hnot
    tauto
  rcases hmark with rfl | rfl | rfl <;> exact absurd h (by decide)

theorem normalizeTeam_some {raw name : String} (h : normalizeTeam raw = some name) :
    name ≠ "" ∧ ∀ c ∈ name.toList, isTeamChar c = true := by
  have hend : ∀ value : String,
      (if value.isEmpty then none else if value.toList.all isTeamChar then some value else none) = some name →
        name ≠ "" ∧ ∀ c ∈ name.toList, isTeamChar c = true := by
    intro value hvalue
    split at hvalue
    case isTrue => cases hvalue
    case isFalse hfull =>
      split at hvalue
      case isTrue hall =>
        rw [← Option.some.inj hvalue]
        refine ⟨fun hempty => hfull ?_, List.all_eq_true.mp hall⟩
        rw [String.isEmpty_iff]
        exact hempty
      case isFalse => cases hvalue
  rw [normalizeTeam] at h
  by_cases hraw : (Rust.toLowercase (Rust.trim raw)).isEmpty = true
  case pos =>
    rw [if_pos hraw] at h
    cases h
  case neg =>
    rw [if_neg hraw] at h
    exact hend _ h

theorem Team.plain (t : Team) : ∀ c ∈ ("team-" ++ t.name).toList, isPlain c = true := by
  obtain ⟨raw, hraw⟩ := t.normalized
  intro c hc
  rw [String.toList_append, List.mem_append] at hc
  rcases hc with hword | hname
  · have hplain : ("team-".toList.all isPlain) = true := by decide
    exact List.all_eq_true.mp hplain c hword
  · exact isPlain_of_isTeamChar ((normalizeTeam_some hraw).2 c hname)

def teamTag : Option Team → String
  | some t => "-" ++ ("team-" ++ t.name)
  | none => ""

theorem parts_identityPath (base : String) (team : Option Team) :
    front (identityPath base .wireGuard (team.map Team.name)) = front base ++ teamTag team ∧
      back (identityPath base .wireGuard (team.map Team.name)) = back base := by
  cases team with
  | none =>
    rw [Option.map_none, identityPath, teamTag, String.append_empty]
    exact ⟨rfl, rfl⟩
  | some t =>
    rw [Option.map_some, identityPath, teamTag]
    exact parts_deriveSiblingPath base t.plain

/-- A slot's file is the base path with a tag in it. -/
theorem path_eq (base : String) (slot : Slot) :
    slot.path base = front base ++ (teamTag slot.team ++ slot.role) ++ back base := by
  have hderived : ∀ (team : Option Team) (tag : String),
      deriveSiblingPath (identityPath base .wireGuard (team.map Team.name)) tag =
        front base ++ (teamTag team ++ ("-" ++ tag)) ++ back base := by
    intro team tag
    obtain ⟨hfront, hback⟩ := parts_identityPath base team
    rw [deriveSiblingPath_eq, hfront, hback]
    simp only [String.append_assoc]
  cases slot with
  | primary team =>
    obtain ⟨hfront, hback⟩ := parts_identityPath base team
    have hself := front_append_back (identityPath base .wireGuard (team.map Team.name))
    rw [hfront, hback] at hself
    rw [Slot.path, Slot.role, String.append_empty]
    exact hself.symm
  | secondary team =>
    have hrole : "-secondary" = "-" ++ "secondary" := rfl
    rw [Slot.path, secondaryPath, hderived, Slot.team, Slot.role, hrole]
  | lastconn team =>
    have hrole : "-lastconn" = "-" ++ "lastconn" := rfl
    rw [Slot.path, lastconnPath, hderived, Slot.team, Slot.role, hrole]
  | masque =>
    rw [Slot.path, identityPath, deriveSiblingPath_eq]
    rfl
  | masqueLastconn =>
    have hplain : ("masque".toList.all isPlain) = true := by decide
    obtain ⟨hfront, hback⟩ := parts_deriveSiblingPath base (List.all_eq_true.mp hplain)
    rw [Slot.path, identityPath, lastconnPath, deriveSiblingPath_eq, hfront, hback]
    simp only [String.append_assoc]
    rfl

theorem path_inj (base : String) (a b : Slot) :
    a.path base = b.path base ↔ teamTag a.team ++ a.role = teamTag b.team ++ b.role := by
  rw [path_eq, path_eq, String.append_left_inj, String.append_right_inj]

/-- A slot without a team has one of the five files of a personal account. -/
theorem role_personal {slot : Slot} (h : slot.team = none) :
    slot.role ∈ ["", "-secondary", "-lastconn", "-masque", "-masque-lastconn"] := by
  cases slot <;> simp [Slot.role]

theorem role_team {slot : Slot} {t : Team} (h : slot.team = some t) :
    slot.role = "" ∧ slot = .primary (some t) ∨ slot.role = "-secondary" ∨ slot.role = "-lastconn" := by
  cases slot with
  | primary team => exact .inl ⟨rfl, congrArg Slot.primary h⟩
  | secondary team => exact .inr (.inl rfl)
  | lastconn team => exact .inr (.inr rfl)
  | masque => cases h
  | masqueLastconn => cases h

theorem slot_ext {a b : Slot} (hteam : a.team = b.team) (hrole : a.role = b.role) : a = b := by
  cases a <;> cases b <;> simp_all [Slot.team, Slot.role]

/-- No file of a personal account is a team's. -/
theorem tag_personal_ne {role : String} (h : role ∈ ["", "-secondary", "-lastconn", "-masque", "-masque-lastconn"])
    (t : Team) (rest : String) : role ≠ teamTag (some t) ++ rest := by
  intro heq
  have hstart : role.toList.take 2 = ['-', 't'] := by
    rw [heq, teamTag]
    simp
  simp only [List.mem_cons, List.not_mem_nil, or_false] at h
  rcases h with rfl | rfl | rfl | rfl | rfl <;> exact absurd hstart (by decide)

theorem ends_differ (s t : String) : s ++ "-secondary" ≠ t ++ "-lastconn" := by
  intro heq
  have hlast := congrArg (fun s => s.toList.getLast?) heq
  simp at hlast

/-- **Two files of a base path are one exactly if the one is a team's identity and the team
has the name of the other's team with the other's role.** -/
theorem path_eq_iff (base : String) {a b : Slot} (hne : a ≠ b) :
    a.path base = b.path base ↔ a.Shadows b ∨ b.Shadows a := by
  have hpersonal : teamTag none = "" := rfl
  rw [path_inj]
  constructor
  · intro heq
    cases ha : a.team with
    | none =>
      have hrole := role_personal ha
      cases hb : b.team with
      | none =>
        rw [ha, hb] at heq
        exact absurd (slot_ext (ha.trans hb.symm) ((String.append_right_inj _).mp heq)) hne
      | some u =>
        rw [ha, hb, hpersonal, String.empty_append] at heq
        exact absurd heq (tag_personal_ne hrole u _)
    | some t =>
      cases hb : b.team with
      | none =>
        rw [ha, hb, hpersonal, String.empty_append] at heq
        exact absurd heq.symm (tag_personal_ne (role_personal hb) t _)
      | some u =>
        rw [ha, hb, teamTag, teamTag] at heq
        simp only [String.append_assoc, String.append_right_inj] at heq
        rcases role_team ha with ⟨hra, haprimary⟩ | hra | hra
        · rw [hra, String.append_empty] at heq
          refine .inl ⟨t, u, haprimary, hb, ?_, heq⟩
          intro hrb
          rw [hrb, String.append_empty] at heq
          have htu : t = u := Team.ext heq
          exact hne (slot_ext (by rw [ha, hb, htu]) (by rw [hra, hrb]))
        · rcases role_team hb with ⟨hrb, hbprimary⟩ | hrb | hrb
          · rw [hrb, String.append_empty] at heq
            exact .inr ⟨u, t, hbprimary, ha, by rw [hra]; decide, heq.symm⟩
          · rw [hra, hrb, String.append_left_inj] at heq
            have htu : t = u := Team.ext heq
            exact absurd (slot_ext (by rw [ha, hb, htu]) (by rw [hra, hrb])) hne
          · rw [hra, hrb] at heq
            exact absurd heq (ends_differ _ _)
        · rcases role_team hb with ⟨hrb, hbprimary⟩ | hrb | hrb
          · rw [hrb, String.append_empty] at heq
            exact .inr ⟨u, t, hbprimary, ha, by rw [hra]; decide, heq.symm⟩
          · rw [hra, hrb] at heq
            exact absurd heq.symm (ends_differ _ _)
          · rw [hra, hrb, String.append_left_inj] at heq
            have htu : t = u := Team.ext heq
            exact absurd (slot_ext (by rw [ha, hb, htu]) (by rw [hra, hrb])) hne
  · have hshadow : ∀ {a b : Slot}, a.Shadows b → teamTag a.team ++ a.role = teamTag b.team ++ b.role := by
      rintro a b ⟨t, u, rfl, hb, -, hname⟩
      rw [hb, Slot.team, Slot.role, teamTag, teamTag, hname, String.append_empty]
      simp only [String.append_assoc]
    rintro (h | h)
    · exact hshadow h
    · exact (hshadow h).symm

/-! ### The directory -/

/-- What `enrolled_teams` asks of a file's name. -/
theorem mem_enrolledTeams {readDir : String → Option (List String)} {base team : String} :
    team ∈ enrolledTeams readDir base ↔
      ∃ entries, readDir (if directory base = "" then "." else directory base) = some entries ∧
        stem base ++ "-team-" ++ team ++ ".toml" ∈ entries ∧ team ≠ "" ∧
        Rust.endsWith "-secondary" team = false ∧ Rust.endsWith "-lastconn" team = false := by
  rw [enrolledTeams]
  dsimp only
  cases readDir (if directory base = "" then "." else directory base) with
  | none => simp
  | some entries =>
    dsimp only
    rw [List.mem_mergeSort, List.mem_eraseDups, List.mem_filterMap]
    constructor
    · rintro ⟨name, hname, h⟩
      obtain ⟨rest, hrest, h⟩ := Option.bind_eq_some_iff.mp h
      obtain ⟨found, hfound, h⟩ := Option.bind_eq_some_iff.mp h
      split at h
      case isTrue => cases h
      case isFalse hkeep =>
        obtain rfl := Option.some.inj h
        rw [Rust.stripStart_eq_some] at hrest
        rw [Rust.stripEnd_eq_some] at hfound
        simp only [Bool.or_eq_true, not_or, Bool.not_eq_true, String.isEmpty_eq_false_iff] at hkeep
        refine ⟨entries, rfl, ?_, hkeep.1.1, hkeep.1.2, hkeep.2⟩
        rw [String.append_assoc, ← hfound, ← hrest]
        exact hname
    · rintro ⟨_, ⟨⟩, hmem, hne, hsecondary, hlastconn⟩
      refine ⟨_, hmem, Option.bind_eq_some_iff.mpr ⟨team ++ ".toml", ?_, Option.bind_eq_some_iff.mpr ⟨team, ?_, ?_⟩⟩⟩
      · rw [Rust.stripStart_eq_some, String.append_assoc]
      · rw [Rust.stripEnd_eq_some]
      · rw [hsecondary, hlastconn, if_neg]
        rw [Bool.or_false, Bool.or_false, String.isEmpty_iff]
        exact hne

theorem isSlash_of_isSeparator {windows : Bool} {c : Char} (h : isSeparator windows c = true) : isSlash c = true := by
  rw [isSeparator, Bool.or_eq_true, Bool.and_eq_true] at h
  rw [isSlash, Bool.or_eq_true]
  exact h.imp_right And.right

theorem front_eq (base : String) : front base = directory base ++ stem base := by
  rw [front, stem]
  cases Rust.rsplitOnce '.' (fileName base) with
  | none => exact (directory_append_fileName base).symm
  | some parts => rfl

/-- The directory part of the base path is one for the platform too. -/
def Placed (windows : Bool) (base : String) : Prop :=
  ∀ c ∈ (directory base).toList.getLast?, isSeparator windows c = true

/-- The names that `enrolled_teams` gets to see of files in the directory of the base path. -/
theorem mem_listing (windows : Bool) (base : String) {names : List String}
    (hnames : ∀ x ∈ names, ∀ c ∈ x.toList, isSlash c = false) (name : String) :
    (∃ entries, listing windows (names.map (directory base ++ ·))
        (if directory base = "" then "." else directory base) = some entries ∧ name ∈ entries) ↔
      Placed windows base ∧ name ∈ names := by
  have hlast : ∀ c ∈ (directory base).toList.getLast?, isSlash c = true := by
    intro c hc
    rw [directory, String.toList_ofList] at hc
    obtain ⟨hne, hget⟩ := List.mem_getLast?_eq_getLast hc
    have hnot := List.rdropWhile_last_not (fun c => !isSlash c) base.toList hne
    rw [← hget] at hnot
    simpa using hnot
  obtain ⟨parent, hp⟩ : ∃ s, s = String.ofList ((directory base).toList.rdropWhile fun c => !isSeparator windows c) :=
    ⟨_, rfl⟩
  obtain ⟨last, hl⟩ : ∃ s, s = String.ofList ((directory base).toList.rtakeWhile fun c => !isSeparator windows c) :=
    ⟨_, rfl⟩
  have hparent : ∀ x ∈ names,
      String.ofList ((directory base ++ x).toList.rdropWhile fun c => !isSeparator windows c) = parent ∧
      String.ofList ((directory base ++ x).toList.rtakeWhile fun c => !isSeparator windows c) = last ++ x := by
    intro x hx
    have hinside : ∀ c ∈ x.toList, (!isSeparator windows c) = true := by
      intro c hc
      by_contra hsep
      have hseparates : isSeparator windows c = true := by simpa using hsep
      have hslash := isSlash_of_isSeparator hseparates
      rw [hnames x hx c hc] at hslash
      cases hslash
    rw [String.toList_append, Rust.rdropWhile_append hinside, rtakeWhile_append hinside, String.ofList_append,
      String.ofList_toList, hp, hl]
    exact ⟨rfl, rfl⟩
  have hentries : ∀ dir, listing windows (names.map (directory base ++ ·)) dir = some (names.filterMap fun x =>
      if parent = dir || parent = dir ++ "/" || (parent = "" && dir = ".") then some (last ++ x) else none) := by
    intro dir
    rw [listing, List.filterMap_map]
    refine congrArg some (List.filterMap_congr fun x hx => ?_)
    rw [Function.comp_apply, (hparent x hx).1, (hparent x hx).2]
  by_cases hplaced : Placed windows base
  case pos =>
    have hself : (directory base).toList.rdropWhile (fun c => !isSeparator windows c) = (directory base).toList := by
      rw [List.rdropWhile_eq_self_iff]
      intro hne
      rw [hplaced _ (List.getLast?_eq_some_getLast hne)]
      exact Bool.false_ne_true
    have hsplit := List.rdropWhile_append_rtakeWhile (p := fun c => !isSeparator windows c)
      (l := (directory base).toList)
    rw [hself, List.append_right_eq_self] at hsplit
    have hparent' : parent = directory base := by rw [hp, hself, String.ofList_toList]
    have hlast' : last = "" := by rw [hl, hsplit]
    rw [hentries, hparent', hlast', and_iff_right hplaced]
    by_cases hempty : directory base = ""
    · simp [hempty]
    · simp [hempty]
  case neg =>
    have hnot := hplaced
    rw [Placed] at hnot
    push Not at hnot
    obtain ⟨c, hc, hsep⟩ := hnot
    obtain ⟨hne, hget⟩ := List.mem_getLast?_eq_getLast hc
    have hfull : directory base ≠ "" := fun hempty => hne (by rw [hempty]; rfl)
    have hdot : directory base ≠ "." := by
      intro hdot
      have hslash := hlast c hc
      rw [hdot] at hc
      rw [← Option.some.inj hc] at hslash
      exact absurd hslash (by decide)
    have hpre := (List.rdropWhile_prefix (fun c => !isSeparator windows c) (l := (directory base).toList)).length_le
    have hself : parent ≠ directory base := by
      intro hself
      have hkeep : (directory base).toList.rdropWhile (fun c => !isSeparator windows c) = (directory base).toList := by
        conv_rhs => rw [← hself, hp, String.toList_ofList]
      rw [List.rdropWhile_eq_self_iff] at hkeep
      have hkept := hkeep hne
      rw [← hget] at hkept
      exact hkept (by simpa using hsep)
    have hlonger : parent ≠ directory base ++ "/" := by
      intro hlonger
      have hlen : parent.toList.length = (directory base ++ "/").toList.length := by rw [hlonger]
      rw [hp, String.toList_ofList, String.toList_append, List.length_append] at hlen
      have hone : "/".toList.length = 1 := rfl
      omega
    rw [if_neg hfull, hentries]
    simp [hself, hlonger, hdot, hplaced]

/-! ### The files of a base path -/

/-- `enrolled_teams` finds a team that has a file: the base path has the extension it looks
for and lies where it looks, and the name does not end in a role. -/
structure Listed (windows : Bool) (base : String) (t : Team) : Prop where
  extension : back base = ".toml"
  placed : Placed windows base
  role : Rust.endsWith "-secondary" t.name = false ∧ Rust.endsWith "-lastconn" t.name = false

/-- The name of a team's file. -/
theorem path_primary (base : String) (t : Team) :
    (Slot.primary (some t)).path base = directory base ++ (stem base ++ "-team-" ++ t.name ++ back base) := by
  have hdash : "-team-" = "-" ++ "team-" := rfl
  rw [path_eq, front_eq, Slot.team, Slot.role, teamTag, hdash, String.append_empty]
  simp only [String.append_assoc]

theorem fileName_eq (base : String) : fileName base = stem base ++ back base := by
  rw [← String.append_right_inj (directory base), directory_append_fileName, ← String.append_assoc, ← front_eq,
    front_append_back]

/-- The extension of a team's file is no part of the team's name. -/
theorem extension_eq {base team : String} {t : Team} (h : t.name ++ back base = team ++ ".toml") :
    t.name = team ∧ back base = ".toml" := by
  have hdot : '.' ∉ t.name.toList := by
    intro hmem
    obtain ⟨raw, hraw⟩ := t.normalized
    exact absurd ((normalizeTeam_some hraw).2 '.' hmem) (by decide)
  have hu : Rust.rsplitOnce '.' (team ++ ".toml") = some (team, "toml") := by
    have hparts : team ++ ".toml" = team ++ String.singleton '.' ++ "toml" := by
      rw [String.append_assoc]
      rfl
    have htoml : '.' ∉ "toml".toList := by decide
    rw [hparts, Rust.rsplitOnce_append htoml]
  rw [← h] at hu
  rw [back] at hu ⊢
  cases hsplit : Rust.rsplitOnce '.' (fileName base) with
  | none =>
    rw [hsplit, String.append_empty, Rust.rsplitOnce_of_notMem hdot] at hu
    cases hu
  | some parts =>
    obtain ⟨-, hextension⟩ := Rust.rsplitOnce_eq_some hsplit
    rw [hsplit] at hu
    dsimp only at hu ⊢
    rw [← String.append_assoc, Rust.rsplitOnce_append hextension] at hu
    obtain ⟨hname, htoml⟩ := Prod.mk.inj (Option.some.inj hu)
    exact ⟨hname, by rw [htoml]; rfl⟩

theorem not_isSlash_name (base : String) (t : Team) :
    ∀ c ∈ (stem base ++ "-team-" ++ t.name ++ back base).toList, isSlash c = false := by
  have hbase : ∀ c, c ∈ (stem base).toList ∨ c ∈ (back base).toList → isSlash c = false := by
    intro c hc
    apply not_isSlash_of_mem_fileName
    rw [fileName_eq, String.toList_append]
    exact List.mem_append.mpr hc
  have hword : ("-team-".toList.all fun c => !isSlash c) = true := rfl
  intro c hc
  rw [String.toList_append, String.toList_append, String.toList_append] at hc
  rcases List.mem_append.mp hc with hc | hback
  · rcases List.mem_append.mp hc with hc | hname
    · rcases List.mem_append.mp hc with hstem | hdash
      · exact hbase c (.inl hstem)
      · simpa using List.all_eq_true.mp hword c hdash
    · obtain ⟨raw, hraw⟩ := t.normalized
      have hplain := isPlain_of_isTeamChar ((normalizeTeam_some hraw).2 c hname)
      rw [isPlain, Bool.and_eq_true] at hplain
      simpa using hplain.1
  · exact hbase c (.inr hback)

/-- The teams that `enrolled_teams` finds among the files of saved identities. -/
theorem mem_enrolledTeams_saved (windows : Bool) (base : String) (saved : List Team) (team : String) :
    team ∈ enrolledTeams (listing windows (saved.map fun t => (Slot.primary (some t)).path base)) base ↔
      ∃ t ∈ saved, t.name = team ∧ Listed windows base t := by
  have hfiles : saved.map (fun t => (Slot.primary (some t)).path base) =
      (saved.map fun t => stem base ++ "-team-" ++ t.name ++ back base).map (directory base ++ ·) := by
    rw [List.map_map]
    exact List.map_congr_left fun t _ => path_primary base t
  have hnames : ∀ x ∈ saved.map (fun t => stem base ++ "-team-" ++ t.name ++ back base),
      ∀ c ∈ x.toList, isSlash c = false := by
    intro x hx
    obtain ⟨t, -, rfl⟩ := List.mem_map.mp hx
    exact not_isSlash_name base t
  have hlisting := mem_listing windows base hnames (stem base ++ "-team-" ++ team ++ ".toml")
  rw [← hfiles] at hlisting
  rw [mem_enrolledTeams]
  constructor
  · rintro ⟨entries, hentries, hmem, -, hrole⟩
    obtain ⟨hplaced, hname⟩ := hlisting.mp ⟨entries, hentries, hmem⟩
    obtain ⟨t, ht, hsame⟩ := List.mem_map.mp hname
    simp only [String.append_assoc, String.append_right_inj] at hsame
    obtain ⟨hteam, hextension⟩ := extension_eq hsame
    rw [← hteam] at hrole
    exact ⟨t, ht, hteam, hextension, hplaced, hrole⟩
  · rintro ⟨t, ht, rfl, hlisted⟩
    obtain ⟨raw, hraw⟩ := t.normalized
    have hname : stem base ++ "-team-" ++ t.name ++ ".toml" ∈
        saved.map fun t => stem base ++ "-team-" ++ t.name ++ back base :=
      List.mem_map.mpr ⟨t, ht, by rw [hlisted.extension]⟩
    obtain ⟨entries, hentries, hmem⟩ := hlisting.mpr ⟨hlisted.placed, hname⟩
    exact ⟨entries, hentries, hmem, (normalizeTeam_some hraw).1, hlisted.role⟩

/-- The files that the program itself takes for its configuration. -/
theorem configPath_eq (env : Env) (base : String) (hwg : env "AETHER_WG_CONFIG" = none)
    (hmasque : env "AETHER_MASQUE_CONFIG" = none) :
    warpConfigPath env base = identityPath base .wireGuard (teamScope env) ∧
      masqueConfigPath env base = identityPath base .masque (teamScope env) := by
  rw [warpConfigPath, masqueConfigPath, hwg, hmasque]
  cases teamScope env with
  | none => exact ⟨rfl, rfl⟩
  | some team => exact ⟨rfl, rfl⟩

/-- **Which files of a base path are one, and which teams are found.** Two different slots
share a file exactly if the one is the identity of a team that is named like the other's team
with the other's role; and `enrolled_teams` gives exactly the teams whose identities lie in
the directory if each of them is listed. The configuration paths are those of the slots. -/
theorem paths_iff (base : String) (a b : Slot) (windows : Bool) (saved : List Team) :
    (a ≠ b → (a.path base ≠ b.path base ↔ ¬ a.Shadows b ∧ ¬ b.Shadows a)) ∧
      ((∀ team, team ∈ enrolledTeams (listing windows (saved.map fun t => (Slot.primary (some t)).path base)) base ↔
          ∃ t ∈ saved, t.name = team) ↔ ∀ t ∈ saved, Listed windows base t) ∧
      ∀ env : Env, env "AETHER_WG_CONFIG" = none → env "AETHER_MASQUE_CONFIG" = none →
        warpConfigPath env base = identityPath base .wireGuard (teamScope env) ∧
          masqueConfigPath env base = identityPath base .masque (teamScope env) := by
  refine ⟨?_, ?_, fun env => configPath_eq env base⟩
  · intro hne
    rw [Ne, path_eq_iff base hne, not_or]
  · simp only [mem_enrolledTeams_saved]
    constructor
    · intro h t ht
      obtain ⟨u, -, hname, hlisted⟩ := (h t.name).mpr ⟨t, ht, rfl⟩
      have hsame : u = t := Team.ext hname
      exact hsame ▸ hlisted
    · intro h team
      constructor
      · rintro ⟨t, ht, hname, -⟩
        exact ⟨t, ht, hname⟩
      · rintro ⟨t, ht, hname⟩
        exact ⟨t, ht, hname, h t ht⟩

def acme : Team := ⟨"acme", "acme", by decide +kernel⟩

def acmeSecondary : Team := ⟨"acme-secondary", "acme-secondary", by decide +kernel⟩

/-- One team's second identity is another team's first, and that team is not found. -/
theorem secondary_shadowed :
    Slot.secondary (some acme) ≠ Slot.primary (some acmeSecondary) ∧
      (Slot.secondary (some acme)).path "aether.toml" = (Slot.primary (some acmeSecondary)).path "aether.toml" ∧
      "acme-secondary" ∉ enrolledTeams
        (listing false ([acmeSecondary].map fun t => (Slot.primary (some t)).path "aether.toml")) "aether.toml" := by
  refine ⟨?_, by decide +kernel, by decide +kernel⟩
  intro h
  cases h

end Aether.Identity
